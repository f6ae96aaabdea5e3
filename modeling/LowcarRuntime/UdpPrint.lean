import Mathlib.Data.List.Basic

/-!
# Printing the next device data

`print_next_dev_data` of `src/test/client/net_handler_client.c` asks the dump thread to print the
next UDP packet: it sets `print_next_udp` under `print_udp_mutex`. The dump thread, `output_dump`,
tests the flag under the mutex once per iteration of its loop, after `select` returns, and points
`udp_output_fp` at `stdout` when it is set; `recv_udp_data` prints the packet to `udp_output_fp` and
then, under the mutex again, clears the flag and points the output back at `/dev/null`.
`start_net_handler` clears the flag and points the output at `/dev/null` before it starts the
thread. The TCP part of the loop touches neither variable. When the net handler has disconnected,
`recv_tcp_data` returns `-1` and `output_dump` returns, after the test of the flag and before the
UDP packet of that iteration; `stop_net_handler` may also cancel the thread in `select`. Either
way the dump thread takes no more steps.

A state holds the two shared variables, where the dump thread is, and two ghost counts: the calls
of `print_next_dev_data` and the packets printed to `stdout`. `step` is one critical section or
statement of either thread, and `Reachable` closes the start under every interleaving.

`Inv.step` shows that the output points at `stdout` only while a request is pending and that no
more packets reach `stdout` than requests were made (`udp_prints_le_requests`). A request made after
the dump thread's test and before its reset is cleared by that reset while the packet goes to
`/dev/null`, and no packet is printed for it afterwards (`udp_request_lost`).
-/

namespace LowcarRuntime

/-- Where `udp_output_fp` points. -/
inductive UdpOutput
  | stdout
  | nullFp
  deriving DecidableEq, Repr

/-- Where the dump thread is, as far as the UDP output goes. -/
inductive DumpPc
  /-- In `select`, before the test of `print_next_udp`. -/
  | select
  /-- After the test, before `recv_udp_data` prints. -/
  | checked
  /-- In `recv_udp_data`, after its prints and before it resets the flag. -/
  | printed
  /-- Returned from `output_dump`, `recv_tcp_data` having returned `-1`. -/
  | returned
  deriving DecidableEq, Repr

/-- The variables the UDP output depends on, with two ghost counts. -/
structure UdpPrint where
  /-- The global `print_next_udp`. -/
  printNextUdp : Bool
  /-- The global `udp_output_fp`. -/
  udpOutputFp : UdpOutput
  /-- Where the dump thread is. -/
  dump : DumpPc
  /-- Ghost: the calls of `print_next_dev_data`. -/
  requests : Nat
  /-- Ghost: the UDP packets printed to `stdout`. -/
  stdoutPrints : Nat
  deriving DecidableEq, Repr

/-- One step of the client thread or of the dump thread. -/
inductive UdpAction
  /-- `print_next_dev_data`: `print_next_udp = 1` under the mutex. -/
  | request
  /-- After `select`: `if (print_next_udp) udp_output_fp = stdout;` under the mutex. -/
  | check
  /-- The prints of `recv_udp_data` to `udp_output_fp`. -/
  | recvUdp
  /-- The end of `recv_udp_data`: `print_next_udp = 0; udp_output_fp = null_fp;` under the mutex,
  if the flag is set. -/
  | reset
  /-- The UDP descriptor is not ready: the loop goes back to `select`. -/
  | udpNotReady
  /-- `recv_tcp_data` finds the net handler disconnected and returns `-1`: `output_dump`
  returns. -/
  | tcpClosed
  deriving DecidableEq, Repr

namespace UdpPrint

/-- The state `start_net_handler` starts the dump thread in. -/
def init : UdpPrint := ⟨false, .nullFp, .select, 0, 0⟩

/-- One step; the dump thread's steps are enabled at its program counter, the client's always. -/
def step (s : UdpPrint) : UdpAction → Option UdpPrint
  | .request => some { s with printNextUdp := true, requests := s.requests + 1 }
  | .check =>
    if s.dump = .select then
      some { s with udpOutputFp := if s.printNextUdp then .stdout else s.udpOutputFp,
                    dump := .checked }
    else none
  | .recvUdp =>
    if s.dump = .checked then
      some { s with dump := .printed,
                    stdoutPrints := if s.udpOutputFp = .stdout then s.stdoutPrints + 1
                      else s.stdoutPrints }
    else none
  | .reset =>
    if s.dump = .printed then
      some (if s.printNextUdp then { s with printNextUdp := false, udpOutputFp := .nullFp,
                                            dump := .select }
        else { s with dump := .select })
    else none
  | .udpNotReady => if s.dump = .checked then some { s with dump := .select } else none
  | .tcpClosed => if s.dump = .checked then some { s with dump := .returned } else none

/-- The states of every interleaving from the start. -/
inductive Reachable : UdpPrint → Prop
  | init : Reachable init
  | step {s s' : UdpPrint} (a : UdpAction) : Reachable s → s.step a = some s' → Reachable s'

/-- The steps of a list of actions, while they are enabled. -/
def run (s : UdpPrint) : List UdpAction → Option UdpPrint
  | [] => some s
  | a :: as => (s.step a).bind fun s' => run s' as

/-- A pending request counts until the dump thread has printed for it. -/
def pending (s : UdpPrint) : Nat := if s.printNextUdp = true ∧ s.dump ≠ .printed then 1 else 0

/-- What every interleaving keeps: the output points at `stdout` only while a request is pending,
and the packets printed to `stdout` and the pending request are no more than the requests. -/
structure Inv (s : UdpPrint) : Prop where
  stdout_pending : s.udpOutputFp = .stdout → s.printNextUdp = true
  prints_le : s.stdoutPrints + s.pending ≤ s.requests

theorem inv_init : init.Inv := ⟨nofun, le_refl 0⟩

variable {s s' : UdpPrint}

theorem Inv.step (hi : s.Inv) {a : UdpAction} (h : s.step a = some s') : s'.Inv := by
  have hp := hi.prints_le
  cases a <;> simp only [UdpPrint.step, Option.ite_none_right_eq_some, Option.some.injEq] at h
  case request =>
    obtain rfl := h
    refine ⟨fun _ => rfl, ?_⟩
    simp only [pending] at hp ⊢
    split_ifs at hp ⊢ <;> omega
  case check =>
    obtain ⟨hd, rfl⟩ := h
    refine ⟨fun ho => ?_, by simpa [pending, hd] using hp⟩
    by_cases hf : s.printNextUdp
    · exact hf
    · exact hi.stdout_pending (by simpa [hf] using ho)
  case recvUdp =>
    obtain ⟨hd, rfl⟩ := h
    refine ⟨hi.stdout_pending, ?_⟩
    simp only [pending, hd] at hp ⊢
    by_cases ho : s.udpOutputFp = .stdout
    · simp [ho, hi.stdout_pending ho] at hp ⊢; omega
    · simp [ho]; omega
  case reset =>
    obtain ⟨hd, rfl⟩ := h
    split_ifs with hf
    · exact ⟨nofun, by simpa [pending, hd] using hp⟩
    · exact ⟨fun ho => absurd (hi.stdout_pending ho) hf, by simpa [pending, hf] using hp⟩
  all_goals
    obtain ⟨hd, rfl⟩ := h
    exact ⟨hi.stdout_pending, by simpa [pending, hd] using hp⟩

theorem Reachable.inv (h : s.Reachable) : s.Inv := by
  induction h with
  | init => exact inv_init
  | step a _ hs ih => exact ih.step hs

/-- Over every interleaving of the client and the dump thread, `udp_output_fp` points at `stdout`
only while `print_next_udp` is set, and no more UDP packets are printed to `stdout` than
`print_next_dev_data` was called. -/
theorem udp_prints_le_requests (h : s.Reachable) :
    (s.udpOutputFp = .stdout → s.printNextUdp = true) ∧ s.stdoutPrints ≤ s.requests :=
  ⟨h.inv.stdout_pending, le_trans (Nat.le_add_right _ _) h.inv.prints_le⟩

/-- A request served: the client's request, the dump thread's test, a packet printed to `stdout`
and the reset. -/
theorem udp_prints_le_requests_served :
    Reachable ⟨false, .nullFp, .select, 1, 1⟩ ∧
      ((⟨false, .nullFp, .select, 1, 1⟩ : UdpPrint).udpOutputFp = .stdout → false = true) ∧
      (1 : Nat) ≤ 1 := by
  have h : Reachable ⟨false, .nullFp, .select, 1, 1⟩ :=
    .step .reset (.step .recvUdp (.step .check (.step .request .init rfl) rfl) rfl) rfl
  exact ⟨h, udp_prints_le_requests h⟩

/-- With the flag clear and the output on `/dev/null`, every step but a request keeps both, and
prints nothing to `stdout`. -/
theorem step_unrequested (hq : s.printNextUdp = false ∧ s.udpOutputFp = .nullFp) {a : UdpAction}
    (ha : a ≠ .request) (h : s.step a = some s') :
    (s'.printNextUdp = false ∧ s'.udpOutputFp = .nullFp) ∧ s'.stdoutPrints = s.stdoutPrints ∧
      s'.requests = s.requests := by
  obtain ⟨hf, ho⟩ := hq
  cases a <;> simp only [UdpPrint.step, Option.ite_none_right_eq_some, Option.some.injEq] at h
  case request => exact absurd rfl ha
  all_goals obtain ⟨-, rfl⟩ := h; simp [hf, ho]

theorem run_unrequested {as : List UdpAction} (hq : s.printNextUdp = false ∧ s.udpOutputFp = .nullFp)
    (ha : .request ∉ as) (h : s.run as = some s') :
    s'.stdoutPrints = s.stdoutPrints ∧ s'.requests = s.requests := by
  induction as generalizing s with
  | nil => cases h; exact ⟨rfl, rfl⟩
  | cons a as ih =>
    obtain ⟨t, ht, hr⟩ := Option.bind_eq_some.1 h
    obtain ⟨hq', hp, hn⟩ := step_unrequested hq (fun h => ha (h ▸ .head _)) ht
    rw [← hp, ← hn]
    exact ih hq' (fun h => ha (.tail _ h)) hr

/-- A request made after the dump thread has tested a clear flag is lost: the packet then received
goes to `/dev/null`, the reset that follows clears the flag the request set, and until the next
request no packet reaches `stdout`, however the dump thread goes on. -/
theorem udp_request_lost (h : s.Reachable) (hd : s.dump = .checked) (hf : s.printNextUdp = false) :
    ∃ s', s.run [.request, .recvUdp, .reset] = some s' ∧ s'.requests = s.requests + 1 ∧
      ∀ as s'', .request ∉ as → s'.run as = some s'' →
        s''.stdoutPrints = s.stdoutPrints ∧ s''.requests = s.requests + 1 := by
  have ho : s.udpOutputFp = .nullFp := by
    cases hfp : s.udpOutputFp
    · exact absurd (h.inv.stdout_pending hfp) (by simp [hf])
    · rfl
  refine ⟨⟨false, .nullFp, .select, s.requests + 1, s.stdoutPrints⟩, by simp [run, step, hd, ho],
    rfl, fun as s'' ha hr => ?_⟩
  exact run_unrequested ⟨rfl, rfl⟩ ha hr

/-- The dump thread tests the flag before any request, and the request comes just after. -/
theorem udp_request_lost_after_test :
    ∃ s', (⟨false, .nullFp, .checked, 0, 0⟩ : UdpPrint).run [.request, .recvUdp, .reset] =
        some s' ∧ s'.requests = 0 + 1 ∧
      ∀ as s'', .request ∉ as → s'.run as = some s'' →
        s''.stdoutPrints = 0 ∧ s''.requests = 0 + 1 :=
  udp_request_lost (.step .check .init rfl) rfl rfl

end UdpPrint

end LowcarRuntime
