import LowcarRuntime.Relay.Threads

/-!
# The relayer's calls on the device handle

The relayer claims and releases interfaces in its set-up loop, and `relay_clean_up` releases
`relay->interface_idx` and closes the handle, on each of the relayer's paths to it: no
configuration descriptor, no endpoints on the last interface, a failed Ping, and the monitor's
check. `handleCalls` gives the calls each step of the threads makes, and `Traced` pairs every
reachable state with the calls of the run that reached it (`Traced.reachable`,
`Reachable.traced`).

`heldAfter` replays calls against libusb's ownership of interfaces: a claim that succeeds takes the
interface, a release gives back one that is held (a negative index, `-1` before any claim, is no
interface), and closing the handle needs every interface given back. `Balanced.step` shows that
one step keeps the replay defined, holding exactly the relay's own `interface_idx` until the
teardown and nothing after it, and `Traced.balanced` lifts it to every run.
-/

namespace LowcarRuntime

/-- A libusb call on the device handle. -/
inductive HandleCall
  /-- `libusb_claim_interface(handle, i)`, and whether it returned `0`. -/
  | claim (i : Int) (ok : Bool)
  /-- `libusb_release_interface(handle, i)`. -/
  | release (i : Int)
  /-- `libusb_close(handle)`. -/
  | close
  deriving DecidableEq, Repr

/-- A call of the set-up loop as a call on the handle, the loop's `int i` being the index. -/
def UsbCall.toHandleCall : UsbCall → HandleCall
  | .claim i ok => .claim i ok
  | .release i => .release i

/-- The calls on the handle of `relay_clean_up(relay)`. -/
def relayCleanUp (relay : MsgRelay) : List HandleCall := [.release relay.interfaceIdx, .close]

/-- The calls on the handle that action `a` makes from state `s`: the set-up's claims and
releases, and the release and close of `relay_clean_up`. -/
def handleCalls (s : State) : Action → List HandleCall
  | .handshake env _ => (relayerSetup env s.relay).calls.map UsbCall.toHandleCall
  | .cleanUp => relayCleanUp s.relay
  | _ => []

/-- The reachable states, each with the calls on the handle of a run that reaches it. -/
inductive Traced (c : Config) : State → List HandleCall → Prop
  | init (now : UInt64) : Traced c (State.init now) []
  | step {s s' : State} {calls : List HandleCall} (a : Action) :
      Traced c s calls → step c s a = some s' → Traced c s' (calls ++ handleCalls s a)

/-- Modelled from the spec: what one call does to the interfaces held, `none` for a call the
discipline forbids. A claim that succeeds takes the interface; a release gives back a held one, and
of a negative index, which is no interface, does nothing; the close needs every interface given
back. -/
def HandleCall.replay (held : List Int) : HandleCall → Option (List Int)
  | .claim i ok => some (if ok then i :: held else held)
  | .release i => if i < 0 then some held else if i ∈ held then some (held.erase i) else none
  | .close => if held = [] then some [] else none

/-- Modelled from the spec: the interfaces held after `calls`, from `held`, or `none` when one of
them breaks the discipline. -/
def heldAfter (held : List Int) (calls : List HandleCall) : Option (List Int) :=
  calls.foldlM HandleCall.replay held

/-- The interfaces the relay holds: the one that `interface_idx` names once it is set. -/
def claimedBy (relay : MsgRelay) : List Int :=
  if 0 ≤ relay.interfaceIdx then [relay.interfaceIdx] else []

theorem heldAfter_append (held : List Int) (l₁ l₂ : List HandleCall) :
    heldAfter held (l₁ ++ l₂) = (heldAfter held l₁).bind fun h => heldAfter h l₂ :=
  List.foldlM_append _ _ _ _

@[simp] theorem heldAfter_nil (held : List Int) : heldAfter held [] = some held := rfl

@[simp] theorem heldAfter_cons (held : List Int) (call : HandleCall) (calls : List HandleCall) :
    heldAfter held (call :: calls) = (call.replay held).bind fun h => heldAfter h calls := rfl

theorem claimedBy_of_neg {relay : MsgRelay} (h : relay.interfaceIdx = -1) :
    claimedBy relay = [] := by
  simp [claimedBy, h]

/-- A traced state is reachable. -/
theorem Traced.reachable {c : Config} {s : State} {calls : List HandleCall} (h : Traced c s calls) :
    Reachable c s := by
  induction h with
  | init now => exact .init now
  | step a _ hs ih => exact ih.step a hs

/-- Every reachable state is reached by a run with some calls on the handle. -/
theorem Reachable.traced {c : Config} {s : State} (h : Reachable c s) :
    ∃ calls, Traced c s calls := by
  induction h with
  | init now => exact ⟨[], .init now⟩
  | step a _ hs ih =>
    obtain ⟨calls, ht⟩ := ih
    exact ⟨_, ht.step a hs⟩

/-! ## The set-up's claims and releases -/

/-- From a relay with no interface and calls that hold none, the claim loop leaves held exactly the
interface it stores in the relay. -/
theorem claimLoop_held (claimOk : Nat → Bool) (n i : Nat) (ifaces : List Interface)
    (relay : MsgRelay) (calls : List UsbCall) (hidx : relay.interfaceIdx = -1)
    (hheld : heldAfter [] (calls.map UsbCall.toHandleCall) = some []) :
    heldAfter [] ((claimLoop claimOk n i ifaces relay calls).calls.map UsbCall.toHandleCall) =
      some (claimedBy (claimLoop claimOk n i ifaces relay calls).relay) := by
  induction ifaces generalizing i relay calls with
  | nil => simpa [claimLoop, claimedBy_of_neg hidx] using hheld
  | cons iface rest ih =>
    obtain ⟨se, re, hr⟩ := getEndpoints_frame relay iface
    have hidx' : (getEndpoints relay iface).2.interfaceIdx = -1 := by rw [hr]; exact hidx
    simp only [claimLoop]
    split_ifs with hok h0 hlast
    · -- A failed claim holds nothing.
      exact ih _ _ _ hidx (by simp [heldAfter_append, hheld, HandleCall.replay,
        UsbCall.toHandleCall])
    · -- The interface with both endpoints is kept, and stored.
      simp [heldAfter_append, hheld, HandleCall.replay, UsbCall.toHandleCall, claimedBy,
        Int.natCast_nonneg]
    · -- The last interface, without endpoints, is given back.
      simp [heldAfter_append, hheld, HandleCall.replay, UsbCall.toHandleCall, Int.natCast_nonneg,
        claimedBy_of_neg hidx']
    · exact ih _ _ _ hidx' (by simp [heldAfter_append, hheld, HandleCall.replay,
        UsbCall.toHandleCall, Int.natCast_nonneg])

/-- The set-up, from `communicate`'s relay, holds exactly the interface it stores. -/
theorem relayerSetup_held (env : SetupEnv) (relay : MsgRelay) (hidx : relay.interfaceIdx = -1) :
    heldAfter [] ((relayerSetup env relay).calls.map UsbCall.toHandleCall) =
      some (claimedBy (relayerSetup env relay).relay) := by
  unfold relayerSetup
  split
  · simp [claimedBy_of_neg hidx]
  · exact claimLoop_held _ _ _ _ _ _ hidx rfl

/-- The set-up never closes the handle. -/
theorem toHandleCall_ne_close (u : UsbCall) : u.toHandleCall ≠ .close := by
  cases u <;> nofun

/-- The handshake keeps the interface the set-up stored, and leaves the relayer neither at its
set-up nor done. -/
theorem State.handshake_relayer (s : State) (env : SetupEnv) (p : PingEnv) :
    (s.handshake env p).relay.interfaceIdx = (relayerSetup env s.relay).relay.interfaceIdx ∧
      (s.handshake env p).relayer ≠ .setUp ∧ (s.handshake env p).relayer ≠ .done := by
  unfold State.handshake
  split <;> (try split) <;> simp

/-! ## The invariant -/

/-- What every run keeps: before the set-up no call is made and no interface is stored; the calls
replay, holding the relay's interface until `relay_clean_up` and none after it; and the close is
made only by `relay_clean_up`. -/
structure Balanced (s : State) (calls : List HandleCall) : Prop where
  setUp : s.relayer = .setUp → calls = [] ∧ s.relay.interfaceIdx = -1
  held : heldAfter [] calls = some (if s.relayer = .done then [] else claimedBy s.relay)
  closed : HandleCall.close ∈ calls → s.relayer = .done

variable {c : Config} {s s' : State} {calls : List HandleCall}

/-- At the start no call is made and nothing is held. -/
theorem balanced_init (now : UInt64) : Balanced (State.init now) [] where
  setUp _ := ⟨rfl, rfl⟩
  held := rfl
  closed := nofun

/-- A step that makes no call and keeps `interface_idx`, moving the relayer neither back to its
set-up nor to done, keeps the invariant. -/
theorem Balanced.quiet (hb : Balanced s calls) (hi : s'.relay.interfaceIdx = s.relay.interfaceIdx)
    (hs : s'.relayer = .setUp → s.relayer = .setUp)
    (hd : s'.relayer = .done ↔ s.relayer = .done) :
    Balanced s' calls where
  setUp h := by rw [hi]; exact hb.setUp (hs h)
  held := by simp only [hd, claimedBy, hi]; exact hb.held
  closed h := hd.2 (hb.closed h)

/-- The set-up and the Ping hold what the claim loop kept, which is the interface it stores. -/
theorem Balanced.handshake (hb : Balanced s calls) (hr : s.relayer = .setUp) (env : SetupEnv)
    (p : PingEnv) : Balanced (s.handshake env p) (calls ++ handleCalls s (.handshake env p)) := by
  obtain ⟨rfl, hidx⟩ := hb.setUp hr
  obtain ⟨hi, hs, hd⟩ := s.handshake_relayer env p
  refine ⟨fun h => absurd h hs, ?_, fun h => ?_⟩
  · simp only [handleCalls, List.nil_append, hd, if_false, claimedBy, hi]
    exact relayerSetup_held env s.relay hidx
  · simp only [handleCalls, List.nil_append, List.mem_map] at h
    obtain ⟨u, -, hu⟩ := h
    exact absurd hu (toHandleCall_ne_close u)

/-- `relay_clean_up` gives back the relay's interface, if any, and then closes the handle with
nothing held. -/
theorem Balanced.cleanUp (hb : Balanced s calls) (hr : s.relayer = .cleanUp) :
    Balanced { s with relayer := .done, outstanding := false }
      (calls ++ handleCalls s .cleanUp) where
  setUp := nofun
  held := by
    have h := hb.held
    rw [if_neg (by rw [hr]; nofun)] at h
    rw [heldAfter_append, h]
    by_cases hi : 0 ≤ s.relay.interfaceIdx
    · simp [handleCalls, relayCleanUp, claimedBy, hi, not_lt.2 hi, HandleCall.replay]
    · simp [handleCalls, relayCleanUp, claimedBy, hi, lt_of_not_le hi, HandleCall.replay]
  closed _ := rfl

/-- A step keeps the invariant. -/
theorem Balanced.step (hb : Balanced s calls) {a : Action} (h : step c s a = some s') :
    Balanced s' (calls ++ handleCalls s a) := by
  cases a <;>
    simp only [LowcarRuntime.step, Option.ite_none_right_eq_some, Option.some.injEq] at h <;>
    obtain ⟨hr, rfl⟩ := h
  case handshake env p => exact hb.handshake hr env p
  case cleanUp => exact hb.cleanUp hr
  all_goals simp only [handleCalls, List.append_nil]
  case tick => exact hb.quiet rfl id Iff.rfl
  case activate => exact hb.quiet rfl (by simp) (by simp [hr])
  case monitor =>
    unfold State.monitor
    split_ifs
    · exact hb.quiet rfl (by simp) (by simp [hr])
    · exact hb
  case sender due =>
    obtain ⟨h1, h2, -⟩ := s.senderStep_frame c due
    exact hb.quiet h2 (h1 ▸ id) (by rw [h1])
  case receiverStart =>
    split_ifs
    · exact hb.quiet rfl id Iff.rfl
    · exact hb
  case receive data t1 t2 t3 =>
    obtain ⟨h1, h2, -⟩ := s.receive_frame c data t1 t2 t3
    exact hb.quiet h2 (h1 ▸ id) (by rw [h1])

/-- Every run keeps the invariant. -/
theorem Traced.balanced (h : Traced c s calls) : Balanced s calls := by
  induction h with
  | init now => exact balanced_init now
  | step a _ hs ih => exact ih.step hs

/-- Over every run of the threads, whatever the claims, the descriptors, the Ping and the monitor
return, the calls on the handle replay: no release names a non-negative index that is not held.
Until the teardown the one interface held is the relay's `interface_idx`, if set; once
`relay_clean_up` is done, on whichever path the relayer reached it, nothing is held, and when the
handle is closed every interface claimed has been given back, each once. -/
theorem relayer_releases_each_claim_once (c : Config) {s : State} {calls : List HandleCall}
    (h : Traced c s calls) :
    ∃ held, heldAfter [] calls = some held ∧ (s.relayer ≠ .done → held = claimedBy s.relay) ∧
      (s.relayer = .done → held = []) ∧ (HandleCall.close ∈ calls → held = []) := by
  have hb := h.balanced
  refine ⟨_, hb.held, fun hd => if_neg hd, fun hd => if_pos hd, fun hc => ?_⟩
  rw [if_pos (hb.closed hc)]

/-- A device found on interface `0` that then detaches: the claim is given back by
`relay_clean_up`, before the close. -/
theorem relayer_releases_each_claim_once_detached :
    Traced ⟨1000, 500, 32⟩ { started 0 with relayer := .done, outstanding := false }
      [.claim 0 true, .release 0, .close] ∧
    ∃ held, heldAfter [] [.claim 0 true, .release 0, .close] = some held ∧
      (({ started 0 with relayer := .done, outstanding := false } : State).relayer ≠ .done →
        held = claimedBy ({ started 0 with relayer := .done, outstanding := false } : State).relay) ∧
      (({ started 0 with relayer := .done, outstanding := false } : State).relayer = .done →
        held = []) ∧
      (HandleCall.close ∈ [HandleCall.claim 0 true, .release 0, .close] → held = []) := by
  have h : Traced ⟨1000, 500, 32⟩ { started 0 with relayer := .done, outstanding := false }
      [.claim 0 true, .release 0, .close] :=
    ((((Traced.init 0).step (.handshake goodSetup goodPing) rfl).step .activate rfl).step
      (.monitor false) rfl).step .cleanUp rfl
  exact ⟨h, relayer_releases_each_claim_once _ h⟩

end LowcarRuntime
