import LowcarRuntime.Relay.Threads

/-!
# What the handler sends to a device

The kinds of the messages the threads of one device transfer to it, as each step makes them. `ping`
transfers the Ping once `message_to_bytes` has given it a length; the sender transfers a
DeviceWrite, a HeartBeatRequest or a HeartBeatResponse at the statement that does so, whatever the
transfer returns. `Sent` records the kinds along every interleaving of `Reachable`.

The Ping goes first and only once: nothing is sent before the handshake, and the sender, which sends
everything else, leaves its wait only once `start` is set after a successful Ping. The sender sends
a HeartBeatResponse only after finding `got_hb_req` set and clears the flag after it, so it sends no
more of them than HeartBeatRequests the receiver processed (`sends_ping_first_answers_requests`).
-/

namespace LowcarRuntime

namespace State

/-- The kinds of the messages that action `a` transfers to the device from `s`, when it is
enabled. -/
def sends (s : State) : Action → List UInt8
  | .handshake env p =>
    if (relayerSetup env s.relay).exit = .handshake ∧ 0 < p.serialized then [PacketType.ping]
    else []
  | .sender _ =>
    match s.sender with
    | .sendWrite => [PacketType.deviceWrite]
    | .sendHbReq => [PacketType.heartBeatRequest]
    | .sendHbResp => [PacketType.heartBeatResponse]
    | _ => []
  | _ => []

/-- The HeartBeatResponse the sender is bound to send: it is about to, or `got_hb_req` is set and
the sender is not about to clear it. -/
def respPending (s : State) : Nat :=
  if s.sender = .sendHbResp ∨ (s.sender ≠ .clearGotHb ∧ s.relay.gotHbReq ≠ 0) then 1 else 0

end State

/-- The kinds sent along an interleaving from `communicate`, in order. -/
inductive Sent (c : Config) : State → List UInt8 → Prop
  | init (now : UInt64) : Sent c (State.init now) []
  | step {s s' : State} {out : List UInt8} (a : Action) :
      Sent c s out → step c s a = some s' → Sent c s' (out ++ s.sends a)

/-- Nothing was sent, or the Ping first and never again. -/
def PingFirst (out : List UInt8) : Prop :=
  out = [] ∨ ∃ rest, out = PacketType.ping :: rest ∧ PacketType.ping ∉ rest

/-- What holds of the kinds sent and the state along every interleaving. -/
structure SentInv (s : State) (out : List UInt8) : Prop where
  /-- Nothing is sent before the handshake. -/
  setUp : s.relayer = .setUp → out = []
  /-- The Ping comes first, and only once. -/
  pingFirst : PingFirst out
  /-- The handshake that lets the threads start sent the Ping. -/
  pinged : s.relay.start = 1 ∨ s.relayer = .activate → out ≠ []
  /-- Each HeartBeatResponse sent or pending answers a HeartBeatRequest processed. -/
  responses : out.count PacketType.heartBeatResponse + s.respPending ≤ s.hbReqs

variable {c : Config} {s s' : State} {out : List UInt8}

theorem Sent.reachable (h : Sent c s out) : Reachable c s := by
  induction h with
  | init now => exact .init now
  | step a _ hs ih => exact ih.step a hs

/-! ## One step -/

theorem PingFirst.append {ms : List UInt8} (h : PingFirst out) (hne : out ≠ [])
    (hm : PacketType.ping ∉ ms) : PingFirst (out ++ ms) := by
  obtain h | ⟨rest, rfl, hr⟩ := h
  · exact absurd h hne
  · exact .inr ⟨rest ++ ms, rfl, by simp [hr, hm]⟩

theorem State.respPending_le_one (s : State) : s.respPending ≤ 1 := by
  unfold State.respPending; split <;> omega

/-- `ping` returns `0` only for a Ping `message_to_bytes` gave a length. -/
theorem ping_serialized {p : PingEnv} {id : DevId} (h : ping p = .ok id) : 0 < p.serialized := by
  by_contra hs
  rw [ping, if_pos (not_lt.1 hs)] at h
  cases h

/-- The handshake moves the relayer on and leaves what the sender and the receiver share alone;
it lets the threads start only after a Ping went out. -/
theorem State.handshake_frame (env : SetupEnv) (p : PingEnv) :
    (s.handshake env p).relayer ≠ .setUp ∧ (s.handshake env p).relay.start = s.relay.start ∧
      (s.handshake env p).relay.gotHbReq = s.relay.gotHbReq ∧
      (s.handshake env p).sender = s.sender ∧ (s.handshake env p).hbReqs = s.hbReqs ∧
      ((s.handshake env p).relayer = .activate →
        (relayerSetup env s.relay).exit = .handshake ∧ 0 < p.serialized) := by
  obtain ⟨i, se, re, hsu⟩ := relayerSetup_frame env s.relay
  unfold State.handshake
  split
  · simp [hsu]
  · split
    · simp [hsu, ping_serialized ‹_›, *]
    · simp [hsu]

/-- The sender's statements keep the HeartBeatResponses sent and pending: a response sent is one
that was pending. -/
theorem State.senderStep_responses (s : State) (due : Bool) :
    (s.sends (.sender due)).count PacketType.heartBeatResponse + (s.senderStep c due).respPending =
      s.respPending := by
  cases h : s.sender <;> simp only [State.sends, State.senderStep, h]
  case waitStart => split_ifs <;> simp [State.respPending, h]
  case checkWrite => split <;> simp [State.respPending, h]
  case checkHbReq => split_ifs <;> simp [State.respPending, h]
  case checkGotHb => split_ifs with hg <;> simp [State.respPending, h, hg]
  all_goals simp [State.respPending, h] <;> rfl

/-- The sender transfers no Ping, and nothing while it waits for `start`. -/
theorem State.sends_sender (s : State) (due : Bool) :
    PacketType.ping ∉ s.sends (.sender due) ∧ (s.sender = .waitStart → s.sends (.sender due) = []) := by
  unfold State.sends
  cases s.sender <;> simp [PacketType.ping, PacketType.deviceWrite, PacketType.heartBeatRequest,
    PacketType.heartBeatResponse]

/-- Neither the sender nor the receiver writes `start`. -/
theorem State.start_senderStep (s : State) (due : Bool) :
    (s.senderStep c due).relay.start = s.relay.start := by
  unfold State.senderStep
  split <;> (try split_ifs) <;> rfl

theorem State.start_receive (s : State) (data : Mem) (t1 t2 t3 : Transfer) :
    (s.receive c data t1 t2 t3).relay.start = s.relay.start := by
  unfold State.receive State.dispatch
  split_ifs <;> rfl

/-- A step that sends nothing needs only the invariant of its new state. -/
theorem SentInv.quiet {a : Action} (hq : s.sends a = []) (h : SentInv s' out) :
    SentInv s' (out ++ s.sends a) := by
  rwa [hq, List.append_nil]

theorem SentInv.step (hr : Inv s) (hi : SentInv s out) {a : Action} (h : step c s a = some s') :
    SentInv s' (out ++ s.sends a) := by
  cases a <;> simp only [LowcarRuntime.step, Option.ite_none_right_eq_some, Option.some.injEq] at h <;>
    obtain ⟨hg, rfl⟩ := h
  case handshake env p =>
    -- Nothing was sent before; the handshake sends the Ping or nothing.
    obtain ⟨hsu, hst, hgot, hsd, hq, hact⟩ := s.handshake_frame env p
    obtain rfl : out = [] := hi.setUp hg
    have hsends : s.sends (.handshake env p) = [PacketType.ping] ∨
        (s.sends (.handshake env p) = [] ∧ (s.handshake env p).relayer ≠ .activate) := by
      simp only [State.sends]
      split_ifs with h
      exacts [.inl rfl, .inr ⟨rfl, fun ha => h (hact ha)⟩]
    have hp : (s.handshake env p).respPending = s.respPending := by
      simp only [State.respPending, hsd, hgot]
    have hs0 : (s.handshake env p).relay.start ≠ 1 := by rw [hst, hr.setUp hg]; decide
    refine ⟨fun h => absurd h hsu, ?_, ?_, ?_⟩ <;> rcases hsends with hs | ⟨hs, hna⟩ <;>
      simp only [hs, List.nil_append]
    · exact .inr ⟨[], rfl, List.not_mem_nil _⟩
    · exact .inl rfl
    · exact fun _ => List.cons_ne_nil _ _
    · rintro (h | h)
      exacts [absurd h hs0, absurd h hna]
    · simpa [hp, hq, PacketType.ping, PacketType.heartBeatResponse] using hi.responses
    · simpa [hp, hq] using hi.responses
  case sender due =>
    obtain ⟨hping, hwait⟩ := s.sends_sender due
    obtain ⟨hrel, -, hq⟩ := s.senderStep_frame c due
    have hst := s.start_senderStep (c := c) due
    -- The sender sends only once it has left its wait, and so after the Ping.
    have hout : s.sends (.sender due) = [] ∨ out ≠ [] := by
      by_cases hw : s.sender = .waitStart
      · exact .inl (hwait hw)
      · exact .inr (hi.pinged (.inl (hr.sender hw)))
    refine ⟨fun h => ?_, ?_, fun h => ?_, ?_⟩
    · have h0 := hi.setUp (hrel ▸ h)
      rcases hout with hn | hn
      · rw [h0, hn]; rfl
      · exact absurd h0 hn
    · rcases hout with hn | hn
      · rw [hn, List.append_nil]; exact hi.pingFirst
      · exact hi.pingFirst.append hn hping
    · rw [hrel, hst] at h
      exact fun he => hi.pinged h (List.append_eq_nil.1 he).1
    · have hresp := s.senderStep_responses (c := c) due
      rw [List.count_append, hq]
      have := hi.responses
      omega
  all_goals refine SentInv.quiet rfl ?_
  case activate =>
    exact ⟨nofun, hi.pingFirst, fun _ => hi.pinged (.inr hg), hi.responses⟩
  case monitor attached =>
    unfold State.monitor
    split_ifs
    · exact ⟨nofun, hi.pingFirst, fun h => hi.pinged (h.imp_right nofun), hi.responses⟩
    · exact hi
  case cleanUp =>
    exact ⟨nofun, hi.pingFirst, fun h => hi.pinged (h.imp_right nofun), hi.responses⟩
  case receiverStart =>
    split_ifs
    · exact { hi with }
    · exact hi
  case receive data t1 t2 t3 =>
    obtain ⟨hrel, -, hsnd, -, hq⟩ := s.receive_frame c data t1 t2 t3
    have hst := s.start_receive (c := c) data t1 t2 t3
    refine ⟨fun h => hi.setUp (hrel ▸ h), hi.pingFirst, fun h => hi.pinged (by rwa [hrel, hst] at h), ?_⟩
    have hr := hi.responses
    rcases hq with ⟨hq, hgot⟩ | hq
    · have hp : (s.receive c data t1 t2 t3).respPending = s.respPending := by
        simp only [State.respPending, hsnd, hgot]
      show _ + _ ≤ _
      rw [hp, hq]; exact hr
    · have := (s.receive c data t1 t2 t3).respPending_le_one
      show _ + _ ≤ _
      rw [hq]; omega
  case tick => exact { hi with }

theorem SentInv.init (now : UInt64) : SentInv (State.init now) [] where
  setUp _ := rfl
  pingFirst := .inl rfl
  pinged h := by simp [State.init, communicateInit] at h
  responses := by simp [State.respPending, State.init, communicateInit]

theorem Sent.inv (h : Sent c s out) : SentInv s out := by
  induction h with
  | init now => exact SentInv.init now
  | step a hs hstep ih => exact ih.step hs.reachable.inv hstep

/-! ## Every interleaving -/

/-- Along every interleaving, the handler transfers the Ping before anything else and only once,
has transferred it once `start` is set, and sends no more HeartBeatResponses than HeartBeatRequests
the receiver has processed. -/
theorem sends_ping_first_answers_requests (h : Sent c s out) :
    PingFirst out ∧ (s.relay.start = 1 → out ≠ []) ∧
      out.count PacketType.heartBeatResponse ≤ s.hbReqs :=
  ⟨h.inv.pingFirst, fun hs => h.inv.pinged (.inl hs),
    le_trans (Nat.le_add_right _ _) h.inv.responses⟩

/-- The handshake and the start: the Ping is all that was sent. -/
theorem sends_ping_first_answers_requests_started :
    Sent ⟨1000, 500, 32⟩ (started 0) [PacketType.ping] ∧
      PingFirst [PacketType.ping] ∧ ((started 0).relay.start = 1 → [PacketType.ping] ≠ []) ∧
        [PacketType.ping].count PacketType.heartBeatResponse ≤ (started 0).hbReqs := by
  have h : Sent ⟨1000, 500, 32⟩ (started 0) [PacketType.ping] :=
    ((Sent.init 0).step (.handshake goodSetup goodPing) rfl).step .activate rfl
  exact ⟨h, sends_ping_first_answers_requests h⟩

end LowcarRuntime
