import LowcarRuntime.Relay.Setup
import LowcarRuntime.Relay.Transfer

/-!
# The relay threads

`communicate` starts three threads on one `msg_relay_t`. The relayer sets the device up, does the
Ping handshake, sets `start` and then watches the device; the sender and the receiver wait for
`start` and then loop. A state holds the shared relay, each thread's program counter, the
receiver's message and the time `millis()` returns. `step` is one statement of one thread, at its
program counter, or the clock going forward, and `Reachable` closes the start of `communicate`
under every interleaving of steps.

The relayer's set-up and Ping are one step: until `start` is set the other two threads read
nothing but `start`. `relay_clean_up` cancels the sender and the receiver, which take no step
after it. Three ghost fields record what the spec's heartbeat properties speak of: how many
HeartBeatRequests the receiver has processed, how many of those the sender had seen when it last
began a HeartBeatResponse, and whether a HeartBeatRequest the sender sent is still outstanding. A
fourth records the outcomes the handshake's `ping` ran on, the reply among them.

`Inv` holds in every reachable state (`Reachable.inv`). No thread ever sets `sent_hb_req`, which the
receiver only resets to `0`, and `device_connect` is commented out, so `shm_dev_idx` stays `-1`.
From the first, the relayer tears a live device down as soon as `millis()` reaches
`DEVICE_TIMEOUT` (`monitor_tears_down_live_device`) and the sender sends a HeartBeatRequest on
every iteration once it reaches `HB_REQ_FREQ` (`sender_repeats_heartbeat_request`). The sender
clears `got_hb_req` after its response, which erases a request flagged in between
(`heartbeat_request_lost`). Once `start = 1` the identity is the one `ping` read from the reply
the handshake accepted, and the sender shifts by `shm_dev_idx = -1` (`started_relay_identity`).
-/

namespace LowcarRuntime

/-- The constants `DEVICE_TIMEOUT`, `HB_REQ_FREQ` and `MAX_PAYLOAD_SIZE`, which the threads use and
which are not among the sources. -/
structure Config where
  /-- `DEVICE_TIMEOUT`, in milliseconds. -/
  deviceTimeout : UInt64
  /-- `HB_REQ_FREQ`, in milliseconds. -/
  hbReqFreq : UInt64
  /-- `MAX_PAYLOAD_SIZE`. -/
  maxPayloadSize : Nat

/-- Where the relayer is. -/
inductive RelayerPc
  /-- Before the set-up and the Ping. -/
  | setUp
  /-- The handshake succeeded; `relay->start = 1` is next, `device_connect` being commented out. -/
  | activate
  /-- The monitor loop. -/
  | monitor
  /-- About to call `relay_clean_up`. -/
  | cleanUp
  /-- After `relay_clean_up`, which cancels the other two threads. -/
  | done
  deriving DecidableEq, Repr

/-- Where the sender is: at its wait for `start`, or before one statement of its loop. -/
inductive SenderPc
  /-- `if (relay->start == 1) break;` -/
  | waitStart
  /-- `if (pmap[0] & (1 << relay->shm_dev_idx))` -/
  | checkWrite
  /-- The DeviceWrite transfer. -/
  | sendWrite
  /-- `if ((millis() - relay->sent_hb_req) >= HB_REQ_FREQ)` -/
  | checkHbReq
  /-- The HeartBeatRequest transfer. -/
  | sendHbReq
  /-- `if (relay->got_hb_req)` -/
  | checkGotHb
  /-- The HeartBeatResponse transfer. -/
  | sendHbResp
  /-- `relay->got_hb_req = 0;` -/
  | clearGotHb
  deriving DecidableEq, Repr

/-- Where the receiver is: at its wait for `start`, or in its loop. -/
inductive ReceiverPc
  | waitStart
  | receive
  deriving DecidableEq, Repr

/-- The state of the three threads of one device. -/
structure State where
  /-- The shared `msg_relay_t`. -/
  relay : MsgRelay
  /-- The relayer's program counter. -/
  relayer : RelayerPc
  /-- The sender's program counter. -/
  sender : SenderPc
  /-- The receiver's program counter. -/
  receiver : ReceiverPc
  /-- The receiver's message. -/
  msg : Message
  /-- What `millis()` returns. -/
  now : UInt64
  /-- Ghost: the HeartBeatRequests the receiver has processed. -/
  hbReqs : Nat
  /-- Ghost: the value of `hbReqs` when the sender last began a HeartBeatResponse. -/
  answered : Nat
  /-- Ghost: a HeartBeatRequest was sent and neither a HeartBeatResponse nor the teardown came
  after it. -/
  outstanding : Bool
  /-- Ghost: the outcomes of the relayer's `ping`, once the handshake has called it. -/
  pingEnv : Option PingEnv

/-- The state `communicate` starts the threads in, at time `now`. The receiver's message is set
when it leaves its wait. -/
def State.init (now : UInt64) : State :=
  ⟨communicateInit, .setUp, .waitStart, .waitStart, ⟨0, fun _ => 0, 0, 0, 0⟩, now, 0, 0, false, none⟩

/-- One step of the system. The relayer's and the receiver's inputs are the outcomes of their
library calls; the sender's is the outcome of its test of the parameter bitmap, which reads
`pmap`, a pointer the code never sets (`get_param_bitmap` is commented out). -/
inductive Action
  /-- `millis()` moves on to `now`. -/
  | tick (now : UInt64)
  /-- The relayer's set-up and `ping`. -/
  | handshake (env : SetupEnv) (ping : PingEnv)
  /-- `relay->start = 1`. -/
  | activate
  /-- One iteration of the monitor loop; `attached` is whether `libusb_get_device_descriptor`
  succeeds. -/
  | monitor (attached : Bool)
  /-- `relay_clean_up(relay)`. -/
  | cleanUp
  /-- The sender's next statement. -/
  | sender (due : Bool)
  /-- One test of `start` by the receiver, with the message `make_empty` would return. -/
  | receiverStart (empty : Message)
  /-- One iteration of the receiver loop, on the outcomes of `receive_message`'s reads and the
  contents of the block it allocates. -/
  | receive (data : Mem) (t1 t2 t3 : Transfer)

namespace State

variable (c : Config) (s : State)

/-- The relayer's set-up and `ping`. On success the relay holds the identity `ping` read, and the
relayer sets `start` next; the ghost `pingEnv` records the outcomes `ping` ran on. -/
def handshake (env : SetupEnv) (p : PingEnv) : State :=
  match (relayerSetup env s.relay).exit with
  | .cleanUp => { s with relay := (relayerSetup env s.relay).relay, relayer := .cleanUp }
  | .handshake =>
    match ping p with
    | .ok id => { s with relay := { (relayerSetup env s.relay).relay with devId := id },
                         relayer := .activate, pingEnv := some p }
    | _ => { s with relay := (relayerSetup env s.relay).relay, relayer := .cleanUp,
                    pingEnv := some p }

/-- One iteration of the monitor loop: `relay_clean_up` when the device descriptor cannot be read
or `millis() - relay->sent_hb_req`, in unsigned 64-bit arithmetic, has reached `DEVICE_TIMEOUT`. -/
def monitor (attached : Bool) : State :=
  if !attached || c.deviceTimeout ≤ s.now - s.relay.sentHbReq then { s with relayer := .cleanUp }
  else s

/-- The sender's statement at its program counter. The transfers change nothing the model
tracks but the ghost fields. -/
def senderStep (due : Bool) : State :=
  match s.sender with
  | .waitStart => if s.relay.start = 1 then { s with sender := .checkWrite } else s
  | .checkWrite => { s with sender := if due then .sendWrite else .checkHbReq }
  | .sendWrite => { s with sender := .checkHbReq }
  | .checkHbReq =>
    { s with sender := if c.hbReqFreq ≤ s.now - s.relay.sentHbReq then .sendHbReq else .checkGotHb }
  | .sendHbReq => { s with sender := .checkGotHb, outstanding := true }
  | .checkGotHb => { s with sender := if s.relay.gotHbReq ≠ 0 then .sendHbResp else .checkWrite }
  | .sendHbResp => { s with sender := .clearGotHb, answered := s.hbReqs }
  | .clearGotHb => { s with sender := .checkWrite, relay.gotHbReq := 0 }

/-- The receiver's dispatch on the kind of a message. A DeviceData payload is parsed into the
receiver's own array, which nothing reads (`device_write` is commented out), and the other kinds
are dropped. -/
def dispatch (id : UInt8) : State :=
  if id = PacketType.heartBeatRequest then { s with relay.gotHbReq := 1, hbReqs := s.hbReqs + 1 }
  else if id = PacketType.heartBeatResponse then
    { s with relay.sentHbReq := 0, outstanding := false }
  else s

/-- One iteration of the receiver loop: `receive_message`, then, for a message it returns, the
dispatch on its kind and the clearing of `msg`. -/
def receive (data : Mem) (t1 t2 t3 : Transfer) : State :=
  if (receiveMessage data s.msg t1 t2 t3).1 ≠ 0 then
    { s with msg := (receiveMessage data s.msg t1 t2 t3).2 }
  else
    { s.dispatch (receiveMessage data s.msg t1 t2 t3).2.messageId with
      msg := receiverClear c.maxPayloadSize (receiveMessage data s.msg t1 t2 t3).2 }

/-- After a message it handles, the receiver's message has no payload block (`payload = NULL`)
while `max_payload_length` still allows `MAX_PAYLOAD_SIZE` bytes, so the next `parse_message`
copies its payload through the null pointer. -/
theorem receive_clears_payload {data : Mem} {t1 t2 t3 : Transfer}
    (h : (receiveMessage data s.msg t1 t2 t3).1 = 0) :
    (s.receive c data t1 t2 t3).msg.payloadSize = 0 ∧
      (s.receive c data t1 t2 t3).msg.maxPayloadLength = c.maxPayloadSize := by
  rw [State.receive, if_neg (not_not.mpr h)]
  exact ⟨rfl, rfl⟩

end State

/-- One step: an action is enabled at its thread's program counter, and the sender and the
receiver take none once `relay_clean_up` has cancelled them. -/
def step (c : Config) (s : State) : Action → Option State
  | .tick now => if s.now ≤ now then some { s with now := now } else none
  | .handshake env p => if s.relayer = .setUp then some (s.handshake env p) else none
  | .activate =>
    if s.relayer = .activate then some { s with relay.start := 1, relayer := .monitor } else none
  | .monitor attached => if s.relayer = .monitor then some (s.monitor c attached) else none
  | .cleanUp =>
    if s.relayer = .cleanUp then some { s with relayer := .done, outstanding := false } else none
  | .sender due => if s.relayer ≠ .done then some (s.senderStep c due) else none
  | .receiverStart empty =>
    if s.relayer ≠ .done ∧ s.receiver = .waitStart then
      some (if s.relay.start = 1 then { s with receiver := .receive, msg := empty } else s)
    else none
  | .receive data t1 t2 t3 =>
    if s.relayer ≠ .done ∧ s.receiver = .receive then some (s.receive c data t1 t2 t3) else none

/-- The states of every interleaving, from `communicate` at any time. -/
inductive Reachable (c : Config) : State → Prop
  | init (now : UInt64) : Reachable c (State.init now)
  | step {s s' : State} (a : Action) : Reachable c s → step c s a = some s' → Reachable c s'

/-- The steps of a list of actions, while they are enabled. -/
def run (c : Config) (s : State) : List Action → Option State
  | [] => some s
  | a :: as => (step c s a).bind fun s' => run c s' as

theorem Reachable.run {c : Config} {s s' : State} (hs : Reachable c s) :
    ∀ {as : List Action}, run c s as = some s' → Reachable c s'
  | [], h => by cases h; exact hs
  | a :: as, h => by
    simp only [LowcarRuntime.run, Option.bind_eq_some] at h
    obtain ⟨s₁, h₁, h₂⟩ := h
    exact (hs.step a h₁).run h₂

/-! ## The invariant -/

/-- What holds in every reachable state. -/
structure Inv (s : State) : Prop where
  /-- No thread sets `sent_hb_req`; the receiver only resets it. -/
  sentHbReq : s.relay.sentHbReq = 0
  /-- `device_connect` is commented out. -/
  shmDevIdx : s.relay.shmDevIdx = -1
  /-- `start` is `0` before the handshake. -/
  setUp : s.relayer = .setUp → s.relay.start = 0
  /-- From the handshake on, the identity is the one `ping` read from the reply it accepted. -/
  identified : s.relay.start = 1 ∨ s.relayer = .activate →
    ∃ p, s.pingEnv = some p ∧ Identified p s.relay.devId
  /-- The sender leaves its wait only once `start` is `1`. -/
  sender : s.sender ≠ .waitStart → s.relay.start = 1
  /-- The receiver leaves its wait only once `start` is `1`. -/
  receiver : s.receiver ≠ .waitStart → s.relay.start = 1
  /-- The sender answers no request the receiver has not processed. -/
  answered : s.answered ≤ s.hbReqs

variable {c : Config} {s s' : State}

theorem inv_init (now : UInt64) : Inv (State.init now) where
  sentHbReq := rfl
  shmDevIdx := rfl
  setUp _ := rfl
  identified h := by simp [State.init, communicateInit] at h
  sender h := absurd rfl h
  receiver h := absurd rfl h
  answered := le_refl 0

theorem Inv.handshake (hi : Inv s) (hr : s.relayer = .setUp) (env : SetupEnv) (p : PingEnv) :
    Inv (s.handshake env p) := by
  obtain ⟨i, se, re, hsu⟩ := relayerSetup_frame env s.relay
  have h0 := hi.setUp hr
  -- The set-up keeps the shared fields; only a successful `ping` changes the identity.
  unfold State.handshake
  rw [hsu]
  split
  · exact { hi with setUp := nofun, identified := by simp [h0] }
  · split
    · exact { hi with setUp := nofun, identified := fun _ => ⟨p, rfl, ping_eq_ok ‹_›⟩ }
    · exact { hi with setUp := nofun, identified := by simp [h0] }

theorem Inv.senderStep (hi : Inv s) (due : Bool) : Inv (s.senderStep c due) := by
  unfold State.senderStep
  split
  · split_ifs with h1
    · exact { hi with sender := fun _ => h1 }
    · exact hi
  all_goals first
    | exact { hi with sender := fun _ => hi.sender (by simp [*]), answered := le_refl _ }
    | exact { hi with sender := fun _ => hi.sender (by simp [*]) }

theorem Inv.receive (hi : Inv s) (data : Mem) (t1 t2 t3 : Transfer) :
    Inv (s.receive c data t1 t2 t3) := by
  unfold State.receive State.dispatch
  split_ifs
  · exact { hi with }
  · exact { hi with answered := Nat.le_succ_of_le hi.answered }
  · exact { hi with sentHbReq := rfl }
  · exact { hi with }

/-- A step keeps the invariant. -/
theorem step_inv (hi : Inv s) {a : Action} (h : step c s a = some s') : Inv s' := by
  cases a <;> simp only [step, Option.ite_none_right_eq_some, Option.some.injEq] at h <;>
    obtain ⟨hr, rfl⟩ := h
  case tick => exact { hi with }
  case handshake env p => exact hi.handshake hr env p
  case activate =>
    exact { hi with setUp := nofun, identified := fun _ => hi.identified (.inr hr),
                    sender := fun _ => rfl, receiver := fun _ => rfl }
  case monitor =>
    unfold State.monitor
    split_ifs
    · exact { hi with
        setUp := nofun, identified := fun h => hi.identified (by simpa [hr] using h) }
    · exact hi
  case cleanUp =>
    exact { hi with setUp := nofun, identified := fun h => hi.identified (by simpa [hr] using h) }
  case sender due => exact hi.senderStep due
  case receiverStart =>
    split_ifs with h1
    · exact { hi with receiver := fun _ => h1 }
    · exact hi
  case receive data t1 t2 t3 => exact hi.receive data t1 t2 t3

/-- Every reachable state satisfies the invariant. -/
theorem Reachable.inv (h : Reachable c s) : Inv s := by
  induction h with
  | init now => exact inv_init now
  | step a _ hs ih => exact step_inv ih hs

/-- A property that every step keeps holds at the end of every run. -/
theorem run_preserves {P : State → Prop}
    (hP : ∀ s a s', P s → step c s a = some s' → P s') :
    ∀ {s s' : State} {as : List Action}, P s → run c s as = some s' → P s'
  | _, _, [], hs, h => by cases h; exact hs
  | _, _, a :: as, hs, h => by
    simp only [run, Option.bind_eq_some] at h
    obtain ⟨s₁, h₁, h₂⟩ := h
    exact run_preserves hP (hP _ a _ hs h₁) h₂

/-! ## Heartbeats -/

/-- With `sent_hb_req = 0`, the elapsed time the relayer and the sender compare with their bounds
is the clock itself. -/
theorem Inv.elapsed (hi : Inv s) : s.now - s.relay.sentHbReq = s.now := by
  rw [hi.sentHbReq]
  exact UInt64.eq_of_toBitVec_eq (BitVec.sub_zero _)

/-- Once `millis()` has reached `DEVICE_TIMEOUT`, the monitor tears the device down, attached or
not, whatever the heartbeats. -/
theorem Inv.step_monitor (hi : Inv s) (hr : s.relayer = .monitor) (hnow : c.deviceTimeout ≤ s.now)
    (attached : Bool) : step c s (.monitor attached) = some { s with relayer := .cleanUp } := by
  simp [step, hr, State.monitor, hi.elapsed, hnow]

/-- Once `millis()` has reached `HB_REQ_FREQ`, the sender's test sends a HeartBeatRequest, whatever
is outstanding. -/
theorem Inv.step_checkHbReq (hi : Inv s) (hd : s.relayer ≠ .done) (hs : s.sender = .checkHbReq)
    (hf : c.hbReqFreq ≤ s.now) (due : Bool) :
    step c s (.sender due) = some { s with sender := .sendHbReq } := by
  simp [step, hd, State.senderStep, hs, hi.elapsed, hf]

/-- The sender's statements leave the relayer, `interface_idx` and the count of
HeartBeatRequests alone. -/
theorem State.senderStep_frame (c : Config) (s : State) (due : Bool) :
    (s.senderStep c due).relayer = s.relayer ∧
      (s.senderStep c due).relay.interfaceIdx = s.relay.interfaceIdx ∧
      (s.senderStep c due).hbReqs = s.hbReqs := by
  unfold State.senderStep
  split <;> (try split_ifs) <;> exact ⟨rfl, rfl, rfl⟩

/-- The receiver leaves the relayer, `interface_idx`, the sender and its answers alone, and changes
`got_hb_req` only when it counts a HeartBeatRequest. -/
theorem State.receive_frame (c : Config) (s : State) (data : Mem) (t1 t2 t3 : Transfer) :
    (s.receive c data t1 t2 t3).relayer = s.relayer ∧
      (s.receive c data t1 t2 t3).relay.interfaceIdx = s.relay.interfaceIdx ∧
      (s.receive c data t1 t2 t3).sender = s.sender ∧
      (s.receive c data t1 t2 t3).answered = s.answered ∧
      ((s.receive c data t1 t2 t3).hbReqs = s.hbReqs ∧
          (s.receive c data t1 t2 t3).relay.gotHbReq = s.relay.gotHbReq ∨
        (s.receive c data t1 t2 t3).hbReqs = s.hbReqs + 1) := by
  unfold State.receive State.dispatch
  split_ifs <;> simp

/-- Only the receiver's processing of a HeartBeatRequest counts one. -/
theorem step_hbReqs_le {a : Action} (h : step c s a = some s') : s.hbReqs ≤ s'.hbReqs := by
  cases a <;> simp only [step, Option.ite_none_right_eq_some, Option.some.injEq] at h <;>
    obtain ⟨-, rfl⟩ := h
  case handshake => unfold State.handshake; split <;> (try split) <;> exact le_refl _
  case monitor => unfold State.monitor; split_ifs <;> exact le_refl _
  case sender due => exact (s.senderStep_frame c due).2.2.ge
  case receiverStart => split_ifs <;> exact le_refl _
  case receive data t1 t2 t3 =>
    rcases (s.receive_frame c data t1 t2 t3).2.2.2.2 with ⟨h, -⟩ | h <;> omega
  all_goals exact le_refl _

/-- The sender is not about to answer: `got_hb_req` is `0` and the sender is not inside its
HeartBeatResponse. -/
def Unflagged (s : State) : Prop :=
  s.relay.gotHbReq = 0 ∧ s.sender ≠ .sendHbResp ∧ s.sender ≠ .clearGotHb

/-- Until the receiver processes another HeartBeatRequest, an unflagged sender stays unflagged and
begins no HeartBeatResponse. -/
theorem step_unflagged {a : Action} (hu : Unflagged s) (h : step c s a = some s')
    (hq : s'.hbReqs = s.hbReqs) : Unflagged s' ∧ s'.answered = s.answered := by
  cases a <;> simp only [step, Option.ite_none_right_eq_some, Option.some.injEq] at h <;>
    obtain ⟨-, rfl⟩ := h
  case handshake env p =>
    obtain ⟨i, se, re, hsu⟩ := relayerSetup_frame env s.relay
    unfold State.handshake
    rw [hsu]
    split <;> (try split) <;> exact ⟨hu, rfl⟩
  case monitor => unfold State.monitor; split_ifs <;> exact ⟨hu, rfl⟩
  case sender =>
    unfold State.senderStep
    split <;> (try split_ifs) <;> simp_all [Unflagged]
  case receiverStart => split_ifs <;> exact ⟨hu, rfl⟩
  case receive data t1 t2 t3 =>
    obtain ⟨-, -, hs, ha, ⟨-, hg⟩ | h⟩ := s.receive_frame c data t1 t2 t3
    · exact ⟨⟨hg.trans hu.1, hs ▸ hu.2.1, hs ▸ hu.2.2⟩, ha⟩
    · omega
  all_goals exact ⟨hu, rfl⟩

/-- A request left unanswered with the flag cleared stays so until the receiver processes another
one. -/
theorem run_request_lost {s s' : State} {as : List Action} (hp : s.answered < s.hbReqs)
    (hu : Unflagged s) (h : run c s as = some s') (hq : s'.hbReqs = s.hbReqs) :
    s'.answered < s'.hbReqs ∧ s'.relay.gotHbReq = 0 := by
  have key := run_preserves (c := c)
    (P := fun t => s.hbReqs ≤ t.hbReqs ∧
      (t.hbReqs = s.hbReqs → Unflagged t ∧ t.answered = s.answered))
    (fun t a t' ⟨hle, ht⟩ hstep => by
      have hle' := step_hbReqs_le hstep
      refine ⟨le_trans hle hle', fun heq => ?_⟩
      obtain ⟨hu', ha'⟩ := ht (by omega)
      obtain ⟨hu'', ha''⟩ := step_unflagged hu' hstep (by omega)
      exact ⟨hu'', ha''.trans ha'⟩)
    ⟨le_refl _, fun _ => ⟨hu, rfl⟩⟩ h
  obtain ⟨hu', ha'⟩ := key.2 hq
  exact ⟨by omega, hu'.1⟩

/-! ## Runs -/

/-- A device with one interface holding a bulk-IN and a bulk-OUT endpoint, every call
succeeding. -/
def goodSetup : SetupEnv := ⟨some [⟨[⟨0x81, 2⟩, ⟨0x01, 2⟩]⟩], fun _ => true⟩

/-- A Ping answered by a SubscriptionResponse with an empty payload, as `parse_message` reads it. -/
def goodPing : PingEnv := ⟨1, 0, ⟨0, [0x12, 0, 0]⟩, fun _ => 0, fun _ => 0⟩

/-- The relay after `goodSetup` and `goodPing`, with `start` set. -/
def startedRelay : MsgRelay := ⟨0, 0x01, 0x81, -1, 1, ⟨0, 0, 0⟩, 0, 0⟩

/-- The threads once the relayer has set `start`, at time `now`. -/
def started (now : UInt64) : State :=
  { State.init now with relay := startedRelay, relayer := .monitor, pingEnv := some goodPing }

theorem reachable_started (c : Config) (now : UInt64) : Reachable c (started now) :=
  ((Reachable.init now).step (.handshake goodSetup goodPing) rfl).step .activate rfl

/-- The reads of a HeartBeatRequest with payload `[0]` as `receive_message` takes it: the
delimiter, the length `4`, then the bytes `parse_message` accepts. -/
def receiveHbRequest : Action := .receive (fun _ => 0) ⟨0, [0]⟩ ⟨0, [4]⟩ ⟨0, [0x17, 1, 0, 1]⟩

/-- Every reachable monitor state at or past `DEVICE_TIMEOUT` tears the device down on its next
check, with the device attached, and the start-up reaches one with no HeartBeatRequest
outstanding, at any time `millis()` may return. -/
theorem monitor_tears_down_live_device (c : Config) :
    (∀ s, Reachable c s → s.relayer = .monitor → c.deviceTimeout ≤ s.now →
      step c s (.monitor true) = some { s with relayer := .cleanUp }) ∧
    ∃ s, Reachable c s ∧ s.relayer = .monitor ∧ s.outstanding = false ∧ c.deviceTimeout ≤ s.now :=
  ⟨fun _ hs hr hnow => hs.inv.step_monitor hr hnow true,
    _, reachable_started c c.deviceTimeout, rfl, rfl, UInt64.le_refl _⟩

/-- Past `HB_REQ_FREQ` the sender's test always passes, so a run reaches a second HeartBeatRequest
transfer while the first is outstanding. -/
theorem sender_repeats_heartbeat_request (c : Config) :
    (∀ s due, Reachable c s → s.relayer ≠ .done → s.sender = .checkHbReq → c.hbReqFreq ≤ s.now →
      step c s (.sender due) = some { s with sender := .sendHbReq }) ∧
    ∃ s, Reachable c s ∧ s.sender = .sendHbReq ∧ s.outstanding = true := by
  refine ⟨fun _ due hs hd hc hf => hs.inv.step_checkHbReq hd hc hf due, ?_⟩
  -- The sender starts, finds no write due, and sends a HeartBeatRequest.
  have h1 := (((reachable_started c c.hbReqFreq).step (.sender false) rfl).step (.sender false) rfl)
  have h2 := h1.step (.sender false) (h1.inv.step_checkHbReq nofun rfl (UInt64.le_refl _) false)
  -- No reply has come when it tests the timer again.
  have h3 := ((h2.step (.sender false) rfl).step (.sender false) rfl).step (.sender false) rfl
  exact ⟨_, h3.step (.sender false) (h3.inv.step_checkHbReq nofun rfl (UInt64.le_refl _) false),
    rfl, rfl⟩

/-- A run in which the receiver flags a HeartBeatRequest while the sender is between its
HeartBeatResponse and `relay->got_hb_req = 0`: that request is never answered while no other one
comes. -/
theorem heartbeat_request_lost (c : Config) :
    ∃ s, Reachable c s ∧ s.answered < s.hbReqs ∧ s.relay.gotHbReq = 0 ∧
      ∀ as s', run c s as = some s' → s'.hbReqs = s.hbReqs →
        s'.answered < s'.hbReqs ∧ s'.relay.gotHbReq = 0 := by
  -- The receiver flags a HeartBeatRequest; the sender starts and reaches its timer test.
  have h1 := ((((reachable_started c c.hbReqFreq).step (.receiverStart ⟨0, fun _ => 0, 0, 0, 0⟩)
    rfl).step receiveHbRequest rfl).step (.sender false) rfl).step (.sender false) rfl
  -- It sends a HeartBeatRequest, sees the flag and begins its HeartBeatResponse.
  have h2 := h1.step (.sender false) (h1.inv.step_checkHbReq nofun rfl (UInt64.le_refl _) false)
  have h3 := ((h2.step (.sender false) rfl).step (.sender false) rfl).step (.sender false) rfl
  -- A second request is flagged before the sender clears the flag.
  have h4 := (h3.step receiveHbRequest rfl).step (.sender false) rfl
  exact ⟨_, h4, Nat.one_lt_two, rfl, fun _ _ h hq => run_request_lost Nat.one_lt_two
    ⟨rfl, SenderPc.noConfusion, SenderPc.noConfusion⟩ h hq⟩

/-! ## Activation -/

/-- Once `start = 1`, and so wherever the sender has left its wait, the identity is the one
`ping` read from the reply the handshake accepted, and `shm_dev_idx` is `-1`; the sender reaches
its test `pmap[0] & (1 << shm_dev_idx)` in that state. -/
theorem started_relay_identity (c : Config) :
    (∀ s, Reachable c s → (s.sender ≠ .waitStart → s.relay.start = 1) ∧
      (s.relay.start = 1 →
        (∃ p, s.pingEnv = some p ∧ Identified p s.relay.devId) ∧ s.relay.shmDevIdx = -1)) ∧
    ∃ s, Reachable c s ∧ s.sender = .checkWrite ∧ s.relay.shmDevIdx = -1 :=
  ⟨fun _ hs => ⟨hs.inv.sender, fun h => ⟨hs.inv.identified (.inl h), hs.inv.shmDevIdx⟩⟩,
    _, (reachable_started c 0).step (.sender false) rfl, rfl, rfl⟩

end LowcarRuntime
