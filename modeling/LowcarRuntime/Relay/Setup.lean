import Mathlib.Data.Nat.Bitwise
import LowcarRuntime.Codec.Message

/-!
# The relayer's set-up

`communicate` creates the `msg_relay_t` that a device's three threads share, and `relayer` gets the
device ready for the Ping: it reads the active configuration, and claims its interfaces in turn
until `get_endpoints` finds a bulk-IN and a bulk-OUT endpoint on one of them. The outcomes of the
libusb calls are inputs (`SetupEnv`), and `relayerSetup` says how the set-up ends, with the relay it
leaves and the claims and releases it made.

`communicate` goes on when `libusb_open` fails, so nothing the set-up does depends on its result.
The loop gives up only when the last interface is claimed and has no endpoints, so a failed last
claim, or a configuration with no interface, falls through to the Ping with no interface claimed
(`relayer_setup_ignores_failures`).

`get_endpoints` scans the descriptors once with two flags. `endpointLoop_spec` says what the scan
does from any flags but both set: it succeeds exactly when a bulk endpoint of each direction not yet
found is in the list, and then stores the first of each; the direction bit being IN or OUT
(`Endpoint.direction_in_or_out`) is what makes the scan's last branch unreachable.
-/

namespace LowcarRuntime

/-- The fields of `msg_relay_t` that the threads read and write; the device, its handle and the
thread ids are left out. -/
structure MsgRelay where
  /-- The index of the claimed interface, `-1` before one is. -/
  interfaceIdx : Int
  /-- The bulk-OUT endpoint's address. -/
  sendEndpoint : UInt8
  /-- The bulk-IN endpoint's address. -/
  receiveEndpoint : UInt8
  /-- The index that `device_connect` assigns, `-1` before. -/
  shmDevIdx : Int
  /-- The flag that lets the sender and the receiver start. -/
  start : UInt8
  /-- The device's identity, set from the SubscriptionResponse. -/
  devId : DevId
  /-- The time of the last HeartBeatRequest. -/
  sentHbReq : UInt64
  /-- The receiver's flag asking the sender for a HeartBeatResponse. -/
  gotHbReq : UInt8
  deriving DecidableEq, Repr

/-- The relay as `communicate` initialises it: `-1` in every index and identity field, stored in
the field's type. -/
def communicateInit : MsgRelay :=
  ⟨-1, 0xFF, 0xFF, -1, 0, ⟨0xFFFF, 0xFF, 0xFFFFFFFFFFFFFFFF⟩, 0, 0⟩

/-! The libusb constants that `get_endpoints` compares with. -/

namespace Libusb

/-- `LIBUSB_TRANSFER_TYPE_BULK`. -/
def transferTypeBulk : UInt8 := 2

/-- `LIBUSB_ENDPOINT_IN`. -/
def endpointIn : UInt8 := 0x80

/-- `LIBUSB_ENDPOINT_OUT`. -/
def endpointOut : UInt8 := 0

end Libusb

/-- A `libusb_endpoint_descriptor`: the two fields `get_endpoints` reads. -/
structure Endpoint where
  /-- The address; bit 7 is the direction. -/
  bEndpointAddress : UInt8
  /-- The attributes; bits 0 and 1 are the transfer type. -/
  bmAttributes : UInt8
  deriving DecidableEq, Repr

/-- A `libusb_interface`, as `get_endpoints` sees it: the endpoints of its first alternate
setting. -/
structure Interface where
  /-- The endpoint descriptors of `altsetting[0]`. -/
  endpoints : List Endpoint
  deriving DecidableEq, Repr

/-- An endpoint for bulk transfers. -/
def Endpoint.isBulk (ep : Endpoint) : Bool := (3 &&& ep.bmAttributes) == Libusb.transferTypeBulk

/-- An endpoint's direction bit, `LIBUSB_ENDPOINT_IN` or `LIBUSB_ENDPOINT_OUT`. -/
def Endpoint.direction (ep : Endpoint) : UInt8 := 0x80 &&& ep.bEndpointAddress

/-- Modelled from the spec: a bulk endpoint whose direction bit is `dir`, what `get_endpoints`
looks for with `dir` IN for the receive endpoint and OUT for the send endpoint. -/
def Endpoint.bulkTo (dir : UInt8) (ep : Endpoint) : Bool := ep.isBulk && ep.direction == dir

/-- The loop of `get_endpoints` over the endpoints left, with its flags `found_bulk_in` and
`found_bulk_out`: it returns `0` as soon as both are set. -/
def endpointLoop : List Endpoint → Bool → Bool → MsgRelay → Nat × MsgRelay
  | [], _, _, relay => (1, relay)
  | ep :: eps, foundIn, foundOut, relay =>
    if !ep.isBulk then endpointLoop eps foundIn foundOut relay
    else if !foundIn && ep.direction == Libusb.endpointIn then
      if foundOut then (0, { relay with receiveEndpoint := ep.bEndpointAddress })
      else endpointLoop eps true foundOut { relay with receiveEndpoint := ep.bEndpointAddress }
    else if !foundOut && ep.direction == Libusb.endpointOut then
      if foundIn then (0, { relay with sendEndpoint := ep.bEndpointAddress })
      else endpointLoop eps foundIn true { relay with sendEndpoint := ep.bEndpointAddress }
    else if foundIn && foundOut then (0, relay)
    else endpointLoop eps foundIn foundOut relay

/-- `get_endpoints(relay, interface)`: `0` when the interface's first setting has a bulk-IN and a
bulk-OUT endpoint, stored in the relay; `1` otherwise, with what the loop stored. -/
def getEndpoints (relay : MsgRelay) (iface : Interface) : Nat × MsgRelay :=
  if iface.endpoints.length < 2 then (1, relay) else endpointLoop iface.endpoints false false relay

/-- What the libusb calls of the set-up return: the interfaces of the active configuration
(`none` when `libusb_get_active_config_descriptor` fails), and `libusb_claim_interface` on each
interface. `communicate` prints the result of `libusb_open` and acts on it no further, so it is no
input of the set-up. -/
structure SetupEnv where
  /-- The active configuration's interfaces. -/
  config : Option (List Interface)
  /-- Whether claiming each interface succeeds. -/
  claimOk : Nat → Bool

/-- The calls on the device's interfaces, in order. -/
inductive UsbCall
  | claim (i : Nat) (ok : Bool)
  | release (i : Nat)
  deriving DecidableEq, Repr

/-- How the set-up ends: going on to the Ping, or calling `relay_clean_up`. -/
inductive SetupExit
  | handshake
  | cleanUp
  deriving DecidableEq, Repr

/-- The end of the set-up: how it ends, the relay, and the calls on interfaces. -/
structure Setup where
  /-- How the set-up ends. -/
  exit : SetupExit
  /-- The relay it leaves. -/
  relay : MsgRelay
  /-- The claims and releases, in order. -/
  calls : List UsbCall
  deriving DecidableEq, Repr

/-- The loop `for (int i = 0; i < config->bNumInterfaces; i++)` from interface `i` on, over the
interfaces left, `n` being `bNumInterfaces`. -/
def claimLoop (claimOk : Nat → Bool) (n : Nat) : Nat → List Interface → MsgRelay → List UsbCall → Setup
  | _, [], relay, calls => ⟨.handshake, relay, calls⟩
  | i, iface :: rest, relay, calls =>
    if !claimOk i then claimLoop claimOk n (i + 1) rest relay (calls ++ [.claim i false])
    else if (getEndpoints relay iface).1 = 0 then
      ⟨.handshake, { (getEndpoints relay iface).2 with interfaceIdx := i }, calls ++ [.claim i true]⟩
    else if i = n - 1 then
      ⟨.cleanUp, (getEndpoints relay iface).2, calls ++ [.claim i true, .release i]⟩
    else claimLoop claimOk n (i + 1) rest (getEndpoints relay iface).2 (calls ++ [.claim i true, .release i])

/-- The set-up of `relayer`, up to the Ping. `libusb_open`'s outcome is not tested: `communicate`
only prints it. -/
def relayerSetup (env : SetupEnv) (relay : MsgRelay) : Setup :=
  match env.config with
  | none => ⟨.cleanUp, relay, []⟩
  | some ifaces => claimLoop env.claimOk ifaces.length 0 ifaces relay []

/-- The loop of `get_endpoints` writes only the two endpoint fields of the relay. -/
theorem endpointLoop_frame (eps : List Endpoint) (foundIn foundOut : Bool) (relay : MsgRelay) :
    ∃ se re, (endpointLoop eps foundIn foundOut relay).2 =
      { relay with sendEndpoint := se, receiveEndpoint := re } := by
  induction eps generalizing foundIn foundOut relay with
  | nil => exact ⟨_, _, rfl⟩
  | cons ep eps ih =>
    rw [endpointLoop]
    repeat' split
    all_goals first | exact ih _ _ _ | exact ⟨_, _, rfl⟩

theorem getEndpoints_frame (relay : MsgRelay) (iface : Interface) :
    ∃ se re, (getEndpoints relay iface).2 =
      { relay with sendEndpoint := se, receiveEndpoint := re } := by
  unfold getEndpoints
  split_ifs
  · exact ⟨_, _, rfl⟩
  · exact endpointLoop_frame _ _ _ _

/-- The claim loop writes only the interface index and the endpoints of the relay. -/
theorem claimLoop_frame (claimOk : Nat → Bool) (n i : Nat) (ifaces : List Interface)
    (relay : MsgRelay) (calls : List UsbCall) :
    ∃ i' se re, (claimLoop claimOk n i ifaces relay calls).relay =
      { relay with interfaceIdx := i', sendEndpoint := se, receiveEndpoint := re } := by
  induction ifaces generalizing i relay calls with
  | nil => exact ⟨_, _, _, rfl⟩
  | cons iface rest ih =>
    obtain ⟨se, re, hr⟩ := getEndpoints_frame relay iface
    simp only [claimLoop]
    split_ifs
    · exact ih _ _ _
    · exact ⟨_, se, re, by rw [hr]⟩
    · exact ⟨_, se, re, by rw [hr]⟩
    · obtain ⟨i', se', re', h⟩ :=
        ih (i + 1) (getEndpoints relay iface).2 (calls ++ [.claim i true, .release i])
      exact ⟨i', se', re', by rw [h, hr]⟩

/-- The set-up writes only the interface index and the endpoints of the relay: the fields the
sender and the receiver share with the relayer are left as they were. -/
theorem relayerSetup_frame (env : SetupEnv) (relay : MsgRelay) :
    ∃ i se re, (relayerSetup env relay).relay =
      { relay with interfaceIdx := i, sendEndpoint := se, receiveEndpoint := re } := by
  unfold relayerSetup
  split
  · exact ⟨_, _, _, rfl⟩
  · exact claimLoop_frame _ _ _ _ _ _

/-- When every claim fails, the loop runs out of interfaces and goes on to the Ping with the relay
as it was. -/
theorem claimLoop_no_claim (n i : Nat) (ifaces : List Interface) (relay : MsgRelay)
    (calls : List UsbCall) : (claimLoop (fun _ => false) n i ifaces relay calls).exit = .handshake ∧
      (claimLoop (fun _ => false) n i ifaces relay calls).relay = relay := by
  induction ifaces generalizing i calls with
  | nil => exact ⟨rfl, rfl⟩
  | cons iface rest ih => simpa [claimLoop] using ih (i + 1) _

/-- The set-up goes on to the Ping when no interface could be claimed, among them when the
configuration has none: then the relay keeps `communicate`'s `interface_idx = -1`. -/
theorem relayer_setup_ignores_failures (ifaces : List Interface) (relay : MsgRelay) :
    (relayerSetup ⟨some ifaces, fun _ => false⟩ relay).exit = .handshake ∧
    (relayerSetup ⟨some ifaces, fun _ => false⟩ relay).relay = relay :=
  claimLoop_no_claim _ _ _ _ _

/-! ## The endpoints `get_endpoints` finds -/

/-- Modelled from the spec: the address the scan should leave for direction `dir`, the one already
`stored` when the endpoint was `found` before, and otherwise the first bulk endpoint's of that
direction, if any. -/
def expectedEndpoint (found : Bool) (stored : UInt8) (dir : UInt8) (eps : List Endpoint) :
    Option UInt8 :=
  if found then some stored else (eps.find? (Endpoint.bulkTo dir)).map Endpoint.bEndpointAddress

/-- The two values of the direction bit differ. -/
@[simp] theorem Libusb.endpointIn_ne_endpointOut : Libusb.endpointIn ≠ Libusb.endpointOut := by
  decide

@[simp] theorem Libusb.endpointOut_ne_endpointIn : Libusb.endpointOut ≠ Libusb.endpointIn := by
  decide

/-- The mask keeps bit 7 of the address alone, so the direction is IN or OUT. -/
theorem Endpoint.direction_in_or_out (ep : Endpoint) :
    ep.direction = Libusb.endpointIn ∨ ep.direction = Libusb.endpointOut := by
  have h : ep.direction.toBitVec.toNat =
      2 ^ 7 * (ep.bEndpointAddress.toBitVec.toNat.testBit 7).toNat := by
    show (128#8 &&& _).toNat = _
    rw [BitVec.toNat_and, ← Nat.two_pow_and]; rfl
  cases hb : ep.bEndpointAddress.toBitVec.toNat.testBit 7
  · exact .inr (UInt8.eq_of_toBitVec_eq (BitVec.eq_of_toNat_eq (by simpa [hb] using h)))
  · exact .inl (UInt8.eq_of_toBitVec_eq (BitVec.eq_of_toNat_eq (by simpa [hb] using h)))

@[simp] theorem expectedEndpoint_true (stored dir : UInt8) (eps : List Endpoint) :
    expectedEndpoint true stored dir eps = some stored := rfl

/-- An endpoint that is not a bulk endpoint of the direction leaves the expected address to the
rest of the list. -/
theorem expectedEndpoint_cons_skip {found : Bool} {stored dir : UInt8} {ep : Endpoint}
    (eps : List Endpoint) (h : ep.bulkTo dir = false) :
    expectedEndpoint found stored dir (ep :: eps) = expectedEndpoint found stored dir eps := by
  simp only [expectedEndpoint, List.find?_cons, h]

/-- Before one is found, the first bulk endpoint of the direction is the expected one. -/
theorem expectedEndpoint_cons_first {stored dir : UInt8} {ep : Endpoint} (eps : List Endpoint)
    (h : ep.bulkTo dir = true) :
    expectedEndpoint false stored dir (ep :: eps) = some ep.bEndpointAddress := by
  simp only [expectedEndpoint, List.find?_cons, h, Bool.false_eq_true, if_false, Option.map_some']

/-- The scan, entered with at most one flag set, either returns `0` with the expected endpoint of
each direction stored, or returns `1` with one of them missing from the list. -/
theorem endpointLoop_spec (eps : List Endpoint) {foundIn foundOut : Bool} (relay : MsgRelay)
    (h : ¬(foundIn = true ∧ foundOut = true)) :
    ((endpointLoop eps foundIn foundOut relay).1 = 0 ∧
      expectedEndpoint foundIn relay.receiveEndpoint Libusb.endpointIn eps =
        some (endpointLoop eps foundIn foundOut relay).2.receiveEndpoint ∧
      expectedEndpoint foundOut relay.sendEndpoint Libusb.endpointOut eps =
        some (endpointLoop eps foundIn foundOut relay).2.sendEndpoint) ∨
    ((endpointLoop eps foundIn foundOut relay).1 = 1 ∧
      (expectedEndpoint foundIn relay.receiveEndpoint Libusb.endpointIn eps = none ∨
        expectedEndpoint foundOut relay.sendEndpoint Libusb.endpointOut eps = none)) := by
  induction eps generalizing foundIn foundOut relay with
  | nil => right; cases foundIn <;> cases foundOut <;> simp_all [endpointLoop, expectedEndpoint]
  | cons ep eps ih =>
    by_cases hb : ep.isBulk
    · rcases ep.direction_in_or_out with hd | hd
      · -- A bulk-IN endpoint: the first one is stored, a later one skipped.
        have hin : ep.bulkTo Libusb.endpointIn = true := by simp [Endpoint.bulkTo, hb, hd]
        have hout : ep.bulkTo Libusb.endpointOut = false := by simp [Endpoint.bulkTo, hd]
        rw [expectedEndpoint_cons_skip eps hout]
        cases foundIn
        · rw [expectedEndpoint_cons_first eps hin]
          cases foundOut
          · simpa [endpointLoop, hb, hd] using @ih true false
              { relay with receiveEndpoint := ep.bEndpointAddress } (by simp)
          · left; simp [endpointLoop, hb, hd]
        · obtain rfl : foundOut = false := by simpa using h
          simpa [endpointLoop, hb, hd] using ih relay h
      · -- A bulk-OUT endpoint, likewise.
        have hin : ep.bulkTo Libusb.endpointIn = false := by simp [Endpoint.bulkTo, hd]
        have hout : ep.bulkTo Libusb.endpointOut = true := by simp [Endpoint.bulkTo, hb, hd]
        rw [expectedEndpoint_cons_skip eps hin]
        cases foundOut
        · rw [expectedEndpoint_cons_first eps hout]
          cases foundIn
          · simpa [endpointLoop, hb, hd] using @ih false true
              { relay with sendEndpoint := ep.bEndpointAddress } (by simp)
          · left; simp [endpointLoop, hb, hd]
        · obtain rfl : foundIn = false := by simpa using h
          simpa [endpointLoop, hb, hd] using ih relay h
    · -- Not a bulk endpoint: skipped.
      have hb : ep.isBulk = false := by simpa using hb
      rw [expectedEndpoint_cons_skip eps (by simp [Endpoint.bulkTo, hb]),
        expectedEndpoint_cons_skip eps (by simp [Endpoint.bulkTo, hb])]
      simpa [endpointLoop, hb] using ih relay h

/-- The search for a bulk endpoint of a direction succeeds when the list holds one. -/
theorem find?_bulkTo_isSome (eps : List Endpoint) (dir : UInt8) :
    (eps.find? (Endpoint.bulkTo dir)).isSome ↔
      ∃ ep ∈ eps, ep.isBulk ∧ ep.direction = dir := by
  simp [List.find?_isSome, Endpoint.bulkTo]

/-- With fewer than two endpoints there is no bulk pair: one endpoint would have to be both IN
and OUT. -/
theorem no_bulk_pair_of_length_lt_two {eps : List Endpoint} (hlen : eps.length < 2) :
    ¬((eps.find? (Endpoint.bulkTo Libusb.endpointIn)).isSome ∧
      (eps.find? (Endpoint.bulkTo Libusb.endpointOut)).isSome) := by
  rintro ⟨hi, ho⟩
  obtain ⟨a, ha, -, hai⟩ := (find?_bulkTo_isSome _ _).1 hi
  obtain ⟨b, hb, -, hbo⟩ := (find?_bulkTo_isSome _ _).1 ho
  have hab : a = b := by
    match eps, hlen, ha, hb with
    | [_], _, ha, hb => exact (List.mem_singleton.1 ha).trans (List.mem_singleton.1 hb).symm
  exact Libusb.endpointIn_ne_endpointOut (hai.symm.trans (hab ▸ hbo))

/-- `get_endpoints` returns `0` exactly when the first setting has a bulk-IN and a bulk-OUT
endpoint, whatever the order and kinds of the others, and then the receive endpoint is the first
bulk-IN one and the send endpoint the first bulk-OUT one. The check for fewer than two endpoints
rejects nothing the scan would accept. -/
theorem get_endpoints_first_bulk_pair (relay : MsgRelay) (iface : Interface) :
    ((getEndpoints relay iface).1 = 0 ↔
      (∃ ep ∈ iface.endpoints, ep.isBulk ∧ ep.direction = Libusb.endpointIn) ∧
      (∃ ep ∈ iface.endpoints, ep.isBulk ∧ ep.direction = Libusb.endpointOut)) ∧
    ((getEndpoints relay iface).1 = 0 →
      (iface.endpoints.find? (Endpoint.bulkTo Libusb.endpointIn)).map Endpoint.bEndpointAddress =
        some (getEndpoints relay iface).2.receiveEndpoint ∧
      (iface.endpoints.find? (Endpoint.bulkTo Libusb.endpointOut)).map Endpoint.bEndpointAddress =
        some (getEndpoints relay iface).2.sendEndpoint) := by
  simp only [← find?_bulkTo_isSome]
  unfold getEndpoints
  split_ifs with hlen
  · exact ⟨⟨nofun, fun h => no_bulk_pair_of_length_lt_two hlen h⟩, nofun⟩
  · rcases @endpointLoop_spec iface.endpoints false false relay (by simp) with
      ⟨h0, hin, hout⟩ | ⟨h1, hnone⟩
    · simp only [expectedEndpoint, Bool.false_eq_true, if_false] at hin hout
      refine ⟨⟨fun _ => ⟨?_, ?_⟩, fun _ => h0⟩, fun _ => ⟨hin, hout⟩⟩
      · simpa using congrArg Option.isSome hin
      · simpa using congrArg Option.isSome hout
    · simp only [expectedEndpoint, Bool.false_eq_true, if_false, Option.map_eq_none'] at hnone
      rw [h1]
      refine ⟨⟨nofun, fun ⟨hi, ho⟩ => ?_⟩, nofun⟩
      rcases hnone with h | h <;> simp [h] at hi ho

end LowcarRuntime
