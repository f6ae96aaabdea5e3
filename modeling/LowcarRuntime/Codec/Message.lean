import LowcarRuntime.Memory

/-!
# Messages

The message layer of `src/dev_handler/message.c`: the constructors, `append_payload`, the checksum,
and the conversions `message_to_bytes` and `parse_message` between a `message_t` and the bytes
`message_id | payload_length | payload | checksum`.

Buffers the code allocates with `malloc` start with arbitrary contents, so each constructor takes
them as an argument (`junk`), as it takes the device catalog that `get_device` reads: both are
outside the sources. A plain `char` byte of the serialized form is a `UInt8` here, that is, `char`
is read as unsigned, and the kind and the length of a `message_t` are one byte wide, as the spec
has them. On a build where `char` is signed, such as an x86 one, an id or a length of `0x80` or
more survives `parse_message` only if those two fields are 8-bit, which the sources do not say.

`parse_message_to_bytes` is the round trip of the two conversions, for every id and length byte.
The checksum starts from `data[0]` and XORs it in again (`checksum_succ`), so a flipped bit in a
payload byte or in the checksum byte is caught and one in the id byte is not
(`parse_message_bit_flip`).
-/

namespace LowcarRuntime

/-! ## Message kinds

The codes of `enum packet_type`. `Log` is used by the code but its value is not among the sources;
no function modelled here tests for it. -/

namespace PacketType

def ping : UInt8 := 0x10
def subscriptionRequest : UInt8 := 0x11
def subscriptionResponse : UInt8 := 0x12
def deviceRead : UInt8 := 0x13
def deviceWrite : UInt8 := 0x14
def deviceData : UInt8 := 0x15
def disable : UInt8 := 0x16
def heartBeatRequest : UInt8 := 0x17
def heartBeatResponse : UInt8 := 0x18
def error : UInt8 := 0xFF

end PacketType

/-- Modelled from the spec: `message_t`, whose declaration in `message.h` among the sources is an
older one (`int message_id; int* payload; int length;`). The fields are those that `message.c` and
`dev_handler.c` use. The kind and the payload length are byte-wide, as the spec's wire format has
them: a kind is one byte and a length `0..255`. `payloadSize` is the size of the block that `payload` points to (`0` for `NULL`),
which the C code does not store but which says which writes through `payload` are in bounds. -/
structure Message where
  /-- The kind, a `packet_type` code. -/
  messageId : UInt8
  /-- The contents of the payload buffer. -/
  payload : Mem
  /-- The number of payload bytes in use. -/
  payloadLength : Nat
  /-- The bound that `append_payload` checks. -/
  maxPayloadLength : Nat
  /-- The size of the block `payload` points to. -/
  payloadSize : Nat

/-- `dev_id_t`: a device's type, year and uid. -/
structure DevId where
  /-- The device type. -/
  type : UInt16
  /-- The year of manufacture. -/
  year : UInt8
  /-- The 64-bit uid assigned when flashing. -/
  uid : UInt64
  deriving DecidableEq, Repr

/-- One parameter of a device in the catalog: its name and its type (`"int"`, `"float"` or
`"bool"`). -/
structure Param where
  /-- The parameter's name. -/
  name : String
  /-- The parameter's type. -/
  type : String

/-- Modelled from the spec: the device catalog that `get_device(device_type)` looks up (it is
outside the sources): the parameters of each device type, in their order. -/
abbrev Catalog := UInt16 → List Param

/-- `checksum(data, len)`. The accumulator starts at `data[0]` and the loop XORs `data[0]` in again,
so the first byte cancels out (the open question of §9 of the spec). -/
def checksum (data : Mem) (len : Nat) : UInt8 :=
  (data.read 0 len).foldl (· ^^^ ·) (data 0)

/-- `append_payload(msg, data, length)`: copy `data` after the payload in use, then report `-1` if
the new length passes `max_payload_length`. The copy comes before the check. -/
def appendPayload (msg : Message) (data : List UInt8) : Int × Message :=
  let msg' := { msg with payload := msg.payload.writeBytes msg.payloadLength data,
                         payloadLength := msg.payloadLength + data.length }
  (if msg'.maxPayloadLength < msg'.payloadLength then -1 else 0, msg')

/-- `message_to_bytes(msg, data, len)`: the id, the length byte, the payload and the checksum of
the `2 + payload_length` bytes before it, unless `len` is too small, when `data` is left as it
is. -/
def messageToBytes (msg : Message) (data : Mem) (len : Nat) : Mem :=
  if len < 3 + msg.payloadLength then data
  else
    let d := ((data.write 0 msg.messageId).write 1 msg.payloadLength.toUInt8).writeBytes 2
      (msg.payload.read 0 msg.payloadLength)
    d.write (2 + msg.payloadLength) (checksum d (2 + msg.payloadLength))

/-- `parse_message(data, msg_to_fill)`: the value it returns (`1` when the checksum byte after the
payload does not match) and the message it fills. The plain `char`s `data[0]` and `data[1]` are
read as unsigned bytes into the byte-wide kind and length. Where `char` is signed and those fields
are wider, a byte of `0x80` or more would be read as a negative value instead. The payload is
copied through the message's payload pointer, whatever the size of the block it points to. -/
def parseMessage (data : Mem) (msg : Message) : Nat × Message :=
  let len := (data 1).toNat
  (if data (2 + len) ≠ checksum data (2 + len) then 1 else 0,
    { msg with messageId := data 0, payloadLength := len, maxPayloadLength := len,
               payload := msg.payload.writeBytes 0 (data.read 2 len) })

/-! ## The checksum

`checksum` folds bytes with `^^^`. With XOR associative and commutative on bytes, `ac_rfl`
rearranges the folds. -/

theorem byte_xor_assoc (a b c : UInt8) : a ^^^ b ^^^ c = a ^^^ (b ^^^ c) :=
  UInt8.eq_of_toBitVec_eq (BitVec.xor_assoc _ _ _)

instance byteXorAssociative : Std.Associative (α := UInt8) (· ^^^ ·) := ⟨byte_xor_assoc⟩

instance byteXorCommutative : Std.Commutative (α := UInt8) (· ^^^ ·) :=
  ⟨fun _ _ => UInt8.eq_of_toBitVec_eq (BitVec.xor_comm _ _)⟩

@[simp] theorem byte_xor_self (a : UInt8) : a ^^^ a = 0 := UInt8.eq_of_toBitVec_eq BitVec.xor_self

@[simp] theorem byte_xor_zero (a : UInt8) : a ^^^ 0 = a := UInt8.eq_of_toBitVec_eq BitVec.xor_zero

@[simp] theorem byte_zero_xor (a : UInt8) : 0 ^^^ a = a := UInt8.eq_of_toBitVec_eq BitVec.zero_xor

/-- XOR with a nonzero byte changes every byte. -/
theorem byte_xor_ne {m : UInt8} (a : UInt8) (hm : m ≠ 0) : a ^^^ m ≠ a := by
  intro h
  apply hm
  rw [← byte_zero_xor m, ← byte_xor_self a, byte_xor_assoc, h]

theorem foldl_xor (a : UInt8) (l : List UInt8) :
    l.foldl (· ^^^ ·) a = a ^^^ l.foldl (· ^^^ ·) 0 := by
  induction l generalizing a with
  | nil => simp
  | cons b l ih =>
    rw [List.foldl_cons, List.foldl_cons, byte_zero_xor, ih, ih b]
    ac_rfl

/-- The first byte cancels: the checksum of `n + 1` bytes is the XOR of the `n` after the first. -/
theorem checksum_succ (data : Mem) (n : Nat) :
    checksum data (n + 1) = (data.read 1 n).foldl (· ^^^ ·) 0 := by
  rw [checksum, Mem.read_succ, List.foldl_cons, byte_xor_self]

/-- A store at the first byte, or past the bytes folded, leaves the checksum as it is. -/
theorem checksum_write_of_not_mem (data : Mem) {n p : Nat} (b : UInt8) (h : p < 1 ∨ 1 + n ≤ p) :
    checksum (data.write p b) (n + 1) = checksum data (n + 1) := by
  rw [checksum_succ, checksum_succ, Mem.read_write_of_not_mem b h]

/-- A byte XORed into memory inside the bytes read is XORed into their fold. -/
theorem foldl_read_xor (d : Mem) {a n p : Nat} (m : UInt8) (h1 : a ≤ p) (h2 : p < a + n) :
    ((d.write p (d p ^^^ m)).read a n).foldl (· ^^^ ·) 0 = (d.read a n).foldl (· ^^^ ·) 0 ^^^ m := by
  induction n generalizing a with
  | zero => omega
  | succ n ih =>
    rw [Mem.read_succ, Mem.read_succ, List.foldl_cons, List.foldl_cons, foldl_xor,
      foldl_xor (0 ^^^ d a)]
    rcases Nat.eq_or_lt_of_le h1 with rfl | h1
    · rw [Mem.write_same, Mem.read_write_of_not_mem _ (by omega)]
      ac_rfl
    · rw [Mem.write_of_ne _ (by omega), ih h1 (by omega)]
      ac_rfl

/-- The bytes `d` with bit `k` of the byte at `p` flipped: a one-bit corruption of a frame. -/
def flipBit (d : Mem) (p : Nat) (k : Fin 8) : Mem := d.write p (d p ^^^ (1 <<< k.val.toUInt8))

theorem bitMask_ne_zero (k : Fin 8) : (1 : UInt8) <<< k.val.toUInt8 ≠ 0 := by
  revert k
  decide

/-- A bit flipped in a byte after the first of those folded is flipped in the checksum. -/
theorem checksum_flipBit (data : Mem) {n p : Nat} (k : Fin 8) (h1 : 1 ≤ p) (h2 : p ≤ n) :
    checksum (flipBit data p k) (n + 1) = checksum data (n + 1) ^^^ (1 <<< k.val.toUInt8) := by
  rw [checksum_succ, checksum_succ, flipBit, foldl_read_xor _ _ h1 (by omega)]

/-! ## Serializing and parsing -/

section Serialize

variable {m : Message} {data : Mem} {len : Nat}

/-- What `message_to_bytes` writes into a buffer large enough for the message: the id, the length
byte, the payload, and a checksum byte that matches. -/
theorem messageToBytes_spec (hlen : m.payloadLength < 256) (hbuf : 3 + m.payloadLength ≤ len) :
    messageToBytes m data len 0 = m.messageId ∧
    (messageToBytes m data len 1).toNat = m.payloadLength ∧
    (messageToBytes m data len).read 2 m.payloadLength = m.payload.read 0 m.payloadLength ∧
    messageToBytes m data len (2 + m.payloadLength) =
      checksum (messageToBytes m data len) (2 + m.payloadLength) := by
  have hb := Mem.length_read m.payload 0 m.payloadLength
  rw [messageToBytes, if_neg (by omega), show 2 + m.payloadLength = m.payloadLength + 1 + 1 by omega]
  refine ⟨?_, ?_, ?_, ?_⟩
  · rw [Mem.write_of_ne _ (by omega), Mem.writeBytes_of_not_mem (by omega),
      Mem.write_of_ne _ (by omega), Mem.write_same]
  · rw [Mem.write_of_ne _ (by omega), Mem.writeBytes_of_not_mem (by omega), Mem.write_same,
      toNat_toUInt8 hlen]
  · have h := Mem.read_writeBytes ((data.write 0 m.messageId).write 1 m.payloadLength.toUInt8) 2
      (m.payload.read 0 m.payloadLength)
    rw [hb] at h
    rw [Mem.read_write_of_not_mem _ (by omega), h]
  · rw [Mem.write_same, checksum_write_of_not_mem _ _ (by omega)]

end Serialize

/-! ## Constructors -/

/-- `make_ping()`. -/
def makePing : Message := ⟨PacketType.ping, fun _ => 0, 0, 0, 0⟩

/-- `make_disable()`. -/
def makeDisable : Message := ⟨PacketType.disable, fun _ => 0, 0, 0, 0⟩

/-- `make_heartbeat_request(heartbeat_id)`, with `junk` the new payload block. -/
def makeHeartbeatRequest (junk : Mem) (heartbeatId : UInt8) : Message :=
  ⟨PacketType.heartBeatRequest, junk.write 0 heartbeatId, 1, 1, 1⟩

/-- `make_heartbeat_response(heartbeat_id)`, with `junk` the new payload block. -/
def makeHeartbeatResponse (junk : Mem) (heartbeatId : UInt8) : Message :=
  ⟨PacketType.heartBeatResponse, junk.write 0 heartbeatId, 1, 1, 1⟩

/-- `make_error(error_code)`, with `junk` the new payload block. -/
def makeError (junk : Mem) (errorCode : UInt8) : Message :=
  ⟨PacketType.error, junk.write 0 errorCode, 1, 1, 1⟩

/-- The index of the catalog's first parameter called `name`. -/
def paramIndex (params : List Param) (name : String) : Option Nat :=
  params.findIdx? (·.name = name)

/-- `encode_params(device_type, params, len)`, with `len` the length of `params`. `param_nums` is a
variable-length array that the first loop fills only for the names it finds in the catalog; the
others keep the arbitrary contents `paramNums`. The shift `1 << param_nums[i]` is on `int`, of which
only amounts below 32 are defined; the model shifts a `UInt32` modulo 32. -/
def encodeParams (catalog : Catalog) (deviceType : UInt16) (params : List String)
    (paramNums : Nat → UInt8) : UInt32 :=
  let nums (i : Nat) : UInt8 :=
    match params[i]? >>= paramIndex (catalog deviceType) with
    | some j => j.toUInt8
    | none => paramNums i
  (List.range params.length).foldl (fun mask i => mask ||| ((1 : UInt32) <<< (nums i).toUInt32)) 0

/-- `append_payload` of the bytes that the constructors append in turn; the sum of the statuses is
what they test against `0`. -/
def appendAll (msg : Message) : List (List UInt8) → Int × Message
  | [] => (0, msg)
  | d :: ds =>
    let r := appendPayload msg d
    let rs := appendAll r.2 ds
    (r.1 + rs.1, rs.2)

/-- The appends store their bytes one after the other after the payload in use, whatever they
report. -/
theorem appendAll_snd (msg : Message) (ds : List (List UInt8)) :
    (appendAll msg ds).2 = { msg with payload := msg.payload.writeBytes msg.payloadLength ds.flatten,
                                      payloadLength := msg.payloadLength + ds.flatten.length } := by
  induction ds generalizing msg with
  | nil => rfl
  | cons d ds ih =>
    simp only [appendAll, ih, appendPayload, List.flatten_cons, Mem.writeBytes_append,
      List.length_append, Nat.add_assoc]

/-- The appends all report success when their bytes fit under `max_payload_length`. -/
theorem appendAll_fst_of_le (msg : Message) (ds : List (List UInt8))
    (h : msg.payloadLength + ds.flatten.length ≤ msg.maxPayloadLength) : (appendAll msg ds).1 = 0 := by
  induction ds generalizing msg with
  | nil => rfl
  | cons d ds ih =>
    simp only [List.flatten_cons, List.length_append] at h
    show (appendPayload msg d).1 + (appendAll (appendPayload msg d).2 ds).1 = 0
    rw [ih _ (by simp only [appendPayload]; omega)]
    simp only [appendPayload, if_neg (show ¬msg.maxPayloadLength < msg.payloadLength + d.length by omega),
      add_zero]

/-- A constructor's result: the message when every `append_payload` succeeded, `NULL` otherwise. -/
def appendedOrNull (r : Int × Message) : Option Message :=
  if r.1 = 0 then some r.2 else none

/-- `make_subscription_request(device_id, param_names, len, delay)`: the 32-bit mask of the named
parameters and the delay, in a 6-byte payload. -/
def makeSubscriptionRequest (catalog : Catalog) (junk : Mem) (paramNums : Nat → UInt8)
    (deviceId : DevId) (paramNames : List String) (delay : UInt16) : Option Message :=
  appendedOrNull <| appendAll ⟨PacketType.subscriptionRequest, junk, 0, 6, 6⟩
    [leBytes (encodeParams catalog deviceId.type paramNames paramNums).toNat 4,
     leBytes delay.toNat 2]

/-- `make_subscription_response(device_id, param_names, len, delay)`: the mask and the delay, then
the 11 bytes at `&device_id->uid`, in a 17-byte payload. Those are the 8 bytes of the uid and the 3
bytes that follow the uid in memory, `past`. -/
def makeSubscriptionResponse (catalog : Catalog) (junk past : Mem) (paramNums : Nat → UInt8)
    (deviceId : DevId) (paramNames : List String) (delay : UInt16) : Option Message :=
  appendedOrNull <| appendAll ⟨PacketType.subscriptionResponse, junk, 0, 17, 17⟩
    [leBytes (encodeParams catalog deviceId.type paramNames paramNums).toNat 4,
     leBytes delay.toNat 2,
     leBytes deviceId.uid.toNat 8 ++ past.read 0 3]

/-- `make_device_read(device_id, param_names, len)`: the mask, in a 4-byte payload. -/
def makeDeviceRead (catalog : Catalog) (junk : Mem) (paramNums : Nat → UInt8)
    (deviceId : DevId) (paramNames : List String) : Option Message :=
  appendedOrNull <| appendAll ⟨PacketType.deviceRead, junk, 0, 4, 4⟩
    [leBytes (encodeParams catalog deviceId.type paramNames paramNums).toNat 4]

/-! ## The round trip and corrupted frames -/

/-- `parse_message` reads back what `message_to_bytes` wrote: the checksum matches, and the id, the
length and the payload bytes are those of the message, for every id and every length byte. -/
theorem parse_message_to_bytes (m : Message) (data : Mem) (len : Nat) (target : Message)
    (hlen : m.payloadLength < 256) (hbuf : 3 + m.payloadLength ≤ len) :
    (parseMessage (messageToBytes m data len) target).1 = 0 ∧
    (parseMessage (messageToBytes m data len) target).2.messageId = m.messageId ∧
    (parseMessage (messageToBytes m data len) target).2.payloadLength = m.payloadLength ∧
    (parseMessage (messageToBytes m data len) target).2.payload.read 0 m.payloadLength =
      m.payload.read 0 m.payloadLength := by
  obtain ⟨h0, h1, h2, h3⟩ := @messageToBytes_spec _ data _ hlen hbuf
  have h := Mem.read_writeBytes target.payload 0 (m.payload.read 0 m.payloadLength)
  rw [Mem.length_read] at h
  simp only [parseMessage, h0, h1, h2, h3, ne_eq, not_true_eq_false, if_false, h, and_self]

theorem parse_message_to_bytes_error :
    ((makeError (fun _ => 0) 0x80).payloadLength < 256 ∧
      3 + (makeError (fun _ => 0) 0x80).payloadLength ≤ 4) ∧
    (parseMessage (messageToBytes (makeError (fun _ => 0) 0x80) (fun _ => 0) 4)
      (makeError (fun _ => 0) 0)).1 = 0 ∧
    (parseMessage (messageToBytes (makeError (fun _ => 0) 0x80) (fun _ => 0) 4)
      (makeError (fun _ => 0) 0)).2.messageId = (makeError (fun _ => 0) 0x80).messageId ∧
    (parseMessage (messageToBytes (makeError (fun _ => 0) 0x80) (fun _ => 0) 4)
      (makeError (fun _ => 0) 0)).2.payloadLength = (makeError (fun _ => 0) 0x80).payloadLength ∧
    (parseMessage (messageToBytes (makeError (fun _ => 0) 0x80) (fun _ => 0) 4)
      (makeError (fun _ => 0) 0)).2.payload.read 0 (makeError (fun _ => 0) 0x80).payloadLength =
      (makeError (fun _ => 0) 0x80).payload.read 0 (makeError (fun _ => 0) 0x80).payloadLength :=
  ⟨by decide, parse_message_to_bytes _ _ 4 _ (by decide) (by decide)⟩

/-- A one-bit corruption of a serialized message: `parse_message` reports it when the bit is in a
payload byte or in the checksum byte, and misses it when it is in the id byte, which the checksum
cancels. -/
theorem parse_message_bit_flip (m : Message) (data : Mem) (len : Nat) (target : Message) (p : Nat)
    (k : Fin 8) (hlen : m.payloadLength < 256) (hbuf : 3 + m.payloadLength ≤ len)
    (hp : p = 0 ∨ 2 ≤ p ∧ p ≤ 2 + m.payloadLength) :
    (parseMessage (flipBit (messageToBytes m data len) p k) target).1 = if p = 0 then 0 else 1 := by
  obtain ⟨-, h1, -, h3⟩ := @messageToBytes_spec _ data _ hlen hbuf
  have hm := bitMask_ne_zero k
  have hlen1 : flipBit (messageToBytes m data len) p k 1 = messageToBytes m data len 1 :=
    Mem.write_of_ne _ (by omega)
  have e : 2 + m.payloadLength = m.payloadLength + 1 + 1 := by omega
  simp only [parseMessage, hlen1, h1]
  rw [e] at h3 ⊢
  rcases hp with rfl | ⟨hp2, hp⟩
  · -- The id byte: neither the checksum byte nor the checksum changes.
    rw [flipBit, checksum_write_of_not_mem _ _ (by omega), Mem.write_of_ne _ (by omega)]
    simp [h3]
  · rcases Nat.lt_or_ge p (m.payloadLength + 1 + 1) with hp' | hp'
    · -- A payload byte: the checksum changes, the checksum byte does not.
      rw [checksum_flipBit _ _ (by omega) (by omega), flipBit, Mem.write_of_ne _ (by omega), ← h3]
      simp [Ne.symm (byte_xor_ne _ hm), show p ≠ 0 by omega]
    · -- The checksum byte: it changes, the checksum does not.
      obtain rfl : p = m.payloadLength + 1 + 1 := by omega
      rw [flipBit, checksum_write_of_not_mem _ _ (by omega), Mem.write_same, ← h3]
      simp [byte_xor_ne _ hm]

theorem parse_message_bit_flip_payload :
    ((0x20 : Nat) < 256 ∧ 3 + 1 ≤ 4 ∧ (2 = 0 ∨ 2 ≤ 2 ∧ 2 ≤ 2 + 1)) ∧
    (parseMessage (flipBit (messageToBytes (makeError (fun _ => 0) 0x20) (fun _ => 0) 4) 2 3)
      (makeError (fun _ => 0) 0)).1 = if 2 = 0 then 0 else 1 :=
  ⟨by decide, parse_message_bit_flip _ _ 4 _ 2 3 (by decide) (by decide) (by decide)⟩

/-- A flipped bit in the id byte of a serialized ping goes unnoticed. -/
theorem parse_message_misses_id_flip :
    (parseMessage (flipBit (messageToBytes makePing (fun _ => 0) 3) 0 0) makePing).1 = 0 := by
  decide

end LowcarRuntime
