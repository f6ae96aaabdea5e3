import LowcarRuntime.Codec.Message
import LowcarRuntime.Codec.CobsMemory

/-!
# Reading messages from a device

`receive_message` and `ping` of `src/dev_handler/dev_handler.c`. Each bulk transfer is an outcome
chosen by the device and the bus: a return code and the bytes it moved, at most as many as asked
for. `receive_message` reads a delimiter, a length byte and that many bytes, and hands them to
`parse_message`; `ping` reads one reply of at most 32 bytes and parses it from its first byte.

Neither decodes COBS. The wire frame of the spec, a delimiter, the encoded length and the COBS
encoding of the serialized message, is therefore parsed from its first length byte by
`receive_message` and from its delimiter by `ping` (`receive_message_parses_encoded_frame`). Neither
checks the length byte against its buffers: `ping`'s result depends on bytes far past the 32 it
allocated (`ping_reads_past_reply_buffer`). `ping` reads the device identity at fixed offsets of the
payload, where `make_subscription_response` puts the uid (`subscription_response_ping_identity`).
-/

namespace LowcarRuntime

/-- The outcome of one `libusb_bulk_transfer` call: its return code and the bytes it moved. -/
structure Transfer where
  /-- The return code, `0` for `LIBUSB_SUCCESS`. -/
  ret : Int
  /-- The bytes moved. -/
  bytes : List UInt8

namespace Transfer

/-- The bytes a call that asks for `n` bytes moves; `transferred` is their number. -/
def moved (t : Transfer) (n : Nat) : List UInt8 := t.bytes.take n

/-- The test `ret == LIBUSB_SUCCESS && transferred == n`. -/
def full (t : Transfer) (n : Nat) : Prop := t.ret = 0 ∧ (t.moved n).length = n

instance (t : Transfer) (n : Nat) : Decidable (t.full n) := inferInstanceAs (Decidable (_ ∧ _))

/-- The byte a one-byte read stores. -/
def byte (t : Transfer) : UInt8 := t.bytes.headD 0

end Transfer

/-- Modelled from the spec: the size of the block `receive_message` allocates,
`MESSAGE_ID_SIZE + PAYLOAD_LENGTH_SIZE + MAX_PAYLOAD_SIZE + CHECKSUM_SIZE + 1`, with the one-byte
fields of the wire format. `MAX_PAYLOAD_SIZE` is not among the sources. -/
def receiveBufferSize (maxPayloadSize : Nat) : Nat := 1 + 1 + maxPayloadSize + 1 + 1

/-- `receive_message(msg, handle, endpoint)`, on the outcomes of its three reads (the delimiter, the
length, the body; a read that is not reached is not used) and with `data` the contents of the block
it allocates. It returns `0` for a parsed message, `1` when no byte came, `2` for a broken message
and `3` for a checksum mismatch, and the message as `parse_message` left it. -/
def receiveMessage (data : Mem) (msg : Message) (t1 t2 t3 : Transfer) : Nat × Message :=
  if t1.full 1 then
    if t1.byte = 0 then
      if t2.full 1 then
        if t3.full t2.byte.toNat then
          let r := parseMessage (data.writeBytes 0 (t3.moved t2.byte.toNat)) msg
          (if r.1 = 0 then 0 else 3, r.2)
        else (2, msg)
      else (2, msg)
    else (2, msg)
  else (1, msg)

/-- What the receiver loop leaves in its message after each message it handles: `message_id`,
`payload` (the pointer, so `NULL`) and `payload_length` cleared, `max_payload_length` set back to
`MAX_PAYLOAD_SIZE`. -/
def receiverClear (maxPayloadSize : Nat) (msg : Message) : Message :=
  { msg with messageId := 0, payloadSize := 0, payloadLength := 0, maxPayloadLength := maxPayloadSize }

/-- The identity `ping` stores from a SubscriptionResponse's payload: the 16 bits at byte 6, the
byte 8 and the 64 bits at byte 9, little-endian. -/
def pingIdentity (payload : Mem) : DevId :=
  ⟨(leValue (payload.read 6 2)).toUInt16, payload 8, (leValue (payload.read 9 8)).toUInt64⟩

/-- The outcomes of the calls `ping` makes: the length `message_to_bytes` gives for the Ping (the
`message.c` among the sources returns none, so it is an input here), the Ping's transfer, the reply
read into a 32-byte block with contents `replyBuf`, and the contents at the payload pointer of the
`malloc`ed `sub_response`, which is never set. -/
structure PingEnv where
  /-- The value of `message_to_bytes(ping, data, len)`. -/
  serialized : Int
  /-- The return code of the Ping's transfer. -/
  sendRet : Int
  /-- The reply's transfer. -/
  reply : Transfer
  /-- The contents of the 32-byte reply block. -/
  replyBuf : Mem
  /-- The contents at `sub_response->payload`. -/
  payload : Mem

/-- How `ping` returns: `0` with the identity it stores in the relay, or the codes `1` to `4`. -/
inductive PingResult
  | ok (id : DevId)
  | serializeFailed
  | transferFailed
  | badChecksum
  | notSubscriptionResponse
  deriving DecidableEq, Repr

/-- `parse_message(data, sub_response)` in `ping`: the reply is parsed from the first byte of the
block, whatever `transferred` says. -/
def pingParse (env : PingEnv) : Nat × Message :=
  parseMessage (env.replyBuf.writeBytes 0 (env.reply.moved 32)) ⟨0, env.payload, 0, 0, 0⟩

/-- `ping(relay)`. -/
def ping (env : PingEnv) : PingResult :=
  if env.serialized ≤ 0 then .serializeFailed
  else if env.sendRet ≠ 0 then .transferFailed
  else if env.reply.ret ≠ 0 then .transferFailed
  else if (pingParse env).1 ≠ 0 then .badChecksum
  else if (pingParse env).2.messageId ≠ PacketType.subscriptionResponse then .notSubscriptionResponse
  else .ok (pingIdentity (pingParse env).2.payload)

/-- What `ping` returning `0` on the outcomes `env` says: `parse_message` accepted the reply as a
SubscriptionResponse, and `id` is the identity at the fixed offsets of the payload it filled. -/
def Identified (env : PingEnv) (id : DevId) : Prop :=
  (pingParse env).1 = 0 ∧ (pingParse env).2.messageId = PacketType.subscriptionResponse ∧
    id = pingIdentity (pingParse env).2.payload

/-- `ping` succeeds only with the identity read from the reply it accepted. -/
theorem ping_eq_ok {env : PingEnv} {id : DevId} (h : ping env = .ok id) : Identified env id := by
  unfold ping at h
  split_ifs at h with h1 h2 h3 h4 h5
  exact ⟨not_not.mp h4, not_not.mp h5, (PingResult.ok.inj h).symm⟩

/-- `pingIdentity` reads the payload bytes `6` to `16` only. -/
theorem pingIdentity_congr {p q : Mem} (h : ∀ i, 6 ≤ i → i < 17 → p i = q i) :
    pingIdentity p = pingIdentity q := by
  unfold pingIdentity
  rw [@Mem.read_congr p q 6 2 fun i h1 h2 => h i h1 (by omega),
    @Mem.read_congr p q 9 8 fun i h1 h2 => h i (by omega) (by omega), h 8 (by omega) (by omega)]

/-- When the reply's length byte is at least 17 and its transfer moved the bytes that covers, the
identity comes from the reply itself: its payload, from byte 2 on, holds the identity at the
offsets `ping` reads. Shorter replies leave `ping` reading the `malloc`ed payload block. -/
theorem Identified.of_reply {env : PingEnv} {id : DevId} (h : Identified env id)
    (hmoved : 19 ≤ (env.reply.moved 32).length) (hlen : 17 ≤ ((env.reply.moved 32).getD 1 0).toNat) :
    id = pingIdentity (Mem.writeBytes (fun _ => 0) 0 ((env.reply.moved 32).drop 2)) := by
  obtain ⟨-, -, rfl⟩ := h
  -- The reply block holds the moved bytes, its length byte among them.
  have hdata : ∀ i, i < 19 → env.replyBuf.writeBytes 0 (env.reply.moved 32) i =
      (env.reply.moved 32).getD i 0 := fun i hi => by
    simpa using @Mem.writeBytes_getD env.replyBuf 0 i _ (by omega)
  have hL := hdata 1 (by omega)
  refine pingIdentity_congr fun i h6 h17 => ?_
  simp only [pingParse, parseMessage]
  calc _ = ((env.replyBuf.writeBytes 0 (env.reply.moved 32)).read 2
          (env.replyBuf.writeBytes 0 (env.reply.moved 32) 1).toNat).getD i 0 := by
        simpa using @Mem.writeBytes_getD env.payload 0 i _ (by rw [Mem.length_read, hL]; omega)
    _ = (env.reply.moved 32).getD (2 + i) 0 := by
        rw [Mem.getD_read _ (by rw [hL]; omega), hdata _ (by omega)]
    _ = _ := by
        rw [List.getD_eq_getElem?_getD, ← List.getElem?_drop, ← List.getD_eq_getElem?_getD]
        simpa using (@Mem.writeBytes_getD (fun _ => 0) 0 i ((env.reply.moved 32).drop 2)
          (by rw [List.length_drop]; omega)).symm

/-! ## The wire frame -/

/-- The wire frame of a message: the delimiter, the encoded length, then the bytes that
`cobs_encode` writes for the bytes that `message_to_bytes` writes. -/
def wireFrame (msg : Message) : List UInt8 :=
  let bytes := (messageToBytes msg (fun _ => 0) (3 + msg.payloadLength)).read 0 (3 + msg.payloadLength)
  let enc := Cobs.cobsEncode (fun _ => 0) 0 bytes
  0 :: enc.outLen.toUInt8 :: enc.mem.read 0 enc.outLen

/-- On a framed reply, `parse_message` in `ping` reads the delimiter as the message kind. -/
theorem ping_framed_reply (m : Message) (env : PingEnv) (id : DevId) :
    ping { env with reply := ⟨env.reply.ret, wireFrame m⟩ } ≠ .ok id := by
  have hid :
      (pingParse { env with reply := ⟨env.reply.ret, wireFrame m⟩ }).2.messageId = 0 := by
    simp [pingParse, parseMessage, wireFrame, Transfer.moved]
  intro h
  exact absurd (ping_eq_ok h).2.1 (by rw [hid]; decide)

set_option maxRecDepth 4000 in
/-- The device sends the wire frame of the HeartBeatRequest `make_heartbeat_request(0)`, one read at
a time; `receive_message` parses the encoded body from its first byte, the COBS length byte `3`, and
so fills the message with kind `0x03`, whatever its buffers held. `ping` likewise never accepts a
framed reply. -/
theorem receive_message_parses_encoded_frame :
    wireFrame (makeHeartbeatRequest (fun _ => 0) 0) = [0x00, 0x05, 0x03, 0x17, 0x01, 0x02, 0x01] ∧
    (∀ (data : Mem) (msg : Message),
      (receiveMessage data msg ⟨0, [0x00]⟩ ⟨0, [0x05]⟩ ⟨0, [0x03, 0x17, 0x01, 0x02, 0x01]⟩).2.messageId =
        0x03) ∧
    ∀ (m : Message) (env : PingEnv) (id : DevId),
      ping { env with reply := ⟨env.reply.ret, wireFrame m⟩ } ≠ .ok id :=
  ⟨by decide, fun _ _ => rfl, ping_framed_reply⟩

/-! ## Buffer bounds -/

/-- A reply whose length byte is `0x1E` makes `parse_message` in `ping` compare the checksum with
byte 32 of the 32-byte reply block: two replies that agree on the block and differ only at byte 32
get different answers. -/
theorem ping_reads_past_reply_buffer :
    ping ⟨1, 0, ⟨0, [0x12, 0x1E]⟩, fun _ => 0, fun _ => 0⟩ = .badChecksum ∧
    ping ⟨1, 0, ⟨0, [0x12, 0x1E]⟩, fun i => if i = 32 then 0x1E else 0, fun _ => 0⟩ =
      .ok ⟨0, 0, 0⟩ :=
  ⟨by decide, by decide⟩

/-! ## The identity in a SubscriptionResponse -/

/-- What `ping` reads from the payload `make_subscription_response` builds: the mask and the delay
where the layout puts them, but in place of the type, year and uid the first two bytes of the uid,
its third byte, and its last five bytes followed by the three bytes after it in memory. -/
theorem subscription_response_ping_identity (catalog : Catalog) (junk past : Mem)
    (paramNums : Nat → UInt8) (id : DevId) (names : List String) (delay : UInt16) :
    ∃ msg, makeSubscriptionResponse catalog junk past paramNums id names delay = some msg ∧
      msg.payload.read 0 4 = leBytes (encodeParams catalog id.type names paramNums).toNat 4 ∧
      msg.payload.read 4 2 = leBytes delay.toNat 2 ∧
      pingIdentity msg.payload =
        ⟨(id.uid.toNat % 2 ^ 16).toUInt16, (id.uid.toNat / 2 ^ 16 % 256).toUInt8,
          (id.uid.toNat / 2 ^ 24 + 2 ^ 40 * leValue (past.read 0 3)).toUInt64⟩ := by
  have hmk : makeSubscriptionResponse catalog junk past paramNums id names delay =
      some ⟨PacketType.subscriptionResponse, ((junk.writeBytes 0
        (leBytes (encodeParams catalog id.type names paramNums).toNat 4)).writeBytes 4
        (leBytes delay.toNat 2)).writeBytes 6 (leBytes id.uid.toNat 8 ++ past.read 0 3), 17, 17, 17⟩ := by
    simp [makeSubscriptionResponse, appendAll, appendPayload, appendedOrNull]
  refine ⟨_, hmk, ?_, ?_, ?_⟩
  · rw [Mem.read_writeBytes_of_not_mem (by simp), Mem.read_writeBytes_of_not_mem (by simp)]
    simpa using
      Mem.read_writeBytes junk 0 (leBytes (encodeParams catalog id.type names paramNums).toNat 4)
  · rw [Mem.read_writeBytes_of_not_mem (by simp)]
    simpa using Mem.read_writeBytes _ 4 (leBytes delay.toNat 2)
  · -- The 11 bytes at `&device_id->uid` start at payload byte 6.
    have hread : ∀ i n, i + n ≤ 11 → (((junk.writeBytes 0 (leBytes
        (encodeParams catalog id.type names paramNums).toNat 4)).writeBytes 4
        (leBytes delay.toNat 2)).writeBytes 6 (leBytes id.uid.toNat 8 ++ past.read 0 3)).read
          (6 + i) n =
        ((leBytes id.uid.toNat 8 ++ past.read 0 3).drop i).take n :=
      fun i n h => Mem.read_writeBytes_of_le _ _ _ (by simpa using h)
    have hlt := id.uid.toNat_lt_size
    simp only [pingIdentity, DevId.mk.injEq]
    refine ⟨?_, ?_, ?_⟩
    · rw [hread 0 2 (by omega), List.drop_zero, List.take_append_of_le_length (by simp),
        take_leBytes _ (by omega), leValue_leBytes]
      norm_num
    · have h8 := hread 2 1 (by omega)
      rw [List.drop_append_of_le_length (by simp), drop_leBytes,
        List.take_append_of_le_length (by simp)] at h8
      simpa [Mem.read, leBytes, Nat.div_div_eq_div_mul] using h8
    · rw [hread 3 8 (by omega), List.drop_append_of_le_length (by simp), drop_leBytes,
        List.take_of_length_le (by simp), leValue_append, leValue_leBytes, length_leBytes,
        Nat.mod_eq_of_lt (by simp [UInt64.size] at hlt ⊢; omega)]
      norm_num

end LowcarRuntime
