import LowcarRuntime.Codec.Cobs

/-!
# `cobs_encode` and `cobs_decode` compute the list codec

The two functions of `src/dev_handler/message.c` as they run on byte memory, with their pointers as
addresses. `cobs_encode` keeps a slot for the current block's length byte (`block_len_loc`) and
fills it in `finish_block()` when the block ends; `cobs_decode` copies each block in its inner loop,
returns `0` from the bad-packet check when a block claims more bytes than remain, and may decode in
place.

`holds_cobsEncode` relates the encoder's variables to `encodeFrom`: the finished blocks lie at
`dst`, the current block's slot after them and its data after the slot. `decodeLoop_spec`
shows that the decoder, on memory that holds an encoding at `src` and with `dst` not after `src`
inside the encoding, stops at the end of the source, having written the decoding at `dst` and
nothing else. `cobs_decode_encode` joins them through the round trip `decode_encode`.

`EncodeState.Frame` says what the encoder leaves alone: it writes only `dst[0..out_len)`, never the
slot it keeps for a block after the last. `cobsDecode_output` gives what the decoder returns and
leaves at `dst` for every source, so decoding in place and into a separate buffer agree. The
bad-packet check comes after the copy, so a block that claims more bytes than remain has its copy
loop read the byte at `end` first (`cobs_decode_reads_past_end`).
-/

namespace LowcarRuntime.Cobs

/-! ## `cobs_encode` -/

/-- The variables of `cobs_encode`: the memory, the pointer `dst`, the slot `block_len_loc` kept for
the current block's length byte, `block_len` and `out_len`. `block_len` is a `uint8_t` that never
passes `0xFF`, so it is a natural number here. -/
structure EncodeState where
  /-- The byte memory. -/
  mem : Mem
  /-- The next address to write data to. -/
  dst : Nat
  /-- The slot of the current block's length byte. -/
  blockLenLoc : Nat
  /-- One more than the number of data bytes in the current block. -/
  blockLen : Nat
  /-- The number of bytes counted so far. -/
  outLen : Nat

namespace EncodeState

/-- `finish_block()`: store the length byte in its slot and keep the next address as the slot of
the next block. -/
def finishBlock (s : EncodeState) : EncodeState :=
  ⟨s.mem.write s.blockLenLoc s.blockLen.toUInt8, s.dst + 1, s.dst, 1, s.outLen + 1⟩

/-- `*dst++ = *src; block_len++; out_len++;` for a nonzero source byte `b`. -/
def putByte (s : EncodeState) (b : UInt8) : EncodeState :=
  ⟨s.mem.write s.dst b, s.dst + 1, s.blockLenLoc, s.blockLen + 1, s.outLen + 1⟩

/-- One iteration of the loop of `cobs_encode`, on the source byte `b`. -/
def step (s : EncodeState) (b : UInt8) : EncodeState :=
  if b = 0 then s.finishBlock
  else if (s.putByte b).blockLen = 0xFF then (s.putByte b).finishBlock
  else s.putByte b

end EncodeState

/-- `cobs_encode(dst, src, src_len)`, with the `src_len` source bytes `src` and `dst` the address
`dst`: the variables when it returns, `outLen` being the value returned. -/
def cobsEncode (mem : Mem) (dst : Nat) (src : List UInt8) : EncodeState :=
  (src.foldl EncodeState.step ⟨mem, dst + 1, dst, 1, 0⟩).finishBlock

/-- The encoder's variables after it has put out the blocks `out` from `d` on, when the current
block holds `blk`. -/
structure EncodeState.Holds (d : Nat) (s : EncodeState) (out blk : List UInt8) : Prop where
  loc : s.blockLenLoc = d + out.length
  dst : s.dst = s.blockLenLoc + 1 + blk.length
  blockLen : s.blockLen = blk.length + 1
  outLen : s.outLen = out.length + blk.length
  finished : s.mem.read d out.length = out
  current : s.mem.read (s.blockLenLoc + 1) blk.length = blk

namespace EncodeState

variable {d : Nat} {s : EncodeState} {out blk : List UInt8}

theorem Holds.finishBlock (h : Holds d s out blk) : Holds d s.finishBlock (out ++ block blk) [] where
  loc := by simp [EncodeState.finishBlock, block, h.dst, h.loc]; omega
  dst := rfl
  blockLen := rfl
  outLen := by simp [EncodeState.finishBlock, block, h.outLen]; omega
  finished := by
    simp only [EncodeState.finishBlock, List.length_append, block, List.length_cons, Mem.read_add,
      Mem.read_succ, ← h.loc, Mem.write_same]
    have := h.loc
    rw [Mem.read_write_of_not_mem _ (by omega), Mem.read_write_of_not_mem _ (by omega), h.finished,
      h.current, h.blockLen]
  current := rfl

theorem Holds.putByte (h : Holds d s out blk) (b : UInt8) :
    Holds d (s.putByte b) out (blk ++ [b]) where
  loc := h.loc
  dst := by simp [EncodeState.putByte, h.dst]; omega
  blockLen := by simp [EncodeState.putByte, h.blockLen]
  outLen := by simp [EncodeState.putByte, h.outLen]; omega
  finished := by
    rw [EncodeState.putByte, Mem.read_write_of_not_mem _ (by rw [h.dst, h.loc]; omega), h.finished]
  current := by
    simp only [EncodeState.putByte, List.length_append, List.length_singleton, h.dst]
    rw [Mem.read_write_end, h.current]

/-- One iteration of the loop puts out the bytes that `encodeStep` finishes. -/
theorem Holds.step (h : Holds d s out blk) (b : UInt8) :
    Holds d (s.step b) (out ++ (encodeStep blk b).1) (encodeStep blk b).2 := by
  have hl : (s.putByte b).blockLen = blk.length + 2 := by simp [EncodeState.putByte, h.blockLen]
  unfold EncodeState.step encodeStep
  by_cases h0 : b = 0
  · simpa [h0] using h.finishBlock
  · by_cases h254 : blk.length + 1 = 254
    · have h253 : blk.length = 253 := by omega
      simpa [h0, h253, hl] using (h.putByte b).finishBlock
    · have : (s.putByte b).blockLen ≠ 0xFF := by rw [hl]; omega
      simpa [h0, h254, this] using h.putByte b

/-- The loop and the last `finish_block()` put out the rest of the encoding. -/
theorem Holds.foldl (x : List UInt8) (h : Holds d s out blk) :
    Holds d (x.foldl EncodeState.step s).finishBlock (out ++ encodeFrom blk x) [] := by
  induction x generalizing s out blk with
  | nil => exact h.finishBlock
  | cons b x ih => simpa [encodeFrom] using ih (h.step b)

end EncodeState

theorem holds_cobsEncode (mem : Mem) (d : Nat) (x : List UInt8) :
    (cobsEncode mem d x).Holds d (encode x) [] := by
  have h0 : EncodeState.Holds d ⟨mem, d + 1, d, 1, 0⟩ [] [] :=
    ⟨rfl, rfl, rfl, rfl, rfl, rfl⟩
  simpa [encode] using h0.foldl x

/-- `cobs_encode` returns the length of the encoding. -/
theorem cobsEncode_outLen (mem : Mem) (d : Nat) (x : List UInt8) :
    (cobsEncode mem d x).outLen = (encode x).length := by
  simpa using (holds_cobsEncode mem d x).outLen

/-- `cobs_encode` writes the encoding at `dst`. -/
theorem read_cobsEncode (mem : Mem) (d : Nat) (x : List UInt8) :
    (cobsEncode mem d x).mem.read d (cobsEncode mem d x).outLen = encode x := by
  rw [cobsEncode_outLen]
  exact (holds_cobsEncode mem d x).finished

/-- What the encoder has left alone of the memory `mem` it started on: everything before `d`, from
`dst` on, and the slot of the current block's length byte. -/
structure EncodeState.Frame (mem : Mem) (d : Nat) (s : EncodeState) : Prop where
  start : d ≤ s.blockLenLoc
  slot : s.blockLenLoc < s.dst
  outside : ∀ p, p < d ∨ s.dst ≤ p ∨ p = s.blockLenLoc → s.mem p = mem p

namespace EncodeState

variable {mem : Mem} {d : Nat} {s : EncodeState}

theorem Frame.finishBlock (h : Frame mem d s) : Frame mem d s.finishBlock where
  start := Nat.le_of_lt (Nat.lt_of_le_of_lt h.start h.slot)
  slot := Nat.lt_succ_self _
  outside p hp := by
    simp only [EncodeState.finishBlock] at hp ⊢
    have h1 := h.start
    have h2 := h.slot
    rw [Mem.write_of_ne _ (by omega)]
    exact h.outside p (by omega)

theorem Frame.putByte (h : Frame mem d s) (b : UInt8) : Frame mem d (s.putByte b) where
  start := h.start
  slot := Nat.lt_succ_of_lt h.slot
  outside p hp := by
    simp only [EncodeState.putByte] at hp ⊢
    have h1 := h.start
    have h2 := h.slot
    rw [Mem.write_of_ne _ (by omega)]
    exact h.outside p (by omega)

theorem Frame.step (h : Frame mem d s) (b : UInt8) : Frame mem d (s.step b) := by
  unfold EncodeState.step
  split_ifs
  exacts [h.finishBlock, (h.putByte b).finishBlock, h.putByte b]

theorem Frame.foldl (x : List UInt8) (h : Frame mem d s) : Frame mem d (x.foldl EncodeState.step s) := by
  induction x generalizing s with
  | nil => exact h
  | cons b x ih => exact ih (h.step b)

end EncodeState

/-- `cobs_encode` changes no byte outside `dst[0..out_len)`: the slot it keeps for a next block after
the last one is never written. -/
theorem cobsEncode_frame (mem : Mem) (d : Nat) (x : List UInt8) (p : Nat)
    (hp : p < d ∨ d + (cobsEncode mem d x).outLen ≤ p) : (cobsEncode mem d x).mem p = mem p := by
  have h0 : EncodeState.Frame mem d ⟨mem, d + 1, d, 1, 0⟩ := ⟨le_rfl, Nat.lt_succ_self d, fun _ _ => rfl⟩
  have hf : (cobsEncode mem d x).Frame mem d := (h0.foldl x).finishBlock
  have h := holds_cobsEncode mem d x
  have hloc := h.loc
  have hdst := h.dst
  rw [cobsEncode_outLen] at hp
  simp only [List.length_nil, Nat.add_zero] at hloc hdst
  exact hf.outside p (by omega)

/-- None of the `out_len` bytes that `cobs_encode` writes at `dst` is zero. -/
theorem cobs_encode_nonzero (mem : Mem) (d : Nat) (x : List UInt8) :
    (0 : UInt8) ∉ (cobsEncode mem d x).mem.read d (cobsEncode mem d x).outLen := by
  rw [read_cobsEncode]
  exact zero_not_mem_encode x

/-- What `cobs_encode` writes and returns: `dst[0..out_len)` holds the encoding of the source, no
other byte changes, and `out_len` is the length of the source, one byte for the last block and one
byte per long run. -/
theorem cobs_encode_length (mem : Mem) (d : Nat) (x : List UInt8) :
    (cobsEncode mem d x).mem.read d (cobsEncode mem d x).outLen = encode x ∧
    (∀ p, p < d ∨ d + (cobsEncode mem d x).outLen ≤ p → (cobsEncode mem d x).mem p = mem p) ∧
    (cobsEncode mem d x).outLen = x.length + 1 + runOverhead x ∧
    (cobsEncode mem d x).outLen ≤ x.length + 1 + x.length / 254 ∧
    ((0 : UInt8) ∉ x → (cobsEncode mem d x).outLen = x.length + 1 + x.length / 254) ∧
    (x.length ≤ 253 → (cobsEncode mem d x).outLen = x.length + 1) ∧
    (x.length = 0 ∨ 0 < x.length ∧ 254 ∣ x.length ∧ (0 : UInt8) ∉ x →
      (cobsEncode mem d x).outLen = x.length + (x.length + 253) / 254 + 1) := by
  have hlen : (cobsEncode mem d x).outLen = x.length + 1 + runOverhead x := by
    rw [cobsEncode_outLen, length_encode]
  have hle := runOverhead_le x
  refine ⟨read_cobsEncode mem d x, cobsEncode_frame mem d x, hlen, by omega,
    fun h0 => by rw [hlen, runOverhead_of_zeroFree h0],
    fun h => by omega, ?_⟩
  rintro (h | ⟨-, hdvd, h0⟩)
  · omega
  · rw [hlen, runOverhead_of_zeroFree h0]
    omega

/-! ## `cobs_decode` -/

/-- The variables of `cobs_decode`: the memory, the pointers `src` and `dst`, and `out_len`. -/
structure DecodeState where
  /-- The byte memory; the source and the destination may overlap in it. -/
  mem : Mem
  /-- The next source address to read. -/
  src : Nat
  /-- The next destination address to write. -/
  dst : Nat
  /-- The number of bytes written so far. -/
  outLen : Nat

/-- Where `cobs_decode` returns from: after its loop, or from the bad-packet check. -/
inductive DecodeExit
  | done
  | badPacket
  deriving DecidableEq, Repr

namespace DecodeState

/-- `*dst++ = *src++; out_len++;` -/
def copyByte (s : DecodeState) : DecodeState :=
  ⟨s.mem.write s.dst (s.mem s.src), s.src + 1, s.dst + 1, s.outLen + 1⟩

/-- `*dst++ = 0; out_len++;` -/
def putZero (s : DecodeState) : DecodeState :=
  ⟨s.mem.write s.dst 0, s.src, s.dst + 1, s.outLen + 1⟩

end DecodeState

/-- The copy loop `for (uint8_t i = 1; i < code; i++)` with `k` iterations left, `stop` being the
address `end`: each iteration copies a byte, and returns from `cobs_decode` when `src` has passed
`end`. -/
def copyLoop (stop : Nat) : Nat → DecodeState → DecodeExit × DecodeState
  | 0, s => (.done, s)
  | k + 1, s =>
    if stop < s.copyByte.src then (.badPacket, s.copyByte) else copyLoop stop k s.copyByte

/-- The end of an iteration of the outer loop, after a block of length byte `code`: a zero unless
the block was a long run or the source has ended. -/
def blockEnd (stop : Nat) (code : UInt8) (s : DecodeState) : DecodeState :=
  if code < 0xFF ∧ s.src ≠ stop then s.putZero else s

/-- The loop `while (src < end)` of `cobs_decode`, for at most `fuel` iterations. Each iteration
reads a length byte, so `src_len` iterations are enough (`decodeLoop_spec`). -/
def decodeLoop (stop : Nat) : Nat → DecodeState → DecodeExit × DecodeState
  | 0, s => (.done, s)
  | fuel + 1, s =>
    if s.src < stop then
      let r := copyLoop stop ((s.mem s.src).toNat - 1) { s with src := s.src + 1 }
      if r.1 = .badPacket then r else decodeLoop stop fuel (blockEnd stop (s.mem s.src) r.2)
    else (.done, s)

/-- `cobs_decode(dst, src, src_len)`, with `dst` and `src` the addresses `dst` and `src`: how it
returns and its variables then. -/
def cobsDecode (mem : Mem) (dst src len : Nat) : DecodeExit × DecodeState :=
  decodeLoop (src + len) len ⟨mem, src, dst, 0⟩

/-- The value that `cobs_decode` returns: `out_len`, or `0` from the bad-packet check. -/
def decodeResult : DecodeExit × DecodeState → Nat
  | (.done, s) => s.outLen
  | (.badPacket, _) => 0

section Decode

variable {stop : Nat} {s : DecodeState} {y : List UInt8}

/-- The source from `src` to `stop` starts with the byte at `src`. -/
theorem read_cons {b : UInt8} {y' : List UInt8} (hy : s.mem.read s.src (stop - s.src) = b :: y') :
    s.src < stop ∧ s.mem s.src = b ∧ s.mem.read (s.src + 1) (stop - (s.src + 1)) = y' := by
  obtain ⟨n, hn⟩ : ∃ n, stop - s.src = n + 1 := ⟨stop - s.src - 1, by
    have := congrArg List.length hy; simp at this; omega⟩
  rw [hn, Mem.read_succ, List.cons.injEq] at hy
  exact ⟨by omega, hy.1, by rw [show stop - (s.src + 1) = n by omega]; exact hy.2⟩

/-- A copy loop whose bytes are all in the source, with `dst` before `src` or past `stop`, copies
them to `dst` and does not stop. -/
theorem copyLoop_of_le (k : Nat) (hy : s.mem.read s.src (stop - s.src) = y)
    (hd : s.dst < s.src ∨ stop ≤ s.dst) (hk : k ≤ y.length) :
    copyLoop stop k s = (.done, ⟨s.mem.writeBytes s.dst (y.take k), s.src + k, s.dst + k, s.outLen + k⟩) := by
  induction k generalizing s y with
  | zero => rfl
  | succ k ih =>
    cases y with
    | nil => simp at hk
    | cons b y' =>
      obtain ⟨hlt, hb, hy'⟩ := read_cons hy
      have hy'' : s.copyByte.mem.read s.copyByte.src (stop - s.copyByte.src) = y' := by
        simp only [DecodeState.copyByte]
        rw [Mem.read_write_of_not_mem _ (by omega), hy']
      rw [copyLoop, if_neg (by simp [DecodeState.copyByte]; omega),
        ih hy'' (by simp [DecodeState.copyByte]; omega) (by simp at hk; omega)]
      simp only [DecodeState.copyByte, hb, List.take_succ_cons, Mem.writeBytes]
      congr 2 <;> omega

/-- A copy loop that needs more bytes than the source has left returns from the bad-packet
check. -/
theorem copyLoop_overrun (k : Nat) (hs : s.src ≤ stop) (hy : s.mem.read s.src (stop - s.src) = y)
    (hd : s.dst < s.src ∨ stop ≤ s.dst) (hk : y.length < k) : (copyLoop stop k s).1 = .badPacket := by
  induction k generalizing s y with
  | zero => omega
  | succ k ih =>
    cases y with
    | nil =>
      have : s.src = stop := by have := congrArg List.length hy; simp at this; omega
      simp [copyLoop, DecodeState.copyByte, this]
    | cons b y' =>
      obtain ⟨hlt, -, hy'⟩ := read_cons hy
      have hy'' : s.copyByte.mem.read s.copyByte.src (stop - s.copyByte.src) = y' := by
        simp only [DecodeState.copyByte]
        rw [Mem.read_write_of_not_mem _ (by omega), hy']
      rw [copyLoop, if_neg (by simp [DecodeState.copyByte]; omega)]
      exact ih (by simp [DecodeState.copyByte]; omega) hy'' (by simp [DecodeState.copyByte]; omega)
        (by simp at hk; omega)

/-- At the end of the source the loop stops. -/
theorem decodeLoop_of_end (fuel : Nat) (h : stop ≤ s.src) : decodeLoop stop fuel s = (.done, s) := by
  cases fuel <;> simp [decodeLoop, Nat.not_lt.mpr h]

/-- One iteration of the loop on a block whose bytes are all in the source: its data and its zero
are stored at `dst`, and the loop goes on after the block. -/
theorem decodeLoop_block {code : UInt8} {y' : List UInt8} (fuel : Nat)
    (hy : s.mem.read s.src (stop - s.src) = code :: y') (hd : s.dst ≤ s.src ∨ stop ≤ s.dst)
    (hk : code.toNat - 1 ≤ y'.length) :
    decodeLoop stop (fuel + 1) s = decodeLoop stop fuel
      ⟨s.mem.writeBytes s.dst (y'.take (code.toNat - 1) ++ zeroAfter code (y'.drop (code.toNat - 1))),
        s.src + 1 + (code.toNat - 1),
        s.dst + (code.toNat - 1) + (zeroAfter code (y'.drop (code.toNat - 1))).length,
        s.outLen + (code.toNat - 1) + (zeroAfter code (y'.drop (code.toNat - 1))).length⟩ := by
  obtain ⟨hlt, hb, hy'⟩ := read_cons hy
  have hc := copyLoop_of_le (s := { s with src := s.src + 1 }) (code.toNat - 1) hy'
    (by simp only; omega) hk
  have hend : s.src + 1 + (code.toNat - 1) ≠ stop ↔ y'.drop (code.toNat - 1) ≠ [] := by
    have := congrArg List.length hy'; simp at this
    simp only [ne_eq, List.drop_eq_nil_iff]; omega
  simp only [decodeLoop, if_pos hlt, hb, hc, reduceCtorEq, if_false, blockEnd, hend, zeroAfter]
  split_ifs <;>
    simp [DecodeState.putZero, Mem.writeBytes_append, Mem.writeBytes, Nat.min_eq_left hk]

/-- One iteration of the loop on a block that claims more bytes than the source has left: the
loop returns from the bad-packet check. -/
theorem decodeLoop_overrun {code : UInt8} {y' : List UInt8} (fuel : Nat)
    (hy : s.mem.read s.src (stop - s.src) = code :: y') (hd : s.dst ≤ s.src ∨ stop ≤ s.dst)
    (hk : y'.length < code.toNat - 1) : (decodeLoop stop (fuel + 1) s).1 = .badPacket := by
  obtain ⟨hlt, hb, hy'⟩ := read_cons hy
  have hc := copyLoop_overrun (s := { s with src := s.src + 1 }) _ (by simp only; omega)
    hy' (by simp only; omega) (hb ▸ hk)
  simp only [decodeLoop, if_pos hlt]
  rw [if_pos hc]
  exact hc

/-- What the decoder does with the source from `src` to `stop` holds, when `dst` is not after `src`
inside the source: it stores the decoding at `dst` and stops at the end of the source, or returns
from the bad-packet check when the source is not an encoding. `src_len` iterations are enough. -/
def DecodeSpec (stop : Nat) (s : DecodeState) (r : DecodeExit × DecodeState) :
    Option (List UInt8) → Prop
  | some out => r = (.done, ⟨s.mem.writeBytes s.dst out, stop, s.dst + out.length, s.outLen + out.length⟩)
  | none => r.1 = .badPacket

theorem decodeLoop_spec (fuel : Nat) (hs : s.src ≤ stop) (hy : s.mem.read s.src (stop - s.src) = y)
    (hd : s.dst ≤ s.src ∨ stop ≤ s.dst) (hf : stop - s.src ≤ fuel) :
    DecodeSpec stop s (decodeLoop stop fuel s) (decode y) := by
  induction fuel generalizing s y with
  | zero =>
    obtain ⟨mem, src, dst, outLen⟩ := s
    obtain rfl : src = stop := by simp only at hs hf; omega
    subst hy
    simp [decodeLoop, DecodeSpec, decode, decodeFrom, Mem.writeBytes]
  | succ fuel ih =>
    cases y with
    | nil =>
      obtain ⟨mem, src, dst, outLen⟩ := s
      obtain rfl : src = stop := by have := congrArg List.length hy; simp at this hs; omega
      rw [decodeLoop_of_end (s := ⟨mem, src, dst, outLen⟩) _ le_rfl]
      simp [DecodeSpec, decode, decodeFrom, Mem.writeBytes]
    | cons code y' =>
      obtain ⟨hlt, -, hy'⟩ := read_cons hy
      by_cases hk : code.toNat - 1 ≤ y'.length
      · -- The block is whole: the loop goes on after it, on the rest of the encoding.
        rw [decodeLoop_block fuel hy hd hk, decode_cons hk]
        have hlen := congrArg List.length hy'
        have hz := length_zeroAfter_le code (y'.drop (code.toNat - 1))
        simp only [Mem.length_read] at hlen
        have ih' := ih (y := y'.drop (code.toNat - 1))
          (s := ⟨s.mem.writeBytes s.dst (y'.take (code.toNat - 1) ++
              zeroAfter code (y'.drop (code.toNat - 1))), s.src + 1 + (code.toNat - 1),
            s.dst + (code.toNat - 1) + (zeroAfter code (y'.drop (code.toNat - 1))).length,
            s.outLen + (code.toNat - 1) + (zeroAfter code (y'.drop (code.toNat - 1))).length⟩)
          (by dsimp only; omega) ?_ (by dsimp only; omega) (by dsimp only; omega)
        · cases hdec : decode (y'.drop (code.toNat - 1)) with
          | none => simpa [hdec, DecodeSpec] using ih'
          | some out =>
            simp only [hdec, DecodeSpec, Option.map_some'] at ih' ⊢
            rw [ih', Mem.writeBytes_append _ _ (_ ++ _) out]
            simp only [List.length_append, List.length_take, Nat.min_eq_left hk, Nat.add_assoc]
        · -- The stores of the block lie before the rest of the source, or past its end.
          dsimp only
          rw [Mem.read_writeBytes_of_not_mem
              (by simp only [List.length_append, List.length_take]; omega),
            ← hy', Mem.drop_read]
          congr 1; omega
      · -- The block claims more than is left.
        rw [decode_cons_overrun (by omega)]
        exact decodeLoop_overrun fuel hy hd (by omega)

end Decode

/-- What `cobs_decode` returns and the bytes it leaves at `dst`, for a `dst` not after `src` inside
the source: the length of the decoding and the decoding, or `0` and nothing when the source is not
an encoding. -/
theorem cobsDecode_output (mem : Mem) (dst src len : Nat) (hd : dst ≤ src ∨ src + len ≤ dst) :
    decodeResult (cobsDecode mem dst src len) = ((decode (mem.read src len)).map List.length).getD 0 ∧
    (cobsDecode mem dst src len).2.mem.read dst (decodeResult (cobsDecode mem dst src len)) =
      (decode (mem.read src len)).getD [] := by
  have h : DecodeSpec (src + len) ⟨mem, src, dst, 0⟩ (cobsDecode mem dst src len)
      (decode (mem.read src len)) :=
    decodeLoop_spec len (Nat.le_add_right _ _) (by simp) hd (by simp)
  cases hdec : decode (mem.read src len) with
  | none =>
    rw [hdec] at h
    generalize cobsDecode mem dst src len = r at h ⊢
    obtain ⟨e, st⟩ := r
    simp only [DecodeSpec] at h
    simp [decodeResult, h]
  | some out =>
    rw [hdec] at h
    simp only [DecodeSpec] at h
    simp [decodeResult, h]

/-- Decoding in place, with `dst = src`, returns the same length and leaves the same bytes as
decoding into a buffer apart from the source. -/
theorem cobs_decode_in_place (mem : Mem) (src dst len : Nat) (hd : dst + len ≤ src ∨ src + len ≤ dst) :
    decodeResult (cobsDecode mem src src len) = decodeResult (cobsDecode mem dst src len) ∧
    (cobsDecode mem src src len).2.mem.read src (decodeResult (cobsDecode mem src src len)) =
      (cobsDecode mem dst src len).2.mem.read dst (decodeResult (cobsDecode mem dst src len)) := by
  obtain ⟨hr, hm⟩ := cobsDecode_output mem src src len (Or.inl le_rfl)
  obtain ⟨hr', hm'⟩ := cobsDecode_output mem dst src len (by omega)
  exact ⟨hr.trans hr'.symm, hm.trans hm'.symm⟩

theorem cobs_decode_in_place_two_blocks :
    (16 + 4 ≤ 0 ∨ 0 + 4 ≤ 16) ∧
    decodeResult (cobsDecode (Mem.writeBytes (fun _ => 0) 0 [2, 0x11, 2, 0x22]) 0 0 4) =
      decodeResult (cobsDecode (Mem.writeBytes (fun _ => 0) 0 [2, 0x11, 2, 0x22]) 16 0 4) ∧
    (cobsDecode (Mem.writeBytes (fun _ => 0) 0 [2, 0x11, 2, 0x22]) 0 0 4).2.mem.read 0
      (decodeResult (cobsDecode (Mem.writeBytes (fun _ => 0) 0 [2, 0x11, 2, 0x22]) 0 0 4)) =
    (cobsDecode (Mem.writeBytes (fun _ => 0) 0 [2, 0x11, 2, 0x22]) 16 0 4).2.mem.read 16
      (decodeResult (cobsDecode (Mem.writeBytes (fun _ => 0) 0 [2, 0x11, 2, 0x22]) 16 0 4)) :=
  have h : 16 + 4 ≤ 0 ∨ 0 + 4 ≤ 16 := Or.inr (by decide)
  ⟨h, cobs_decode_in_place _ 0 16 4 h⟩

/-- A block that claims more bytes than remain is detected only after its copy loop has read the
byte at `end`: on the two source bytes `03 11` the decoder copies the byte after them to `dst`, then
returns `0`. -/
theorem cobs_decode_reads_past_end (mem : Mem) (v : UInt8) :
    (cobsDecode (((mem.write 0 3).write 1 0x11).write 2 v) 16 0 2).1 = .badPacket ∧
    decodeResult (cobsDecode (((mem.write 0 3).write 1 0x11).write 2 v) 16 0 2) = 0 ∧
    (cobsDecode (((mem.write 0 3).write 1 0x11).write 2 v) 16 0 2).2.mem 17 = v := by
  simp [cobsDecode, decodeLoop, copyLoop, DecodeState.copyByte, decodeResult, Mem.write]

/-- `cobs_decode` on what `cobs_encode` wrote, into a destination that does not start inside the
encoding after its first byte (a separate buffer, or in place): it never returns from the
bad-packet check, returns the length of the source, and stores exactly the source at `dst`. -/
theorem cobs_decode_encode (x : List UInt8) (mem : Mem) (a b : Nat)
    (hb : b ≤ a ∨ a + (cobsEncode mem a x).outLen ≤ b) :
    (cobsDecode (cobsEncode mem a x).mem b a (cobsEncode mem a x).outLen).1 = .done ∧
    decodeResult (cobsDecode (cobsEncode mem a x).mem b a (cobsEncode mem a x).outLen) = x.length ∧
    (cobsDecode (cobsEncode mem a x).mem b a (cobsEncode mem a x).outLen).2.mem =
      (cobsEncode mem a x).mem.writeBytes b x := by
  have h : DecodeSpec (a + (cobsEncode mem a x).outLen) ⟨(cobsEncode mem a x).mem, a, b, 0⟩
      (cobsDecode (cobsEncode mem a x).mem b a (cobsEncode mem a x).outLen) (decode (encode x)) :=
    decodeLoop_spec _ (by simp) (by simpa using read_cobsEncode mem a x) hb (by simp)
  rw [decode_encode] at h
  simp only [DecodeSpec] at h
  simp [h, decodeResult]

theorem cobs_decode_encode_three_bytes :
    (16 ≤ 0 ∨ 0 + (cobsEncode (fun _ => 0) 0 [0x11, 0x00, 0x22]).outLen ≤ 16) ∧
    (cobsDecode (cobsEncode (fun _ => 0) 0 [0x11, 0x00, 0x22]).mem 16 0
      (cobsEncode (fun _ => 0) 0 [0x11, 0x00, 0x22]).outLen).1 = .done ∧
    decodeResult (cobsDecode (cobsEncode (fun _ => 0) 0 [0x11, 0x00, 0x22]).mem 16 0
      (cobsEncode (fun _ => 0) 0 [0x11, 0x00, 0x22]).outLen) = [0x11, 0x00, 0x22].length ∧
    (cobsDecode (cobsEncode (fun _ => 0) 0 [0x11, 0x00, 0x22]).mem 16 0
      (cobsEncode (fun _ => 0) 0 [0x11, 0x00, 0x22]).outLen).2.mem =
      (cobsEncode (fun _ => 0) 0 [0x11, 0x00, 0x22]).mem.writeBytes 16 [0x11, 0x00, 0x22] :=
  have h : 16 ≤ 0 ∨ 0 + (cobsEncode (fun _ => 0) 0 [0x11, 0x00, 0x22]).outLen ≤ 16 :=
    Or.inr (by decide)
  ⟨h, cobs_decode_encode [0x11, 0x00, 0x22] (fun _ => 0) 0 16 h⟩

/-! ## Every source

For every memory, whatever it holds at `src` and wherever `dst` lies, overlapping the source or not,
the decoder stores only in `dst[0..src_len)` and returns less than `src_len`. Each byte it stores is
a source byte or the zero after a length byte, so its output stays behind its reading
(`decodeLoop_count`), and the copy loop goes at most one byte past `end` before the bad-packet
check stops it (`copyLoop_count`). The bound on the stores is `src_len` bytes and not `src_len - 1`,
the longest output: the store made before the check fires is counted. -/

section Bounds

variable {c stop dst0 : Nat} {mem0 : Mem} {s : DecodeState}

/-- The decoder's stores so far: `out_len` bytes from `dst0`, and nothing else changed. -/
def Stores (mem0 : Mem) (dst0 : Nat) (s : DecodeState) : Prop :=
  s.dst = dst0 + s.outLen ∧ ∀ p, p < dst0 ∨ dst0 + s.outLen ≤ p → s.mem p = mem0 p

/-- A store at `dst` followed by `dst++; out_len++;`, as the copy loop and the zero make. -/
theorem Stores.put (h : Stores mem0 dst0 s) (b : UInt8) (src : Nat) :
    Stores mem0 dst0 ⟨s.mem.write s.dst b, src, s.dst + 1, s.outLen + 1⟩ := by
  obtain ⟨hd, hm⟩ := h
  refine ⟨by simp only [hd]; omega, fun p hp => ?_⟩
  dsimp only at hp ⊢
  rw [Mem.write_of_ne _ (by omega)]
  exact hm p (by omega)

theorem stores_copyLoop (h : Stores mem0 dst0 s) (k : Nat) :
    Stores mem0 dst0 (copyLoop stop k s).2 := by
  induction k generalizing s with
  | zero => exact h
  | succ k ih =>
    rw [copyLoop]
    split
    exacts [h.put _ _, ih (h.put _ _)]

theorem stores_decodeLoop (h : Stores mem0 dst0 s) (fuel : Nat) :
    Stores mem0 dst0 (decodeLoop stop fuel s).2 := by
  induction fuel generalizing s with
  | zero => exact h
  | succ fuel ih =>
    have hc := @stores_copyLoop stop dst0 mem0 { s with src := s.src + 1 } h
    simp only [decodeLoop]
    split_ifs
    · exact hc _
    · refine ih ?_
      unfold blockEnd
      split_ifs
      exacts [(hc _).put _ _, hc _]
    · exact h

/-- The copy loop keeps the output behind the reading, and stops at most one byte past `end`. -/
theorem copyLoop_count (k : Nat) (hq : s.outLen + c < s.src) (hs : s.src ≤ stop) :
    (copyLoop stop k s).2.outLen + c < (copyLoop stop k s).2.src ∧
      (copyLoop stop k s).2.src ≤ stop + 1 ∧
      ((copyLoop stop k s).1 = .done → (copyLoop stop k s).2.src ≤ stop) := by
  induction k generalizing s with
  | zero => exact ⟨hq, Nat.le_succ_of_le hs, fun _ => hs⟩
  | succ k ih =>
    rw [copyLoop]
    split_ifs with hb
    · exact ⟨by simp only [DecodeState.copyByte]; omega, by simp only [DecodeState.copyByte]; omega,
        nofun⟩
    · exact ih (by simp only [DecodeState.copyByte]; omega) (Nat.not_lt.1 hb)

theorem DecodeExit.eq_done {e : DecodeExit} (h : ¬e = .badPacket) : e = .done := by
  cases e
  exacts [rfl, absurd rfl h]

/-- Where the outer loop may be, reading from `c` to `stop`: no more output than source read, and at
the end of the source strictly less, unless the source is empty. -/
def Fits (c stop : Nat) (s : DecodeState) : Prop :=
  s.outLen + c ≤ s.src ∧ s.src ≤ stop ∧ (s.src = stop → s.outLen + c < s.src ∨ s.src = c)

theorem decodeLoop_count (fuel : Nat) (h : Fits c stop s) :
    (decodeLoop stop fuel s).2.outLen + c ≤ stop ∧
      ((decodeLoop stop fuel s).1 = .done → Fits c stop (decodeLoop stop fuel s).2) := by
  induction fuel generalizing s with
  | zero => exact ⟨le_trans h.1 h.2.1, fun _ => h⟩
  | succ fuel ih =>
    have hle := h.1
    simp only [decodeLoop]
    split_ifs with hlt hbad
    · -- The bad-packet check: at most one byte past `end` was read.
      have := @copyLoop_count c stop { s with src := s.src + 1 } ((s.mem s.src).toNat - 1)
        (by dsimp only; omega) hlt
      exact ⟨by omega, fun hd => absurd (hd ▸ hbad) (by decide)⟩
    · -- A whole block: the zero after it is stored only if the source goes on.
      obtain ⟨hq, -, hdone⟩ := @copyLoop_count c stop { s with src := s.src + 1 }
        ((s.mem s.src).toNat - 1) (by dsimp only; omega) hlt
      have hsrc := hdone (DecodeExit.eq_done hbad)
      refine ih ?_
      unfold blockEnd
      split_ifs with hz
      · exact ⟨by dsimp only [DecodeState.putZero]; omega, hsrc, fun he => absurd he hz.2⟩
      · exact ⟨by omega, hsrc, fun _ => .inl hq⟩
    · exact ⟨le_trans hle h.2.1, fun _ => h⟩

end Bounds

/-- For every memory and every `dst`, overlapping the source or not, `cobs_decode` changes nothing
outside `dst[0..src_len)` and returns at most `src_len - 1`. -/
theorem cobs_decode_within_source (mem : Mem) (dst src len : Nat) :
    decodeResult (cobsDecode mem dst src len) ≤ len - 1 ∧
      ∀ p, p < dst ∨ dst + len ≤ p → (cobsDecode mem dst src len).2.mem p = mem p := by
  have hf : Fits src (src + len) ⟨mem, src, dst, 0⟩ := ⟨by simp, by simp, fun _ => .inr rfl⟩
  have hst := @stores_decodeLoop (src + len) dst mem ⟨mem, src, dst, 0⟩ ⟨rfl, fun _ _ => rfl⟩ len
  obtain ⟨hle, hdone⟩ := decodeLoop_count len hf
  unfold cobsDecode
  refine ⟨?_, fun p hp => hst.2 p (by omega)⟩
  generalize decodeLoop (src + len) len ⟨mem, src, dst, 0⟩ = r at hle hdone
  obtain ⟨_ | _, st⟩ := r
  · obtain ⟨h1, h2, h3⟩ := hdone rfl
    dsimp only at h1 h2 h3 hle
    simp only [decodeResult]
    by_cases he : st.src = src + len
    · rcases h3 he with h | h <;> omega
    · omega
  · exact Nat.zero_le _

end LowcarRuntime.Cobs
