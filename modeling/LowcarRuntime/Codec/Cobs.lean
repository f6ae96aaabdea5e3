import LowcarRuntime.Memory

/-!
# The COBS codec on byte lists

The encoding that `cobs_encode` of `src/dev_handler/message.c` writes, and the decoding that
`cobs_decode` computes, as functions on byte lists. An encoding is a sequence of blocks: a length
byte `n + 1` followed by `n` data bytes. A block that is followed by another one and whose length
byte is below `0xFF` stands for its data and a zero byte; a block of length byte `0xFF` (254 data
bytes, a long run) and the last block stand for their data alone.

`encodeFrom` follows the encoder's loop byte by byte: the current block `blk` grows until a zero
ends it or it reaches 254 bytes. `decodeFrom` follows the decoder's loops byte by byte: `k` data
bytes of the current block remain to copy, and the zero that ends the block is put out when the
next length byte is read, that is when the encoding has not ended. `decode_encode` is the round
trip at this level; `Codec/CobsMemory.lean` shows that the C functions compute these lists.
An encoding has no zero byte (`zero_not_mem_encode`), and its length is that of the source, one
byte for the last block and one per long run (`length_encode`), counted over the zero-free runs of
the source by `runOverhead`.
-/

namespace LowcarRuntime.Cobs

/-- A block: its length byte and its data. -/
def block (blk : List UInt8) : List UInt8 := (blk.length + 1).toUInt8 :: blk

/-- What the encoder does on the source byte `b` when the current block holds `blk`: the bytes it
finishes, and the block it goes on with. A zero ends the block; a nonzero byte is added to it, and
ends it when it reaches 254 bytes. -/
def encodeStep (blk : List UInt8) (b : UInt8) : List UInt8 × List UInt8 :=
  if b = 0 then (block blk, [])
  else if blk.length + 1 = 254 then (block (blk ++ [b]), [])
  else ([], blk ++ [b])

/-- The encoding of the rest `x` of the source, when the current block holds `blk`. -/
def encodeFrom (blk : List UInt8) : List UInt8 → List UInt8
  | [] => block blk
  | b :: x => (encodeStep blk b).1 ++ encodeFrom (encodeStep blk b).2 x

/-- The COBS encoding of `x`. -/
def encode (x : List UInt8) : List UInt8 := encodeFrom [] x

/-- The decoding of the rest `y` of an encoding, when `k` data bytes of the current block remain
to copy and `short` says whether its length byte was below `0xFF`. It is `none` when a block
claims more bytes than remain: the bad-packet case. -/
def decodeFrom : Nat → Bool → List UInt8 → Option (List UInt8)
  | 0, _, [] => some []
  | 0, short, code :: y =>
    (decodeFrom (code.toNat - 1) (decide (code < 0xFF)) y).map fun out =>
      if short then 0 :: out else out
  | _ + 1, _, [] => none
  | k + 1, short, b :: y => (decodeFrom k short y).map (b :: ·)

/-- The COBS decoding of `y`, or `none` when `y` is malformed. -/
def decode (y : List UInt8) : Option (List UInt8) := decodeFrom 0 false y

example : encode [0x11, 0x00, 0x22] = [0x02, 0x11, 0x02, 0x22] := by decide

/-! ## Decoding a block at a time -/

/-- The zero that a block of length byte `code` stands for when `rest` follows it: none after a
long run or at the end. -/
def zeroAfter (code : UInt8) (rest : List UInt8) : List UInt8 :=
  if code < 0xFF ∧ rest ≠ [] then [0] else []

theorem length_zeroAfter_le (code : UInt8) (rest : List UInt8) : (zeroAfter code rest).length ≤ 1 := by
  unfold zeroAfter; split_ifs <;> simp

theorem decodeFrom_copy (short : Bool) :
    ∀ (k : Nat) (y : List UInt8), k ≤ y.length →
      decodeFrom k short y = (decodeFrom 0 short (y.drop k)).map (y.take k ++ ·)
  | 0, y, _ => by simp
  | k + 1, b :: y, h => by
    simp only [decodeFrom, decodeFrom_copy short k y (by simp at h; omega), Option.map_map]
    rfl

theorem decodeFrom_overrun (short : Bool) :
    ∀ (k : Nat) (y : List UInt8), y.length < k → decodeFrom k short y = none
  | k + 1, [], _ => rfl
  | k + 1, b :: y, h => by
    simp only [decodeFrom, decodeFrom_overrun short k y (by simp at h; omega), Option.map_none']

/-- Between blocks, the zero that ends a short block is put out when another block follows. -/
theorem decodeFrom_zero (short : Bool) (y : List UInt8) :
    decodeFrom 0 short y = (decode y).map fun out => if short ∧ y ≠ [] then 0 :: out else out := by
  cases y with
  | nil => cases short <;> rfl
  | cons code y =>
    simp only [decode, decodeFrom, Option.map_map]
    congr 1
    funext out
    cases short <;> simp

/-- A block whose data are all there: its data, the zero when its length byte is below `0xFF` and
more follows, then the decoding of the rest. -/
theorem decode_cons {code : UInt8} {y : List UInt8} (h : code.toNat - 1 ≤ y.length) :
    decode (code :: y) = (decode (y.drop (code.toNat - 1))).map fun out =>
      y.take (code.toNat - 1) ++ zeroAfter code (y.drop (code.toNat - 1)) ++ out := by
  conv_lhs => rw [decode, decodeFrom, decodeFrom_copy _ _ _ h, decodeFrom_zero]
  simp only [Option.map_map]
  congr 1
  funext out
  by_cases hc : code < 0xFF <;> by_cases hy : y.drop (code.toNat - 1) = [] <;>
    simp [zeroAfter, hc, hy]

/-- A block that claims more bytes than remain makes the whole decoding fail. -/
theorem decode_cons_overrun {code : UInt8} {y : List UInt8} (h : y.length < code.toNat - 1) :
    decode (code :: y) = none := by
  simp [decode, decodeFrom, decodeFrom_overrun _ _ _ h]

/-! ## The round trip -/

theorem encodeFrom_ne_nil (blk x : List UInt8) : encodeFrom blk x ≠ [] := by
  induction x generalizing blk with
  | nil => simp [encodeFrom, block]
  | cons b x ih => simp [encodeFrom, ih]

/-- The length byte of a block of fewer than 255 data bytes is its length plus one. -/
theorem toNat_block_head {blk : List UInt8} (h : blk.length < 255) :
    ((blk.length + 1).toUInt8).toNat = blk.length + 1 :=
  toNat_toUInt8 (by omega)

/-- Decoding a block followed by more gives its data, the zero if the block is short, and the
decoding of the rest. -/
theorem decode_block_append {blk rest : List UInt8} (h : blk.length < 255) :
    decode (block blk ++ rest) = (decode rest).map fun out =>
      blk ++ (if blk.length < 254 ∧ rest ≠ [] then [0] else []) ++ out := by
  have hk : ((blk.length + 1).toUInt8).toNat - 1 = blk.length := by
    rw [toNat_block_head h]; rfl
  have hlt : (blk.length + 1).toUInt8 < 0xFF ↔ blk.length < 254 := by
    rw [UInt8.lt_def, BitVec.lt_def]
    show ((blk.length + 1).toUInt8).toNat < 255 ↔ _
    rw [toNat_block_head h]
    omega
  rw [block, List.cons_append, decode_cons (by simp [hk]), hk, List.drop_left, List.take_left]
  simp only [zeroAfter, hlt]

/-- Decoding the encoding of the rest of the source gives the current block and the rest back. -/
theorem decode_encodeFrom (x : List UInt8) :
    ∀ blk : List UInt8, blk.length < 254 → decode (encodeFrom blk x) = some (blk ++ x) := by
  induction x with
  | nil =>
    intro blk h
    have := @decode_block_append blk [] (by omega)
    simpa [encodeFrom, decode, decodeFrom] using this
  | cons b x ih =>
    intro blk h
    simp only [encodeFrom, encodeStep]
    split_ifs with h0 h254
    · -- A zero ends the block, and another block follows.
      rw [decode_block_append (by omega), ih [] (by simp)]
      simp [h, encodeFrom_ne_nil, h0]
    · -- The block reaches 254 bytes: a long run, with no zero after it.
      rw [decode_block_append (by simp; omega), ih [] (by simp)]
      simp [h254]
    · -- The byte joins the block.
      rw [List.nil_append, ih _ (by simp; omega)]
      simp

/-- The codec's round trip: decoding the encoding of any byte list gives it back. -/
theorem decode_encode (x : List UInt8) : decode (encode x) = some x := by
  simpa using decode_encodeFrom x [] (by simp)

/-! ## No zero byte in an encoding -/

/-- A block of fewer than 255 data bytes, none of them zero, has no zero byte: its length byte is
between `1` and `255`. -/
theorem zero_not_mem_block {blk : List UInt8} (h0 : (0 : UInt8) ∉ blk) (h : blk.length < 255) :
    (0 : UInt8) ∉ block blk := by
  have hhead := toNat_block_head h
  simp only [block, List.mem_cons, not_or]
  refine ⟨fun heq => ?_, h0⟩
  rw [← heq] at hhead
  simp at hhead

theorem zero_not_mem_append_singleton {blk : List UInt8} (h0 : (0 : UInt8) ∉ blk) {b : UInt8}
    (hb : ¬b = 0) : (0 : UInt8) ∉ blk ++ [b] := by
  simp [h0, Ne.symm hb]

theorem zero_not_mem_encodeFrom (x : List UInt8) :
    ∀ blk : List UInt8, (0 : UInt8) ∉ blk → blk.length < 254 → (0 : UInt8) ∉ encodeFrom blk x := by
  induction x with
  | nil => exact fun blk h0 h => zero_not_mem_block h0 (by omega)
  | cons b x ih =>
    intro blk h0 h
    simp only [encodeFrom, encodeStep]
    split_ifs with hb h254
    · -- A zero ends the block.
      simp [zero_not_mem_block h0 (by omega), ih [] (by simp) (by simp)]
    · -- A long run ends the block.
      simp only [List.mem_append, not_or]
      exact ⟨zero_not_mem_block (zero_not_mem_append_singleton h0 hb) (by simp; omega), ih [] (by simp) (by simp)⟩
    · simpa using ih _ (zero_not_mem_append_singleton h0 hb) (by simp; omega)

/-- The encoding has no zero byte, so that a zero can only be a frame's delimiter. -/
theorem zero_not_mem_encode (x : List UInt8) : (0 : UInt8) ∉ encode x :=
  zero_not_mem_encodeFrom x [] (by simp) (by simp)

/-! ## The length of an encoding -/

/-- The bytes that long runs add to the encoding: `⌊|r| / 254⌋` summed over the maximal zero-free
runs `r` of `x`, the lists between its zeros. -/
def runOverhead (x : List UInt8) : Nat := ((x.splitOn 0).map fun r => r.length / 254).sum

theorem splitOn_zero_cons (x : List UInt8) : (0 :: x).splitOn (0 : UInt8) = [] :: x.splitOn 0 := by
  simp [List.splitOn, List.splitOnP_cons]

theorem splitOn_cons_of_ne {b : UInt8} (hb : b ≠ 0) (x : List UInt8) :
    (b :: x).splitOn (0 : UInt8) = (x.splitOn 0).modifyHead (b :: ·) := by
  simp [List.splitOn, List.splitOnP_cons, hb]

/-- `splitOn` gives at least one run. -/
theorem exists_splitOn_eq_cons (x : List UInt8) : ∃ r rs, x.splitOn (0 : UInt8) = r :: rs :=
  List.exists_cons_of_ne_nil (List.splitOnP_ne_nil _ _)

/-- A zero-free prefix joins the first run. -/
theorem splitOn_append_of_zeroFree {l : List UInt8} (hl : (0 : UInt8) ∉ l) (x : List UInt8) :
    (l ++ x).splitOn (0 : UInt8) = (x.splitOn 0).modifyHead (l ++ ·) := by
  obtain ⟨r, rs, hx⟩ := exists_splitOn_eq_cons x
  induction l with
  | nil => simp [hx]
  | cons b l ih =>
    simp only [List.mem_cons, not_or] at hl
    rw [List.cons_append, splitOn_cons_of_ne (Ne.symm hl.1), ih hl.2, hx]
    simp

theorem runOverhead_of_zeroFree {l : List UInt8} (hl : (0 : UInt8) ∉ l) :
    runOverhead l = l.length / 254 := by
  have h := splitOn_append_of_zeroFree hl []
  rw [List.append_nil] at h
  rw [runOverhead, h]
  simp [List.splitOn, List.splitOnP_nil]

/-- A zero-free block shorter than a long run, then a zero: the block adds nothing. -/
theorem runOverhead_append_zero {l : List UInt8} (hl : (0 : UInt8) ∉ l) (h : l.length < 254)
    (x : List UInt8) : runOverhead (l ++ 0 :: x) = runOverhead x := by
  simp [runOverhead, splitOn_append_of_zeroFree hl, splitOn_zero_cons, Nat.div_eq_of_lt h]

/-- A zero-free long run of 254 bytes in front adds one byte. -/
theorem runOverhead_append_long {l : List UInt8} (hl : (0 : UInt8) ∉ l) (h : l.length = 254)
    (x : List UInt8) : runOverhead (l ++ x) = runOverhead x + 1 := by
  obtain ⟨r, rs, hx⟩ := exists_splitOn_eq_cons x
  simp only [runOverhead, splitOn_append_of_zeroFree hl, hx, List.modifyHead_cons,
    List.map_cons, List.sum_cons, List.length_append, h]
  omega

/-- The encoding of the rest `x`, when the current block holds `blk`, has one byte per source
byte, one for the last block and one per long run. -/
theorem length_encodeFrom (x : List UInt8) :
    ∀ blk : List UInt8, (0 : UInt8) ∉ blk → blk.length < 254 →
      (encodeFrom blk x).length = blk.length + x.length + 1 + runOverhead (blk ++ x) := by
  induction x with
  | nil =>
    intro blk h0 h
    simp [encodeFrom, block, runOverhead_of_zeroFree h0, Nat.div_eq_of_lt h]
  | cons b x ih =>
    intro blk h0 h
    simp only [encodeFrom, encodeStep]
    split_ifs with hb h254
    · -- A zero ends the block.
      subst hb
      rw [List.length_append, ih [] (by simp) (by simp), runOverhead_append_zero h0 h]
      simp [block]
      omega
    · -- A long run ends the block.
      have h' := runOverhead_append_long (zero_not_mem_append_singleton h0 hb) (by simp; omega) x
      rw [List.append_assoc, List.singleton_append] at h'
      rw [List.length_append, ih [] (by simp) (by simp), h']
      simp [block]
      omega
    · rw [List.nil_append, ih _ (zero_not_mem_append_singleton h0 hb) (by simp; omega)]
      simp
      omega

/-- The length of the encoding: one byte more than the source, and one more per long run. -/
theorem length_encode (x : List UInt8) : (encode x).length = x.length + 1 + runOverhead x := by
  simpa using length_encodeFrom x [] (by simp) (by simp)

/-- The runs hold at most the bytes of the source. -/
theorem sum_length_splitOn_le (x : List UInt8) :
    ((x.splitOn (0 : UInt8)).map List.length).sum ≤ x.length := by
  induction x with
  | nil => simp
  | cons b x ih =>
    obtain ⟨r, rs, hx⟩ := exists_splitOn_eq_cons x
    by_cases hb : b = 0
    · subst hb
      simp only [splitOn_zero_cons, List.map_cons, List.sum_cons, List.length_nil,
        List.length_cons]
      omega
    · rw [hx] at ih
      simp only [splitOn_cons_of_ne hb, hx, List.modifyHead_cons, List.map_cons, List.sum_cons,
        List.length_cons] at ih ⊢
      omega

/-- Long runs add at most one byte per 254 source bytes. -/
theorem runOverhead_le (x : List UInt8) : runOverhead x ≤ x.length / 254 := by
  have hsum : ∀ l : List Nat, (l.map (· / 254)).sum ≤ l.sum / 254 := by
    intro l
    induction l with
    | nil => simp
    | cons a l ih => simp only [List.map_cons, List.sum_cons]; omega
  calc runOverhead x = (((x.splitOn (0 : UInt8)).map List.length).map (· / 254)).sum := by
        simp [runOverhead, Function.comp_def]
    _ ≤ ((x.splitOn (0 : UInt8)).map List.length).sum / 254 := hsum _
    _ ≤ x.length / 254 := Nat.div_le_div_right (sum_length_splitOn_le x)

end LowcarRuntime.Cobs
