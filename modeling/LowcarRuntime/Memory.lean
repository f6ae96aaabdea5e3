import Mathlib.Logic.Function.Basic
import Mathlib.Data.List.Basic
import Mathlib.Tactic.Ring

/-!
# Byte memory

The device handler reads and writes bytes through pointers into buffers that it allocates with
`malloc` and never clears. `Mem` is the contents of such memory at every address, those the code
never wrote included: they hold whatever the allocator left there, and the results about the model
hold for all of them. An address is a natural number and a pointer is an address, so `p + i` is the
C pointer `p` moved by `i` bytes.

Multi-byte integers are stored little-endian, as on the handler's targets: `leBytes` is what a store
of a `k`-byte integer writes and `leValue` is what a load reads back.
-/

namespace LowcarRuntime

/-- The contents of byte memory at every address. -/
abbrev Mem := Nat → UInt8

namespace Mem

/-- Store the byte `b` at the address `a`. -/
def write (m : Mem) (a : Nat) (b : UInt8) : Mem := Function.update m a b

/-- The `n` bytes at the addresses `a`, `a + 1`, … -/
def read (m : Mem) (a : Nat) : Nat → List UInt8
  | 0 => []
  | n + 1 => m a :: m.read (a + 1) n

/-- Store the bytes `bs` at `a`, `a + 1`, … one after the other, as `memcpy` does. -/
def writeBytes (m : Mem) (a : Nat) : List UInt8 → Mem
  | [] => m
  | b :: bs => (m.write a b).writeBytes (a + 1) bs

@[simp] theorem write_same (m : Mem) (a : Nat) (b : UInt8) : m.write a b a = b := by
  simp [write]

theorem write_of_ne {m : Mem} {a i : Nat} (b : UInt8) (h : i ≠ a) : m.write a b i = m i := by
  simp [write, h]

@[simp] theorem read_zero (m : Mem) (a : Nat) : m.read a 0 = [] := rfl

theorem read_succ (m : Mem) (a n : Nat) : m.read a (n + 1) = m a :: m.read (a + 1) n := rfl

@[simp] theorem length_read (m : Mem) (a n : Nat) : (m.read a n).length = n := by
  induction n generalizing a with
  | zero => rfl
  | succ n ih => simp [read_succ, ih]

/-- Reading depends only on the bytes read. -/
theorem read_congr {m m' : Mem} {a n : Nat} (h : ∀ i, a ≤ i → i < a + n → m i = m' i) :
    m.read a n = m'.read a n := by
  induction n generalizing a with
  | zero => rfl
  | succ n ih =>
    rw [read_succ, read_succ, h a le_rfl (by omega), ih fun i h1 h2 => h i (by omega) (by omega)]

/-- A store outside the bytes read does not change them. -/
theorem read_write_of_not_mem {m : Mem} {a n c : Nat} (b : UInt8) (h : c < a ∨ a + n ≤ c) :
    (m.write c b).read a n = m.read a n :=
  read_congr fun i h1 h2 => write_of_ne b (by omega)

theorem read_add (m : Mem) (a n k : Nat) : m.read a (n + k) = m.read a n ++ m.read (a + n) k := by
  induction n generalizing a with
  | zero => simp
  | succ n ih => rw [Nat.succ_add, read_succ, read_succ, ih, Nat.add_right_comm]; rfl

/-- Dropping the first `k` bytes read is reading from `k` bytes further on. -/
theorem drop_read (m : Mem) (a n k : Nat) : (m.read a n).drop k = m.read (a + k) (n - k) := by
  induction k generalizing a n with
  | zero => rfl
  | succ k ih =>
    cases n with
    | zero => simp
    | succ n => rw [read_succ, List.drop_succ_cons, ih, Nat.add_right_comm, Nat.succ_sub_succ]; rfl

theorem take_read (m : Mem) {a n k : Nat} (h : k ≤ n) : (m.read a n).take k = m.read a k := by
  rw [show n = k + (n - k) by omega, read_add, List.take_left' (by simp)]

/-- The `i`-th byte read is the byte at `a + i`. -/
theorem getD_read (m : Mem) {a n i : Nat} (h : i < n) : (m.read a n).getD i 0 = m (a + i) := by
  induction n generalizing a i with
  | zero => omega
  | succ n ih =>
    cases i with
    | zero => rfl
    | succ i => rw [read_succ, List.getD_cons_succ, ih (by omega), Nat.add_right_comm, Nat.add_assoc]

/-- The bytes read up to a store that follows them, then the stored byte. -/
theorem read_write_end (m : Mem) (a n : Nat) (b : UInt8) :
    (m.write (a + n) b).read a (n + 1) = m.read a n ++ [b] := by
  rw [read_add, read_write_of_not_mem b (by omega)]
  simp [read_succ]

/-- `writeBytes` changes no address outside the bytes it stores. -/
theorem writeBytes_of_not_mem {m : Mem} {a i : Nat} {bs : List UInt8}
    (h : i < a ∨ a + bs.length ≤ i) : m.writeBytes a bs i = m i := by
  induction bs generalizing m a with
  | nil => rfl
  | cons b bs ih =>
    simp only [writeBytes, List.length_cons] at h ⊢
    rw [ih (by omega), write_of_ne b (by omega)]

@[simp] theorem writeBytes_cons_self (m : Mem) (a : Nat) (b : UInt8) (bs : List UInt8) :
    m.writeBytes a (b :: bs) a = b := by
  rw [writeBytes, writeBytes_of_not_mem (Or.inl (Nat.lt_succ_self a)), write_same]

theorem read_writeBytes_of_not_mem {m : Mem} {a c n : Nat} {bs : List UInt8}
    (h : a + n ≤ c ∨ c + bs.length ≤ a) : (m.writeBytes c bs).read a n = m.read a n :=
  read_congr fun i h1 h2 => writeBytes_of_not_mem (by omega)

/-- The bytes that `writeBytes` stores read back. -/
@[simp] theorem read_writeBytes (m : Mem) (a : Nat) (bs : List UInt8) :
    (m.writeBytes a bs).read a bs.length = bs := by
  induction bs generalizing m a with
  | nil => rfl
  | cons b bs ih =>
    rw [writeBytes, List.length_cons, read_succ, ih,
      writeBytes_of_not_mem (Or.inl (Nat.lt_succ_self a)), write_same]

/-- Reading inside bytes stored by `writeBytes`. -/
theorem read_writeBytes_of_le (m : Mem) (a : Nat) (bs : List UInt8) {i n : Nat}
    (h : i + n ≤ bs.length) : (m.writeBytes a bs).read (a + i) n = (bs.drop i).take n := by
  conv_rhs => rw [← read_writeBytes m a bs, drop_read, take_read _ (by omega)]

/-- The byte `writeBytes` stores at `a + i`. -/
theorem writeBytes_getD (m : Mem) {a i : Nat} {bs : List UInt8} (h : i < bs.length) :
    m.writeBytes a bs (a + i) = bs.getD i 0 := by
  induction bs generalizing m a i with
  | nil => simp at h
  | cons b bs ih =>
    cases i with
    | zero => simp
    | succ i =>
      rw [writeBytes, show a + (i + 1) = a + 1 + i by omega, ih _ (by simpa using h)]
      rfl

theorem writeBytes_append (m : Mem) (a : Nat) (bs cs : List UInt8) :
    (m.writeBytes a (bs ++ cs)) = (m.writeBytes a bs).writeBytes (a + bs.length) cs := by
  induction bs generalizing m a with
  | nil => rfl
  | cons b bs ih =>
    rw [List.cons_append, writeBytes, writeBytes, ih, List.length_cons, Nat.add_right_comm]; rfl

end Mem

/-- The `k` little-endian bytes of `v`, what a store of a `k`-byte integer writes. -/
def leBytes (v : Nat) : Nat → List UInt8
  | 0 => []
  | k + 1 => (v % 256).toUInt8 :: leBytes (v / 256) k

/-- The value of little-endian bytes, what a load of a `bs.length`-byte integer reads. -/
def leValue : List UInt8 → Nat
  | [] => 0
  | b :: bs => b.toNat + 256 * leValue bs

@[simp] theorem length_leBytes (v k : Nat) : (leBytes v k).length = k := by
  induction k generalizing v with
  | zero => rfl
  | succ k ih => simp [leBytes, ih]

theorem toNat_toUInt8 {n : Nat} (h : n < 256) : n.toUInt8.toNat = n := by
  simp only [Nat.toUInt8, UInt8.toNat, UInt8.ofNat, BitVec.toNat_ofNat]
  omega

/-- Loading the bytes of a store gives back the value, modulo the width. -/
theorem leValue_leBytes (v k : Nat) : leValue (leBytes v k) = v % 256 ^ k := by
  induction k generalizing v with
  | zero => simp [leBytes, leValue, Nat.mod_one]
  | succ k ih =>
    rw [leBytes, leValue, ih, toNat_toUInt8 (Nat.mod_lt _ (by norm_num)), pow_succ,
      Nat.mul_comm (256 ^ k), Nat.mod_mul]

theorem take_leBytes (v : Nat) {j k : Nat} (h : j ≤ k) : (leBytes v k).take j = leBytes v j := by
  induction j generalizing v k with
  | zero => simp [leBytes]
  | succ j ih =>
    obtain ⟨k, rfl⟩ : ∃ k', k = k' + 1 := ⟨k - 1, by omega⟩
    simp [leBytes, ih _ (Nat.le_of_succ_le_succ h)]

theorem drop_leBytes (v j k : Nat) : (leBytes v k).drop j = leBytes (v / 256 ^ j) (k - j) := by
  induction j generalizing v k with
  | zero => simp
  | succ j ih =>
    cases k with
    | zero => simp [leBytes]
    | succ k => simp [leBytes, ih, Nat.div_div_eq_div_mul, pow_succ, Nat.mul_comm]

theorem leValue_append (bs cs : List UInt8) :
    leValue (bs ++ cs) = leValue bs + 256 ^ bs.length * leValue cs := by
  induction bs with
  | nil => simp [leValue]
  | cons b bs ih => rw [List.cons_append, leValue, leValue, ih, List.length_cons, pow_succ]; ring

end LowcarRuntime
