import Mathlib.Data.List.Basic

/-!
# The test client's output switch

`output_dump` of `src/test/client/net_handler_client.c` prints what the net handler sends over
TCP, and stops printing it when messages come too fast: its comment says output is disabled when
"the interval between each of the past sample_size messages has been less than"
`disable_threshold` milliseconds, and enabled again once `enable_threshold` milliseconds pass
between two messages. The loop is modelled at its TCP arrivals, each at the time `millis()`
returns then; the UDP descriptor, the mutex and what is printed are left out.

The code keeps a count of fast gaps that only a slow gap resets. A gap between the two thresholds
neither counts nor resets (`tcpArrival_mid_gap`), so fast gaps on both sides of it add up, and any
ten fast gaps with no slow gap among them switch the output to `/dev/null`
(`arrivals_switch_off`), however many slower gaps come between them. `Abstracts.arrivals` gives the
loop's state after any arrivals as a function of the gaps alone (`output_switch_follows_gaps`).
-/

namespace LowcarRuntime

/-- `sample_size`: the number of fast gaps that switches the output off. -/
def sampleSize : UInt32 := 10

/-- `disable_threshold`: a gap of at most this many milliseconds is fast. -/
def disableThreshold : UInt64 := 50

/-- `enable_threshold`: a gap of at least this many milliseconds switches the output back on. -/
def enableThreshold : UInt64 := 1000

/-- Where `tcp_output_fp` points. -/
inductive TcpOutput
  /-- `NULL`, its value before the first message. -/
  | unset
  /-- `stdout`. -/
  | stdout
  /-- `null_fp`, the client's handle on `/dev/null`. -/
  | nullFp
  deriving DecidableEq, Repr

/-- The variables of `output_dump` that a TCP arrival reads and writes. -/
structure OutputDump where
  /-- `last_received_time`. -/
  lastReceivedTime : UInt64
  /-- `less_than_disable_thresh`, the count of fast gaps. -/
  lessThanDisableThresh : UInt32
  /-- The global `tcp_output_fp`. -/
  tcpOutputFp : TcpOutput
  deriving DecidableEq, Repr

namespace OutputDump

/-- Before the loop: no message yet, and `tcp_output_fp` still `NULL`. -/
def init : OutputDump := ⟨0, 0, .unset⟩

/-- The branch of the loop taken when a TCP descriptor is ready, `millis()` returning `currTime`;
the gap is the unsigned difference with the last arrival. -/
def tcpArrival (s : OutputDump) (currTime : UInt64) : OutputDump :=
  let s₁ := if enableThreshold ≤ currTime - s.lastReceivedTime then
      { s with lessThanDisableThresh := 0, tcpOutputFp := .stdout }
    else s
  let s₂ := if currTime - s.lastReceivedTime ≤ disableThreshold then
      if s₁.lessThanDisableThresh + 1 = sampleSize then
        { s₁ with lessThanDisableThresh := s₁.lessThanDisableThresh + 1,
                  tcpOutputFp := .nullFp }
      else { s₁ with lessThanDisableThresh := s₁.lessThanDisableThresh + 1 }
    else s₁
  { s₂ with lastReceivedTime := currTime }

/-- The loop after TCP arrivals at `times`, in order. -/
def arrivals (s : OutputDump) (times : List UInt64) : OutputDump := times.foldl tcpArrival s

end OutputDump

/-- The gaps the loop computes at arrivals at `times`, the one before them having been at `last`. -/
def gaps (last : UInt64) : List UInt64 → List UInt64
  | [] => []
  | t :: ts => (t - last) :: gaps t ts

namespace OutputDump

variable (s : OutputDump) (t : UInt64)

/-- A gap between the two thresholds changes nothing but the time of the last arrival. -/
theorem tcpArrival_mid_gap (hlo : disableThreshold < t - s.lastReceivedTime)
    (hhi : t - s.lastReceivedTime < enableThreshold) :
    s.tcpArrival t = { s with lastReceivedTime := t } := by
  simp [tcpArrival, UInt64.not_le.2 hlo, UInt64.not_le.2 hhi]

/-- A fast gap counts one, and switches the output off when the count reaches `sample_size`. -/
theorem tcpArrival_fast (h : t - s.lastReceivedTime ≤ disableThreshold) :
    (s.tcpArrival t).lessThanDisableThresh = s.lessThanDisableThresh + 1 ∧
      (s.tcpArrival t).tcpOutputFp =
        if s.lessThanDisableThresh + 1 = sampleSize then .nullFp else s.tcpOutputFp := by
  have hslow : ¬enableThreshold ≤ t - s.lastReceivedTime := fun h' =>
    absurd (UInt64.le_trans h' h) (by decide)
  unfold tcpArrival
  split_ifs <;> simp_all

theorem arrivals_cons (ts : List UInt64) : s.arrivals (t :: ts) = (s.tcpArrival t).arrivals ts :=
  rfl

@[simp] theorem tcpArrival_lastReceivedTime : (s.tcpArrival t).lastReceivedTime = t := by
  unfold tcpArrival
  split_ifs <;> rfl

/-- With no slow gap, an output switched off stays off. -/
theorem arrivals_keep_off (times : List UInt64)
    (hslow : ∀ g ∈ gaps s.lastReceivedTime times, g < enableThreshold)
    (hoff : s.tcpOutputFp = .nullFp) :
    (s.arrivals times).tcpOutputFp = .nullFp := by
  induction times generalizing s with
  | nil => exact hoff
  | cons t ts ih =>
    rw [arrivals_cons]
    refine ih _ (by simpa [gaps] using fun g hg => hslow g (.tail _ hg)) ?_
    have hhi : t - s.lastReceivedTime < enableThreshold := hslow _ (.head _)
    by_cases hfast : t - s.lastReceivedTime ≤ disableThreshold
    · rw [(s.tcpArrival_fast t hfast).2, hoff]; split_ifs <;> rfl
    · rw [s.tcpArrival_mid_gap t (UInt64.not_le.1 hfast) hhi]; exact hoff

/-- The count after one more fast gap, below `sample_size`, does not wrap. -/
theorem toNat_succ_of_lt {c : UInt32} (h : c.toNat < sampleSize.toNat) :
    (c + 1).toNat = c.toNat + 1 := by
  have : c.toBitVec.toNat < 10 := h
  show (c.toBitVec + 1#32).toNat = c.toBitVec.toNat + 1
  rw [BitVec.toNat_add, BitVec.toNat_ofNat]
  omega

/-- From a count below `sample_size`, a run with no slow gap switches the output off as soon as its
fast gaps, consecutive or not, bring the count to `sample_size`. -/
theorem arrivals_switch_off (times : List UInt64)
    (hslow : ∀ g ∈ gaps s.lastReceivedTime times, g < enableThreshold)
    (hlt : s.lessThanDisableThresh.toNat < sampleSize.toNat)
    (hfast : sampleSize.toNat ≤ s.lessThanDisableThresh.toNat +
      ((gaps s.lastReceivedTime times).filter (· ≤ disableThreshold)).length) :
    (s.arrivals times).tcpOutputFp = .nullFp := by
  induction times generalizing s with
  | nil => simp [gaps] at hfast; omega
  | cons t ts ih =>
    rw [arrivals_cons]
    have hslow' : ∀ g ∈ gaps (s.tcpArrival t).lastReceivedTime ts, g < enableThreshold := by
      simpa [gaps] using fun g hg => hslow g (.tail _ hg)
    have hhi : t - s.lastReceivedTime < enableThreshold := hslow _ (.head _)
    by_cases hf : t - s.lastReceivedTime ≤ disableThreshold
    · -- A fast gap: the count goes up by one, and reaches `sample_size` or not.
      obtain ⟨hc, ho⟩ := s.tcpArrival_fast t hf
      have hsucc := toNat_succ_of_lt hlt
      by_cases h10 : s.lessThanDisableThresh + 1 = sampleSize
      · exact arrivals_keep_off _ ts hslow' (by rw [ho, if_pos h10])
      · have hne : (s.lessThanDisableThresh + 1).toNat ≠ sampleSize.toNat :=
          fun h => h10 (UInt32.toNat.inj h)
        refine ih _ hslow' (by rw [hc]; omega) ?_
        simp only [gaps, List.filter_cons, hf, decide_True, if_true, List.length_cons] at hfast
        simpa [hc] using (by omega : sampleSize.toNat ≤ (s.lessThanDisableThresh + 1).toNat +
          ((gaps t ts).filter (· ≤ disableThreshold)).length)
    · -- A gap between the thresholds: nothing but the time changes.
      rw [s.tcpArrival_mid_gap t (UInt64.not_le.1 hf) hhi]
      simp only [gaps, List.filter_cons, hf, decide_False, Bool.false_eq_true, if_false] at hfast
      exact ih _ hslow' hlt hfast

end OutputDump

/-- Arrivals every 10 ms from 1000 ms, with one pause of 500 ms after the sixth. -/
def burstWithPause : List UInt64 :=
  [1000, 1010, 1020, 1030, 1040, 1050, 1550, 1560, 1570, 1580, 1590]

/-- A gap between the thresholds neither counts nor resets, so any ten fast gaps with no slow gap
among them switch the output off. After a burst with one pause of 500 ms, the arrival 10 ms later
switches the output to `/dev/null`, although a gap of the last ten it ends is 500 ms. -/
theorem output_dump_counts_scattered_fast_gaps :
    (∀ (s : OutputDump) (t : UInt64), disableThreshold < t - s.lastReceivedTime →
      t - s.lastReceivedTime < enableThreshold →
      (s.tcpArrival t).lessThanDisableThresh = s.lessThanDisableThresh ∧
        (s.tcpArrival t).tcpOutputFp = s.tcpOutputFp) ∧
    (∀ (s : OutputDump) (times : List UInt64),
      (∀ g ∈ gaps s.lastReceivedTime times, g < enableThreshold) →
      s.lessThanDisableThresh.toNat < sampleSize.toNat →
      sampleSize.toNat ≤ s.lessThanDisableThresh.toNat +
        ((gaps s.lastReceivedTime times).filter (· ≤ disableThreshold)).length →
      (s.arrivals times).tcpOutputFp = .nullFp) ∧
    (OutputDump.init.arrivals burstWithPause).tcpOutputFp = .stdout ∧
    (OutputDump.init.arrivals (burstWithPause ++ [1600])).tcpOutputFp = .nullFp ∧
    ((gaps 0 (burstWithPause ++ [1600])).reverse.take sampleSize.toNat).all
      (· ≤ disableThreshold) = false := by
  refine ⟨fun s t hlo hhi => ?_, fun s times => s.arrivals_switch_off times, by decide, by decide,
    by decide⟩
  rw [s.tcpArrival_mid_gap t hlo hhi]
  exact ⟨rfl, rfl⟩

/-! ## The switch as a function of the gaps

What the loop computes, stated over the gaps alone: the output points at `/dev/null` once
`sample_size` fast gaps have come since the last slow gap, at `stdout` after a slow gap otherwise,
and stays `NULL` before the first one; the count is the number of fast gaps since the last slow
gap, in 32 bits. `Abstracts.tcpArrival` is one arrival, `Abstracts.arrivals` a whole run. -/

/-- The fast gaps since the last slow one: the gaps of at most `disable_threshold` milliseconds
after the last gap of at least `enable_threshold`. -/
def fastSinceSlow (gs : List UInt64) : Nat :=
  ((gs.reverse.takeWhile (· < enableThreshold)).filter (· ≤ disableThreshold)).length

/-- Where the output should point after the gaps `gs`. -/
def expectedOutput (gs : List UInt64) : TcpOutput :=
  if sampleSize.toNat ≤ fastSinceSlow gs then .nullFp
  else if gs.any (enableThreshold ≤ ·) then .stdout else .unset

theorem fastSinceSlow_append_slow (gs : List UInt64) {g : UInt64} (h : enableThreshold ≤ g) :
    fastSinceSlow (gs ++ [g]) = 0 := by
  simp [fastSinceSlow, UInt64.not_lt.2 h]

theorem fastSinceSlow_append_of_lt (gs : List UInt64) {g : UInt64} (h : g < enableThreshold) :
    fastSinceSlow (gs ++ [g]) = fastSinceSlow gs + if g ≤ disableThreshold then 1 else 0 := by
  simp only [fastSinceSlow, List.reverse_append, List.reverse_singleton, List.singleton_append,
    List.takeWhile_cons, h, decide_True, if_true, List.filter_cons]
  split_ifs <;> simp_all

namespace OutputDump

/-- A state of the loop after the gaps `gs`: its output and its count are the ones the gaps give. -/
structure Abstracts (gs : List UInt64) (s : OutputDump) : Prop where
  output : s.tcpOutputFp = expectedOutput gs
  count : s.lessThanDisableThresh.toNat = fastSinceSlow gs % UInt32.size

variable {gs : List UInt64} {s : OutputDump}

/-- A slow gap resets the count and points the output at `stdout`. -/
theorem tcpArrival_slow (t : UInt64) (h : enableThreshold ≤ t - s.lastReceivedTime) :
    (s.tcpArrival t).lessThanDisableThresh = 0 ∧ (s.tcpArrival t).tcpOutputFp = .stdout := by
  have hfast : ¬t - s.lastReceivedTime ≤ disableThreshold := fun h' =>
    absurd (UInt64.le_trans h h') (by decide)
  simp [tcpArrival, h, hfast]

theorem Abstracts.tcpArrival (h : Abstracts gs s) (t : UInt64) :
    Abstracts (gs ++ [t - s.lastReceivedTime]) (s.tcpArrival t) := by
  by_cases hslow : enableThreshold ≤ t - s.lastReceivedTime
  · -- A slow gap: everything before it is forgotten.
    obtain ⟨hc, ho⟩ := s.tcpArrival_slow t hslow
    refine ⟨?_, by rw [hc, fastSinceSlow_append_slow gs hslow]; rfl⟩
    rw [ho, expectedOutput, fastSinceSlow_append_slow gs hslow, if_neg (by decide)]
    simp [hslow]
  have hlt := UInt64.not_le.1 hslow
  have hany : (gs ++ [t - s.lastReceivedTime]).any (enableThreshold ≤ ·) = gs.any (enableThreshold ≤ ·) := by
    simp [hslow]
  by_cases hf : t - s.lastReceivedTime ≤ disableThreshold
  · -- A fast gap counts one, and the one that brings the count to `sample_size` switches off.
    obtain ⟨hc, ho⟩ := s.tcpArrival_fast t hf
    have hk := fastSinceSlow_append_of_lt gs hlt
    rw [if_pos hf] at hk
    have hcount : (s.lessThanDisableThresh + 1).toNat = (fastSinceSlow gs + 1) % UInt32.size := by
      show (s.lessThanDisableThresh.toNat + 1) % UInt32.size = _
      rw [h.count, Nat.mod_add_mod]
    refine ⟨?_, by rw [hc, hk, hcount]⟩
    rw [ho, expectedOutput, hk, hany]
    by_cases h10 : s.lessThanDisableThresh + 1 = sampleSize
    · have : (fastSinceSlow gs + 1) % 4294967296 = 10 := hcount ▸ congrArg UInt32.toNat h10
      rw [if_pos h10, if_pos (by show 10 ≤ _; omega)]
    · have hne : (fastSinceSlow gs + 1) % 4294967296 ≠ 10 := fun he =>
        h10 (UInt32.toNat.inj (hcount.trans he))
      rw [if_neg h10, h.output, expectedOutput]
      have : (sampleSize.toNat ≤ fastSinceSlow gs + 1 ↔ sampleSize.toNat ≤ fastSinceSlow gs) := by
        show 10 ≤ _ ↔ 10 ≤ _; omega
      simp only [this]
  · -- A gap between the thresholds changes nothing.
    have hk := fastSinceSlow_append_of_lt gs hlt
    rw [if_neg hf, Nat.add_zero] at hk
    rw [s.tcpArrival_mid_gap t (UInt64.not_le.1 hf) hlt]
    exact ⟨by rw [expectedOutput, hk, hany]; exact h.output, by rw [hk]; exact h.count⟩

theorem Abstracts.arrivals (h : Abstracts gs s) (times : List UInt64) :
    Abstracts (gs ++ gaps s.lastReceivedTime times) (s.arrivals times) := by
  induction times generalizing gs s with
  | nil => simpa [gaps] using h
  | cons t ts ih =>
    have := ih (h.tcpArrival t)
    rw [tcpArrival_lastReceivedTime, List.append_assoc, List.singleton_append] at this
    exact this

end OutputDump

/-- After any TCP arrivals, the output points at `/dev/null` exactly when `sample_size` fast gaps
have come since the last slow gap, and otherwise at `stdout` if a slow gap has come and nowhere if
none has; the count is the number of fast gaps since the last slow gap, modulo `2^32`. -/
theorem output_switch_follows_gaps (times : List UInt64) :
    (OutputDump.init.arrivals times).tcpOutputFp = expectedOutput (gaps 0 times) ∧
      (OutputDump.init.arrivals times).lessThanDisableThresh.toNat =
        fastSinceSlow (gaps 0 times) % UInt32.size := by
  have h := (show OutputDump.Abstracts [] OutputDump.init from ⟨rfl, rfl⟩).arrivals times
  exact ⟨h.output, h.count⟩

end LowcarRuntime
