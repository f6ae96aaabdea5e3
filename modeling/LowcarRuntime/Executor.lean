import Mathlib.Data.List.Basic

/-!
# The executor's mode threads

`handle_mode_changes` of `src/executor/executor.c` runs in a thread of its own: it reads `RUN_MODE`
over and over, and on each change cancels and joins the global `mode_thread`, then starts a new one
unless the new mode is IDLE. `executor_stop` cancels and joins `mode_thread` once more when the
process shuts down.

The thread library is modelled by the calls made to it: `pthread_create` gives a handle that no
call has used yet, and `pthread_cancel` and `pthread_join` act on a handle. A thread is live when a
call created it and no call joined it. `mode_thread` is a zero-initialised global, so its first
value, handle `0`, is no thread. `handleModeChanges` is the loop over a sequence of reads of
`RUN_MODE`, stopped at the cancellation point between two iterations; the calls on
`handler_thread` and the Python and shared-memory cleanup of `executor_stop` are left out.

`ModeHandler.Inv.step` shows that one iteration keeps exactly one live mode thread while the mode
is not IDLE and none while it is, and `inv_handleModeChanges` lifts it to every sequence of reads.
The live thread is the one created for the mode last read (`LiveMode.step`), and one call
created it, each `pthread_create` being given a handle no earlier call names (`CreatedOnce.step`,
`mode_thread_runs_last_mode`). The calls themselves are another matter: the first change out of
IDLE cancels and joins handle `0`, and a change after a return to IDLE cancels and joins the thread
joined on that return.
-/

namespace LowcarRuntime

/-- The values that `RUN_MODE` takes. -/
inductive RobotMode
  | idle
  | auto
  | teleop
  deriving DecidableEq, Repr

/-- A call to the thread library on a mode thread's handle. -/
inductive PthreadCall
  /-- `pthread_create(&mode_thread, NULL, run_mode_functions, get_mode_str(mode))`. -/
  | create (t : Nat) (mode : RobotMode)
  /-- `pthread_cancel(mode_thread)`. -/
  | cancel (t : Nat)
  /-- `pthread_join(mode_thread, NULL)`. -/
  | join (t : Nat)
  deriving DecidableEq, Repr

/-- The handle a call acts on. -/
def PthreadCall.tid : PthreadCall → Nat
  | create t _ => t
  | cancel t => t
  | join t => t

/-- A thread that a call of `calls` created and that none joined. -/
def Live (calls : List PthreadCall) (t : Nat) : Prop :=
  (∃ m, PthreadCall.create t m ∈ calls) ∧ PthreadCall.join t ∉ calls

/-- The variables of `handle_mode_changes`: its `mode`, the global `mode_thread`, the handle that
the next `pthread_create` gives, and the calls made so far. -/
structure ModeHandler where
  /-- The local `mode`, the last value read that differed from the one before. -/
  mode : RobotMode
  /-- The global `mode_thread`. -/
  modeThread : Nat
  /-- The handle of the next thread created. -/
  fresh : Nat
  /-- The calls to the thread library so far, in order. -/
  calls : List PthreadCall
  deriving DecidableEq, Repr

namespace ModeHandler

/-- Before the loop: `mode` is IDLE and `mode_thread` is zero. -/
def init : ModeHandler := ⟨.idle, 0, 1, []⟩

/-- One iteration of the loop of `handle_mode_changes`, having read `newMode` from `RUN_MODE`. -/
def step (h : ModeHandler) (newMode : RobotMode) : ModeHandler :=
  if newMode ≠ h.mode then
    if newMode ≠ .idle then
      ⟨newMode, h.fresh, h.fresh + 1,
        h.calls ++ [.cancel h.modeThread, .join h.modeThread, .create h.fresh newMode]⟩
    else ⟨newMode, h.modeThread, h.fresh, h.calls ++ [.cancel h.modeThread, .join h.modeThread]⟩
  else h

end ModeHandler

/-- `handle_mode_changes` after it has read the values `reads` of `RUN_MODE`. -/
def handleModeChanges (reads : List RobotMode) : ModeHandler :=
  reads.foldl ModeHandler.step ModeHandler.init

/-- The calls on mode threads once `executor_stop` has run, the handler having stopped at `h`. -/
def executorStop (h : ModeHandler) : List PthreadCall :=
  h.calls ++ [.cancel h.modeThread, .join h.modeThread]

namespace ModeHandler

/-- What the loop keeps: every handle used is below the next one, no thread has handle `0`, and
the live threads are `mode_thread` alone while the mode is not IDLE, and none while it is. -/
structure Inv (h : ModeHandler) : Prop where
  tid_lt : ∀ c ∈ h.calls, c.tid < h.fresh
  modeThread_lt : h.modeThread < h.fresh
  fresh_pos : 0 < h.fresh
  create_pos : ∀ t m, PthreadCall.create t m ∈ h.calls → 0 < t
  live : ∀ t, Live h.calls t ↔ h.mode ≠ .idle ∧ t = h.modeThread

theorem inv_init : init.Inv where
  tid_lt := by simp [init]
  modeThread_lt := Nat.one_pos
  fresh_pos := Nat.one_pos
  create_pos := by simp [init]
  live := by simp [init, Live]

variable {h : ModeHandler}

/-- A thread created before the calls of a change, and not joined by them, was live before. -/
theorem Inv.not_live_of_ne (hi : h.Inv) {t : Nat} (ht : t ≠ h.modeThread) : ¬Live h.calls t :=
  fun hl => ht ((hi.live t).1 hl).2

theorem Inv.step (hi : h.Inv) (newMode : RobotMode) : (h.step newMode).Inv := by
  unfold ModeHandler.step
  split_ifs with hne hidle
  · -- A new mode other than IDLE: the old thread is joined and a new one created.
    have hlt := hi.modeThread_lt
    refine ⟨?_, Nat.lt_succ_self _, Nat.succ_pos _, ?_, fun t => ?_⟩
    · simp only [List.mem_append, List.mem_cons, List.not_mem_nil, or_false]
      rintro c (hc | rfl | rfl | rfl)
      · exact Nat.lt_succ_of_lt (hi.tid_lt c hc)
      all_goals simp only [PthreadCall.tid]; omega
    · simp only [List.mem_append, List.mem_cons, List.not_mem_nil, or_false, reduceCtorEq,
        false_or, PthreadCall.create.injEq]
      rintro t m (hc | ⟨rfl, -⟩)
      exacts [hi.create_pos t m hc, hi.fresh_pos]
    · simp only [Live, List.mem_append, List.mem_cons, List.not_mem_nil, or_false, reduceCtorEq,
        false_or, PthreadCall.create.injEq, PthreadCall.join.injEq, not_or, ne_eq, hidle,
        not_false_eq_true, true_and]
      constructor
      · rintro ⟨⟨m, hc | ⟨rfl, -⟩⟩, hj, hmt⟩
        · exact absurd ⟨⟨m, hc⟩, hj⟩ (hi.not_live_of_ne hmt)
        · rfl
      · rintro rfl
        exact ⟨⟨newMode, .inr ⟨rfl, rfl⟩⟩, fun hj => Nat.lt_irrefl _ (hi.tid_lt _ hj),
          by omega⟩
  · -- A return to IDLE: the old thread is joined and none created.
    obtain rfl : newMode = .idle := by simpa using hidle
    refine ⟨?_, hi.modeThread_lt, hi.fresh_pos, ?_, fun t => ?_⟩
    · simp only [List.mem_append, List.mem_cons, List.not_mem_nil, or_false]
      rintro c (hc | rfl | rfl)
      · exact hi.tid_lt c hc
      all_goals exact hi.modeThread_lt
    · simp only [List.mem_append, List.mem_cons, List.not_mem_nil, or_false, reduceCtorEq]
      exact hi.create_pos
    · simp only [Live, List.mem_append, List.mem_cons, List.not_mem_nil, or_false, reduceCtorEq,
        false_or, PthreadCall.join.injEq, not_or, ne_eq, not_true_eq_false, false_and, iff_false]
      rintro ⟨⟨m, hc⟩, hj, hmt⟩
      exact hi.not_live_of_ne hmt ⟨⟨m, hc⟩, hj⟩
  · exact hi

/-- The calls only grow. -/
theorem calls_prefix_step (h : ModeHandler) (newMode : RobotMode) : h.calls <+: (h.step newMode).calls := by
  unfold ModeHandler.step
  split_ifs <;> simp

theorem calls_prefix_foldl (reads : List RobotMode) (h : ModeHandler) :
    h.calls <+: (reads.foldl step h).calls := by
  induction reads generalizing h with
  | nil => exact List.prefix_refl _
  | cons r reads ih => exact (calls_prefix_step h r).trans (ih _)

end ModeHandler

theorem inv_handleModeChanges (reads : List RobotMode) : (handleModeChanges reads).Inv := by
  have : ∀ h : ModeHandler, h.Inv → (reads.foldl ModeHandler.step h).Inv := by
    induction reads with
    | nil => exact fun _ hi => hi
    | cons r reads ih => exact fun h hi => ih _ (hi.step r)
  exact this _ ModeHandler.inv_init

/-- At any time at most one mode thread is live. -/
theorem live_unique (reads : List RobotMode) {t t' : Nat}
    (ht : Live (handleModeChanges reads).calls t) (ht' : Live (handleModeChanges reads).calls t') :
    t = t' :=
  (((inv_handleModeChanges reads).live t).1 ht).2.trans
    (((inv_handleModeChanges reads).live t').1 ht').2.symm

/-- The first change out of IDLE, whenever one is read, cancels and joins handle `0`, which no call
ever creates. -/
theorem handleModeChanges_cancels_zero (reads : List RobotMode) (h : ∃ m ∈ reads, m ≠ .idle) :
    ∃ rest, (handleModeChanges reads).calls = .cancel 0 :: .join 0 :: rest := by
  induction reads with
  | nil => simp at h
  | cons r reads ih =>
    by_cases hr : r = .idle
    · subst hr
      have hm : ∃ m ∈ reads, m ≠ .idle := by simpa using h
      simpa [handleModeChanges, ModeHandler.step, ModeHandler.init] using ih hm
    · obtain ⟨rest, hrest⟩ := ModeHandler.calls_prefix_foldl reads (ModeHandler.init.step r)
      refine ⟨[.create 1 r] ++ rest, ?_⟩
      rw [handleModeChanges, List.foldl_cons, ← hrest]
      simp [ModeHandler.step, ModeHandler.init, hr]

/-- The mode handler keeps at most one mode thread live, and `executor_stop` finds `mode_thread` live
exactly when the mode is not IDLE. But the calls act on handles that are no live thread: the first
change out of IDLE cancels and joins handle `0`, which no call creates; the change after a return to
IDLE cancels and joins again the thread joined on that return; and `executor_stop` does either while
the mode is IDLE. -/
theorem mode_thread_calls_on_dead_threads :
    (∀ reads t t', Live (handleModeChanges reads).calls t → Live (handleModeChanges reads).calls t' →
      t = t') ∧
    (∀ reads, Live (handleModeChanges reads).calls (handleModeChanges reads).modeThread ↔
      (handleModeChanges reads).mode ≠ .idle) ∧
    (∀ reads, (∃ m ∈ reads, m ≠ .idle) →
      (∃ rest, (handleModeChanges reads).calls = .cancel 0 :: .join 0 :: rest) ∧
      ∀ m, PthreadCall.create 0 m ∉ (handleModeChanges reads).calls) ∧
    (handleModeChanges [.auto, .idle, .teleop]).calls =
      [.cancel 0, .join 0, .create 1 .auto, .cancel 1, .join 1, .cancel 1, .join 1, .create 2 .teleop] ∧
    executorStop (handleModeChanges []) = [.cancel 0, .join 0] ∧
    executorStop (handleModeChanges [.auto, .idle]) =
      [.cancel 0, .join 0, .create 1 .auto, .cancel 1, .join 1, .cancel 1, .join 1] := by
  refine ⟨fun reads _ _ => live_unique reads, fun reads => ?_,
    fun reads h => ⟨handleModeChanges_cancels_zero reads h, fun m hm => ?_⟩, rfl, rfl, rfl⟩
  · simp [(inv_handleModeChanges reads).live]
  · exact Nat.lt_irrefl 0 ((inv_handleModeChanges reads).create_pos 0 m hm)

/-! ## The mode that runs -/

namespace ModeHandler

/-- The mode after an iteration is the value just read. -/
@[simp] theorem step_mode (h : ModeHandler) (newMode : RobotMode) : (h.step newMode).mode = newMode := by
  unfold ModeHandler.step
  split_ifs with hne
  · rfl
  · rfl
  · exact (not_not.1 hne).symm

theorem foldl_mode (reads : List RobotMode) (h : ModeHandler) :
    (reads.foldl step h).mode = reads.getLastD h.mode := by
  induction reads generalizing h with
  | nil => rfl
  | cons r reads ih => rw [List.foldl_cons, ih, step_mode, List.getLastD_cons]

/-- Every live mode thread was created for the current mode. -/
def LiveMode (h : ModeHandler) : Prop :=
  ∀ t m, PthreadCall.create t m ∈ h.calls → Live h.calls t → m = h.mode

variable {h : ModeHandler}

/-- A thread created before a change that joins `mode_thread` is not live after it. -/
theorem Inv.not_live_after_join (hi : h.Inv) {t : Nat} {m : RobotMode}
    (hc : PthreadCall.create t m ∈ h.calls) {extra : List PthreadCall}
    (hj : PthreadCall.join h.modeThread ∈ extra) : ¬Live (h.calls ++ extra) t := by
  rintro ⟨-, hnj⟩
  have ht := ((hi.live t).1 ⟨⟨m, hc⟩, fun h => hnj (List.mem_append_left _ h)⟩).2
  exact hnj (List.mem_append_right _ (ht ▸ hj))

/-- A change joins the thread that was live, so the only thread live after it is the one it creates
for the new mode. -/
theorem LiveMode.step (hi : h.Inv) (hl : h.LiveMode) (newMode : RobotMode) :
    (h.step newMode).LiveMode := by
  intro t m hc hlive
  rw [step_mode]
  unfold ModeHandler.step at hc hlive
  split_ifs at hc hlive with hne hidle
  · simp only [List.mem_append, List.mem_cons, List.not_mem_nil, or_false, reduceCtorEq,
      false_or, PthreadCall.create.injEq] at hc
    rcases hc with hc | ⟨-, rfl⟩
    · exact absurd hlive (hi.not_live_after_join hc (by simp))
    · rfl
  · simp only [List.mem_append, List.mem_cons, List.not_mem_nil, or_false, reduceCtorEq] at hc
    exact absurd hlive (hi.not_live_after_join hc (by simp))
  · exact (hl t m hc hlive).trans (not_not.1 hne).symm

theorem liveMode_foldl (reads : List RobotMode) (hi : h.Inv) (hl : h.LiveMode) :
    (reads.foldl step h).LiveMode := by
  induction reads generalizing h with
  | nil => exact hl
  | cons r reads ih => exact ih (hi.step r) (hl.step hi r)

/-- Each thread was created by one call: `pthread_create` is given a handle no call has used. -/
def CreatedOnce (h : ModeHandler) : Prop :=
  ∀ t m, PthreadCall.create t m ∈ h.calls → h.calls.count (.create t m) = 1

/-- A change creates its thread with the next handle, which no earlier call names. -/
theorem CreatedOnce.step (hi : h.Inv) (hc : h.CreatedOnce) (newMode : RobotMode) :
    (h.step newMode).CreatedOnce := by
  intro t m hmem
  unfold ModeHandler.step at hmem ⊢
  split_ifs at hmem ⊢ with hne hidle
  · simp only [List.mem_append, List.mem_cons, List.not_mem_nil, or_false, reduceCtorEq,
      false_or, PthreadCall.create.injEq] at hmem
    rw [List.count_append]
    rcases hmem with hmem | ⟨rfl, rfl⟩
    · -- An earlier thread: its handle is below the new one.
      have hlt := hi.tid_lt _ hmem
      simp only [PthreadCall.tid] at hlt
      simp [hc t m hmem, List.count_cons, Nat.ne_of_gt hlt]
    · -- The new thread: no earlier call names its handle.
      have h0 : h.calls.count (.create h.fresh m) = 0 :=
        List.count_eq_zero.2 fun hm => Nat.lt_irrefl _ (hi.tid_lt _ hm)
      simp [h0, List.count_cons]
  · simp only [List.mem_append, List.mem_cons, List.not_mem_nil, or_false, reduceCtorEq] at hmem
    simp [List.count_append, hc t m hmem, List.count_cons]
  · exact hc t m hmem

theorem createdOnce_foldl (reads : List RobotMode) (hi : h.Inv) (hc : h.CreatedOnce) :
    (reads.foldl step h).CreatedOnce := by
  induction reads generalizing h with
  | nil => exact hc
  | cons r reads ih => exact ih (hi.step r) (hc.step hi r)

end ModeHandler

/-- Over every sequence of reads of `RUN_MODE`, a mode thread is live exactly when it is
`mode_thread` and the mode last read is not IDLE, and one call created that thread, for the mode
last read. -/
theorem mode_thread_runs_last_mode (reads : List RobotMode) (t : Nat) :
    Live (handleModeChanges reads).calls t ↔
      reads.getLastD .idle ≠ .idle ∧ t = (handleModeChanges reads).modeThread ∧
      (handleModeChanges reads).calls.count (.create t (reads.getLastD .idle)) = 1 ∧
      ∀ m, PthreadCall.create t m ∈ (handleModeChanges reads).calls ↔ m = reads.getLastD .idle := by
  have hi := inv_handleModeChanges reads
  have hl := ModeHandler.liveMode_foldl reads ModeHandler.inv_init (by simp [ModeHandler.LiveMode,
    ModeHandler.init])
  have ho := ModeHandler.createdOnce_foldl reads ModeHandler.inv_init (by
    simp [ModeHandler.CreatedOnce, ModeHandler.init])
  have hmode : (handleModeChanges reads).mode = reads.getLastD .idle :=
    ModeHandler.foldl_mode reads _
  rw [hi.live, hmode]
  constructor
  · rintro ⟨hne, rfl⟩
    have hlive : Live (handleModeChanges reads).calls (handleModeChanges reads).modeThread :=
      (hi.live _).2 ⟨hmode ▸ hne, rfl⟩
    -- The call that created the live thread was for the mode last read.
    obtain ⟨m', hc⟩ := hlive.1
    have hm' : m' = reads.getLastD .idle := hmode ▸ hl _ m' hc hlive
    subst hm'
    exact ⟨hne, rfl, ho _ _ hc, fun m => ⟨fun hc' => hmode ▸ hl _ m hc' hlive, fun h => h ▸ hc⟩⟩
  · exact fun ⟨hne, ht, _⟩ => ⟨hne, ht⟩

end LowcarRuntime
