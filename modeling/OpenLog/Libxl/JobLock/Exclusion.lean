import Mathlib.Algebra.BigOperators.Group.Finset.Piecewise
import Mathlib.Algebra.Order.BigOperators.Group.Finset
import OpenLog.Libxl.JobLock

/-!
# The job lock excludes

At any time at most one thread holds a normal job of the domain and at most one holds an
asynchronous job, and the job object says so: `active` and `asyncJob` are set exactly while such a
job is held, and the owner fields name its holder (`OpenLog.Libxl.JobLock.job_exclusion`).

## The invariant

The invariant is `OpenLog.Libxl.JobLock.Exclusive`. It speaks about the job object and the jobs
held only, so the steps that merely move a thread keep it for free
(`OpenLog.Libxl.JobLock.Exclusive.congr`), and there are four to look at: taking a job, giving one
back, in both kinds, and setting the mask. Taking an asynchronous job is safe because the mask
never has the `ASYNC` bit, which is part of the invariant.

## Which jobs start

From a state in which the invariant holds, a normal job starts beside an asynchronous one only if
its bit is in the mask, and an asynchronous job starts only where no job is held.
-/

namespace OpenLog

namespace Libxl

namespace JobLock

variable {Tid : Type*}

/-- The job object agrees with the jobs held. -/
structure Exclusive [DecidableEq Tid] (s : State Tid) : Prop where
  normalHeld_eq : ∀ t, s.normalHeld t = if s.job.owner = some t then 1 else 0
  asyncHeld_eq : ∀ t, s.asyncHeld t = if s.job.asyncOwner = some t then 1 else 0
  active_iff : s.job.active = .none ↔ s.job.owner = none
  asyncJob_iff : s.job.asyncJob = .none ↔ s.job.asyncOwner = none
  maskOk : MaskOk s.job.mask

variable [DecidableEq Tid] {s s' : State Tid} {maxQueued : ℤ} {t : Tid} {r : Starter}

/-! ### Steps that only move threads -/

namespace State

variable {p : Pc} {errno : Errno} {w : Option Tid}

/-- A thread that moves on leaves the job object alone. -/
@[simp] theorem setPc_job : (s.setPc t p).job = s.job := rfl

@[simp] theorem setPc_normalHeld : (s.setPc t p).normalHeld = s.normalHeld := rfl

@[simp] theorem setPc_asyncHeld : (s.setPc t p).asyncHeld = s.asyncHeld := rfl

@[simp] theorem setPc_jobsQueued : (s.setPc t p).jobsQueued = s.jobsQueued := rfl

@[simp] theorem setPc_refs : (s.setPc t p).refs = s.refs := rfl

@[simp] theorem setPc_pc : (s.setPc t p).pc = Function.update s.pc t p := rfl

/-- So does one that gives up. -/
@[simp] theorem fail_job : (s.fail maxQueued t r errno).job = s.job := by
  rw [fail]
  split_ifs <;> rfl

@[simp] theorem fail_normalHeld : (s.fail maxQueued t r errno).normalHeld = s.normalHeld := by
  rw [fail]
  split_ifs <;> rfl

@[simp] theorem fail_asyncHeld : (s.fail maxQueued t r errno).asyncHeld = s.asyncHeld := by
  rw [fail]
  split_ifs <;> rfl

/-- A thread that takes a job writes it into the job object. -/
@[simp] theorem take_job : (s.take t r).job = takeJob s.job t r.call r.now := by
  rw [take]
  split_ifs <;> rfl

/-- A normal job is held by the thread that has taken it. -/
theorem take_normalHeld (h : r.call.job ≠ .async) :
    (s.take t r).normalHeld = Function.update s.normalHeld t (s.normalHeld t + 1) := by
  simp [take, h]

/-- So is an asynchronous one. -/
theorem take_asyncHeld (h : r.call.job = .async) :
    (s.take t r).asyncHeld = Function.update s.asyncHeld t (s.asyncHeld t + 1) := by
  simp [take, h]

/-- An asynchronous job is not a normal one. -/
theorem take_normalHeld_of_async (h : r.call.job = .async) :
    (s.take t r).normalHeld = s.normalHeld := by
  simp [take, h]

/-- A normal job is not an asynchronous one. -/
theorem take_asyncHeld_of_ne_async (h : r.call.job ≠ .async) :
    (s.take t r).asyncHeld = s.asyncHeld := by
  simp [take, h]

/-- The thread has to lock the driver and the domain again before it returns, if it was called
with the driver locked. -/
theorem take_pc : (s.take t r).pc =
    Function.update s.pc t (if r.call.driverLocked then .relockTaken r else .idle) := by
  rw [State.take]
  split_ifs <;> rfl

/-- The thread stays in the queue. -/
theorem take_jobsQueued : (s.take t r).jobsQueued = s.jobsQueued := by
  rw [State.take]
  split_ifs <;> rfl

/-- It keeps its reference to the domain. -/
theorem take_refs : (s.take t r).refs = s.refs := by
  rw [State.take]
  split_ifs <;> rfl

/-- Waking threads up leaves the job object alone. -/
@[simp] theorem signal_job : (s.signal w).job = s.job := by
  cases w <;> rfl

@[simp] theorem signal_normalHeld : (s.signal w).normalHeld = s.normalHeld := by
  cases w <;> rfl

@[simp] theorem signal_asyncHeld : (s.signal w).asyncHeld = s.asyncHeld := by
  cases w <;> rfl

end State

/-- The invariant only looks at the job object and at the jobs held. -/
theorem Exclusive.congr (h : Exclusive s) (hjob : s'.job = s.job)
    (hnormal : s'.normalHeld = s.normalHeld) (hasync : s'.asyncHeld = s.asyncHeld) :
    Exclusive s' where
  normalHeld_eq := by simpa only [hjob, hnormal] using h.normalHeld_eq
  asyncHeld_eq := by simpa only [hjob, hasync] using h.asyncHeld_eq
  active_iff := by simpa only [hjob] using h.active_iff
  asyncJob_iff := by simpa only [hjob] using h.asyncJob_iff
  maskOk := by simpa only [hjob] using h.maskOk

/-! ### What the job object says about the holders -/

/-- The owner of the normal job is who holds one. -/
theorem Exclusive.owner_iff (h : Exclusive s) (t : Tid) :
    s.job.owner = some t ↔ 0 < s.normalHeld t := by
  rw [h.normalHeld_eq t]
  split_ifs with howner <;> simp [howner]

/-- The owner of the asynchronous job is who holds one. -/
theorem Exclusive.asyncOwner_iff (h : Exclusive s) (t : Tid) :
    s.job.asyncOwner = some t ↔ 0 < s.asyncHeld t := by
  rw [h.asyncHeld_eq t]
  split_ifs with howner <;> simp [howner]

/-- A normal job is active as long as a thread holds one. -/
theorem Exclusive.active_ne_none_iff (h : Exclusive s) :
    s.job.active ≠ .none ↔ ∃ t, 0 < s.normalHeld t := by
  rw [ne_eq, h.active_iff, ← ne_eq, Option.ne_none_iff_exists']
  simp only [h.owner_iff]

/-- An asynchronous job is set as long as a thread holds one. -/
theorem Exclusive.asyncJob_ne_none_iff (h : Exclusive s) :
    s.job.asyncJob ≠ .none ↔ ∃ t, 0 < s.asyncHeld t := by
  rw [ne_eq, h.asyncJob_iff, ← ne_eq, Option.ne_none_iff_exists']
  simp only [h.asyncOwner_iff]

/-- While no normal job is active no thread holds one. -/
theorem Exclusive.normalHeld_eq_zero (h : Exclusive s) (hactive : s.job.active = .none)
    (t : Tid) : s.normalHeld t = 0 := by
  rw [h.normalHeld_eq t, h.active_iff.mp hactive]
  rfl

/-- While no asynchronous job is set no thread holds one. -/
theorem Exclusive.asyncHeld_eq_zero (h : Exclusive s) (hasync : s.job.asyncJob = .none)
    (t : Tid) : s.asyncHeld t = 0 := by
  rw [h.asyncHeld_eq t, h.asyncJob_iff.mp hasync]
  rfl

/-- **An asynchronous job is never allowed beside another.** -/
theorem Exclusive.asyncJob_eq_none (h : Exclusive s)
    (hnested : domainNestedJobAllowed s.job .async = true) : s.job.asyncJob = .none := by
  have hmask : s.job.mask &&& jobMask .async = 0#64 := h.maskOk
  simpa [domainNestedJobAllowed, hmask] using hnested

/-! ### The steps that take a job or give it back -/

/-- **A job that is taken is the only one of its kind.** No normal job is active, so that
nobody holds one; and an asynchronous job would not have been allowed beside another. -/
theorem Exclusive.take (h : Exclusive s) (hactive : s.job.active = .none)
    (hnested : domainNestedJobAllowed s.job r.call.job = true) : Exclusive (s.take t r) := by
  have hfree := h.normalHeld_eq_zero hactive
  by_cases hjob : r.call.job = .async
  · have hasyncJob : s.job.asyncJob = .none := h.asyncJob_eq_none (hjob ▸ hnested)
    have hfree' := h.asyncHeld_eq_zero hasyncJob
    have hcall : r.call.asyncJob ≠ .none := fun hc => r.call.none_iff_async.mp hc hjob
    constructor
    · intro u
      rw [State.take_normalHeld_of_async hjob, State.take_job, takeJob_of_async hjob, hfree u]
      simp [domainObjResetAsyncJob, domainObjResetJob]
    · intro u
      rw [State.take_asyncHeld hjob, State.take_job, takeJob_of_async hjob]
      simp [Function.update_apply, hfree', eq_comm (a := u)]
    · rw [State.take_job, takeJob_of_async hjob]
      simp [domainObjResetAsyncJob, domainObjResetJob]
    · rw [State.take_job, takeJob_of_async hjob]
      simp [hcall]
    · rw [State.take_job, takeJob_of_async hjob]
      exact maskOk_default
  · constructor
    · intro u
      rw [State.take_normalHeld hjob, State.take_job, takeJob_of_ne_async hjob]
      simp [Function.update_apply, hfree, eq_comm (a := u)]
    · intro u
      rw [State.take_asyncHeld_of_ne_async hjob, State.take_job, takeJob_of_ne_async hjob]
      exact h.asyncHeld_eq u
    · rw [State.take_job, takeJob_of_ne_async hjob]
      simp [r.call.job_ne_none]
    · rw [State.take_job, takeJob_of_ne_async hjob]
      exact h.asyncJob_iff
    · rw [State.take_job, takeJob_of_ne_async hjob]
      exact h.maskOk

/-- The end of a section keeps the invariant, whichever it is. -/
theorem Exclusive.finish {q : ℤ} {errno : Errno} {out : Outcome} (h : Exclusive s)
    (hout : out.Justified maxQueued q s.job r.call.job) :
    Exclusive (s.finish maxQueued t r errno out) := by
  cases out with
  | wait cv => exact h.congr rfl rfl rfl
  | error =>
    exact h.congr State.fail_job State.fail_normalHeld State.fail_asyncHeld
  | start => exact h.take hout.1 hout.2

/-- **A normal job that is given back** was the one that is active. -/
theorem Exclusive.release (h : Exclusive s) (hheld : 0 < s.normalHeld t) :
    Exclusive (s.release t) := by
  have howner : s.job.owner = some t := (h.owner_iff t).mpr hheld
  constructor
  · intro u
    have hu := h.normalHeld_eq u
    rw [howner] at hu
    by_cases hut : u = t
    · subst hut
      simp [State.release, domainObjResetJob, hu]
    · simp [State.release, domainObjResetJob, Function.update_of_ne hut, hu, Ne.symm hut]
  · exact h.asyncHeld_eq
  · simp [State.release, domainObjResetJob]
  · exact h.asyncJob_iff
  · exact h.maskOk

/-- An asynchronous job that is given back was the one that is set. -/
theorem Exclusive.releaseAsync (h : Exclusive s) (hheld : 0 < s.asyncHeld t) :
    Exclusive (s.releaseAsync t) := by
  have howner : s.job.asyncOwner = some t := (h.asyncOwner_iff t).mpr hheld
  constructor
  · exact h.normalHeld_eq
  · intro u
    have hu := h.asyncHeld_eq u
    rw [howner] at hu
    by_cases hut : u = t
    · subst hut
      simp [State.releaseAsync, domainObjResetAsyncJob, hu]
    · simp [State.releaseAsync, domainObjResetAsyncJob, Function.update_of_ne hut, hu,
        Ne.symm hut]
  · exact h.active_iff
  · simp [State.releaseAsync, domainObjResetAsyncJob]
  · exact maskOk_default

/-- A mask without asynchronous jobs may be set. The function adds the destroying job to it. -/
theorem Exclusive.setAsyncJobMask {allowedJobs : BitVec 64} (h : Exclusive s)
    (hmask : MaskOk allowedJobs) :
    Exclusive { s with job := domainObjSetAsyncJobMask s.job allowedJobs } := by
  by_cases hasync : s.job.asyncJob = .none
  · exact h.congr (by simp [domainObjSetAsyncJobMask, hasync]) rfl rfl
  · have hjob : domainObjSetAsyncJobMask s.job allowedJobs =
        { s.job with mask := allowedJobs ||| jobMask .destroy } := by
      simp [domainObjSetAsyncJobMask, hasync]
    rw [hjob]
    exact ⟨h.normalHeld_eq, h.asyncHeld_eq, h.active_iff, h.asyncJob_iff, hmask.or_destroy⟩

/-! ### Which jobs start -/

/-- A normal job that starts at the end of a section is one that the mask of the asynchronous
job allows. -/
theorem finish_starts_normal {q : ℤ} {errno : Errno} {out : Outcome} {u : Tid}
    (hout : out.Justified maxQueued q s.job r.call.job)
    (hu : s.normalHeld u < (s.finish maxQueued t r errno out).normalHeld u) :
    domainNestedJobAllowed s.job (s.finish maxQueued t r errno out).job.active = true := by
  cases out with
  | wait cv => exact absurd hu (lt_irrefl _)
  | error => exact absurd hu (by simp [State.finish])
  | start =>
    -- more normal jobs are held, so it was a normal job that started
    simp only [State.finish] at hu ⊢
    have hjob : r.call.job ≠ .async := by
      intro hjob
      rw [State.take_normalHeld_of_async hjob] at hu
      exact lt_irrefl _ hu
    rw [State.take_job, takeJob_of_ne_async hjob]
    exact hout.2

/-- An asynchronous job that starts there finds no normal one active. -/
theorem finish_starts_async {q : ℤ} {errno : Errno} {out : Outcome} {u : Tid}
    (hout : out.Justified maxQueued q s.job r.call.job)
    (hu : s.asyncHeld u < (s.finish maxQueued t r errno out).asyncHeld u) :
    s.job.active = .none ∧ domainNestedJobAllowed s.job .async = true := by
  cases out with
  | wait cv => exact absurd hu (lt_irrefl _)
  | error => exact absurd hu (by simp [State.finish])
  | start =>
    simp only [State.finish] at hu
    have hjob : r.call.job = .async := by
      by_contra hjob
      rw [State.take_asyncHeld_of_ne_async hjob] at hu
      exact lt_irrefl _ hu
    exact ⟨hout.1, hjob ▸ hout.2⟩

/-! ### Every reachable state -/

/-- A new job object is held by nobody. -/
theorem exclusive_init (refs : ℤ) : Exclusive (init refs : State Tid) := by
  constructor <;> simp [init, domainObjInitJob, maskOk_zero]

variable [Fintype Tid]

/-- All threads together hold one normal job at most. -/
theorem Exclusive.sum_normalHeld_le (h : Exclusive s) : ∑ t, s.normalHeld t ≤ 1 := by
  rcases howner : s.job.owner with - | t
  · simp [h.normalHeld_eq, howner]
  · simp [h.normalHeld_eq, howner]

/-- They hold one asynchronous job at most. -/
theorem Exclusive.sum_asyncHeld_le (h : Exclusive s) : ∑ t, s.asyncHeld t ≤ 1 := by
  rcases howner : s.job.asyncOwner with - | t
  · simp [h.asyncHeld_eq, howner]
  · simp [h.asyncHeld_eq, howner]

/-- **One step keeps the invariant.** Only the steps that take a job, give one back or set the
mask touch the job object; the others leave alone what the invariant looks at. -/
theorem Exclusive.step {a : Act Tid} (h : Exclusive s) (hs : step maxQueued s a = some s') :
    Exclusive s' := by
  cases effect_of_step hs with
  | clockFailed hpc => exact h.congr rfl rfl rfl
  | begun hpc hout _ =>
    have henqueue : Exclusive s.enqueue := h.congr rfl rfl rfl
    exact henqueue.finish hout
  | rechecked hpc hout _ => exact h.finish hout
  | gaveUp hpc => exact h.congr State.fail_job State.fail_normalHeld State.fail_asyncHeld
  | wokeUp hpc => exact h.congr rfl rfl rfl
  | waitFailed hpc => exact h.congr rfl rfl rfl
  | relockedTaken hpc => exact h.congr rfl rfl rfl
  | relockedRefused hpc => exact h.congr rfl rfl rfl
  | ended hpc hheld hw =>
    exact (h.release hheld).congr State.signal_job State.signal_normalHeld
      State.signal_asyncHeld
  | endedAsync hpc hheld => exact h.releaseAsync hheld
  | masked hpc hheld hmask => exact h.setAsyncJobMask hmask

/-- **Every reachable state satisfies the invariant**, whatever the number of threads and the
order of their steps. -/
theorem Reachable.exclusive (h : Reachable maxQueued s) : Exclusive s := by
  obtain ⟨refs, h⟩ := h
  refine Logic.Reach.invariant (fun s hs => ?_) (fun s a s' hP hs => hP.step hs) h
  rw [hs]
  exact exclusive_init refs

/-- A normal job that starts beside an asynchronous one is in its mask. -/
theorem step_starts_normal {a : Act Tid} (hs : step maxQueued s a = some s') {u : Tid}
    (hu : s.normalHeld u < s'.normalHeld u) :
    domainNestedJobAllowed s.job s'.job.active = true := by
  cases effect_of_step hs with
  | begun hpc hout _ => exact finish_starts_normal (s := s.enqueue) hout hu
  | rechecked hpc hout _ => exact finish_starts_normal hout hu
  | gaveUp hpc => exact absurd hu (by simp)
  | @ended t w hpc hheld hw =>
    -- a thread that ends a job holds fewer
    have hle : (s.release t).normalHeld u ≤ s.normalHeld u := by
      rcases eq_or_ne u t with rfl | hut
      · simp [State.release]
      · simp [State.release, Function.update_of_ne hut]
    rw [State.signal_normalHeld] at hu
    omega
  | clockFailed | wokeUp | waitFailed | relockedTaken | relockedRefused | endedAsync | masked =>
    exact absurd hu (lt_irrefl _)

/-- An asynchronous job starts only where no job at all is held. -/
theorem step_starts_async {a : Act Tid} (hs : step maxQueued s a = some s') {u : Tid}
    (hu : s.asyncHeld u < s'.asyncHeld u) :
    s.job.active = .none ∧ domainNestedJobAllowed s.job .async = true := by
  cases effect_of_step hs with
  | @begun t call now errno out hpc hout _ =>
    exact finish_starts_async (s := s.enqueue) (r := ⟨call, now⟩) hout hu
  | rechecked hpc hout _ => exact finish_starts_async hout hu
  | gaveUp hpc => exact absurd hu (by simp)
  | @endedAsync t hpc hheld =>
    have hle : (s.releaseAsync t).asyncHeld u ≤ s.asyncHeld u := by
      rcases eq_or_ne u t with rfl | hut
      · simp [State.releaseAsync]
      · simp [State.releaseAsync, Function.update_of_ne hut]
    omega
  | ended hpc hheld hw => exact absurd hu (by simp [State.release])
  | clockFailed | wokeUp | waitFailed | relockedTaken | relockedRefused | masked =>
    exact absurd hu (lt_irrefl _)

/-- **The lock excludes.** In every reachable state at most one normal and at most
one asynchronous job is held, `active` and `asyncJob` are set exactly while one is,
and the owner fields name the holder. From there, a normal job that starts beside
an asynchronous one is in its mask, and an asynchronous job starts only where no
job is held. -/
theorem job_exclusion (h : Reachable maxQueued s) :
    ∑ t, s.normalHeld t ≤ 1 ∧ ∑ t, s.asyncHeld t ≤ 1 ∧
      (s.job.active ≠ .none ↔ ∃ t, 0 < s.normalHeld t) ∧
      (s.job.asyncJob ≠ .none ↔ ∃ t, 0 < s.asyncHeld t) ∧
      (∀ t, s.job.owner = some t ↔ 0 < s.normalHeld t) ∧
      (∀ t, s.job.asyncOwner = some t ↔ 0 < s.asyncHeld t) ∧
      ∀ a s', step maxQueued s a = some s' → ∀ t,
        (s.normalHeld t < s'.normalHeld t → (∃ u, 0 < s.asyncHeld u) →
          s.job.mask &&& jobMask s'.job.active ≠ 0#64) ∧
        (s.asyncHeld t < s'.asyncHeld t →
          (∀ u, s.normalHeld u = 0) ∧ ∀ u, s.asyncHeld u = 0) := by
  have hex := h.exclusive
  refine ⟨hex.sum_normalHeld_le, hex.sum_asyncHeld_le, hex.active_ne_none_iff,
    hex.asyncJob_ne_none_iff, hex.owner_iff, hex.asyncOwner_iff, ?_⟩
  intro a s' hs t
  refine ⟨fun ht hasync => ?_, fun ht => ?_⟩
  · have hjob := hex.asyncJob_ne_none_iff.mpr hasync
    simpa [domainNestedJobAllowed, hjob] using step_starts_normal hs ht
  · obtain ⟨hactive, hnested⟩ := step_starts_async hs ht
    exact ⟨hex.normalHeld_eq_zero hactive, hex.asyncHeld_eq_zero (hex.asyncJob_eq_none hnested)⟩

/-- A save lets modifying jobs in, and one comes. -/
def nestedRun : List (Act (Fin 3)) :=
  [.begin t₀ (domainObjBeginAsyncJob .save save_ne_none) (some 7) (.other 0),
    .setAsyncJobMask t₀ (jobMask .modify),
    .begin t₁ (domainObjBeginJob .modify modify_normal) (some 9) (.other 0)]

/-- The lock excludes in the state with a job of each kind. -/
theorem job_exclusion_nested :
    ∃ s, Logic.exec (step 0) (init 1) nestedRun = some s ∧
      s.asyncHeld 0 = 1 ∧ s.normalHeld 1 = 1 ∧
      ∑ t, s.normalHeld t ≤ 1 ∧ ∑ t, s.asyncHeld t ≤ 1 := by
  have hrun : (Logic.exec (step 0) (init 1) nestedRun).map
      (fun s => (s.asyncHeld 0, s.normalHeld 1)) = some (1, 1) := by decide
  obtain ⟨s, hs, hheld⟩ := Option.map_eq_some_iff.mp hrun
  obtain ⟨hnormal, hasync, -⟩ := job_exclusion (Reachable.of_exec hs)
  exact ⟨s, hs, by simpa using congrArg Prod.fst hheld, by simpa using congrArg Prod.snd hheld,
    hnormal, hasync⟩

end JobLock

end Libxl

end OpenLog
