import OpenLog.Libxl.JobLock.Exclusion

/-!
# The queue of the job lock is counted right

As long as the clock can be read, `jobsQueued` counts the jobs that threads wait
for or hold, every one of them accounts for one reference to the domain, and the
limit `max_queued` is kept (`OpenLog.Libxl.JobLock.queue_accounting`). The invariant
is `OpenLog.Libxl.JobLock.Balanced`. In the middle of a call that starts a job the
caller is counted and not yet in a place where it counts; that state is
`OpenLog.Libxl.JobLock.Pending`, and however the call's section ends it leads back to
`OpenLog.Libxl.JobLock.Balanced`.

A call whose clock reading fails leaves `jobsQueued` one too high for good
(`OpenLog.Libxl.JobLock.step_clockFailed`).
-/

namespace OpenLog

namespace Libxl

namespace JobLock

/-! ### Counting threads -/

/-- A sum over threads after one of them has moved. -/
theorem sum_update_add {ι β : Type*} [Fintype ι] [DecidableEq ι] (f : β → ℕ) (g : ι → β) (i : ι)
    (x : β) : ∑ j, f (Function.update g i x j) + f (g i) = ∑ j, f (g j) + f x := by
  have hcomp : ∀ j, f (Function.update g i x j) = Function.update (fun j => f (g j)) i (f x) j :=
    fun j => Function.apply_update (fun _ => f) g i x j
  simp only [hcomp]
  rw [Finset.sum_update_of_mem (Finset.mem_univ i),
    Finset.sum_eq_add_sum_sdiff_singleton_of_mem (Finset.mem_univ i) fun j => f (g j)]
  omega

/-- Inside one of the wait loops. -/
def Pc.Waits : Pc → Prop
  | .asleep _ _ => True
  | .woken _ _ => True
  | .waitFailed _ _ _ => True
  | _ => False

/-- Refused, and not back from taking the locks again. -/
def Pc.Refused : Pc → Prop
  | .relockRefused _ => True
  | _ => False

instance : DecidablePred Pc.Waits
  | .asleep _ _ | .woken _ _ | .waitFailed _ _ _ => .isTrue trivial
  | .idle | .relockTaken _ | .relockRefused _ => .isFalse id

instance : DecidablePred Pc.Refused
  | .relockRefused _ => .isTrue trivial
  | .idle | .asleep _ _ | .woken _ _ | .waitFailed _ _ _ | .relockTaken _ => .isFalse id

/-- `1` for a thread in a wait loop. -/
def Pc.waiting (p : Pc) : ℕ := if p.Waits then 1 else 0

/-- `1` for a refused thread. -/
def Pc.refused (p : Pc) : ℕ := if p.Refused then 1 else 0

section

variable {cv : CondVar} {r : Starter} {errno : Errno}

@[simp] theorem Pc.waiting_idle : Pc.idle.waiting = 0 := rfl

@[simp] theorem Pc.waiting_asleep : (Pc.asleep cv r).waiting = 1 := rfl

@[simp] theorem Pc.waiting_woken : (Pc.woken cv r).waiting = 1 := rfl

@[simp] theorem Pc.waiting_waitFailed : (Pc.waitFailed cv r errno).waiting = 1 := rfl

@[simp] theorem Pc.waiting_relockTaken : (Pc.relockTaken r).waiting = 0 := rfl

@[simp] theorem Pc.waiting_relockRefused : (Pc.relockRefused r).waiting = 0 := rfl

@[simp] theorem Pc.refused_idle : Pc.idle.refused = 0 := rfl

@[simp] theorem Pc.refused_asleep : (Pc.asleep cv r).refused = 0 := rfl

@[simp] theorem Pc.refused_woken : (Pc.woken cv r).refused = 0 := rfl

@[simp] theorem Pc.refused_waitFailed : (Pc.waitFailed cv r errno).refused = 0 := rfl

@[simp] theorem Pc.refused_relockTaken : (Pc.relockTaken r).refused = 0 := rfl

@[simp] theorem Pc.refused_relockRefused : (Pc.relockRefused r).refused = 1 := rfl

/-- A thread that is woken by a signal or a broadcast is still in its loop, since it has not
looked at its condition again. -/
@[simp] theorem Pc.waiting_wake (p : Pc) : p.wake.waiting = p.waiting := by
  cases p <;> rfl

@[simp] theorem Pc.refused_wake (p : Pc) : p.wake.refused = p.refused := by
  cases p <;> rfl

@[simp] theorem Pc.waiting_hearBroadcast (p : Pc) : p.hearBroadcast.waiting = p.waiting := by
  rw [Pc.hearBroadcast]
  split_ifs <;> simp

@[simp] theorem Pc.refused_hearBroadcast (p : Pc) : p.hearBroadcast.refused = p.refused := by
  rw [Pc.hearBroadcast]
  split_ifs <;> simp

end

variable {Tid : Type*} [Fintype Tid]
variable {s s' : State Tid} {maxQueued refs : ℤ} {t : Tid} {r : Starter}

/-- The jobs a thread waits for or holds. -/
def State.jobsOf (s : State Tid) (t : Tid) : ℕ :=
  (s.pc t).waiting + s.normalHeld t + s.asyncHeld t

/-- **The books are balanced.** `jobsQueued` agrees with the jobs that are waited for or held,
and `refs` with these and the threads that were refused and are not back yet; and the limit is
kept. It is the invariant of the module. -/
structure Balanced (maxQueued refs : ℤ) (s : State Tid) : Prop where
  queued : s.jobsQueued =
    ∑ t, (s.pc t).waiting + ∑ t, s.normalHeld t + ∑ t, s.asyncHeld t
  refs : s.refs = refs + s.jobsQueued + ∑ t, (s.pc t).refused
  limit : maxQueued ≠ 0 → s.jobsQueued ≤ maxQueued

/-- The books while thread `t` is in a section of `libxlDomainObjBeginJobInternal`: it is
counted in `jobsQueued` whatever it did before, and not counted in any of the sums. Every
section begins so, with a call or with a wake-up. -/
structure Pending (refs : ℤ) (s : State Tid) (t : Tid) : Prop where
  queued : s.jobsQueued + (s.pc t).waiting =
    ∑ t, (s.pc t).waiting + ∑ t, s.normalHeld t + ∑ t, s.asyncHeld t + 1
  refs : s.refs = refs + s.jobsQueued + ∑ t, (s.pc t).refused
  notRefused : (s.pc t).refused = 0

/-- Nobody waits and nothing is held. -/
theorem balanced_init (h : 0 ≤ maxQueued) : Balanced maxQueued refs (init refs : State Tid) := by
  refine ⟨?_, ?_, fun _ => h⟩ <;> simp [init]

/-- A thread that calls is pending once it is counted. -/
theorem Balanced.enqueue (h : Balanced maxQueued refs s) (hpc : s.pc t = .idle) :
    Pending refs s.enqueue t := by
  have hqueued := h.queued
  have hrefs := h.refs
  refine ⟨?_, ?_, ?_⟩ <;> simp only [State.enqueue, hpc, Pc.waiting_idle, Pc.refused_idle]
  · omega
  · omega

/-- A thread that is woken is pending. -/
theorem Balanced.pending (h : Balanced maxQueued refs s) (hwaiting : (s.pc t).waiting = 1)
    (hrefused : (s.pc t).refused = 0) : Pending refs s t := by
  have hqueued := h.queued
  exact ⟨by omega, h.refs, hrefused⟩

/-! ### Sections end in balance -/

variable [DecidableEq Tid]

/-- A thread moved to a place that counts it as waiting as much as its old one does,
and not as refused, leaves the books as they are. -/
theorem Balanced.setPc {p : Pc} (h : Balanced maxQueued refs s)
    (hwaiting : p.waiting = (s.pc t).waiting) (hrefused : p.refused = (s.pc t).refused) :
    Balanced maxQueued refs (s.setPc t p) := by
  have hw := sum_update_add Pc.waiting s.pc t p
  have hr := sum_update_add Pc.refused s.pc t p
  have hqueued := h.queued
  have hrefs := h.refs
  refine ⟨?_, ?_, h.limit⟩
  · simp only [State.setPc_jobsQueued, State.setPc_pc, State.setPc_normalHeld,
      State.setPc_asyncHeld]
    omega
  · simp only [State.setPc_refs, State.setPc_jobsQueued, State.setPc_pc]
    omega

/-- Falling asleep balances the books. -/
theorem Pending.sleep {cv : CondVar} (h : Pending refs s t)
    (hlimit : maxQueued ≠ 0 → s.jobsQueued ≤ maxQueued) :
    Balanced maxQueued refs (s.setPc t (.asleep cv r)) := by
  have hw := sum_update_add Pc.waiting s.pc t (.asleep cv r)
  have hr := sum_update_add Pc.refused s.pc t (.asleep cv r)
  have hqueued := h.queued
  have hrefs := h.refs
  have hnot := h.notRefused
  simp only [Pc.waiting_asleep, Pc.refused_asleep] at hw hr
  refine ⟨?_, ?_, hlimit⟩
  · simp only [State.setPc_jobsQueued, State.setPc_pc, State.setPc_normalHeld,
      State.setPc_asyncHeld]
    omega
  · simp only [State.setPc_refs, State.setPc_jobsQueued, State.setPc_pc]
    omega

/-- The error path balances the books. -/
theorem Pending.fail {errno : Errno} (h : Pending refs s t)
    (hlimit : maxQueued ≠ 0 → s.jobsQueued - 1 ≤ maxQueued) :
    Balanced maxQueued refs (s.fail maxQueued t r errno) := by
  have hqueued := h.queued
  have hrefs := h.refs
  have hnot := h.notRefused
  cases hdriver : r.call.driverLocked
  -- without the driver the reference is given back at once
  · have hw := sum_update_add Pc.waiting s.pc t .idle
    have hr := sum_update_add Pc.refused s.pc t .idle
    simp only [Pc.waiting_idle, Pc.refused_idle] at hw hr
    constructor <;> simp only [State.fail, hdriver, Bool.false_eq_true, if_false,
      State.setPc_jobsQueued, State.setPc_pc, State.setPc_normalHeld, State.setPc_asyncHeld,
      State.setPc_refs]
    · omega
    · omega
    · exact hlimit
  -- with it the thread keeps the reference until it has the locks again
  · have hw := sum_update_add Pc.waiting s.pc t (.relockRefused r)
    have hr := sum_update_add Pc.refused s.pc t (.relockRefused r)
    simp only [Pc.waiting_relockRefused, Pc.refused_relockRefused] at hw hr
    constructor <;> simp only [State.fail, hdriver, if_true, State.setPc_jobsQueued,
      State.setPc_pc, State.setPc_normalHeld, State.setPc_asyncHeld, State.setPc_refs]
    · omega
    · omega
    · exact hlimit

/-- A thread that takes a job holds one more. -/
theorem sum_held_take :
    ∑ u, (s.take t r).normalHeld u + ∑ u, (s.take t r).asyncHeld u =
      ∑ u, s.normalHeld u + ∑ u, s.asyncHeld u + 1 := by
  by_cases hjob : r.call.job = .async
  · have hsum := sum_update_add id s.asyncHeld t (s.asyncHeld t + 1)
    rw [State.take_asyncHeld hjob, State.take_normalHeld_of_async hjob]
    simp only [id] at hsum
    omega
  · have hsum := sum_update_add id s.normalHeld t (s.normalHeld t + 1)
    rw [State.take_normalHeld hjob, State.take_asyncHeld_of_ne_async hjob]
    simp only [id] at hsum
    omega

/-- Taking the job balances the books. -/
theorem Pending.take (h : Pending refs s t)
    (hlimit : maxQueued ≠ 0 → s.jobsQueued ≤ maxQueued) :
    Balanced maxQueued refs (s.take t r) := by
  -- wherever the thread goes next, it neither waits nor is refused there
  obtain ⟨p, hp, hwaiting, hrefused⟩ : ∃ p, (s.take t r).pc = Function.update s.pc t p ∧
      p.waiting = 0 ∧ p.refused = 0 := by
    refine ⟨_, State.take_pc, ?_, ?_⟩ <;> split_ifs <;> rfl
  have hw := sum_update_add Pc.waiting s.pc t p
  have hr := sum_update_add Pc.refused s.pc t p
  have hheld := sum_held_take (s := s) (t := t) (r := r)
  have hqueued := h.queued
  have hrefs := h.refs
  have hnot := h.notRefused
  refine ⟨?_, ?_, ?_⟩
  · rw [State.take_jobsQueued, hp]
    omega
  · rw [State.take_refs, State.take_jobsQueued, hp]
    omega
  · rw [State.take_jobsQueued]
    exact hlimit

/-- **However a section ends, the books are balanced then.** -/
theorem Pending.finish {errno : Errno} {out : Outcome} (h : Pending refs s t)
    (hlimit : maxQueued ≠ 0 → s.jobsQueued - 1 ≤ maxQueued)
    (hlimit' : out ≠ .error → maxQueued ≠ 0 → s.jobsQueued ≤ maxQueued) :
    Balanced maxQueued refs (s.finish maxQueued t r errno out) := by
  cases out with
  | wait cv => exact h.sleep (hlimit' (by simp))
  | error => exact h.fail hlimit
  | start => exact h.take (hlimit' (by simp))

/-! ### Steps -/

/-- The check at `retry`, read as the limit. -/
theorem queued_le_of_not_full {jobsQueued : ℤ} (h : queueFull maxQueued jobsQueued = false) :
    maxQueued ≠ 0 → jobsQueued ≤ maxQueued := by
  intro hmax
  simpa [queueFull, hmax] using h

/-- A normal job that ends takes its count and its reference with it, -/
theorem Balanced.release (h : Balanced maxQueued refs s) (hheld : 0 < s.normalHeld t) :
    Balanced maxQueued refs (s.release t) := by
  have hsum := sum_update_add id s.normalHeld t (s.normalHeld t - 1)
  have hqueued := h.queued
  have hrefs := h.refs
  have hlimit := h.limit
  simp only [id] at hsum
  refine ⟨?_, ?_, fun hmax => ?_⟩ <;> simp only [State.release]
  · omega
  · omega
  · have := hlimit hmax
    omega

/-- and so does an asynchronous one, whose broadcast wakes threads without moving them from
their loops. -/
theorem Balanced.releaseAsync (h : Balanced maxQueued refs s) (hheld : 0 < s.asyncHeld t) :
    Balanced maxQueued refs (s.releaseAsync t) := by
  have hsum := sum_update_add id s.asyncHeld t (s.asyncHeld t - 1)
  have hqueued := h.queued
  have hrefs := h.refs
  have hlimit := h.limit
  simp only [id] at hsum
  refine ⟨?_, ?_, fun hmax => ?_⟩ <;>
    simp only [State.releaseAsync, Pc.waiting_hearBroadcast, Pc.refused_hearBroadcast]
  · omega
  · omega
  · have := hlimit hmax
    omega

/-- A signal wakes one thread at most. -/
theorem Balanced.signal {w : Option Tid} (h : Balanced maxQueued refs s) :
    Balanced maxQueued refs (s.signal w) := by
  cases w with
  | none => exact h
  | some w => exact h.setPc (Pc.waiting_wake _) (Pc.refused_wake _)

/-- The clock can be read. -/
def Act.ClockOk : Act Tid → Prop
  | .begin _ _ none _ => False
  | _ => True

instance : (a : Act Tid) → Decidable a.ClockOk
  | .begin _ _ none _ => .isFalse id
  | .begin _ _ (some _) _ | .wakeSpuriously _ | .waitFails _ _ | .resume _ _ | .relock _
  | .endJob _ _ | .endAsyncJob _ | .setAsyncJobMask _ _ => .isTrue trivial

/-- **One step keeps the books balanced**, unless it fails to read the clock. The cases are the
effects of a step: sections that end somehow, threads that move without being counted
differently, and jobs that end. -/
theorem Balanced.step {a : Act Tid} (h : Balanced maxQueued refs s) (hclock : a.ClockOk)
    (hs : step maxQueued s a = some s') : Balanced maxQueued refs s' := by
  cases effect_of_step hs with
  | clockFailed hpc => exact absurd hclock (by simp [Act.ClockOk])
  | @begun t call now errno out hpc hout herror =>
    refine (h.enqueue hpc).finish ?_ fun hne => queued_le_of_not_full (herror hne)
    simpa [State.enqueue] using h.limit
  | @rechecked t cv r errno out hpc hout _ =>
    have hpending : Pending refs s t := h.pending (by simp [hpc]) (by simp [hpc])
    refine hpending.finish (fun hmax => ?_) fun _ => h.limit
    have := h.limit hmax
    omega
  | @gaveUp t cv r errno errno' hpc =>
    have hpending : Pending refs s t := h.pending (by simp [hpc]) (by simp [hpc])
    refine hpending.fail fun hmax => ?_
    have := h.limit hmax
    omega
  | wokeUp hpc => exact h.setPc (by simp [hpc]) (by simp [hpc])
  | waitFailed hpc => exact h.setPc (by simp [hpc]) (by simp [hpc])
  | relockedTaken hpc => exact h.setPc (by simp [hpc]) (by simp [hpc])
  | @relockedRefused t r hpc =>
    have hw := sum_update_add Pc.waiting s.pc t .idle
    have hr := sum_update_add Pc.refused s.pc t .idle
    have hqueued := h.queued
    have hrefs := h.refs
    simp only [hpc, Pc.waiting_idle, Pc.waiting_relockRefused] at hw
    simp only [hpc, Pc.refused_idle, Pc.refused_relockRefused] at hr
    refine ⟨?_, ?_, h.limit⟩ <;> simp only [State.setPc_refs, State.setPc_jobsQueued,
      State.setPc_pc, State.setPc_normalHeld, State.setPc_asyncHeld]
    · omega
    · omega
  | ended hpc hheld hw => exact (h.release hheld).signal
  | endedAsync hpc hheld => exact h.releaseAsync hheld
  | masked hpc hheld hmask => exact ⟨h.queued, h.refs, h.limit⟩

/-- A call whose clock reading fails is counted and never uncounted. -/
theorem step_clockFailed {call : BeginCall} {errno : Errno} (hpc : s.pc t = .idle) :
    step maxQueued s (.begin t call none errno) =
      some { s with jobsQueued := s.jobsQueued + 1 } := by
  simp [step, hpc]

/-! ### Every reachable state -/

/-- **Run.** The books are balanced in every state that is reached while the clock can be read.
-/
theorem reachVia_balanced (hmax : 0 ≤ maxQueued)
    (h : Logic.ReachVia (step maxQueued) (Initial refs) (fun _ a => a.ClockOk) s) :
    Balanced maxQueued refs s := by
  refine Logic.ReachVia.invariant (fun s hs => ?_) (fun s a s' hP hC hs => hP.step hC hs) h
  rw [hs]
  exact balanced_init hmax

/-- **The queue is counted right.** While the clock can be read, `jobsQueued` is the
number of jobs that threads wait for or hold, so the number of threads that do
where none is in two places at once; each of the jobs keeps one reference to the
domain, and so does each thread that is refused and not back yet; and the limit is
kept. -/
theorem queue_accounting (hmax : 0 ≤ maxQueued)
    (h : Logic.ReachVia (step maxQueued) (Initial refs) (fun _ a => a.ClockOk) s) :
    s.jobsQueued = ∑ t, s.jobsOf t ∧
      ((∀ t, s.jobsOf t ≤ 1) →
        s.jobsQueued = (Finset.univ.filter fun t =>
          (s.pc t).Waits ∨ 0 < s.normalHeld t ∨ 0 < s.asyncHeld t).card) ∧
      s.refs = refs + s.jobsQueued + (Finset.univ.filter fun t => (s.pc t).Refused).card ∧
      (maxQueued ≠ 0 → s.jobsQueued ≤ maxQueued) := by
  have hbal := reachVia_balanced hmax h
  have hqueued : s.jobsQueued = ∑ t, s.jobsOf t := by
    rw [hbal.queued]
    simp only [State.jobsOf, Finset.sum_add_distrib, Int.natCast_add]
  refine ⟨hqueued, fun hone => ?_, ?_, hbal.limit⟩
  · rw [hqueued, Finset.card_filter]
    congr 1
    refine Finset.sum_congr rfl fun t _ => ?_
    have ht := hone t
    rw [State.jobsOf, Pc.waiting] at ht ⊢
    split_ifs at ht ⊢ <;> grind
  · rw [Finset.card_filter]
    exact hbal.refs

/-- A save, and a modifying job that waits for it; a third call is refused. -/
def fullQueueRun : List (Act (Fin 3)) :=
  [.begin t₀ (domainObjBeginAsyncJob .save save_ne_none) (some 7) (.other 0),
    .begin t₁ (domainObjBeginJob .modify modify_normal) (some 8) (.other 0),
    .begin t₂ (domainObjBeginAsyncJobWithDriver .dump dump_ne_none) (some 9) (.other 0)]

/-- The books are balanced with a full queue and a refused thread. -/
theorem queue_accounting_full :
    ∃ s, Logic.exec (Logic.restrict (step 2) fun _ a => a.ClockOk) (init 1) fullQueueRun = some s ∧
      s.jobsQueued = 2 ∧ (s.pc 2).Refused ∧ s.jobsQueued = ∑ t, s.jobsOf t ∧
      s.refs = 1 + s.jobsQueued + (Finset.univ.filter fun t => (s.pc t).Refused).card := by
  have hrun : (Logic.exec (Logic.restrict (step 2) fun _ a => a.ClockOk) (init 1)
      fullQueueRun).map (fun s => (s.jobsQueued, decide (s.pc 2).Refused)) = some (2, true) := by
    decide
  obtain ⟨s, hs, hv⟩ := Option.map_eq_some_iff.mp hrun
  have hreach : Logic.ReachVia (step 2) (Initial 1) (fun _ a => a.ClockOk) s :=
    Logic.ReachVia.of_exec (Logic.ReachVia.start rfl) hs
  obtain ⟨hqueued, -, hrefs, -⟩ := queue_accounting (by decide) hreach
  exact ⟨s, hs, congrArg Prod.fst hv, of_decide_eq_true (congrArg Prod.snd hv), hqueued, hrefs⟩

end JobLock

end Libxl

end OpenLog
