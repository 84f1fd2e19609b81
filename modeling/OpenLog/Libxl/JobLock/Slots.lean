import OpenLog.Libxl.JobLock.Exclusion

/-!
# What the job lock is for

Seen from outside, the lock of a domain is two slots: one for a normal job and one
for an asynchronous job, each with the thread that filled it. A thread fills an
empty slot and empties the one it filled (`OpenLog.Libxl.Slots.Step`); nobody
empties the slot of another thread, which is all that a holder relies on
(`OpenLog.Libxl.Slots.Step.keeps_normal`, `OpenLog.Libxl.Slots.Step.keeps_async`).

The lock of the driver is an implementation of this: every step of its threads is
a step of the slots by the same thread, or does not show
(`OpenLog.Libxl.JobLock.slots_step`).
-/

namespace OpenLog

namespace Libxl

/-- The jobs of a domain and who began them. -/
structure Slots (Tid : Type*) where
  normal : Option (Tid × DomainJob)
  async : Option (Tid × DomainAsyncJob)
  mask : BitVec 64

namespace Slots

variable {Tid : Type*} {t u : Tid} {x x' : Slots Tid}

/-- A normal job may start. -/
def NormalFree (x : Slots Tid) (job : DomainJob) : Prop :=
  x.normal = none ∧ (x.async = none ∨ x.mask &&& jobMask job ≠ 0#64)

/-- An asynchronous job may start. -/
def AsyncFree (x : Slots Tid) : Prop := x.normal = none ∧ x.async = none

/-- The steps of thread `t` that show. -/
inductive Step (t : Tid) (x : Slots Tid) : Slots Tid → Prop where
  | startNormal (job : DomainJob) (h : x.NormalFree job) :
      Step t x { x with normal := some (t, job) }
  | startAsync (asyncJob : DomainAsyncJob) (h : x.AsyncFree) :
      Step t x { x with async := some (t, asyncJob), mask := defaultJobMask }
  | endNormal (job : DomainJob) (h : x.normal = some (t, job)) :
      Step t x { x with normal := none }
  | endAsync (asyncJob : DomainAsyncJob) (h : x.async = some (t, asyncJob)) :
      Step t x { x with async := none, mask := defaultJobMask }
  | setMask (asyncJob : DomainAsyncJob) (mask : BitVec 64) (h : x.async = some (t, asyncJob)) :
      Step t x { x with mask := mask }

/-- **A normal job stays until its thread ends it.** -/
theorem Step.keeps_normal (h : Step u x x') (hut : u ≠ t) {job : DomainJob}
    (hx : x.normal = some (t, job)) : x'.normal = some (t, job) := by
  cases h with
  | startNormal job' hfree => rw [hfree.1] at hx; cases hx
  | startAsync _ hfree => exact hx
  | endNormal job' hu =>
    rw [hu, Option.some_inj, Prod.mk.injEq] at hx
    exact absurd hx.1 hut
  | endAsync | setMask => exact hx

/-- **An asynchronous job stays until its thread ends it.** -/
theorem Step.keeps_async (h : Step u x x') (hut : u ≠ t) {asyncJob : DomainAsyncJob}
    (hx : x.async = some (t, asyncJob)) : x'.async = some (t, asyncJob) := by
  cases h with
  | startAsync _ hfree => rw [hfree.2] at hx; cases hx
  | endAsync job' hu =>
    rw [hu, Option.some_inj, Prod.mk.injEq] at hx
    exact absurd hx.1 hut
  | startNormal | endNormal | setMask => exact hx

end Slots

namespace JobLock

variable {Tid : Type*} {s s' : State Tid} {maxQueued : ℤ} {t : Tid} {r : Starter}

/-- The slots of a state of the lock. -/
def slots (s : State Tid) : Slots Tid where
  normal := s.job.owner.map fun t => (t, s.job.active)
  async := s.job.asyncOwner.map fun t => (t, s.job.asyncJob)
  mask := s.job.mask

/-- The thread that makes a step. -/
def Act.thread : Act Tid → Tid
  | .begin t _ _ _ => t
  | .wakeSpuriously t => t
  | .waitFails t _ => t
  | .resume t _ => t
  | .relock t => t
  | .endJob t _ => t
  | .endAsyncJob t => t
  | .setAsyncJobMask t _ => t

theorem slots_congr (h : s'.job = s.job) : slots s' = slots s := by
  simp only [slots, h]

variable [DecidableEq Tid]

/-- Taking a job fills a slot. -/
theorem slots_take (h : Exclusive s) (hactive : s.job.active = .none)
    (hnested : domainNestedJobAllowed s.job r.call.job = true) :
    Slots.Step t (slots s) (slots (s.take t r)) := by
  have hnormal : (slots s).normal = none := by simp [slots, h.active_iff.mp hactive]
  by_cases hjob : r.call.job = .async
  · have hasync : (slots s).async = none := by
      simp [slots, h.asyncJob_iff.mp (h.asyncJob_eq_none (hjob ▸ hnested))]
    have hstep := Slots.Step.startAsync (t := t) r.call.asyncJob ⟨hnormal, hasync⟩
    have hslots : slots (s.take t r) =
        { slots s with async := some (t, r.call.asyncJob), mask := defaultJobMask } := by
      simp only [slots, State.take_job, takeJob_of_async hjob] at hnormal ⊢
      simp [domainObjResetAsyncJob, domainObjResetJob, hnormal]
    rwa [hslots]
  · have hfree : (slots s).NormalFree r.call.job := by
      refine ⟨hnormal, ?_⟩
      rcases Bool.or_eq_true _ _ ▸ hnested with hasync | hmask
      · have howner := h.asyncJob_iff.mp (by simpa using hasync)
        exact Or.inl (by simp [slots, howner])
      · exact Or.inr (by simpa [slots] using hmask)
    have hslots : slots (s.take t r) = { slots s with normal := some (t, r.call.job) } := by
      simp only [slots, State.take_job, takeJob_of_ne_async hjob, Option.map_some]
    rw [hslots]
    exact Slots.Step.startNormal r.call.job hfree

theorem slots_finish {q : ℤ} {errno : Errno} {out : Outcome} (h : Exclusive s)
    (hout : out.Justified maxQueued q s.job r.call.job) :
    slots (s.finish maxQueued t r errno out) = slots s ∨
      Slots.Step t (slots s) (slots (s.finish maxQueued t r errno out)) := by
  cases out with
  | wait cv => exact Or.inl rfl
  | error => exact Or.inl (slots_congr State.fail_job)
  | start => exact Or.inr (slots_take h hout.1 hout.2)

variable [Fintype Tid]

/-- **The lock refines the slots**: a step shows as a step of the slots by the same
thread, or not at all. -/
theorem slots_step {a : Act Tid} (h : Exclusive s) (hs : step maxQueued s a = some s') :
    slots s' = slots s ∨ Slots.Step a.thread (slots s) (slots s') := by
  cases effect_of_step hs with
  | begun hpc hout _ =>
    have henqueue : Exclusive s.enqueue := h.congr rfl rfl rfl
    exact slots_finish henqueue hout
  | rechecked hpc hout _ => exact slots_finish h hout
  | gaveUp hpc => exact Or.inl (slots_congr State.fail_job)
  | @ended t w hpc hheld hw =>
    have howner := (h.owner_iff t).mpr hheld
    refine Or.inr ?_
    rw [slots_congr State.signal_job]
    exact Slots.Step.endNormal s.job.active (by simp [slots, howner, Act.thread])
  | @endedAsync t hpc hheld =>
    have howner := (h.asyncOwner_iff t).mpr hheld
    exact Or.inr (Slots.Step.endAsync s.job.asyncJob (by simp [slots, howner, Act.thread]))
  | @masked t allowedJobs hpc hheld hmask =>
    have howner := (h.asyncOwner_iff t).mpr hheld
    have hjob := h.asyncJob_ne_none_iff.mpr ⟨t, hheld⟩
    refine Or.inr ?_
    simp only [domainObjSetAsyncJobMask, hjob, ite_false]
    exact Slots.Step.setMask s.job.asyncJob _ (by simp [slots, howner, Act.thread])
  | clockFailed | wokeUp | waitFailed | relockedTaken | relockedRefused => exact Or.inl rfl

end JobLock

end Libxl

end OpenLog
