import Mathlib.Data.Fintype.Defs
import Mathlib.Logic.Function.Basic
import OpenLog.Logic.Run
import OpenLog.Libxl.Job

/-!
# The job lock of a domain

The threads that start and end jobs on one domain, as a transition system. Every function runs
with the domain locked, so a step is what one thread does between two points at which it gives the
lock up: the waits on the two condition variables, and the places where it drops the domain lock
to take the driver lock first. Which thread runs next, whom a signal wakes, when a wait fails and
when a thread wakes up for no reason is left open, in the actions (`OpenLog.Libxl.JobLock.Act`) of
the system.

A thread starts and ends jobs in pairs: `normalHeld` and `asyncHeld` count the jobs it has taken
and not given back, and only a thread that holds a job ends one.

## What a step can do

`OpenLog.Libxl.JobLock.effect_of_step` says once what a step can do, with the place of the thread
before it and all that it changes; everything proved about the lock goes through it. There are
three invariants: that the lock excludes, that the queue is counted right, and that no waiter is
stranded. Each is shown to be kept by the effects, and by the induction on runs it holds in every
state that is reached.

## What is left out

The driver lock is not modelled, so the threads here have all the freedom it would take away. The
status file that some of the functions rewrite is left out.
-/

namespace OpenLog

namespace Libxl

namespace JobLock

/-! ### Threads and states -/

/-- A thread inside `libxlDomainObjBeginJobInternal`: the arguments and the time it
read at the start. -/
structure Starter where
  call : BeginCall
  now : ℕ
  deriving DecidableEq

/-- Where a thread is while the domain is unlocked. -/
inductive Pc where
  /-- Outside the functions of the lock. -/
  | idle
  /-- Asleep in `virCondWaitUntil`. -/
  | asleep (cv : CondVar) (r : Starter)
  /-- Woken, about to look at the job object again. -/
  | woken (cv : CondVar) (r : Starter)
  /-- Woken by the timeout or an error, about to run the error path. -/
  | waitFailed (cv : CondVar) (r : Starter) (errno : Errno)
  /-- Has taken its job and is taking the driver lock and the domain lock again. -/
  | relockTaken (r : Starter)
  /-- Has been refused and is taking the driver lock and the domain lock again. -/
  | relockRefused (r : Starter)
  deriving DecidableEq

variable {Tid : Type*}

/-- The domain as the lock sees it, and its threads. -/
structure State (Tid : Type*) where
  job : JobObj Tid
  jobsQueued : ℤ
  refs : ℤ
  pc : Tid → Pc
  normalHeld : Tid → ℕ
  asyncHeld : Tid → ℕ
  lastError : Tid → Option BeginError

/-- A domain without jobs, with `refs` references held by others. -/
def init (refs : ℤ) : State Tid where
  job := domainObjInitJob
  jobsQueued := 0
  refs := refs
  pc := fun _ => .idle
  normalHeld := fun _ => 0
  asyncHeld := fun _ => 0
  lastError := fun _ => none

/-- The steps of the threads. -/
inductive Act (Tid : Type*) where
  /-- Calls one of the four starting functions; `clock` is what `virTimeMillisNow`
  gives and `errno` what an earlier call has left. -/
  | begin (t : Tid) (call : BeginCall) (clock : Option ℕ) (errno : Errno)
  | wakeSpuriously (t : Tid)
  | waitFails (t : Tid) (errno : Errno)
  | resume (t : Tid) (errno : Errno)
  | relock (t : Tid)
  /-- `w` is the thread that the signal wakes. -/
  | endJob (t : Tid) (w : Option Tid)
  | endAsyncJob (t : Tid)
  | setAsyncJobMask (t : Tid) (allowedJobs : BitVec 64)

/-- Asleep on `job.cond`. -/
def Pc.onCond : Pc → Prop
  | .asleep .cond _ => True
  | _ => False

/-- Asleep on `job.asyncCond`. -/
def Pc.onAsyncCond : Pc → Prop
  | .asleep .asyncCond _ => True
  | _ => False

/-- Between a wake-up and the recheck. -/
def Pc.isWoken : Pc → Prop
  | .woken _ _ => True
  | _ => False

instance : DecidablePred Pc.onCond
  | .asleep .cond _ => .isTrue trivial
  | .asleep .asyncCond _ | .idle | .woken _ _ | .waitFailed _ _ _ | .relockTaken _
  | .relockRefused _ => .isFalse id

instance : DecidablePred Pc.onAsyncCond
  | .asleep .asyncCond _ => .isTrue trivial
  | .asleep .cond _ | .idle | .woken _ _ | .waitFailed _ _ _ | .relockTaken _
  | .relockRefused _ => .isFalse id

instance : DecidablePred Pc.isWoken
  | .woken _ _ => .isTrue trivial
  | .asleep _ _ | .idle | .waitFailed _ _ _ | .relockTaken _ | .relockRefused _ => .isFalse id

/-- A sleeper that is woken; other threads are left alone. -/
def Pc.wake : Pc → Pc
  | .asleep cv r => .woken cv r
  | p => p

/-- What a broadcast on `job.asyncCond` does to a thread. -/
def Pc.hearBroadcast (p : Pc) : Pc := if p.onAsyncCond then p.wake else p

/-- The threads of the runs that are computed below. -/
def t₀ : Fin 3 := ⟨0, by decide⟩

def t₁ : Fin 3 := ⟨1, by decide⟩

def t₂ : Fin 3 := ⟨2, by decide⟩

/-! ### The functions of the lock -/

namespace State

variable [DecidableEq Tid]

/-- Moves one thread. -/
def setPc (s : State Tid) (t : Tid) (p : Pc) : State Tid :=
  { s with pc := Function.update s.pc t p }

/-- The error path of `libxlDomainObjBeginJobInternal`, up to where it drops the
domain lock if it does. -/
def fail (maxQueued : ℤ) (s : State Tid) (t : Tid) (r : Starter) (errno : Errno) : State Tid :=
  let s := { s with
    lastError := Function.update s.lastError t (some (beginError errno maxQueued s.jobsQueued)) }
  let s := { s with jobsQueued := s.jobsQueued - 1 }
  if r.call.driverLocked then s.setPc t (.relockRefused r)
  else { s with refs := s.refs - 1 }.setPc t .idle

/-- Taking the job, up to where the domain lock is dropped if it is. -/
def take (s : State Tid) (t : Tid) (r : Starter) : State Tid :=
  let s := { s with job := takeJob s.job t r.call r.now }
  let s :=
    if r.call.job ≠ .async then
      { s with normalHeld := Function.update s.normalHeld t (s.normalHeld t + 1) }
    else { s with asyncHeld := Function.update s.asyncHeld t (s.asyncHeld t + 1) }
  s.setPc t (if r.call.driverLocked then .relockTaken r else .idle)

/-- The end of a section of `libxlDomainObjBeginJobInternal`. -/
def finish (maxQueued : ℤ) (s : State Tid) (t : Tid) (r : Starter) (errno : Errno) :
    Outcome → State Tid
  | .wait cv => s.setPc t (.asleep cv r)
  | .error => s.fail maxQueued t r errno
  | .start => s.take t r

/-- The start of `libxlDomainObjBeginJobInternal`, once the clock is read. -/
def enqueue (s : State Tid) : State Tid :=
  { s with jobsQueued := s.jobsQueued + 1, refs := s.refs + 1 }

/-- `libxlDomainObjEndJob` without its signal. -/
def release (s : State Tid) (t : Tid) : State Tid :=
  { s with
    jobsQueued := s.jobsQueued - 1
    job := domainObjResetJob s.job
    refs := s.refs - 1
    normalHeld := Function.update s.normalHeld t (s.normalHeld t - 1) }

/-- `virCondSignal` on `job.cond`, waking the thread `w`. -/
def signal (s : State Tid) : Option Tid → State Tid
  | none => s
  | some w => s.setPc w (s.pc w).wake

/-- `libxlDomainObjEndAsyncJob`. -/
def releaseAsync (s : State Tid) (t : Tid) : State Tid :=
  { s with
    jobsQueued := s.jobsQueued - 1
    job := domainObjResetAsyncJob s.job
    refs := s.refs - 1
    asyncHeld := Function.update s.asyncHeld t (s.asyncHeld t - 1)
    pc := fun u => (s.pc u).hearBroadcast }

end State

variable [Fintype Tid] [DecidableEq Tid]

/-- Whom a signal on `job.cond` can wake: one of the sleepers, nobody only if there
is none. -/
def CanWake (s : State Tid) : Option Tid → Prop
  | none => ∀ u, ¬(s.pc u).onCond
  | some w => (s.pc w).onCond

instance (s : State Tid) : (w : Option Tid) → Decidable (CanWake s w)
  | none => inferInstanceAs (Decidable (∀ u, ¬(s.pc u).onCond))
  | some w => inferInstanceAs (Decidable (s.pc w).onCond)

/-- One step of the lock. -/
def step (maxQueued : ℤ) (s : State Tid) : Act Tid → Option (State Tid)
  | .begin t call clock errno =>
    if s.pc t = .idle then
      match clock with
      -- `jobs_queued++` stands before the clock is read, and is not taken back
      | none => some { s with jobsQueued := s.jobsQueued + 1 }
      | some now =>
        let s := s.enqueue
        some (s.finish maxQueued t ⟨call, now⟩ errno
          (retry maxQueued s.jobsQueued s.job call.job))
    else none
  | .wakeSpuriously t =>
    match s.pc t with
    | .asleep cv r => some (s.setPc t (.woken cv r))
    | _ => none
  | .waitFails t errno =>
    match s.pc t with
    | .asleep cv r => some (s.setPc t (.waitFailed cv r errno))
    | _ => none
  | .resume t errno =>
    match s.pc t with
    -- a thread goes on in the loop in which it fell asleep
    | .woken .asyncCond r =>
      some (s.finish maxQueued t r errno (asyncLoop maxQueued s.jobsQueued s.job r.call.job))
    | .woken .cond r =>
      some (s.finish maxQueued t r errno (condLoop maxQueued s.jobsQueued s.job r.call.job))
    | .waitFailed _ r errno => some (s.fail maxQueued t r errno)
    | _ => none
  | .relock t =>
    -- the error path gives its reference back with both locks taken again
    match s.pc t with
    | .relockTaken _ => some (s.setPc t .idle)
    | .relockRefused _ => some ({ s with refs := s.refs - 1 }.setPc t .idle)
    | _ => none
  | .endJob t w =>
    if s.pc t = .idle ∧ 0 < s.normalHeld t ∧ CanWake s w then some ((s.release t).signal w)
    else none
  | .endAsyncJob t =>
    if s.pc t = .idle ∧ 0 < s.asyncHeld t then some (s.releaseAsync t) else none
  | .setAsyncJobMask t allowedJobs =>
    if s.pc t = .idle ∧ 0 < s.asyncHeld t ∧ MaskOk allowedJobs then
      some { s with job := domainObjSetAsyncJobMask s.job allowedJobs }
    else none

/-! ### What a step can do -/

/-- The effects of the steps, with what is known of the state each starts from. -/
inductive Effect (maxQueued : ℤ) (s : State Tid) : Act Tid → State Tid → Prop where
  | clockFailed {t call errno} (hpc : s.pc t = .idle) :
      Effect maxQueued s (.begin t call none errno) { s with jobsQueued := s.jobsQueued + 1 }
  | begun {t call now errno out} (hpc : s.pc t = .idle)
      (hout : out.Justified maxQueued (s.jobsQueued + 1) s.job call.job)
      (herror : out ≠ .error → queueFull maxQueued (s.jobsQueued + 1) = false) :
      Effect maxQueued s (.begin t call (some now) errno)
        (s.enqueue.finish maxQueued t ⟨call, now⟩ errno out)
  | rechecked {t cv r errno out} (hpc : s.pc t = .woken cv r)
      (hout : out.Justified maxQueued s.jobsQueued s.job r.call.job)
      (herror : out = .error → domainNestedJobAllowed s.job r.call.job = false) :
      Effect maxQueued s (.resume t errno) (s.finish maxQueued t r errno out)
  | gaveUp {t cv r errno errno'} (hpc : s.pc t = .waitFailed cv r errno) :
      Effect maxQueued s (.resume t errno') (s.fail maxQueued t r errno)
  | wokeUp {t cv r} (hpc : s.pc t = .asleep cv r) :
      Effect maxQueued s (.wakeSpuriously t) (s.setPc t (.woken cv r))
  | waitFailed {t cv r errno} (hpc : s.pc t = .asleep cv r) :
      Effect maxQueued s (.waitFails t errno) (s.setPc t (.waitFailed cv r errno))
  | relockedTaken {t r} (hpc : s.pc t = .relockTaken r) :
      Effect maxQueued s (.relock t) (s.setPc t .idle)
  | relockedRefused {t r} (hpc : s.pc t = .relockRefused r) :
      Effect maxQueued s (.relock t) ({ s with refs := s.refs - 1 }.setPc t .idle)
  | ended {t w} (hpc : s.pc t = .idle) (hheld : 0 < s.normalHeld t) (hw : CanWake s w) :
      Effect maxQueued s (.endJob t w) ((s.release t).signal w)
  | endedAsync {t} (hpc : s.pc t = .idle) (hheld : 0 < s.asyncHeld t) :
      Effect maxQueued s (.endAsyncJob t) (s.releaseAsync t)
  | masked {t allowedJobs} (hpc : s.pc t = .idle) (hheld : 0 < s.asyncHeld t)
      (hmask : MaskOk allowedJobs) :
      Effect maxQueued s (.setAsyncJobMask t allowedJobs)
        { s with job := domainObjSetAsyncJobMask s.job allowedJobs }

/-- **Every step has one of the effects listed.** -/
theorem effect_of_step {maxQueued : ℤ} {s s' : State Tid} {a : Act Tid}
    (h : step maxQueued s a = some s') : Effect maxQueued s a s' := by
  cases a with
  | begin t call clock errno =>
    simp only [step] at h
    split_ifs at h with hpc
    cases clock with
    | none => cases h; exact .clockFailed hpc
    | some now => cases h; exact .begun hpc retry_justified queueFull_of_retry_ne_error
  | wakeSpuriously t =>
    simp only [step] at h
    split at h
    · rename_i hpc
      cases h
      exact .wokeUp hpc
    · cases h
  | waitFails t errno =>
    simp only [step] at h
    split at h
    · rename_i hpc
      cases h
      exact .waitFailed hpc
    · cases h
  | resume t errno =>
    simp only [step] at h
    split at h
    · rename_i hpc
      cases h
      exact .rechecked hpc asyncLoop_justified fun herror => absurd herror asyncLoop_ne_error
    · rename_i hpc
      cases h
      exact .rechecked hpc condLoop_justified nested_of_condLoop_eq_error
    · rename_i hpc
      cases h
      exact .gaveUp hpc
    · cases h
  | relock t =>
    simp only [step] at h
    split at h
    · rename_i hpc
      cases h
      exact .relockedTaken hpc
    · rename_i hpc
      cases h
      exact .relockedRefused hpc
    · cases h
  | endJob t w =>
    simp only [step] at h
    split_ifs at h with hguard
    cases h
    exact .ended hguard.1 hguard.2.1 hguard.2.2
  | endAsyncJob t =>
    simp only [step] at h
    split_ifs at h with hguard
    cases h
    exact .endedAsync hguard.1 hguard.2
  | setAsyncJobMask t allowedJobs =>
    simp only [step] at h
    split_ifs at h with hguard
    cases h
    exact .masked hguard.1 hguard.2.1 hguard.2.2

/-! ### Reachable states -/

/-- The states the lock starts in. -/
def Initial (refs : ℤ) (s : State Tid) : Prop := s = init refs

/-- The states the lock reaches, for some number of references held by others. -/
def Reachable (maxQueued : ℤ) (s : State Tid) : Prop :=
  ∃ refs, Logic.Reach (step maxQueued) (Initial refs) s

theorem Reachable.of_exec {maxQueued refs : ℤ} {s : State Tid} {as : List (Act Tid)}
    (h : Logic.exec (step maxQueued) (init refs) as = some s) : Reachable maxQueued s :=
  ⟨refs, Logic.Reach.of_exec (Logic.Reach.start (I := Initial refs) rfl) h⟩

end JobLock

end Libxl

end OpenLog
