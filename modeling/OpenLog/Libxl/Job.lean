import Mathlib.Data.Nat.Notation
import Mathlib.Data.Int.Notation
import Mathlib.Tactic.SplitIfs

/-!
# The job object of a domain

The job fields that the libxl driver keeps for one domain, and the functions that
read and write them while the domain is locked. A *normal* job sits in `active`
and an *asynchronous* one in `asyncJob`; while the second runs, only the normal
jobs whose bit is in `mask` may start beside it.

The one function with a loop, `libxlDomainObjBeginJobInternal`, is cut at the
points where it gives up the domain lock. What lies between two such points is
one of the functions `OpenLog.Libxl.retry`, `OpenLog.Libxl.asyncLoop` and
`OpenLog.Libxl.condLoop`, named after the label or the loop they start from; each
says how the section ends, with a wait, with the error label or with the job
taken. The threads that run them are in `OpenLog.Libxl.JobLock`.

Thread ids are a type `Tid`; the `0` that the source writes for no owner is `none`.
-/

namespace OpenLog

namespace Libxl

/-! ### Jobs and their masks -/

/-- `enum libxlDomainJob`. -/
inductive DomainJob where
  | none
  | destroy
  | modify
  | abort
  | migrationOp
  /-- Stands for every asynchronous job; never stored in `active`. -/
  | async
  deriving DecidableEq, Repr

/-- The value of the enumeration. -/
def DomainJob.num : DomainJob → ℕ
  | none => 0
  | destroy => 1
  | modify => 2
  | abort => 3
  | migrationOp => 4
  | async => 5

/-- `enum libxlDomainAsyncJob`. -/
inductive DomainAsyncJob where
  | none
  | migrationOut
  | migrationIn
  | save
  | restore
  | dump
  deriving DecidableEq, Repr

/-- `JOB_MASK`. -/
def jobMask (job : DomainJob) : BitVec 64 := 1#64 <<< (job.num - 1)

/-- `DEFAULT_JOB_MASK`. -/
def defaultJobMask : BitVec 64 := jobMask .destroy ||| jobMask .abort

/-- No asynchronous job may start beside another one. -/
def MaskOk (mask : BitVec 64) : Prop := mask &&& jobMask .async = 0#64

instance (mask : BitVec 64) : Decidable (MaskOk mask) :=
  inferInstanceAs (Decidable (_ = _))

/-- Neither the mask at the start -/
theorem maskOk_zero : MaskOk 0#64 := by decide

/-- nor the default mask allows one. -/
theorem maskOk_default : MaskOk defaultJobMask := by decide

/-- A mask with the `DESTROY` bit added is still without the `ASYNC` bit. -/
theorem MaskOk.or_destroy {mask : BitVec 64} (h : MaskOk mask) :
    MaskOk (mask ||| jobMask .destroy) := by
  have hdestroy : jobMask .destroy &&& jobMask .async = 0#64 := by decide
  unfold MaskOk at h ⊢
  rw [BitVec.and_or_distrib_right, h, hdestroy, BitVec.or_zero]

/-! ### The job object -/

/-- The `type` field of `virDomainJobInfo`, as far as the driver writes it. -/
inductive JobInfoType where
  | none
  | unbounded
  deriving DecidableEq, Repr

/-- `struct libxlDomainJobObj`, without its two condition variables. -/
structure JobObj (Tid : Type*) where
  active : DomainJob
  owner : Option Tid
  asyncJob : DomainAsyncJob
  asyncOwner : Option Tid
  phase : ℕ
  mask : BitVec 64
  start : ℕ
  infoType : JobInfoType

variable {Tid : Type*}

/-- `libxlDomainObjInitJob`: everything zero. -/
def domainObjInitJob : JobObj Tid :=
  ⟨.none, none, .none, none, 0, 0#64, 0, .none⟩

/-- `libxlDomainObjResetJob`. -/
def domainObjResetJob (job : JobObj Tid) : JobObj Tid :=
  { job with active := .none, owner := none }

/-- `libxlDomainObjResetAsyncJob`. -/
def domainObjResetAsyncJob (job : JobObj Tid) : JobObj Tid :=
  { job with
    asyncJob := .none
    asyncOwner := none
    phase := 0
    mask := defaultJobMask
    start := 0
    infoType := .none }

/-- `libxlDomainNestedJobAllowed`. -/
def domainNestedJobAllowed (jobObj : JobObj Tid) (job : DomainJob) : Bool :=
  jobObj.asyncJob = .none || jobObj.mask &&& jobMask job ≠ 0#64

/-- `libxlDomainObjSetAsyncJobMask`. -/
def domainObjSetAsyncJobMask (job : JobObj Tid) (allowedJobs : BitVec 64) : JobObj Tid :=
  if job.asyncJob = .none then job
  else { job with mask := allowedJobs ||| jobMask .destroy }

/-! ### Starting a job -/

/-- The arguments of `libxlDomainObjBeginJobInternal`. Its four callers pass a
normal job without an asynchronous one, or `ASYNC` with one. -/
structure BeginCall where
  driverLocked : Bool
  job : DomainJob
  asyncJob : DomainAsyncJob
  none_iff_async : asyncJob = .none ↔ job ≠ .async
  job_ne_none : job ≠ .none
  deriving DecidableEq

/-- The jobs that the callers begin are of the kinds that `BeginCall` asks for. -/
theorem modify_normal : DomainJob.modify ≠ .none ∧ DomainJob.modify ≠ .async := by decide

theorem save_ne_none : DomainAsyncJob.save ≠ .none := by decide

theorem restore_ne_none : DomainAsyncJob.restore ≠ .none := by decide

theorem dump_ne_none : DomainAsyncJob.dump ≠ .none := by decide

theorem migrationOut_ne_none : DomainAsyncJob.migrationOut ≠ .none := by decide

theorem async_ne_none : DomainJob.async ≠ .none := by decide

/-- `libxlDomainObjBeginJob`, called as it is everywhere with a normal job. -/
def domainObjBeginJob (job : DomainJob) (h : job ≠ .none ∧ job ≠ .async) : BeginCall :=
  ⟨false, job, .none, by simp [h.2], h.1⟩

/-- `libxlDomainObjBeginAsyncJob`. -/
def domainObjBeginAsyncJob (asyncJob : DomainAsyncJob) (h : asyncJob ≠ .none) : BeginCall :=
  ⟨false, .async, asyncJob, by simp [h], async_ne_none⟩

/-- `libxlDomainObjBeginJobWithDriver`, which refuses what is not a normal job. -/
def domainObjBeginJobWithDriver (job : DomainJob) : Option BeginCall :=
  if h : job.num ≤ DomainJob.none.num ∨ DomainJob.async.num ≤ job.num then none
  else some ⟨true, job, .none, by cases job <;> simp_all [DomainJob.num],
    by cases job <;> simp_all [DomainJob.num]⟩

/-- `libxlDomainObjBeginAsyncJobWithDriver`. -/
def domainObjBeginAsyncJobWithDriver (asyncJob : DomainAsyncJob) (h : asyncJob ≠ .none) :
    BeginCall :=
  ⟨true, .async, asyncJob, by simp [h], async_ne_none⟩

/-- The two condition variables of the job object. -/
inductive CondVar where
  | cond
  | asyncCond
  deriving DecidableEq, Repr

/-- How a section of `libxlDomainObjBeginJobInternal` ends. -/
inductive Outcome where
  | wait (cv : CondVar)
  | error
  | start
  deriving DecidableEq, Repr

section Sections

variable (maxQueued jobsQueued : ℤ) (jobObj : JobObj Tid) (job : DomainJob)

/-- The `max_queued` check that follows the label `retry`. -/
def queueFull : Bool := maxQueued ≠ 0 && decide (maxQueued < jobsQueued)

/-- The loop on `job.cond` and what follows it; `again` is how the section ends if
it jumps back to `retry`. -/
def condLoopThen (again : Outcome) : Outcome :=
  if jobObj.active ≠ .none then .wait .cond
  else if !domainNestedJobAllowed jobObj job then again
  else .start

/-- The loop on `job.asyncCond` and what follows it. -/
def asyncLoopThen (again : Outcome) : Outcome :=
  if !domainNestedJobAllowed jobObj job then .wait .asyncCond
  else condLoopThen jobObj job again

/-- The section that starts at the label `retry`. The jump back to the label is
only taken where the loop on `job.asyncCond` would have waited, so the section
comes by the label once. -/
def retry : Outcome :=
  if queueFull maxQueued jobsQueued then .error
  else asyncLoopThen jobObj job .error

/-- The section that starts at a wake-up on `job.asyncCond`. -/
def asyncLoop : Outcome := asyncLoopThen jobObj job (retry maxQueued jobsQueued jobObj job)

/-- The section that starts at a wake-up on `job.cond`. -/
def condLoop : Outcome := condLoopThen jobObj job (retry maxQueued jobsQueued jobObj job)

variable {maxQueued jobsQueued jobObj job}

/-- Where the jump back leads does not matter to the loop on `job.asyncCond`. -/
theorem asyncLoopThen_congr (again again' : Outcome) :
    asyncLoopThen jobObj job again = asyncLoopThen jobObj job again' := by
  unfold asyncLoopThen condLoopThen
  cases domainNestedJobAllowed jobObj job <;> simp

/-- **The label is where the jump goes**: `retry` is the solution of the source's
recursion. -/
theorem retry_eq :
    retry maxQueued jobsQueued jobObj job =
      if queueFull maxQueued jobsQueued then .error
      else asyncLoopThen jobObj job (retry maxQueued jobsQueued jobObj job) := by
  rw [asyncLoopThen_congr (retry maxQueued jobsQueued jobObj job) .error]
  rfl

variable (maxQueued jobsQueued jobObj job) in
/-- What each end of a section says about the job object it left. -/
def Outcome.Justified : Outcome → Prop
  | .wait .cond => jobObj.active ≠ .none
  | .wait .asyncCond => domainNestedJobAllowed jobObj job = false
  | .error => queueFull maxQueued jobsQueued = true
  | .start => jobObj.active = .none ∧ domainNestedJobAllowed jobObj job = true

/-- Each section leaves the loops where their conditions say so. The one on `job.cond` ends
with a wait only while a normal job is active, and with a start only where the nested job is
allowed; -/
theorem condLoopThen_justified {again : Outcome}
    (h : again.Justified maxQueued jobsQueued jobObj job) :
    (condLoopThen jobObj job again).Justified maxQueued jobsQueued jobObj job := by
  unfold condLoopThen
  split_ifs with hactive hnested
  · exact hactive
  · exact h
  · exact ⟨by simpa using hactive, by simpa using hnested⟩

/-- the one on `job.asyncCond` ends with a wait only where it is not. -/
theorem asyncLoopThen_justified (again : Outcome) :
    (asyncLoopThen jobObj job again).Justified maxQueued jobsQueued jobObj job := by
  unfold asyncLoopThen condLoopThen
  split_ifs with hnested hactive
  · simpa [Outcome.Justified] using hnested
  · exact hactive
  · exact ⟨by simpa using hactive, by simpa using hnested⟩

/-- With the check at the label the error is justified, too, -/
theorem retry_justified :
    (retry maxQueued jobsQueued jobObj job).Justified maxQueued jobsQueued jobObj job := by
  unfold retry
  split_ifs with hfull
  · exact hfull
  · exact asyncLoopThen_justified _

/-- A section that comes by the label without an error has passed its check. -/
theorem queueFull_of_retry_ne_error (h : retry maxQueued jobsQueued jobObj job ≠ .error) :
    queueFull maxQueued jobsQueued = false := by
  rw [Bool.eq_false_iff]
  intro hfull
  exact h (by simp [retry, hfull])

/-- and so are the ends of the sections that start at a wake-up. -/
theorem asyncLoop_justified :
    (asyncLoop maxQueued jobsQueued jobObj job).Justified maxQueued jobsQueued jobObj job :=
  asyncLoopThen_justified _

/-- After a wake-up on `job.asyncCond` there is no way to the error label. -/
theorem asyncLoop_ne_error : asyncLoop maxQueued jobsQueued jobObj job ≠ .error := by
  unfold asyncLoop asyncLoopThen condLoopThen
  cases domainNestedJobAllowed jobObj job <;> simp [apply_ite (· = Outcome.error)]

/-- After a wake-up on `job.cond` the error label is reached through `retry` only. -/
theorem nested_of_condLoop_eq_error (h : condLoop maxQueued jobsQueued jobObj job = .error) :
    domainNestedJobAllowed jobObj job = false := by
  unfold condLoop condLoopThen at h
  split_ifs at h with hactive hnested
  simpa using hnested

theorem condLoop_justified :
    (condLoop maxQueued jobsQueued jobObj job).Justified maxQueued jobsQueued jobObj job :=
  condLoopThen_justified retry_justified

end Sections

/-- The job object once thread `t` has taken the job; `now` is the time the call
read when it began. -/
def takeJob (jobObj : JobObj Tid) (t : Tid) (call : BeginCall) (now : ℕ) : JobObj Tid :=
  let jobObj := domainObjResetJob jobObj
  if call.job ≠ .async then { jobObj with active := call.job, owner := some t }
  else
    { domainObjResetAsyncJob jobObj with
      asyncJob := call.asyncJob, asyncOwner := some t, start := now }

/-- A normal job leaves the asynchronous one beside it alone. -/
theorem takeJob_of_ne_async {jobObj : JobObj Tid} {t : Tid} {call : BeginCall} {now : ℕ}
    (h : call.job ≠ .async) :
    takeJob jobObj t call now = { jobObj with active := call.job, owner := some t } := by
  simp [takeJob, h, domainObjResetJob]

/-- An asynchronous job starts with the default mask and the time of the call. -/
theorem takeJob_of_async {jobObj : JobObj Tid} {t : Tid} {call : BeginCall} {now : ℕ}
    (h : call.job = .async) :
    takeJob jobObj t call now =
      { domainObjResetAsyncJob (domainObjResetJob jobObj) with
        asyncJob := call.asyncJob, asyncOwner := some t, start := now } := by
  simp [takeJob, h]

/-! ### Failing to start a job -/

/-- The thread's `errno`, as far as the error path tells its values apart. -/
inductive Errno where
  | etimedout
  | other (code : ℕ)
  deriving DecidableEq, Repr

/-- What the error path of `libxlDomainObjBeginJobInternal` reports. -/
inductive BeginError where
  | operationTimeout
  | maxQueued
  | system (errno : Errno)
  deriving DecidableEq, Repr

/-- The text of the report. -/
def BeginError.text : BeginError → String
  | operationTimeout => "cannot acquire state change lock"
  | maxQueued => "cannot acquire state change lock due to max_queued limit"
  | system _ => "cannot acquire job mutex"

/-- The choice of the report. `errno` is read on every way to the error label, also
on the one where no call has set it. -/
def beginError (errno : Errno) (maxQueued jobsQueued : ℤ) : BeginError :=
  if errno = .etimedout then .operationTimeout
  else if queueFull maxQueued jobsQueued then .maxQueued
  else .system errno

end Libxl

end OpenLog
