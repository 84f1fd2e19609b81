import OpenLog.Libxl.DomainList
import OpenLog.Libxl.JobPairing
import OpenLog.Libxl.Patch1102.Domain

/-!
# Ending the kind of job that was begun

The job functions of the later series come in two variants, for a normal job and for an
asynchronous one, which reset different fields of the job object and wake up different threads.
Here the job object itself is followed through a call, on a domain that has no other job
(`OpenLog.Libxl.Patch1102.JobTrack`).

RestoreFlags begins a normal job. If the guest of a transient domain cannot be started it ends an
asynchronous one, and the domain keeps its normal job for ever. All other calls that save,
restore, dump or destroy a domain end the job that they have begun
(`OpenLog.Libxl.Patch1102.endedAsBegun_iff`).
-/

namespace OpenLog

namespace Libxl

namespace Patch1102

open Logic

/-! ### The job object in a call -/

/-- The condition variable on which the threads wait for the end of a job. -/
def condOf : JobKind → CondVar
  | .normal => .cond
  | .async => .asyncCond

/-- The job object of the domain, with what a call has done to it. -/
structure JobTrack (Tid : Type*) where
  job : JobObj Tid
  /-- The kind of the job that was begun. -/
  begun : Option JobKind
  /-- The kinds of the jobs that were ended. -/
  ended : List JobKind
  /-- The condition variables on which threads were woken. -/
  woken : List CondVar
  /-- The domain was asked whether it is persistent, and is not. RestoreFlags asks after its
  guest could not be started. -/
  transient : Bool

namespace JobTrack

variable {Tid : Type*} (me : Tid) (now : ℕ)

/-- Nothing is done yet, to the job object `job`. -/
def start (job : JobObj Tid) : JobTrack Tid := ⟨job, none, [], [], false⟩

/-- What thread `me` does to the job object with a call, the clock being at `now` when it begins
a job. -/
def next (l : JobTrack Tid) : (o : Op) → Res o → JobTrack Tid
  | .begin call, .ok => { l with job := takeJob l.job me call now, begun := some call.kind }
  | .ask .endJob, _ =>
    { l with
      job := domainObjResetJob l.job
      ended := l.ended ++ [.normal]
      woken := l.woken ++ [.cond] }
  | .ask .endAsyncJob, _ =>
    { l with
      job := domainObjResetAsyncJob l.job
      ended := l.ended ++ [.async]
      woken := l.woken ++ [.asyncCond] }
  | .ask .isPersistent, persistent => { l with transient := !persistent }
  | _, _ => l

/-- The job object as a monitor without requirements. -/
def monitor : Monitor Res (JobTrack Tid) := ⟨next me now, fun _ _ => True⟩

@[simp] theorem monitor_next : (monitor me now).next = next me now := rfl

@[simp] theorem monitor_ok (l : JobTrack Tid) (o : Op) : (monitor me now).ok l o := trivial

/-- Starting a guest does nothing to the job object. -/
@[simp] theorem ignores_start (l : JobTrack Tid) : (monitor me now).Ignores Op.Start l := by
  rw [ignores_start_iff]
  simp [next]

/-- The job that was ended is of the kind that was begun, no job is left, and the threads that
waited for it were woken. -/
structure EndedAsBegun (l : JobTrack Tid) : Prop where
  kind : l.ended = l.begun.toList
  active : l.job.active = .none
  asyncJob : l.job.asyncJob = .none
  woken : ∀ kind ∈ l.begun, condOf kind ∈ l.woken

/-- The same as one conjunction, to which `simp` can bring the end of a call. -/
theorem endedAsBegun_iff_and {l : JobTrack Tid} : l.EndedAsBegun ↔ l.ended = l.begun.toList ∧
    l.job.active = .none ∧ l.job.asyncJob = .none ∧ ∀ kind ∈ l.begun, condOf kind ∈ l.woken :=
  ⟨fun h => ⟨h.kind, h.active, h.asyncJob, h.woken⟩, fun ⟨h₁, h₂, h₃, h₄⟩ => ⟨h₁, h₂, h₃, h₄⟩⟩

end JobTrack

/-! ### The calls -/

/-- The calls that save, restore, dump or destroy a domain. -/
inductive EndingCall where
  | doDomainSave
  | restoreFlags (flagsOk dxml : Bool)
  | coreDump (flags : DumpFlags)
  | destroyFlags (flagsOk : Bool)
  deriving DecidableEq

namespace EndingCall

def code : EndingCall → Code Int
  | doDomainSave => Patch1102.doDomainSave
  | restoreFlags flagsOk dxml => domainRestoreFlags flagsOk dxml
  | coreDump flags => domainCoreDump flags
  | destroyFlags flagsOk => domainDestroyFlags flagsOk

/-- The call does not restore a transient domain whose guest cannot be started. -/
def Careful {Tid : Type*} (l : JobTrack Tid) : EndingCall → Prop
  | restoreFlags _ _ => l.transient = false
  | doDomainSave | coreDump _ | destroyFlags _ => True

end EndingCall

namespace JobTrack

open EndingCall

variable {Tid : Type*} {me : Tid} {now : ℕ} {job : JobObj Tid}

attribute [local simp] next start Careful BeginCall.kind condOf takeJob domainObjResetJob
  domainObjResetAsyncJob endedAsBegun_iff_and

/-- The call ends the job that it has begun exactly if it is careful, whether it returns or
crashes. -/
def EndsIff (me : Tid) (now : ℕ) (job : JobObj Tid) (c : EndingCall) : Prop :=
  c.code.wp (monitor me now) (fun _ l => l.EndedAsBegun ↔ c.Careful l)
    (fun l => l.EndedAsBegun ↔ c.Careful l) (start job)

/-- `doDomainSave` begins an asynchronous job and ends one on every path. -/
theorem endsIff_save (hactive : job.active = .none) (hasync : job.asyncJob = .none) :
    EndsIff me now job .doDomainSave := by
  simp [EndsIff, code, Patch1102.doDomainSave, Libxl.doDomainSave, vmCleanup,
    domainObjBeginAsyncJobWithDriver, hactive, hasync]

/-- RestoreFlags begins a normal job. Where the guest could not be started and the domain is
transient, it is the asynchronous variant that it calls at the end; on its other paths it is
the normal one. -/
theorem endsIff_restoreFlags (hactive : job.active = .none) (hasync : job.asyncJob = .none)
    (flagsOk dxml : Bool) : EndsIff me now job (.restoreFlags flagsOk dxml) := by
  simp [EndsIff, code, domainRestoreFlags, modifyWithDriver, hactive, hasync]

/-- CoreDump has an asynchronous job, -/
theorem endsIff_coreDump (hactive : job.active = .none) (hasync : job.asyncJob = .none)
    (flags : DumpFlags) : EndsIff me now job (.coreDump flags) := by
  simp [EndsIff, code, domainCoreDump, domainCoreDump.dump, vmCleanup,
    domainObjBeginAsyncJobWithDriver, hactive, hasync]

/-- and DestroyFlags a normal one. -/
theorem endsIff_destroyFlags (hactive : job.active = .none) (hasync : job.asyncJob = .none)
    (flagsOk : Bool) : EndsIff me now job (.destroyFlags flagsOk) := by
  simp [EndsIff, code, Patch1102.domainDestroyFlags, Libxl.domainDestroyFlags, vmCleanup,
    destroyWithDriver, hactive, hasync]

/-- All four, on a domain that has no job. -/
theorem endsIff_code (hactive : job.active = .none) (hasync : job.asyncJob = .none)
    (c : EndingCall) : EndsIff me now job c := by
  rcases c with _ | ⟨flagsOk, dxml⟩ | flags | flagsOk
  · exact endsIff_save hactive hasync
  · exact endsIff_restoreFlags hactive hasync flagsOk dxml
  · exact endsIff_coreDump hactive hasync flags
  · exact endsIff_destroyFlags hactive hasync flagsOk

end JobTrack

/-! ### Runs -/

section Runs

variable {Tid : Type*} {me : Tid} {now : ℕ} {job : JobObj Tid} {c : EndingCall}
variable {tr : List (Event Res)} {out : Option Int}

/-- The job object after a run of thread `me`. -/
def jobTrack (me : Tid) (now : ℕ) (job : JobObj Tid) (tr : List (Event Res)) : JobTrack Tid :=
  (JobTrack.monitor me now).run (.start job) tr

/-- **Which calls end the kind of job that they have begun.** On a domain without another job,
and however its operations are answered, a call ends the job that it has begun, leaves no job
and wakes up the threads that waited for it, exactly if it is careful. Three of the four calls
always are; the fourth is not where it restores a transient domain whose guest cannot be
started. -/
theorem endedAsBegun_iff (hactive : job.active = .none) (hasync : job.asyncJob = .none)
    (h : c.code.Runs tr out) :
    (jobTrack me now job tr).EndedAsBegun ↔ c.Careful (jobTrack me now job tr) := by
  have hends : JobTrack.EndsIff me now job c := JobTrack.endsIff_code hactive hasync c
  obtain ⟨hret, hcrash⟩ := Prog.wp_sound hends h
  rcases out with _ | a
  · exact hcrash rfl
  · exact hret a rfl

end Runs

/-- A domain that is restored has no job left. -/
theorem endedAsBegun_restore : (jobTrack true 7 domainObjInitJob
    ((EndingCall.restoreFlags true false).code.eval allWell).1).EndedAsBegun :=
  (endedAsBegun_iff rfl rfl (Prog.runs_eval allWell _)).mpr (show _ = false by decide)

/-- **A transient domain that cannot be restored** keeps the normal job of the call. -/
theorem restore_keeps_job : ∃ tr,
    (EndingCall.restoreFlags true false).code.Runs tr (some (-1)) ∧
      (jobTrack true 7 domainObjInitJob tr).begun = some .normal ∧
      (jobTrack true 7 domainObjInitJob tr).ended = [.async] ∧
      (jobTrack true 7 domainObjInitJob tr).job.active = .modify ∧
      ¬(jobTrack true 7 domainObjInitJob tr).EndedAsBegun := by
  refine ⟨_, Prog.runs_eval guestNotCreated _, by decide, by decide, by decide, fun h => ?_⟩
  exact absurd h.active (by decide)

end Patch1102

end Libxl

end OpenLog
