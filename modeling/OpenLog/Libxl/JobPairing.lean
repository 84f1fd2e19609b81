import OpenLog.Libxl.Domain
import OpenLog.Libxl.JobLock.Slots

/-!
# Jobs are ended where they were begun

The entry points of the driver start a job, work, and end it. The calls that a run
makes are followed by `OpenLog.Libxl.Ledger`, which notes the job held, whether a job
was ended that was not begun, and what the run has added to the queue and to the
references of the domain. A run is paired (`OpenLog.Libxl.JobsPaired`) if the ledger
closes at zero and no job of another thread is cleared, whatever the others do in
between; what they can do is what the slots of `OpenLog.Libxl.Slots` allow, and that takes in
every run of the lock (`OpenLog.Libxl.others_of_run`).

Two things go wrong. `libxlDomainSuspend` ends a job of a running domain without
starting one (`OpenLog.Libxl.suspend_not_paired`), and a clock that cannot be read
leaves the queue one too long. All other runs of all entry points are paired
(`OpenLog.Libxl.jobsPaired_iff`).
-/

namespace OpenLog

namespace Libxl

open Logic

/-! ### The ledger of a run -/

/-- The two kinds of jobs. -/
inductive JobKind where
  | normal
  | async
  deriving DecidableEq, Repr

/-- The kind of job a call starts. -/
def BeginCall.kind (call : BeginCall) : JobKind :=
  if call.job = .async then .async else .normal

/-- What a run has done to the jobs of its domain. -/
structure Ledger where
  /-- The job the run holds. -/
  held : Option JobKind
  /-- A job was ended that the run did not hold, or begun on top of another. -/
  astray : Bool
  /-- The change of `jobs_queued`. -/
  queued : ℤ
  /-- The change of the references that jobs keep. -/
  refs : ℤ
  /-- The clock could not be read. -/
  clockFailed : Bool
  /-- The domain was found active. -/
  foundActive : Bool
  deriving DecidableEq

namespace Ledger

/-- Nothing done yet. -/
def start : Ledger := ⟨none, false, 0, 0, false, false⟩

/-- A job is begun. -/
def gotJob (l : Ledger) (kind : JobKind) : Ledger :=
  { l with
    held := some kind
    astray := l.astray || l.held.isSome
    queued := l.queued + 1
    refs := l.refs + 1 }

/-- A job is ended, rightly or not. -/
def endedJob (l : Ledger) (kind : JobKind) : Ledger :=
  { l with
    held := none
    astray := l.astray || l.held ≠ some kind
    queued := l.queued - 1
    refs := l.refs - 1 }

/-- One call. -/
def next (l : Ledger) : (o : Op) → Res o → Ledger
  | .begin call, .ok => l.gotJob call.kind
  | .begin _, .refused => l
  | .begin _, .clockFailed => { l with queued := l.queued + 1, clockFailed := true }
  | .ask .endJob, _ => l.endedJob .normal
  | .ask .endAsyncJob, _ => l.endedJob .async
  | .ask .isActive, active => { l with foundActive := l.foundActive || active }
  | _, _ => l

/-- The ledger as a monitor without requirements. -/
def monitor : Monitor Res Ledger := ⟨next, fun _ _ => True⟩

@[simp] theorem monitor_next : monitor.next = next := rfl

@[simp] theorem monitor_ok (l : Ledger) (o : Op) : monitor.ok l o := trivial

/-- The ledger does not look at what cleaning up consists of. -/
@[simp] theorem ignores_cleanup (l : Ledger) : monitor.Ignores Op.Cleanup l := by
  rw [ignores_cleanup_iff]
  simp [next]

/-- Nor at what starting consists of. -/
@[simp] theorem ignores_start (l : Ledger) : monitor.Ignores Op.Start l := by
  rw [ignores_start_iff]
  simp [next]

/-- Closed at zero. -/
structure Settled (l : Ledger) : Prop where
  held : l.held = none
  astray : l.astray = false
  queued : l.queued = 0
  refs : l.refs = 0

/-- The same as one conjunction, to which `simp` can bring the end of a run. -/
theorem settled_iff {l : Ledger} :
    l.Settled ↔ l.held = none ∧ l.astray = false ∧ l.queued = 0 ∧ l.refs = 0 :=
  ⟨fun h => ⟨h.held, h.astray, h.queued, h.refs⟩, fun ⟨h₁, h₂, h₃, h₄⟩ => ⟨h₁, h₂, h₃, h₄⟩⟩

end Ledger

/-! ### The entry points -/

namespace Ledger

attribute [local simp] next start gotJob endedJob

/-- How the ledger of a run closes: at zero unless the clock failed. -/
def Closes (l : Ledger) : Prop := l.Settled ↔ l.clockFailed = false

/-- The entry points one by one. In each of them the proof follows the program through all
answers; what it asks of the driver besides the jobs is ignored by the ledger. -/
theorem createXML_closes (flagsOk startPaused : Bool) :
    (domainCreateXML flagsOk startPaused).wp monitor (fun _ => Closes) Closes start := by
  simp [domainCreateXML, Closes, settled_iff, modifyWithDriver, BeginCall.kind]

theorem resume_closes : domainResume.wp monitor (fun _ => Closes) Closes start := by
  simp [domainResume, Closes, settled_iff, domainObjBeginJob, BeginCall.kind]

theorem shutdownWith_closes (request : Prim) (text : String) (flagsOk : Bool) :
    (domainShutdownWith request text flagsOk).wp monitor (fun _ => Closes) Closes start := by
  simp [domainShutdownWith, Closes, settled_iff, modifyWithDriver, BeginCall.kind]

/-- Destroying begins a job of its own kind, a normal one all the same. -/
theorem destroyFlags_closes (flagsOk : Bool) :
    (domainDestroyFlags flagsOk).wp monitor (fun _ => Closes) Closes start := by
  simp [domainDestroyFlags, Closes, settled_iff, destroyWithDriver, BeginCall.kind]

/-- SaveFlags, RestoreFlags and CoreDump begin an asynchronous job, with the driver locked. -/
theorem saveFlags_closes (flagsOk dxml : Bool) :
    (domainSaveFlags flagsOk dxml).wp monitor (fun _ => Closes) Closes start := by
  simp [domainSaveFlags, doDomainSave, Closes, settled_iff, domainObjBeginAsyncJobWithDriver,
    BeginCall.kind]

theorem restoreFlags_closes (flagsOk dxml : Bool) :
    (domainRestoreFlags flagsOk dxml).wp monitor (fun _ => Closes) Closes start := by
  simp [domainRestoreFlags, Closes, settled_iff, domainObjBeginAsyncJobWithDriver, BeginCall.kind]

theorem coreDump_closes (flags : DumpFlags) :
    (domainCoreDump flags).wp monitor (fun _ => Closes) Closes start := by
  simp [domainCoreDump, domainCoreDump.dump, Closes, settled_iff,
    domainObjBeginAsyncJobWithDriver, BeginCall.kind]

/-- Suspending starts no job, and ends one if it finds the domain active. -/
theorem suspend_closes : domainSuspend.wp monitor
    (fun _ l => l.clockFailed = false ∧ (l.Settled ↔ l.foundActive = false))
    (fun _ => False) start := by
  simp [domainSuspend, settled_iff]

/-- **How the ledger of each entry point closes.** -/
theorem entry_closes (e : Entry) : e.code.wp monitor
    (fun _ l => l.Settled ↔ l.clockFailed = false ∧ ¬(e = .suspend ∧ l.foundActive = true))
    (fun l => l.Settled ↔ l.clockFailed = false ∧ ¬(e = .suspend ∧ l.foundActive = true))
    start := by
  -- all entry points but one close at zero unless the clock failed
  have other : ∀ {p : Code Int}, e ≠ .suspend → p.wp monitor (fun _ => Closes) Closes start →
      p.wp monitor
        (fun _ l => l.Settled ↔ l.clockFailed = false ∧ ¬(e = .suspend ∧ l.foundActive = true))
        (fun l => l.Settled ↔ l.clockFailed = false ∧ ¬(e = .suspend ∧ l.foundActive = true))
        start := by
    intro p he hp
    have hcond : ∀ l : Ledger, l.Closes → (l.Settled ↔
        l.clockFailed = false ∧ ¬(e = .suspend ∧ l.foundActive = true)) := by
      intro l hl
      simpa [he, Closes] using hl
    exact Prog.wp_mono (fun _ => hcond) hcond hp
  cases e with
  | createXML flagsOk startPaused =>
    refine other (by simp) (Prog.wp_bind.mpr (Prog.wp_mono ?_ (fun _ => id)
      (createXML_closes flagsOk startPaused)))
    intro b l hl
    cases b <;> exact hl
  | suspend =>
    refine Prog.wp_mono (fun _ l hl => ?_) (fun _ h => h.elim) suspend_closes
    simp [hl.1, hl.2]
  | resume => exact other (by simp) resume_closes
  | shutdownFlags flagsOk => exact other (by simp) (shutdownWith_closes _ _ flagsOk)
  | reboot flagsOk => exact other (by simp) (shutdownWith_closes _ _ flagsOk)
  | destroyFlags flagsOk => exact other (by simp) (destroyFlags_closes flagsOk)
  | saveFlags flagsOk dxml => exact other (by simp) (saveFlags_closes flagsOk dxml)
  | restoreFlags flagsOk dxml => exact other (by simp) (restoreFlags_closes flagsOk dxml)
  | coreDump flags => exact other (by simp) (coreDump_closes flags)

end Ledger

/-- The ledger of a run. -/
def ledger (tr : List (Event Res)) : Ledger := Ledger.monitor.run Ledger.start tr

/-- Of a whole run, whether it returns or crashes. -/
theorem settled_ledger_iff {e : Entry} {tr : List (Event Res)} {out : Option Int}
    (h : e.code.Runs tr out) : (ledger tr).Settled ↔ (ledger tr).clockFailed = false ∧
      ¬(e = .suspend ∧ (ledger tr).foundActive = true) := by
  obtain ⟨hret, hcrash⟩ := Prog.wp_sound (Ledger.entry_closes e) h
  cases out with
  | none => exact hcrash rfl
  | some a => exact hret a rfl

/-! ### The jobs of other threads -/

section Threads

variable {Tid : Type*} {me : Tid} {x y : Slots Tid} {l : Ledger}

/-- The other threads make steps. -/
def Others (me : Tid) : Slots Tid → Slots Tid → Prop :=
  Relation.ReflTransGen fun x y => ∃ u, u ≠ me ∧ Slots.Step u x y

/-- **The others are the threads of the lock.** Whatever the lock does in a run in which `me`
makes no step shows as steps of the others. -/
theorem others_of_run [DecidableEq Tid] [Fintype Tid] {maxQueued : ℤ} {s s' : JobLock.State Tid}
    (hex : JobLock.Exclusive s)
    (h : Relation.ReflTransGen (Moves (JobLock.step maxQueued) fun _ a => a.thread ≠ me) s s') :
    Others me (JobLock.slots s) (JobLock.slots s') ∧ JobLock.Exclusive s' := by
  induction h with
  | refl => exact ⟨Relation.ReflTransGen.refl, hex⟩
  | tail _ hmove ih =>
    obtain ⟨a, hother, hs⟩ := hmove
    obtain ⟨hothers, hex'⟩ := ih
    refine ⟨?_, hex'.step hs⟩
    rcases JobLock.slots_step hex' hs with hsame | hstep
    · rw [hsame]
      exact hothers
    · exact hothers.tail ⟨a.thread, hother, hstep⟩

/-- The lock lets the call come back as it does: a job starts only in a free slot. -/
def Admits (x : Slots Tid) : (o : Op) → Res o → Prop
  | .begin call, .ok => if call.job = .async then x.AsyncFree else x.NormalFree call.job
  | _, _ => True

/-- The slots after a call. Ending a job empties the slot, whoever filled it. -/
def after (me : Tid) (x : Slots Tid) : (o : Op) → Res o → Slots Tid
  | .begin call, .ok =>
    if call.job = .async then
      { x with async := some (me, call.asyncJob), mask := defaultJobMask }
    else { x with normal := some (me, call.job) }
  | .ask .endJob, _ => { x with normal := none }
  | .ask .endAsyncJob, _ => { x with async := none, mask := defaultJobMask }
  | .act (.setAsyncJobMask mask), _ =>
    if x.async = none then x else { x with mask := mask ||| jobMask .destroy }
  | _, _ => x

/-- The call ends a job of another thread. -/
def ClearsOther (me : Tid) (x : Slots Tid) : Op → Prop
  | .ask .endJob => ∃ u job, u ≠ me ∧ x.normal = some (u, job)
  | .ask .endAsyncJob => ∃ u asyncJob, u ≠ me ∧ x.async = some (u, asyncJob)
  | _ => False

/-- The run can clear a job of another thread, the others being free to act between
its calls. -/
inductive Disturbs (me : Tid) : Slots Tid → List (Event Res) → Prop where
  | now {x y : Slots Tid} {e : Event Res} {tr : List (Event Res)} (ho : Others me x y)
      (h : ClearsOther me y e.1) : Disturbs me x (e :: tr)
  | later {x y : Slots Tid} {e : Event Res} {tr : List (Event Res)} (ho : Others me x y)
      (ha : Admits y e.1 e.2) (h : Disturbs me (after me y e.1 e.2) tr) :
      Disturbs me x (e :: tr)

/-- The slots hold what the ledger says the run holds. -/
def Owns (me : Tid) (x : Slots Tid) (l : Ledger) : Prop :=
  (l.held = some .normal → ∃ job, x.normal = some (me, job)) ∧
    (l.held = some .async → ∃ asyncJob, x.async = some (me, asyncJob))

/-- The others leave what the run holds. -/
theorem Owns.others (h : Owns me x l) (ho : Others me x y) : Owns me y l := by
  induction ho with
  | refl => exact h
  | tail _ hstep ih =>
    obtain ⟨u, hu, hstep⟩ := hstep
    refine ⟨fun hheld => ?_, fun hheld => ?_⟩
    · obtain ⟨job, hjob⟩ := ih.1 hheld
      exact ⟨job, hstep.keeps_normal hu hjob⟩
    · obtain ⟨asyncJob, hasync⟩ := ih.2 hheld
      exact ⟨asyncJob, hstep.keeps_async hu hasync⟩

/-- A run that has gone astray stays so. -/
theorem Ledger.astray_next (h : l.astray = true) (o : Op) (r : Res o) :
    (l.next o r).astray = true := by
  unfold next
  split <;> simp [gotJob, endedJob, h]

/-- That is never taken back. -/
theorem Ledger.astray_run (tr : List (Event Res)) (h : l.astray = true) :
    (monitor.run l tr).astray = true := by
  induction tr generalizing l with
  | nil => exact h
  | cons e tr ih => exact ih (astray_next h e.1 e.2)

/-- A call keeps the ledger and the slots together. -/
theorem Owns.after (h : Owns me x l) {o : Op} {r : Res o} :
    Owns me (after me x o r) (l.next o r) := by
  cases o with
  | begin call =>
    cases r with
    | ok =>
      by_cases hjob : call.job = .async <;>
        simp [Owns, Libxl.after, Ledger.next, Ledger.gotJob, BeginCall.kind, hjob]
    | refused => exact h
    | clockFailed => exact h
  | ask q =>
    cases q with
    | endJob => exact ⟨nofun, nofun⟩
    | endAsyncJob => exact ⟨nofun, nofun⟩
    | _ => exact h
  | act a =>
    cases a with
    | setAsyncJobMask mask =>
      simp only [Libxl.after]
      split_ifs
      · exact h
      · exact h
    | _ => exact h
  | _ => exact h

/-- Where a call ends a job of another thread the run goes astray. -/
theorem Ledger.astray_of_clearsOther (h : Owns me x l) {o : Op} (hc : ClearsOther me x o)
    (r : Res o) : (l.next o r).astray = true := by
  unfold ClearsOther at hc
  split at hc
  · obtain ⟨u, job, hu, hx⟩ := hc
    have hheld : l.held ≠ some .normal := by
      intro hheld
      obtain ⟨job', hx'⟩ := h.1 hheld
      rw [hx, Option.some_inj, Prod.mk.injEq] at hx'
      exact hu hx'.1
    simp [next, endedJob, hheld]
  · obtain ⟨u, asyncJob, hu, hx⟩ := hc
    have hheld : l.held ≠ some .async := by
      intro hheld
      obtain ⟨asyncJob', hx'⟩ := h.2 hheld
      rw [hx, Option.some_inj, Prod.mk.injEq] at hx'
      exact hu hx'.1
    simp [next, endedJob, hheld]
  · exact hc.elim

/-- **A run that does not go astray clears no job of another thread.** -/
theorem not_disturbs {tr : List (Event Res)} (hown : Owns me x l)
    (hrun : (Ledger.monitor.run l tr).astray = false) : ¬Disturbs me x tr := by
  intro hdist
  induction hdist generalizing l with
  | @now x y e tr ho h =>
    -- the slot was filled by another, so the ledger does not hold the job
    have hastray := Ledger.astray_of_clearsOther (hown.others ho) h e.2
    rw [Monitor.run_cons, Ledger.monitor_next, Ledger.astray_run tr hastray] at hrun
    cases hrun
  | later ho ha h ih => exact ih (hown.others ho).after hrun

/-! ### Paired runs -/

/-- **A paired run**: it ends each job it began, once, and no other; it leaves
`jobs_queued` and the references that jobs keep as it found them; and it clears no job
of another thread, whatever the jobs of the domain are at its start and whatever the
others do. -/
structure JobsPaired (me : Tid) (tr : List (Event Res)) : Prop where
  paired : (ledger tr).held = none ∧ (ledger tr).astray = false
  queued : (ledger tr).queued = 0
  refs : (ledger tr).refs = 0
  undisturbed : ∀ x : Slots Tid, ¬Disturbs me x tr

/-- The last part of the definition, which is about the other threads, follows from the ledger
of the run alone: by `not_disturbs` a run that does not go astray disturbs nobody. -/
theorem jobsPaired_iff_settled {tr : List (Event Res)} :
    JobsPaired me tr ↔ (ledger tr).Settled := by
  constructor
  · intro h
    exact ⟨h.paired.1, h.paired.2, h.queued, h.refs⟩
  · intro h
    refine ⟨⟨h.held, h.astray⟩, h.queued, h.refs, fun x => ?_⟩
    exact not_disturbs (l := Ledger.start) ⟨nofun, nofun⟩ h.astray

/-- **Which runs are paired.** A run of an entry point is paired exactly when the clock could
be read and it is not the suspension of an active domain. The run may take any path, with any
answers of the host and of the other threads, and it may crash. -/
theorem jobsPaired_iff {e : Entry} {tr : List (Event Res)} {out : Option Int}
    (h : e.code.Runs tr out) : JobsPaired me tr ↔ (ledger tr).clockFailed = false ∧
      ¬(e = .suspend ∧ (ledger tr).foundActive = true) :=
  jobsPaired_iff_settled.trans (settled_ledger_iff h)

end Threads

/-- Restoring a domain is paired. -/
theorem jobsPaired_restore :
    JobsPaired true ((Entry.restoreFlags true false).code.eval allWell).1 :=
  (jobsPaired_iff (Prog.runs_eval allWell _)).mpr (by decide)

/-- **Suspending an active domain is not paired**: while another thread holds a job,
the run ends that job. -/
theorem suspend_not_paired :
    ∃ tr out, Entry.suspend.code.Runs tr out ∧ (ledger tr).clockFailed = false ∧
      ¬JobsPaired true tr ∧ Disturbs true ⟨some (false, .modify), none, 0⟩ tr := by
  refine ⟨_, _, Prog.runs_eval allWell _, by decide, fun h => ?_, ?_⟩
  · have hastray := h.paired.2
    revert hastray
    decide
  · exact .later .refl trivial <| .later .refl trivial <| .later .refl trivial <|
      .later .refl trivial <| .later .refl trivial <| .later .refl trivial <|
      .now .refl ⟨false, .modify, by decide, rfl⟩

end Libxl

end OpenLog
