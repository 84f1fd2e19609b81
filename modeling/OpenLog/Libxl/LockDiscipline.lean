import OpenLog.Libxl.Migrate

/-!
# Locking and unlocking

The driver's mutex and that of the domain, as one thread takes and drops them in a call: by hand,
in the lookups, which hand out a locked domain, and in the job functions, which drop both and take
them again. A call keeps to the rules (`OpenLog.Libxl.Mutexes.Kept`) if it unlocks only what it
holds, locks only what it does not hold, and returns with nothing held.

## The calls that break the rules

Four of the calls break the rules. CoreDump starts its job as if it had the driver locked; a
Prepare3 that fails returns with both locked; the thread that receives a guest unlocks what
Prepare3 has unlocked before; and SaveFlags unlocks a domain that `libxlDoDomainSave` has given
up, which it is not told. Which runs these are is said by `OpenLog.Libxl.LockCall.Careful`, and
they are all (`OpenLog.Libxl.locks_kept_iff`).

## The proofs

Each call is followed to its end with the rules for the operations and for the labels. Parsing,
cleaning up, starting and the choice of a port lock nothing, and are passed over.
-/

namespace OpenLog

namespace Libxl

open Logic

/-! ### The mutexes of a thread -/

/-- The two mutexes as a thread sees them, with the answers that decide how it gets on. -/
structure Mutexes where
  /-- The thread holds the driver's mutex. -/
  driver : Bool
  /-- The thread holds the domain's mutex. -/
  dom : Bool
  /-- It has unlocked a mutex that it did not hold, or locked one that it held. -/
  broken : Bool
  /-- The domain was looked up and found. -/
  found : Bool
  /-- The clock could not be read when the job was started. -/
  clockFailed : Bool
  /-- The last answer to the question whether the domain is persistent was no. -/
  transient : Bool
  /-- The end of the job has taken the last reference to the domain. -/
  lastRef : Bool
  /-- A description could not be parsed. -/
  unparsed : Bool
  /-- A thread was started. -/
  threadCreated : Bool
  deriving DecidableEq

namespace Mutexes

/-- A thread that holds neither and has done nothing yet. -/
def start : Mutexes := ⟨false, false, false, false, false, false, false, false, false⟩

def lockDriver (m : Mutexes) : Mutexes := { m with driver := true, broken := m.broken || m.driver }

def unlockDriver (m : Mutexes) : Mutexes :=
  { m with driver := false, broken := m.broken || !m.driver }

def lockDom (m : Mutexes) : Mutexes := { m with dom := true, broken := m.broken || m.dom }

def unlockDom (m : Mutexes) : Mutexes := { m with dom := false, broken := m.broken || !m.dom }

/-- A lookup that finds a domain locks it. -/
def lookedUp (m : Mutexes) (found : Bool) : Mutexes :=
  if found then { m.lockDom with found := true } else m

/-- The end of a job: the last reference to a domain goes with its mutex unlocked. -/
def endedJob (m : Mutexes) (more : Bool) : Mutexes :=
  if more then m else { m.unlockDom with lastRef := true }

/-- `libxlDomainObjBeginJobInternal`, which returns before it touches a mutex if the clock
cannot be read. -/
def begun (m : Mutexes) (call : BeginCall) : BeginResult → Mutexes
  | .clockFailed => { m with clockFailed := true }
  | .ok | .refused =>
    if call.driverLocked then m.unlockDriver.unlockDom.lockDriver.lockDom else m

/-- What an operation does to the mutexes. -/
def next (m : Mutexes) : (o : Op) → Res o → Mutexes
  | .act .driverLock, _ => m.lockDriver
  | .act .driverUnlock, _ => m.unlockDriver
  | .act .objLock, _ => m.lockDom
  | .act .objUnlock, _ => m.unlockDom
  -- `virDomainRemoveInactive` unlocks the domain that it removes
  | .act .removeInactive, _ => m.unlockDom
  | .ask .findByUUID, found => m.lookedUp found
  | .ask .findByName, found => m.lookedUp found
  | .ask .assignDef, found => m.lookedUp found
  | .ask .endJob, more => m.endedJob more
  | .ask .endAsyncJob, more => m.endedJob more
  | .begin call, r => m.begun call r
  | .ask .isPersistent, persistent => { m with transient := !persistent }
  | .ask (.prim .virDomainDefParseString), ok => { m with unparsed := !ok }
  | .ask (.prim .virThreadCreate), ok => { m with threadCreated := ok }
  | _, _ => m

/-- The mutexes as a monitor without requirements. -/
def monitor : Monitor Res Mutexes := ⟨next, fun _ _ => True⟩

@[simp] theorem monitor_next : monitor.next = next := rfl

@[simp] theorem monitor_ok (m : Mutexes) (o : Op) : monitor.ok m o := trivial

/-- The rules are kept by a call that is over: if it has returned (and not crashed), it
holds nothing. -/
def Kept (m : Mutexes) (returned : Bool) : Prop :=
  m.broken = false ∧ (returned = true → m.driver = false ∧ m.dom = false)

instance (m : Mutexes) (returned : Bool) : Decidable (m.Kept returned) :=
  inferInstanceAs (Decidable (_ ∧ _))

/-! ### What a call does not see of its parts -/

/-- Starting a domain touches neither mutex, and asks nothing that is followed here. -/
@[simp] theorem ignores_start (m : Mutexes) : monitor.Ignores Op.Start m := by
  rw [ignores_start_iff]
  simp [next, startPrims]

/-- Nor does parsing a URI. -/
@[simp] theorem ignores_parse (m : Mutexes) : monitor.Ignores Op.Parse m := by
  rw [ignores_parse_iff]
  simp [next]

/-- Nor does choosing a port. -/
@[simp] theorem ignores_port (m : Mutexes) : monitor.Ignores Op.Port m := by
  rw [ignores_port_iff]
  simp [next]

section

variable {α : Type} {Q : α → Mutexes → Prop} {E : Mutexes → Prop} {m : Mutexes}

/-- Cleaning up asks whether the domain is persistent. -/
@[simp] theorem wp_vmCleanup {reason : DomState} {f : Unit → Code α} :
    (vmCleanup reason >>= f).wp monitor Q E m ↔
      ∀ persistent : Bool, (f ()).wp monitor Q E { m with transient := !persistent } := by
  simp [vmCleanup, next]

end

end Mutexes

/-! ### The calls -/

/-- The calls whose locking is looked at, with their arguments, and the thread that
receives a guest. -/
inductive LockCall where
  | coreDump (flags : DumpFlags)
  | saveFlags (flagsOk dxml : Bool)
  | restoreFlags (flagsOk dxml : Bool)
  | destroyFlags (flagsOk : Bool)
  | begin3 (xmlin : Bool) (flags : MigrateFlags)
  | prepare3 (domXml dname : Bool) (uriIn : Option Uri) (flags : MigrateFlags)
  | perform3 (uri : Option Uri) (flags : MigrateFlags)
  | finish3 (uri : Option Uri) (flags : MigrateFlags) (cancelled : Bool)
  | confirm3 (flags : MigrateFlags) (cancelled : Bool)
  | migrateReceive

namespace LockCall

/-- A program whose result does not matter. -/
def run {α : Type} (code : Code α) : Code Unit := do
  let _ ← code
  return ()

/-- The program of a call. -/
def code (strToLong : List Char → Option ℤ) : LockCall → Code Unit
  | coreDump flags => run (domainCoreDump flags)
  | saveFlags flagsOk dxml => run (domainSaveFlags flagsOk dxml)
  | restoreFlags flagsOk dxml => run (domainRestoreFlags flagsOk dxml)
  | destroyFlags flagsOk => run (domainDestroyFlags flagsOk)
  | begin3 xmlin flags => run (migrateBegin3 xmlin flags)
  | prepare3 domXml dname uriIn flags => run (migratePrepare3 strToLong domXml dname uriIn flags)
  | perform3 uri flags => run (migratePerform3 strToLong uri flags)
  | finish3 uri flags cancelled => run (migrateFinish3 strToLong uri flags cancelled)
  | confirm3 flags cancelled => run (migrateConfirm3 flags cancelled)
  | migrateReceive => doMigrateReceive

/-- What keeps a run of the call to the rules. CoreDump has to stop before it starts its
job, which it does with the driver unlocked; SaveFlags may not give up its domain; Prepare3
has to succeed (or to be refused, or to crash on a description that cannot be parsed);
the receiving thread breaks the rules in any case. -/
def Careful (m : Mutexes) : LockCall → Prop
  | coreDump flags => flags.unsupported = true ∨ m.found = false ∨ m.clockFailed = true
  | saveFlags _ _ => m.transient = false ∧ m.lastRef = false
  | prepare3 _ _ _ flags => flags.unsupported = true ∨ m.threadCreated = true ∨ m.unparsed = true
  | migrateReceive => False
  | restoreFlags _ _ | destroyFlags _ | begin3 _ _ | perform3 _ _ | finish3 _ _ _ | confirm3 _ _ =>
    True

instance (m : Mutexes) (c : LockCall) : Decidable (c.Careful m) :=
  match c with
  | coreDump _ => inferInstanceAs (Decidable (_ ∨ _))
  | saveFlags _ _ => inferInstanceAs (Decidable (_ ∧ _))
  | prepare3 _ _ _ _ => inferInstanceAs (Decidable (_ ∨ _))
  | migrateReceive => .isFalse id
  | restoreFlags _ _ | destroyFlags _ | begin3 _ _ | perform3 _ _ | finish3 _ _ _ | confirm3 _ _ =>
    .isTrue trivial

end LockCall

namespace Mutexes

open LockCall

attribute [local simp] next start lockDriver unlockDriver lockDom unlockDom lookedUp endedJob begun
  Kept Careful

/-- The code keeps to the rules exactly if `careful`. -/
def KeptIff {α : Type} (careful : Mutexes → Prop) (code : Code α) : Prop :=
  code.wp monitor (fun _ m => m.Kept true ↔ careful m) (fun m => m.Kept false ↔ careful m) start

/-- It does not matter what the call returns. -/
theorem KeptIff.run {α : Type} {careful : Mutexes → Prop} {code : Code α}
    (h : KeptIff careful code) : KeptIff careful (LockCall.run code) :=
  Prog.wp_bind.mpr h

@[simp] theorem driverLocked_modify : modifyWithDriver.driverLocked = true := rfl

@[simp] theorem driverLocked_destroy : destroyWithDriver.driverLocked = true := rfl

@[simp] theorem driverLocked_async (job : DomainAsyncJob) (h : job ≠ .none) :
    (domainObjBeginAsyncJobWithDriver job h).driverLocked = true := rfl

variable {strToLong : List Char → Option ℤ} {uri : Option Uri} {flags : MigrateFlags}

/-- CoreDump unlocks the driver before it starts its job, which then unlocks what is not held.
A refused flag, a domain that is not there and a clock that cannot be read are the ways around
that. -/
theorem keptIff_coreDump (flags : DumpFlags) :
    KeptIff (fun m => (coreDump flags).Careful m) (domainCoreDump flags) := by
  cases hflags : flags.unsupported <;>
  simp [KeptIff, domainCoreDump, domainCoreDump.dump, hflags]

/-- SaveFlags unlocks its domain at the end, which `libxlDoDomainSave` may have removed or
lost. -/
theorem keptIff_saveFlags (flagsOk dxml : Bool) :
    KeptIff (fun m => (saveFlags flagsOk dxml).Careful m) (domainSaveFlags flagsOk dxml) := by
  simp [KeptIff, domainSaveFlags, doDomainSave]

/-- RestoreFlags keeps to the rules whatever it is answered. -/
theorem keptIff_restoreFlags (flagsOk dxml : Bool) :
    KeptIff (fun m => (restoreFlags flagsOk dxml).Careful m) (domainRestoreFlags flagsOk dxml) := by
  simp [KeptIff, domainRestoreFlags]

/-- So does DestroyFlags, which sets its pointer to `NULL` where it has removed the domain. -/
theorem keptIff_destroyFlags (flagsOk : Bool) :
    KeptIff (fun m => (destroyFlags flagsOk).Careful m) (domainDestroyFlags flagsOk) := by
  simp [KeptIff, domainDestroyFlags]

/-- So does Begin3, on success and on failure. -/
theorem keptIff_begin3 (xmlin : Bool) (flags : MigrateFlags) :
    KeptIff (fun m => (begin3 xmlin flags).Careful m) (migrateBegin3 xmlin flags) := by
  simp [KeptIff, migrateBegin3]

/-- Prepare3 unlocks nothing where it fails. It returns with nothing held if it is refused for
its flags or gets as far as its thread; a description that cannot be parsed is used all the
same, and the crash at its use is before anything is returned. -/
theorem keptIff_prepare3 (domXml dname : Bool) (uriIn : Option Uri) (flags : MigrateFlags) :
    KeptIff (fun m => (prepare3 domXml dname uriIn flags).Careful m)
      (migratePrepare3 strToLong domXml dname uriIn flags) := by
  cases hflags : flags.unsupported <;> cases uriIn <;>
  simp [KeptIff, migratePrepare3, migratePrepare3.assign, migratePrepare3.choosePort,
    migratePrepare3.receive, hflags, Option.forall]

/-- Perform3 sends the guest with both mutexes dropped, and takes them again. -/
theorem keptIff_perform3 (uri : Option Uri) (flags : MigrateFlags) :
    KeptIff (fun m => (perform3 uri flags).Careful m) (migratePerform3 strToLong uri flags) := by
  simp [KeptIff, migratePerform3, Option.forall]

/-- Finish3 keeps to the rules on all its ways out, the reaping included. -/
theorem keptIff_finish3 (uri : Option Uri) (flags : MigrateFlags) (cancelled : Bool) :
    KeptIff (fun m => (finish3 uri flags cancelled).Careful m)
      (migrateFinish3 strToLong uri flags cancelled) := by
  cases cancelled <;> cases hpaused : flags.paused <;>
  simp [KeptIff, migrateFinish3, migrateFinish3.lookup, migrateFinish3.cleanup, hpaused,
    Option.forall]

/-- So does Confirm3, whose job goes on where it has failed. -/
theorem keptIff_confirm3 (flags : MigrateFlags) (cancelled : Bool) :
    KeptIff (fun m => (confirm3 flags cancelled).Careful m) (migrateConfirm3 flags cancelled) := by
  cases cancelled <;> cases hundef : flags.undefineSource <;>
  simp [KeptIff, migrateConfirm3, hundef]

/-- The thread starts with nothing locked and unlocks the domain all the same. -/
theorem keptIff_migrateReceive :
    KeptIff (fun m => migrateReceive.Careful m) doMigrateReceive := by
  simp [KeptIff, doMigrateReceive, doMigrateReceive.cleanup]

variable (strToLong) in
/-- **The mutexes of a call.** -/
theorem keptIff_code (c : LockCall) : KeptIff (fun m => c.Careful m) (c.code strToLong) := by
  cases c with
  | coreDump flags => exact (keptIff_coreDump flags).run
  | saveFlags flagsOk dxml => exact (keptIff_saveFlags flagsOk dxml).run
  | restoreFlags flagsOk dxml => exact (keptIff_restoreFlags flagsOk dxml).run
  | destroyFlags flagsOk => exact (keptIff_destroyFlags flagsOk).run
  | begin3 xmlin flags => exact (keptIff_begin3 xmlin flags).run
  | prepare3 domXml dname uriIn flags => exact (keptIff_prepare3 domXml dname uriIn flags).run
  | perform3 uri flags => exact (keptIff_perform3 uri flags).run
  | finish3 uri flags cancelled => exact (keptIff_finish3 uri flags cancelled).run
  | confirm3 flags cancelled => exact (keptIff_confirm3 flags cancelled).run
  | migrateReceive => exact keptIff_migrateReceive

end Mutexes

/-! ### Runs -/

/-- The mutexes of a thread that held none, after a run. -/
def mutexesAfter (tr : List (Event Res)) : Mutexes := Mutexes.monitor.run Mutexes.start tr

/-- **Which calls keep to the rules.** However its operations are answered, a call unlocks only
what it holds, locks only what it does not hold and returns with nothing held, exactly if it is
careful. A crash of the driver counts as kept if nothing was done wrong before it. -/
theorem locks_kept_iff {strToLong : List Char → Option ℤ} {c : LockCall} {tr : List (Event Res)}
    {out : Option Unit} (h : (c.code strToLong).Runs tr out) :
    (mutexesAfter tr).Kept out.isSome ↔ c.Careful (mutexesAfter tr) := by
  obtain ⟨hret, hcrash⟩ := Prog.wp_sound (Mutexes.keptIff_code strToLong c) h
  cases out with
  | none => exact hcrash rfl
  | some u => exact hret u rfl

/-- A restored domain is started, and the mutexes are free again. -/
theorem locks_kept_restore :
    (mutexesAfter (((LockCall.restoreFlags true false).code readDecimal).eval allWell).1).Kept
      true :=
  (locks_kept_iff (Prog.runs_eval allWell _)).mpr trivial

/-- **CoreDump breaks the rules although all goes well**: the start of its job unlocks the
driver, which it does not hold, and leaves it locked for the dump to lock it again. -/
theorem dump_breaks_locks : ∃ tr,
    ((LockCall.coreDump ⟨true, false, false⟩).code readDecimal).Runs tr (some ()) ∧
      (mutexesAfter tr).broken = true ∧ ¬(mutexesAfter tr).Kept true :=
  ⟨_, Prog.runs_eval allWell _, by decide, by decide⟩

end Libxl

end OpenLog
