import Mathlib.Data.Finset.Basic
import OpenLog.Libxl.Migrate

/-!
# The list of domains after a failure

CreateXML, RestoreFlags and Prepare3 put a new domain into the list of the driver and go
on with it; if anything fails they should take it out again. The list is followed by
`OpenLog.Libxl.DomainList`, for a definition that is new to it.

A job that cannot be started leaves the domain behind in all three of them. CreateXML
also leaves it behind if it has started the guest and gets no handle for it, and Prepare3
whatever fails after the domain is in the list. These are all the cases
(`OpenLog.Libxl.list_restored_iff`).
-/

namespace OpenLog

namespace Libxl

open Logic

/-! ### The list -/

/-- The list of domains, with the answers that decide how a call gets on. -/
structure DomainList (δ : Type*) where
  /-- `driver->domains`. -/
  domains : Finset δ
  /-- `virDomainAssignDef` has given a domain. -/
  assigned : Bool
  /-- The job was not started. -/
  noJob : Bool
  /-- `virGetDomain` has given no handle. -/
  noHandle : Bool
  /-- The domain was found persistent. -/
  persistent : Bool
  /-- The end of the job has taken the last reference to the domain. -/
  lastRef : Bool

namespace DomainList

variable {δ : Type*} [DecidableEq δ] (new : δ) {entry : Finset δ}

/-- The list at entry. -/
def start (entry : Finset δ) : DomainList δ := ⟨entry, false, false, false, false, false⟩

/-- The end of a job. Where no reference is left the one that the list keeps is gone,
too. -/
def endedJob (l : DomainList δ) (more : Bool) : DomainList δ :=
  if more then l else { l with domains := l.domains.erase new, lastRef := true }

/-- What an operation does to the list, in a call that creates `new`. -/
def next (l : DomainList δ) : (o : Op) → Res o → DomainList δ
  | .ask .assignDef, true => { l with domains := insert new l.domains, assigned := true }
  | .act .removeInactive, _ => { l with domains := l.domains.erase new }
  | .ask .endJob, more => l.endedJob new more
  | .ask .endAsyncJob, more => l.endedJob new more
  | .begin _, .refused => { l with noJob := true }
  | .begin _, .clockFailed => { l with noJob := true }
  | .ask (.prim .virGetDomain), got => { l with noHandle := !got }
  | .ask .isPersistent, persistent => { l with persistent := persistent }
  | _, _ => l

/-- The list as a monitor without requirements. -/
def monitor : Monitor Res (DomainList δ) := ⟨next new, fun _ _ => True⟩

@[simp] theorem monitor_next : (monitor new).next = next new := rfl

@[simp] theorem monitor_ok (l : DomainList δ) (o : Op) : (monitor new).ok l o := trivial

/-- A start of the guest, the reading of a uri and the choice of a port do not touch the list.
-/
@[simp] theorem ignores_start (l : DomainList δ) : (monitor new).Ignores Op.Start l := by
  rw [ignores_start_iff]
  simp [next, startPrims]

@[simp] theorem ignores_parse (l : DomainList δ) : (monitor new).Ignores Op.Parse l := by
  rw [ignores_parse_iff]
  simp [next]

@[simp] theorem ignores_port (l : DomainList δ) : (monitor new).Ignores Op.Port l := by
  rw [ignores_port_iff]
  simp [next]

end DomainList

/-! ### The calls -/

/-- The calls that create a domain, with their arguments. -/
inductive CreateCall where
  | createXML (flagsOk startPaused : Bool)
  | restoreFlags (flagsOk dxml : Bool)
  | prepare3 (domXml dname : Bool) (uriIn : Option Uri) (flags : MigrateFlags)

namespace CreateCall

/-- The program of a call: has it succeeded? -/
def code (strToLong : List Char → Option ℤ) : CreateCall → Code Bool
  | createXML flagsOk startPaused => domainCreateXML flagsOk startPaused
  | restoreFlags flagsOk dxml => do
    let ret ← domainRestoreFlags flagsOk dxml
    return decide (0 ≤ ret)
  | prepare3 domXml dname uriIn flags => do
    let ret ← migratePrepare3 strToLong domXml dname uriIn flags
    return decide (0 ≤ ret.1)

/-- What makes a call that has its job take out the domain if it fails: CreateXML gets a
handle if it gets so far, the domain that RestoreFlags restores is transient. Prepare3
never does. -/
def TakesOut {δ : Type*} (l : DomainList δ) : CreateCall → Prop
  | createXML _ _ => l.noHandle = false
  | restoreFlags _ _ => l.persistent = false
  | prepare3 _ _ _ _ => False

instance {δ : Type*} (l : DomainList δ) (c : CreateCall) : Decidable (c.TakesOut l) :=
  match c with
  | createXML _ _ => inferInstanceAs (Decidable (_ = _))
  | restoreFlags _ _ => inferInstanceAs (Decidable (_ = _))
  | prepare3 _ _ _ _ => .isFalse id

/-- What makes a failure harmless: the domain was not put into the list, or it is gone
with its last reference, or the call takes it out. -/
def Careful {δ : Type*} (c : CreateCall) (l : DomainList δ) : Prop :=
  l.assigned = false ∨ l.lastRef = true ∨ l.noJob = false ∧ c.TakesOut l

instance {δ : Type*} (c : CreateCall) (l : DomainList δ) : Decidable (c.Careful l) :=
  inferInstanceAs (Decidable (_ ∨ _))

end CreateCall

namespace DomainList

open CreateCall

variable {δ : Type*} [DecidableEq δ] {new : δ} {entry : Finset δ}

/-- The code, if it fails, leaves the list as it was exactly if the call is careful. -/
def RestoredIff (new : δ) (entry : Finset δ) (c : CreateCall) (code : Code Bool) : Prop :=
  code.wp (monitor new)
    (fun succeeded l => succeeded = false → (l.domains = entry ↔ c.Careful l)) (fun _ => True)
    (start entry)

variable {strToLong : List Char → Option ℤ}

attribute [local simp] next start endedJob Careful TakesOut

/-- Once it has its job, CreateXML takes the domain out where the start fails. What is left is
a failure to get the handle of a guest that has been started. -/
theorem restoredIff_createXML (hnew : new ∉ entry) (flagsOk startPaused : Bool) :
    RestoredIff new entry (createXML flagsOk startPaused)
      ((createXML flagsOk startPaused).code strToLong) := by
  simp [RestoredIff, code, domainCreateXML, hnew]

/-- Once it has its job, RestoreFlags takes the domain out unless it is persistent. -/
theorem restoredIff_restoreFlags (hnew : new ∉ entry) (flagsOk dxml : Bool) :
    RestoredIff new entry (restoreFlags flagsOk dxml)
      ((restoreFlags flagsOk dxml).code strToLong) := by
  refine Prog.wp_bind.mpr ?_
  simp [domainRestoreFlags, hnew]

/-- Prepare3 takes it out nowhere: all its failures behind `virDomainAssignDef` leave the
domain in the list. -/
theorem restoredIff_prepare3 (hnew : new ∉ entry) (domXml dname : Bool) (uriIn : Option Uri)
    (flags : MigrateFlags) : RestoredIff new entry (prepare3 domXml dname uriIn flags)
      ((prepare3 domXml dname uriIn flags).code strToLong) := by
  refine Prog.wp_bind.mpr ?_
  cases uriIn <;>
  simp [migratePrepare3, migratePrepare3.assign, migratePrepare3.choosePort,
    migratePrepare3.receive, hnew, Option.forall]

variable (strToLong) in
/-- **The list after a call.** -/
theorem restoredIff_code (hnew : new ∉ entry) (c : CreateCall) :
    RestoredIff new entry c (c.code strToLong) := by
  cases c with
  | createXML flagsOk startPaused => exact restoredIff_createXML hnew flagsOk startPaused
  | restoreFlags flagsOk dxml => exact restoredIff_restoreFlags hnew flagsOk dxml
  | prepare3 domXml dname uriIn flags => exact restoredIff_prepare3 hnew domXml dname uriIn flags

end DomainList

/-! ### Runs -/

/-- The list after a run of a call that creates `new`. -/
def listAfter {δ : Type*} [DecidableEq δ] (new : δ) (entry : Finset δ) (tr : List (Event Res)) :
    DomainList δ :=
  (DomainList.monitor new).run (DomainList.start entry) tr

/-- **Which failures leave the list alone.** However its operations are answered, a call that
creates a domain and fails leaves the list of domains as it was exactly if it is careful: the
domain was never put into the list, or has gone with its last reference, or the job was begun
and the call takes the domain out. -/
theorem list_restored_iff {δ : Type*} [DecidableEq δ] {new : δ} {entry : Finset δ}
    (hnew : new ∉ entry) {strToLong : List Char → Option ℤ} {c : CreateCall}
    {tr : List (Event Res)} (h : (c.code strToLong).Runs tr (some false)) :
    (listAfter new entry tr).domains = entry ↔ c.Careful (listAfter new entry tr) :=
  (Prog.wp_sound (DomainList.restoredIff_code strToLong hnew c) h).1 false rfl rfl

/-- The answers where the guest of a transient domain cannot be created. -/
def guestNotCreated : (o : Op) → Res o
  | .ask .isDuplicate | .ask .isPersistent => false
  | .create _ => .failed false
  | o => allWell o

/-- A domain that cannot be restored is taken out of the list again. -/
theorem list_restored_restore : (listAfter 2 {1}
    (((CreateCall.restoreFlags true false).code readDecimal).eval guestNotCreated).1).domains =
      {1} :=
  (list_restored_iff (by decide) (Prog.runs_eval guestNotCreated _)).mpr
    (by decide)

/-- The answers where the port of an incoming migration cannot be bound. -/
def portNotBound : (o : Op) → Res o
  | .ask (.prim .bind) => false
  | o => allWell o

/-- **A Prepare3 that fails leaves its domain behind**: the port cannot be bound, and the
domain stays in the list. -/
theorem prepare_leaves_domain : ∃ tr,
    ((CreateCall.prepare3 true false none noFlags).code readDecimal).Runs tr (some false) ∧
      (listAfter 2 {1} tr).domains = {1, 2} ∧ (listAfter 2 {1} tr).domains ≠ {1} :=
  ⟨_, Prog.runs_eval portNotBound _, by decide, by decide⟩

end Libxl

end OpenLog
