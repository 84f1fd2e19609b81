import OpenLog.Libxl.Handles
import OpenLog.Libxl.Patch1102.Domain

/-!
# What a save or a dump reports

A save that returns `0` should have written its file, and the guest should be gone; a dump that
returns `0` should have written its core, and the guest should be gone if it was to be crashed.

Both versions of `libxlDoDomainSave`, and the later version of CoreDump, put the answer of the
long call into `ret`, and leave it there when the guest cannot be destroyed afterwards: they
return `0`, and the guest is still there. Otherwise what they report is true
(`OpenLog.Libxl.report_true_iff`).
-/

namespace OpenLog

namespace Libxl

open Logic

/-! ### What is done -/

/-- What a run has done to the guest and its file. -/
structure SaveOutcome where
  headerWritten : Bool
  xmlWritten : Bool
  /-- `libxl_domain_suspend` has succeeded. -/
  suspended : Bool
  /-- `libxl_domain_core_dump` has succeeded. -/
  dumped : Bool
  /-- `libxlVmReap` has succeeded, which is whether it could destroy the guest. -/
  reaped : Bool
  /-- `libxlVmReap` has failed. -/
  reapFailed : Bool
  deriving DecidableEq

namespace SaveOutcome

/-- Nothing done. -/
def start : SaveOutcome := ⟨false, false, false, false, false, false⟩

/-- What a call adds. -/
def next (s : SaveOutcome) : (o : Op) → Res o → SaveOutcome
  | .ask (.prim .safewriteHeader), ok => { s with headerWritten := ok }
  | .ask (.prim .safewriteXml), ok => { s with xmlWritten := ok }
  | .ask (.prim (.libxlDomainSuspend _)), ok => { s with suspended := ok }
  | .ask (.prim .libxlDomainCoreDump), ok => { s with dumped := ok }
  | .ask (.prim .libxlDomainDestroy), ok => { s with reaped := ok, reapFailed := !ok }
  | _, _ => s

/-- The outcome as a monitor without requirements. -/
def monitor : Monitor Res SaveOutcome := ⟨next, fun _ _ => True⟩

@[simp] theorem monitor_next : monitor.next = next := rfl

@[simp] theorem monitor_ok (s : SaveOutcome) (o : Op) : monitor.ok s o := trivial

/-- Cleaning up after the guest adds nothing. -/
@[simp] theorem ignores_cleanup (s : SaveOutcome) : monitor.Ignores Op.Cleanup s := by
  rw [ignores_cleanup_iff]
  simp [next]

end SaveOutcome

/-! ### The functions -/

/-- The functions that report on a save or a dump. -/
inductive SaveFunction where
  | doDomainSave
  /-- `libxlDoDomainSave` of the later series. -/
  | doDomainSave1102
  /-- `libxlDomainCoreDump` of the later series. -/
  | coreDump1102 (flags : DumpFlags)
  deriving DecidableEq

namespace SaveFunction

def code : SaveFunction → Code Int
  | doDomainSave => Libxl.doDomainSave
  | doDomainSave1102 => Patch1102.doDomainSave
  | coreDump1102 flags => Patch1102.domainCoreDump flags

/-- What is done where the function has done all it should. -/
def Done (s : SaveOutcome) : SaveFunction → Prop
  | doDomainSave | doDomainSave1102 => s.headerWritten = true ∧ s.xmlWritten = true ∧
    s.suspended = true ∧ s.reaped = true
  | coreDump1102 flags => s.dumped = true ∧ (flags.crash = true → s.reaped = true)

end SaveFunction

namespace SaveOutcome

open SaveFunction

attribute [local simp] next start Done

/-- Success is reported of what is done, exactly if the guest could be destroyed when it was
tried. -/
def TrueIff (f : SaveFunction) (code : Code Int) : Prop :=
  code.wp monitor (fun ret s => (ret = 0 → f.Done s) ↔ s.reapFailed = false) (fun _ => True) start

/-- Both versions of `libxlDoDomainSave` have the same program here: where the guest cannot be
destroyed, `ret` stays what it was. -/
theorem trueIff_save : TrueIff .doDomainSave Libxl.doDomainSave := by
  simp [TrueIff, Libxl.doDomainSave]

/-- In CoreDump of the later series it is so for a guest that is to be crashed. -/
theorem trueIff_coreDump (flags : DumpFlags) :
    TrueIff (.coreDump1102 flags) (Patch1102.domainCoreDump flags) := by
  simp [TrueIff, Patch1102.domainCoreDump, Patch1102.domainCoreDump.dump]

/-- The three functions together. -/
theorem trueIff_code (f : SaveFunction) : TrueIff f f.code := by
  rcases f with _ | _ | flags
  · exact trueIff_save
  · exact trueIff_save
  · exact trueIff_coreDump flags

end SaveOutcome

/-! ### Runs -/

/-- What a run has done. -/
def saveOutcome (tr : List (Event Res)) : SaveOutcome := SaveOutcome.monitor.run .start tr

/-- **Which reports are true.** However its operations are answered, a save or a dump that
returns `0` has done all it should exactly if the guest could be destroyed when it was tried.
What fails before that is reported. -/
theorem report_true_iff {f : SaveFunction} {tr : List (Event Res)} {ret : Int}
    (h : f.code.Runs tr (some ret)) :
    (ret = 0 → f.Done (saveOutcome tr)) ↔ (saveOutcome tr).reapFailed = false :=
  (Prog.wp_sound (SaveOutcome.trueIff_code f) h).1 ret rfl

/-- A guest that is saved and destroyed is reported as saved. -/
theorem report_true_save :
    SaveFunction.doDomainSave.Done (saveOutcome (doDomainSave.eval runningGuest).1) :=
  (report_true_iff (f := .doDomainSave) (Prog.runs_eval runningGuest _)).mpr (by decide) rfl

/-- The answers of a guest that runs and cannot be destroyed. -/
def notDestroyed : (o : Op) → Res o
  | .ask (.prim .libxlDomainDestroy) => false
  | o => runningGuest o

/-- **Success is reported of a guest that still runs**: it could not be destroyed after it was
saved, or after its core was dumped. -/
theorem reported_not_reaped :
    (∃ tr, SaveFunction.doDomainSave.code.Runs tr (some 0) ∧ (saveOutcome tr).reaped = false ∧
      ¬SaveFunction.doDomainSave.Done (saveOutcome tr)) ∧
    ∃ tr, (SaveFunction.coreDump1102 ⟨false, true, false⟩).code.Runs tr (some 0) ∧
      (saveOutcome tr).reaped = false ∧
      ¬(SaveFunction.coreDump1102 ⟨false, true, false⟩).Done (saveOutcome tr) := by
  refine ⟨⟨_, Prog.runs_eval notDestroyed _, by decide, fun h => ?_⟩,
    ⟨_, Prog.runs_eval notDestroyed _, by decide, fun h => ?_⟩⟩
  · exact absurd h.2.2.2 (by decide)
  · exact absurd (h.2 rfl) (by decide)

end Libxl

end OpenLog
