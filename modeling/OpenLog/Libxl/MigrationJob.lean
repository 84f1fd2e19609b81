import Mathlib.Data.Option.Basic
import OpenLog.Libxl.Migrate

/-!
# The life of a migration job

Begin3 starts a migration job on the source domain and Prepare3 one on the
destination domain; each is to be ended by a later call. Which call that is depends on
where the run fails, and some ways to fail are forgotten: a run leaves a job behind
exactly when Begin3 cannot format its description, when Prepare3 fails, or when the
guest has been sent and Finish3 returns no handle or Confirm3 does not reap the source
(`OpenLog.Libxl.migrate_releases_iff`).

The monitor of this file, `OpenLog.Libxl.JobLife`, notes the two jobs and the answers of
the five primitives on which the outcome turns.
-/

namespace OpenLog

namespace Libxl

open Logic

/-! ### The two jobs of a run -/

/-- The migration jobs of a run, and the answers that decide what becomes of them. -/
structure JobLife where
  /-- The run holds a migration job on the source domain. -/
  srcHeld : Bool
  /-- The run holds a migration job on the destination domain. -/
  dstHeld : Bool
  /-- The answer of `virDomainDefFormat` in Begin3, if it is called. -/
  formatted : Option Bool
  /-- `virThreadCreate` in Prepare3. -/
  threadCreated : Bool
  /-- `libxl_domain_suspend` in Perform3. -/
  suspended : Bool
  /-- `virGetDomain` in Finish3. -/
  gotDomain : Bool
  /-- `libxl_domain_destroy` in Confirm3. -/
  reaped : Bool
  deriving DecidableEq

namespace JobLife

/-- Nothing done yet. -/
def start : JobLife := ⟨false, false, none, false, false, false, false⟩

/-- One call of a primitive or a job function, made by `c`. -/
def next (l : JobLife) (c : Call) : (o : Op) → Res o → JobLife
  | .begin _, .ok =>
    match c with
    | .begin3 => { l with srcHeld := true }
    | .prepare3 => { l with dstHeld := true }
    | _ => l
  | .ask .endAsyncJob, _ =>
    -- which host the call is made on decides whose job ends
    match c with
    | .begin3 | .perform3 | .confirm3 => { l with srcHeld := false }
    | .prepare3 | .finish3 => { l with dstHeld := false }
  | .ask (.prim .virDomainDefFormat), ok =>
    if c = .begin3 then { l with formatted := some ok } else l
  | .ask (.prim .virThreadCreate), ok =>
    if c = .prepare3 then { l with threadCreated := ok } else l
  | .ask (.prim (.libxlDomainSuspend _)), ok =>
    if c = .perform3 then { l with suspended := ok } else l
  | .ask (.prim .virGetDomain), ok => if c = .finish3 then { l with gotDomain := ok } else l
  | .ask (.prim .libxlDomainDestroy), ok => if c = .confirm3 then { l with reaped := ok } else l
  | _, _ => l

/-- The jobs of a run as a monitor without requirements. -/
def monitor : Monitor (fun o : Call × Op => Res o.2) JobLife :=
  ⟨fun l o r => l.next o.1 o.2 r, fun _ _ => True⟩

/-- No job is left behind. -/
def Released (l : JobLife) : Prop := l.srcHeld = false ∧ l.dstHeld = false

instance (l : JobLife) : Decidable l.Released := inferInstanceAs (Decidable (_ ∧ _))

/-- What has to happen for no job to be left behind: Begin3 stops before its
description or can format it; then Prepare3 starts its thread; and if then the guest
is sent, Finish3 gets its handle and Confirm3 reaps the source. -/
def Orderly (l : JobLife) : Prop :=
  l.formatted = none ∨ l.formatted = some true ∧ l.threadCreated = true ∧
    (l.suspended = true → l.gotDomain = true ∧ l.reaped = true)

instance (l : JobLife) : Decidable l.Orderly := inferInstanceAs (Decidable (_ ∨ _))

@[simp] theorem monitor_next : monitor.next = fun l o r => l.next o.1 o.2 r := rfl

@[simp] theorem monitor_ok (l : JobLife) (o : Call × Op) : monitor.ok l o := trivial

@[simp] theorem ignores_aside (c : Call) (l : JobLife) : (monitor.at c).Ignores Op.Aside l := by
  rw [ignores_aside_iff, ignores_cleanup_iff, ignores_parse_iff, ignores_port_iff]
  simp [next]

attribute [local simp] next start

/-! ### The calls -/

/-- After Begin3 has returned a description. -/
def begun : JobLife := { start with srcHeld := true, formatted := some true }

/-- After Prepare3 has succeeded. -/
def prepared : JobLife := { begun with dstHeld := true, threadCreated := true }

/-- After Perform3 has succeeded. -/
def performed : JobLife := { prepared with suspended := true }

variable {strToLong : List Char → Option ℤ} {uri : Option Uri} {flags : MigrateFlags}

/-- Begin3 keeps the job of the source if it returns a description. Otherwise it ends it,
unless it is the formatting that has failed. -/
theorem wp_begin3 (xmlin : Bool) : (migrateBegin3 xmlin flags).wp (monitor.at .begin3)
    (fun xml l => if xml then l = begun ∧ flags.unsupported = false else (l.Released ↔ l.Orderly))
    (fun _ => True) start := by
  cases hflags : flags.unsupported <;>
  simp [migrateBegin3, begun, Released, Orderly, hflags]

/-- Prepare3 keeps the job of the destination if it succeeds. Where it fails the coordinator
calls nothing else, so that nobody ends the job of the source. -/
theorem wp_prepare3 (dname : Bool) (uriIn : Option Uri) (hflags : flags.unsupported = false) :
    (migratePrepare3 strToLong true dname uriIn flags).wp (monitor.at .prepare3)
      (fun r l => if r.1 < 0 then (l.Released ↔ l.Orderly) else l = prepared)
      (fun _ => True) begun := by
  cases uriIn <;>
  simp [migratePrepare3, migratePrepare3.assign, migratePrepare3.choosePort,
    migratePrepare3.receive, begun, prepared, Released, Orderly, hflags, Option.forall]

/-- Perform3 ends the job of the source if it fails, and leaves it to Confirm3 if it succeeds.
-/
theorem wp_perform3 (uri : Option Uri) (hflags : flags.unsupported = false) :
    (migratePerform3 strToLong uri flags).wp (monitor.at .perform3)
      (fun ret l => if ret < 0 then l = { prepared with srcHeld := false } else l = performed)
      (fun _ => True) prepared := by
  simp [migratePerform3, begun, prepared, performed, hflags, Option.forall]

/-- Finish3 after a failure: the job of the destination is ended. -/
theorem wp_finish3_cancelled (uri : Option Uri) (hflags : flags.unsupported = false) :
    (migrateFinish3 strToLong uri flags true).wp (monitor.at .finish3)
      (fun _ l => l.Released ↔ l.Orderly) (fun _ => True) { prepared with srcHeld := false } := by
  simp [migrateFinish3, migrateFinish3.lookup, migrateFinish3.cleanup, begun, prepared, Released,
    Orderly, hflags, Option.forall]

/-- Finish3 after the guest is sent. -/
theorem wp_finish3 (uri : Option Uri) (hflags : flags.unsupported = false) :
    (migrateFinish3 strToLong uri flags false).wp (monitor.at .finish3)
      (fun dom l => l = { performed with dstHeld := false, gotDomain := dom }) (fun _ => True)
      performed := by
  cases hpaused : flags.paused <;>
  simp [migrateFinish3, migrateFinish3.lookup, migrateFinish3.cleanup, begun, prepared, performed,
    hflags, hpaused, Option.forall]

/-- Confirm3 ends the job of the source once it has reaped the guest. Where there is no handle
it returns without ending it. -/
theorem wp_confirm3 (dom : Bool) (hflags : flags.unsupported = false) :
    (migrateConfirm3 flags (!dom)).wp (monitor.at .confirm3) (fun _ l => l.Released ↔ l.Orderly)
      (fun _ => True) { performed with dstHeld := false, gotDomain := dom } := by
  cases dom <;> cases hundef : flags.undefineSource <;>
  simp [migrateConfirm3, begun, prepared, performed, Released, Orderly, hflags, hundef]

/-! ### Whole runs -/

/-- What becomes of the jobs of a migration. -/
theorem wp_migrate (m : Migration) : (migrate m).wp monitor
    (fun _ l => l.Released ↔ l.Orderly) (fun _ => True) start := by
  refine wp_migrate_of (fun l => l = begun ∧ m.flags.unsupported = false)
    (fun l => l = prepared ∧ m.flags.unsupported = false)
    (fun l => l = { prepared with srcHeld := false } ∧ m.flags.unsupported = false)
    (fun l => l = performed ∧ m.flags.unsupported = false)
    (fun dom l => l = { performed with dstHeld := false, gotDomain := dom } ∧
      m.flags.unsupported = false) (wp_begin3 m.xmlin) ?_ ?_ ?_ ?_ ?_
  · rintro l ⟨rfl, hflags⟩
    refine Prog.wp_mono ?_ (fun _ => id) (wp_prepare3 m.dname m.uriIn hflags)
    intro r l hl
    split_ifs with hret
    · simpa [hret] using hl
    · exact ⟨by simpa [hret] using hl, hflags⟩
  · rintro uri l ⟨rfl, hflags⟩
    refine Prog.wp_mono ?_ (fun _ => id) (wp_perform3 uri hflags)
    intro ret l hl
    split_ifs with hret
    · exact ⟨by simpa [hret] using hl, hflags⟩
    · exact ⟨by simpa [hret] using hl, hflags⟩
  · rintro uri l ⟨rfl, hflags⟩
    exact wp_finish3_cancelled uri hflags
  · rintro uri l ⟨rfl, hflags⟩
    exact Prog.wp_mono (fun _ _ hl => ⟨hl, hflags⟩) (fun _ => id) (wp_finish3 uri hflags)
  · rintro dom l ⟨rfl, hflags⟩
    exact wp_confirm3 dom hflags

end JobLife

/-- The jobs of a run. -/
def jobLife (tr : List (Event fun o : Call × Op => Res o.2)) : JobLife :=
  JobLife.monitor.run JobLife.start tr

/-- **Which migrations leave no job behind.** A migration that runs to its end holds no job on
either host exactly when it is orderly: Begin3 stops before its description or can format it;
then Prepare3 starts its thread; and if then the guest is sent, Finish3 gets its handle and
Confirm3 reaps the source. This is so for all arguments and all answers on both hosts. -/
theorem migrate_releases_iff {m : Migration} {tr : List (Event fun o : Call × Op => Res o.2)}
    (h : (migrate m).Runs tr (some ())) : (jobLife tr).Released ↔ (jobLife tr).Orderly :=
  (Prog.wp_sound (JobLife.wp_migrate m) h).1 () rfl

/-- If all goes well no job is left behind. -/
theorem migrate_releases_allWell :
    (jobLife ((migrate plainMigration).eval fun o : Call × Op => allWell o.2).1).Released :=
  (migrate_releases_iff (Prog.runs_eval (fun o : Call × Op => allWell o.2) _)).mpr (by decide)

/-- **A migration that leaves a job behind**: Finish3 returns no handle, Confirm3
resumes the source, and the job of the source is held for ever. -/
theorem migrate_keeps_job : ∃ tr, (migrate plainMigration).Runs tr (some ()) ∧
    (jobLife tr).srcHeld = true ∧ ¬(jobLife tr).Released :=
  ⟨_, Prog.runs_eval noHandle _, by decide, by decide⟩

end Libxl

end OpenLog
