import OpenLog.Libxl.Domain

/-!
# Jobs in the series of November 2012

The later series introduces the jobs anew, without a queue and with two kinds of asynchronous
jobs only, a save and a dump. Its functions are here where they differ from those of
`OpenLog.Libxl.Domain`: RestoreFlags runs as a normal job, and CoreDump keeps the driver locked
from its start to its end. Saving and destroying a domain consist of the same operations as
before, and so do the functions that the series calls and does not show, `libxlVmStart` and
`libxlVmReap`. That the domain has a managed save is noted in a field that nothing here reads.
-/

namespace OpenLog

namespace Libxl

namespace Patch1102

open Logic

/-- `libxlDomainDestroyFlags`. -/
def domainDestroyFlags (flagsOk : Bool) : Code Int := Libxl.domainDestroyFlags flagsOk

/-- `libxlDoDomainSave`. -/
def doDomainSave : Code Int := Libxl.doDomainSave

/-- `libxlDomainRestoreFlags`. -/
def domainRestoreFlags (flagsOk dxml : Bool) : Code Int := do
  if !flagsOk then
    report .invalidArg "unsupported flags (0x%lx)"
    return -1
  else if dxml then
    report .argumentUnsupported "xml modification unsupported"
    return -1
  else
    act .driverLock
    if !(← prim .libxlSaveImageOpen) then cleanup false .invalid (-1)
    else if ← ask .isDuplicate then cleanup false .opened (-1)
    else if !(← ask .assignDef) then cleanup false .opened (-1)
    else if (← beginJob modifyWithDriver) < 0 then cleanup true .opened (-1)
    else
      let ret ← vmStart false true false
      if ret < 0 then
        if !(← ask .isPersistent) then
          -- the job is a normal one
          if ← ask .endAsyncJob then act .removeInactive
          cleanup false .opened ret
        else endjob ret
      else endjob ret
where
  endjob (ret : Int) : Code Int := do
    let vm ← ask .endJob
    cleanup vm .opened ret
  cleanup (vm : Bool) (fd : Fd) (ret : Int) : Code Int := do
    closeFd fd "cannot close file"
    unlockIf vm
    act .driverUnlock
    return ret

/-- `libxlDomainCoreDump`. -/
def domainCoreDump (flags : DumpFlags) : Code Int := do
  if flags.unsupported then
    report .invalidArg "unsupported flags (0x%lx)"
    return -1
  else
    act .driverLock
    let vm ← ask .findByUUID
    if !vm then
      report .noDomain "No domain with matching uuid '%s'"
      cleanup vm none (-1)
    else if (← beginJob (domainObjBeginAsyncJobWithDriver .dump dump_ne_none)) < 0 then
      cleanup vm none (-1)
    else if !(← ask .isActive) then
      report .operationInvalid "Domain is not running"
      endjob true none (-1)
    else if flags.live then dump false
    else if !(← ask .isRunning) then dump false
    else if !(← prim .libxlDomainPause) then
      report .internalError
        "Before dumping core, failed to suspend domain '%d' with libxenlight"
      endjob true none (-1)
    else
      act (.setState .pausedDump)
      dump true
where
  dump (paused : Bool) : Code Int := do
    act .objUnlock
    act .driverUnlock
    let dumped ← prim .libxlDomainCoreDump
    act .driverLock
    act .objLock
    -- `ret` is the answer of `libxl_domain_core_dump` from here on: negative or 0
    if !dumped then
      report .internalError "Failed to dump core of domain '%d' with libxenlight"
      endjobUnpause true paused none (-1)
    else if flags.crash then
      if (← vmReap .shutoffCrashed) ≠ 0 then
        report .internalError "Failed to destroy domain '%d'"
        endjobUnpause true paused none 0
      else
        let event ← eventNew .stoppedCrashed
        if !(← ask .isPersistent) then
          if ← ask .endAsyncJob then act .removeInactive
          endjobUnpause false paused event 0
        else endjobUnpause true paused event 0
    else endjobUnpause true paused none 0
  endjobUnpause (vm paused : Bool) (event : Option DomEvent) (ret : Int) : Code Int := do
    -- `virDomainObjIsActive(vm)` goes through `vm`
    deref vm
    if (← ask .isActive) && paused then
      if !(← prim .libxlDomainUnpause) then
        report .internalError
          "After dumping core, failed to resume domain '%d' with libxenlight"
      else act (.setState .runningUnpaused)
    endjob vm event ret
  endjob (vm : Bool) (event : Option DomEvent) (ret : Int) : Code Int := do
    if vm then cleanup (← ask .endAsyncJob) event ret
    else cleanup false event ret
  cleanup (vm : Bool) (event : Option DomEvent) (ret : Int) : Code Int := do
    unlockIf vm
    queueIf event
    act .driverUnlock
    return ret

/-! ### What is left to do at a label -/

section Labels

variable {σ : Type*} {M : Monitor Res σ} {s : σ} {Q : Int → σ → Prop} {E : σ → Prop}
variable {vm paused : Bool} {fd : Fd} {event : Option DomEvent} {ret : Int}

@[simp] theorem wp_restoreFlags_cleanup :
    (domainRestoreFlags.cleanup vm fd ret).wp M Q E s ↔
      (Libxl.domainRestoreFlags.cleanup vm fd ret).wp M Q E s := Iff.rfl

/-- The job that is ended is a normal one. -/
@[simp] theorem wp_restoreFlags_endjob :
    (domainRestoreFlags.endjob ret).wp M Q E s ↔ M.ok s (.ask .endJob) ∧ ∀ more : Bool,
      (domainRestoreFlags.cleanup more .opened ret).wp M Q E (M.next s (.ask .endJob) more) := by
  rw [domainRestoreFlags.endjob, wp_ask]

@[simp] theorem wp_coreDump_cleanup : (domainCoreDump.cleanup vm event ret).wp M Q E s ↔
    Does M (Q ret) (unlocks vm ++ queues event ++ [.driverUnlock]) s :=
  wp_unlockBoth

/-- The job is ended here if there is still a domain. -/
@[simp] theorem wp_coreDump_endjob : (domainCoreDump.endjob vm event ret).wp M Q E s ↔
    if vm then M.ok s (.ask .endAsyncJob) ∧ ∀ more : Bool,
      (domainCoreDump.cleanup more event ret).wp M Q E (M.next s (.ask .endAsyncJob) more)
    else (domainCoreDump.cleanup false event ret).wp M Q E s := by
  rw [domainCoreDump.endjob, Prog.wp_ite, wp_ask]

/-- A domain that is gone is asked whether it is active all the same. -/
@[simp] theorem wp_coreDump_endjobUnpause_false :
    (domainCoreDump.endjobUnpause false paused event ret).wp M Q E s ↔ E s := Iff.rfl

/-- A guest that was paused for the dump goes on, if it is still active and can be unpaused. -/
@[simp] theorem wp_coreDump_endjobUnpause_true :
    (domainCoreDump.endjobUnpause true paused event ret).wp M Q E s ↔
      M.ok s (.ask .isActive) ∧ ∀ active : Bool,
        if active && paused then
          M.ok (M.next s (.ask .isActive) active) (.ask (.prim .libxlDomainUnpause)) ∧
          ∀ unpaused : Bool, Does M ((domainCoreDump.endjob true event ret).wp M Q E)
            [if unpaused then .setState .runningUnpaused else .report .internalError
              "After dumping core, failed to resume domain '%d' with libxenlight"]
            (M.next (M.next s (.ask .isActive) active) (.ask (.prim .libxlDomainUnpause)) unpaused)
        else
          (domainCoreDump.endjob true event ret).wp M Q E (M.next s (.ask .isActive) active) := by
  cases paused <;> simp [domainCoreDump.endjobUnpause]

end Labels

end Patch1102

end Libxl

end OpenLog
