import OpenLog.Libxl.Op

/-!
# The domain functions of the driver

Starting, stopping, saving, restoring and dumping a domain, as programs over the operations of
`OpenLog.Libxl.Op`, one definition for each function of the driver and, inside it, one for each
label that is jumped to. `OpenLog.Libxl.Entry` collects the functions that a client calls and that
end a job.

The text of an error is the source's, before its arguments are filled in.

## Parts that are called everywhere

Cleaning up after a domain and starting one come up in most functions and have long programs of
their own. Most monitors look at none of their operations, and then a start comes to its result
and cleaning up to nothing (`OpenLog.Libxl.wp_vmStart`, `OpenLog.Libxl.wp_vmCleanup`). The
operations that they consist of are listed once (`OpenLog.Libxl.vmStart_calls`).

## Labels

The functions end in labels, which the error paths jump to with different values. For each label
there is a rule that says what is left to do there, for any monitor. The results on single
functions in the other modules go through these rules and look into no label.
-/

namespace OpenLog

namespace Libxl

open Logic

/-! ### Reaping a domain -/

/-- `libxlVmCleanup`. -/
def vmCleanup (reason : DomState) : Code Unit := do
  if ← ask .hasEventHandle then act .removeEventHandle
  if ← ask .hasWaiter then act .stopWaiting
  if ← ask .isPersistent then
    act (.setId false)
    act (.setState reason)
  if ← ask .hasReservedVncPort then act .clearVncPort
  if ← ask .hasCputune then act .clearCputune
  if ← prim .virAsprintf then act .unlinkStateFile
  if ← ask .hasNewDef then act .adoptNewDef
  return ()

/-- `libxlVmReap`. -/
def vmReap (reason : DomState) : Code Int := do
  if ← prim .libxlDomainDestroy then
    vmCleanup reason
    return 0
  else
    report .internalError "Unable to cleanup domain %d"
    return -1

/-! ### Starting a domain -/

/-- `libxlCreateDomEvents`. -/
def createDomEvents : Code Int := do
  if !(← prim .virAlloc) then
    report .noMemory ""
    return -1
  else if !(← prim .libxlWaitForDomainDeath) then error
  else if !(← prim .libxlGetWaitFd) then error
  else
    act .objRef
    if !(← prim .virEventAddHandle) then
      act .objUnref
      error
    else return 0
where
  error : Code Int := do
    act .freeWaiter
    return -1

/-- The label `error` of `libxlVmStart`; `domidSet` is `domid > 0` and `managedFd` the
file of the managed save. -/
def vmStartError (domidSet : Bool) (managedFd : Fd) : Code Int := do
  if domidSet then
    let _ ← prim .libxlDomainDestroy
    act (.setId false)
    act (.setState .shutoffFailed)
  closeManaged managedFd
  return -1
where
  /-- `VIR_FORCE_CLOSE(managed_save_fd)`, which reports nothing. -/
  closeManaged (fd : Fd) : Code Unit := do
    if fd ≠ .invalid then let _ ← ask (.close fd)

/-- `libxlVmStart` from the building of the domain's configuration on. -/
def vmStartBuild (startPaused restore driverLocked : Bool) (managedFd : Fd) : Code Int := do
  if !(← prim .libxlBuildDomainConfig) then return -1
  else if !(← prim .libxlFreeMem) then
    report .internalError "libxenlight failed to get free memory for domain '%s'"
    vmStartError false managedFd
  else
    if driverLocked then act .driverUnlock
    let created ← create restore
    if driverLocked then
      act .objUnlock
      act .driverLock
      act .objLock
    match created with
    | .failed domidSet =>
      if restore then report .internalError "libxenlight failed to restore domain '%s'"
      else report .internalError "libxenlight failed to create new domain '%s'"
      vmStartError domidSet managedFd
    | .ok =>
      act (.setId true)
      if !(← prim .virDomainDefFormat) then vmStartError true managedFd
      else if !(← prim .libxlUserdataStore) then
        report .internalError "libxenlight failed to store userdata"
        vmStartError true managedFd
      else if (← createDomEvents) < 0 then vmStartError true managedFd
      else if !(← prim .libxlSetVcpuAffinites) then vmStartError true managedFd
      else
        if startPaused then act (.setState .pausedUser)
        else
          -- whether the domain could be unpaused is not looked at
          let _ ← prim .libxlDomainUnpause
          act (.setState .runningBooted)
        if !(← prim .virDomainSaveStatus) then vmStartError true managedFd
        else
          let event ← eventNew (if restore then .startedRestored else .startedBooted)
          act (.eventQueue event)
          vmStartError.closeManaged managedFd
          return 0

/-- `libxlVmStart`; `restore` says whether it is given a file to restore from. Without
one it looks for a managed save. -/
def vmStart (startPaused restore driverLocked : Bool) : Code Int := do
  if restore then vmStartBuild startPaused true driverLocked .invalid
  else if !(← prim .libxlManagedSavePath) then vmStartError false .invalid
  else if ← ask .managedSaveExists then
    if !(← prim .libxlSaveImageOpen) then vmStartError false .invalid
    else if !(← ask .managedSaveMatches) then
      report .operationFailed
        "cannot restore domain '%s' uuid %s from a file which belongs to domain '%s' uuid %s"
      vmStartError false .opened
    else
      act .assignManagedDef
      act .unlinkManagedSave
      vmStartBuild startPaused true driverLocked .opened
  else vmStartBuild startPaused false driverLocked .invalid

/-! ### What cleaning up and starting amount to -/

/-- Cleaning up after a domain asks seven questions and does six things, and nothing else. -/
theorem vmCleanup_calls (reason : DomState) : (vmCleanup reason).Calls Op.Cleanup := by
  simp [vmCleanup, Op.Cleanup]

/-- It always comes back. -/
theorem vmCleanup_canReturn (reason : DomState) (u : Unit) : (vmCleanup reason).CanReturn u := by
  simp [vmCleanup]

/-- **What starting a domain consists of**, where the caller keeps the driver locked: on every
path, the failing ones included, it calls the operations of `OpenLog.Libxl.Op.Start` only. -/
theorem vmStart_calls (startPaused restore : Bool) :
    (vmStart startPaused restore false).Calls Op.Start := by
  simp [vmStart, vmStartBuild, vmStartError, vmStartError.closeManaged, createDomEvents,
    createDomEvents.error, Op.Start, startPrims]

/-- It returns `0` or `-1`. -/
theorem vmStart_canReturn (startPaused restore : Bool) (a : Int) :
    (vmStart startPaused restore false).CanReturn a ↔ a = 0 ∨ a = -1 := by
  simp [vmStart, vmStartBuild, vmStartError, vmStartError.closeManaged, createDomEvents,
    createDomEvents.error]
  omega

section

variable {α : Type} {σ : Type*} {M : Monitor Res σ} {s : σ} {Q : α → σ → Prop} {E : σ → Prop}

/-- A monitor that does not look at the operations of cleaning up does not see it. -/
@[simp] theorem wp_vmCleanup {reason : DomState} {f : Unit → Code α}
    (hS : M.Ignores Op.Cleanup s) :
    (vmCleanup reason >>= f).wp M Q E s ↔ (f ()).wp M Q E s := by
  rw [(vmCleanup_calls reason).wp_bind hS]
  exact ⟨fun h => h () (vmCleanup_canReturn reason ()), fun h _ _ => h⟩

/-- A monitor that does not look at the operations of starting sees its result. -/
@[simp] theorem wp_vmStart {startPaused restore : Bool} {f : Int → Code α}
    (hS : M.Ignores Op.Start s) :
    (vmStart startPaused restore false >>= f).wp M Q E s ↔
      (f 0).wp M Q E s ∧ (f (-1)).wp M Q E s := by
  rw [(vmStart_calls startPaused restore).wp_bind hS]
  simp [vmStart_canReturn]

end

/-! ### Jobs -/

/-- The four functions that start a job, as they are called by the functions below:
`0` or `-1`. -/
def beginJob (call : BeginCall) : Code Int := do
  match ← begin call with
  | .ok => return 0
  | .refused => return -1
  | .clockFailed => return -1

/-- A modifying job with the driver locked. -/
def modifyWithDriver : BeginCall := ⟨true, .modify, .none, by decide, by decide⟩

/-- A destroying job with the driver locked. -/
def destroyWithDriver : BeginCall := ⟨true, .destroy, .none, by decide, by decide⟩

/-- The call that `libxlDomainObjBeginJobWithDriver` makes for a modifying job. It is one that
the function does not refuse to make. -/
theorem modifyWithDriver_eq : domainObjBeginJobWithDriver .modify = some modifyWithDriver := rfl

/-- The same for the job of DestroyFlags. -/
theorem destroyWithDriver_eq : domainObjBeginJobWithDriver .destroy = some destroyWithDriver :=
  rfl

section

variable {α : Type} {σ : Type*} {M : Monitor Res σ} {s : σ} {Q : α → σ → Prop} {E : σ → Prop}
variable {A : σ → (o : Op) → Res o → Prop}

/-- **The start of a job** gives it and returns `0`, or returns `-1`. There are two ways to
fail: the job is refused, and the clock cannot be read. -/
@[simp] theorem wp_beginJob {call : BeginCall} {f : Int → Code α} :
    (beginJob call >>= f).wp M Q E s ↔ M.ok s (.begin call) ∧
      (f 0).wp M Q E (M.next s (.begin call) BeginResult.ok) ∧
      (f (-1)).wp M Q E (M.next s (.begin call) BeginResult.refused) ∧
      (f (-1)).wp M Q E (M.next s (.begin call) BeginResult.clockFailed) := by
  rw [beginJob, bind_assoc, wp_begin, forall_beginResult]
  rfl

/-- The start of a job where its outcome is restricted. -/
@[simp] theorem wpOn_beginJob {call : BeginCall} {f : Int → Code α} :
    (beginJob call >>= f).wpOn A M Q E s ↔ M.ok s (.begin call) ∧
      (A s (.begin call) BeginResult.ok →
        (f 0).wpOn A M Q E (M.next s (.begin call) BeginResult.ok)) ∧
      (A s (.begin call) BeginResult.refused →
        (f (-1)).wpOn A M Q E (M.next s (.begin call) BeginResult.refused)) ∧
      (A s (.begin call) BeginResult.clockFailed →
        (f (-1)).wpOn A M Q E (M.next s (.begin call) BeginResult.clockFailed)) := by
  rw [beginJob, bind_assoc, wpOn_begin, forall_beginResult]
  rfl

/-- **A reaping** cleans up after the domain if the library can destroy it, and returns `-1`
with a report if it cannot. -/
@[simp] theorem wp_vmReap {reason : DomState} {f : Int → Code α} :
    (vmReap reason >>= f).wp M Q E s ↔ M.ok s (.ask (.prim .libxlDomainDestroy)) ∧
      (report .internalError "Unable to cleanup domain %d" >>= fun _ => f (-1)).wp M Q E
        (M.next s (.ask (.prim .libxlDomainDestroy)) false) ∧
      (vmCleanup reason >>= fun _ => f 0).wp M Q E
        (M.next s (.ask (.prim .libxlDomainDestroy)) true) := by
  rw [vmReap, bind_assoc, wp_prim, Bool.forall_bool]
  simp only [Bool.false_eq_true, if_false, if_true, bind_assoc]
  rfl

/-- A reaping where the answer of the library is restricted. -/
@[simp] theorem wpOn_vmReap {reason : DomState} {f : Int → Code α} :
    (vmReap reason >>= f).wpOn A M Q E s ↔ M.ok s (.ask (.prim .libxlDomainDestroy)) ∧
      (A s (.ask (.prim .libxlDomainDestroy)) false →
        (report .internalError "Unable to cleanup domain %d" >>= fun _ => f (-1)).wpOn A M Q E
          (M.next s (.ask (.prim .libxlDomainDestroy)) false)) ∧
      (A s (.ask (.prim .libxlDomainDestroy)) true →
        (vmCleanup reason >>= fun _ => f 0).wpOn A M Q E
          (M.next s (.ask (.prim .libxlDomainDestroy)) true)) := by
  rw [vmReap, bind_assoc, wpOn_prim, Bool.forall_bool]
  simp only [Bool.false_eq_true, if_false, if_true, bind_assoc]
  rfl

end

/-! ### Creating, pausing and stopping a domain -/

/-- `libxlDomainCreateXML`: is a domain handle returned? `flagsOk` says whether the
flags pass `virCheckFlags`, and `startPaused` is the one flag there is. -/
def domainCreateXML (flagsOk startPaused : Bool) : Code Bool := do
  if !flagsOk then
    report .invalidArg "unsupported flags (0x%lx)"
    return false
  else
    act .driverLock
    if !(← prim .virDomainDefParseString) then cleanup false false
    else if ← ask .isDuplicate then cleanup false false
    else if !(← ask .assignDef) then cleanup false false
    else if (← beginJob modifyWithDriver) < 0 then cleanup true false
    else if (← vmStart startPaused false false) < 0 then
      -- `vm = NULL` follows, whether references remain or not
      if ← ask .endJob then act .removeInactive
      cleanup false false
    else
      let dom ← prim .virGetDomain
      let vm ← ask .endJob
      cleanup vm dom
where
  cleanup (vm dom : Bool) : Code Bool := do
    unlockIf vm
    act .driverUnlock
    return dom

/-- The end of the functions that unlock the driver early: `if (vm)
virDomainObjUnlock(vm)`, then the event, for which the driver is locked again. -/
def cleanupEvent (vm : Bool) (event : Option DomEvent) (ret : Int) : Code Int := do
  unlockIf vm
  if event.isSome then
    act .driverLock
    act (.eventQueue event)
    act .driverUnlock
  return ret

/-- `libxlDomainSuspend`. The start of its job is commented out in the source, its end
is not. -/
def domainSuspend : Code Int := do
  act .driverLock
  let vm ← ask .findByUUID
  act .driverUnlock
  if !vm then
    report .noDomain "No domain with matching uuid '%s'"
    cleanupEvent vm none (-1)
  else if !(← ask .isActive) then
    report .operationInvalid "Domain is not running"
    cleanupEvent vm none (-1)
  else if ← ask .isPaused then save none
  else if !(← prim .libxlDomainPause) then
    report .internalError "Failed to suspend domain '%d' with libxenlight"
    endjob none (-1)
  else
    act (.setState .pausedUser)
    save (← eventNew .suspendedPaused)
where
  save (event : Option DomEvent) : Code Int := do
    if !(← prim .virDomainSaveStatus) then endjob event (-1)
    else endjob event 0
  endjob (event : Option DomEvent) (ret : Int) : Code Int := do
    let vm ← ask .endJob
    cleanupEvent vm event ret

/-- `libxlDomainResume`. -/
def domainResume : Code Int := do
  act .driverLock
  let vm ← ask .findByUUID
  act .driverUnlock
  if !vm then
    report .noDomain "No domain with matching uuid '%s'"
    cleanupEvent vm none (-1)
  else if (← beginJob (domainObjBeginJob .modify modify_normal)) < 0 then
    cleanupEvent vm none (-1)
  else if !(← ask .isActive) then
    report .operationInvalid "Domain is not running"
    endjob none (-1)
  else if !(← ask .isPaused) then save none
  else if !(← prim .libxlDomainUnpause) then
    report .internalError "Failed to resume domain '%d' with libxenlight"
    endjob none (-1)
  else
    act (.setState .runningUnpaused)
    save (← eventNew .resumedUnpaused)
where
  save (event : Option DomEvent) : Code Int := do
    if !(← prim .virDomainSaveStatus) then endjob event (-1)
    else endjob event 0
  endjob (event : Option DomEvent) (ret : Int) : Code Int := do
    let vm ← ask .endJob
    cleanupEvent vm event ret

/-- `libxlDomainShutdownFlags` and `libxlDomainReboot`, which differ in the request
and in a text. -/
def domainShutdownWith (request : Prim) (text : String) (flagsOk : Bool) : Code Int := do
  if !flagsOk then
    report .invalidArg "unsupported flags (0x%lx)"
    return -1
  else
    act .driverLock
    let vm ← ask .findByUUID
    if !vm then
      report .noDomain "No domain with matching uuid '%s'"
      cleanup vm (-1)
    else if (← beginJob modifyWithDriver) < 0 then cleanup vm (-1)
    else if !(← ask .isActive) then
      report .operationInvalid "Domain is not running"
      endjob (-1)
    else if !(← prim request) then
      report .internalError text
      endjob (-1)
    else endjob 0
where
  endjob (ret : Int) : Code Int := do
    let vm ← ask .endJob
    cleanup vm ret
  cleanup (vm : Bool) (ret : Int) : Code Int := do
    unlockIf vm
    act .driverUnlock
    return ret

/-- `libxlDomainShutdownFlags`. -/
def domainShutdownFlags : Bool → Code Int :=
  domainShutdownWith .libxlDomainShutdownPoweroff
    "Failed to shutdown domain '%d' with libxenlight"

/-- `libxlDomainReboot`. -/
def domainReboot : Bool → Code Int :=
  domainShutdownWith .libxlDomainShutdownReboot
    "Failed to reboot domain '%d' with libxenlight"

/-- `libxlDomainDestroyFlags`. -/
def domainDestroyFlags (flagsOk : Bool) : Code Int := do
  if !flagsOk then
    report .invalidArg "unsupported flags (0x%lx)"
    return -1
  else
    act .driverLock
    let vm ← ask .findByUUID
    if !vm then
      report .noDomain "No domain with matching uuid '%s'"
      cleanup vm none (-1)
    else if (← beginJob destroyWithDriver) < 0 then cleanup vm none (-1)
    else if !(← ask .isActive) then
      report .operationInvalid "Domain is not running"
      endjob true none (-1)
    else
      let event ← eventNew .stoppedDestroyed
      if (← vmReap .shutoffDestroyed) ≠ 0 then
        report .internalError "Failed to destroy domain '%d'"
        endjob true event (-1)
      else if !(← ask .isPersistent) then
        if ← ask .endJob then act .removeInactive
        endjob false event 0
      else endjob true event 0
where
  endjob (vm : Bool) (event : Option DomEvent) (ret : Int) : Code Int := do
    if vm then cleanup (← ask .endJob) event ret
    else cleanup false event ret
  cleanup (vm : Bool) (event : Option DomEvent) (ret : Int) : Code Int := do
    unlockIf vm
    queueIf event
    act .driverUnlock
    return ret

/-! ### Saving, restoring and dumping a domain -/

/-- `libxlDoDomainSave`: the result, and whether the caller's pointer `vm` is still
good is not told to it. -/
def doDomainSave : Code Int := do
  if (← beginJob (domainObjBeginAsyncJobWithDriver .save save_ne_none)) < 0 then
    cleanup .unassigned none (-1)
  else if ← ask .isPaused then
    report .operationInvalid
      "Domain '%d' has to be running because libxenlight will suspend it"
    endjob true .unassigned none (-1)
  else if !(← prim .virFileOpenAs) then
    report .system "Failed to create domain save file '%s'"
    endjob true .invalid none (-1)
  else if !(← prim .virDomainDefFormat) then endjob true .opened none (-1)
  else if !(← prim .safewriteHeader) then
    report .operationFailed "Failed to write save file header"
    endjob true .opened none (-1)
  else if !(← prim .safewriteXml) then
    report .operationFailed "Failed to write xml description"
    endjob true .opened none (-1)
  else
    act .objUnlock
    act .driverUnlock
    let suspended ← prim (.libxlDomainSuspend false)
    act .driverLock
    act .objLock
    -- `ret` is the answer of `libxl_domain_suspend` from here on: negative or 0
    if !suspended then
      report .internalError "Failed to save domain '%d' with libxenlight"
      endjob true .opened none (-1)
    else
      let event ← eventNew .stoppedSaved
      if (← vmReap .shutoffSaved) ≠ 0 then
        report .internalError "Failed to destroy domain '%d'"
        endjob true .opened event 0
      else if !(← ask .isPersistent) then
        if ← ask .endAsyncJob then act .removeInactive
        endjob false .opened event 0
      else endjob true .opened event 0
where
  endjob (vm : Bool) (fd : Fd) (event : Option DomEvent) (ret : Int) : Code Int := do
    -- the caller's `vm` is not changed by this function's `vm = NULL`
    if vm then let _ ← ask .endAsyncJob
    cleanup fd event ret
  cleanup (fd : Fd) (event : Option DomEvent) (ret : Int) : Code Int := do
    closeFd fd "cannot close file"
    queueIf event
    return ret

/-- `libxlDomainSaveFlags`; `dxml` says whether a replacement description is given. -/
def domainSaveFlags (flagsOk dxml : Bool) : Code Int := do
  if !flagsOk then
    report .invalidArg "unsupported flags (0x%lx)"
    return -1
  else if dxml then
    report .argumentUnsupported "xml modification unsupported"
    return -1
  else
    act .driverLock
    let vm ← ask .findByUUID
    if !vm then
      report .noDomain "No domain with matching uuid '%s'"
      cleanup vm (-1)
    else if !(← ask .isActive) then
      report .operationInvalid "Domain is not running"
      cleanup vm (-1)
    else
      let ret ← doDomainSave
      cleanup vm ret
where
  cleanup (vm : Bool) (ret : Int) : Code Int := do
    unlockIf vm
    act .driverUnlock
    return ret

/-- `libxlDomainRestoreFlags`. -/
def domainRestoreFlags (flagsOk dxml : Bool) : Code Int := do
  if !flagsOk then
    report .invalidArg "unsupported flags (0x%lx)"
    return -1
  else if dxml then
    report .argumentUnsupported "xml modification unsupported"
    return -1
  else
    act .driverLock
    if !(← prim .libxlSaveImageOpen) then cleanup false .invalid (-1)
    else if ← ask .isDuplicate then cleanup false .opened (-1)
    else if !(← ask .assignDef) then cleanup false .opened (-1)
    else if (← beginJob (domainObjBeginAsyncJobWithDriver .restore restore_ne_none)) < 0 then
      cleanup true .opened (-1)
    else
      let ret ← vmStart false true false
      if ret < 0 then
        if !(← ask .isPersistent) then
          if ← ask .endAsyncJob then act .removeInactive
          cleanup false .opened ret
        else endjob ret
      else endjob ret
where
  endjob (ret : Int) : Code Int := do
    let vm ← ask .endAsyncJob
    cleanup vm .opened ret
  cleanup (vm : Bool) (fd : Fd) (ret : Int) : Code Int := do
    closeFd fd "cannot close file"
    unlockIf vm
    act .driverUnlock
    return ret

/-- The flags of `libxlDomainCoreDump`. -/
structure DumpFlags where
  live : Bool
  crash : Bool
  unsupported : Bool
  deriving DecidableEq

/-- `libxlDomainCoreDump`. -/
def domainCoreDump (flags : DumpFlags) : Code Int := do
  if flags.unsupported then
    report .invalidArg "unsupported flags (0x%lx)"
    return -1
  else
    act .driverLock
    let vm ← ask .findByUUID
    act .driverUnlock
    if !vm then
      report .noDomain "No domain with matching uuid '%s'"
      cleanupEvent vm none (-1)
    -- the driver is not locked here, although the name of the call asks for it
    else if (← beginJob (domainObjBeginAsyncJobWithDriver .dump dump_ne_none)) < 0 then
      cleanupEvent vm none (-1)
    else if !(← ask .isActive) then
      report .operationInvalid "Domain is not running"
      endjob true none (-1)
    else if flags.live then dump false
    else if !(← ask .isRunning) then dump false
    else if !(← prim .libxlDomainPause) then
      report .internalError
        "Before dumping core, failed to suspend domain '%d' with libxenlight"
      endjob true none (-1)
    else
      act (.setState .pausedDump)
      dump true
where
  dump (paused : Bool) : Code Int := do
    if !(← prim .libxlDomainCoreDump) then
      report .internalError "Failed to dump core of domain '%d' with libxenlight"
      endjobUnpause true paused none (-1)
    else
      act .driverLock
      if flags.crash then
        if (← vmReap .shutoffCrashed) ≠ 0 then
          report .internalError "Failed to destroy domain '%d'"
          endjobUnlock true paused none (-1)
        else
          let event ← eventNew .stoppedCrashed
          if !(← ask .isPersistent) then
            if ← ask .endAsyncJob then act .removeInactive
            endjobUnlock false paused event 0
          else endjobUnlock true paused event 0
      else endjobUnlock true paused none 0
  endjobUnlock (vm paused : Bool) (event : Option DomEvent) (ret : Int) : Code Int := do
    act .driverUnlock
    endjobUnpause vm paused event ret
  endjobUnpause (vm paused : Bool) (event : Option DomEvent) (ret : Int) : Code Int := do
    -- `virDomainObjIsActive(vm)` goes through `vm`
    deref vm
    if (← ask .isActive) && paused then
      if !(← prim .libxlDomainUnpause) then
        report .internalError
          "After dumping core, failed to resume domain '%d' with libxenlight"
      else act (.setState .runningUnpaused)
    endjob vm event ret
  endjob (vm : Bool) (event : Option DomEvent) (ret : Int) : Code Int := do
    if vm then cleanupEvent (← ask .endAsyncJob) event ret
    else cleanupEvent false event ret

/-! ### What is left to do at a label -/

section Labels

variable {α : Type} {σ : Type*} {M : Monitor Res σ} {s : σ} {E : σ → Prop}
variable {vm paused : Bool} {fd : Fd} {event : Option DomEvent} {ret : Int} {Q : Int → σ → Prop}

/-- CreateXML unlocks the domain, if it still has one, and the driver. -/
@[simp] theorem wp_createXML_cleanup {dom : Bool} {Q : Bool → σ → Prop} :
    (domainCreateXML.cleanup vm dom).wp M Q E s ↔
      Does M (Q dom) (unlocks vm ++ [.driverUnlock]) s := by
  cases vm <;> simp [domainCreateXML.cleanup]

/-- **The end of the functions that unlock the driver early.** The driver is locked once more
for the event, if there is one. -/
@[simp] theorem wp_cleanupEvent :
    (cleanupEvent vm event ret).wp M Q E s ↔ Does M (Q ret) (unlocks vm ++
      if event.isSome then [.driverLock, .eventQueue event, .driverUnlock] else []) s := by
  cases vm <;> cases event <;> simp [cleanupEvent]

/-- Suspend ends a job, whether it has begun one or not. -/
@[simp] theorem wp_suspend_endjob :
    (domainSuspend.endjob event ret).wp M Q E s ↔ M.ok s (.ask .endJob) ∧
      ∀ more : Bool, (cleanupEvent more event ret).wp M Q E (M.next s (.ask .endJob) more) := by
  rw [domainSuspend.endjob, wp_ask]

/-- The status is saved, and whether it could be decides what Suspend returns. -/
@[simp] theorem wp_suspend_save :
    (domainSuspend.save event).wp M Q E s ↔ M.ok s (.ask (.prim .virDomainSaveStatus)) ∧
      ∀ saved : Bool, (domainSuspend.endjob event (if saved then 0 else -1)).wp M Q E
        (M.next s (.ask (.prim .virDomainSaveStatus)) saved) := by
  simp only [domainSuspend.save, wp_prim, Bool.forall_bool]
  rfl

/-- Resume ends the job that it has begun. -/
@[simp] theorem wp_resume_endjob :
    (domainResume.endjob event ret).wp M Q E s ↔ M.ok s (.ask .endJob) ∧
      ∀ more : Bool, (cleanupEvent more event ret).wp M Q E (M.next s (.ask .endJob) more) := by
  rw [domainResume.endjob, wp_ask]

/-- The status is saved, and whether it could be decides what Resume returns. -/
@[simp] theorem wp_resume_save :
    (domainResume.save event).wp M Q E s ↔ M.ok s (.ask (.prim .virDomainSaveStatus)) ∧
      ∀ saved : Bool, (domainResume.endjob event (if saved then 0 else -1)).wp M Q E
        (M.next s (.ask (.prim .virDomainSaveStatus)) saved) := by
  simp only [domainResume.save, wp_prim, Bool.forall_bool]
  rfl

/-- Shutdown and Reboot unlock the domain, if they still have one, and the driver. -/
@[simp] theorem wp_shutdownWith_cleanup :
    (domainShutdownWith.cleanup vm ret).wp M Q E s ↔
      Does M (Q ret) (unlocks vm ++ [.driverUnlock]) s := by
  cases vm <;> simp [domainShutdownWith.cleanup]

/-- They end their job, and unlock the domain if references to it remain. -/
@[simp] theorem wp_shutdownWith_endjob :
    (domainShutdownWith.endjob ret).wp M Q E s ↔ M.ok s (.ask .endJob) ∧
      ∀ more : Bool, (domainShutdownWith.cleanup more ret).wp M Q E
        (M.next s (.ask .endJob) more) := by
  rw [domainShutdownWith.endjob, wp_ask]

/-- DestroyFlags unlocks what is left to unlock. The event is queued with the driver locked. -/
@[simp] theorem wp_destroyFlags_cleanup :
    (domainDestroyFlags.cleanup vm event ret).wp M Q E s ↔
      Does M (Q ret) (unlocks vm ++ queues event ++ [.driverUnlock]) s :=
  wp_unlockBoth

/-- The job is ended here if there is still a domain. -/
@[simp] theorem wp_destroyFlags_endjob :
    (domainDestroyFlags.endjob vm event ret).wp M Q E s ↔
      if vm then M.ok s (.ask .endJob) ∧ ∀ more : Bool,
        (domainDestroyFlags.cleanup more event ret).wp M Q E (M.next s (.ask .endJob) more)
      else (domainDestroyFlags.cleanup false event ret).wp M Q E s := by
  rw [domainDestroyFlags.endjob, Prog.wp_ite, wp_ask]

/-- The file is closed and the event queued. The locks are the caller's. -/
@[simp] theorem wp_doDomainSave_cleanup :
    (doDomainSave.cleanup fd event ret).wp M Q E s ↔
      if fd = .invalid then Does M (Q ret) (queues event) s
      else M.ok s (.ask (.close fd)) ∧ ∀ closed : Bool, Does M (Q ret)
        ((if closed then [] else [.report .system "cannot close file"]) ++ queues event)
        (M.next s (.ask (.close fd)) closed) := by
  rw [doDomainSave.cleanup, wp_closeFd]
  cases event <;> simp

/-- The job is ended here if there is still a domain. Whether references remain is not told to
the caller. -/
@[simp] theorem wp_doDomainSave_endjob :
    (doDomainSave.endjob vm fd event ret).wp M Q E s ↔
      if vm then M.ok s (.ask .endAsyncJob) ∧ ∀ more : Bool,
        (doDomainSave.cleanup fd event ret).wp M Q E (M.next s (.ask .endAsyncJob) more)
      else (doDomainSave.cleanup fd event ret).wp M Q E s := by
  cases vm
  · rfl
  · rfl

/-- What comes after a save that jumps to `endjob`. -/
@[simp] theorem wp_doDomainSave_endjob_bind {f : Int → Code α} {Q : α → σ → Prop} :
    (doDomainSave.endjob vm fd event ret >>= f).wp M Q E s ↔
      (doDomainSave.endjob vm fd event ret).wp M (fun ret => (f ret).wp M Q E) E s :=
  Prog.wp_bind

/-- What comes after a save that jumps to `cleanup`. -/
@[simp] theorem wp_doDomainSave_cleanup_bind {f : Int → Code α} {Q : α → σ → Prop} :
    (doDomainSave.cleanup fd event ret >>= f).wp M Q E s ↔
      (doDomainSave.cleanup fd event ret).wp M (fun ret => (f ret).wp M Q E) E s :=
  Prog.wp_bind

/-- SaveFlags unlocks the domain that it has looked up, whether the save has given it up or
not. -/
@[simp] theorem wp_saveFlags_cleanup :
    (domainSaveFlags.cleanup vm ret).wp M Q E s ↔
      Does M (Q ret) (unlocks vm ++ [.driverUnlock]) s := by
  cases vm <;> simp [domainSaveFlags.cleanup]

/-- RestoreFlags closes its file, and unlocks the domain, if it still has one, and the driver.
-/
@[simp] theorem wp_restoreFlags_cleanup :
    (domainRestoreFlags.cleanup vm fd ret).wp M Q E s ↔
      if fd = .invalid then Does M (Q ret) (unlocks vm ++ [.driverUnlock]) s
      else M.ok s (.ask (.close fd)) ∧ ∀ closed : Bool, Does M (Q ret)
        ((if closed then [] else [.report .system "cannot close file"]) ++ unlocks vm ++
          [.driverUnlock]) (M.next s (.ask (.close fd)) closed) := by
  rw [domainRestoreFlags.cleanup, wp_closeFd]
  cases vm <;> simp

/-- The job of RestoreFlags is an asynchronous one, and is ended as such. -/
@[simp] theorem wp_restoreFlags_endjob :
    (domainRestoreFlags.endjob ret).wp M Q E s ↔ M.ok s (.ask .endAsyncJob) ∧
      ∀ more : Bool, (domainRestoreFlags.cleanup more .opened ret).wp M Q E
        (M.next s (.ask .endAsyncJob) more) := by
  rw [domainRestoreFlags.endjob, wp_ask]

/-- The job is ended here if there is still a domain. -/
@[simp] theorem wp_coreDump_endjob :
    (domainCoreDump.endjob vm event ret).wp M Q E s ↔
      if vm then M.ok s (.ask .endAsyncJob) ∧ ∀ more : Bool,
        (cleanupEvent more event ret).wp M Q E (M.next s (.ask .endAsyncJob) more)
      else (cleanupEvent false event ret).wp M Q E s := by
  rw [domainCoreDump.endjob, Prog.wp_ite, wp_ask]

/-- A domain that is gone is asked whether it is active all the same. -/
@[simp] theorem wp_coreDump_endjobUnpause_false :
    (domainCoreDump.endjobUnpause false paused event ret).wp M Q E s ↔ E s := Iff.rfl

/-- A guest that was paused for the dump goes on, if it is still active and can be unpaused. -/
@[simp] theorem wp_coreDump_endjobUnpause_true :
    (domainCoreDump.endjobUnpause true paused event ret).wp M Q E s ↔
      M.ok s (.ask .isActive) ∧ ∀ active : Bool,
        if active && paused then
          M.ok (M.next s (.ask .isActive) active) (.ask (.prim .libxlDomainUnpause)) ∧
          ∀ unpaused : Bool, Does M ((domainCoreDump.endjob true event ret).wp M Q E)
            [if unpaused then .setState .runningUnpaused else .report .internalError
              "After dumping core, failed to resume domain '%d' with libxenlight"]
            (M.next (M.next s (.ask .isActive) active) (.ask (.prim .libxlDomainUnpause)) unpaused)
        else
          (domainCoreDump.endjob true event ret).wp M Q E (M.next s (.ask .isActive) active) := by
  cases paused <;> simp [domainCoreDump.endjobUnpause]

/-- The driver, locked for the reaping, is unlocked again. -/
@[simp] theorem wp_coreDump_endjobUnlock :
    (domainCoreDump.endjobUnlock vm paused event ret).wp M Q E s ↔
      M.ok s (.act .driverUnlock) ∧ (domainCoreDump.endjobUnpause vm paused event ret).wp M Q E
        (M.next s (.act .driverUnlock) ()) := by
  rw [domainCoreDump.endjobUnlock, wp_act]

end Labels

/-! ### The entry points that end a job -/

/-- A call of a client, with its arguments. -/
inductive Entry where
  | createXML (flagsOk startPaused : Bool)
  | suspend
  | resume
  | shutdownFlags (flagsOk : Bool)
  | reboot (flagsOk : Bool)
  | destroyFlags (flagsOk : Bool)
  | saveFlags (flagsOk dxml : Bool)
  | restoreFlags (flagsOk dxml : Bool)
  | coreDump (flags : DumpFlags)
  deriving DecidableEq

/-- The program of a call. What it returns is `0` or negative; a domain handle
counts as `0` and `NULL` as `-1`. -/
def Entry.code : Entry → Code Int
  | createXML flagsOk startPaused => do
    if ← domainCreateXML flagsOk startPaused then return 0 else return -1
  | suspend => domainSuspend
  | resume => domainResume
  | shutdownFlags flagsOk => domainShutdownFlags flagsOk
  | reboot flagsOk => domainReboot flagsOk
  | destroyFlags flagsOk => domainDestroyFlags flagsOk
  | saveFlags flagsOk dxml => domainSaveFlags flagsOk dxml
  | restoreFlags flagsOk dxml => domainRestoreFlags flagsOk dxml
  | coreDump flags => domainCoreDump flags

end Libxl

end OpenLog
