import OpenLog.Libxl.Domain

/-!
# The migration functions of the driver

The five calls of a version 3 migration and the two functions that move the guest's data, as
programs over the operations of `OpenLog.Libxl.Op`. A URI is a string `hostname[:port]`. The
function that reads the port, `virStrToLong_i`, is not part of the driver; it is the parameter
`strToLong` of everything that parses a URI, `none` being a string that it refuses.

## Labels and loops

As in `OpenLog.Libxl.Domain` there is a rule for each label. Parsing a URI and looking for a port
are loops, or many questions at once, and most monitors look at none of them; what they can come
to is said once (`OpenLog.Libxl.doParseURI_calls` and its companions).

## The coordinator

`OpenLog.Libxl.migrate` puts the calls in the order in which a coordinator makes them, each marked
with the call that it comes from, for they run on two hosts. What holds of the whole follows from
what holds between the calls (`OpenLog.Libxl.wp_migrate_of`).
-/

namespace OpenLog

namespace Libxl

open Logic

/-! ### URIs and ports -/

/-- A URI, as the characters of a C string. -/
abbrev Uri : Type := List Char

/-- `LIBXL_MIGRATION_MIN_PORT`. -/
def migrationMinPort : ℕ := 49512

/-- `LIBXL_MIGRATION_NUM_PORTS`. -/
def migrationNumPorts : ℕ := 64

/-- `LIBXL_MIGRATION_MAX_PORT`. -/
def migrationMaxPort : ℕ := migrationMinPort + migrationNumPorts

/-- The string cut at its last colon, as `strrchr` finds it. -/
def splitLastColon : List Char → Option (List Char × List Char)
  | [] => none
  | c :: cs =>
    match splitLastColon cs with
    | some (hostname, port) => some (c :: hostname, port)
    | none => if c = ':' then some ([], cs) else none

/-- `"%s:%d"`. -/
def formatUri (hostname : List Char) (port : ℤ) : Uri :=
  hostname ++ ':' :: (toString port).toList

/-- The numbers in decimal digits, as `virStrToLong_i` reads them; one of the functions
that `strToLong` can stand for on URIs without blanks and signs. -/
def readDecimal (cs : List Char) : Option ℤ :=
  if cs ≠ [] ∧ cs.all Char.isDigit then
    let n := cs.foldl (fun n c => 10 * n + (c.toNat - '0'.toNat)) 0
    if n ≤ 2147483647 then some n else none
  else none

section Parse

variable (strToLong : List Char → Option ℤ)

/-- `doParseURI`; `none` stands for `-1`. -/
def doParseURI (uri : Option Uri) : Code (Option (List Char × ℤ)) := do
  match uri with
  | none => return none
  | some uri =>
    match splitLastColon uri with
    | none =>
      if ← prim .virAsprintf then return some (uri, 0)
      else
        report .noMemory ""
        return none
    | some (hostname, port) =>
      match strToLong port with
      | none =>
        report .invalidArg "Invalid port number"
        return none
      | some port =>
        if hostname = [] then
          report .invalidArg "Hostname must be specified in the URI"
          return none
        else if ← prim .virAsprintf then return some (hostname, port)
        else
          report .noMemory ""
          return none

/-- What `OpenLog.Libxl.doParseURI` reads off a URI, memory permitting. -/
def parseUri : Option Uri → Option (List Char × ℤ)
  | none => none
  | some uri =>
    match splitLastColon uri with
    | none => some (uri, 0)
    | some (hostname, port) =>
      (strToLong port).bind fun port => if hostname = [] then none else some (hostname, port)

end Parse

/-- The loop of `libxlNextFreePort`, with the number of ports left to try. -/
def nextFreePortFrom (startPort bit : ℕ) : ℕ → Code Int
  | 0 => return -1
  | left + 1 => do
    if ← ask (.getBit bit) then nextFreePortFrom startPort (bit + 1) left
    else
      match ← probePort (startPort + bit) with
      | .free =>
        act (.setBit bit)
        return startPort + bit
      | .inUse => nextFreePortFrom startPort (bit + 1) left
      | .error => return -1

/-- `libxlNextFreePort` on the ports of incoming migrations. -/
def nextFreePort : Code Int := nextFreePortFrom migrationMinPort 0 migrationNumPorts

/-! ### The migration job -/

/-- `libxlMigrationJobStart`. -/
def migrationJobStart (job : DomainAsyncJob) (h : job ≠ .none) : Code Int := do
  if (← beginJob (domainObjBeginAsyncJobWithDriver job h)) < 0 then return -1
  else
    if job = .migrationIn then act (.setAsyncJobMask 0#64)
    else act (.setAsyncJobMask (defaultJobMask ||| jobMask .migrationOp))
    act .setJobUnbounded
    return 0

/-- `libxlMigrationJobFinish`, which goes through `vm`: do references remain? -/
def migrationJobFinish (vm : Bool) : Code Bool := do
  deref vm
  ask .endAsyncJob

/-! ### The calls -/

/-- The flags of a migration: the three of `LIBXL_MIGRATION_FLAGS`, and whether there
are others. -/
structure MigrateFlags where
  live : Bool
  undefineSource : Bool
  paused : Bool
  unsupported : Bool
  deriving DecidableEq

/-- `libxlDomainMigrateBegin3`: is a description returned? `xmlin` says whether the
client gives one. -/
def migrateBegin3 (xmlin : Bool) (flags : MigrateFlags) : Code Bool := do
  if flags.unsupported then
    report .invalidArg "unsupported flags (0x%lx)"
    return false
  else
    act .driverLock
    let vm ← ask .findByUUID
    if !vm then
      report .operationInvalid "no domain with matching uuid '%s'"
      cleanup vm false
    else if (← migrationJobStart .migrationOut migrationOut_ne_none) < 0 then cleanup true false
    else if !(← ask .isActive) then
      report .operationInvalid "domain is not running"
      failed
    else if xmlin then
      if !(← prim .virDomainDefParseString) then failed
      else format
    else format
where
  /-- Past this point `ret` is `0`, so the label `endjob` keeps the job. -/
  format : Code Bool := do
    let xml ← prim .virDomainDefFormat
    cleanup true xml
  failed : Code Bool := do
    let vm ← migrationJobFinish true
    cleanup vm false
  cleanup (vm xml : Bool) : Code Bool := do
    unlockIf vm
    act .driverUnlock
    return xml

/-- `doMigrateReceive`, the thread that takes in the guest. The loop on `EINTR` around
`accept` is one call. -/
def doMigrateReceive : Code Unit := do
  if !(← prim .accept) then
    report .operationFailed "Could not accept migration connection"
    cleanup .invalid
  else
    act .objUnlock
    act .driverUnlock
    let ret ← vmStart false true false
    act .driverLock
    act .objLock
    if ret < 0 then report .internalError "Failed to restore domain with libxenlight"
    cleanup .opened
where
  cleanup (recvFd : Fd) : Code Unit := do
    closeFd recvFd "cannot close recv_fd"
    closeFd .opened "cannot close sockfd"
    act .objUnlock
    act .driverUnlock
    return ()

/-- `doMigrateSend`. The check of the receiver's message is disabled in the source, and
with it the one place that would set an event. -/
def doMigrateSend (flags : MigrateFlags) : Code Int := do
  act .objUnlock
  act .driverUnlock
  let suspended ← prim (.libxlDomainSuspend flags.live)
  act .driverLock
  act .objLock
  if !suspended then
    report .internalError "Failed to save domain '%d' with libxenlight"
    return -1
  else return 0

section Calls

variable (strToLong : List Char → Option ℤ)

/-- `libxlDomainMigratePrepare3`: the result, and what is left in `uri_out`. `domXml`
and `dname` say whether a description and a new name are given. -/
def migratePrepare3 (domXml dname : Bool) (uriIn : Option Uri) (flags : MigrateFlags) :
    Code (Int × Option Uri) := do
  if flags.unsupported then
    report .invalidArg "unsupported flags (0x%lx)"
    return (-1, none)
  else
    act .driverLock
    if !domXml then
      report .operationInvalid "no domain XML passed"
      cleanup .invalid none
    else
      -- a description that cannot be parsed is used all the same
      let defn ← prim .virDomainDefParseString
      if dname then
        deref defn
        if !(← prim .strdup) then cleanup .invalid none
        else assign defn
      else assign defn
where
  assign (defn : Bool) : Code (Int × Option Uri) := do
    deref defn
    if ← ask .isDuplicate then cleanup .invalid none
    else if !(← ask .assignDef) then cleanup .invalid none
    else if (← migrationJobStart .migrationOut migrationOut_ne_none) < 0 then cleanup .invalid none
    else
      match uriIn with
      | none =>
        match ← getHostname with
        | none => endjob .invalid none
        | some hostname => choosePort hostname
      | some uri =>
        match ← doParseURI strToLong (some uri) with
        | none => endjob .invalid none
        | some (hostname, port) =>
          if port ≤ 0 then choosePort hostname
          else receive none
  choosePort (hostname : List Char) : Code (Int × Option Uri) := do
    let port ← nextFreePort
    if port < 0 then
      report .internalError "Unable to find an unused migration port"
      endjob .invalid none
    else if !(← prim .virAsprintf) then
      report .noMemory ""
      endjob .invalid none
    else receive (some (formatUri hostname port))
  receive (uriOut : Option Uri) : Code (Int × Option Uri) := do
    if !(← prim .socket) then
      report .operationFailed "Failed to create socket for incoming migration"
      endjob .invalid uriOut
    else if !(← prim .bind) then
      report .operationFailed "Fail to bind port for incoming migration"
      endjob .opened uriOut
    else if !(← prim .listen) then
      report .operationFailed "Fail to listen to incoming migration"
      endjob .opened uriOut
    else if !(← prim .virAlloc) then
      report .noMemory ""
      endjob .opened uriOut
    else if !(← prim .virThreadCreate) then
      report .system "Unable to create migration thread"
      endjob .opened uriOut
    else
      act .objUnlock
      act .driverUnlock
      return (0, uriOut)
  endjob (sockfd : Fd) (uriOut : Option Uri) : Code (Int × Option Uri) := do
    let _ ← migrationJobFinish true
    cleanup sockfd uriOut
  /-- Neither the domain nor the driver is unlocked here. -/
  cleanup (sockfd : Fd) (uriOut : Option Uri) : Code (Int × Option Uri) := do
    closeFd sockfd "cannot close sockfd"
    return (-1, uriOut)

/-- `libxlDomainMigratePerform3`. -/
def migratePerform3 (uri : Option Uri) (flags : MigrateFlags) : Code Int := do
  if flags.unsupported then
    report .invalidArg "unsupported flags (0x%lx)"
    return -1
  else
    act .driverLock
    let vm ← ask .findByUUID
    if !vm then
      report .operationInvalid "no domain with matching uuid '%s'"
      cleanup vm (-1) false
    else
      match ← doParseURI strToLong uri with
      | none => cleanup true (-1) false
      | some (_, port) =>
        if port ≤ 0 then cleanup true (-1) false
        else if !(← prim .virAsprintf) then
          report .noMemory ""
          cleanup true (-1) false
        else if !(← prim .virNetSocketNewConnectTCP) then
          report .operationFailed "Failed to create socket"
          cleanup true (-1) true
        else
          let ret ← doMigrateSend flags
          cleanup true ret true
where
  cleanup (vm : Bool) (ret : Int) (sockAssigned : Bool) : Code Int := do
    if ret < 0 then finish (← migrationJobFinish vm) ret sockAssigned
    else finish vm ret sockAssigned
  finish (vm : Bool) (ret : Int) (sockAssigned : Bool) : Code Int := do
    act (.netSocketFree sockAssigned)
    unlockIf vm
    act .driverUnlock
    return ret

/-- `libxlDomainMigrateFinish3`: is a domain handle returned? -/
def migrateFinish3 (uri : Option Uri) (flags : MigrateFlags) (cancelled : Bool) :
    Code Bool := do
  if flags.unsupported then
    report .invalidArg "unsupported flags (0x%lx)"
    return false
  else
    act .driverLock
    match ← doParseURI strToLong uri with
    | none => release 0
    | some (_, port) => release port
    lookup
where
  lookup : Code Bool := do
    let vm ← ask .findByName
    if !vm then cleanup vm none false
    else if cancelled then error
    else if flags.paused then handle
    else if !(← prim .libxlDomainUnpause) then
      report .operationFailed "Failed to unpause domain"
      error
    else
      act (.setState .runningBooted)
      if !(← prim .virDomainSaveStatus) then error
      else handle
  release (port : ℤ) : Code Unit := do
    if migrationMinPort ≤ port ∧ port < migrationMaxPort then
      act (.clearBit (port - migrationMinPort).toNat)
  handle : Code Bool := do
    let dom ← prim .virGetDomain
    cleanup true none dom
  error : Code Bool := do
    if (← vmReap .shutoffSaved) ≠ 0 then
      report .internalError "Failed to destroy domain '%d'"
      cleanup true none false
    else
      let event ← eventNew .stoppedSaved
      cleanup true event false
  cleanup (vm : Bool) (event : Option DomEvent) (dom : Bool) : Code Bool := do
    if !(← migrationJobFinish vm) then finish false event dom
    else if ← ask .isPersistent then finish true event dom
    else if ← ask .isActive then finish true event dom
    else
      act .removeInactive
      finish false event dom
  finish (vm : Bool) (event : Option DomEvent) (dom : Bool) : Code Bool := do
    unlockIf vm
    queueIf event
    act .driverUnlock
    return dom

end Calls

/-- `libxlDomainMigrateConfirm3`. -/
def migrateConfirm3 (flags : MigrateFlags) (cancelled : Bool) : Code Int := do
  if flags.unsupported then
    report .invalidArg "unsupported flags (0x%lx)"
    return -1
  else
    act .driverLock
    let vm ← ask .findByUUID
    if !vm then
      report .noDomain "no domain with matching uuid '%s'"
      cleanup vm none (-1)
    else if cancelled then
      report .internalError "migration failed, try to resume on our end"
      if ← prim .libxlDomainResume then cleanup true none 0
      else
        act (.setState .pausedMigration)
        let event ← eventNew .suspendedMigrated
        let _ ← prim .virDomainSaveStatus
        cleanup true event (-1)
    else if (← vmReap .shutoffSaved) ≠ 0 then
      report .internalError "Failed to destroy domain '%d'"
      cleanup true none (-1)
    else
      let event ← eventNew .stoppedSaved
      if flags.undefineSource then act .deleteConfig
      if !(← migrationJobFinish true) then cleanup false event 0
      else if !(← ask .isPersistent) || flags.undefineSource then
        act .removeInactive
        cleanup false event 0
      else cleanup true event 0
where
  cleanup (vm : Bool) (event : Option DomEvent) (ret : Int) : Code Int := do
    unlockIf vm
    queueIf event
    act .driverUnlock
    return ret

/-! ### What is left to do at a label -/

section Labels

variable {α : Type} {σ : Type*} {M : Monitor Res σ} {s : σ} {E : σ → Prop} {vm : Bool} {fd : Fd}
variable {event : Option DomEvent}

/-- **The start of a migration job**: the job begins, and gets a mask and no time limit. -/
@[simp] theorem wp_migrationJobStart {job : DomainAsyncJob} {hne : job ≠ .none}
    {f : Int → Code α} {Q : α → σ → Prop} :
    (migrationJobStart job hne >>= f).wp M Q E s ↔
      (beginJob (domainObjBeginAsyncJobWithDriver job hne) >>= fun begun =>
        if begun < 0 then f (-1)
        else act (.setAsyncJobMask
            (if job = .migrationIn then 0#64 else defaultJobMask ||| jobMask .migrationOp)) >>=
          fun _ => act .setJobUnbounded >>= fun _ => f 0).wp M Q E s := by
  by_cases hjob : job = .migrationIn <;> simp [migrationJobStart, bind_assoc, hjob]

/-- **The end of a migration job** goes through `vm`. -/
@[simp] theorem wp_migrationJobFinish {f : Bool → Code α} {Q : α → σ → Prop} :
    (migrationJobFinish vm >>= f).wp M Q E s ↔
      if vm then M.ok s (.ask .endAsyncJob) ∧ ∀ more : Bool,
        (f more).wp M Q E (M.next s (.ask .endAsyncJob) more)
      else E s := by
  cases vm
  · rfl
  · rfl

/-- The end of a migration job where its answer is restricted. -/
@[simp] theorem wpOn_migrationJobFinish {A : σ → (o : Op) → Res o → Prop} {f : Bool → Code α}
    {Q : α → σ → Prop} : (migrationJobFinish vm >>= f).wpOn A M Q E s ↔
      if vm then M.ok s (.ask .endAsyncJob) ∧ ∀ more : Bool, A s (.ask .endAsyncJob) more →
        (f more).wpOn A M Q E (M.next s (.ask .endAsyncJob) more)
      else E s := by
  cases vm
  · rfl
  · rfl

section

variable {Q : Bool → σ → Prop} {xml : Bool}

/-- Begin3 unlocks both and returns its description, if it has one. -/
@[simp] theorem wp_begin3_cleanup : (migrateBegin3.cleanup vm xml).wp M Q E s ↔
    Does M (Q xml) (unlocks vm ++ [.driverUnlock]) s := by
  cases vm <;> simp [migrateBegin3.cleanup]

/-- A Begin3 that fails after the start of its job ends it. -/
@[simp] theorem wp_begin3_failed : migrateBegin3.failed.wp M Q E s ↔
    M.ok s (.ask .endAsyncJob) ∧ ∀ more : Bool,
      (migrateBegin3.cleanup more false).wp M Q E (M.next s (.ask .endAsyncJob) more) := by
  rw [migrateBegin3.failed, wp_migrationJobFinish, if_pos rfl]

/-- **A Begin3 that succeeds keeps its job**: nothing is ended here, and both are unlocked with
the job going on. -/
@[simp] theorem wp_begin3_format : migrateBegin3.format.wp M Q E s ↔
    M.ok s (.ask (.prim .virDomainDefFormat)) ∧ ∀ xml : Bool,
      (migrateBegin3.cleanup true xml).wp M Q E
        (M.next s (.ask (.prim .virDomainDefFormat)) xml) := by
  rw [migrateBegin3.format, wp_prim]

end

/-- The guest is sent with nothing locked. -/
@[simp] theorem wp_doMigrateSend {flags : MigrateFlags} {f : Int → Code α} {Q : α → σ → Prop} :
    (doMigrateSend flags >>= f).wp M Q E s ↔
      Does M (fun s => M.ok s (.ask (.prim (.libxlDomainSuspend flags.live))) ∧
        ∀ suspended : Bool, Does M ((f (if suspended then 0 else -1)).wp M Q E)
          ([.driverLock, .objLock] ++ if suspended then [] else
            [.report .internalError "Failed to save domain '%d' with libxenlight"])
          (M.next s (.ask (.prim (.libxlDomainSuspend flags.live))) suspended))
        [.objUnlock, .driverUnlock] s := by
  simp [doMigrateSend, bind_assoc]

section

variable {strToLong : List Char → Option ℤ} {uriOut : Option Uri} {Q : Int × Option Uri → σ → Prop}

/-- **A Prepare3 that fails unlocks nothing.** It closes its socket, if it has one, and returns
`-1`. -/
@[simp] theorem wp_prepare3_cleanup : (migratePrepare3.cleanup fd uriOut).wp M Q E s ↔
    if fd = .invalid then Q (-1, uriOut) s
    else M.ok s (.ask (.close fd)) ∧ ∀ closed : Bool, Does M (Q (-1, uriOut))
      (if closed then [] else [.report .system "cannot close sockfd"])
      (M.next s (.ask (.close fd)) closed) := by
  rw [migratePrepare3.cleanup, wp_closeFd]
  simp

/-- The job is ended before that. -/
@[simp] theorem wp_prepare3_endjob : (migratePrepare3.endjob fd uriOut).wp M Q E s ↔
    M.ok s (.ask .endAsyncJob) ∧ ∀ more : Bool,
      (migratePrepare3.cleanup fd uriOut).wp M Q E (M.next s (.ask .endAsyncJob) more) := by
  rw [migratePrepare3.endjob, wp_migrationJobFinish, if_pos rfl]

end

section

variable {ret : Int} {sockAssigned : Bool} {Q : Int → σ → Prop}

/-- The socket is freed, whether one was assigned or not, and both are unlocked. -/
@[simp] theorem wp_perform3_finish : (migratePerform3.finish vm ret sockAssigned).wp M Q E s ↔
    Does M (Q ret) (.netSocketFree sockAssigned :: unlocks vm ++ [.driverUnlock]) s := by
  cases vm <;> simp [migratePerform3.finish]

/-- The job is ended if the guest was not sent. -/
@[simp] theorem wp_perform3_cleanup : (migratePerform3.cleanup vm ret sockAssigned).wp M Q E s ↔
    if ret < 0 then (migrationJobFinish vm >>= fun more =>
      migratePerform3.finish more ret sockAssigned).wp M Q E s
    else (migratePerform3.finish vm ret sockAssigned).wp M Q E s := by
  rw [migratePerform3.cleanup, Prog.wp_ite]

/-- Confirm3 unlocks what is left to unlock. Its job is not ended here. -/
@[simp] theorem wp_confirm3_cleanup : (migrateConfirm3.cleanup vm event ret).wp M Q E s ↔
    Does M (Q ret) (unlocks vm ++ queues event ++ [.driverUnlock]) s :=
  wp_unlockBoth

end

section

variable {Q : Bool → σ → Prop} {dom : Bool}

/-- Finish3 unlocks what is left to unlock. -/
@[simp] theorem wp_finish3_finish : (migrateFinish3.finish vm event dom).wp M Q E s ↔
    Does M (Q dom) (unlocks vm ++ queues event ++ [.driverUnlock]) s :=
  wp_unlockBoth

/-- The port is given back, if it is one of those that are handed out. -/
@[simp] theorem wp_finish3_release {port : ℤ} {f : Unit → Code α} {Q : α → σ → Prop} :
    (migrateFinish3.release port >>= f).wp M Q E s ↔
      if migrationMinPort ≤ port ∧ port < migrationMaxPort then
        Does M ((f ()).wp M Q E) [.clearBit (port - migrationMinPort).toNat] s
      else (f ()).wp M Q E s := by
  rw [migrateFinish3.release]
  split_ifs
  · exact wp_act
  · rfl

/-- The guest is reaped, and no handle is returned. -/
@[simp] theorem wp_finish3_error : migrateFinish3.error.wp M Q E s ↔
    M.ok s (.ask (.prim .libxlDomainDestroy)) ∧
      Does M ((migrateFinish3.cleanup true none false).wp M Q E)
        [.report .internalError "Unable to cleanup domain %d",
          .report .internalError "Failed to destroy domain '%d'"]
        (M.next s (.ask (.prim .libxlDomainDestroy)) false) ∧
      (vmCleanup .shutoffSaved >>= fun _ => eventNew .stoppedSaved >>= fun event =>
        migrateFinish3.cleanup true event false).wp M Q E
        (M.next s (.ask (.prim .libxlDomainDestroy)) true) := by
  simp [migrateFinish3.error]

/-- The handle that is returned is asked for before the job is ended. -/
@[simp] theorem wp_finish3_handle : migrateFinish3.handle.wp M Q E s ↔
    M.ok s (.ask (.prim .virGetDomain)) ∧ ∀ dom : Bool,
      (migrateFinish3.cleanup true none dom).wp M Q E
        (M.next s (.ask (.prim .virGetDomain)) dom) := by
  rw [migrateFinish3.handle, wp_prim]

end

end Labels

/-! ### What parsing and choosing a port amount to -/

/-- The operations of `OpenLog.Libxl.doParseURI`. -/
def Op.Parse : Op → Prop
  | .ask (.prim .virAsprintf) | .act (.report _ _) => True
  | _ => False

/-- The operations of `OpenLog.Libxl.nextFreePort`. -/
def Op.Port : Op → Prop
  | .ask (.getBit _) | .probePort _ | .act (.setBit _) => True
  | _ => False

/-- The operations of parsing, one by one. -/
theorem Op.Parse.eq_or {o : Op} (h : o.Parse) :
    o = .ask (.prim .virAsprintf) ∨ ∃ code text, o = .act (.report code text) := by
  unfold Op.Parse at h
  split at h
  · exact .inl rfl
  · exact .inr ⟨_, _, rfl⟩
  · exact h.elim

/-- The operations of choosing a port, one by one. -/
theorem Op.Port.eq_or {o : Op} (h : o.Port) :
    (∃ bit, o = .ask (.getBit bit)) ∨ (∃ port, o = .probePort port) ∨
      ∃ bit, o = .act (.setBit bit) := by
  unfold Op.Port at h
  split at h
  · exact .inl ⟨_, rfl⟩
  · exact .inr (.inl ⟨_, rfl⟩)
  · exact .inr (.inr ⟨_, rfl⟩)
  · exact h.elim

/-- Operations that are neither about jobs nor about the guest. -/
def Op.Aside (o : Op) : Prop := Op.Cleanup o ∨ Op.Parse o ∨ Op.Port o

/-- Parsing a URI allocates, and reports what is wrong with it. -/
theorem doParseURI_calls (strToLong : List Char → Option ℤ) (uri : Option Uri) :
    (doParseURI strToLong uri).Calls Op.Parse := by
  unfold doParseURI
  split
  · trivial
  · split
    · simp [prim, report, Op.Parse]
    · split
      · simp [report, Op.Parse]
      · simp [prim, report, Op.Parse]

/-- The loop over the ports asks for a bit, probes a port and sets a bit. -/
theorem nextFreePortFrom_calls (startPort bit left : ℕ) :
    (nextFreePortFrom startPort bit left).Calls Op.Port := by
  induction left generalizing bit with
  | zero => trivial
  | succ left ih =>
    refine ⟨trivial, fun used => ?_⟩
    cases used with
    | false =>
      refine ⟨trivial, fun probe => ?_⟩
      cases probe with
      | free => exact ⟨trivial, fun _ => trivial⟩
      | inUse => exact ih (bit + 1)
      | error => trivial
    | true => exact ih (bit + 1)

/-- Choosing a port does nothing else. -/
theorem nextFreePort_calls : nextFreePort.Calls Op.Port := nextFreePortFrom_calls _ _ _

section

variable {α : Type} {σ : Type*} {M : Monitor Res σ} {s : σ} {Q : α → σ → Prop} {E : σ → Prop}

/-- **Who does not look at parsing a URI.** -/
theorem ignores_parse_iff : M.Ignores Op.Parse s ↔ M.Leaves s (.ask (.prim .virAsprintf)) ∧
    ∀ code text, M.Leaves s (.act (.report code text)) := by
  constructor
  · intro h
    exact ⟨h _ trivial, fun _ _ => h _ trivial⟩
  · rintro ⟨hprintf, hreport⟩ o ho
    rcases ho.eq_or with rfl | ⟨code, text, rfl⟩
    · exact hprintf
    · exact hreport code text

/-- **Who does not look at choosing a port.** -/
theorem ignores_port_iff : M.Ignores Op.Port s ↔ (∀ bit, M.Leaves s (.ask (.getBit bit))) ∧
    (∀ port, M.Leaves s (.probePort port)) ∧ ∀ bit, M.Leaves s (.act (.setBit bit)) := by
  constructor
  · intro h
    exact ⟨fun _ => h _ trivial, fun _ => h _ trivial, fun _ => h _ trivial⟩
  · rintro ⟨hget, hprobe, hset⟩ o ho
    rcases ho.eq_or with ⟨bit, rfl⟩ | ⟨port, rfl⟩ | ⟨bit, rfl⟩
    · exact hget bit
    · exact hprobe port
    · exact hset bit

/-- **Who looks at none of the three.** -/
theorem ignores_aside_iff : M.Ignores Op.Aside s ↔
    M.Ignores Op.Cleanup s ∧ M.Ignores Op.Parse s ∧ M.Ignores Op.Port s := by
  constructor
  · intro h
    exact ⟨fun o ho => h o (Or.inl ho), fun o ho => h o (Or.inr (Or.inl ho)),
      fun o ho => h o (Or.inr (Or.inr ho))⟩
  · rintro ⟨hcleanup, hparse, hport⟩ o (ho | ho | ho)
    · exact hcleanup o ho
    · exact hparse o ho
    · exact hport o ho

@[simp] theorem ignores_cleanup (h : M.Ignores Op.Aside s) : M.Ignores Op.Cleanup s :=
  (ignores_aside_iff.mp h).1

@[simp] theorem ignores_parse (h : M.Ignores Op.Aside s) : M.Ignores Op.Parse s :=
  (ignores_aside_iff.mp h).2.1

@[simp] theorem ignores_port (h : M.Ignores Op.Aside s) : M.Ignores Op.Port s :=
  (ignores_aside_iff.mp h).2.2

/-- **Parsing a URI**, as it is seen by a monitor that does not look at it: all that matters is
what it can give. -/
@[simp] theorem wp_doParseURI {strToLong : List Char → Option ℤ} {uri : Option Uri}
    {f : Option (List Char × ℤ) → Code α} (hS : M.Ignores Op.Parse s) :
    (doParseURI strToLong uri >>= f).wp M Q E s ↔
      ∀ a, (doParseURI strToLong uri).CanReturn a → (f a).wp M Q E s :=
  (doParseURI_calls strToLong uri).wp_bind hS

/-- **Choosing a port**, as it is seen by a monitor that does not look at it. -/
@[simp] theorem wp_nextFreePort {f : Int → Code α} (hS : M.Ignores Op.Port s) :
    (nextFreePort >>= f).wp M Q E s ↔ ∀ a, nextFreePort.CanReturn a → (f a).wp M Q E s :=
  nextFreePort_calls.wp_bind hS

/-- Finish3 parses the URI and frees the port that it names before it looks up the domain. -/
theorem wpOn_release {A : σ → (o : Op) → Res o → Prop} {strToLong : List Char → Option ℤ}
    {uri : Option Uri} {f : Option (List Char × ℤ) → Code α} (p : Code α)
    (hf : ∀ parsed, ∃ port, f parsed = (migrateFinish3.release port >>= fun _ => p))
    (hparse : M.Ignores Op.Parse s)
    (hbit : ∀ bit, M.ok s (.act (.clearBit bit)) ∧ M.next s (.act (.clearBit bit)) () = s)
    (hp : p.wpOn A M Q E s) : (doParseURI strToLong uri >>= f).wpOn A M Q E s := by
  refine (doParseURI_calls strToLong uri).wpOn_bind hparse fun parsed _ => ?_
  obtain ⟨port, hport⟩ := hf parsed
  rw [hport, migrateFinish3.release]
  split_ifs
  · refine wpOn_act.mpr ⟨(hbit _).1, fun _ => ?_⟩
    rw [(hbit _).2]
    exact hp
  · exact hp

end

/-! ### The coordinator -/

/-- The calls of a migration. The first, the third and the fifth are made on the
source host, the others on the destination host. -/
inductive Call where
  | begin3
  | prepare3
  | perform3
  | finish3
  | confirm3
  deriving DecidableEq, Repr

/-- What a coordinator is given: the arguments of the calls, and how it picks the URI
for the later ones from what Prepare3 has left in `uri_out`. -/
structure Migration where
  strToLong : List Char → Option ℤ
  xmlin : Bool
  dname : Bool
  uriIn : Option Uri
  pickUri : Option Uri → Option Uri
  flags : MigrateFlags

/-- A version 3 migration, call by call. -/
def migrate (m : Migration) : Prog (fun o : Call × Op => Res o.2) Unit := do
  let xml ← (migrateBegin3 m.xmlin m.flags).tag Call.begin3
  if !xml then return ()
  else
    let (ret, uriOut) ← (migratePrepare3 m.strToLong true m.dname m.uriIn m.flags).tag
      Call.prepare3
    if ret < 0 then return ()
    else
      let uri := m.pickUri uriOut
      let ret ← (migratePerform3 m.strToLong uri m.flags).tag Call.perform3
      if ret < 0 then
        let _ ← (migrateFinish3 m.strToLong uri m.flags true).tag Call.finish3
        return ()
      else
        let dom ← (migrateFinish3 m.strToLong uri m.flags false).tag Call.finish3
        let _ ← (migrateConfirm3 m.flags (!dom)).tag Call.confirm3
        return ()

/-- **The rule for a migration.** A call is shown to lead from what the calls before it
establish to what the next one needs. -/
theorem wpOn_migrate_of {σ : Type*} {A : σ → (o : Call × Op) → Res o.2 → Prop}
    {M : Monitor (fun o : Call × Op => Res o.2) σ} {m : Migration}
    {Q : Unit → σ → Prop} {E : σ → Prop} {s : σ} (B P C D : σ → Prop) (F : Bool → σ → Prop)
    (hbegin : (migrateBegin3 m.xmlin m.flags).wpOn (fun s o => A s (.begin3, o)) (M.at .begin3)
      (fun xml s => if xml then B s else Q () s) E s)
    (hprepare : ∀ s, B s → (migratePrepare3 m.strToLong true m.dname m.uriIn m.flags).wpOn
      (fun s o => A s (.prepare3, o)) (M.at .prepare3)
      (fun r s => if r.1 < 0 then Q () s else P s) E s)
    (hperform : ∀ uri s, P s → (migratePerform3 m.strToLong uri m.flags).wpOn
      (fun s o => A s (.perform3, o)) (M.at .perform3)
      (fun ret s => if ret < 0 then C s else D s) E s)
    (hcancel : ∀ uri s, C s → (migrateFinish3 m.strToLong uri m.flags true).wpOn
      (fun s o => A s (.finish3, o)) (M.at .finish3) (fun _ s => Q () s) E s)
    (hfinish : ∀ uri s, D s → (migrateFinish3 m.strToLong uri m.flags false).wpOn
      (fun s o => A s (.finish3, o)) (M.at .finish3) F E s)
    (hconfirm : ∀ dom s, F dom s → (migrateConfirm3 m.flags (!dom)).wpOn
      (fun s o => A s (.confirm3, o)) (M.at .confirm3) (fun _ s => Q () s) E s) :
    (migrate m).wpOn A M Q E s := by
  -- a call made by the coordinator is seen by the monitor through `Monitor.at`
  have hcall : ∀ {α β : Type} {c : Call} {code : Code α}
      {f : α → Prog (fun o : Call × Op => Res o.2) β} {R : β → σ → Prop} {T : α → σ → Prop}
      {s : σ}, code.wpOn (fun s o => A s (c, o)) (M.at c) T E s →
        (∀ a s, T a s → (f a).wpOn A M R E s) → (code.tag c >>= f).wpOn A M R E s :=
    fun hcode hf => Prog.wpOn_bind.mpr (Prog.wpOn_tag.mpr (Prog.wpOn_mono hf (fun _ => id) hcode))
  refine hcall hbegin ?_
  rintro (_ | _) s hs
  · exact hs
  refine hcall (hprepare s hs) ?_
  rintro ⟨ret, uriOut⟩ s hs
  by_cases hret : ret < 0
  · simp only [hret, if_true] at hs ⊢
    exact hs
  simp only [hret, if_false] at hs ⊢
  refine hcall (hperform _ s hs) fun ret s hs => ?_
  by_cases hret : ret < 0
  · -- the guest was not sent, and there is no Confirm3
    simp only [hret, if_true] at hs ⊢
    exact hcall (hcancel _ s hs) fun _ _ => id
  · simp only [hret, if_false] at hs ⊢
    exact hcall (hfinish _ s hs) fun dom s hs => hcall (hconfirm dom s hs) fun _ _ => id

/-- The rule for a migration whose operations may be answered in any way. -/
theorem wp_migrate_of {σ : Type*} {M : Monitor (fun o : Call × Op => Res o.2) σ} {m : Migration}
    {Q : Unit → σ → Prop} {E : σ → Prop} {s : σ} (B P C D : σ → Prop) (F : Bool → σ → Prop)
    (hbegin : (migrateBegin3 m.xmlin m.flags).wp (M.at .begin3)
      (fun xml s => if xml then B s else Q () s) E s)
    (hprepare : ∀ s, B s → (migratePrepare3 m.strToLong true m.dname m.uriIn m.flags).wp
      (M.at .prepare3) (fun r s => if r.1 < 0 then Q () s else P s) E s)
    (hperform : ∀ uri s, P s → (migratePerform3 m.strToLong uri m.flags).wp (M.at .perform3)
      (fun ret s => if ret < 0 then C s else D s) E s)
    (hcancel : ∀ uri s, C s → (migrateFinish3 m.strToLong uri m.flags true).wp (M.at .finish3)
      (fun _ s => Q () s) E s)
    (hfinish : ∀ uri s, D s → (migrateFinish3 m.strToLong uri m.flags false).wp (M.at .finish3)
      F E s)
    (hconfirm : ∀ dom s, F dom s → (migrateConfirm3 m.flags (!dom)).wp (M.at .confirm3)
      (fun _ s => Q () s) E s) : (migrate m).wp M Q E s :=
  Prog.wpOn_true.mp (wpOn_migrate_of B P C D F (Prog.wpOn_of_wp hbegin)
    (fun s hs => Prog.wpOn_of_wp (hprepare s hs))
    (fun uri s hs => Prog.wpOn_of_wp (hperform uri s hs))
    (fun uri s hs => Prog.wpOn_of_wp (hcancel uri s hs))
    (fun uri s hs => Prog.wpOn_of_wp (hfinish uri s hs))
    fun dom s hs => Prog.wpOn_of_wp (hconfirm dom s hs))

/-- No flag is given. -/
def noFlags : MigrateFlags := ⟨false, false, false, false⟩

/-- A migration to a port that the client has picked. -/
def plainMigration : Migration where
  strToLong := readDecimal
  xmlin := false
  dname := false
  uriIn := some ['h', ':', '7']
  pickUri := fun _ => some ['h', ':', '7']
  flags := noFlags

/-- Everything succeeds but the handle in Finish3. -/
def noHandle : (o : Call × Op) → Res o.2
  | (.finish3, .ask (.prim .virGetDomain)) => false
  | (_, o) => allWell o

end Libxl

end OpenLog
