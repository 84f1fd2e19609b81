import OpenLog.Logic.Assume
import OpenLog.Libxl.Job

/-!
# What the driver's functions call

The operations of the programs in `OpenLog.Libxl.Domain` and `OpenLog.Libxl.Migrate`: the locks,
the domain list, the fields of a domain object, its jobs, the event queue, and the calls into
libxenlight, the libvirt utilities and the operating system. None is given a meaning here. A call
that can fail, or that reads something, is answered; whatever it answers is possible.

A pointer to a domain object is modelled by a Boolean, `true` for a pointer that is not `NULL`; a
call handles one domain. A crash is what happens to a program that goes through a `NULL` pointer
(`OpenLog.Libxl.deref`).

## Rules

What a module wants to know of the driver is a monitor of its own over these operations. The last
part of this file has one rule for each operation, for any monitor: what the rest of the program
has to do after it. The end that most functions share, where the domain and the driver are
unlocked and an event is queued, is a list of actions (`OpenLog.Libxl.Does`), so that a monitor
sees at once what becomes of it. The rules for what is left to do at a label are built from these,
next to the functions.
-/

namespace OpenLog

namespace Libxl

open Logic

/-! ### Domain states, events and errors -/

/-- The states with their reasons that the driver puts a domain in. -/
inductive DomState where
  | runningBooted
  | runningUnpaused
  | pausedUser
  | pausedDump
  | pausedMigration
  | shutoffFailed
  | shutoffDestroyed
  | shutoffSaved
  | shutoffCrashed
  deriving DecidableEq, Repr

/-- The lifecycle events that are queued, with their details. -/
inductive DomEvent where
  | startedBooted
  | startedRestored
  | suspendedPaused
  | suspendedMigrated
  | resumedUnpaused
  | stoppedDestroyed
  | stoppedSaved
  | stoppedCrashed
  deriving DecidableEq, Repr

/-- The error numbers that are reported. -/
inductive ErrCode where
  | noDomain
  | operationInvalid
  | operationFailed
  | internalError
  | invalidArg
  | argumentUnsupported
  | noMemory
  | system
  deriving DecidableEq, Repr

/-- A file descriptor variable. -/
inductive Fd where
  /-- Declared without a value. -/
  | unassigned
  /-- Negative. -/
  | invalid
  | opened
  deriving DecidableEq, Repr

/-! ### Operations -/

/-- Calls that succeed or fail and are named after their function. -/
inductive Prim where
  | virDomainDefParseString
  | virDomainDefFormat
  | virDomainEventNewFromObj
  | virDomainSaveStatus
  | virGetDomain
  | virAsprintf
  | strdup
  | virAlloc
  | virThreadCreate
  | virEventAddHandle
  | virFileOpenAs
  | safewriteHeader
  | safewriteXml
  | virNetSocketNewConnectTCP
  | socket
  | bind
  | listen
  | accept
  | libxlManagedSavePath
  | libxlSaveImageOpen
  | libxlBuildDomainConfig
  | libxlFreeMem
  | libxlSetVcpuAffinites
  | libxlDomainPause
  | libxlDomainUnpause
  | libxlDomainShutdownPoweroff
  | libxlDomainShutdownReboot
  | libxlDomainDestroy
  | libxlDomainSuspend (live : Bool)
  | libxlDomainResume
  | libxlDomainCoreDump
  | libxlUserdataStore
  | libxlWaitForDomainDeath
  | libxlGetWaitFd
  deriving DecidableEq, Repr

/-- Calls and reads that are answered with yes or no. -/
inductive Query where
  /-- Is the call successful? -/
  | prim (p : Prim)
  /-- Does the lookup find a domain? It is locked then. -/
  | findByUUID
  | findByName
  /-- Does `virDomainObjIsDuplicate` refuse the definition? -/
  | isDuplicate
  /-- Does `virDomainAssignDef` give a domain? It is locked then. -/
  | assignDef
  | isActive
  | isPersistent
  /-- Does `virDomainObjGetState` give `VIR_DOMAIN_PAUSED`, or `VIR_DOMAIN_RUNNING`? -/
  | isPaused
  | isRunning
  | hasEventHandle
  | hasWaiter
  | hasReservedVncPort
  | hasCputune
  | hasNewDef
  | managedSaveExists
  | managedSaveMatches
  /-- `libxlDomainObjEndJob`: do references to the domain remain? -/
  | endJob
  | endAsyncJob
  /-- `VIR_CLOSE` of a descriptor that is not negative. -/
  | close (fd : Fd)
  /-- Is a bit of `reservedMigPorts` set? -/
  | getBit (bit : ℕ)
  deriving DecidableEq

/-- Calls that are not answered. -/
inductive Action where
  | driverLock
  | driverUnlock
  | objLock
  | objUnlock
  | objRef
  | objUnref
  | removeInactive
  | deleteConfig
  | assignManagedDef
  | setState (state : DomState)
  /-- `def->id`: the new domain's, or `-1`. -/
  | setId (active : Bool)
  | eventQueue (event : Option DomEvent)
  | removeEventHandle
  | stopWaiting
  | freeWaiter
  | clearVncPort
  | clearCputune
  | unlinkStateFile
  | unlinkManagedSave
  | adoptNewDef
  | setAsyncJobMask (mask : BitVec 64)
  | setJobUnbounded
  | setBit (bit : ℕ)
  | clearBit (bit : ℕ)
  | netSocketFree (assigned : Bool)
  | report (code : ErrCode) (text : String)
  deriving DecidableEq

/-- How a call that starts a job comes back. -/
inductive BeginResult where
  | ok
  /-- Refused by the timeout, the limit or an error of the wait. -/
  | refused
  /-- The clock could not be read. -/
  | clockFailed
  deriving DecidableEq, Repr

/-- How `libxl_domain_create_new` or `libxl_domain_create_restore` comes back. -/
inductive CreateResult where
  | ok
  /-- Failed; `domidSet` says whether a domain id was given out. -/
  | failed (domidSet : Bool)
  deriving DecidableEq, Repr

/-- What a port turns out to be when it is bound. -/
inductive Probe where
  | free
  | inUse
  | error
  deriving DecidableEq, Repr

/-- The operations. -/
inductive Op where
  | ask (q : Query)
  | act (a : Action)
  | begin (call : BeginCall)
  | create (restore : Bool)
  | getHostname
  | probePort (port : ℤ)
  deriving DecidableEq

/-- The operations that cleaning up after a domain consists of. -/
def Op.Cleanup : Op → Prop
  | .ask .hasEventHandle | .ask .hasWaiter | .ask .isPersistent | .ask .hasReservedVncPort
  | .ask .hasCputune | .ask .hasNewDef | .ask (.prim .virAsprintf) | .act .removeEventHandle
  | .act .stopWaiting | .act (.setId _) | .act (.setState _) | .act .clearVncPort
  | .act .clearCputune | .act .unlinkStateFile | .act .adoptNewDef => True
  | _ => False

/-- The calls that can fail on the way of starting a domain. -/
def startPrims : List Prim :=
  [.libxlManagedSavePath, .libxlSaveImageOpen, .libxlBuildDomainConfig, .libxlFreeMem,
    .virDomainDefFormat, .libxlUserdataStore, .virAlloc, .libxlWaitForDomainDeath,
    .libxlGetWaitFd, .virEventAddHandle, .libxlSetVcpuAffinites, .libxlDomainUnpause,
    .virDomainSaveStatus, .virDomainEventNewFromObj, .libxlDomainDestroy]

/-- The operations that starting a domain consists of. They leave jobs, locks, the
domain list and the reserved ports alone. -/
def Op.Start : Op → Prop
  | .ask (.prim p) => p ∈ startPrims
  | .ask .managedSaveExists | .ask .managedSaveMatches | .ask (.close _)
  | .create _ | .act (.setState _) | .act (.setId _) | .act (.eventQueue _)
  | .act .freeWaiter | .act .unlinkManagedSave | .act .assignManagedDef | .act .objRef
  | .act .objUnref | .act (.report _ _) => True
  | _ => False

/-- Their answers. -/
def Res : Op → Type
  | .ask _ => Bool
  | .act _ => Unit
  | .begin _ => BeginResult
  | .create _ => CreateResult
  | .getHostname => Option (List Char)
  | .probePort _ => Probe

/-- Answers under which everything succeeds, and all ports are free. -/
def allWell : (o : Op) → Res o
  | .ask .isDuplicate | .ask (.getBit _) => false
  | .ask _ => true
  | .act _ => ()
  | .begin _ => .ok
  | .create _ => .ok
  | .getHostname => some ['h']
  | .probePort _ => .free

/-- A call that is answered with yes or no does not fail, a lookup that fails being one that
finds nothing. -/
def Query.succeeds : Query → Bool → Bool
  | .prim _, answer | .findByUUID, answer | .findByName, answer | .assignDef, answer => answer
  | .isDuplicate, answer => !answer
  | _, _ => true

/-- A call does not fail. -/
def succeeds : (o : Op) → Res o → Bool
  | .ask q, answer => q.succeeds answer
  | .act _, _ => true
  | .begin _, .ok => true
  | .begin _, .refused => false
  | .begin _, .clockFailed => false
  | .create _, .ok => true
  | .create _, .failed _ => false
  | .getHostname, hostname => hostname.isSome
  | .probePort _, _ => true

/-- Programs of the driver. -/
abbrev Code (α : Type) : Type := Prog Res α

def ask (q : Query) : Code Bool := .call (.ask q) .ret

def act (a : Action) : Code Unit := .call (.act a) .ret

def begin (call : BeginCall) : Code BeginResult := .call (.begin call) .ret

def create (restore : Bool) : Code CreateResult := .call (.create restore) .ret

def getHostname : Code (Option (List Char)) := .call .getHostname .ret

def probePort (port : ℤ) : Code Probe := .call (.probePort port) .ret

/-- A call that can fail. -/
def prim (p : Prim) : Code Bool := ask (.prim p)

/-- `libxlError` and its relatives. -/
def report (code : ErrCode) (text : String) : Code Unit := act (.report code text)

/-- Goes through the pointer `vm`. -/
def deref (vm : Bool) : Code Unit := if vm then pure () else .fault

/-- `virDomainEventNewFromObj`, the result being `NULL` if it fails. -/
def eventNew (event : DomEvent) : Code (Option DomEvent) := do
  if ← prim .virDomainEventNewFromObj then return some event else return none

/-- `if (event) libxlDomainEventQueue(driver, event)`. -/
def queueIf (event : Option DomEvent) : Code Unit :=
  if event.isSome then act (.eventQueue event) else pure ()

/-- `if (vm) virDomainObjUnlock(vm)`. -/
def unlockIf (vm : Bool) : Code Unit := if vm then act .objUnlock else pure ()

/-- `if (VIR_CLOSE(fd) < 0)` and the report that follows. `VIR_CLOSE` does nothing to
a negative descriptor. -/
def closeFd (fd : Fd) (text : String) : Code Unit :=
  if fd = .invalid then pure ()
  else do
    unless ← ask (.close fd) do
      report .system text

/-! ### Rules -/

section Rules

variable {α : Type} {σ : Type*} {M : Monitor Res σ} {s : σ} {Q : α → σ → Prop} {E : σ → Prop}

/-- A question: whatever the answer is, what comes after it has to be right for it. -/
@[simp] theorem wp_ask {q : Query} {f : Bool → Code α} :
    (ask q >>= f).wp M Q E s ↔
      M.ok s (.ask q) ∧ ∀ b : Bool, (f b).wp M Q E (M.next s (.ask q) b) := Iff.rfl

/-- An action has one answer, so that there is one way on. -/
@[simp] theorem wp_act {a : Action} {f : Unit → Code α} :
    (act a >>= f).wp M Q E s ↔ M.ok s (.act a) ∧ (f ()).wp M Q E (M.next s (.act a) ()) :=
  ⟨fun h => ⟨h.1, h.2 ()⟩, fun h => ⟨h.1, fun _ => h.2⟩⟩

/-- The start of a job, with its three outcomes. -/
@[simp] theorem wp_begin {call : BeginCall} {f : BeginResult → Code α} :
    (begin call >>= f).wp M Q E s ↔ M.ok s (.begin call) ∧
      ∀ r : BeginResult, (f r).wp M Q E (M.next s (.begin call) r) := Iff.rfl

/-- The call that makes the guest. A failure may leave a domain behind, of which only the
number is known. -/
@[simp] theorem wp_create {restore : Bool} {f : CreateResult → Code α} :
    (create restore >>= f).wp M Q E s ↔ M.ok s (.create restore) ∧
      ∀ r : CreateResult, (f r).wp M Q E (M.next s (.create restore) r) := Iff.rfl

@[simp] theorem wp_getHostname {f : Option (List Char) → Code α} :
    (getHostname >>= f).wp M Q E s ↔ M.ok s .getHostname ∧
      ∀ r : Option (List Char), (f r).wp M Q E (M.next s .getHostname r) := Iff.rfl

@[simp] theorem wp_probePort {port : ℤ} {f : Probe → Code α} :
    (probePort port >>= f).wp M Q E s ↔ M.ok s (.probePort port) ∧
      ∀ r : Probe, (f r).wp M Q E (M.next s (.probePort port) r) := Iff.rfl

/-- **A call that can fail** goes on with either answer. -/
@[simp] theorem wp_prim {p : Prim} {f : Bool → Code α} :
    (prim p >>= f).wp M Q E s ↔ M.ok s (.ask (.prim p)) ∧
      ∀ b : Bool, (f b).wp M Q E (M.next s (.ask (.prim p)) b) := Iff.rfl

/-- A report changes nothing in the driver. It is followed all the same, since a monitor may
look at it. -/
@[simp] theorem wp_report {code : ErrCode} {text : String} {f : Unit → Code α} :
    (report code text >>= f).wp M Q E s ↔ M.ok s (.act (.report code text)) ∧
      (f ()).wp M Q E (M.next s (.act (.report code text)) ()) := wp_act

/-- A pointer that is `NULL` is where the program crashes. -/
@[simp] theorem wp_deref {vm : Bool} {f : Unit → Code α} :
    (deref vm >>= f).wp M Q E s ↔ if vm then (f ()).wp M Q E s else E s := by
  cases vm
  · rfl
  · rfl

/-- An event that cannot be made is `NULL`, and nobody is told of the failure. -/
@[simp] theorem wp_eventNew {event : DomEvent} {f : Option DomEvent → Code α} :
    (eventNew event >>= f).wp M Q E s ↔ M.ok s (.ask (.prim .virDomainEventNewFromObj)) ∧
      (f none).wp M Q E (M.next s (.ask (.prim .virDomainEventNewFromObj)) false) ∧
      (f (some event)).wp M Q E (M.next s (.ask (.prim .virDomainEventNewFromObj)) true) := by
  rw [eventNew, bind_assoc, wp_prim, Bool.forall_bool]
  rfl

/-- An event that was made is queued. -/
@[simp] theorem wp_queueIf {event : Option DomEvent} {f : Unit → Code α} :
    (queueIf event >>= f).wp M Q E s ↔
      if event.isSome then M.ok s (.act (.eventQueue event)) ∧
        (f ()).wp M Q E (M.next s (.act (.eventQueue event)) ())
      else (f ()).wp M Q E s := by
  cases event
  · rfl
  · exact wp_act

/-- A domain that is still there is unlocked. -/
@[simp] theorem wp_unlockIf {vm : Bool} {f : Unit → Code α} :
    (unlockIf vm >>= f).wp M Q E s ↔
      if vm then M.ok s (.act .objUnlock) ∧ (f ()).wp M Q E (M.next s (.act .objUnlock) ())
      else (f ()).wp M Q E s := by
  cases vm
  · rfl
  · exact wp_act

/-- The actions `as` are allowed one after the other, and `T` holds after them. -/
def Does (M : Monitor Res σ) (T : σ → Prop) : List Action → σ → Prop
  | [], s => T s
  | a :: as, s => M.ok s (.act a) ∧ Does M T as (M.next s (.act a) ())

@[simp] theorem does_nil {T : σ → Prop} : Does M T [] s ↔ T s := Iff.rfl

@[simp] theorem does_cons {T : σ → Prop} {a : Action} {as : List Action} :
    Does M T (a :: as) s ↔ M.ok s (.act a) ∧ Does M T as (M.next s (.act a) ()) := Iff.rfl

/-- The actions of `OpenLog.Libxl.unlockIf`. -/
def unlocks (vm : Bool) : List Action := if vm then [.objUnlock] else []

@[simp] theorem unlocks_true : unlocks true = [.objUnlock] := rfl

@[simp] theorem unlocks_false : unlocks false = [] := rfl

/-- The actions of `OpenLog.Libxl.queueIf`. -/
def queues (event : Option DomEvent) : List Action :=
  if event.isSome then [.eventQueue event] else []

@[simp] theorem queues_none : queues none = [] := rfl

@[simp] theorem queues_some {event : DomEvent} :
    queues (some event) = [.eventQueue (some event)] := rfl

/-- **The end that most calls share**: the domain is unlocked if there is one, an event that
was made is queued, the driver is unlocked, and the result is returned. -/
theorem wp_unlockBoth {vm : Bool} {event : Option DomEvent} {ret : α} :
    (unlockIf vm >>= fun _ => queueIf event >>= fun _ => act .driverUnlock >>= fun _ =>
      pure ret).wp M Q E s ↔
      Does M (Q ret) (unlocks vm ++ queues event ++ [.driverUnlock]) s := by
  cases vm <;> cases event <;> simp

/-- A descriptor that is closed, and what is reported if that fails. -/
@[simp] theorem wp_closeFd {fd : Fd} {text : String} {f : Unit → Code α} :
    (closeFd fd text >>= f).wp M Q E s ↔
      if fd = .invalid then (f ()).wp M Q E s
      else M.ok s (.ask (.close fd)) ∧
        (report .system text >>= f).wp M Q E (M.next s (.ask (.close fd)) false) ∧
        (f ()).wp M Q E (M.next s (.ask (.close fd)) true) := by
  rw [closeFd]
  split_ifs
  · rfl
  · rw [bind_assoc, wp_ask, Bool.forall_bool]
    rfl

variable {A : σ → (o : Op) → Res o → Prop}

/-- A question whose answers are restricted: only the ones that are allowed are followed. -/
@[simp] theorem wpOn_ask {q : Query} {f : Bool → Code α} :
    (ask q >>= f).wpOn A M Q E s ↔ M.ok s (.ask q) ∧
      ∀ b : Bool, A s (.ask q) b → (f b).wpOn A M Q E (M.next s (.ask q) b) := Iff.rfl

/-- An action, where its one answer is allowed. -/
@[simp] theorem wpOn_act {a : Action} {f : Unit → Code α} :
    (act a >>= f).wpOn A M Q E s ↔ M.ok s (.act a) ∧
      (A s (.act a) () → (f ()).wpOn A M Q E (M.next s (.act a) ())) :=
  ⟨fun h => ⟨h.1, h.2 ()⟩, fun h => ⟨h.1, fun _ => h.2⟩⟩

/-- The start of a job, where its outcome is restricted. -/
@[simp] theorem wpOn_begin {call : BeginCall} {f : BeginResult → Code α} :
    (begin call >>= f).wpOn A M Q E s ↔ M.ok s (.begin call) ∧
      ∀ r : BeginResult, A s (.begin call) r →
        (f r).wpOn A M Q E (M.next s (.begin call) r) := Iff.rfl

@[simp] theorem wpOn_create {restore : Bool} {f : CreateResult → Code α} :
    (create restore >>= f).wpOn A M Q E s ↔ M.ok s (.create restore) ∧
      ∀ r : CreateResult, A s (.create restore) r →
        (f r).wpOn A M Q E (M.next s (.create restore) r) := Iff.rfl

/-- A call that can fail, where its answer is restricted. -/
@[simp] theorem wpOn_prim {p : Prim} {f : Bool → Code α} :
    (prim p >>= f).wpOn A M Q E s ↔ M.ok s (.ask (.prim p)) ∧
      ∀ b : Bool, A s (.ask (.prim p)) b →
        (f b).wpOn A M Q E (M.next s (.ask (.prim p)) b) := Iff.rfl

@[simp] theorem wpOn_report {code : ErrCode} {text : String} {f : Unit → Code α} :
    (report code text >>= f).wpOn A M Q E s ↔ M.ok s (.act (.report code text)) ∧
      (A s (.act (.report code text)) () →
        (f ()).wpOn A M Q E (M.next s (.act (.report code text)) ())) := wpOn_act

@[simp] theorem wpOn_deref {vm : Bool} {f : Unit → Code α} :
    (deref vm >>= f).wpOn A M Q E s ↔ if vm then (f ()).wpOn A M Q E s else E s := by
  cases vm
  · rfl
  · rfl

@[simp] theorem wpOn_unlockIf {vm : Bool} {f : Unit → Code α} :
    (unlockIf vm >>= f).wpOn A M Q E s ↔
      if vm then (act .objUnlock >>= f).wpOn A M Q E s else (f ()).wpOn A M Q E s := by
  cases vm
  · rfl
  · rfl

@[simp] theorem wpOn_queueIf {event : Option DomEvent} {f : Unit → Code α} :
    (queueIf event >>= f).wpOn A M Q E s ↔
      if event.isSome then (act (.eventQueue event) >>= f).wpOn A M Q E s
      else (f ()).wpOn A M Q E s := by
  cases event
  · rfl
  · rfl

@[simp] theorem wpOn_eventNew {event : DomEvent} {f : Option DomEvent → Code α} :
    (eventNew event >>= f).wpOn A M Q E s ↔
      (prim .virDomainEventNewFromObj >>= fun b =>
        f (if b then some event else none)).wpOn A M Q E s := by
  rw [eventNew, bind_assoc, wpOn_prim, wpOn_prim, Bool.forall_bool, Bool.forall_bool]
  rfl

/-- A descriptor that is closed, where the answer is restricted. -/
@[simp] theorem wpOn_closeFd {fd : Fd} {text : String} {f : Unit → Code α} :
    (closeFd fd text >>= f).wpOn A M Q E s ↔
      if fd = .invalid then (f ()).wpOn A M Q E s
      else M.ok s (.ask (.close fd)) ∧
        (A s (.ask (.close fd)) false →
          (report .system text >>= f).wpOn A M Q E (M.next s (.ask (.close fd)) false)) ∧
        (A s (.ask (.close fd)) true → (f ()).wpOn A M Q E (M.next s (.ask (.close fd)) true)) := by
  rw [closeFd]
  split_ifs
  · rfl
  · rw [bind_assoc, wpOn_ask, Bool.forall_bool]
    rfl

variable {S : Op → Prop} {a : α}

/-- A program that asks a question first calls what the question and the rest call. -/
@[simp] theorem calls_ask {q : Query} {f : Bool → Code α} :
    (ask q >>= f).Calls S ↔ S (.ask q) ∧ ∀ b : Bool, (f b).Calls S := Iff.rfl

@[simp] theorem calls_act {act' : Action} {f : Unit → Code α} :
    (act act' >>= f).Calls S ↔ S (.act act') ∧ (f ()).Calls S :=
  ⟨fun h => ⟨h.1, h.2 ()⟩, fun h => ⟨h.1, fun _ => h.2⟩⟩

@[simp] theorem calls_create {restore : Bool} {f : CreateResult → Code α} :
    (create restore >>= f).Calls S ↔ S (.create restore) ∧ ∀ r : CreateResult, (f r).Calls S :=
  Iff.rfl

@[simp] theorem calls_prim {p : Prim} {f : Bool → Code α} :
    (prim p >>= f).Calls S ↔ S (.ask (.prim p)) ∧ ∀ b : Bool, (f b).Calls S := Iff.rfl

@[simp] theorem calls_report {code : ErrCode} {text : String} {f : Unit → Code α} :
    (report code text >>= f).Calls S ↔ S (.act (.report code text)) ∧ (f ()).Calls S := calls_act

/-- The making of an event calls one function of the library. -/
@[simp] theorem calls_eventNew {event : DomEvent} {f : Option DomEvent → Code α} :
    (eventNew event >>= f).Calls S ↔ S (.ask (.prim .virDomainEventNewFromObj)) ∧
      (f none).Calls S ∧ (f (some event)).Calls S := by
  rw [eventNew, bind_assoc, calls_prim, Bool.forall_bool]
  rfl

@[simp] theorem canReturn_ask {q : Query} {f : Bool → Code α} :
    (ask q >>= f).CanReturn a ↔ ∃ b : Bool, (f b).CanReturn a := Iff.rfl

@[simp] theorem canReturn_act {act' : Action} {f : Unit → Code α} :
    (act act' >>= f).CanReturn a ↔ (f ()).CanReturn a :=
  ⟨fun ⟨_, h⟩ => h, fun h => ⟨(), h⟩⟩

@[simp] theorem canReturn_prim {p : Prim} {f : Bool → Code α} :
    (prim p >>= f).CanReturn a ↔ ∃ b : Bool, (f b).CanReturn a := Iff.rfl

@[simp] theorem canReturn_report {code : ErrCode} {text : String} {f : Unit → Code α} :
    (report code text >>= f).CanReturn a ↔ (f ()).CanReturn a := canReturn_act

/-- An event is made or not, and a program may return something else in either case. -/
@[simp] theorem canReturn_eventNew {event : DomEvent} {f : Option DomEvent → Code α} :
    (eventNew event >>= f).CanReturn a ↔ (f none).CanReturn a ∨ (f (some event)).CanReturn a := by
  rw [eventNew, bind_assoc, canReturn_prim, Bool.exists_bool]
  rfl

@[simp] theorem canReturn_create {restore : Bool} {f : CreateResult → Code α} :
    (create restore >>= f).CanReturn a ↔ ∃ r : CreateResult, (f r).CanReturn a := Iff.rfl

/-- What holds of every outcome of the start of a job, outcome by outcome. -/
@[simp] theorem forall_beginResult {P : BeginResult → Prop} :
    (∀ r, P r) ↔ P .ok ∧ P .refused ∧ P .clockFailed :=
  ⟨fun h => ⟨h _, h _, h _⟩, fun h r => by cases r <;> simp only [h]⟩

/-- What holds of every outcome of making a guest. A failure comes with or without a domain. -/
@[simp] theorem forall_createResult {P : CreateResult → Prop} :
    (∀ r, P r) ↔ P .ok ∧ P (.failed true) ∧ P (.failed false) :=
  ⟨fun h => ⟨h _, h _, h _⟩, fun h r => by rcases r with - | (_ | _) <;> simp only [h]⟩

@[simp] theorem exists_createResult {P : CreateResult → Prop} :
    (∃ r, P r) ↔ P .ok ∨ P (.failed true) ∨ P (.failed false) := by
  constructor
  · rintro ⟨- | (_ | _), h⟩
    · exact Or.inl h
    · exact Or.inr (Or.inr h)
    · exact Or.inr (Or.inl h)
  · rintro (h | h | h)
    · exact ⟨_, h⟩
    · exact ⟨_, h⟩
    · exact ⟨_, h⟩

/-- **Who does not look at cleaning up**: a monitor that leaves each of its operations alone. -/
theorem ignores_cleanup_iff : M.Ignores Op.Cleanup s ↔
    (M.Leaves s (.ask .hasEventHandle) ∧ M.Leaves s (.ask .hasWaiter) ∧
      M.Leaves s (.ask .isPersistent) ∧ M.Leaves s (.ask .hasReservedVncPort) ∧
      M.Leaves s (.ask .hasCputune) ∧ M.Leaves s (.ask .hasNewDef) ∧
      M.Leaves s (.ask (.prim .virAsprintf))) ∧
    (M.Leaves s (.act .removeEventHandle) ∧ M.Leaves s (.act .stopWaiting) ∧
      M.Leaves s (.act .clearVncPort) ∧ M.Leaves s (.act .clearCputune) ∧
      M.Leaves s (.act .unlinkStateFile) ∧ M.Leaves s (.act .adoptNewDef)) ∧
    (∀ active, M.Leaves s (.act (.setId active))) ∧
      ∀ state, M.Leaves s (.act (.setState state)) := by
  constructor
  · intro h
    exact ⟨⟨h _ trivial, h _ trivial, h _ trivial, h _ trivial, h _ trivial, h _ trivial,
      h _ trivial⟩, ⟨h _ trivial, h _ trivial, h _ trivial, h _ trivial, h _ trivial,
      h _ trivial⟩, fun _ => h _ trivial, fun _ => h _ trivial⟩
  · rintro ⟨⟨_, _, _, _, _, _, _⟩, ⟨_, _, _, _, _, _⟩, hid, hstate⟩ o ho
    unfold Op.Cleanup at ho
    split at ho
    all_goals first | assumption | exact hid _ | exact hstate _ | exact ho.elim

/-- **Who does not look at starting**: a monitor that leaves the calls of
`OpenLog.Libxl.startPrims` and the other operations on the way alone. -/
theorem ignores_start_iff : M.Ignores Op.Start s ↔
    ((∀ p ∈ startPrims, M.Leaves s (.ask (.prim p))) ∧ M.Leaves s (.ask .managedSaveExists) ∧
      M.Leaves s (.ask .managedSaveMatches) ∧ ∀ fd, M.Leaves s (.ask (.close fd))) ∧
    (M.Leaves s (.act .freeWaiter) ∧ M.Leaves s (.act .unlinkManagedSave) ∧
      M.Leaves s (.act .assignManagedDef) ∧ M.Leaves s (.act .objRef) ∧
      M.Leaves s (.act .objUnref)) ∧
    (∀ state, M.Leaves s (.act (.setState state))) ∧
      (∀ active, M.Leaves s (.act (.setId active))) ∧
      (∀ event, M.Leaves s (.act (.eventQueue event))) ∧
      (∀ code text, M.Leaves s (.act (.report code text))) ∧
      ∀ restore, M.Leaves s (.create restore) := by
  constructor
  · intro h
    exact ⟨⟨fun _ hp => h _ hp, h _ trivial, h _ trivial, fun _ => h _ trivial⟩,
      ⟨h _ trivial, h _ trivial, h _ trivial, h _ trivial, h _ trivial⟩, fun _ => h _ trivial,
      fun _ => h _ trivial, fun _ => h _ trivial, fun _ _ => h _ trivial, fun _ => h _ trivial⟩
  · rintro ⟨⟨hprim, _, _, hclose⟩, ⟨_, _, _, _, _⟩, hstate, hid, hevent, hreport, hcreate⟩ o ho
    unfold Op.Start at ho
    split at ho
    all_goals
      first
      | assumption | exact hprim _ ho | exact hclose _ | exact hstate _ | exact hid _
      | exact hevent _ | exact hreport _ _ | exact hcreate _ | exact ho.elim

end Rules

end Libxl

end OpenLog
