import OpenLog.Libxl.LockDiscipline
import OpenLog.Logic.LockOrder

/-!
# The order of the mutexes

Threads of the driver that serve calls, one after the other, each on a domain of its own or on one
that others work on as well. There are the driver's mutex and one for each domain. Starting a job
with the driver locked drops both, waits for the job to be free with the domain's mutex alone, and
takes the two again in their order, the driver's first.

## One call

All calls but CoreDump and Prepare3 lock the driver only when they hold nothing, and a domain when
they hold the driver at most (`OpenLog.Libxl.DriverCall.keeps`); SaveFlags does as long as its
domain is persistent and somebody else refers to it. A thread that makes one call after the other
comes to each with nothing held.

## All threads

What an operation does to the mutexes is a list of locks and unlocks
(`OpenLog.Libxl.Mutex.acts`), and what a thread holds is what the monitor of its call says. So the
calls never block each other for good (`OpenLog.Libxl.driver_no_deadlock`): by
`OpenLog.Logic.LockOrder`, threads that take their mutexes in the order of a rank can always go
on.
-/

namespace OpenLog

namespace Libxl

open Logic

/-! ### What a thread holds -/

/-- The mutexes that a thread holds: the driver's, and that of its domain. -/
structure Holds where
  driver : Bool
  dom : Bool
  deriving DecidableEq

namespace Holds

def nothing : Holds := ⟨false, false⟩

/-- A thread that holds these, and has done nothing else. -/
def toMutexes (m : Holds) : Mutexes := { Mutexes.start with driver := m.driver, dom := m.dom }

/-- What an operation does to the mutexes, as `OpenLog.Libxl.Mutexes.next` has it. -/
def next (m : Holds) (o : Op) (r : Res o) : Holds :=
  ⟨(m.toMutexes.next o r).driver, (m.toMutexes.next o r).dom⟩

/-- The order: the driver is locked by a thread that holds nothing, and a domain by one that does
not hold it; what is unlocked is held. -/
def InOrder (m : Holds) : Op → Prop
  | .act .driverLock => m.driver = false ∧ m.dom = false
  | .act .driverUnlock => m.driver = true
  | .act .objLock | .ask .findByUUID | .ask .findByName | .ask .assignDef => m.dom = false
  | .act .objUnlock | .act .removeInactive | .ask .endJob | .ask .endAsyncJob => m.dom = true
  | .begin call => m.driver = call.driverLocked ∧ m.dom = true
  | _ => True

def monitor : Monitor Res Holds := ⟨next, InOrder⟩

@[simp] theorem monitor_next : monitor.next = next := rfl

@[simp] theorem monitor_ok : monitor.ok = InOrder := rfl

/-- A call that succeeds or fails leaves the mutexes alone. -/
theorem next_prim (m : Holds) (p : Prim) (r : Res (.ask (.prim p))) :
    m.next (.ask (.prim p)) r = m := by
  cases p <;> rfl

/-- A lookup, by a thread that has not locked the domain. -/
theorem next_lookedUp {m : Holds} {o : Op} {r : Res o} {found : Bool} (hdom : m.dom = false)
    (hnext : m.toMutexes.next o r = m.toMutexes.lookedUp found) :
    m.next o r = { m with dom := found } := by
  obtain ⟨driver, dom⟩ := m
  obtain rfl : dom = false := hdom
  rw [next, hnext]
  cases found
  · rfl
  · rfl

/-- The end of a job, by a thread that has locked the domain. -/
theorem next_endedJob {m : Holds} {o : Op} {r : Res o} {more : Bool} (hdom : m.dom = true)
    (hnext : m.toMutexes.next o r = m.toMutexes.endedJob more) :
    m.next o r = { m with dom := more } := by
  obtain ⟨driver, dom⟩ := m
  obtain rfl : dom = true := hdom
  rw [next, hnext]
  cases more
  · rfl
  · rfl

/-- **The start of a job** takes again what it has dropped. -/
theorem next_begin {m : Holds} {call : BeginCall} (hok : m.InOrder (.begin call))
    (r : Res (.begin call)) : m.next (.begin call) r = m := by
  obtain ⟨driver, dom⟩ := m
  obtain ⟨rfl, rfl⟩ : driver = call.driverLocked ∧ dom = true := hok
  cases hlocked : call.driverLocked
  all_goals
    cases r
    all_goals simp [next, Mutexes.next, Mutexes.begun, toMutexes, hlocked, Mutexes.lockDriver,
      Mutexes.lockDom]

attribute [local simp] next toMutexes Mutexes.next Mutexes.start Mutexes.lockDriver
  Mutexes.unlockDriver Mutexes.lockDom Mutexes.unlockDom Mutexes.lookedUp Mutexes.endedJob
  Mutexes.begun InOrder

/-- Cleaning up after a domain locks nothing. -/
theorem ignores_cleanup (m : Holds) : monitor.Ignores Op.Cleanup m := by
  rw [ignores_cleanup_iff]
  simp

/-- Nor does starting one, as the calls do it. -/
theorem ignores_start (m : Holds) : monitor.Ignores Op.Start m := by
  rw [ignores_start_iff]
  refine ⟨⟨fun p _ => ⟨trivial, next_prim m p⟩, ?_⟩, ?_⟩
  · simp
  · simp

/-- Nor does parsing a URI. -/
@[simp] theorem ignores_parse (m : Holds) : monitor.Ignores Op.Parse m := by
  rw [ignores_parse_iff]
  simp

end Holds

/-! ### Calls -/

/-- A call that a thread serves, with its arguments. -/
inductive DriverCall where
  | entry (e : Entry)
  | begin3 (xmlin : Bool) (flags : MigrateFlags)
  | perform3 (uri : Option Uri) (flags : MigrateFlags)
  | finish3 (uri : Option Uri) (flags : MigrateFlags) (cancelled : Bool)
  | confirm3 (flags : MigrateFlags) (cancelled : Bool)

namespace DriverCall

/-- The program of a call, without its result. -/
def code (strToLong : List Char → Option ℤ) : DriverCall → Code Unit
  | entry e => e.code >>= fun _ => pure ()
  | begin3 xmlin flags => migrateBegin3 xmlin flags >>= fun _ => pure ()
  | perform3 uri flags => migratePerform3 strToLong uri flags >>= fun _ => pure ()
  | finish3 uri flags cancelled => migrateFinish3 strToLong uri flags cancelled >>= fun _ => pure ()
  | confirm3 flags cancelled => migrateConfirm3 flags cancelled >>= fun _ => pure ()

/-- It is CoreDump, which locks the driver while it holds its domain. -/
def IsDump : DriverCall → Prop
  | entry (.coreDump _) => True
  | _ => False

/-- It is SaveFlags. -/
def isSave : DriverCall → Bool
  | entry (.saveFlags _ _) => true
  | _ => false

/-- The answers while a domain is saved: it is persistent, and others refer to it. -/
def kept : (o : Op) → Res o → Bool
  | .ask .isPersistent, persistent => persistent
  | .ask .endAsyncJob, more => more
  | _, _ => true

end DriverCall

namespace Holds

attribute [local simp] next toMutexes Mutexes.next Mutexes.start Mutexes.lockDriver
  Mutexes.unlockDriver Mutexes.lockDom Mutexes.unlockDom Mutexes.lookedUp Mutexes.endedJob
  Mutexes.begun InOrder nothing

/-- A call that keeps to the order and holds nothing in the end. -/
def Keeps {α : Type} (A : (o : Op) → Res o → Bool) (p : Code α) : Prop :=
  p.wpOn (fun _ o r => A o r = true) monitor (fun _ m => m = nothing) (fun _ => True) nothing

section

variable {α : Type} {A : (o : Op) → Res o → Bool}

/-- Whatever the answers are, it is enough to look at all of them. -/
theorem keeps_of_wp {p : Code α}
    (h : p.wp monitor (fun _ m => m = nothing) (fun _ => True) nothing) : Keeps A p :=
  Prog.wpOn_of_wp h

/-- CreateXML locks the driver, then the domain that it has put into the list. -/
theorem keeps_createXML (flagsOk startPaused : Bool) :
    Keeps A (domainCreateXML flagsOk startPaused) := by
  apply keeps_of_wp
  simp [domainCreateXML, ignores_start]

/-- Suspend unlocks the driver before it goes on with the domain. The job that it ends without
having begun one unlocks the domain if that was the last reference. -/
theorem keeps_suspend : Keeps A domainSuspend := by
  apply keeps_of_wp
  simp [domainSuspend]

/-- Resume starts its job with the domain locked alone. -/
theorem keeps_resume : Keeps A domainResume := by
  apply keeps_of_wp
  simp [domainResume, domainObjBeginJob]

/-- Shutdown and Reboot keep the driver locked, whatever the library is asked for. -/
theorem keeps_shutdownWith (request : Prim) (text : String) (flagsOk : Bool) :
    Keeps A (domainShutdownWith request text flagsOk) := by
  have hrequest (m : Holds) (ok : Bool) : m.next (.ask (.prim request)) ok = m :=
    next_prim m request ok
  apply keeps_of_wp
  simp [domainShutdownWith, ↓hrequest]

/-- So does DestroyFlags, until the event is queued. -/
theorem keeps_destroyFlags (flagsOk : Bool) : Keeps A (domainDestroyFlags flagsOk) := by
  apply keeps_of_wp
  simp [domainDestroyFlags, ignores_cleanup]

section Save

variable {f : Int → Code α} {Q : α → Holds → Prop} {E : Holds → Prop} {m : Holds}

/-- The end of `libxlDoDomainSave` leaves the mutexes alone. -/
theorem wpOn_save_cleanup {fd : Fd} {event : Option DomEvent} {ret : Int}
    (hf : (f ret).wpOn (fun _ o r => A o r = true) monitor Q E m) :
    (doDomainSave.cleanup fd event ret >>= f).wpOn (fun _ o r => A o r = true) monitor Q E m := by
  cases fd <;> cases event <;>
    simp [doDomainSave.cleanup, bind_assoc, hf]

/-- The end of the job leaves them alone as well, where somebody else refers to the domain. -/
theorem wpOn_save_endjob {fd : Fd} {event : Option DomEvent} {ret : Int} (vm : Bool)
    (hdom : m.dom = true)
    (hf : (f ret).wpOn (fun _ o r => DriverCall.kept o r = true) monitor Q E m) :
    (doDomainSave.endjob vm fd event ret >>= f).wpOn (fun _ o r => DriverCall.kept o r = true)
      monitor Q E m := by
  cases vm with
  | false => exact wpOn_save_cleanup hf
  | true =>
    simp only [doDomainSave.endjob, if_true, bind_assoc, wpOn_ask, monitor_ok, monitor_next]
    refine ⟨hdom, fun more hmore => ?_⟩
    obtain rfl : more = true := hmore
    have hsame : m.next (.ask .endAsyncJob) true = m := by
      simp [← hdom]
    rw [hsame]
    exact wpOn_save_cleanup hf

/-- The domain is persistent. -/
theorem wpOn_persistent {g : Bool → Code α}
    (hg : (g true).wpOn (fun _ o r => DriverCall.kept o r = true) monitor Q E m) :
    (ask .isPersistent >>= g).wpOn (fun _ o r => DriverCall.kept o r = true) monitor Q E m := by
  refine wpOn_ask.mpr ⟨trivial, fun persistent hpersistent => ?_⟩
  obtain rfl : persistent = true := hpersistent
  exact hg

end Save

/-- While both mutexes are held, the save is called and comes back with both. -/
theorem wpOn_doDomainSave {f : Int → Code α} {Q : α → Holds → Prop} {E : Holds → Prop}
    (hf : ∀ ret, (f ret).wpOn (fun _ o r => DriverCall.kept o r = true) monitor Q E ⟨true, true⟩) :
    (doDomainSave >>= f).wpOn (fun _ o r => DriverCall.kept o r = true) monitor Q E
      ⟨true, true⟩ := by
  have hend (fd : Fd) (event : Option DomEvent) (ret : Int) :
      (doDomainSave.endjob true fd event ret >>= f).wpOn (fun _ o r => DriverCall.kept o r = true)
        monitor Q E ⟨true, true⟩ :=
    wpOn_save_endjob true rfl (hf ret)
  have hreap (k : Int → Code α)
      (hk : ∀ ret, (k ret).wpOn (fun _ o r => DriverCall.kept o r = true) monitor Q E
        ⟨true, true⟩) :
      (vmReap .shutoffSaved >>= k).wpOn (fun _ o r => DriverCall.kept o r = true) monitor Q E
        ⟨true, true⟩ := by
    refine wpOn_vmReap.mpr ⟨trivial, fun _ => ⟨trivial, fun _ _ => hk (-1)⟩, fun _ => ?_⟩
    exact (vmCleanup_calls _).wpOn_bind (ignores_cleanup _) fun _ _ => hk 0
  simp [doDomainSave, hend, wpOn_save_cleanup (hf _), -wpOn_vmReap]
  intros
  -- reaped or not, a persistent domain goes on to the end of the job
  constructor
  all_goals
    intro _
    refine hreap _ fun ret => ?_
    split_ifs
    · exact wpOn_persistent (hend _ _ _)
    · exact ⟨trivial, fun _ _ => hend _ _ _⟩

/-- The domain is persistent, and others refer to it: SaveFlags ends with what it has locked. -/
theorem keeps_saveFlags (flagsOk dxml : Bool) :
    Keeps DriverCall.kept (domainSaveFlags flagsOk dxml) := by
  have hcleanup (ret : Int) : (domainSaveFlags.cleanup true ret).wpOn
      (fun _ o r => DriverCall.kept o r = true) monitor (fun _ m => m = nothing) (fun _ => True)
        ⟨true, true⟩ := by
    simp [domainSaveFlags.cleanup]
  have hsave := wpOn_doDomainSave hcleanup
  simp [Keeps, domainSaveFlags]
  intro _ _ _
  refine ⟨fun _ _ => ?_, fun _ => ⟨fun _ _ => hcleanup (-1), fun _ => hsave⟩⟩
  simp [domainSaveFlags.cleanup]

/-- RestoreFlags locks as CreateXML does. -/
theorem keeps_restoreFlags (flagsOk dxml : Bool) : Keeps A (domainRestoreFlags flagsOk dxml) := by
  apply keeps_of_wp
  simp [domainRestoreFlags, ignores_start]

/-- Begin3 locks the driver and the domain, and its job goes on after both are unlocked. -/
theorem keeps_begin3 (xmlin : Bool) (flags : MigrateFlags) :
    Keeps A (migrateBegin3 xmlin flags) := by
  apply keeps_of_wp
  simp [migrateBegin3]

variable {strToLong : List Char → Option ℤ}

/-- Perform3 sends the guest with both unlocked, and takes them again in their order. -/
theorem keeps_perform3 (uri : Option Uri) (flags : MigrateFlags) :
    Keeps A (migratePerform3 strToLong uri flags) := by
  apply keeps_of_wp
  simp [migratePerform3, Option.forall]

/-- Finish3 looks the domain up with the driver locked. -/
theorem keeps_finish3 (uri : Option Uri) (flags : MigrateFlags) (cancelled : Bool) :
    Keeps A (migrateFinish3 strToLong uri flags cancelled) := by
  apply keeps_of_wp
  simp [migrateFinish3, migrateFinish3.lookup, migrateFinish3.cleanup, Option.forall,
    ignores_cleanup]

/-- So does Confirm3. -/
theorem keeps_confirm3 (flags : MigrateFlags) (cancelled : Bool) :
    Keeps A (migrateConfirm3 flags cancelled) := by
  apply keeps_of_wp
  simp [migrateConfirm3, ignores_cleanup]

/-- The result does not matter. -/
theorem Keeps.unit {p : Code α} (h : Keeps A p) : Keeps A (p >>= fun _ => pure ()) :=
  Prog.wpOn_bind.mpr h

end

end Holds

namespace DriverCall

variable {strToLong : List Char → Option ℤ}

/-- The answers that are looked at in a call. -/
def allowed (c : DriverCall) (o : Op) (r : Res o) : Bool := !c.isSave || kept o r

/-- Where all goes well the domain is persistent and stays referenced. -/
theorem kept_allWell (o : Op) : kept o (allWell o) = true := by
  rcases o with q | a | call | restore | - | port
  · cases q <;> rfl
  all_goals rfl

/-- The calls that work on one domain, one by one. -/
theorem keeps_entry {e : Entry} (he : ¬(entry e).IsDump) :
    Holds.Keeps (entry e).allowed e.code := by
  rcases e with ⟨flagsOk, startPaused⟩ | - | - | flagsOk | flagsOk | flagsOk | ⟨flagsOk, dxml⟩ |
    ⟨flagsOk, dxml⟩ | flags
  · refine Prog.wpOn_bind.mpr (Prog.wpOn_mono ?_ (fun _ h => h)
      (Holds.keeps_createXML flagsOk startPaused))
    rintro (_ | _) m hm
    · exact hm
    · exact hm
  · exact Holds.keeps_suspend
  · exact Holds.keeps_resume
  · exact Holds.keeps_shutdownWith _ _ flagsOk
  · exact Holds.keeps_shutdownWith _ _ flagsOk
  · exact Holds.keeps_destroyFlags flagsOk
  · exact Holds.keeps_saveFlags flagsOk dxml
  · exact Holds.keeps_restoreFlags flagsOk dxml
  · exact absurd trivial he

/-- **A call keeps to the order** and returns with nothing held, if it is not CoreDump. -/
theorem keeps {c : DriverCall} (hc : ¬c.IsDump) : Holds.Keeps c.allowed (c.code strToLong) := by
  rcases c with e | ⟨xmlin, flags⟩ | ⟨uri, flags⟩ | ⟨uri, flags, cancelled⟩ | ⟨flags, cancelled⟩
  · exact (keeps_entry hc).unit
  · exact (Holds.keeps_begin3 xmlin flags).unit
  · exact (Holds.keeps_perform3 uri flags).unit
  · exact (Holds.keeps_finish3 uri flags cancelled).unit
  · exact (Holds.keeps_confirm3 flags cancelled).unit

end DriverCall

/-! ### The mutexes of all domains -/

section Mutex

variable {Dom : Type} [DecidableEq Dom]

inductive Mutex (Dom : Type) where
  | driver
  | dom (d : Dom)
  deriving DecidableEq

namespace Mutex

/-- The driver's comes first. -/
def rank : Mutex Dom → ℕ
  | driver => 0
  | dom _ => 1

/-- What an operation on the domain `d` does. The wait for a job, which takes the domain's mutex
again each time that it is woken, goes round `n` times. -/
def acts (d : Dom) : (o : Op) → Res o → ℕ → List (LockAct (Mutex Dom))
  | .act .driverLock, _, _ => [.lock driver]
  | .act .driverUnlock, _, _ => [.unlock driver]
  | .act .objLock, _, _ => [.lock (dom d)]
  | .act .objUnlock, _, _ => [.unlock (dom d)]
  | .act .removeInactive, _, _ => [.unlock (dom d)]
  | .ask .findByUUID, found, _ => lookedUp found
  | .ask .findByName, found, _ => lookedUp found
  | .ask .assignDef, found, _ => lookedUp found
  | .ask .endJob, more, _ => endedJob more
  | .ask .endAsyncJob, more, _ => endedJob more
  | .begin _, .clockFailed, _ => []
  | .begin call, .ok, n => begun call.driverLocked n
  | .begin call, .refused, n => begun call.driverLocked n
  | _, _, _ => []
where
  lookedUp (found : Bool) : List (LockAct (Mutex Dom)) := if found then [.lock (dom d)] else []
  endedJob (more : Bool) : List (LockAct (Mutex Dom)) := if more then [] else [.unlock (dom d)]
  begun (driverLocked : Bool) (n : ℕ) : List (LockAct (Mutex Dom)) :=
    if driverLocked then
      [.unlock driver] ++ waits n ++ [.unlock (dom d), .lock driver, .lock (dom d)]
    else waits n
  waits (n : ℕ) : List (LockAct (Mutex Dom)) :=
    (List.replicate n [.unlock (dom d), .lock (dom d)]).flatten

end Mutex

namespace Holds

/-- The mutexes that a thread at work on the domain `d` holds. -/
def mutexes (d : Dom) (m : Holds) : Finset (Mutex Dom) :=
  (if m.driver then {.driver} else ∅) ∪ if m.dom then {.dom d} else ∅

variable {d : Dom} {m : Holds} {b c : Bool}

@[simp] theorem mutexes_nothing : mutexes d nothing = ∅ := rfl

/-- What a thread holds that has locked the driver. -/
theorem insert_driver : insert .driver (mutexes d ⟨b, c⟩) = mutexes d ⟨true, c⟩ := by
  ext k
  cases b <;> simp [mutexes]

/-- What it holds that has unlocked it. -/
theorem erase_driver : (mutexes d ⟨b, c⟩).erase .driver = mutexes d ⟨false, c⟩ := by
  ext k
  cases b <;> cases c <;> simp [mutexes]

/-- What it holds that has locked its domain. -/
theorem insert_dom : insert (.dom d) (mutexes d ⟨b, c⟩) = mutexes d ⟨b, true⟩ := by
  ext k
  cases c <;> simp [mutexes]

/-- What it holds that has unlocked it. -/
theorem erase_dom : (mutexes d ⟨b, c⟩).erase (.dom d) = mutexes d ⟨b, false⟩ := by
  ext k
  cases b <;> cases c <;> simp [mutexes]
  constructor
  · rintro ⟨hk, rfl | rfl⟩
    · rfl
    · exact absurd rfl hk
  · rintro rfl
    exact ⟨nofun, Or.inl rfl⟩

/-- To lock the domain is in order, whether the driver is locked or not: the driver comes
first. -/
theorem orderly_lock_dom : Orderly Mutex.rank (mutexes d ⟨b, false⟩) [.lock (.dom d)]
    (mutexes d ⟨b, true⟩) := by
  refine ⟨?_, insert_dom⟩
  cases b <;> simp [mutexes, Mutex.rank]

/-- Unlocking is always in order, if the mutex is held. -/
theorem orderly_unlock_dom : Orderly Mutex.rank (mutexes d ⟨b, true⟩) [.unlock (.dom d)]
    (mutexes d ⟨b, false⟩) :=
  ⟨by simp [mutexes], erase_dom⟩

/-- The driver is locked in order by a thread that holds nothing. -/
theorem orderly_lock_driver : Orderly Mutex.rank (mutexes d ⟨false, false⟩) [.lock .driver]
    (mutexes d ⟨true, false⟩) :=
  ⟨by simp [mutexes], insert_driver⟩

theorem orderly_unlock_driver : Orderly Mutex.rank (mutexes d ⟨true, c⟩) [.unlock .driver]
    (mutexes d ⟨false, c⟩) :=
  ⟨by simp [mutexes], erase_driver⟩

/-- **A wait** ends with what it has begun with. -/
theorem orderly_waits (n : ℕ) : Orderly Mutex.rank (mutexes d ⟨b, true⟩) (Mutex.acts.waits d n)
    (mutexes d ⟨b, true⟩) :=
  (orderly_unlock_dom.append orderly_lock_dom).replicate n

/-- The start of a job with the driver locked drops the driver, waits with the domain, drops
the domain, and takes both again. -/
theorem orderly_begun (n : ℕ) : Orderly Mutex.rank (mutexes d ⟨b, true⟩)
    (Mutex.acts.begun d b n) (mutexes d ⟨b, true⟩) := by
  cases b with
  | false => exact orderly_waits n
  | true =>
    exact (orderly_unlock_driver.append (orderly_waits n)).append
      (orderly_unlock_dom.append (orderly_lock_driver.append orderly_lock_dom))

/-- A lookup locks the domain that it finds. -/
theorem orderly_lookedUp (found : Bool) : Orderly Mutex.rank (mutexes d ⟨b, false⟩)
    (Mutex.acts.lookedUp d found) (mutexes d ⟨b, found⟩) := by
  cases found with
  | false => rfl
  | true => exact orderly_lock_dom

/-- The last reference to a domain goes with its mutex unlocked. -/
theorem orderly_endedJob (more : Bool) : Orderly Mutex.rank (mutexes d ⟨b, true⟩)
    (Mutex.acts.endedJob d more) (mutexes d ⟨b, more⟩) := by
  cases more with
  | false => exact orderly_unlock_dom
  | true => rfl

/-- **What an operation does is in order**, and leaves the mutexes as the monitor has them. -/
theorem orderly_acts {o : Op} (hok : m.InOrder o) (r : Res o) (n : ℕ) :
    Orderly Mutex.rank (mutexes d m) (Mutex.acts d o r n) (mutexes d (m.next o r)) := by
  rcases o with q | a | call | restore | - | port
  · cases q
    case findByUUID | findByName | assignDef =>
      have hdom : m.dom = false := hok
      rw [next_lookedUp hdom rfl]
      obtain ⟨b, c⟩ := m
      obtain rfl : c = false := hdom
      exact orderly_lookedUp r
    case endJob | endAsyncJob =>
      have hdom : m.dom = true := hok
      rw [next_endedJob hdom rfl]
      obtain ⟨b, c⟩ := m
      obtain rfl : c = true := hdom
      exact orderly_endedJob r
    case prim p =>
      rw [next_prim]
      exact orderly_nil.mpr rfl
    all_goals exact orderly_nil.mpr rfl
  · obtain ⟨b, c⟩ := m
    cases a
    case driverLock =>
      obtain ⟨rfl, rfl⟩ : b = false ∧ c = false := hok
      exact orderly_lock_driver
    case driverUnlock =>
      obtain rfl : b = true := hok
      exact orderly_unlock_driver
    case objLock =>
      obtain rfl : c = false := hok
      exact orderly_lock_dom
    case objUnlock | removeInactive =>
      obtain rfl : c = true := hok
      exact orderly_unlock_dom
    all_goals exact orderly_nil.mpr rfl
  · rw [next_begin hok]
    obtain ⟨b, c⟩ := m
    obtain ⟨rfl, rfl⟩ : b = call.driverLocked ∧ c = true := hok
    cases r with
    | clockFailed => rfl
    | ok => exact orderly_begun n
    | refused => exact orderly_begun n
  · rfl
  · rfl
  · rfl

end Holds

/-! ### Threads -/

/-- What a thread that serves calls for one domain after the other holds. -/
structure Held (Dom : Type) where
  driver : Bool
  dom : Option Dom

namespace Held

/-- As the call for a domain sees it. -/
def seen (m : Held Dom) (d : Dom) : Holds := ⟨m.driver, decide (m.dom = some d)⟩

def of (d : Dom) (m : Holds) : Held Dom := ⟨m.driver, if m.dom then some d else none⟩

def mutexes (m : Held Dom) : Finset (Mutex Dom) :=
  (if m.driver then {.driver} else ∅) ∪
    match m.dom with
    | some d => {.dom d}
    | none => ∅

/-- The operations of a call come with the call and its domain. A call for a domain finds that of
no other one locked. -/
def monitor : Monitor (fun o : (Dom × DriverCall) × Op => Res o.2) (Held Dom) where
  next m o r := of o.1.1 ((m.seen o.1.1).next o.2 r)
  ok m o := (∀ d, m.dom = some d → d = o.1.1) ∧ (m.seen o.1.1).InOrder o.2

variable {d : Dom} {m : Holds}

/-- A thread that holds the mutexes of a call is seen by it as holding them. -/
@[simp] theorem seen_of : (of d m).seen d = m := by
  obtain ⟨b, c⟩ := m
  cases c <;> simp [of, seen]

/-- It holds the same mutexes. -/
theorem mutexes_of : (of d m).mutexes = m.mutexes d := by
  obtain ⟨b, c⟩ := m
  cases c <;> rfl

/-- A thread that holds no other domain. -/
theorem of_seen {m : Held Dom} (h : ∀ d', m.dom = some d' → d' = d) : of d (m.seen d) = m := by
  obtain ⟨b, - | d'⟩ := m
  · rfl
  · obtain rfl := h d' rfl
    simp [of, seen]

/-- What is in order for the call is in order for the thread. -/
theorem monitor_ok_of {o : Op} (hok : m.InOrder o) (c : DriverCall) :
    monitor.ok (of d m) ((d, c), o) := by
  refine ⟨?_, by simpa using hok⟩
  intro d' hd'
  obtain ⟨b, - | -⟩ := m
  · cases hd'
  · exact (Option.some.inj hd').symm

/-- What an operation does to the thread is what it does to the call. -/
theorem monitor_next_of {o : Op} (c : DriverCall) (r : Res o) :
    monitor.next (of d m) ((d, c), o) r = of d (m.next o r) := by
  simp [monitor]

/-- A call for a domain is seen by the monitor as by that of the call. -/
theorem wpOn_tag {α : Type} {c : DriverCall} {p : Code α}
    {A : (o : (Dom × DriverCall) × Op) → Res o.2 → Prop} {Q : α → Holds → Prop}
    (h : p.wpOn (fun _ o r => A ((d, c), o) r) Holds.monitor Q (fun _ => True) m) :
    (p.tag (d, c)).wpOn (fun _ => A) monitor (fun a m => ∃ m', m = of d m' ∧ Q a m')
      (fun _ => True) (of d m) := by
  induction p generalizing m with
  | ret a => exact ⟨m, rfl, h⟩
  | call o k ih =>
    obtain ⟨hok, hrest⟩ := h
    refine ⟨monitor_ok_of hok c, fun r hr => ?_⟩
    rw [monitor_next_of]
    exact ih r (hrest r hr)
  | fault => trivial

end Held

/-- The answers to the operations of a call for a domain. -/
abbrev ServedRes (Dom : Type) (o : (Dom × DriverCall) × Op) : Type := Res o.2

/-- What a thread does that serves calls, each for a domain. -/
def serve (strToLong : List Char → Option ℤ) :
    List (Dom × DriverCall) → Prog (ServedRes Dom) Unit
  | [] => pure ()
  | c :: cs => (c.2.code strToLong).tag c >>= fun _ => serve strToLong cs

/-- What the operations of the threads do to the mutexes. -/
def locking (Dom ι : Type) : Locking (ServedRes Dom) ι (Mutex Dom) where
  allowed _ o r := o.1.2.allowed o.2 r
  acts _ o r n := Mutex.acts o.1.1 o.2 r n

variable {ι : Type} {strToLong : List Char → Option ℤ}

/-- **What the operations do is in order.** -/
theorem ranked :
    Ranked (locking Dom ι) Mutex.rank Held.monitor fun _ => Held.mutexes where
  orderly i m o r n hok _ := by
    obtain ⟨⟨d, c⟩, o⟩ := o
    have hm : (m.seen d).mutexes d = m.mutexes := by
      rw [← Held.mutexes_of, Held.of_seen hok.1]
    have hacts := Holds.orderly_acts (d := d) hok.2 r n
    rw [hm, ← Held.mutexes_of] at hacts
    exact hacts
  answered i o := by
    obtain ⟨⟨d, c⟩, o⟩ := o
    exact ⟨allWell o, by simp [locking, DriverCall.allowed, DriverCall.kept_allWell]⟩

/-- **A thread that serves calls** keeps to the order: each call returns with nothing held, so
that the next one may be for another domain. -/
theorem keeps_serve (i : ι) {cs : List (Dom × DriverCall)} (hcs : ∀ c ∈ cs, ¬c.2.IsDump) :
    Keeps (locking Dom ι) Held.monitor (fun _ => Held.mutexes) i ⟨false, none⟩
      (serve strToLong cs) := by
  induction cs with
  | nil => rfl
  | cons c cs ih =>
    obtain ⟨hc, hrest⟩ := List.forall_mem_cons.mp hcs
    have hkeeps : Holds.Keeps c.2.allowed (c.2.code strToLong) := DriverCall.keeps hc
    have hcall := Held.wpOn_tag (A := fun o r => o.1.2.allowed o.2 r = true) (d := c.1) hkeeps
    refine Prog.wpOn_bind.mpr (Prog.wpOn_mono ?_ (fun _ h => h) hcall)
    rintro - m ⟨m', rfl, rfl⟩
    exact ih hrest

/-- Threads that have not begun, with the calls that they will serve; CoreDump is not among
them. -/
def Serving (strToLong : List Char → Option ℤ)
    (s : Threads (ServedRes Dom) Unit ι (Mutex Dom)) : Prop :=
  ∃ calls : ι → List (Dom × DriverCall), (∀ i, ∀ c ∈ calls i, ¬c.2.IsDump) ∧
    s = Threads.start fun i => serve strToLong (calls i)

/-- Threads that serve calls and have not begun are as the library wants them: nothing is
locked. -/
theorem Serving.initial {s : Threads (ServedRes Dom) Unit ι (Mutex Dom)}
    (h : Serving strToLong s) :
    s.Initial (locking Dom ι) Held.monitor fun _ => Held.mutexes := by
  obtain ⟨calls, hcalls, rfl⟩ := h
  exact ⟨_, rfl, fun i => ⟨⟨false, none⟩, rfl, keeps_serve i (hcalls i)⟩⟩

/-- **The driver does not lock itself up.** Finitely many threads serve calls other than CoreDump,
any number of them one after the other, and each on any domain. As long as the domains that are
saved are persistent and referred to by others, the threads are all done in the end, one has
crashed, or some thread can go on. -/
theorem driver_no_deadlock [DecidableEq ι] [Finite ι]
    {s : Threads (ServedRes Dom) Unit ι (Mutex Dom)}
    (h : Reach (Threads.step (locking Dom ι)) (Serving strToLong) s) :
    s.Crashed ∨ (∀ i, s.Over i) ∨ ∃ a s', s.step (locking Dom ι) a = some s' := by
  obtain ⟨s₀, hserving, hsteps⟩ := h
  exact Threads.no_deadlock ranked ⟨s₀, hserving.initial, hsteps⟩

/-- One thread destroys a domain, and has locked the driver; another, which suspends the same
domain, waits for the driver, and the first goes on. -/
theorem driver_no_deadlock_two : ∃ s : Threads (ServedRes ℕ) Unit Bool (Mutex ℕ),
    s.Waits true .driver ∧
      (s.Crashed ∨ (∀ i, s.Over i) ∨ ∃ a s', s.step (locking ℕ Bool) a = some s') := by
  have hstart : Serving readDecimal (Threads.start fun i => serve readDecimal
      [((0 : ℕ), .entry (bif i then .suspend else .destroyFlags true))]) := by
    refine ⟨_, ?_, rfl⟩
    rintro (_ | _) c hc
    · obtain rfl := List.mem_singleton.mp hc
      exact id
    · obtain rfl := List.mem_singleton.mp hc
      exact id
  have hreach : Reach (Threads.step (locking ℕ Bool)) (Serving readDecimal) _ :=
    (Reach.start hstart).of_exec (show exec _ _ [.call false (fun o => allWell o.2) 0, .act false,
      .call true (fun o => allWell o.2) 0] = some _ from rfl)
  exact ⟨_, ⟨⟨_, rfl⟩, false, rfl⟩, driver_no_deadlock hreach⟩

end Mutex

end Libxl

end OpenLog
