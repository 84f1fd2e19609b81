import OpenLog.Libxl.Domain
import OpenLog.Logic.Run

/-!
# The event handle of a domain

A domain that is started is watched: a handle is added to the event loop, which calls
`libxlEventHandler` when a domain dies (`OpenLog.Libxl.eventHandler`), and the private data of the
domain remember it in `eventHdl`. A start, a reaping and a call of the handler each run with the
domain locked, as one turn (`OpenLog.Libxl.Turn`); a call of the handler may be late, the event
loop having picked it before its handle was removed. There is one exception: the thread that
receives a migrated domain, `doMigrateReceive`, unlocks both the driver and the domain before it
calls `libxlVmStart`, whose comment asks for the domain to be locked. Its start is therefore taken
operation by operation (`OpenLog.Libxl.receiveStart`), and anything may come in between
(`OpenLog.Libxl.Move`).

## What the loop and the driver agree on

They agree on the handle as long as three things do not happen: that a start fails after its
handle was added, which nobody removes; that a late call forgets the handle of the domain's next
run; and that something is done to the domain in the middle of a receive thread's start
(`OpenLog.Libxl.handle_known_iff`). The third is not made up: a domain that is destroyed there is
left with a handle and is not active (`OpenLog.Libxl.handle_left_behind`).

## Which guests are watched

A running guest is watched as long as, besides, the handler is not called for a guest that is
suspended, and does not fail to destroy one (`OpenLog.Libxl.guest_watched`). Otherwise a death can
go unnoticed (`OpenLog.Libxl.death_unnoticed`).
-/

namespace OpenLog

namespace Libxl

open Logic

/-! ### Operations -/

/-- The reason for which a guest is shut down, as far as the handler tells them apart. -/
inductive ShutdownReason where
  | poweroff
  | crash
  | reboot
  /-- Such as a guest that is suspended to be saved or migrated. -/
  | other
  deriving DecidableEq, Repr

/-- The operations of the driver and those of the handler. -/
inductive WatchOp where
  | driver (o : Op)
  /-- `VIR_DOMAIN_SHUTOFF` with the reason `VIR_DOMAIN_SHUTOFF_SHUTDOWN`. -/
  | setShutdown
  /-- Are `waiterFD` and `eventHdl` those that the handler is called for? The descriptor is that
  of the domain's context, the same each time. -/
  | isOwn (watch : ℕ)
  /-- `events & VIR_EVENT_HANDLE_READABLE`. -/
  | isReadable
  | libxlGetEvent
  | isDeath
  /-- `libxl_event_get_domain_death_info`. -/
  | getDeathInfo
  | getShutdownReason
  /-- `virEventRemoveHandle`, and `eventHdl` is `-1`. -/
  | removeHandle (watch : ℕ)
  deriving DecidableEq

def WatchRes : WatchOp → Type
  | .driver o => Res o
  | .isOwn _ | .isReadable | .libxlGetEvent | .isDeath | .getDeathInfo => Bool
  | .getShutdownReason => ShutdownReason
  | .setShutdown | .removeHandle _ => Unit

abbrev WatchCode (α : Type) : Type := Prog WatchRes α

namespace WatchCode

def driver {α : Type} (p : Code α) : WatchCode α := p.embed WatchOp.driver

def setShutdown : WatchCode Unit := .call .setShutdown .ret

def isOwn (watch : ℕ) : WatchCode Bool := .call (.isOwn watch) .ret

def isReadable : WatchCode Bool := .call .isReadable .ret

def libxlGetEvent : WatchCode Bool := .call .libxlGetEvent .ret

def isDeath : WatchCode Bool := .call .isDeath .ret

def getDeathInfo : WatchCode Bool := .call .getDeathInfo .ret

def getShutdownReason : WatchCode ShutdownReason := .call .getShutdownReason .ret

def removeHandle (watch : ℕ) : WatchCode Unit := .call (.removeHandle watch) .ret

end WatchCode

/-! ### The handler -/

open WatchCode

/-- `libxlVmCleanup`, with the state that it sets left open. -/
def cleanupWith (setState : WatchCode Unit) : WatchCode Unit := do
  if ← driver (ask .hasEventHandle) then driver (act .removeEventHandle)
  if ← driver (ask .hasWaiter) then driver (act .stopWaiting)
  if ← driver (ask .isPersistent) then
    driver (act (.setId false))
    setState
  if ← driver (ask .hasReservedVncPort) then driver (act .clearVncPort)
  if ← driver (ask .hasCputune) then driver (act .clearCputune)
  if ← driver (prim .virAsprintf) then driver (act .unlinkStateFile)
  if ← driver (ask .hasNewDef) then driver (act .adoptNewDef)
  return ()

/-- `libxlVmReap`. -/
def reapWith (setState : WatchCode Unit) : WatchCode Int := do
  if ← driver (prim .libxlDomainDestroy) then
    cleanupWith setState
    return 0
  else
    driver (report .internalError "Unable to cleanup domain %d")
    return -1

@[simp] theorem driver_ite {α : Type} {c : Prop} [Decidable c] {p q : Code α} :
    driver (if c then p else q) = if c then driver p else driver q := by
  split <;> rfl

/-- A part of the driver's program is taken over as it is, with its operations under
`WatchOp.driver`. -/
@[simp] theorem driver_bind {α β : Type} {p : Code α} {f : α → Code β} :
    driver (p >>= f) = driver p >>= fun a => driver (f a) := Prog.embed_bind _ _ _

@[simp] theorem driver_ret {α : Type} {a : α} : driver (.ret a) = .ret a := rfl

/-- It is the driver's function where the driver knows the reason. -/
theorem reapWith_driver (reason : DomState) :
    reapWith (driver (act (.setState reason))) = driver (vmReap reason) := by
  simp [reapWith, vmReap, cleanupWith, vmCleanup, prim, report]

/-- `libxlEventHandler`, called for the handle `watch`. -/
def eventHandler (watch : ℕ) : WatchCode Unit := do
  driver (act .driverLock)
  driver (act .objLock)
  driver (act .driverUnlock)
  if !(← isOwn watch) then
    removeHandle watch
    cleanup true none
  else if !(← isReadable) then cleanup true none
  else if !(← libxlGetEvent) then cleanup true none
  else if !(← isDeath) then cleanup true none
  else if !(← getDeathInfo) then cleanup true none
  else
    removeHandle watch
    match ← getShutdownReason with
    | .poweroff => gone none setShutdown
    | .crash =>
      gone (← driver (eventNew .stoppedCrashed)) (driver (act (.setState .shutoffCrashed)))
    | .reboot =>
      let _ ← reapWith setShutdown
      let _ ← driver (vmStart false false false)
      cleanup true none
    | .other => cleanup true none
where
  /-- Whether the guest could be destroyed is not looked at. -/
  gone (event : Option DomEvent) (setState : WatchCode Unit) : WatchCode Unit := do
    let _ ← reapWith setState
    if !(← driver (ask .isPersistent)) then
      driver (act .removeInactive)
      cleanup false event
    else cleanup true event
  cleanup (vm : Bool) (event : Option DomEvent) : WatchCode Unit := do
    let _ ← driver (cleanupEvent vm event 0)
    return ()

/-! ### What is watched -/

/-- The handles of a domain, and what the driver knows of them. -/
structure Watching where
  /-- The handles in the event loop. -/
  handles : List ℕ
  eventHdl : Option ℕ
  /-- `dWaiter` is allocated. -/
  waiter : Bool
  /-- The number of handles that have been added, which is the next one. -/
  made : ℕ
  /-- The driver takes the domain for an active one. -/
  active : Bool
  /-- There is a guest. -/
  guest : Bool
  /-- The function that runs has added a handle. -/
  added : Bool
  /-- It is a start that has failed after that. -/
  late : Bool
  /-- It is the handler, called late, and forgets the handle of the domain's next run. -/
  forgot : Bool
  /-- A guest without a handle was left as it is, or there was one that could not be destroyed.
  Where that happens in a start, the domain is taken for inactive right after. -/
  dropped : Bool

namespace Watching

def addHandle (s : Watching) (ok : Bool) : Watching :=
  if ok then
    { s with handles := s.made :: s.handles, eventHdl := some s.made, made := s.made + 1
             added := true }
  else { s with eventHdl := none }

/-- `virEventRemoveHandle`, and `eventHdl` is `-1`. -/
def removeHandle (s : Watching) (watch : Option ℕ) : Watching :=
  { s with handles := s.handles.filter (some · ≠ watch), eventHdl := none
           forgot := s.eventHdl.isSome && s.eventHdl ≠ watch }

/-- `libxl_domain_destroy`, which the handler, a reaping and the label `error` of `libxlVmStart`
call; the last goes on to `vm->def->id = -1`, whatever the answer is. -/
def destroyed (s : Watching) (ok : Bool) : Watching :=
  if ok then { s with guest := false }
  else { s with dropped := s.dropped || s.guest && s.eventHdl.isNone }

def created (s : Watching) : CreateResult → Watching
  | .ok => { s with guest := true }
  | .failed domidSet => { s with guest := s.guest || domidSet }

def shutdown (s : Watching) (reason : ShutdownReason) : Watching :=
  { s with dropped := s.dropped || reason = .other }

def next (s : Watching) : (o : WatchOp) → WatchRes o → Watching
  | .driver (.ask (.prim .virAlloc)), ok => { s with waiter := ok }
  | .driver (.ask (.prim .virEventAddHandle)), ok => s.addHandle ok
  | .driver (.act .freeWaiter), _ => { s with waiter := false, eventHdl := none }
  | .driver (.act .removeEventHandle), _ => s.removeHandle s.eventHdl
  | .driver (.act .stopWaiting), _ => { s with waiter := false }
  | .driver (.act (.setId active)), _ => { s with active }
  | .driver (.act .adoptNewDef), _ => { s with active := false }
  | .driver (.act .removeInactive), _ => { s with active := false }
  | .driver (.create _), r => s.created r
  | .driver (.ask (.prim .libxlDomainDestroy)), ok => s.destroyed ok
  | .driver (.act (.setState .shutoffFailed)), _ => { s with late := s.added }
  | .getShutdownReason, reason => s.shutdown reason
  | .removeHandle watch, _ => s.removeHandle (some watch)
  | _, _ => s

def monitor : Monitor WatchRes Watching := ⟨next, fun _ _ => True⟩

@[simp] theorem monitor_next : monitor.next = next := rfl

@[simp] theorem monitor_ok (s : Watching) (o : WatchOp) : monitor.ok s o := trivial

/-- What is asked of the private data is answered as they are. -/
def answers (s : Watching) : (o : WatchOp) → WatchRes o → Bool
  | .driver (.ask .hasEventHandle), b => same b s.eventHdl.isSome
  | .driver (.ask .hasWaiter), b => same b s.waiter
  | .isOwn watch, b => same b (s.eventHdl = some watch)
  | _, _ => true
where
  same (b c : Bool) : Bool := b == c

def Answers (s : Watching) (o : WatchOp) (r : WatchRes o) : Prop := s.answers o r = true

instance (s : Watching) (o : WatchOp) (r : WatchRes o) : Decidable (s.Answers o r) :=
  inferInstanceAs (Decidable (_ = true))

/-- An answer that is compared with the state is what the state says. -/
theorem eq_of_same {b c : Bool} (h : answers.same b c = true) : b = c := beq_iff_eq.mp h

/-- The driver knows the handles in the event loop: there is one at most, and that for an active
domain. -/
def Known (s : Watching) : Prop :=
  s.handles = s.eventHdl.toList ∧ (s.eventHdl.isSome → s.active)

/-- The death of a guest will be noticed. -/
def Watched (s : Watching) : Prop := s.active → s.guest → s.eventHdl.isSome

/-! ### What the functions do to it -/

section

variable {α : Type} {Q : α → Watching → Prop} {E : Watching → Prop} {s : Watching}

/-- The driver's questions, its actions and `libxl_domain_create`, among the operations that
are watched. -/
@[simp] theorem wpOn_driver_ask {q : Query} {f : Bool → WatchCode α} :
    (driver (ask q) >>= f).wpOn Answers monitor Q E s ↔
      ∀ b : Bool, Answers s (.driver (.ask q)) b →
        (f b).wpOn Answers monitor Q E (s.next (.driver (.ask q)) b) := by
  exact ⟨fun h => h.2, fun h => ⟨trivial, h⟩⟩

@[simp] theorem wpOn_driver_act {a : Action} {f : Unit → WatchCode α} :
    (driver (act a) >>= f).wpOn Answers monitor Q E s ↔
      (f ()).wpOn Answers monitor Q E (s.next (.driver (.act a)) ()) := by
  refine ⟨fun h => h.2 () rfl, fun h => ⟨trivial, fun _ _ => h⟩⟩

@[simp] theorem wpOn_driver_create {restore : Bool} {f : CreateResult → WatchCode α} :
    (driver (create restore) >>= f).wpOn Answers monitor Q E s ↔
      ∀ r : CreateResult, (f r).wpOn Answers monitor Q E (s.created r) :=
  ⟨fun h r => h.2 r rfl, fun h => ⟨trivial, fun r _ => h r⟩⟩

attribute [local simp] next addHandle removeHandle destroyed created Answers answers answers.same

/-- How a start ends that has begun without a handle: it has none, or the one that it has added,
which stays there if the start has failed. -/
def StartEnds (s s' : Watching) : Prop :=
  s'.forgot = s.forgot ∧ (s.dropped → s'.dropped) ∧
    (s'.handles = [] ∧ s'.eventHdl = none ∧ s'.late = false ∧
        (s'.active → s.active ∧ s'.guest = s.guest) ∨
      ∃ watch, s'.handles = [watch] ∧ s'.eventHdl = some watch ∧ s'.late = !s'.active)

/-- What comes after the guest's image is open: the handle is added by `createDomEvents`, and
where something fails behind it, the label `error` leaves it in the event loop. -/
theorem wpOn_vmStartBuild {restore startPaused : Bool} {fd : Fd} {f : Int → WatchCode α}
    (hs : s.handles = [] ∧ s.eventHdl = none ∧ s.added = false ∧ s.late = false)
    (hf : ∀ ret s', StartEnds s s' → (f ret).wpOn Answers monitor Q E s') :
    (driver (vmStartBuild startPaused restore false fd) >>= f).wpOn Answers monitor Q E s := by
  obtain ⟨handles, eventHdl, waiter, made, active, guest, added, late, forgot, dropped⟩ := s
  obtain ⟨rfl, rfl, rfl, rfl⟩ := hs
  simp [vmStartBuild, vmStartError, vmStartError.closeManaged, createDomEvents,
    createDomEvents.error, eventNew, prim, report]
  and_intros
  all_goals
    apply hf
    simp [StartEnds]

/-- **A start** of a domain without a handle. -/
theorem wpOn_vmStart {restore startPaused : Bool} {f : Int → WatchCode α}
    (hs : s.handles = [] ∧ s.eventHdl = none ∧ s.added = false ∧ s.late = false)
    (hf : ∀ ret s', StartEnds s s' → (f ret).wpOn Answers monitor Q E s') :
    (driver (vmStart startPaused restore false) >>= f).wpOn Answers monitor Q E s := by
  have hbuild (restore : Bool) (fd : Fd) :
      (driver (vmStartBuild startPaused restore false fd) >>= f).wpOn Answers monitor Q E s :=
    wpOn_vmStartBuild hs hf
  have hfail : (f (-1)).wpOn Answers monitor Q E s :=
    hf _ _ ⟨rfl, id, Or.inl ⟨hs.1, hs.2.1, hs.2.2.2, fun h => ⟨h, rfl⟩⟩⟩
  simp [vmStart, vmStartError, vmStartError.closeManaged, prim, report, hbuild, hfail]

/-- A part that leaves everything as it is. -/
def Quiet (p : WatchCode Unit) : Prop :=
  ∀ {α : Type} {Q : α → Watching → Prop} {E : Watching → Prop} {s : Watching}
    {f : Unit → WatchCode α},
    (p >>= f).wpOn Answers monitor Q E s ↔ (f ()).wpOn Answers monitor Q E s

/-- To set a state is one, but for the state that only a failed start sets. -/
theorem quiet_setShutdown : Quiet setShutdown :=
  ⟨fun h => h.2 () rfl, fun h => ⟨trivial, fun _ _ => h⟩⟩

theorem quiet_setState {state : DomState} (h : state ≠ .shutoffFailed) :
    Quiet (driver (act (.setState state))) := by
  intro α Q E s f
  rw [wpOn_driver_act]
  cases state <;> first | rfl | exact absurd rfl h

/-- How a domain is reaped, or not, that had the handle which the driver knows: its guest and its
handle are gone, or nothing has happened. -/
def ReapEnds (s s' : Watching) (ret : Int) : Prop :=
  s'.late = s.late ∧ s'.forgot = false ∧ s'.added = s.added ∧
    (s'.handles = [] ∧ s'.eventHdl = none ∧ s'.guest = false ∨ ret ≠ 0 ∧ s' = s.destroyed false)

/-- **A reaping** ends so, whichever state it sets: of a domain whose handle is known, it
removes the handle with the guest, or does nothing. -/
theorem wpOn_reapWith {setState : WatchCode Unit} (hquiet : Quiet setState) {f : Int → WatchCode α}
    (hs : s.handles = s.eventHdl.toList ∧ s.forgot = false)
    (hf : ∀ ret s', ReapEnds s s' ret → (f ret).wpOn Answers monitor Q E s') :
    (reapWith setState >>= f).wpOn Answers monitor Q E s := by
  obtain ⟨handles, eventHdl, waiter, made, active, guest, added, late, forgot, dropped⟩ := s
  obtain ⟨hhandles, hforgot⟩ : handles = eventHdl.toList ∧ forgot = false := hs
  subst hhandles hforgot
  have hset {f : Unit → WatchCode α} {s : Watching} :
      (setState >>= f).wpOn Answers monitor Q E s ↔ (f ()).wpOn Answers monitor Q E s := hquiet
  have hkept := hf (-1) (destroyed _ false) ⟨rfl, rfl, rfl, Or.inr ⟨by decide, rfl⟩⟩
  have hgone (waiter active : Bool) : (f 0).wpOn Answers monitor Q E
      ⟨[], none, waiter, made, active, false, added, late, false, dropped⟩ :=
    hf 0 _ ⟨rfl, rfl, rfl, Or.inl ⟨rfl, rfl, rfl⟩⟩
  cases eventHdl
  all_goals
    simp at hkept
    simp [reapWith, cleanupWith, prim, report, hset, hkept, hgone]

end

/-! ### Turns -/

/-- What one turn does to a domain whose handle was known: it is known again unless a start has
failed late or a handle was forgotten. -/
structure After (s s' : Watching) : Prop where
  known : s'.Known ↔ s'.late = false ∧ s'.forgot = false
  watched : s.Watched → s'.Known → s'.dropped = false → s'.Watched

/-- A function begins. -/
def begin (s : Watching) : Watching :=
  { s with added := false, late := false, forgot := false, dropped := false }

section

variable {s s₁ s' : Watching}

/-- The handler has removed the handle. -/
structure Alone (s : Watching) : Prop where
  handles : s.handles = []
  eventHdl : s.eventHdl = none
  added : s.added = false
  late : s.late = false
  forgot : s.forgot = false

/-- And there is no guest, or it was left alone. -/
structure Gone (s : Watching) : Prop extends Alone s where
  dropped : s.guest → s.dropped

/-- A domain that is left like this is known to have no handle, and there is no guest that
should be watched but was not dropped. -/
theorem Gone.after (h : Gone s') : After s s' := by
  refine ⟨?_, fun _ _ hd _ hg => ?_⟩
  · simp [Known, h.handles, h.eventHdl, h.late, h.forgot]
  · simp [h.dropped hg] at hd

/-- It stays so when the domain is removed from the list, -/
theorem Gone.removeInactive (h : Gone s) : Gone { s with active := false } :=
  ⟨⟨h.handles, h.eventHdl, h.added, h.late, h.forgot⟩, h.dropped⟩

/-- and what the driver knows is right meanwhile. -/
theorem Alone.handles_eq (h : Alone s) : s.handles = s.eventHdl.toList ∧ s.forgot = false :=
  ⟨by simp [h.handles, h.eventHdl], h.forgot⟩

/-- The handler reaps the domain behind its removed handle: the guest is destroyed, or was
dropped. -/
theorem Alone.gone (hs : Alone s) {ret : Int} (h : ReapEnds s s' ret) : Gone s' := by
  obtain ⟨hlate, hforgot, hadded, ⟨hhandles, hnone, hguest⟩ | ⟨-, rfl⟩⟩ := h
  · exact ⟨⟨hhandles, hnone, hadded.trans hs.added, hlate.trans hs.late, hforgot⟩, by simp [hguest]⟩
  · refine ⟨⟨hs.handles, hs.eventHdl, hs.added, hs.late, hs.forgot⟩, fun hguest => ?_⟩
    have hguest : s.guest = true := hguest
    simp [destroyed, hs.eventHdl, hguest]

/-- A start, of a domain without a handle. -/
theorem StartEnds.after (h : StartEnds s₁ s') (hforgot : s₁.forgot = false)
    (hgone : s₁.active → s₁.guest → s₁.dropped) : After s s' := by
  obtain ⟨hkeep, hdropped, ⟨hhandles, hnone, hlate, hactive⟩ | ⟨watch, hhandles, hsome, hlate⟩⟩ := h
  · refine ⟨?_, fun _ _ hd ha hg => ?_⟩
    · simp [Known, hhandles, hnone, hlate, hkeep, hforgot]
    · obtain ⟨ha₁, hguest⟩ := hactive ha
      simp [hdropped (hgone ha₁ (hguest ▸ hg))] at hd
  · refine ⟨?_, fun _ _ _ _ _ => by simp [hsome]⟩
    simp [Known, hhandles, hsome, hlate, hkeep, hforgot]

/-- A turn that leaves the handle known is as it should be if it has not made a watched guest
an unwatched one. -/
theorem Known.after (h : s'.Known) (hlate : s'.late = false) (hforgot : s'.forgot = false)
    (hw : s.Watched → s'.Watched) : After s s' :=
  ⟨⟨fun _ => ⟨hlate, hforgot⟩, fun _ => h⟩, fun hs _ _ => hw hs⟩

end

section

variable {E : Watching → Prop} {Q : Unit → Watching → Prop} {s : Watching} {watch : ℕ}

/-- The end of the handler changes nothing that is watched here. -/
@[simp] theorem wpOn_cleanup {vm : Bool} {event : Option DomEvent} :
    (eventHandler.cleanup vm event).wpOn Answers monitor Q E s ↔ Q () s := by
  cases vm <;> cases event <;> simp [eventHandler.cleanup, cleanupEvent, unlockIf, next]

/-- **A guest that was shut down** is reaped. -/
theorem wpOn_gone {s₀ : Watching} (h : Alone s) {event : Option DomEvent}
    {setState : WatchCode Unit} (hquiet : Quiet setState) :
    (eventHandler.gone event setState).wpOn Answers monitor (fun _ => After s₀) E s := by
  refine wpOn_reapWith hquiet h.handles_eq fun ret s' hs' => ?_
  have hgone := h.gone hs'
  rw [wpOn_driver_ask]
  rintro (_ | _) -
  · simp only [Bool.not_false, if_true, wpOn_driver_act, wpOn_cleanup]
    exact hgone.removeInactive.after
  · exact wpOn_cleanup.mpr hgone.after

/-- The handler looks whether it is called for the handle of the domain. -/
theorem wpOn_isOwn {f : Bool → WatchCode Unit}
    (hf : (f (decide (s.eventHdl = some watch))).wpOn Answers monitor Q E s) :
    (isOwn watch >>= f).wpOn Answers monitor Q E s := by
  refine ⟨trivial, fun b hb => ?_⟩
  obtain rfl : b = decide (s.eventHdl = some watch) := eq_of_same hb
  exact hf

/-- A question about the event. -/
theorem wpOn_event {o : WatchOp} {k : WatchRes o → WatchCode Unit} (hnext : ∀ r, s.next o r = s)
    (hk : ∀ r, (k r).wpOn Answers monitor Q E s) :
    (Prog.call o k : WatchCode Unit).wpOn Answers monitor Q E s := by
  refine ⟨trivial, fun r _ => ?_⟩
  rw [monitor_next, hnext r]
  exact hk r

/-- A call for a handle that is not the domain's. -/
theorem after_other (h : s.Known) (hown : s.eventHdl ≠ some watch) :
    After s (s.begin.removeHandle (some watch)) := by
  rcases heq : s.eventHdl with - | own
  · refine Known.after ?_ rfl (by simp [removeHandle, begin, heq]) fun hw ha hg => ?_
    · simp [Known, removeHandle, begin, h.1, heq]
    · simpa [heq] using hw ha hg
  · have hne : own ≠ watch := by simpa [heq] using hown
    have hunknown : ¬(s.begin.removeHandle (some watch)).Known := by
      simp [Known, removeHandle, begin, h.1, heq, hne]
    refine ⟨⟨fun hk => absurd hk hunknown, fun hf => ?_⟩, fun _ hk => absurd hk hunknown⟩
    simp [removeHandle, begin, heq, hne] at hf

/-- Its own handle is removed. -/
theorem alone_removeHandle (h : s.Known) (hown : s.eventHdl = some watch)
    (reason : ShutdownReason) : Alone ((s.begin.removeHandle (some watch)).shutdown reason) := by
  refine ⟨?_, rfl, rfl, rfl, ?_⟩
  · simp [removeHandle, shutdown, begin, h.1, hown]
  · simp [removeHandle, shutdown, begin, hown]

/-- **The handler**, called for any handle at any time. Of the four reasons for a shutdown,
three reap the domain, `reboot` starts it again, and `other` leaves the guest as it is, without
a handle. -/
theorem wpOn_eventHandler (h : s.Known) :
    (eventHandler watch).wpOn Answers monitor (fun _ => After s) E s.begin := by
  have hkept : After s s.begin := Known.after h rfl rfl id
  rw [eventHandler, wpOn_driver_act, wpOn_driver_act, wpOn_driver_act]
  show Prog.wpOn _ _ _ _ _ s.begin
  refine wpOn_isOwn ?_
  by_cases hown : s.eventHdl = some watch
  · have hbegin : decide (s.begin.eventHdl = some watch) = true := decide_eq_true hown
    rw [hbegin]
    refine wpOn_event (fun _ => rfl) ?_
    rintro (_ | _)
    · exact wpOn_cleanup.mpr hkept
    refine wpOn_event (fun _ => rfl) ?_
    rintro (_ | _)
    · exact wpOn_cleanup.mpr hkept
    refine wpOn_event (fun _ => rfl) ?_
    rintro (_ | _)
    · exact wpOn_cleanup.mpr hkept
    refine wpOn_event (fun _ => rfl) ?_
    rintro (_ | _)
    · exact wpOn_cleanup.mpr hkept
    refine ⟨trivial, fun _ _ => ⟨trivial, fun reason _ => ?_⟩⟩
    have halone := alone_removeHandle h hown reason
    rcases reason with - | - | - | -
    · exact wpOn_gone halone quiet_setShutdown
    · refine wpOn_driver_ask.mpr ?_
      rintro (_ | _) -
      · exact wpOn_gone halone (quiet_setState (by decide))
      · exact wpOn_gone halone (quiet_setState (by decide))
    · refine wpOn_reapWith quiet_setShutdown halone.handles_eq fun ret s₁ hs₁ => ?_
      have hgone := halone.gone hs₁
      refine wpOn_vmStart ⟨hgone.handles, hgone.eventHdl, hgone.added, hgone.late⟩
        fun ret s₂ hs₂ => wpOn_cleanup.mpr (hs₂.after hgone.forgot fun _ => hgone.dropped)
    · exact wpOn_cleanup.mpr (Gone.after ⟨halone, fun _ => rfl⟩)
  · have hbegin : decide (s.begin.eventHdl = some watch) = false := decide_eq_false hown
    rw [hbegin]
    exact ⟨trivial, fun _ _ => wpOn_cleanup.mpr (after_other h hown)⟩

/-- **A start of a domain that is not active** begins without a handle, since what is known is
that only an active domain has one. -/
theorem wpOn_start {startPaused restore : Bool} (h : s.Known) (hactive : s.active = false) :
    (driver (vmStart startPaused restore false) >>= fun _ => pure ()).wpOn Answers monitor
      (fun _ => After s) E s.begin := by
  have hnone : s.eventHdl = none := by
    simpa [hactive] using h.2
  refine wpOn_vmStart ⟨by simp [begin, h.1, hnone], hnone, rfl, rfl⟩ fun ret s' hs' => ?_
  refine hs'.after rfl fun ha => ?_
  simp [begin, hactive] at ha

/-- A domain is reaped, and removed if it is transient. -/
def reapDomain (reason : DomState) : WatchCode Unit := do
  if (← driver (vmReap reason)) = 0 then
    if !(← driver (ask .isPersistent)) then driver (act .removeInactive)

/-- **An active domain is reaped.** -/
theorem wpOn_reapDomain {reason : DomState} (h : s.Known) (hreason : reason ≠ .shutoffFailed) :
    (reapDomain reason).wpOn Answers monitor (fun _ => After s) E s.begin := by
  rw [reapDomain, ← reapWith_driver]
  refine wpOn_reapWith (quiet_setState hreason) ⟨h.1, rfl⟩ fun ret s' hs' => ?_
  obtain ⟨hlate, hforgot, -, ⟨hhandles, hnone, hguest⟩ | ⟨hret, rfl⟩⟩ := hs'
  · have hgone (active : Bool) : After s { s' with active } := by
      refine Known.after ?_ hlate hforgot fun _ _ hg => ?_
      · simp [Known, hhandles, hnone]
      · simp [hguest] at hg
    split_ifs
    · rw [wpOn_driver_ask]
      rintro (_ | _) -
      · exact ⟨trivial, fun _ _ => hgone false⟩
      · exact hgone s'.active
    · exact hgone s'.active
  · rw [if_neg hret]
    exact Known.after h rfl rfl id

end

end Watching

/-! ### Runs -/

/-- What is done with the domain locked, from the first operation to the last. -/
inductive Turn where
  | start (startPaused restore : Bool)
  | reap (reason : DomState)
  /-- The event loop calls the handler, maybe late. -/
  | handle (watch : ℕ)
  deriving DecidableEq

namespace Turn

def code : Turn → WatchCode Unit
  | start startPaused restore => driver (vmStart startPaused restore false) >>= fun _ => pure ()
  | reap reason => Watching.reapDomain reason
  | handle watch => eventHandler watch

/-- A domain is started when it is not active. It may be reaped when it is not active any more:
a save does not look again after it has waited. -/
def Enabled (s : Watching) : Turn → Prop
  | start _ _ => s.active = false
  | reap reason => reason ≠ .shutoffFailed
  | handle _ => True

end Turn

/-- The start in `doMigrateReceive`, which runs with neither the driver nor the domain locked. -/
def receiveStart : WatchCode Unit := driver (vmStart false true false) >>= fun _ => pure ()

/-- A domain, and what is left of the starts that threads which receive it have begun. -/
structure Shared where
  watching : Watching
  receiving : List (WatchCode Unit)

/-- What happens to a domain: a turn, with the operations that it has called, or something in a
thread that receives it. -/
inductive Move where
  | turn (turn : Turn) (tr : List (Event WatchRes))
  | receive
  /-- The next operation of the start in a thread, with its answer. -/
  | operation (thread : ℕ) (ω : (o : WatchOp) → WatchRes o)
  /-- The start in a thread is over, and the domain is locked again. -/
  | received (thread : ℕ)

namespace Shared

/-- A domain that was never started. -/
def init : Shared :=
  ⟨⟨[], none, false, 0, false, false, false, false, false, false⟩, []⟩

def next (s : Shared) : Move → Option Shared
  | .turn _ tr => some { s with watching := Watching.monitor.run s.watching.begin tr }
  | .receive => some ⟨s.watching.begin, s.receiving ++ [receiveStart]⟩
  | .operation thread ω => do
    let (e, rest) ← (← s.receiving[thread]?).advance ω
    return ⟨s.watching.next e.1 e.2, s.receiving.set thread rest⟩
  | .received thread => do
    let _ ← (← s.receiving[thread]?).result
    return { s with receiving := s.receiving.eraseIdx thread }

/-- The move may be made so: what is asked of the private data is answered as they are. -/
def Makes (s : Shared) : Move → Prop
  | .turn turn tr => turn.Enabled s.watching ∧ turn.code.Runs tr (some ()) ∧
      Watching.monitor.Follows Watching.Answers s.watching.begin tr
  | .receive => s.watching.active = false
  | .operation thread ω => ∀ p ∈ s.receiving[thread]?, ∀ e rest, p.advance ω = some (e, rest) →
      Watching.Answers s.watching e.1 e.2
  | .received _ => True

/-- Nobody else is in the middle of a start. -/
def Undisturbed (s : Shared) : Move → Prop
  | .turn _ _ | .receive => s.receiving = []
  | .operation _ _ | .received _ => True

/-- A move that comes in the middle of no start, and with which no start ends that has failed
with its handle added, and no turn that forgets a handle. -/
def Careful (s : Shared) (a : Move) : Prop :=
  s.Makes a ∧ s.Undisturbed a ∧ ∀ s', s.next a = some s' → s'.receiving = [] →
    s'.watching.late = false ∧ s'.watching.forgot = false

/-- A move that does not leave a guest alone either, of a domain that is taken for active. -/
def Attentive (s : Shared) (a : Move) : Prop :=
  Careful s a ∧ ∀ s', s.next a = some s' → s'.receiving = [] →
    s'.watching.active → s'.watching.dropped = false

variable {s s' : Shared} {a : Move} {P : Watching → Prop}

/-- A domain that was never started has no handle, and none is known. -/
theorem init_known : init.watching.Known := ⟨rfl, nofun⟩

/-- **A turn.** -/
theorem after_of_turn {turn : Turn} {tr : List (Event WatchRes)} (ha : s.Makes (.turn turn tr))
    (h : s.watching.Known) :
    Watching.After s.watching (Watching.monitor.run s.watching.begin tr) := by
  obtain ⟨henabled, hruns, hfollows⟩ := ha
  have hwp : turn.code.wpOn Watching.Answers Watching.monitor
      (fun _ => Watching.After s.watching) (fun _ => True) s.watching.begin := by
    rcases turn with ⟨startPaused, restore⟩ | reason | watch
    · exact Watching.wpOn_start h henabled
    · exact Watching.wpOn_reapDomain h henabled
    · exact Watching.wpOn_eventHandler h
  exact (Prog.wpOn_sound hwp hruns hfollows).1 () rfl

/-- What an operation of a thread is, and where the thread goes on, -/
theorem next_operation {thread : ℕ} {ω : (o : WatchOp) → WatchRes o}
    (hs : s.next (.operation thread ω) = some s') :
    ∃ p e rest, s.receiving[thread]? = some p ∧ p.advance ω = some (e, rest) ∧
      s' = ⟨s.watching.next e.1 e.2, s.receiving.set thread rest⟩ := by
  obtain ⟨p, hp, hs⟩ := Option.bind_eq_some_iff.mp hs
  obtain ⟨⟨e, rest⟩, hadvance, hs⟩ := Option.bind_eq_some_iff.mp hs
  exact ⟨p, e, rest, hp, hadvance, (Option.some.inj hs).symm⟩

/-- and what the end of its start is. -/
theorem next_received {thread : ℕ} (hs : s.next (.received thread) = some s') :
    s.receiving[thread]? = some (.ret ()) ∧
      s' = { s with receiving := s.receiving.eraseIdx thread } := by
  obtain ⟨p, hp, hs⟩ := Option.bind_eq_some_iff.mp hs
  obtain ⟨a, hresult, hs⟩ := Option.bind_eq_some_iff.mp hs
  obtain rfl := Prog.result_eq_some.mp hresult
  exact ⟨hp, (Option.some.inj hs).symm⟩

/-- With an operation of a thread no start ends. -/
theorem attentive_operation {thread : ℕ} {ω : (o : WatchOp) → WatchRes o}
    (ha : s.Makes (.operation thread ω)) : Attentive s (.operation thread ω) := by
  have hmiddle {s' : Shared} (hs : s.next (.operation thread ω) = some s') :
      s'.receiving ≠ [] := by
    obtain ⟨p, e, rest, hp, -, rfl⟩ := next_operation hs
    have hlt := (List.getElem?_eq_some_iff.mp hp).1
    exact List.ne_nil_of_length_pos (by simpa using Nat.zero_lt_of_lt hlt)
  exact ⟨⟨ha, trivial, fun s' hs hnone => absurd hnone (hmiddle hs)⟩,
    fun s' hs hnone => absurd hnone (hmiddle hs)⟩

/-- One thread is in the middle of a start, and what is left of it ends as a start does that has
begun where `P` held. -/
def Receiving (P : Watching → Prop) (s : Shared) : Prop :=
  ∃ p s₀, s.receiving = [p] ∧ P s₀ ∧
    p.wpOn Watching.Answers Watching.monitor (fun _ => Watching.After s₀) (fun _ => True) s.watching

/-- What holds of a domain in the runs below: `P`, unless a thread is in the middle of a start,
and then it has begun where `P` held. -/
def Settled (P : Watching → Prop) (s : Shared) : Prop :=
  s.receiving = [] ∧ P s.watching ∨ s.Receiving P

/-- A thread that is in the middle of a start is the only one. -/
theorem Settled.of_thread (h : s.Settled P) {thread : ℕ} {p : WatchCode Unit}
    (hp : s.receiving[thread]? = some p) :
    thread = 0 ∧ s.receiving = [p] ∧ ∃ s₀, P s₀ ∧
      p.wpOn Watching.Answers Watching.monitor (fun _ => Watching.After s₀) (fun _ => True)
        s.watching := by
  obtain ⟨hnone, -⟩ | ⟨p', s₀, hone, hP, hwp⟩ := h
  · simp [hnone] at hp
  · rw [hone] at hp ⊢
    obtain ⟨hthread, rfl⟩ : thread = 0 ∧ p' = p := by
      simpa [List.getElem?_singleton] using hp
    exact ⟨hthread, rfl, s₀, hP, hwp⟩

/-- Outside of a start. -/
theorem Settled.of_nil (h : s.Settled P) (hnone : s.receiving = []) : P s.watching := by
  obtain ⟨-, hP⟩ | ⟨p, s₀, hone, -⟩ := h
  · exact hP
  · exact absurd (hone.symm.trans hnone) (List.cons_ne_nil p [])

/-- **A move** that disturbs nobody ends as a whole turn does that has begun where `P` held, or
in the middle of a start that has begun there. -/
theorem Settled.next (hknown : ∀ s, P s → s.Known) (h : s.Settled P) (ha : s.Makes a)
    (halone : s.Undisturbed a) (hs : s.next a = some s') :
    s'.receiving = [] ∧ (∃ s₀, P s₀ ∧ Watching.After s₀ s'.watching) ∨ s'.Receiving P := by
  rcases a with ⟨turn, tr⟩ | - | ⟨thread, ω⟩ | thread
  · have hP := h.of_nil halone
    obtain rfl := Option.some.inj hs
    exact Or.inl ⟨halone, s.watching, hP, after_of_turn ha (hknown _ hP)⟩
  · -- a thread begins, where there is no other
    have hP := h.of_nil halone
    obtain rfl := Option.some.inj hs
    refine Or.inr ⟨receiveStart, s.watching, ?_, hP, Watching.wpOn_start (hknown _ hP) ha⟩
    rw [show s.receiving = [] from halone]
    rfl
  · -- what is left of its start after one operation
    obtain ⟨p, e, rest, hp, hadvance, rfl⟩ := next_operation hs
    obtain ⟨rfl, hone, s₀, hP, hwp⟩ := h.of_thread hp
    have hrest : s.receiving.set 0 rest = [rest] := by
      rw [hone]
      rfl
    exact Or.inr ⟨rest, s₀, hrest, hP,
      (Prog.wpOn_advance hwp hadvance (ha p hp e rest hadvance)).2⟩
  · -- nothing is left of it
    obtain ⟨hp, rfl⟩ := next_received hs
    obtain ⟨rfl, hone, s₀, hP, hwp⟩ := h.of_thread hp
    have hnone : s.receiving.eraseIdx 0 = [] := by
      rw [hone]
      rfl
    exact Or.inl ⟨hnone, s₀, hP, hwp⟩

/-- A move after which no thread is in the middle of a start has disturbed nobody. -/
theorem undisturbed_of_next (hs : s.next a = some s') (hnone : s'.receiving = []) :
    s.Undisturbed a := by
  rcases a with ⟨turn, tr⟩ | - | ⟨thread, ω⟩ | thread
  · obtain rfl := Option.some.inj hs
    exact hnone
  · obtain rfl := Option.some.inj hs
    exact absurd hnone (List.append_ne_nil_of_right_ne_nil _ (List.cons_ne_nil _ _))
  · trivial
  · trivial

/-- **Run.** In a run of careful moves the handle is known outside of starts, and a start that
is under way has begun where it was known. -/
theorem settled_of_reach (h : ReachVia Shared.next (· = init) Careful s) :
    s.Settled Watching.Known := by
  refine h.invariant ?_ ?_
  · rintro - rfl
    exact Or.inl ⟨rfl, init_known⟩
  · rintro s a s' hsettled ⟨ha, halone, hcareful⟩ hs
    obtain ⟨hnone, s₀, -, hafter⟩ | hreceiving := hsettled.next (fun _ => id) ha halone hs
    · exact Or.inl ⟨hnone, hafter.known.mpr (hcareful s' hs hnone)⟩
    · exact Or.inr hreceiving

end Shared

open Shared

/-- Answers under which all goes well, the guest powers off, and the handler finds its handle
removed by itself. -/
def watchWell : (o : WatchOp) → WatchRes o
  | .driver (.ask .hasEventHandle) => false
  | .driver o => allWell o
  | .isOwn _ | .isReadable | .libxlGetEvent | .isDeath | .getDeathInfo => true
  | .getShutdownReason => ShutdownReason.poweroff
  | .setShutdown | .removeHandle _ => ()

/-- A turn with given answers. -/
def took (turn : Turn) (ω : (o : WatchOp) → WatchRes o) : Move := .turn turn (turn.code.eval ω).1

instance decFollows (s : Watching) : (tr : List (Event WatchRes)) →
    Decidable (Watching.monitor.Follows Watching.Answers s tr)
  | [] => .isTrue trivial
  | e :: tr =>
    have := decFollows (s.next e.1 e.2) tr
    inferInstanceAs (Decidable (Watching.Answers s e.1 e.2 ∧
      Watching.monitor.Follows Watching.Answers (s.next e.1 e.2) tr))

/-- **A thread goes on** for some operations, under a condition that each of them meets. -/
theorem reach_advances {ω : (o : WatchOp) → WatchRes o} {C : Shared → Move → Prop}
    (hC : ∀ s, s.Makes (.operation 0 ω) → C s (.operation 0 ω)) (n : ℕ) {s : Watching}
    {p : WatchCode Unit} (h : ReachVia Shared.next (· = init) C ⟨s, [p]⟩)
    (hfollows : Watching.monitor.Follows Watching.Answers s (p.advances ω n).1) :
    ReachVia Shared.next (· = init) C
      ⟨Watching.monitor.run s (p.advances ω n).1, [(p.advances ω n).2]⟩ := by
  induction n generalizing s p with
  | zero => exact h
  | succ n ih =>
    rcases p with a | ⟨o, k⟩ | -
    · exact h
    · have hs : Shared.next ⟨s, [.call o k]⟩ (.operation 0 ω) =
          some ⟨s.next o (ω o), [k (ω o)]⟩ := rfl
      have hmakes : Makes ⟨s, [.call o k]⟩ (.operation 0 ω) := by
        rintro p hp e rest hadvance
        obtain rfl := Option.some.inj hp
        obtain ⟨rfl, -⟩ := Prod.mk.inj (Option.some.inj hadvance)
        exact hfollows.1
      exact ih (h.step (hC _ hmakes) hs) hfollows.2
    · exact h

/-- A thread begins to receive a domain that was never started. -/
theorem reach_receive : ReachVia Shared.next (· = init) Attentive
    ⟨init.watching, [receiveStart]⟩ := by
  have hs : init.next .receive = some ⟨init.watching, [receiveStart]⟩ := rfl
  have hattentive : Attentive init .receive := by
    refine ⟨⟨rfl, rfl, ?_⟩, ?_⟩
    · rintro s' hs' hnone
      obtain rfl := Option.some.inj (hs.symm.trans hs')
      exact absurd hnone (List.cons_ne_nil _ _)
    · rintro s' hs' hnone
      obtain rfl := Option.some.inj (hs.symm.trans hs')
      exact absurd hnone (List.cons_ne_nil _ _)
  exact (ReachVia.start (I := (· = init)) rfl).step hattentive hs

/-- The thread goes on to the end. -/
theorem reach_received : ReachVia Shared.next (· = init) Attentive
    ⟨Watching.monitor.run init.watching (receiveStart.advances watchWell 17).1, []⟩ := by
  have hend := reach_advances (fun _ => attentive_operation) 17 (ω := watchWell) reach_receive
    (by decide)
  have hs : Shared.next ⟨Watching.monitor.run init.watching (receiveStart.advances watchWell 17).1,
      [(receiveStart.advances watchWell 17).2]⟩ (.received 0) =
      some ⟨Watching.monitor.run init.watching (receiveStart.advances watchWell 17).1, []⟩ := rfl
  have hattentive : Attentive ⟨Watching.monitor.run init.watching
      (receiveStart.advances watchWell 17).1, [(receiveStart.advances watchWell 17).2]⟩
      (.received 0) := by
    refine ⟨⟨trivial, trivial, ?_⟩, ?_⟩
    · rintro s' hs' -
      obtain rfl := Option.some.inj (hs.symm.trans hs')
      exact ⟨rfl, rfl⟩
    · rintro s' hs' - -
      obtain rfl := Option.some.inj (hs.symm.trans hs')
      rfl
  exact hend.step hattentive hs

/-- Answers under which the status of the domain cannot be saved. -/
def statusFails : (o : WatchOp) → WatchRes o
  | .driver (.ask (.prim .virDomainSaveStatus)) => false
  | o => watchWell o

/-- Answers to a call of the handler for another handle than the domain's. -/
def notOwn : (o : WatchOp) → WatchRes o
  | .isOwn _ => false
  | o => watchWell o

/-- **A death goes unnoticed.** A start fails late and is done again, the handle that the first
has left behind is called for, and the driver forgets the second: a guest runs that nobody
watches. -/
theorem death_unnoticed : ∃ s : Shared, ReachVia Shared.next (· = init) Makes s ∧
    s.receiving = [] ∧ s.watching.active = true ∧ s.watching.guest = true ∧
      ¬s.watching.Watched ∧ ¬s.watching.Known := by
  have hinit : ReachVia Shared.next (· = init) Makes init := ReachVia.start rfl
  have hlate := hinit.step (a := took (.start false false) statusFails)
    ⟨rfl, Prog.runs_eval statusFails _, by decide⟩ rfl
  have hagain := hlate.step (a := took (.start false false) watchWell)
    ⟨rfl, Prog.runs_eval watchWell _, by decide⟩ rfl
  have hforgot := hagain.step (a := took (.handle 0) notOwn)
    ⟨trivial, Prog.runs_eval notOwn _, by decide⟩ rfl
  refine ⟨_, hforgot, rfl, rfl, rfl, ?_, ?_⟩
  · intro h
    exact absurd (h rfl rfl) (by decide)
  · intro h
    exact absurd h.1 (by decide)

/-- Answers to a reaping of a domain that is not waited for yet. -/
def noWaiter : (o : WatchOp) → WatchRes o
  | .driver (.ask .hasWaiter) => false
  | o => watchWell o

/-- **A handle is left behind.** A domain is destroyed while a thread that receives it is in the
middle of its start: neither fails, no handle is forgotten, and the domain is not active and has
a handle. -/
theorem handle_left_behind : ∃ s : Shared, ReachVia Shared.next (· = init) Makes s ∧
    s.receiving = [] ∧ s.watching.late = false ∧ s.watching.forgot = false ∧
      s.watching.active = false ∧ s.watching.handles = [0] := by
  have hbegun := reach_receive.mono fun _ _ h => h.1.1
  -- the domain is taken for active, and has no handle yet
  have hhalf := reach_advances (fun _ => id) 4 (ω := watchWell) hbegun (by decide)
  have hdestroyed := hhalf.step (a := took (.reap .shutoffDestroyed) noWaiter)
    ⟨nofun, Prog.runs_eval noWaiter _, by decide⟩ rfl
  have hend := reach_advances (fun _ => id) 13 (ω := watchWell) hdestroyed (by decide)
  have hmakes (s : Shared) : s.Makes (.received 0) := trivial
  have hreceived := hend.step (hmakes _) rfl
  exact ⟨_, hreceived, rfl, rfl, rfl, rfl, rfl⟩

end Libxl

end OpenLog
