import Mathlib.Logic.Function.Basic
import OpenLog.Libxl.Domain
import OpenLog.Logic.Run

/-!
# Reaping a domain once

Threads that destroy and save one domain, operation by operation in any order that the
driver's mutex allows. The mutex is dropped while a thread waits for its job, and while a
save has libxenlight suspend the guest. The domain's own mutex and its jobs are left out:
all that they do here is to forbid orders.

A domain should be reaped once, and its end be told once. It can happen twice because a
save does not look at the domain again when it comes back from the suspension, and because
a STOPPED event is queued whether the domain could be destroyed or not. Where a save comes
back to a domain that nobody has tried to destroy, and a Destroy finds the domain active
only then, it happens once (`OpenLog.Libxl.ReapState.reaped_once`).
-/

namespace OpenLog

namespace Libxl

open Logic

/-! ### The calls -/

/-- The calls that reap a domain, with their arguments. -/
inductive ReapCall where
  | destroyFlags (flagsOk : Bool)
  | saveFlags (flagsOk dxml : Bool)
  deriving DecidableEq

def ReapCall.code : ReapCall → Code Int
  | destroyFlags flagsOk => domainDestroyFlags flagsOk
  | saveFlags flagsOk dxml => domainSaveFlags flagsOk dxml

def ReapCall.destroys : ReapCall → Bool
  | destroyFlags _ => true
  | saveFlags _ _ => false

/-- What an operation is to the other threads and to the domain. -/
inductive Seen where
  | lockDriver
  | unlockDriver
  | begin
  | suspend (ok : Bool)
  | active (yes : Bool)
  | destroy (ok : Bool)
  /-- A STOPPED event is queued. -/
  | stopped
  | removed
  | setActive (yes : Bool)
  | nothing
  deriving DecidableEq

/-- The event says that the domain has stopped. -/
def DomEvent.isStopped : DomEvent → Bool
  | .stoppedDestroyed | .stoppedSaved | .stoppedCrashed => true
  | _ => false

def seen : (o : Op) → Res o → Seen
  | .act .driverLock, _ => .lockDriver
  | .act .driverUnlock, _ => .unlockDriver
  | .begin _, _ => .begin
  | .ask (.prim (.libxlDomainSuspend _)), ok => .suspend ok
  | .ask .isActive, yes => .active yes
  | .ask (.prim .libxlDomainDestroy), ok => .destroy ok
  | .act (.eventQueue (some event)), _ => if event.isStopped then .stopped else .nothing
  | .act .removeInactive, _ => .removed
  | .act (.setId active), _ => .setActive active
  -- the definition that is taken over has the id `-1`
  | .act .adoptNewDef, _ => .setActive false
  | _, _ => .nothing

/-! ### A thread -/

/-- How far a thread has got. -/
structure ReapStage where
  /-- It holds the driver's mutex, but for the time in which it waits for its job. -/
  driver : Bool
  /-- It has suspended the guest. -/
  suspended : Bool
  /-- It has found reason to reap the domain since it took the driver's mutex: as a
  Destroy, that the domain is active; as a save, that it has suspended the guest. -/
  clear : Bool
  /-- It has tried to destroy the domain and may queue an event. -/
  event : Bool
  deriving DecidableEq

namespace ReapStage

def start : ReapStage := ⟨false, false, false, false⟩

def next (destroys : Bool) (g : ReapStage) : Seen → ReapStage
  | .lockDriver => { g with driver := true, clear := g.suspended }
  | .unlockDriver => { g with driver := false, clear := false }
  | .suspend ok => { g with suspended := ok }
  | .active yes => { g with clear := destroys && yes }
  | .destroy _ => { g with clear := false, event := true }
  | .stopped => { g with event := false }
  | .begin | .removed | .setActive _ | .nothing => g

/-- The rules that a thread keeps: it reaps the domain only with a reason that it has found
under the driver's mutex, and queues an event only after that. -/
def Observes (g : ReapStage) : Seen → Prop
  | .lockDriver => g.driver = false
  | .unlockDriver => g.driver = true
  | .begin => g.driver = true ∧ g.clear = false
  | .active _ => g.driver = true
  | .destroy _ => g.clear = true
  | .stopped => g.event = true
  | .suspend _ | .removed | .setActive _ | .nothing => True

def monitor (destroys : Bool) : Monitor Res ReapStage :=
  ⟨fun g o r => g.next destroys (seen o r), fun g o => ∀ r, g.Observes (seen o r)⟩

@[simp] theorem monitor_next (destroys : Bool) : (monitor destroys).next =
    fun g o r => g.next destroys (seen o r) := rfl

@[simp] theorem monitor_ok (destroys : Bool) (g : ReapStage) (o : Op) :
    (monitor destroys).ok g o ↔ ∀ r, g.Observes (seen o r) := Iff.rfl

instance (o : Op) : Nonempty (Res o) := ⟨allWell o⟩

/-- A Destroy keeps the rules of a thread: it tries to destroy the domain once, after it has
found it active with the mutex held, and has one event to queue. -/
theorem wp_destroyFlags (flagsOk : Bool) : (domainDestroyFlags flagsOk).wp (monitor true)
    (fun _ _ => True) (fun _ => True) start := by
  simp [domainDestroyFlags, vmCleanup, seen, next, Observes, start, DomEvent.isStopped]

/-- So does a save, whose reason is that it has suspended the guest. -/
theorem wp_saveFlags (flagsOk dxml : Bool) : (domainSaveFlags flagsOk dxml).wp (monitor false)
    (fun _ _ => True) (fun _ => True) start := by
  simp [domainSaveFlags, doDomainSave, vmCleanup, seen, next, Observes, start, DomEvent.isStopped]

/-- So do both, whatever they are answered. -/
theorem wp_code (c : ReapCall) : c.code.wp (monitor c.destroys) (fun _ _ => True)
    (fun _ => True) start := by
  cases c with
  | destroyFlags flagsOk => exact wp_destroyFlags flagsOk
  | saveFlags flagsOk dxml => exact wp_saveFlags flagsOk dxml

end ReapStage

/-! ### The system -/

/-- The domain, with what has been done to it in one activation. -/
structure ReapWorld (Tid : Type*) where
  /-- The thread that has the driver's mutex. -/
  driver : Option Tid
  /-- The domain is in the list. -/
  listed : Bool
  /-- Its id is not `-1`. -/
  active : Bool
  persistent : Bool
  /-- How often `libxl_domain_destroy` has been called. -/
  tried : ℕ
  /-- How often `libxlVmReap` has destroyed the domain and cleaned up after it. -/
  reaps : ℕ
  /-- How many STOPPED events have been queued. -/
  stopped : ℕ
  deriving DecidableEq

/-- A thread in its call. -/
structure ReapThread where
  call : ReapCall
  left : Code Int
  /-- It waits for its job and has dropped the mutexes. -/
  waiting : Bool
  stage : ReapStage

structure ReapState (Tid : Type*) where
  threads : Tid → ReapThread
  world : ReapWorld Tid

/-- A step of a thread. The start of a job is two of them, unless the clock fails. -/
inductive ReapAct (Tid : Type*) where
  | call (t : Tid) (ω : (o : Op) → Res o)
  | beginWait (t : Tid)
  | beginReturn (t : Tid) (ω : (o : Op) → Res o)

namespace ReapWorld

variable {Tid : Type*}

/-- What an operation of the thread `t` changes. -/
def next (w : ReapWorld Tid) (t : Tid) : Seen → ReapWorld Tid
  | .lockDriver => { w with driver := some t }
  | .unlockDriver => { w with driver := none }
  | .destroy ok => { w with tried := w.tried + 1, reaps := w.reaps + ok.toNat }
  | .stopped => { w with stopped := w.stopped + 1 }
  | .removed => { w with listed := false }
  | .setActive yes => { w with active := yes }
  | .begin | .suspend _ | .active _ | .nothing => w

/-- What is read of the domain is what is there, and the mutex is taken only if it is
free. A job that has not been waited for is one for which the clock has failed. -/
def allows (w : ReapWorld Tid) : (o : Op) → Res o → Bool
  | .ask .findByUUID, found => w.listed == found
  | .ask .isActive, yes => w.active == yes
  | .ask .isPersistent, yes => w.persistent == yes
  | .act .driverLock, _ => w.driver.isNone
  | .begin _, .clockFailed => true
  | .begin _, .ok => false
  | .begin _, .refused => false
  | _, _ => true

end ReapWorld

/-- The program is about to start a job. -/
def atBegin {α : Type} : Code α → Bool
  | .call (.begin _) _ => true
  | _ => false

/-- The start of a job that was waited for. -/
def waited : (o : Op) → Res o → Bool
  | .begin _, .ok => true
  | .begin _, .refused => true
  | _, _ => false

namespace ReapState

variable {Tid : Type*} [DecidableEq Tid]

/-- The thread `t` has made an operation and goes on with `rest`. -/
def made (s : ReapState Tid) (t : Tid) (a : Seen) (rest : Code Int) : ReapState Tid where
  threads := Function.update s.threads t
    { s.threads t with
      left := rest
      stage := (s.threads t).stage.next (s.threads t).call.destroys a }
  world := s.world.next t a

/-- The thread `t` drops the mutexes to wait for its job, or has them back. -/
def wait (s : ReapState Tid) (t : Tid) (waiting : Bool) : ReapState Tid where
  threads := Function.update s.threads t { s.threads t with waiting := waiting }
  world := { s.world with driver := if waiting then none else some t }

def step (s : ReapState Tid) : ReapAct Tid → Option (ReapState Tid)
  | .call t ω => ((s.threads t).left.advance ω).bind fun (e, rest) =>
    if (s.threads t).waiting = false ∧ s.world.allows e.1 e.2 = true then
      some (s.made t (seen e.1 e.2) rest)
    else none
  | .beginWait t =>
    if (s.threads t).waiting = false ∧ atBegin (s.threads t).left = true then
      some (s.wait t true)
    else none
  | .beginReturn t ω => ((s.threads t).left.advance ω).bind fun (e, rest) =>
    if (s.threads t).waiting = true ∧ s.world.driver = none ∧ waited e.1 e.2 = true then
      some ((s.wait t false).made t (seen e.1 e.2) rest)
    else none

/-- The threads are about to make their calls on a domain that nothing has been done to in
this activation. -/
def Initial (calls : Tid → ReapCall) (s : ReapState Tid) : Prop :=
  (∀ t, s.threads t = ⟨calls t, (calls t).code, false, ReapStage.start⟩) ∧
    s.world.driver = none ∧ s.world.tried = 0 ∧ s.world.reaps = 0 ∧ s.world.stopped = 0

/-- The thread finds its reason to reap the domain where nobody has tried to destroy it. -/
def Timely (s : ReapState Tid) (t : Tid) : Seen → Prop
  | .lockDriver => (s.threads t).stage.suspended = true → s.world.tried = 0
  | .active true => (s.threads t).call.destroys = true → s.world.tried = 0
  | _ => True

instance (s : ReapState Tid) (t : Tid) : (a : Seen) → Decidable (s.Timely t a)
  | .lockDriver => inferInstanceAs (Decidable (_ → _))
  | .active true => inferInstanceAs (Decidable (_ → _))
  | .active false | .unlockDriver | .begin | .suspend _ | .destroy _ | .stopped | .removed
  | .setActive _ | .nothing => .isTrue trivial

/-- The step is timely. -/
def Careful (s : ReapState Tid) : ReapAct Tid → Prop
  | .call t ω => ∀ x ∈ (s.threads t).left.advance ω, s.Timely t (seen x.1.1 x.1.2)
  | .beginWait _ | .beginReturn _ _ => True

instance (s : ReapState Tid) : (a : ReapAct Tid) → Decidable (s.Careful a)
  | .call t ω => inferInstanceAs (Decidable (∀ x ∈ (s.threads t).left.advance ω, _))
  | .beginWait _ | .beginReturn _ _ => .isTrue trivial

/-! ### Once -/

/-- What holds while all steps are timely. A thread has its rules still to keep; the mutex is
where the threads have it; and what has been done to the domain in this activation has been
done once at most. -/
structure Inv (s : ReapState Tid) : Prop where
  observes : ∀ t, (s.threads t).left.wp (ReapStage.monitor (s.threads t).call.destroys)
    (fun _ _ => True) (fun _ => True) (s.threads t).stage
  driver : ∀ t, s.world.driver = some t ↔
    (s.threads t).stage.driver = true ∧ (s.threads t).waiting = false
  /-- A reason to reap the domain holds good until the mutex is dropped. -/
  clear : ∀ t, (s.threads t).stage.clear = true → s.world.driver = some t ∧ s.world.tried = 0
  /-- There is one event to be queued at most. -/
  event : ∀ t, (s.threads t).stage.event = true →
    s.world.stopped = 0 ∧ s.world.tried = 1 ∧ ∀ u, (s.threads u).stage.event = true → u = t
  reaps : s.world.reaps ≤ s.world.tried
  stopped : s.world.stopped ≤ s.world.tried
  tried : s.world.tried ≤ 1

omit [DecidableEq Tid] in
/-- Nothing has been done to the domain in the beginning. -/
theorem Inv.init {calls : Tid → ReapCall} {s : ReapState Tid} (h : Initial calls s) :
    s.Inv := by
  obtain ⟨hthreads, hdriver, htried, hreaps, hstopped⟩ := h
  constructor
  · intro t
    rw [hthreads]
    exact ReapStage.wp_code (calls t)
  · intro t
    rw [hdriver, hthreads]
    simp [ReapStage.start]
  · intro t hclear
    rw [hthreads] at hclear
    cases hclear
  · intro t hevent
    rw [hthreads] at hevent
    cases hevent
  · omega
  · omega
  · omega

/-- An operation of a thread changes that thread only. -/
theorem made_threads (s : ReapState Tid) (t u : Tid) (a : Seen) (rest : Code Int) :
    (s.made t a rest).threads u = if u = t then
      { s.threads t with
        left := rest
        stage := (s.threads t).stage.next (s.threads t).call.destroys a } else s.threads u :=
  Function.update_apply _ _ _ _

/-- So does its wait. -/
theorem wait_threads (s : ReapState Tid) (t u : Tid) (waiting : Bool) :
    (s.wait t waiting).threads u =
      if u = t then { s.threads t with waiting := waiting } else s.threads u :=
  Function.update_apply _ _ _ _

@[simp] theorem made_world (s : ReapState Tid) (t : Tid) (a : Seen) (rest : Code Int) :
    (s.made t a rest).world = s.world.next t a := rfl

section Made

variable {s : ReapState Tid} {t : Tid} {a : Seen} {rest : Code Int}

omit [DecidableEq Tid] in
/-- A thread that is not waiting and has the driver's mutex keeps the others from it. -/
theorem Inv.driver_of_stage (h : s.Inv) (hwaiting : (s.threads t).waiting = false)
    (hdriver : (s.threads t).stage.driver = true) : s.world.driver = some t :=
  (h.driver t).mpr ⟨hdriver, hwaiting⟩

/-- The mutex is where the threads have it, after an operation of one of them. -/
theorem Inv.made_driver (h : s.Inv) (hobs : (s.threads t).stage.Observes a)
    (hwaiting : (s.threads t).waiting = false)
    (hlock : a = .lockDriver → s.world.driver = none) (u : Tid) :
    (s.world.next t a).driver = some u ↔ ((s.made t a rest).threads u).stage.driver = true ∧
      ((s.made t a rest).threads u).waiting = false := by
  rw [made_threads]
  by_cases hu : u = t
  · subst hu
    rw [if_pos rfl]
    cases a with
    | lockDriver => simp [ReapWorld.next, ReapStage.next, hwaiting]
    | unlockDriver => simp [ReapWorld.next, ReapStage.next]
    | _ => exact h.driver u
  · rw [if_neg hu, ← h.driver u]
    cases a with
    | lockDriver => simp [ReapWorld.next, hlock rfl, Ne.symm hu]
    | unlockDriver => simp [ReapWorld.next, h.driver_of_stage hwaiting hobs, Ne.symm hu]
    | _ => rfl

/-- **A reason stays good** until the mutex is dropped: no other thread can try to destroy the
domain in the meantime. -/
theorem Inv.made_clear (h : s.Inv) (hobs : (s.threads t).stage.Observes a)
    (hwaiting : (s.threads t).waiting = false)
    (hlock : a = .lockDriver → s.world.driver = none) (htime : s.Timely t a) (u : Tid)
    (hu : ((s.made t a rest).threads u).stage.clear = true) :
    (s.world.next t a).driver = some u ∧ (s.world.next t a).tried = 0 := by
  rw [made_threads] at hu
  by_cases heq : u = t
  · subst heq
    rw [if_pos rfl] at hu
    cases a with
    | lockDriver => exact ⟨rfl, htime hu⟩
    | unlockDriver => cases hu
    | active yes =>
      obtain ⟨hdestroys, rfl⟩ := Bool.and_eq_true_iff.mp hu
      exact ⟨h.driver_of_stage hwaiting hobs, htime hdestroys⟩
    | destroy ok => cases hu
    | _ => exact h.clear u hu
  · rw [if_neg heq] at hu
    obtain ⟨hdriver, htried⟩ := h.clear u hu
    cases a with
    | lockDriver =>
      rw [hlock rfl] at hdriver
      cases hdriver
    | unlockDriver =>
      rw [h.driver_of_stage hwaiting hobs] at hdriver
      exact absurd (Option.some.inj hdriver).symm heq
    | destroy ok =>
      rw [(h.clear t hobs).1] at hdriver
      exact absurd (Option.some.inj hdriver).symm heq
    | _ => exact ⟨hdriver, htried⟩

/-- **There is one event to be queued at most**: who tries to destroy the domain has a reason,
so that nobody has tried before. -/
theorem Inv.made_event (h : s.Inv) (hobs : (s.threads t).stage.Observes a) (u : Tid)
    (hu : ((s.made t a rest).threads u).stage.event = true) :
    (s.world.next t a).stopped = 0 ∧ (s.world.next t a).tried = 1 ∧
      ∀ v, ((s.made t a rest).threads v).stage.event = true → v = u := by
  have hevent : ∀ v, ((s.made t a rest).threads v).stage.event =
      if v = t then ((s.threads t).stage.next (s.threads t).call.destroys a).event
      else (s.threads v).stage.event := by
    intro v
    rw [made_threads]
    split_ifs <;> rfl
  rw [hevent] at hu
  simp only [hevent]
  cases a with
  | destroy ok =>
    -- nobody has tried before, so nobody else may queue an event
    have htried := (h.clear t hobs).2
    have hnone : ∀ v, (s.threads v).stage.event = false := by
      intro v
      by_contra hv
      have hone := (h.event v (Bool.not_eq_false _ |>.mp hv)).2.1
      omega
    have hstopped := h.stopped
    have hself : ∀ v, (if v = t then true else (s.threads v).stage.event) = true → v = t := by
      intro v hv
      by_contra hne
      rw [if_neg hne, hnone v] at hv
      cases hv
    refine ⟨by simp only [ReapWorld.next]; omega, by simp only [ReapWorld.next]; omega, ?_⟩
    intro v hv
    rw [hself v hv, hself u hu]
  | stopped =>
    obtain ⟨-, -, honly⟩ := h.event t hobs
    split_ifs at hu with heq
    · cases hu
    · exact absurd (honly u hu) heq
  | _ =>
    have hsame : ∀ v, (if v = t then (s.threads t).stage.event else (s.threads v).stage.event) =
        (s.threads v).stage.event := by
      intro v
      split_ifs with hv
      · rw [hv]
      · rfl
    simp only [ReapStage.next, hsame] at hu ⊢
    exact h.event u hu

omit [DecidableEq Tid] in
/-- The counts of the world stay in order. -/
theorem Inv.made_counts (h : s.Inv) (hobs : (s.threads t).stage.Observes a) :
    (s.world.next t a).reaps ≤ (s.world.next t a).tried ∧
      (s.world.next t a).stopped ≤ (s.world.next t a).tried ∧ (s.world.next t a).tried ≤ 1 := by
  have hreaps := h.reaps
  have hstopped := h.stopped
  cases a with
  | destroy ok =>
    have htried := (h.clear t hobs).2
    have hok := Bool.toNat_le ok
    simp only [ReapWorld.next]
    omega
  | stopped =>
    obtain ⟨hnone, hone, -⟩ := h.event t hobs
    simp only [ReapWorld.next]
    omega
  | _ => exact ⟨hreaps, hstopped, h.tried⟩

end Made

/-- An operation moves only the stage of its own thread, and the rules that the thread keeps say
how the world stands before it. -/
theorem Inv.made {s : ReapState Tid} (h : s.Inv) {t : Tid} {a : Seen} {rest : Code Int}
    (hrest : rest.wp (ReapStage.monitor (s.threads t).call.destroys) (fun _ _ => True)
      (fun _ => True) ((s.threads t).stage.next (s.threads t).call.destroys a))
    (hobs : (s.threads t).stage.Observes a) (hwaiting : (s.threads t).waiting = false)
    (hlock : a = .lockDriver → s.world.driver = none) (htime : s.Timely t a) :
    (s.made t a rest).Inv where
  observes u := by
    rw [made_threads]
    split_ifs
    · exact hrest
    · exact h.observes u
  driver := h.made_driver hobs hwaiting hlock
  clear := h.made_clear hobs hwaiting hlock htime
  event := h.made_event hobs
  reaps := (h.made_counts hobs).1
  stopped := (h.made_counts hobs).2.1
  tried := (h.made_counts hobs).2.2

omit [DecidableEq Tid] in
/-- A thread about to start a job has the driver's mutex, or will, and no reason yet to
reap the domain. -/
theorem Inv.begin_stage {s : ReapState Tid} (h : s.Inv) {t : Tid}
    (hbegin : atBegin (s.threads t).left = true) :
    (s.threads t).stage.driver = true ∧ (s.threads t).stage.clear = false := by
  have hwp := h.observes t
  unfold atBegin at hbegin
  split at hbegin
  · rename_i hleft
    rw [hleft] at hwp
    exact hwp.1 .ok
  · cases hbegin

/-- A thread that waits for its job has no reason to reap the domain, and loses none. -/
theorem Inv.wait {s : ReapState Tid} (h : s.Inv) {t : Tid} {waiting : Bool}
    (hbegin : atBegin (s.threads t).left = true) (hwaiting : (s.threads t).waiting = !waiting)
    (hfree : waiting = false → s.world.driver = none) : (s.wait t waiting).Inv := by
  obtain ⟨hmutex, hreason⟩ := h.begin_stage hbegin
  obtain ⟨hobserves, hdriver, hclear, hevent, hreaps, hstopped, htried⟩ := h
  refine ⟨fun u => ?_, fun u => ?_, fun u hu => ?_, fun u hu => ?_, hreaps, hstopped, htried⟩
  · rw [wait_threads]
    split_ifs with hut
    · exact hobserves t
    · exact hobserves u
  all_goals
    cases waiting <;> grind [wait_threads, ReapState.wait]

/-- The end of a wait is the start of a job. -/
theorem waited_begin {o : Op} {r : Res o} (h : waited o r = true) : seen o r = .begin := by
  unfold waited at h
  split at h
  · rfl
  · rfl
  · cases h

/-- It is the next operation of the thread. -/
theorem atBegin_of_advance {ω : (o : Op) → Res o} {p p' : Code Int} {e : Event Res}
    (h : p.advance ω = some (e, p')) (hbegin : waited e.1 e.2 = true) : atBegin p = true := by
  cases p with
  | ret a => cases h
  | fault => cases h
  | call o k =>
    obtain ⟨rfl, rfl⟩ : (⟨o, ω o⟩ : Event Res) = e ∧ k (ω o) = p' := by
      simpa [Prog.advance] using h
    cases o with
    | begin call => rfl
    | _ => cases hbegin

omit [DecidableEq Tid] in
/-- A mutex that is taken was free. -/
theorem free_of_allows {w : ReapWorld Tid} {o : Op} {r : Res o} (hallows : w.allows o r = true)
    (hlock : seen o r = .lockDriver) : w.driver = none := by
  unfold seen at hlock
  split at hlock
  · exact Option.isNone_iff_eq_none.mp hallows
  all_goals first | cases hlock | (split_ifs at hlock)

/-- **A timely step keeps the invariant.** An operation of a thread keeps its part of each
clause by the lemma about it; the two halves of a wait touch nothing but the mutex. -/
theorem Inv.step {s s' : ReapState Tid} {a : ReapAct Tid} (h : s.Inv) (hC : s.Careful a)
    (hs : s.step a = some s') : s'.Inv := by
  cases a with
  | call t ω =>
    obtain ⟨⟨e, rest⟩, hadv, hstep⟩ := Option.bind_eq_some_iff.mp hs
    dsimp only at hstep
    split_ifs at hstep with henabled
    obtain rfl := Option.some.inj hstep
    obtain ⟨hobs, hrest⟩ := Prog.wp_advance (h.observes t) hadv
    exact h.made hrest (hobs e.2) henabled.1 (free_of_allows henabled.2) (hC _ hadv)
  | beginWait t =>
    rw [ReapState.step] at hs
    split_ifs at hs with henabled
    obtain rfl := Option.some.inj hs
    exact h.wait henabled.2 henabled.1 nofun
  | beginReturn t ω =>
    obtain ⟨⟨e, rest⟩, hadv, hstep⟩ := Option.bind_eq_some_iff.mp hs
    dsimp only at hstep
    split_ifs at hstep with henabled
    obtain rfl := Option.some.inj hstep
    obtain ⟨hwaiting, hfree, hbegin⟩ := henabled
    have hback : (s.wait t false).Inv :=
      h.wait (atBegin_of_advance hadv hbegin) hwaiting fun _ => hfree
    have hthread : (s.wait t false).threads t = { s.threads t with waiting := false } :=
      Function.update_self _ _ _
    obtain ⟨hobs, hrest⟩ := Prog.wp_advance (h.observes t) hadv
    have hseen := waited_begin hbegin
    refine hback.made ?_ ?_ ?_ (fun hlock => ?_) ?_
    · rw [hthread]
      exact hrest
    · rw [hthread]
      exact hobs e.2
    · rw [hthread]
    · rw [hseen] at hlock
      cases hlock
    · rw [hseen]
      trivial

/-- **Once.** While a save comes back from the suspension only to a domain that nobody has
tried to destroy, and a Destroy finds the domain active only where nobody has, the domain is
reaped at most once and at most one STOPPED event is queued. -/
theorem reaped_once {calls : Tid → ReapCall} {s : ReapState Tid}
    (h : ReachVia step (Initial calls) Careful s) :
    s.world.reaps ≤ 1 ∧ s.world.stopped ≤ 1 := by
  have hinv : s.Inv := h.invariant (fun _ => Inv.init) fun _ _ _ hs hC hstep => hs.step hC hstep
  exact ⟨Nat.le_trans hinv.reaps hinv.tried, Nat.le_trans hinv.stopped hinv.tried⟩

/-! ### Two threads -/

/-- The thread `true` destroys the domain and the thread `false` saves it. -/
def saveAndDestroy (t : Bool) : ReapCall := if t then .destroyFlags true else .saveFlags true false

/-- A persistent domain that is active, before the two threads start. -/
def plainStart : ReapState Bool where
  threads t := ⟨saveAndDestroy t, (saveAndDestroy t).code, false, ReapStage.start⟩
  world := ⟨none, true, true, true, 0, 0, 0⟩

/-- The threads are about to make their calls. -/
theorem initial_plainStart : Initial saveAndDestroy plainStart :=
  ⟨fun _ => rfl, rfl, rfl, rfl, rfl⟩

/-- The answers of a guest that runs. -/
def runs : (o : Op) → Res o
  | .ask .isPaused | .ask .hasNewDef => false
  | o => allWell o

/-- The answers of a domain that has been shut off. -/
def shutOff : (o : Op) → Res o
  | .ask .isActive => false
  | o => runs o

/-- The answers where the guest cannot be destroyed any more. -/
def notDestroyed : (o : Op) → Res o
  | .ask (.prim .libxlDomainDestroy) => false
  | o => runs o

/-- The save as far as the suspension of the guest, with the mutexes dropped. -/
def suspended : List (ReapAct Bool) :=
  List.replicate 3 (.call false runs) ++ [.beginWait false, .beginReturn false runs] ++
    List.replicate 8 (.call false runs)

/-- The Destroy up to the start of its job. -/
def destroyBegun (ω : (o : Op) → Res o) : List (ReapAct Bool) :=
  List.replicate 2 (.call true ω) ++ [.beginWait true, .beginReturn true ω]

/-- The save to its end, and then the Destroy. -/
def saveThenDestroy : List (ReapAct Bool) := List.flatten
  [ suspended, List.replicate 24 (.call false runs), destroyBegun shutOff,
    List.replicate 5 (.call true shutOff) ]

/-- The Destroy while the guest is being suspended, and then the rest of the save. -/
def destroyInBetween : List (ReapAct Bool) := List.flatten
  [ suspended, destroyBegun runs, List.replicate 22 (.call true runs),
    List.replicate 11 (.call false notDestroyed) ]

/-- A save, and a Destroy that comes too late. -/
theorem reaped_once_saved : ∃ s, ReachVia step (Initial saveAndDestroy) Careful s ∧
    s.world = ⟨none, true, false, true, 1, 1, 1⟩ ∧ s.world.reaps ≤ 1 ∧ s.world.stopped ≤ 1 := by
  have hrun : (exec (restrict step Careful) plainStart saveThenDestroy).map world =
      some ⟨none, true, false, true, 1, 1, 1⟩ := by
    decide
  obtain ⟨s, hs, hworld⟩ := Option.map_eq_some_iff.mp hrun
  have hreach := (ReachVia.start initial_plainStart).of_exec hs
  exact ⟨s, hreach, hworld, reaped_once hreach⟩

/-- **Twice.** The domain is destroyed while its guest is being suspended; the save goes on
all the same and, although it cannot destroy the domain any more, tells its end once
more. -/
theorem stopped_twice : ∃ s, Reach step (Initial saveAndDestroy) s ∧
    s.world.reaps = 1 ∧ s.world.stopped = 2 := by
  have hrun : (exec step plainStart destroyInBetween).map
      (fun s => (s.world.reaps, s.world.stopped)) = some (1, 2) := by
    decide
  obtain ⟨s, hs, hworld⟩ := Option.map_eq_some_iff.mp hrun
  simp only [Prod.mk.injEq] at hworld
  exact ⟨s, (Reach.start initial_plainStart).of_exec hs, hworld⟩

end ReapState

end Libxl

end OpenLog
