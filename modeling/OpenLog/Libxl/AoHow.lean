import Mathlib.Data.Finset.Insert
import Mathlib.Data.Fintype.Basic
import Mathlib.Logic.Function.Basic
import OpenLog.Logic.Assume
import OpenLog.Logic.Run

/-!
# Asynchronous operations of a domain

The patches of December 2013 have libxenlight run the long operations of a domain
asynchronously: `ao_how_init` clears a flag of the domain, the call into libxenlight starts the
operation, and `ao_how_wait` drops the lock of the domain and looks at the flag once a second
until the event that completes the operation has set it.

There is one flag to a domain, and nothing keeps two operations from overlapping. The waits are
sound (`OpenLog.Libxl.AoState.Sound`) as long as the operations keep out of each other's way:
no operation starts over a completion that its waiter has not seen, no completion comes while
another operation still lacks its own. And the creation of a domain has to be accepted, since
`libxlVmStart` waits whether it is or not (`OpenLog.Libxl.AoState.sound_of_orderly`).

The functions are modelled as far as the patches show them. What lies between is one operation
`rest`, which may fail where the source has a jump.
-/

namespace OpenLog

namespace Libxl

open Logic

/-! ### Operations -/

/-- The functions of libxenlight that are called asynchronously. -/
inductive AoFunction where
  | domainCreateNew
  | domainCreateRestore
  | domainSuspend
  | domainDestroy
  deriving DecidableEq, Repr

/-- The functions that `libxlVmStart` calls. -/
def AoFunction.creates : AoFunction → Bool
  | domainCreateNew | domainCreateRestore => true
  | domainSuspend | domainDestroy => false

inductive AoOp where
  | objLock
  | objUnlock
  /-- `ao_how_init`, answered by its `VIR_ALLOC`. -/
  | aoHowInit
  | aoHowWait
  /-- A call into libxenlight with `priv->ao.ao_how`. -/
  | libxl (f : AoFunction)
  /-- What the patches leave as it was. -/
  | rest
  deriving DecidableEq

/-- The answers: whether a call succeeds. -/
def AoRes : AoOp → Type
  | .objLock | .objUnlock | .aoHowWait => Unit
  | .aoHowInit | .libxl _ | .rest => Bool

/-- Programs that work asynchronously. -/
abbrev AoCode (α : Type) : Type := Prog AoRes α

namespace AoOp

def lock : AoCode Unit := .call .objLock .ret

def unlock : AoCode Unit := .call .objUnlock .ret

def init : AoCode Bool := .call .aoHowInit .ret

def wait : AoCode Unit := .call .aoHowWait .ret

def callLibxl (f : AoFunction) : AoCode Bool := .call (.libxl f) .ret

def others : AoCode Bool := .call .rest .ret

section Rules

variable {α : Type} {σ : Type*} {A : σ → (o : AoOp) → AoRes o → Prop} {M : Monitor AoRes σ}
variable {s : σ} {Q : α → σ → Prop} {E : σ → Prop}

/-- The lock of the domain is taken. -/
@[simp] theorem wpOn_lock {f : Unit → AoCode α} : (lock >>= f).wpOn A M Q E s ↔
    M.ok s .objLock ∧ (A s .objLock () → (f ()).wpOn A M Q E (M.next s .objLock ())) :=
  ⟨fun h => ⟨h.1, h.2 ()⟩, fun h => ⟨h.1, fun _ => h.2⟩⟩

@[simp] theorem wpOn_unlock {f : Unit → AoCode α} : (unlock >>= f).wpOn A M Q E s ↔
    M.ok s .objUnlock ∧ (A s .objUnlock () → (f ()).wpOn A M Q E (M.next s .objUnlock ())) :=
  ⟨fun h => ⟨h.1, h.2 ()⟩, fun h => ⟨h.1, fun _ => h.2⟩⟩

/-- The wait has one answer: it is over. -/
@[simp] theorem wpOn_wait {f : Unit → AoCode α} : (wait >>= f).wpOn A M Q E s ↔
    M.ok s .aoHowWait ∧ (A s .aoHowWait () → (f ()).wpOn A M Q E (M.next s .aoHowWait ())) :=
  ⟨fun h => ⟨h.1, h.2 ()⟩, fun h => ⟨h.1, fun _ => h.2⟩⟩

/-- The flag is cleared, and there may be no memory for the `ao_how`. -/
@[simp] theorem wpOn_init {f : Bool → AoCode α} : (init >>= f).wpOn A M Q E s ↔
    M.ok s .aoHowInit ∧
      ∀ b : Bool, A s .aoHowInit b → (f b).wpOn A M Q E (M.next s .aoHowInit b) := Iff.rfl

/-- A call into libxenlight is accepted or not. -/
@[simp] theorem wpOn_callLibxl {g : AoFunction} {f : Bool → AoCode α} :
    (callLibxl g >>= f).wpOn A M Q E s ↔ M.ok s (.libxl g) ∧
      ∀ b : Bool, A s (.libxl g) b → (f b).wpOn A M Q E (M.next s (.libxl g) b) := Iff.rfl

/-- What lies between may fail. -/
@[simp] theorem wpOn_others {f : Bool → AoCode α} : (others >>= f).wpOn A M Q E s ↔
    M.ok s .rest ∧ ∀ b : Bool, A s .rest b → (f b).wpOn A M Q E (M.next s .rest b) := Iff.rfl

end Rules

end AoOp

/-! ### The functions -/

namespace Ao

open AoOp

/-- `libxlDoDomainDestroy`. -/
def doDomainDestroy : AoCode Int := do
  let _ ← init
  if !(← callLibxl .domainDestroy) then return -1
  else
    wait
    return 0

/-- `libxlVmReap`. -/
def vmReap : AoCode Int := do
  if (← doDomainDestroy) < 0 then return -1
  else
    let _ ← others
    return 0

/-- `libxlVmStart` for a client. -/
def vmStart (restore : Bool) : AoCode Int := do
  if !(← others) then error
  else
    let _ ← init
    let created ← callLibxl (if restore then .domainCreateRestore else .domainCreateNew)
    -- `ret` is looked at after the wait only
    wait
    if !created then error
    else if !(← others) then error
    else return 0
where
  /-- The answer is `domid > 0`. -/
  error : AoCode Int := do
    if ← others then let _ ← doDomainDestroy
    return -1

/-- `libxlDoDomainSave`. -/
def doDomainSave : AoCode Int := do
  if !(← others) then return -1
  else
    let _ ← init
    if !(← callLibxl .domainSuspend) then return -1
    else
      wait
      if (← vmReap) < 0 then return -1
      else return 0

end Ao

/-- The calls of a client on a domain. -/
inductive AoEntry where
  | create
  | restore
  | save
  | destroy
  deriving DecidableEq, Repr

/-- What is done once the state of the domain has been looked at. -/
def AoEntry.body : AoEntry → AoCode Int
  | create => Ao.vmStart false
  | restore => Ao.vmStart true
  | save => Ao.doDomainSave
  | destroy => Ao.vmReap

def AoEntry.code (c : AoEntry) : AoCode Int := do
  AoOp.lock
  if !(← AoOp.others) then
    AoOp.unlock
    return -1
  else
    let ret ← c.body
    AoOp.unlock
    return ret

/-! ### The system -/

/-- A thread in its call. -/
structure AoThread where
  left : AoCode Int
  /-- It is in `ao_how_wait` and has dropped the lock. -/
  waiting : Bool
  /-- The operation that its last call into libxenlight has started and that it has not waited
  for yet. -/
  own : Option ℕ

structure AoState (Tid : Type*) where
  threads : Tid → AoThread
  /-- The thread that has the domain's lock. -/
  lock : Option Tid
  /-- `priv->ao.ao_complete`. -/
  complete : Bool
  /-- `priv->ao.ao_how` is not `NULL`. -/
  aoHow : Bool
  /-- The number of operations that have been started. -/
  started : ℕ
  /-- The operations whose completion events have been delivered. -/
  delivered : Finset ℕ
  /-- A wait has ended before the event of its operation. -/
  early : Bool

/-- A step: of a thread, or the delivery of a completion event. -/
inductive AoAct (Tid : Type*) where
  | begin (t : Tid) (c : AoEntry)
  | call (t : Tid) (ω : (o : AoOp) → AoRes o)
  | waitEnter (t : Tid)
  /-- `ao_how_wait` finds the flag set. -/
  | waitReturn (t : Tid)
  | event (id : ℕ)

/-- What follows the wait that a program is about to make. -/
def atWait {α : Type} : AoCode α → Option (AoCode α)
  | .call .aoHowWait k => some (k ())
  | _ => none

namespace AoState

variable {Tid : Type*} [DecidableEq Tid]

/-- The thread `t` goes on. -/
def goOn (s : AoState Tid) (t : Tid) (th : AoThread) : AoState Tid :=
  { s with threads := Function.update s.threads t th }

/-- The thread `t` makes an operation and goes on with `left`. -/
def made (s : AoState Tid) (t : Tid) (left : AoCode Int) : (o : AoOp) → AoRes o →
    Option (AoState Tid)
  | .objLock, _ =>
    if s.lock = none then
      some { s.goOn t { s.threads t with left := left } with lock := some t }
    else none
  | .objUnlock, _ => some { s.goOn t { s.threads t with left := left } with lock := none }
  | .aoHowInit, allocated =>
    some { s.goOn t { s.threads t with left := left } with complete := false, aoHow := allocated }
  -- without an `ao_how` the call comes back when it is done, and no event will tell
  | .libxl _, true =>
    if s.aoHow then
      some { s.goOn t { s.threads t with left := left, own := some s.started } with
        started := s.started + 1 }
    else some (s.goOn t { s.threads t with left := left, own := none })
  | .libxl _, false => some (s.goOn t { s.threads t with left := left, own := none })
  | .rest, _ => some (s.goOn t { s.threads t with left := left })
  | .aoHowWait, _ => none

/-- The event of the operation that the thread `t` waits for has come. -/
def ownDelivered (s : AoState Tid) (t : Tid) : Bool :=
  (s.threads t).own.any fun id => decide (id ∈ s.delivered)

def step (s : AoState Tid) : AoAct Tid → Option (AoState Tid)
  | .begin t c =>
    if (s.threads t).left.result.isSome then some (s.goOn t { s.threads t with left := c.code })
    else none
  | .call t ω => ((s.threads t).left.advance ω).bind fun (e, left) => s.made t left e.1 e.2
  | .waitEnter t =>
    if (s.threads t).waiting = false ∧ (atWait (s.threads t).left).isSome then
      some { s.goOn t { s.threads t with waiting := true } with lock := none }
    else none
  | .waitReturn t => (atWait (s.threads t).left).bind fun left =>
    if (s.threads t).waiting = true ∧ s.lock = none ∧ s.complete = true then
      some { s.goOn t ⟨left, false, none⟩ with
        lock := some t
        aoHow := false
        early := s.early || !s.ownDelivered t }
    else none
  | .event id =>
    if id < s.started ∧ id ∉ s.delivered then
      some { s with complete := true, delivered := insert id s.delivered }
    else none

/-- Nobody has made a call. -/
def start : AoState Tid :=
  ⟨fun _ => ⟨.ret 0, false, none⟩, none, false, false, 0, ∅, false⟩

def Initial (s : AoState Tid) : Prop := s = start

omit [DecidableEq Tid] in
/-- There is a state in which nobody has made a call. -/
theorem initial_start : Initial (start : AoState Tid) := rfl

/-- **Soundness of the waits.** A thread waits only for an operation that has been accepted;
while an operation is waited for, the flag tells whether its own event has come; and no wait
has ended before the event of its operation. -/
structure Sound (s : AoState Tid) : Prop where
  accepted : ∀ t, (s.threads t).waiting = true → (s.threads t).own ≠ none
  flag : ∀ t, ∀ id ∈ (s.threads t).own, s.complete = true ↔ id ∈ s.delivered
  early : s.early = false

end AoState

/-! ### The conditions -/

/-- A call into libxenlight is accepted where nothing keeps its caller from waiting, and then
it has an `ao_how`. -/
def AoOp.Accepted (aoHow : Bool) : (o : AoOp) → AoRes o → Prop
  | .libxl _, true => aoHow = true
  | .libxl f, false => f.creates = false
  | .objLock, _ | .objUnlock, _ | .aoHowInit, _ | .aoHowWait, _ | .rest, _ => True

instance (aoHow : Bool) : (o : AoOp) → (r : AoRes o) → Decidable (o.Accepted aoHow r)
  | .libxl _, true => inferInstanceAs (Decidable (_ = _))
  | .libxl _, false => inferInstanceAs (Decidable (_ = _))
  | .objLock, _ | .objUnlock, _ | .aoHowInit, _ | .aoHowWait, _ | .rest, _ => .isTrue trivial

/-- A call that is accepted is accepted with an `ao_how`. -/
theorem AoOp.Accepted.of_aoHow {aoHow : Bool} {o : AoOp} {r : AoRes o}
    (h : o.Accepted aoHow r) : o.Accepted true r := by
  cases o with
  | libxl f =>
    cases r with
    | true => rfl
    | false => exact h
  | _ => trivial

namespace AoState

variable {Tid : Type*} [DecidableEq Tid]

/-- The operation does not touch the flag while that of another thread is told by it. -/
def Apart (s : AoState Tid) : (o : AoOp) → AoRes o → Prop
  | .aoHowInit, _ => ∀ t, ∀ id ∈ (s.threads t).own, id ∉ s.delivered
  | .libxl _, true => s.complete = false
  | .libxl _, false => True
  | .objLock, _ | .objUnlock, _ | .aoHowWait, _ | .rest, _ => True

/-- **The calls are accepted**: every creation, and every call with its `ao_how`. -/
def Accepts (s : AoState Tid) : AoAct Tid → Prop
  | .call t ω => ∀ x ∈ (s.threads t).left.advance ω, x.1.1.Accepted s.aoHow x.1.2
  | .begin _ _ | .waitEnter _ | .waitReturn _ | .event _ => True

/-- **The operations keep out of each other's way**: none starts over a completion that has not
been seen, and none completes while another one lacks its completion. -/
def KeepsApart (s : AoState Tid) : AoAct Tid → Prop
  | .call t ω => ∀ x ∈ (s.threads t).left.advance ω, s.Apart x.1.1 x.1.2
  | .event id => ∀ t, ∀ id' ∈ (s.threads t).own, id' ≠ id → id' ∈ s.delivered
  | .begin _ _ | .waitEnter _ | .waitReturn _ => True

def Orderly (s : AoState Tid) (a : AoAct Tid) : Prop :=
  s.Accepts a ∧ s.KeepsApart a

section Decidable

variable [Fintype Tid]

instance (s : AoState Tid) : (o : AoOp) → (r : AoRes o) → Decidable (s.Apart o r)
  | .aoHowInit, _ => inferInstanceAs (Decidable (∀ t, ∀ id ∈ (s.threads t).own, _))
  | .libxl _, true => inferInstanceAs (Decidable (_ = _))
  | .libxl _, false => .isTrue trivial
  | .objLock, _ | .objUnlock, _ | .aoHowWait, _ | .rest, _ => .isTrue trivial

instance (s : AoState Tid) : (a : AoAct Tid) → Decidable (s.Orderly a)
  | .call t ω => inferInstanceAs (Decidable
      ((∀ x ∈ (s.threads t).left.advance ω, _) ∧ ∀ x ∈ (s.threads t).left.advance ω, _))
  | .event _ => inferInstanceAs (Decidable (True ∧ ∀ t, ∀ id' ∈ (s.threads t).own, _ → _))
  | .begin _ _ | .waitEnter _ | .waitReturn _ => .isTrue ⟨trivial, trivial⟩

end Decidable

end AoState

/-! ### A thread -/

namespace AoThread

/-- Follows whether an operation has been accepted; a wait has to come after that. -/
def monitor : Monitor AoRes Bool where
  next
    | _, .libxl _, accepted => accepted
    | _, .aoHowWait, _ => false
    | b, .objLock, _ | b, .objUnlock, _ | b, .aoHowInit, _ | b, .rest, _ => b
  ok
    | b, .aoHowWait => b = true
    | _, .objLock | _, .objUnlock | _, .aoHowInit | _, .libxl _ | _, .rest => True

/-- With `accepted` for whether an operation is on its way, the program enters `ao_how_wait`
only after an accepted call, as long as the calls are accepted that have to be. -/
def Waits (accepted : Bool) (p : AoCode Int) : Prop :=
  p.wpOn (fun _ o r => o.Accepted true r) monitor (fun _ _ => True) (fun _ => True) accepted

/-- **Every call waits only for what was accepted**, as long as the creations are. The save and
the reaping look at the answer before they wait, `libxlVmStart` after it. -/
theorem waits_code (c : AoEntry) (accepted : Bool) : Waits accepted c.code := by
  cases c <;>
    simp [Waits, AoEntry.code, AoEntry.body, Ao.vmStart, Ao.vmStart.error, Ao.doDomainSave,
      Ao.vmReap, Ao.doDomainDestroy, monitor, AoOp.Accepted, AoFunction.creates]

/-- A program that is at its wait has an operation on its way, and none after it. -/
theorem Waits.of_atWait {accepted : Bool} {p left : AoCode Int} (h : Waits accepted p)
    (hp : atWait p = some left) : accepted = true ∧ Waits false left := by
  unfold atWait at hp
  split at hp
  · obtain rfl := Option.some.inj hp
    exact ⟨h.1, h.2 () trivial⟩
  · cases hp

end AoThread

namespace AoState

variable {Tid : Type*} [DecidableEq Tid]

/-! ### Orderly runs -/

/-- What holds while all is orderly. The first two clauses are about the program of a thread
and its wait, the next two about the numbers of the operations; the fifth is that the flag of
the domain belongs to every operation that is waited for. -/
structure Inv (s : AoState Tid) : Prop where
  waits : ∀ t, AoThread.Waits (s.threads t).own.isSome (s.threads t).left
  waiting : ∀ t, (s.threads t).waiting = true → (atWait (s.threads t).left).isSome = true
  own : ∀ t, ∀ id ∈ (s.threads t).own, id < s.started
  delivered : ∀ id ∈ s.delivered, id < s.started
  flag : ∀ t, ∀ id ∈ (s.threads t).own, s.complete = true ↔ id ∈ s.delivered
  early : s.early = false

variable {s s' : AoState Tid} {t : Tid}

omit [DecidableEq Tid] in
/-- It holds when nobody has made a call. -/
theorem Inv.start : (start : AoState Tid).Inv where
  waits _ := trivial
  waiting _ h := nomatch h
  own _ _ h := nomatch h
  delivered _ h := absurd h (Finset.notMem_empty _)
  flag _ _ h := nomatch h
  early := rfl

omit [DecidableEq Tid] in
/-- A thread that is at a wait has an operation to wait for. -/
theorem Inv.own_of_atWait (h : s.Inv) (hwait : (atWait (s.threads t).left).isSome = true) :
    ∃ id, (s.threads t).own = some id := by
  obtain ⟨left, hleft⟩ := Option.isSome_iff_exists.mp hwait
  exact Option.isSome_iff_exists.mp ((h.waits t).of_atWait hleft).1

omit [DecidableEq Tid] in
/-- **The invariant gives the soundness of the waits.** -/
theorem Inv.sound (h : s.Inv) : s.Sound where
  accepted t ht := by
    obtain ⟨id, hid⟩ := h.own_of_atWait (h.waiting t ht)
    rw [hid]
    exact nofun
  flag := h.flag
  early := h.early

omit [DecidableEq Tid] in
/-- A thread that is not at a wait is in none. -/
theorem Inv.not_waiting (h : s.Inv) (hat : atWait (s.threads t).left = none) :
    (s.threads t).waiting = false := by
  by_contra hw
  have hwait := h.waiting t (Bool.eq_true_of_not_eq_false hw)
  rw [hat] at hwait
  cases hwait

/-- A thread that is done is not at a wait. -/
theorem atWait_of_result {p : AoCode Int} (h : p.result.isSome = true) : atWait p = none := by
  cases p with
  | ret a => rfl
  | _ => cases h

/-- Nor is one that makes another operation. -/
theorem atWait_of_made {p left : AoCode Int} {ω : (o : AoOp) → AoRes o} {e : Event AoRes}
    (hadv : p.advance ω = some (e, left)) (hmade : s.made t left e.1 e.2 = some s') :
    atWait p = none := by
  cases p with
  | call o k =>
    obtain ⟨rfl, rfl⟩ : (⟨o, ω o⟩ : Event AoRes) = e ∧ k (ω o) = left := by
      simpa [Prog.advance] using hadv
    cases o with
    | aoHowWait => cases hmade
    | _ => rfl
  | _ => cases hadv

/-- A thread that goes on changes itself only. -/
theorem goOn_threads (s : AoState Tid) (t u : Tid) (th : AoThread) :
    (s.goOn t th).threads u = if u = t then th else s.threads u :=
  Function.update_apply _ _ _ _

/-- **A step of one thread** keeps the invariant, if the thread itself is well off and the flag
still tells what the others want to know. -/
theorem Inv.of_thread {th : AoThread} (h : s.Inv)
    (hthreads : s'.threads = (s.goOn t th).threads) (hdelivered : s'.delivered = s.delivered)
    (hstarted : s.started ≤ s'.started) (hearly : s'.early = false)
    (hwaits : AoThread.Waits th.own.isSome th.left)
    (hwaiting : th.waiting = true → (atWait th.left).isSome = true)
    (hown : ∀ id ∈ th.own, id < s'.started ∧ (s'.complete = true ↔ id ∈ s.delivered))
    (hothers : ∀ u, u ≠ t → ∀ id ∈ (s.threads u).own, s'.complete = true ↔ id ∈ s.delivered) :
    s'.Inv where
  waits u := by
    rw [hthreads, goOn_threads]
    split_ifs
    · exact hwaits
    · exact h.waits u
  waiting u := by
    rw [hthreads, goOn_threads]
    split_ifs
    · exact hwaiting
    · exact h.waiting u
  own u := by
    rw [hthreads, goOn_threads]
    split_ifs
    · exact fun id hid => (hown id hid).1
    · exact fun id hid => Nat.lt_of_lt_of_le (h.own u id hid) hstarted
  delivered id hid := by
    rw [hdelivered] at hid
    exact Nat.lt_of_lt_of_le (h.delivered id hid) hstarted
  flag u := by
    rw [hthreads, goOn_threads, hdelivered]
    split_ifs with hu
    · exact fun id hid => (hown id hid).2
    · exact hothers u hu
  early := hearly

/-- The thread goes on, and nothing else changes that matters. -/
theorem Inv.of_left {left : AoCode Int} (h : s.Inv)
    (hthreads : s'.threads = (s.goOn t { s.threads t with left := left }).threads)
    (hdelivered : s'.delivered = s.delivered) (hstarted : s'.started = s.started)
    (hearly : s'.early = s.early)
    (hcomplete : ∀ u, ∀ id ∈ (s.threads u).own, s'.complete = true ↔ id ∈ s.delivered)
    (hwaits : AoThread.Waits (s.threads t).own.isSome left)
    (hwaiting : (s.threads t).waiting = false) : s'.Inv := by
  refine h.of_thread hthreads hdelivered hstarted.ge (hearly.trans h.early) hwaits ?_ ?_
    fun u _ => hcomplete u
  · intro hw
    rw [hwaiting] at hw
    cases hw
  · intro id hid
    rw [hstarted]
    exact ⟨h.own t id hid, hcomplete t id hid⟩

/-- **An operation of a thread.** The flag is cleared or an operation started only where no
other one still needs the flag as it is. -/
theorem Inv.made {left : AoCode Int} {o : AoOp} {r : AoRes o} (h : s.Inv)
    (hs : s.made t left o r = some s') (hwaiting : (s.threads t).waiting = false)
    (hwaits : AoThread.Waits (AoThread.monitor.next (s.threads t).own.isSome o r) left)
    (haccepted : o.Accepted s.aoHow r) (hapart : s.Apart o r) : s'.Inv := by
  cases o with
  | objLock =>
    rw [AoState.made] at hs
    split_ifs at hs
    obtain rfl := Option.some.inj hs
    exact h.of_left rfl rfl rfl rfl h.flag hwaits hwaiting
  | objUnlock =>
    obtain rfl := Option.some.inj hs
    exact h.of_left rfl rfl rfl rfl h.flag hwaits hwaiting
  | rest =>
    obtain rfl := Option.some.inj hs
    exact h.of_left rfl rfl rfl rfl h.flag hwaits hwaiting
  | aoHowInit =>
    obtain rfl := Option.some.inj hs
    refine h.of_left rfl rfl rfl rfl (fun u id hid => ?_) hwaits hwaiting
    -- the flag is cleared where no completion is waiting to be seen
    exact iff_of_false Bool.false_ne_true (hapart u id hid)
  | aoHowWait => cases hs
  | libxl f =>
    have hnot : (s.threads t).waiting = true → False := by
      rw [hwaiting]
      exact nofun
    cases r with
    | true =>
      rw [AoState.made, if_pos (show s.aoHow = true from haccepted)] at hs
      obtain rfl := Option.some.inj hs
      refine h.of_thread rfl rfl (Nat.le_succ _) h.early hwaits (fun hw => (hnot hw).elim) ?_
        fun u _ => h.flag u
      rintro id hid
      obtain rfl := Option.some.inj hid
      refine ⟨Nat.lt_succ_self _, iff_of_false ?_ fun hmem => ?_⟩
      · exact Bool.not_eq_true _ |>.mpr hapart
      · exact Nat.lt_irrefl _ (h.delivered _ hmem)
    | false =>
      obtain rfl := Option.some.inj hs
      exact h.of_thread rfl rfl (Nat.le_refl _) h.early hwaits (fun hw => (hnot hw).elim) nofun
        fun u _ => h.flag u

omit [DecidableEq Tid] in
/-- **A completion event** sets the flag for all who wait. That is right where the others have
had theirs. -/
theorem Inv.event {id : ℕ} (h : s.Inv) (hid : id < s.started)
    (hapart : ∀ t, ∀ id' ∈ (s.threads t).own, id' ≠ id → id' ∈ s.delivered) :
    ({ s with complete := true, delivered := insert id s.delivered } : AoState Tid).Inv where
  waits := h.waits
  waiting := h.waiting
  own := h.own
  delivered id' hid' := by
    rcases Finset.mem_insert.mp hid' with rfl | hold
    · exact hid
    · exact h.delivered id' hold
  flag t id' hid' := by
    refine iff_of_true rfl (Finset.mem_insert.mpr ?_)
    by_cases heq : id' = id
    · exact .inl heq
    · exact .inr (hapart t id' hid' heq)
  early := h.early

omit [DecidableEq Tid] in
/-- A wait that ends has seen the event of its own operation. -/
theorem Inv.ownDelivered (h : s.Inv) (hwait : (atWait (s.threads t).left).isSome = true)
    (hcomplete : s.complete = true) : s.ownDelivered t = true := by
  obtain ⟨id, hid⟩ := h.own_of_atWait hwait
  rw [AoState.ownDelivered, hid]
  exact decide_eq_true ((h.flag t id hid).mp hcomplete)

/-- **An orderly step keeps the invariant.** -/
theorem Inv.step {a : AoAct Tid} (h : s.Inv) (hC : s.Orderly a) (hs : s.step a = some s') :
    s'.Inv := by
  cases a with
  | begin t c =>
    rw [AoState.step] at hs
    split_ifs at hs with hret
    obtain rfl := Option.some.inj hs
    exact h.of_left rfl rfl rfl rfl h.flag (AoThread.waits_code c _)
      (h.not_waiting (atWait_of_result hret))
  | call t ω =>
    obtain ⟨⟨e, left⟩, hadv, hmade⟩ := Option.bind_eq_some_iff.mp hs
    have haccepted := hC.1 _ hadv
    obtain ⟨-, hrest⟩ := Prog.wpOn_advance (h.waits t) hadv haccepted.of_aoHow
    exact h.made hmade (h.not_waiting (atWait_of_made hadv hmade)) hrest haccepted (hC.2 _ hadv)
  | waitEnter t =>
    rw [AoState.step] at hs
    split_ifs at hs with henabled
    obtain rfl := Option.some.inj hs
    exact h.of_thread rfl rfl (Nat.le_refl _) h.early (h.waits t) (fun _ => henabled.2)
      (fun id hid => ⟨h.own t id hid, h.flag t id hid⟩) fun u _ => h.flag u
  | waitReturn t =>
    obtain ⟨left, hleft, hstep⟩ := Option.bind_eq_some_iff.mp hs
    split_ifs at hstep with henabled
    obtain rfl := Option.some.inj hstep
    refine h.of_thread rfl rfl (Nat.le_refl _) ?_ ((h.waits t).of_atWait hleft).2 nofun nofun
      fun u _ => h.flag u
    have hown := h.ownDelivered (by rw [hleft]; rfl) henabled.2.2
    simp [hown, h.early]
  | event id =>
    rw [AoState.step] at hs
    split_ifs at hs with hnew
    obtain rfl := Option.some.inj hs
    exact h.event hnew.1 hC.2

/-- It holds in every state of an orderly run. -/
theorem inv_of_orderly (h : ReachVia step Initial Orderly s) : s.Inv :=
  h.invariant (by rintro _ rfl; exact Inv.start) fun _ _ _ hs hC hstep => hs.step hC hstep

/-- **The waits are sound** in every run in which the calls are accepted and the operations
keep out of each other's way: a thread waits only for an operation that was accepted, the flag
tells whether its own event has come, and no wait ends before that. Any number of threads may
work on the domain, and the events may come at any time. -/
theorem sound_of_orderly (h : ReachVia step Initial Orderly s) : s.Sound :=
  (inv_of_orderly h).sound

/-- **No less will do.** Where everything has been sound and the calls are accepted, a step
leaves the waits sound only if the operations keep out of each other's way. -/
theorem keepsApart_of_sound {a : AoAct Tid} (h : s.Inv) (hC : s.Accepts a)
    (hs : s.step a = some s') (h' : s'.Sound) : s.KeepsApart a := by
  cases a with
  | call t ω =>
    rintro ⟨⟨o, r⟩, left⟩ hadv
    have hmade : s.made t left o r = some s' := by
      obtain ⟨⟨e, left'⟩, hadv', hmade⟩ := Option.bind_eq_some_iff.mp hs
      obtain ⟨rfl, rfl⟩ := Prod.mk.inj (Option.some.inj (hadv'.symm.trans hadv))
      exact hmade
    cases o with
    | aoHowInit =>
      obtain rfl := Option.some.inj hmade
      intro u id hid hmem
      refine Bool.false_ne_true ((h'.flag u id ?_).mpr hmem)
      dsimp only
      rw [goOn_threads]
      split_ifs with hu
      · exact hu ▸ hid
      · exact hid
    | libxl f =>
      cases r with
      | true =>
        rw [made, if_pos (show s.aoHow = true from hC _ hadv)] at hmade
        obtain rfl := Option.some.inj hmade
        refine Bool.eq_false_of_not_eq_true fun hcomplete => ?_
        refine Nat.lt_irrefl _ (h.delivered _ ((h'.flag t s.started ?_).mp hcomplete))
        dsimp only
        rw [goOn_threads, if_pos rfl]
        rfl
      | false => trivial
    | _ => trivial
  | event id =>
    rw [step] at hs
    split_ifs at hs
    obtain rfl := Option.some.inj hs
    intro t id' hid' hne
    exact Finset.mem_of_mem_insert_of_ne ((h'.flag t id' hid').mp rfl) hne
  | begin t c => trivial
  | waitEnter t => trivial
  | waitReturn t => trivial

/-! ### Two threads -/

/-- The answers where nothing fails. -/
def accepting : (o : AoOp) → AoRes o
  | .objLock | .objUnlock | .aoHowWait => ()
  | .aoHowInit | .libxl _ | .rest => true

/-- The answers where libxenlight refuses. -/
def refusing : (o : AoOp) → AoRes o
  | .libxl _ => false
  | o => accepting o

/-- A call as far as its first wait, with `n` operations before it. -/
def asFarAsWait (t : Bool) (c : AoEntry) (n : ℕ) (ω : (o : AoOp) → AoRes o) :
    List (AoAct Bool) :=
  .begin t c :: List.replicate n (.call t ω) ++ [.waitEnter t]

/-- The save to its end, and then the destruction. -/
def saveThenDestroy : List (AoAct Bool) := List.flatten
  [ asFarAsWait false .save 5 accepting, [.event 0, .waitReturn false],
    List.replicate 2 (.call false accepting), [.waitEnter false, .event 1, .waitReturn false],
    List.replicate 2 (.call false accepting), asFarAsWait true .destroy 4 accepting,
    [.event 2, .waitReturn true], List.replicate 2 (.call true accepting) ]

/-- The destruction while the save waits, up to the return of the save's wait. -/
def destroyInBetween : List (AoAct Bool) := List.flatten
  [ asFarAsWait false .save 5 accepting, asFarAsWait true .destroy 4 accepting,
    [.event 1, .waitReturn false] ]

/-- The domain is saved, and then somebody tries to destroy it. -/
theorem sound_of_orderly_save : ∃ s : AoState Bool, ReachVia step Initial Orderly s ∧
    s.started = 3 ∧ s.lock = none ∧ s.Sound := by
  have hrun : (exec (restrict step Orderly) start saveThenDestroy).map
      (fun s => (s.started, s.lock)) = some (3, none) := by
    decide
  obtain ⟨s, hs, hend⟩ := Option.map_eq_some_iff.mp hrun
  obtain ⟨hstarted, hlock⟩ := Prod.mk.inj hend
  have hreach := (ReachVia.start initial_start).of_exec hs
  exact ⟨s, hreach, hstarted, hlock, sound_of_orderly hreach⟩

/-- **The wrong event.** A save waits and somebody destroys the domain: the event of the
destruction ends the wait of the save, whose own event has not come. -/
theorem save_ends_early : ∃ s : AoState Bool, Reach step Initial s ∧ s.early = true ∧
    s.delivered = {1} ∧ ¬s.Sound := by
  have hrun : (exec step start destroyInBetween).map (fun s => (s.early, s.delivered)) =
      some (true, {1}) := by
    decide
  obtain ⟨s, hs, hend⟩ := Option.map_eq_some_iff.mp hrun
  obtain ⟨hearly, hdelivered⟩ := Prod.mk.inj hend
  have hreach : Reach step Initial s := (Reach.start initial_start).of_exec hs
  refine ⟨s, hreach, hearly, hdelivered, fun h => ?_⟩
  rw [h.early] at hearly
  cases hearly

/-- **Nothing to wait for.** A creation that libxenlight has refused is waited for. -/
theorem refused_create_waits : ∃ s : AoState Bool, Reach step Initial s ∧
    (s.threads false).waiting = true ∧ (s.threads false).own = none ∧ ¬s.Sound := by
  have hrun : (exec step start (asFarAsWait false .create 5 refusing)).map
      (fun s => ((s.threads false).waiting, (s.threads false).own)) = some (true, none) := by
    decide
  obtain ⟨s, hs, hend⟩ := Option.map_eq_some_iff.mp hrun
  obtain ⟨hwaiting, hown⟩ := Prod.mk.inj hend
  have hreach : Reach step Initial s := (Reach.start initial_start).of_exec hs
  exact ⟨s, hreach, hwaiting, hown, fun h => h.accepted false hwaiting hown⟩

end AoState

end Libxl

end OpenLog
