import Mathlib.Tactic.TypeStar

/-!
# Programs over operations

Straight-line code that calls operations and looks at their answers, with the operations left
uninterpreted. `OpenLog.Logic.Prog` is the type of such programs: an operation `o` is answered in
`Res o`, any answer may come, and a program may also crash. What a program has done is the list of
its calls with their answers (`OpenLog.Logic.Prog.Runs`).

## Monitors

Statements about all runs go through *monitors* (`OpenLog.Logic.Monitor`): a state that is updated
at every call, and a requirement that a call has to meet. The predicate transformer
`OpenLog.Logic.Prog.wp` says that a program meets the requirement at every call and reaches the
postcondition however it is answered; `OpenLog.Logic.Prog.wp_sound` reads it off on runs, and
`OpenLog.Logic.Prog.wp_advance` one call at a time, which is what a system of several programs
needs for its invariant.

A part that only calls operations a monitor does not look at is skipped with
`OpenLog.Logic.Prog.Calls.wp_bind`.

## Marked calls

A family of programs over the same operations, each call marked with the member it comes from, is
`OpenLog.Logic.Prog.tag`.
-/

namespace OpenLog

namespace Logic

variable {Op : Type} {Res : Op → Type} {α β γ : Type}

/-- Programs that call operations `o : Op` and are answered in `Res o`. -/
inductive Prog (Res : Op → Type) (α : Type) : Type where
  /-- Returns. -/
  | ret (a : α)
  /-- Calls an operation and goes on with its answer. -/
  | call (o : Op) (k : Res o → Prog Res α)
  /-- Crashes. -/
  | fault

namespace Prog

/-! ### Sequencing -/

/-- One program after another. -/
def bind : Prog Res α → (α → Prog Res β) → Prog Res β
  | ret a, f => f a
  | call o k, f => call o fun r => (k r).bind f
  | fault, _ => fault

instance : Monad (Prog Res) where
  pure := ret
  bind := bind

@[simp] theorem pure_eq (a : α) : (pure a : Prog Res α) = ret a := rfl

/-- A program that has returned goes on with what follows. -/
@[simp] theorem ret_bind (a : α) (f : α → Prog Res β) : ret a >>= f = f a := rfl

/-- A call comes first, and what follows it is put after its answer. -/
@[simp] theorem call_bind (o : Op) (k : Res o → Prog Res α) (f : α → Prog Res β) :
    call o k >>= f = call o fun r => k r >>= f := rfl

/-- Nothing follows a crash. -/
@[simp] theorem fault_bind (f : α → Prog Res β) : (fault : Prog Res α) >>= f = fault := rfl

@[simp] theorem ite_bind (c : Prop) [Decidable c] (p q : Prog Res α) (f : α → Prog Res β) :
    (if c then p else q) >>= f = if c then p >>= f else q >>= f := by
  split <;> rfl

/-- Returning what was returned changes nothing. -/
theorem bind_ret (p : Prog Res α) : p >>= ret = p := by
  induction p with
  | ret a => rfl
  | call o k ih => simp only [call_bind, ih]
  | fault => rfl

/-- Sequencing is associative, so that a program is a list of steps however its functions are
nested. -/
theorem bind_bind (p : Prog Res α) (f : α → Prog Res β) (g : β → Prog Res γ) :
    p >>= f >>= g = p >>= fun a => f a >>= g := by
  induction p with
  | ret a => rfl
  | call o k ih => simp only [call_bind, ih]
  | fault => rfl

instance : LawfulMonad (Prog Res) :=
  LawfulMonad.mk' (Prog Res) (fun p => bind_ret p) (fun _ _ => rfl) bind_bind

/-! ### Runs -/

end Prog

/-- A call and its answer. -/
abbrev Event (Res : Op → Type) : Type := (o : Op) × Res o

namespace Prog

/-- `p.Runs tr out`: the program can make the calls `tr` and then return, with
`out = some a`, or crash, with `out = none`. -/
inductive Runs : Prog Res α → List (Event Res) → Option α → Prop where
  | ret (a : α) : Runs (.ret a) [] (some a)
  | fault : Runs .fault [] none
  | call (o : Op) (k : Res o → Prog Res α) (r : Res o) {tr : List (Event Res)} {out : Option α}
      (h : Runs (k r) tr out) : Runs (.call o k) (⟨o, r⟩ :: tr) out

/-- The run in which every operation is answered the same way each time. -/
def eval (ω : (o : Op) → Res o) : Prog Res α → List (Event Res) × Option α
  | .ret a => ([], some a)
  | .fault => ([], none)
  | .call o k => (⟨o, ω o⟩ :: ((k (ω o)).eval ω).1, ((k (ω o)).eval ω).2)

/-- The run under given answers is a run. -/
theorem runs_eval (ω : (o : Op) → Res o) (p : Prog Res α) :
    p.Runs (p.eval ω).1 (p.eval ω).2 := by
  induction p with
  | ret a => exact Runs.ret a
  | call o k ih => exact Runs.call o k (ω o) (ih (ω o))
  | fault => exact Runs.fault

/-- What holds of all answers that are given holds of those in the run. -/
theorem forall_mem_eval {ω : (o : Op) → Res o} {A : (o : Op) → Res o → Prop}
    (hω : ∀ o, A o (ω o)) (p : Prog Res α) : ∀ e ∈ (p.eval ω).1, A e.1 e.2 := by
  induction p with
  | ret a => exact nofun
  | call o k ih => exact List.forall_mem_cons.mpr ⟨hω o, ih (ω o)⟩
  | fault => exact nofun

end Prog

/-! ### Monitors -/

/-- A state that follows the calls of a program, and what it requires of a call. -/
structure Monitor (Res : Op → Type) (σ : Type*) where
  next : σ → (o : Op) → Res o → σ
  ok : σ → Op → Prop

variable {σ : Type*} {M : Monitor Res σ} {s : σ}

/-- The state of a monitor after a list of calls. -/
def Monitor.run (M : Monitor Res σ) (s : σ) (tr : List (Event Res)) : σ :=
  tr.foldl (fun s e => M.next s e.1 e.2) s

/-- The monitor leaves an operation alone: it asks nothing of it, and stays as it is however the
operation is answered. -/
abbrev Monitor.Leaves (M : Monitor Res σ) (s : σ) (o : Op) : Prop :=
  M.ok s o ∧ ∀ r, M.next s o r = s

/-- The monitor does not look at the operations in `S`. -/
def Monitor.Ignores (M : Monitor Res σ) (S : Op → Prop) (s : σ) : Prop := ∀ o, S o → M.Leaves s o

@[simp] theorem Monitor.leaves_iff {o : Op} :
    M.Leaves s o ↔ M.ok s o ∧ ∀ r, M.next s o r = s := Iff.rfl

@[simp] theorem Monitor.run_nil : M.run s [] = s := rfl

@[simp] theorem Monitor.run_cons (e : Event Res) (tr : List (Event Res)) :
    M.run s (e :: tr) = M.run (M.next s e.1 e.2) tr := rfl

namespace Prog

/-- The weakest precondition: every call meets the requirement of the monitor, a
return reaches `Q` and a crash reaches `E`, whatever the answers are. -/
def wp (M : Monitor Res σ) : Prog Res α → (α → σ → Prop) → (σ → Prop) → σ → Prop
  | .ret a, Q, _, s => Q a s
  | .fault, _, E, s => E s
  | .call o k, Q, E, s => M.ok s o ∧ ∀ r, (k r).wp M Q E (M.next s o r)

variable {Q Q' : α → σ → Prop} {E E' : σ → Prop} {p : Prog Res α}

/-- A return has to satisfy the postcondition. -/
@[simp] theorem wp_ret (a : α) : (ret a : Prog Res α).wp M Q E s ↔ Q a s := Iff.rfl

/-- So has a crash, with a postcondition of its own. -/
@[simp] theorem wp_fault : (fault : Prog Res α).wp M Q E s ↔ E s := Iff.rfl

/-- A call has to be allowed, and what follows it right for every answer. -/
@[simp] theorem wp_call (o : Op) (k : Res o → Prog Res α) :
    (call o k).wp M Q E s ↔ M.ok s o ∧ ∀ r, (k r).wp M Q E (M.next s o r) := Iff.rfl

@[simp] theorem wp_ite {c : Prop} [Decidable c] {q : Prog Res α} :
    (if c then p else q).wp M Q E s ↔ if c then p.wp M Q E s else q.wp M Q E s := by
  split <;> rfl

/-- **Sequencing.** What follows a part is the postcondition of the part, and a crash of the
part is a crash of the whole. -/
theorem wp_bind {f : α → Prog Res β} {R : β → σ → Prop} :
    (p >>= f).wp M R E s ↔ p.wp M (fun a => (f a).wp M R E) E s := by
  induction p generalizing s with
  | ret a => rfl
  | call o k ih => simp only [call_bind, wp_call, ih]
  | fault => rfl

/-- **Consequence.** A postcondition may be weakened, that of a crash as well. -/
theorem wp_mono (hQ : ∀ a s, Q a s → Q' a s) (hE : ∀ s, E s → E' s) (h : p.wp M Q E s) :
    p.wp M Q' E' s := by
  induction p generalizing s with
  | ret a => exact hQ a s h
  | call o k ih => exact ⟨h.1, fun r => ih r (h.2 r)⟩
  | fault => exact hE s h

/-- **Runs of a program.** A run that starts in a state with the precondition ends in one that
satisfies the postcondition, the one for a crash where the program has crashed. The induction
is on the run; the precondition holds of what is left of the program at each of its calls. -/
theorem wp_sound {tr : List (Event Res)} {out : Option α} (h : p.wp M Q E s)
    (hr : p.Runs tr out) : (∀ a, out = some a → Q a (M.run s tr)) ∧
      (out = none → E (M.run s tr)) := by
  induction hr generalizing s with
  | ret a => exact ⟨fun b hb => Option.some.inj hb ▸ h, nofun⟩
  | fault => exact ⟨nofun, fun _ => h⟩
  | call o k r _ ih => exact ih (h.2 r)

/-! ### Call by call -/

/-- The next call of a program with its answer, and what is left of the program. -/
def advance (ω : (o : Op) → Res o) : Prog Res α → Option (Event Res × Prog Res α)
  | .call o k => some (⟨o, ω o⟩, k (ω o))
  | .ret _ | .fault => none

/-- The first `n` calls of a program that is answered the same way each time, and what is left of
it. -/
def advances (ω : (o : Op) → Res o) : Nat → Prog Res α → List (Event Res) × Prog Res α
  | n + 1, .call o k => (⟨o, ω o⟩ :: ((k (ω o)).advances ω n).1, ((k (ω o)).advances ω n).2)
  | _, p => ([], p)

/-- **One call.** What is left of a program keeps its precondition. -/
theorem wp_advance {ω : (o : Op) → Res o} {e : Event Res} {p' : Prog Res α}
    (h : p.wp M Q E s) (ha : p.advance ω = some (e, p')) :
    M.ok s e.1 ∧ p'.wp M Q E (M.next s e.1 e.2) := by
  cases p with
  | ret a => cases ha
  | fault => cases ha
  | call o k =>
    obtain ⟨rfl, rfl⟩ : (⟨o, ω o⟩ : Event Res) = e ∧ k (ω o) = p' := by simpa [advance] using ha
    exact ⟨h.1, h.2 (ω o)⟩

/-- A monitor that nothing moves is still where it was. -/
theorem wp_idle (hok : ∀ o, M.ok s o) (hnext : ∀ o r, M.next s o r = s) :
    p.wp M (fun _ s' => s' = s) (fun s' => s' = s) s := by
  induction p with
  | ret a => rfl
  | fault => rfl
  | call o k ih =>
    refine ⟨hok o, fun r => ?_⟩
    rw [hnext o r]
    exact ih r

/-! ### Parts that a monitor does not look at -/

/-- A program that does not crash and calls operations in `S` only. -/
def Calls (S : Op → Prop) : Prog Res α → Prop
  | .ret _ => True
  | .fault => False
  | .call o k => S o ∧ ∀ r, (k r).Calls S

variable {S : Op → Prop}

@[simp] theorem calls_ret (a : α) : (ret a : Prog Res α).Calls S := trivial

@[simp] theorem calls_ite {c : Prop} [Decidable c] {q : Prog Res α} :
    (if c then p else q).Calls S ↔ if c then p.Calls S else q.Calls S := by
  split <;> rfl

@[simp] theorem calls_call (o : Op) (k : Res o → Prog Res α) :
    (call o k).Calls S ↔ S o ∧ ∀ r, (k r).Calls S := Iff.rfl

/-- The program can return `a`. -/
def CanReturn (a : α) : Prog Res α → Prop
  | .ret b => b = a
  | .fault => False
  | .call _ k => ∃ r, (k r).CanReturn a

@[simp] theorem canReturn_ite {c : Prop} [Decidable c] {q : Prog Res α} {a : α} :
    (if c then p else q).CanReturn a ↔ if c then p.CanReturn a else q.CanReturn a := by
  split <;> rfl

@[simp] theorem canReturn_ret (a b : α) : (ret b : Prog Res α).CanReturn a ↔ b = a := Iff.rfl

/-- **Skipping a part.** Where its calls leave the monitor alone, all that matters of a part is
what it can return. The induction is on the part, and the state of the monitor is the same
throughout. -/
theorem Calls.wp_bind {f : α → Prog Res β} {R : β → σ → Prop} (hp : p.Calls S)
    (hS : M.Ignores S s) :
    (p >>= f).wp M R E s ↔ ∀ a, p.CanReturn a → (f a).wp M R E s := by
  induction p with
  | ret a => simp
  | call o k ih =>
    obtain ⟨hok, hnext⟩ := hS o hp.1
    simp only [call_bind, wp_call, hnext, hok, true_and]
    refine (forall_congr' fun r => ih r (hp.2 r)).trans ?_
    exact ⟨fun h a ⟨r, hr⟩ => h r a hr, fun h r a hr => h a ⟨r, hr⟩⟩
  | fault => exact hp.elim

/-! ### Marked calls -/

variable {ι : Type}

/-- The program with each call marked by `i`. -/
def tag (i : ι) : Prog Res α → Prog (fun o : ι × Op => Res o.2) α
  | .ret a => .ret a
  | .fault => .fault
  | .call o k => .call (i, o) fun r => (k r).tag i

/-- The program in a setting with more operations, among which `e` finds its own. -/
def embed {Op' : Type} {Res' : Op' → Type} (e : Op → Op') :
    Prog (fun o => Res' (e o)) α → Prog Res' α
  | .ret a => .ret a
  | .fault => .fault
  | .call o k => .call (e o) fun r => (k r).embed e

@[simp] theorem embed_ret {Op' : Type} {Res' : Op' → Type} (e : Op → Op') (a : α) :
    (ret a : Prog (fun o => Res' (e o)) α).embed e = ret a := rfl

@[simp] theorem embed_bind {Op' : Type} {Res' : Op' → Type} (e : Op → Op')
    (p : Prog (fun o => Res' (e o)) α) (f : α → Prog (fun o => Res' (e o)) β) :
    (p >>= f).embed e = p.embed e >>= fun a => (f a).embed e := by
  induction p with
  | ret a => rfl
  | call o k ih =>
    show Prog.call (e o) (fun r => (k r >>= f).embed e) = _
    simp only [ih]
    rfl
  | fault => rfl

/-- What a program that is over has returned. -/
def result : Prog Res α → Option α
  | .ret a => some a
  | .fault | .call _ _ => none

/-- A program has a result exactly if nothing is left of it but a return. -/
@[simp] theorem result_eq_some {p : Prog Res α} {a : α} : p.result = some a ↔ p = .ret a := by
  cases p <;> simp [result]

end Prog

/-- What a monitor sees of the operations that `e` finds among its own. -/
def Monitor.comap {Op' : Type} {Res' : Op' → Type} (M : Monitor Res' σ) (e : Op → Op') :
    Monitor (fun o => Res' (e o)) σ where
  next s o r := M.next s (e o) r
  ok s o := M.ok s (e o)

@[simp] theorem Monitor.comap_next {Op' : Type} {Res' : Op' → Type} (M : Monitor Res' σ)
    (e : Op → Op') : (M.comap e).next = fun s o r => M.next s (e o) r := rfl

@[simp] theorem Monitor.comap_ok {Op' : Type} {Res' : Op' → Type} (M : Monitor Res' σ)
    (e : Op → Op') : (M.comap e).ok = fun s o => M.ok s (e o) := rfl

/-- What a monitor of marked calls sees of the calls marked by `i`. -/
def Monitor.at {ι : Type} (M : Monitor (fun o : ι × Op => Res o.2) σ) (i : ι) :
    Monitor Res σ where
  next s o r := M.next s (i, o) r
  ok s o := M.ok s (i, o)

@[simp] theorem Monitor.at_next {ι : Type} (M : Monitor (fun o : ι × Op => Res o.2) σ) (i : ι) :
    (M.at i).next = fun s o r => M.next s (i, o) r := rfl

@[simp] theorem Monitor.at_ok {ι : Type} (M : Monitor (fun o : ι × Op => Res o.2) σ) (i : ι) :
    (M.at i).ok = fun s o => M.ok s (i, o) := rfl

end Logic

end OpenLog
