import Mathlib.Data.Finset.Basic
import Mathlib.Data.Fintype.EquivFin
import Mathlib.Data.Fintype.Lattice
import OpenLog.Logic.Assume
import OpenLog.Logic.Run

/-!
# Mutexes that are locked in order

Threads that lock and unlock mutexes, each of them a program whose operations come down to lists
of such actions (`OpenLog.Logic.Locking`). A thread that wants a mutex waits until it is free.

If every mutex has a rank, and no thread locks one unless all that it holds rank below it, then
there is no deadlock: in every state that is reached some thread can go on, unless all of them
are over or one has crashed (`OpenLog.Logic.Threads.no_deadlock`). That a thread keeps to the
order is looked at thread by thread, with a monitor that knows what the thread holds
(`OpenLog.Logic.Ranked`).
-/

namespace OpenLog

namespace Logic

variable {Op : Type} {Res : Op → Type} {α : Type} {ι L : Type*}

/-! ### Lists of actions -/

/-- What a thread does to a mutex. -/
inductive LockAct (L : Type*) where
  | lock (l : L)
  | unlock (l : L)

section

variable [DecidableEq L] {rank : L → ℕ} {h h' h'' : Finset L} {as bs : List (LockAct L)}

/-- A thread that holds `h` keeps to the order and holds `h'` in the end. -/
def Orderly (rank : L → ℕ) : Finset L → List (LockAct L) → Finset L → Prop
  | h, [], h' => h = h'
  | h, .lock l :: as, h' => (∀ k ∈ h, rank k < rank l) ∧ Orderly rank (insert l h) as h'
  | h, .unlock l :: as, h' => l ∈ h ∧ Orderly rank (h.erase l) as h'

@[simp] theorem orderly_nil : Orderly rank h [] h' ↔ h = h' := Iff.rfl

@[simp] theorem orderly_lock {l : L} : Orderly rank h (.lock l :: as) h' ↔
    (∀ k ∈ h, rank k < rank l) ∧ Orderly rank (insert l h) as h' := Iff.rfl

@[simp] theorem orderly_unlock {l : L} : Orderly rank h (.unlock l :: as) h' ↔
    l ∈ h ∧ Orderly rank (h.erase l) as h' := Iff.rfl

/-- One list after another. -/
theorem Orderly.append (has : Orderly rank h as h') (hbs : Orderly rank h' bs h'') :
    Orderly rank h (as ++ bs) h'' := by
  induction as generalizing h with
  | nil =>
    obtain rfl := orderly_nil.mp has
    exact hbs
  | cons a as ih =>
    rcases a with l | l
    · exact ⟨has.1, ih has.2⟩
    · exact ⟨has.1, ih has.2⟩

/-- A list that comes back to where it has started can be repeated. -/
theorem Orderly.replicate (has : Orderly rank h as h) (n : ℕ) :
    Orderly rank h (List.replicate n as).flatten h := by
  induction n with
  | zero => rfl
  | succ n ih =>
    rw [List.replicate_succ, List.flatten_cons]
    exact has.append ih

end

/-! ### Threads -/

/-- What the operations of each thread do to the mutexes: which answers they can come back with,
and what they do then, which may depend on a number that is left open. -/
structure Locking (Res : Op → Type) (ι L : Type*) where
  allowed : ι → (o : Op) → Res o → Bool
  acts : ι → (o : Op) → Res o → ℕ → List (LockAct L)

structure Threads (Res : Op → Type) (α : Type) (ι L : Type*) where
  owner : L → Option ι
  /-- What the last operation of a thread has still to do. -/
  todo : ι → List (LockAct L)
  code : ι → Prog Res α

inductive ThreadAct (Res : Op → Type) (ι : Type*) where
  /-- A thread calls its next operation. -/
  | call (i : ι) (ω : (o : Op) → Res o) (n : ℕ)
  /-- It goes on with what the operation does. -/
  | act (i : ι)

namespace Threads

variable [DecidableEq ι] [DecidableEq L] (K : Locking Res ι L)

/-- Threads that have not begun. -/
def start (code : ι → Prog Res α) : Threads Res α ι L := ⟨fun _ => none, fun _ => [], code⟩

def step (s : Threads Res α ι L) : ThreadAct Res ι → Option (Threads Res α ι L)
  | .call i ω n =>
    if (s.todo i).isEmpty then
      ((s.code i).advance ω).bind fun p =>
        if K.allowed i p.1.1 p.1.2 then
          some { s with
            todo := Function.update s.todo i (K.acts i p.1.1 p.1.2 n)
            code := Function.update s.code i p.2 }
        else none
    else none
  | .act i =>
    match s.todo i with
    | [] => none
    | .lock l :: as =>
      if s.owner l = none then
        some { s with
          owner := Function.update s.owner l (some i)
          todo := Function.update s.todo i as }
      else none
    | .unlock l :: as =>
      if s.owner l = some i then
        some { s with
          owner := Function.update s.owner l none
          todo := Function.update s.todo i as }
      else none

/-- A thread has returned. -/
def Over (s : Threads Res α ι L) (i : ι) : Prop := s.todo i = [] ∧ ∃ a, s.code i = .ret a

/-- A thread has crashed, and the others with it. -/
def Crashed (s : Threads Res α ι L) : Prop := ∃ i, s.todo i = [] ∧ s.code i = .fault

end Threads

/-! ### Threads that keep to the order -/

section Order

variable [DecidableEq L] {K : Locking Res ι L} {rank : L → ℕ} {σ : Type*}
variable {M : Monitor Res σ} {holds : ι → σ → Finset L} {s s' : Threads Res α ι L}

/-- A monitor that knows what a thread holds: the operations that it lets through keep to the
order. -/
structure Ranked (K : Locking Res ι L) (rank : L → ℕ) (M : Monitor Res σ)
    (holds : ι → σ → Finset L) : Prop where
  orderly : ∀ i g o r n, M.ok g o → K.allowed i o r = true →
    Orderly rank (holds i g) (K.acts i o r n) (holds i (M.next g o r))
  answered : ∀ i o, ∃ r, K.allowed i o r = true

/-- A program that the monitor lets through and that holds nothing in the end. -/
def Keeps (K : Locking Res ι L) (M : Monitor Res σ) (holds : ι → σ → Finset L) (i : ι) (g : σ)
    (p : Prog Res α) : Prop :=
  p.wpOn (fun _ o r => K.allowed i o r = true) M (fun _ g => holds i g = ∅) (fun _ => True) g

/-- What a thread has still to do fits what it holds: it keeps to the order, and so does its
program from there. -/
def Fits (K : Locking Res ι L) (rank : L → ℕ) (M : Monitor Res σ) (holds : ι → σ → Finset L)
    (owner : L → Option ι) (i : ι) (todo : List (LockAct L)) (p : Prog Res α) : Prop :=
  ∃ g h, (∀ l, owner l = some i ↔ l ∈ h) ∧ Orderly rank h todo (holds i g) ∧
    Keeps K M holds i g p

section Fits

variable {owner : L → Option ι} {i : ι} {l : L} {as : List (LockAct L)} {p p' : Prog Res α}

/-- The thread calls an operation. -/
theorem Fits.call (hK : Ranked K rank M holds) (h : Fits K rank M holds owner i [] p)
    {ω : (o : Op) → Res o} {e : Event Res} (n : ℕ) (hadv : p.advance ω = some (e, p'))
    (hallowed : K.allowed i e.1 e.2 = true) :
    Fits K rank M holds owner i (K.acts i e.1 e.2 n) p' := by
  obtain ⟨g, held, howner, horder, hkeeps⟩ := h
  obtain rfl := orderly_nil.mp horder
  obtain ⟨hok, hrest⟩ := Prog.wpOn_advance hkeeps hadv hallowed
  exact ⟨M.next g e.1 e.2, holds i g, howner, hK.orderly i g e.1 e.2 n hok hallowed, hrest⟩

/-- It locks a mutex. -/
theorem Fits.lock (h : Fits K rank M holds owner i (.lock l :: as) p) :
    Fits K rank M holds (Function.update owner l (some i)) i as p := by
  obtain ⟨g, held, howner, horder, hkeeps⟩ := h
  refine ⟨g, insert l held, fun k => ?_, horder.2, hkeeps⟩
  by_cases hk : k = l
  · simp [hk]
  · rw [Function.update_of_ne hk, howner k, Finset.mem_insert]
    exact ⟨Or.inr, fun hmem => hmem.resolve_left hk⟩

/-- It unlocks a mutex. -/
theorem Fits.unlock (h : Fits K rank M holds owner i (.unlock l :: as) p) :
    Fits K rank M holds (Function.update owner l none) i as p := by
  obtain ⟨g, held, howner, horder, hkeeps⟩ := h
  refine ⟨g, held.erase l, fun k => ?_, horder.2, hkeeps⟩
  by_cases hk : k = l
  · simp [hk]
  · rw [Function.update_of_ne hk, howner k, Finset.mem_erase]
    exact ⟨fun hmem => ⟨hk, hmem⟩, fun hmem => hmem.2⟩

/-- A mutex that it has nothing to do with changes hands. -/
theorem Fits.other (h : Fits K rank M holds owner i as p) {x : Option ι} (hl : owner l ≠ some i)
    (hx : x ≠ some i) : Fits K rank M holds (Function.update owner l x) i as p := by
  obtain ⟨g, held, howner, horder, hkeeps⟩ := h
  refine ⟨g, held, fun k => ?_, horder, hkeeps⟩
  by_cases hk : k = l
  · subst hk
    rw [Function.update_self, ← howner k]
    exact ⟨fun h => absurd h hx, fun h => absurd h hl⟩
  · rw [Function.update_of_ne hk]
    exact howner k

end Fits

namespace Threads

/-- Threads that have not begun, each with a program that keeps to the order. -/
def Initial (K : Locking Res ι L) (M : Monitor Res σ) (holds : ι → σ → Finset L)
    (s : Threads Res α ι L) : Prop :=
  ∃ code : ι → Prog Res α, s = start code ∧
    ∀ i, ∃ g, holds i g = ∅ ∧ Keeps K M holds i g (code i)

def Inv (K : Locking Res ι L) (rank : L → ℕ) (M : Monitor Res σ) (holds : ι → σ → Finset L)
    (s : Threads Res α ι L) : Prop :=
  ∀ i, Fits K rank M holds s.owner i (s.todo i) (s.code i)

theorem Inv.init (h : s.Initial K M holds) : s.Inv K rank M holds := by
  obtain ⟨code, rfl, hcode⟩ := h
  intro i
  obtain ⟨g, hg, hkeeps⟩ := hcode i
  exact ⟨g, ∅, fun l => by simp [start], hg.symm, hkeeps⟩

/-- A thread waits for a mutex that another one has. -/
def Waits (s : Threads Res α ι L) (i : ι) (l : L) : Prop :=
  (∃ as, s.todo i = .lock l :: as) ∧ ∃ j, s.owner l = some j

/-- A thread that waits holds only mutexes of lower rank. -/
theorem Inv.rank_lt (h : s.Inv K rank M holds) {i : ι} {l k : L} (hwaits : s.Waits i l)
    (hk : s.owner k = some i) : rank k < rank l := by
  obtain ⟨g, held, howner, horder, -⟩ := h i
  obtain ⟨⟨as, htodo⟩, -⟩ := hwaits
  rw [htodo] at horder
  exact horder.1 k ((howner k).mp hk)

/-- A thread that is over holds nothing. -/
theorem Inv.not_owner (h : s.Inv K rank M holds) {i : ι} (hover : s.Over i) (l : L) :
    s.owner l ≠ some i := by
  obtain ⟨g, held, howner, horder, hkeeps⟩ := h i
  obtain ⟨htodo, a, hcode⟩ := hover
  rw [htodo] at horder
  rw [hcode] at hkeeps
  have hnone : holds i g = ∅ := hkeeps
  intro hown
  have hmem := (howner l).mp hown
  rw [orderly_nil.mp horder, hnone] at hmem
  exact absurd hmem (Finset.notMem_empty l)

variable [DecidableEq ι]

theorem Inv.call (hK : Ranked K rank M holds) (h : s.Inv K rank M holds) {i : ι}
    {ω : (o : Op) → Res o} {n : ℕ} (hs : s.step K (.call i ω n) = some s') :
    s'.Inv K rank M holds := by
  simp only [step] at hs
  split_ifs at hs with htodo
  obtain ⟨⟨e, rest⟩, hadv, hs⟩ := Option.bind_eq_some_iff.mp hs
  split_ifs at hs with hallowed
  obtain rfl := Option.some.inj hs
  intro j
  by_cases hj : j = i
  · subst hj
    have hfits := h j
    rw [List.isEmpty_iff.mp htodo] at hfits
    simpa using hfits.call hK n hadv hallowed
  · simpa [Function.update_of_ne hj] using h j

theorem Inv.act (h : s.Inv K rank M holds) {i : ι} (hs : s.step K (.act i) = some s') :
    s'.Inv K rank M holds := by
  have hi := h i
  simp only [step] at hs
  rcases htodo : s.todo i with - | ⟨l | l, as⟩
  · simp [htodo] at hs
  · simp only [htodo] at hs
    rw [htodo] at hi
    split_ifs at hs with hfree
    obtain rfl := Option.some.inj hs
    intro j
    by_cases hj : j = i
    · subst hj
      simpa using hi.lock
    · have hown : some i ≠ some j := fun h => hj (Option.some.inj h).symm
      simpa [Function.update_of_ne hj] using (h j).other (by rw [hfree]; nofun) hown
  · simp only [htodo] at hs
    rw [htodo] at hi
    split_ifs at hs with hown
    obtain rfl := Option.some.inj hs
    intro j
    by_cases hj : j = i
    · subst hj
      simpa using hi.unlock
    · have hother : s.owner l ≠ some j := fun h => hj (Option.some.inj (hown.symm.trans h)).symm
      have hnone : (none : Option ι) ≠ some j := nofun
      simpa [Function.update_of_ne hj] using (h j).other hother hnone

theorem inv_of_reach (hK : Ranked K rank M holds)
    (h : Reach (step K) (Initial K M holds) s) : s.Inv K rank M holds := by
  refine h.invariant (fun _ => Inv.init) ?_
  rintro s (⟨i, ω, n⟩ | i) s' hinv hs
  · exact hinv.call hK hs
  · exact hinv.act hs

/-! ### No deadlock -/

/-- **What a thread can do**: it is over, it can go on, or it waits. -/
theorem Inv.goes_on (hK : Ranked K rank M holds) (h : s.Inv K rank M holds)
    (hcrash : ¬s.Crashed) (i : ι) :
    s.Over i ∨ (∃ a s', s.step K a = some s') ∨ ∃ l, s.Waits i l := by
  obtain ⟨g, held, howner, horder, -⟩ := h i
  rcases htodo : s.todo i with - | ⟨l | l, as⟩
  · rcases hcode : s.code i with a | ⟨o, k⟩ | -
    · exact Or.inl ⟨htodo, a, hcode⟩
    · -- some answers are allowed, one for each operation
      choose ω hω using hK.answered i
      exact Or.inr (Or.inl ⟨.call i ω 0, by simp [step, htodo, hcode, Prog.advance, hω]⟩)
    · exact absurd ⟨i, htodo, hcode⟩ hcrash
  · rcases hfree : s.owner l with - | j
    · exact Or.inr (Or.inl ⟨.act i, by simp [step, htodo, hfree]⟩)
    · exact Or.inr (Or.inr ⟨l, ⟨as, htodo⟩, j, hfree⟩)
  · rw [htodo] at horder
    have hown := (howner l).mpr horder.1
    exact Or.inr (Or.inl ⟨.act i, by simp [step, htodo, hown]⟩)

/-- **No deadlock.** Unless all threads are over, or one has crashed, some thread can go on: of
those that wait, the one that wants the mutex of the highest rank waits for a thread that does
not wait. -/
theorem no_deadlock [Finite ι] (hK : Ranked K rank M holds)
    (h : Reach (step K) (Initial K M holds) s) :
    s.Crashed ∨ (∀ i, s.Over i) ∨ ∃ a s', s.step K a = some s' := by
  have hinv := inv_of_reach hK h
  by_cases hcrash : s.Crashed
  · exact Or.inl hcrash
  refine Or.inr (or_iff_not_imp_left.mpr fun hunfinished => ?_)
  by_contra hstuck
  have hwaits (i : {i // ¬s.Over i}) : ∃ l, s.Waits i l :=
    ((hinv.goes_on hK hcrash i).resolve_left i.2).resolve_left hstuck
  choose l hl using hwaits
  obtain ⟨i₀, hi₀⟩ := not_forall.mp hunfinished
  have : Nonempty {i // ¬s.Over i} := ⟨i₀, hi₀⟩
  obtain ⟨i, hmax⟩ := Finite.exists_max fun i => rank (l i)
  obtain ⟨-, j, hj⟩ := hl i
  have hlt := hinv.rank_lt (hl ⟨j, fun hover => hinv.not_owner hover _ hj⟩) hj
  exact absurd (hmax _) (Nat.not_le_of_lt hlt)

end Threads

end Order

end Logic

end OpenLog
