import Mathlib.Data.List.Perm.Basic
import Mathlib.Data.List.Range

/-!
# Names that are used again

A pool of names (`OpenLog.Logic.Pool`): one that is idle is handed out again, and a new one is
made where none is. `OpenLog.Logic.Pool.Uses` says of a list of names that they are those in use,
each of them once; no name is made that the names in use at the time do not call for
(`OpenLog.Logic.Pool.Uses.made_alloc_le`).
-/

namespace OpenLog

namespace Logic

/-- The number of names that were made, and those that are idle, the next one first. -/
structure Pool where
  made : ℕ
  idle : List ℕ
  deriving DecidableEq, Repr

namespace Pool

def empty : Pool := ⟨0, []⟩

/-- A name, and the pool without it. -/
def alloc (p : Pool) : ℕ × Pool :=
  match p.idle with
  | n :: idle => (n, ⟨p.made, idle⟩)
  | [] => (p.made, ⟨p.made + 1, []⟩)

def release (p : Pool) (n : ℕ) : Pool := ⟨p.made, n :: p.idle⟩

/-- Each name that was made is idle or in use, and there is no other. -/
def Uses (p : Pool) (used : List ℕ) : Prop := (p.idle ++ used).Perm (List.range p.made)

variable {p : Pool} {used used' : List ℕ} {n m : ℕ}

/-- Nothing was made and nothing is in use. -/
theorem uses_empty : empty.Uses [] := List.Perm.refl _

/-- The order of the names in use does not matter. -/
theorem Uses.perm (h : p.Uses used) (hperm : used.Perm used') : p.Uses used' :=
  (hperm.symm.append_left p.idle).trans h

/-- **A name is handed out.** -/
theorem Uses.alloc (h : p.Uses used) : p.alloc.2.Uses (p.alloc.1 :: used) := by
  obtain ⟨made, - | ⟨n, idle⟩⟩ := p
  · have hused : used.Perm (List.range made) := h
    show (made :: used).Perm (List.range (made + 1))
    rw [List.range_succ]
    exact (hused.cons made).trans (List.perm_append_singleton _ _).symm
  · exact List.perm_middle.trans h

/-- **A name is given back.** -/
theorem Uses.release (h : p.Uses (n :: used)) : (p.release n).Uses used :=
  List.perm_middle.symm.trans h

/-- A name that is idle is not in use, and none is there twice. -/
theorem Uses.nodup_append (h : p.Uses used) : (p.idle ++ used).Nodup :=
  h.nodup_iff.mpr List.nodup_range

/-- No name is in use twice. -/
theorem Uses.nodup (h : p.Uses used) : used.Nodup :=
  (List.nodup_append.mp h.nodup_append).2.1

/-- The name that is handed out is not in use. -/
theorem Uses.alloc_notMem (h : p.Uses used) : p.alloc.1 ∉ used :=
  (List.nodup_cons.mp h.alloc.nodup).1

/-- Every name that was made is idle or in use. -/
theorem Uses.made_eq (h : p.Uses used) : p.made = p.idle.length + used.length := by
  simpa using h.length_eq.symm

/-- **None is made without need**: with fewer than `m` names in use, `m` are enough. -/
theorem Uses.made_alloc_le (h : p.Uses used) (hmade : p.made ≤ m) (hused : used.length < m) :
    p.alloc.2.made ≤ m := by
  have heq := h.made_eq
  obtain ⟨made, - | ⟨n, idle⟩⟩ := p
  · show made + 1 ≤ m
    simp only [List.length_nil] at heq
    omega
  · exact hmade

end Pool

end Logic

end OpenLog
