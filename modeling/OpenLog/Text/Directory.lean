import Mathlib.Data.Option.Basic
import Mathlib.Logic.Function.Basic
import Mathlib.Tactic.SplitIfs

/-!
# A directory of files

A directory gives each name the content of its file, `none` where there is no file. The commands
on files are functions on directories, `none` where the command fails. What a command does is
read off name by name (`OpenLog.Text.Dir.put_apply`, `OpenLog.Text.Dir.erase_apply`).
-/

namespace OpenLog

namespace Text

/-- Files, each a list of symbols, by their names. -/
abbrev Dir (ν α : Type*) : Type _ := ν → Option (List α)

namespace Dir

variable {ν α : Type*} [DecidableEq ν] {d d' : Dir ν α} {a b n : ν} {c : List α}

/-- A file is written, as with `>`. -/
def put (d : Dir ν α) (n : ν) (c : List α) : Dir ν α := Function.update d n (some c)

/-- A file is written to at its end, as with `>>`. -/
def append (d : Dir ν α) (n : ν) (c : List α) : Dir ν α := d.put n ((d n).getD [] ++ c)

/-- `rm -f`. -/
def erase (d : Dir ν α) (n : ν) : Dir ν α := Function.update d n none

/-- `rm`. -/
def rm (d : Dir ν α) (n : ν) : Option (Dir ν α) := (d n).map fun _ => d.erase n

/-- `cp`. -/
def cp (d : Dir ν α) (a b : ν) : Option (Dir ν α) := (d a).map fun c => d.put b c

/-- `mv`, between two names. -/
def mv (d : Dir ν α) (a b : ν) : Option (Dir ν α) := (d a).map fun c => (d.put b c).erase a

/-- What a name has after a file is written, -/
theorem put_apply (d : Dir ν α) (n m : ν) (c : List α) :
    d.put n c m = if m = n then some c else d m :=
  Function.update_apply _ _ _ _

/-- after it is written to at its end, -/
theorem append_apply (d : Dir ν α) (n m : ν) (c : List α) :
    d.append n c m = if m = n then some ((d n).getD [] ++ c) else d m :=
  Function.update_apply _ _ _ _

/-- and after it is removed: all other names keep what they have. -/
theorem erase_apply (d : Dir ν α) (n m : ν) : d.erase n m = if m = n then none else d m :=
  Function.update_apply _ _ _ _

/-- Of two writings the last counts. -/
theorem put_put (d : Dir ν α) (n : ν) (c c' : List α) : (d.put n c).put n c' = d.put n c' :=
  Function.update_idem _ _ _

/-- Of two writings at the end both do, in their order. -/
theorem append_append (d : Dir ν α) (n : ν) (c c' : List α) :
    (d.append n c).append n c' = d.append n (c ++ c') := by
  rw [append, append_apply, if_pos rfl, append, put_put, Option.getD_some, append,
    List.append_assoc]

/-- `rm` fails where there is no file, -/
theorem rm_eq_some : d.rm n = some d' ↔ (d n).isSome = true ∧ d.erase n = d' := by
  rw [rm, Option.map_eq_some_iff, Option.isSome_iff_exists]
  exact exists_and_right

/-- and so do `cp` -/
theorem cp_eq_some : d.cp a b = some d' ↔ ∃ c, d a = some c ∧ d.put b c = d' :=
  Option.map_eq_some_iff

/-- and `mv`. -/
theorem mv_eq_some : d.mv a b = some d' ↔ ∃ c, d a = some c ∧ (d.put b c).erase a = d' :=
  Option.map_eq_some_iff

/-- A file is moved out of the way if it is there. -/
def mvIf (d : Dir ν α) (a b : ν) : Option (Dir ν α) :=
  if (d a).isSome then d.mv a b else some d

/-- Moved or not, the file is not there under its old name. -/
theorem mvIf_apply (h : d.mvIf a b = some d') :
    d' a = none ∧ ∀ n, n ≠ a → n ≠ b → d' n = d n := by
  rw [mvIf] at h
  split_ifs at h with ha
  · obtain ⟨c, -, rfl⟩ := mv_eq_some.mp h
    refine ⟨by rw [erase_apply, if_pos rfl], fun n hna hnb => ?_⟩
    rw [erase_apply, if_neg hna, put_apply, if_neg hnb]
  · obtain rfl := Option.some.inj h
    exact ⟨Option.not_isSome_iff_eq_none.mp ha, fun _ _ _ => rfl⟩

end Dir

end Text

end OpenLog
