import Mathlib.Data.Set.Basic
import OpenLog.Text.Directory

/-!
# Files with links

A name leads to an inode, where the content of the file is, or it is a symbolic link to another
name. So two names can be of one file, and what is written under the one is read under the other;
and a command that is given a link can read or write a file of another name. The commands are
those of `OpenLog.Text.Directory`, `none` where the command fails.

## Plain names

Names that are no links, and whose files have no further names
(`OpenLog.Text.Files.Plain`), can be taken for those of a directory, in which each name has its
own content (`OpenLog.Text.Files.view`). A command on such names does to the view what the
command of the same name does to a directory, and it leaves all other entries alone
(`OpenLog.Text.Files.Keeps`).
-/

namespace OpenLog

namespace Text

/-- What a name is the name of. -/
inductive Entry (ν : Type*)
  | file (inode : ℕ)
  | link (target : ν)
  deriving DecidableEq

/-- Entries by their names, and the contents of the files. Inodes are given out in order, so that
a new file gets one that no name has. -/
structure Files (ν α : Type*) where
  entry : ν → Option (Entry ν)
  content : ℕ → List α
  fresh : ℕ
  inode_lt : ∀ {n i}, entry n = some (.file i) → i < fresh

namespace Files

variable {ν α : Type*} {fs fs' fs'' : Files ν α} {N M : Set ν} {a b m n : ν} {c : List α}

/-- The name at the end of a chain of at most `k` names, each but the last a link to the next. -/
def follow (fs : Files ν α) : ℕ → ν → Option ν
  | 0, _ => none
  | k + 1, n =>
    match fs.entry n with
    | some (.link target) => fs.follow k target
    | _ => some n

/-- The name that a path leads to. After forty links the system gives up. -/
def resolve (fs : Files ν α) (n : ν) : Option ν := fs.follow 41 n

/-- The inode of the file that a path leads to. -/
def node (fs : Files ν α) (n : ν) : Option ℕ :=
  match (fs.resolve n).bind fs.entry with
  | some (.file i) => some i
  | _ => none

def read (fs : Files ν α) (n : ν) : Option (List α) := (fs.node n).map fs.content

/-- `[ -f ]`. -/
def isFile (fs : Files ν α) (n : ν) : Bool := (fs.read n).isSome

/-- The content of a file is written, under whatever names it has. -/
def write (fs : Files ν α) (i : ℕ) (c : List α) : Files ν α :=
  { fs with content := Function.update fs.content i c }

section Commands

variable [DecidableEq ν]

/-- A new file. -/
def create (fs : Files ν α) (n : ν) (c : List α) : Files ν α where
  entry := Function.update fs.entry n (some (.file fs.fresh))
  content := Function.update fs.content fs.fresh c
  fresh := fs.fresh + 1
  inode_lt {m i} h := by
    rw [Function.update_apply] at h
    split_ifs at h
    · cases h
      exact Nat.lt_succ_self _
    · exact Nat.lt_succ_of_lt (fs.inode_lt h)

/-- A file is written, as with `>`: through links, and a new one where they end nowhere. -/
def put (fs : Files ν α) (n : ν) (c : List α) : Option (Files ν α) :=
  (fs.resolve n).map fun m =>
    match fs.entry m with
    | some (.file i) => fs.write i c
    | _ => fs.create m c

/-- A file is written to at its end, as with `>>`. -/
def append (fs : Files ν α) (n : ν) (c : List α) : Option (Files ν α) :=
  fs.put n ((fs.read n).getD [] ++ c)

/-- `rm -f`. A link is deleted, not the file that it leads to. -/
def erase (fs : Files ν α) (n : ν) : Files ν α where
  entry := Function.update fs.entry n none
  content := fs.content
  fresh := fs.fresh
  inode_lt {m i} h := by
    rw [Function.update_apply] at h
    split_ifs at h
    exact fs.inode_lt h

/-- `rm`. -/
def rm (fs : Files ν α) (n : ν) : Option (Files ν α) := (fs.entry n).map fun _ => fs.erase n

/-- `cp`. It does not copy a file to itself, and not through a link that ends nowhere. -/
def cp (fs : Files ν α) (a b : ν) : Option (Files ν α) :=
  (fs.read a).bind fun c =>
    if fs.node b = fs.node a then none
    else if fs.node b = none ∧ fs.entry b ≠ none then none
    else fs.put b c

/-- An entry gets another name, and what had that name before loses it. -/
def rename (fs : Files ν α) (a b : ν) : Files ν α where
  entry := Function.update (Function.update fs.entry b (fs.entry a)) a none
  content := fs.content
  fresh := fs.fresh
  inode_lt {m i} h := by
    simp only [Function.update_apply] at h
    split_ifs at h
    · exact fs.inode_lt h
    · exact fs.inode_lt h

/-- `mv`, between two names. It does not move a file to itself, nor to another name of it. -/
def mv (fs : Files ν α) (a b : ν) : Option (Files ν α) :=
  match fs.entry a with
  | none => none
  | some (.file i) =>
    if a = b ∨ fs.entry b = some (.file i) then none else some (fs.rename a b)
  | some (.link _) => if a = b then none else some (fs.rename a b)

/-- A new file takes the name that it is given, whatever had it before. -/
theorem entry_create (fs : Files ν α) (n m : ν) (c : List α) :
    (fs.create n c).entry m = if m = n then some (.file fs.fresh) else fs.entry m :=
  Function.update_apply _ _ _ _

/-- An entry that is erased is gone, and no other. -/
theorem entry_erase (fs : Files ν α) (n m : ν) :
    (fs.erase n).entry m = if m = n then none else fs.entry m :=
  Function.update_apply _ _ _ _

/-- An entry that gets another name is gone under its own, and what had the other name is gone
with it. -/
theorem entry_rename (fs : Files ν α) (a b m : ν) :
    (fs.rename a b).entry m = if m = a then none else if m = b then fs.entry a else fs.entry m := by
  simp only [rename, Function.update_apply]

end Commands

/-! ### Plain names -/

/-- The files by their names, where links are passed over. -/
def view (fs : Files ν α) : Dir ν α := fun n =>
  match fs.entry n with
  | some (.file i) => some (fs.content i)
  | _ => none

/-- A name is shown in the view where it is the name of a file, not of a link. -/
theorem view_eq_some :
    fs.view n = some c ↔ ∃ i, fs.entry n = some (.file i) ∧ fs.content i = c := by
  rw [view]
  split
  · rename_i i hentry
    simp [hentry]
  · rename_i hentry
    constructor
    · intro h
      cases h
    · rintro ⟨i, hi, -⟩
      exact absurd hi (hentry i)

/-- Names that are no links, and whose files have no other names. -/
structure Plain (fs : Files ν α) (N : Set ν) : Prop where
  no_link : ∀ n ∈ N, ∀ t, fs.entry n ≠ some (.link t)
  alone : ∀ n ∈ N, ∀ m i, fs.entry n = some (.file i) → fs.entry m = some (.file i) → m = n

namespace Plain

/-- Some of the names are as plain as all. -/
theorem mono (h : fs.Plain N) (hsub : M ⊆ N) : fs.Plain M :=
  ⟨fun n hn => h.no_link n (hsub hn), fun n hn => h.alone n (hsub hn)⟩

/-- A plain name is the name of a file or of nothing. -/
theorem entry_eq (h : fs.Plain N) (hn : n ∈ N) :
    fs.entry n = none ∨ ∃ i, fs.entry n = some (.file i) := by
  cases hentry : fs.entry n with
  | none => exact .inl rfl
  | some e =>
    cases e with
    | file i => exact .inr ⟨i, rfl⟩
    | link t => exact absurd hentry (h.no_link n hn t)

/-- So it is not shown exactly if there is no entry. -/
theorem view_eq_none (h : fs.Plain N) (hn : n ∈ N) : fs.view n = none ↔ fs.entry n = none := by
  rw [view]
  rcases h.entry_eq hn with hentry | ⟨i, hentry⟩ <;> simp [hentry]

end Plain

/-- A name that is no link leads to itself. -/
theorem resolve_eq (h : ∀ t, fs.entry n ≠ some (.link t)) : fs.resolve n = some n := by
  rw [resolve, follow]
  split
  · rename_i t hentry
    exact absurd hentry (h t)
  · rfl

/-- What is read under a name is what the view shows at the end of its links. -/
theorem read_eq_bind (fs : Files ν α) (n : ν) : fs.read n = (fs.resolve n).bind fs.view := by
  rw [read, node]
  cases fs.resolve n with
  | none => rfl
  | some m =>
    rw [Option.bind_some, Option.bind_some, view]
    split <;> rfl

/-- The same links lead to the same names. -/
theorem follow_congr (h : ∀ n t, fs'.entry n = some (.link t) ↔ fs.entry n = some (.link t))
    (k : ℕ) (n : ν) : fs'.follow k n = fs.follow k n := by
  induction k generalizing n with
  | zero => rfl
  | succ k ih =>
    rw [follow, follow]
    by_cases hlink : ∃ t, fs.entry n = some (.link t)
    · obtain ⟨t, ht⟩ := hlink
      rw [ht, (h n t).mpr ht]
      exact ih t
    · split
      · rename_i t ht
        exact absurd ⟨t, (h n t).mp ht⟩ hlink
      · split
        · rename_i t ht
          exact absurd ⟨t, ht⟩ hlink
        · rfl

/-- Under a name that is no link it is what the view shows. -/
theorem read_eq_view (h : ∀ t, fs.entry n ≠ some (.link t)) : fs.read n = fs.view n := by
  rw [read_eq_bind, resolve_eq h, Option.bind_some]

/-- The commands leave the names of a set plain, and the entries of all other names alone. -/
structure Keeps (N : Set ν) (fs fs' : Files ν α) : Prop where
  plain : fs'.Plain N
  frame : ∀ n ∉ N, fs'.entry n = fs.entry n

namespace Keeps

/-- Nothing has been done. -/
theorem refl (h : fs.Plain N) : Keeps N fs fs := ⟨h, fun _ _ => rfl⟩

/-- One command after the other keeps to the names that both keep to. -/
theorem trans (h : Keeps N fs fs') (h' : Keeps N fs' fs'') : Keeps N fs fs'' :=
  ⟨h'.plain, fun n hn => (h'.frame n hn).trans (h.frame n hn)⟩

/-- Links are neither made nor deleted. -/
theorem link_iff (h : Keeps N fs fs') (hplain : fs.Plain N) {t : ν} :
    fs'.entry n = some (.link t) ↔ fs.entry n = some (.link t) := by
  by_cases hn : n ∈ N
  · exact iff_of_false (h.plain.no_link n hn t) (hplain.no_link n hn t)
  · rw [h.frame n hn]

/-- Names that are plain stay so while others are worked on. -/
theorem plain_of_plain (h : Keeps N fs fs') (hplain : fs.Plain N) (hM : fs.Plain M) :
    fs'.Plain M := by
  constructor
  · intro n hn t hlink
    exact hM.no_link n hn t ((h.link_iff hplain).mp hlink)
  · intro n hn m i hni hmi
    by_cases hnN : n ∈ N
    · exact h.plain.alone n hnN m i hni hmi
    · by_cases hmN : m ∈ N
      · exact (h.plain.alone m hmN n i hmi hni).symm
      · rw [h.frame n hnN] at hni
        rw [h.frame m hmN] at hmi
        exact hM.alone n hn m i hni hmi

end Keeps

/-- Under a plain name it is what the view shows. -/
theorem Plain.read_eq (h : fs.Plain N) (hn : n ∈ N) : fs.read n = fs.view n :=
  read_eq_view (h.no_link n hn)

section Views

variable [DecidableEq ν]

/-- A new file is the only one with its inode. -/
theorem Plain.keeps_create (h : fs.Plain N) (hn : n ∈ N) : Keeps N fs (fs.create n c) := by
  have hfresh : ∀ m, fs.entry m ≠ some (.file fs.fresh) := fun m hm =>
    absurd (fs.inode_lt hm) (Nat.lt_irrefl _)
  refine ⟨⟨fun k hk t => ?_, fun k hk m i hki hmi => ?_⟩, fun m hm => ?_⟩
  · rw [entry_create]
    split_ifs
    · exact fun hlink => by cases hlink
    · exact h.no_link k hk t
  · rw [entry_create] at hki hmi
    split_ifs at hki hmi with hkn hmn hmn
    · rw [hkn, hmn]
    · cases hki
      exact absurd hmi (hfresh m)
    · cases hmi
      exact absurd hki (hfresh k)
    · exact h.alone k hk m i hki hmi
  · rw [entry_create, if_neg]
    rintro rfl
    exact hm hn

/-- A new file is shown in the view, with its content. -/
theorem view_create (fs : Files ν α) (n : ν) (c : List α) :
    (fs.create n c).view = fs.view.put n c := by
  funext m
  rw [Dir.put_apply, view, entry_create]
  by_cases hm : m = n
  · simp [create, hm]
  · rw [if_neg hm, if_neg hm, view]
    cases hentry : fs.entry m with
    | none => rfl
    | some e =>
      cases e with
      | file i =>
        exact congrArg some (Function.update_of_ne (Nat.ne_of_lt (fs.inode_lt hentry)) _ _)
      | link t => rfl

/-- What is written to a file with one name is read under no other. -/
theorem Plain.view_write {i : ℕ} (h : fs.Plain N) (hn : n ∈ N)
    (hentry : fs.entry n = some (.file i)) : (fs.write i c).view = fs.view.put n c := by
  funext m
  rw [Dir.put_apply, view, view]
  by_cases hm : m = n
  · simp [write, hm, hentry]
  · rw [if_neg hm]
    change (match fs.entry m with
      | some (.file j) => some (Function.update fs.content i c j)
      | _ => none) = _
    cases hm' : fs.entry m with
    | none => rfl
    | some e =>
      cases e with
      | file j =>
        refine congrArg some (Function.update_of_ne ?_ _ _)
        rintro rfl
        exact hm (h.alone n hn m j hentry hm')
      | link t => rfl

/-- **A write to a plain name** changes the view as it does a directory, and no entry of
another name. -/
theorem Plain.view_put (h : fs.Plain N) (hn : n ∈ N) (hput : fs.put n c = some fs') :
    fs'.view = fs.view.put n c ∧ Keeps N fs fs' := by
  rw [put, resolve_eq (h.no_link n hn), Option.map_some, Option.some.injEq] at hput
  rcases h.entry_eq hn with hentry | ⟨i, hentry⟩
  · obtain rfl : fs.create n c = fs' := by simpa only [hentry] using hput
    exact ⟨view_create fs n c, h.keeps_create hn⟩
  · obtain rfl : fs.write i c = fs' := by simpa only [hentry] using hput
    exact ⟨h.view_write hn hentry, ⟨h.no_link, h.alone⟩, fun m hm => rfl⟩

/-- So does a write to its end. -/
theorem Plain.view_append (h : fs.Plain N) (hn : n ∈ N) (happend : fs.append n c = some fs') :
    fs'.view = fs.view.append n c ∧ Keeps N fs fs' := by
  rw [append, h.read_eq hn] at happend
  exact h.view_put hn happend

/-- An entry that is erased is not shown any longer. -/
theorem view_erase (fs : Files ν α) (n : ν) : (fs.erase n).view = fs.view.erase n := by
  funext m
  rw [Dir.erase_apply, view, view, entry_erase]
  by_cases hm : m = n
  · rw [if_pos hm, if_pos hm]
  · rw [if_neg hm, if_neg hm]
    rfl

/-- Nor does erasing a plain name change another entry. -/
theorem Plain.keeps_erase (h : fs.Plain N) (hn : n ∈ N) : Keeps N fs (fs.erase n) := by
  have hsome : ∀ {m : ν} {e : Entry ν}, (fs.erase n).entry m = some e → fs.entry m = some e := by
    intro m e he
    rw [entry_erase] at he
    split_ifs at he
    exact he
  refine ⟨⟨fun k hk t hlink => ?_, fun k hk m i hki hmi => ?_⟩, fun m hm => ?_⟩
  · exact h.no_link k hk t (hsome hlink)
  · exact h.alone k hk m i (hsome hki) (hsome hmi)
  · rw [entry_erase, if_neg]
    rintro rfl
    exact hm hn

/-- **`rm` of a plain name** does to the view what it does to a directory. -/
theorem Plain.view_rm (h : fs.Plain N) (hn : n ∈ N) (hrm : fs.rm n = some fs') :
    fs.view.rm n = some fs'.view ∧ Keeps N fs fs' := by
  obtain ⟨e, hentry, rfl⟩ := Option.map_eq_some_iff.mp hrm
  refine ⟨Dir.rm_eq_some.mpr ⟨?_, (view_erase fs n).symm⟩, h.keeps_erase hn⟩
  rw [Option.isSome_iff_ne_none, Ne, h.view_eq_none hn, hentry]
  exact Option.some_ne_none e

/-- **`cp` between plain names** does to the view what it does to a directory. It is refused
where the two names are the same, since otherwise they are of different files. -/
theorem Plain.view_cp (h : fs.Plain N) (ha : a ∈ N) (hb : b ∈ N) (hcp : fs.cp a b = some fs') :
    fs.view.cp a b = some fs'.view ∧ Keeps N fs fs' := by
  obtain ⟨c, hread, hcp⟩ := Option.bind_eq_some_iff.mp hcp
  split_ifs at hcp
  rw [h.read_eq ha] at hread
  obtain ⟨hview, hkeeps⟩ := h.view_put hb hcp
  exact ⟨Dir.cp_eq_some.mpr ⟨c, hread, hview.symm⟩, hkeeps⟩

/-- The file that is moved keeps its inode. -/
theorem Plain.view_mv (h : fs.Plain N) (ha : a ∈ N) (hb : b ∈ N) (hmv : fs.mv a b = some fs') :
    fs.view.mv a b = some fs'.view ∧ Keeps N fs fs' := by
  rcases h.entry_eq ha with hentry | ⟨i, hentry⟩
  · rw [mv, hentry] at hmv
    cases hmv
  rw [mv, hentry] at hmv
  dsimp only at hmv
  split_ifs at hmv with hsame
  obtain rfl := Option.some.inj hmv
  refine ⟨Dir.mv_eq_some.mpr ⟨fs.content i, view_eq_some.mpr ⟨i, hentry, rfl⟩, ?_⟩,
    ⟨fun k hk t => ?_, fun k hk m j hkj hmj => ?_⟩, fun m hm => ?_⟩
  · funext m
    rw [Dir.erase_apply, Dir.put_apply, view, view, entry_rename, hentry]
    split_ifs <;> rfl
  · rw [entry_rename, hentry]
    split_ifs
    · exact fun hlink => by cases hlink
    · exact fun hlink => by cases hlink
    · exact h.no_link k hk t
  · rw [entry_rename, hentry] at hkj hmj
    split_ifs at hkj hmj with hka hkb hma hmb hma hmb
    · rw [hkb, hmb]
    · cases hkj
      exact absurd (h.alone a ha m i hentry hmj) hma
    · cases hmj
      exact absurd (h.alone a ha k i hentry hkj) hka
    · exact h.alone k hk m j hkj hmj
  · rw [entry_rename, if_neg, if_neg]
    · rintro rfl
      exact hm hb
    · rintro rfl
      exact hm ha

end Views

end Files

end Text

end OpenLog
