import OpenLog.FindKeyword.Scan
import OpenLog.Text.Adjacent

/-!
# The merge loop of `fileOutput`

`fileOutput` reads the line numbers of the hits and those of the date lines and writes a script
that prints the segments with hits: from a date line to the next one. The two files are merged
by nested loops that keep the last date line read. `readLineNum` is taken as returning the
numbers one by one and then `-1`, which is the end of a list here.

Of sorted files, a segment is written if and only if a hit lies strictly inside it and none on
its first line (`OpenLog.LogAssistant.mem_mergeLoop`).
-/

namespace OpenLog

namespace LogAssistant

open Text FindKeyword

/-! ### The two loops -/

/-- A segment: `lastSegLineNum` and `currentSegLineNum` when it is written. -/
abbrev Segment := ℕ × ℕ

/-- The inner loop: the segments written for a key, and `lastSegLineNum` and what is left of
the seg file after it. -/
def searchSeg (currentKeywordLineNum lastSegLineNum : ℕ) :
    List ℕ → List Segment × ℕ × List ℕ
  | [] => ([], lastSegLineNum, [])
  | currentSegLineNum :: segs =>
    if currentKeywordLineNum < lastSegLineNum then ([], lastSegLineNum, currentSegLineNum :: segs)
    else if currentKeywordLineNum < currentSegLineNum ∧ currentKeywordLineNum > lastSegLineNum then
      ([(lastSegLineNum, currentSegLineNum)], currentSegLineNum, segs)
    else searchSeg currentKeywordLineNum currentSegLineNum segs

/-- The outer loop. -/
def mergeLoop (lastSegLineNum : ℕ) (segs : List ℕ) : List ℕ → List Segment
  | [] => []
  | currentKeywordLineNum :: keys =>
    let (written, lastSegLineNum', segs') := searchSeg currentKeywordLineNum lastSegLineNum segs
    written ++ mergeLoop lastSegLineNum' segs' keys

/-! ### The script -/

/-- A command of the script that is written. -/
inductive Command
  /-- `echo` with a text. -/
  | echo (text : Line)
  /-- `head -n head $1 | tail -n tail`. -/
  | headTail (head tail : ℕ)
  deriving DecidableEq

/-- The commands for a segment. -/
def Segment.commands (seg : Segment) : List Command :=
  [.echo "start at".toList, .headTail seg.2 (seg.2 - seg.1 + 1),
    .echo "This segment end".toList, .echo []]

/-- `main`, with the numbers in the two files: the script, or `none` where the seg file has no
number and `main` leaves with an error. -/
def fileOutput (keywordFilename : Line) (keys : List ℕ) : List ℕ → Option (List Command)
  | [] => none
  | lastSegLineNum :: segs =>
    some (.echo ("result in ".toList ++ keywordFilename) ::
      (mergeLoop lastSegLineNum segs keys).flatMap Segment.commands)

/-- `tail -n k`. -/
def tail {α : Type*} (k : ℕ) (l : List α) : List α := l.drop (l.length - k)

/-- What a command prints of the file. -/
def Command.prints {α : Type*} (file : List α) : Command → List α
  | .echo _ => []
  | .headTail head k => tail k (file.take head)

/-! ### The segments written -/

variable {key last : ℕ} {keys segs : List ℕ} {seg : Segment}

/-- The next number either ends the search for a key or is left behind. -/
theorem searchSeg_cons (cur : ℕ) : searchSeg key last (cur :: segs) =
    if key < last then ([], last, cur :: segs)
    else if key < cur ∧ key > last then ([(last, cur)], cur, segs)
    else searchSeg key cur segs := rfl

theorem searchSeg_adjacent (h : seg ∈ (searchSeg key last segs).1) :
    Adjacent (last :: segs) seg.1 seg.2 ∧ seg.1 < key ∧ key < seg.2 := by
  induction segs generalizing last with
  | nil => cases h
  | cons cur segs ih =>
    rw [searchSeg_cons] at h
    split_ifs at h with hbefore hinside
    · cases h
    · obtain rfl := List.mem_singleton.mp h
      exact ⟨adjacent_cons_cons.mpr (.inl ⟨rfl, rfl⟩), hinside.2, hinside.1⟩
    · obtain ⟨hadj, hkey⟩ := ih h
      exact ⟨adjacent_cons_cons.mpr (.inr hadj), hkey⟩

/-- What the search leaves is the end of what it found. -/
theorem searchSeg_suffix (key last : ℕ) (segs : List ℕ) :
    (searchSeg key last segs).2.1 :: (searchSeg key last segs).2.2 <:+ last :: segs := by
  induction segs generalizing last with
  | nil => exact List.suffix_refl _
  | cons cur segs ih =>
    rw [searchSeg_cons]
    split_ifs
    · exact List.suffix_refl _
    · exact List.suffix_cons _ _
    · exact (ih cur).trans (List.suffix_cons _ _)

/-- A segment with the key inside is found. -/
theorem mem_searchSeg {a b : ℕ} (hsorted : (last :: segs).Pairwise (· ≤ ·))
    (h : Adjacent (last :: segs) a b) (ha : a < key) (hb : key < b) :
    (a, b) ∈ (searchSeg key last segs).1 := by
  induction segs generalizing last with
  | nil => exact absurd h not_adjacent_singleton
  | cons cur segs ih =>
    have hlast : last ≤ a := by
      rcases List.mem_cons.mp h.mem_left with rfl | hmem
      · exact Nat.le_refl _
      · exact (List.pairwise_cons.mp hsorted).1 a hmem
    rw [searchSeg_cons, if_neg (by omega)]
    rcases adjacent_cons_cons.mp h with ⟨rfl, rfl⟩ | hrest
    · rw [if_pos ⟨hb, ha⟩]
      exact List.mem_singleton_self _
    · have hcur : cur ≤ a := by
        rcases List.mem_cons.mp hrest.mem_left with rfl | hmem
        · exact Nat.le_refl _
        · exact (List.pairwise_cons.mp (List.pairwise_cons.mp hsorted).2).1 a hmem
      rw [if_neg (by omega)]
      exact ih (List.pairwise_cons.mp hsorted).2 hrest

/-- A key before a segment leaves the segment to be found. -/
theorem adjacent_searchSeg {a b : ℕ} (h : Adjacent (last :: segs) a b) (ha : key < a) :
    Adjacent ((searchSeg key last segs).2.1 :: (searchSeg key last segs).2.2) a b := by
  induction segs generalizing last with
  | nil => exact absurd h not_adjacent_singleton
  | cons cur segs ih =>
    rw [searchSeg_cons]
    split_ifs with hbefore hinside
    · exact h
    · rcases adjacent_cons_cons.mp h with ⟨rfl, rfl⟩ | hrest
      · omega
      · exact hrest
    · rcases adjacent_cons_cons.mp h with ⟨rfl, rfl⟩ | hrest
      · omega
      · exact ih hrest

/-- A search goes on up to a number after the key, if there is one. -/
theorem lt_searchSeg (key last : ℕ) (segs : List ℕ) :
    key < (searchSeg key last segs).2.1 ∨ (searchSeg key last segs).2.2 = [] := by
  induction segs generalizing last with
  | nil => exact .inr rfl
  | cons cur segs ih =>
    rw [searchSeg_cons]
    split_ifs with hbefore hinside
    · exact .inl hbefore
    · exact .inl hinside.1
    · exact ih cur

/-- What is left after a key begins after it. -/
theorem lt_of_adjacent_searchSeg {a b : ℕ} (hsorted : (last :: segs).Pairwise (· ≤ ·))
    (h : Adjacent ((searchSeg key last segs).2.1 :: (searchSeg key last segs).2.2) a b) :
    key < a := by
  have hleft := hsorted.sublist (searchSeg_suffix key last segs).sublist
  rcases lt_searchSeg key last segs with hlt | hend
  · rcases List.mem_cons.mp h.mem_left with rfl | hmem
    · exact hlt
    · exact Nat.lt_of_lt_of_le hlt ((List.pairwise_cons.mp hleft).1 a hmem)
  · rw [hend] at h
    exact absurd h not_adjacent_singleton

theorem mergeLoop_cons (key : ℕ) (keys : List ℕ) : mergeLoop last segs (key :: keys) =
    (searchSeg key last segs).1 ++
      mergeLoop (searchSeg key last segs).2.1 (searchSeg key last segs).2.2 keys := rfl

/-- **The segments of the script.** Of sorted files, a segment is written if and only if a key
lies strictly inside it and none on its first line. -/
theorem mem_mergeLoop (hsorted : (last :: segs).Pairwise (· ≤ ·))
    (hkeys : keys.Pairwise (· ≤ ·)) : seg ∈ mergeLoop last segs keys ↔
      Adjacent (last :: segs) seg.1 seg.2 ∧ (∃ key ∈ keys, seg.1 < key ∧ key < seg.2) ∧
        seg.1 ∉ keys := by
  induction keys generalizing last segs with
  | nil => simp [mergeLoop]
  | cons key keys ih =>
    obtain ⟨hkey, hkeys⟩ := List.pairwise_cons.mp hkeys
    have hleft := hsorted.sublist (searchSeg_suffix key last segs).sublist
    rw [mergeLoop_cons, List.mem_append, ih hleft hkeys]
    constructor
    · rintro (hfound | ⟨hadj, ⟨k, hk, hinside⟩, hnot⟩)
      · obtain ⟨hadj, hinside⟩ := searchSeg_adjacent hfound
        refine ⟨hadj, ⟨key, List.mem_cons_self, hinside⟩, fun hmem => ?_⟩
        rcases List.mem_cons.mp hmem with heq | hmem
        · omega
        · have hle := hkey _ hmem
          omega
      · have hlt := lt_of_adjacent_searchSeg hsorted hadj
        refine ⟨hadj.trans (searchSeg_suffix key last segs).isInfix,
          ⟨k, List.mem_cons_of_mem _ hk, hinside⟩, ?_⟩
        intro hmem
        rcases List.mem_cons.mp hmem with heq | hmem
        · omega
        · exact hnot hmem
    · rintro ⟨hadj, ⟨k, hk, hinside⟩, hnot⟩
      obtain ⟨hne, hnot⟩ := List.ne_and_not_mem_of_not_mem_cons hnot
      by_cases hlt : key < seg.1
      · refine .inr ⟨adjacent_searchSeg hadj hlt, ⟨k, ?_, hinside⟩, hnot⟩
        exact List.mem_of_ne_of_mem (by omega) hk
      · -- the first key that is not before the segment lies inside it
        refine .inl (mem_searchSeg hsorted hadj (by omega) ?_)
        rcases List.mem_cons.mp hk with rfl | hk
        · exact hinside.2
        · have hle := hkey k hk
          omega

/-! ### What the script prints -/

section Prints

variable {α : Type*} {file : List α} {a b n : ℕ} {x : α}

/-- The lines that a segment's command prints. -/
theorem tail_take (ha : 1 ≤ a) (hab : a ≤ b) (hb : b ≤ file.length) :
    tail (b - a + 1) (file.take b) = (file.take b).drop (a - 1) := by
  rw [tail, List.length_take, Nat.min_eq_left hb]
  congr 1
  omega

/-- **Head and tail.** The command of a segment prints the lines from `a` to `b`. -/
theorem mem_prints (ha : 1 ≤ a) (hab : a ≤ b) (hb : b ≤ file.length) :
    (n, x) ∈ (Command.headTail b (b - a + 1)).prints (numbered file) ↔
      (n, x) ∈ numbered file ∧ a ≤ n ∧ n ≤ b := by
  rw [Command.prints, tail_take ha hab ((length_numbered file).symm ▸ hb), List.mem_iff_getElem?,
    mem_numbered]
  constructor
  · rintro ⟨i, hi⟩
    rw [List.getElem?_drop, List.getElem?_take] at hi
    split_ifs at hi with hlt
    · rw [getElem?_numbered, Option.map_eq_some_iff] at hi
      obtain ⟨y, hy, heq⟩ := hi
      obtain ⟨rfl, rfl⟩ := Prod.mk.inj heq
      exact ⟨⟨_, rfl, hy⟩, by omega, by omega⟩
  · rintro ⟨⟨i, rfl, hi⟩, hai, hib⟩
    refine ⟨i - (a - 1), ?_⟩
    rw [List.getElem?_drop, List.getElem?_take, if_pos (by omega), getElem?_numbered,
      show a - 1 + (i - (a - 1)) = i by omega, hi]
    rfl

/-- Of the commands for a segment, one prints lines of the file. -/
theorem prints_commands (seg : Segment) : seg.commands.flatMap (Command.prints file) =
    (Command.headTail seg.2 (seg.2 - seg.1 + 1)).prints file := by
  simp [Segment.commands, Command.prints]

theorem prints_script (text : Line) (written : List Segment) :
    (Command.echo text :: written.flatMap Segment.commands).flatMap (Command.prints file) =
      written.flatMap fun seg => (Command.headTail seg.2 (seg.2 - seg.1 + 1)).prints file := by
  rw [List.flatMap_cons, List.flatMap_assoc, show (Command.echo text).prints file = [] from rfl,
    List.nil_append]
  simp only [prints_commands]

/-- **The script** prints the lines of the segments that are written. -/
theorem mem_script {keywordFilename : Line} (hpos : ∀ s ∈ last :: segs, 1 ≤ s)
    (hlength : ∀ s ∈ last :: segs, s ≤ file.length) (hsorted : (last :: segs).Pairwise (· ≤ ·))
    (hkeys : keys.Pairwise (· ≤ ·)) : (∃ commands ∈ fileOutput keywordFilename keys (last :: segs),
      (n, x) ∈ commands.flatMap (Command.prints (numbered file))) ↔ (n, x) ∈ numbered file ∧
        ∃ a b, Adjacent (last :: segs) a b ∧ (∃ key ∈ keys, a < key ∧ key < b) ∧ a ∉ keys ∧
          a ≤ n ∧ n ≤ b := by
  have hprints : (∃ commands ∈ fileOutput keywordFilename keys (last :: segs),
      (n, x) ∈ commands.flatMap (Command.prints (numbered file))) ↔
        ∃ seg ∈ mergeLoop last segs keys,
          (n, x) ∈ (Command.headTail seg.2 (seg.2 - seg.1 + 1)).prints (numbered file) := by
    simp only [fileOutput, Option.mem_def, Option.some.injEq, exists_eq_left', prints_script]
    exact List.mem_flatMap
  rw [hprints]
  constructor
  · rintro ⟨seg, hseg, hx⟩
    obtain ⟨hadj, ⟨key, hkey, hbefore, hafter⟩, hnot⟩ := (mem_mergeLoop hsorted hkeys).mp hseg
    obtain ⟨hmem, hn⟩ := (mem_prints (hpos _ hadj.mem_left) (by omega)
      (hlength _ hadj.mem_right)).mp hx
    exact ⟨hmem, seg.1, seg.2, hadj, ⟨key, hkey, hbefore, hafter⟩, hnot, hn⟩
  · rintro ⟨hmem, a, b, hadj, ⟨key, hkey, hbefore, hafter⟩, hnot, hn⟩
    exact ⟨(a, b), (mem_mergeLoop hsorted hkeys).mpr ⟨hadj, ⟨key, hkey, hbefore, hafter⟩, hnot⟩,
      (mem_prints (hpos _ hadj.mem_left) (by omega) (hlength _ hadj.mem_right)).mpr ⟨hmem, hn⟩⟩

end Prints

end LogAssistant

end OpenLog
