import OpenLog.LogAssistant.FileOutput

/-!
# What the merge loop of `fileOutput` writes

Whatever the numbers in its two files, the merge loop writes segments in the order of the seg
file, none of them twice, and each for a key inside it
(`OpenLog.LogAssistant.segments_positions`). Of sorted files without a hit on a date line it
writes all the segments with a hit (`OpenLog.LogAssistant.script_eq`).

A hit on a date line is lost, and with it every hit of the segment that the date line opens: the
search for the next date line goes past it, and both comparisons of the loop are strict. So a
further hit can make a segment disappear (`OpenLog.LogAssistant.segments_mono_iff`).
-/

namespace OpenLog

namespace LogAssistant

open Text

variable {keys keys' seps segs : List ℕ} {key last : ℕ} {seg : Segment}

/-- The segments that `main` writes, from the numbers in its two files. -/
def segments (keys : List ℕ) : List ℕ → List Segment
  | [] => []
  | last :: segs => mergeLoop last segs keys

/-- The script of `main`: a line with the name of the file, and the commands of the segments.
-/
theorem fileOutput_eq_some {keywordFilename : FindKeyword.Line} {commands : List Command} :
    fileOutput keywordFilename keys seps = some commands ↔ seps ≠ [] ∧
      commands = .echo ("result in ".toList ++ keywordFilename) ::
        (segments keys seps).flatMap Segment.commands := by
  cases seps with
  | nil => simp [fileOutput]
  | cons last segs => simp [fileOutput, segments, eq_comm]

/-! ### Any numbers -/

/-- What is written for a key and what is left after it are adjacent pairs, in order. -/
theorem searchSeg_sublist (key last : ℕ) (segs : List ℕ) :
    ((searchSeg key last segs).1 ++
      neighbours ((searchSeg key last segs).2.1 :: (searchSeg key last segs).2.2)).Sublist
        (neighbours (last :: segs)) := by
  induction segs generalizing last with
  | nil => exact List.Sublist.refl _
  | cons cur segs ih =>
    rw [searchSeg_cons]
    split_ifs
    · exact List.Sublist.refl _
    · exact List.Sublist.refl _
    · exact (ih cur).cons (last, cur)

/-- The loop goes through the seg file once and writes some of the pairs that follow each other
in it, -/
theorem mergeLoop_sublist (last : ℕ) (segs keys : List ℕ) :
    (mergeLoop last segs keys).Sublist (neighbours (last :: segs)) := by
  induction keys generalizing last segs with
  | nil => exact List.nil_sublist _
  | cons key keys ih =>
    rw [mergeLoop_cons]
    exact ((ih _ _).append_left _).trans (searchSeg_sublist key last segs)

/-- and so does `main`. -/
theorem segments_sublist (keys seps : List ℕ) :
    (segments keys seps).Sublist (neighbours seps) := by
  cases seps with
  | nil => exact List.Sublist.refl _
  | cons last segs => exact mergeLoop_sublist last segs keys

/-- A segment is written for a key inside it. -/
theorem exists_key_of_mem_mergeLoop (h : seg ∈ mergeLoop last segs keys) :
    ∃ key ∈ keys, seg.1 < key ∧ key < seg.2 := by
  induction keys generalizing last segs with
  | nil => cases h
  | cons key keys ih =>
    rw [mergeLoop_cons, List.mem_append] at h
    rcases h with hfound | hrest
    · exact ⟨key, List.mem_cons_self, (searchSeg_adjacent hfound).2⟩
    · obtain ⟨k, hk, hinside⟩ := ih hrest
      exact ⟨k, List.mem_cons_of_mem _ hk, hinside⟩

/-- A pair is written for a key that is greater than its first entry and less than its second.
-/
theorem exists_key_of_mem_segments (h : seg ∈ segments keys seps) :
    ∃ key ∈ keys, seg.1 < key ∧ key < seg.2 := by
  cases seps with
  | nil => cases h
  | cons last segs => exact exists_key_of_mem_mergeLoop h

/-- What the command of a segment cuts out. -/
theorem headTail_mem_commands {head tail : ℕ} :
    .headTail head tail ∈ seg.commands ↔ head = seg.2 ∧ tail = seg.2 - seg.1 + 1 := by
  simp [Segment.commands]

/-- **The segments, whatever the numbers.** Neither file needs to be sorted, and both may have
repetitions. Each segment consists of an entry of the seg file and the next one, at positions
that go up from segment to segment; each has a key inside; and its command cuts at least three
lines off a head that is long enough. -/
theorem segments_positions (hpos : ∀ s ∈ seps, 1 ≤ s) :
    (∃ position : ℕ → ℕ, StrictMono position ∧ ∀ i seg, (segments keys seps)[i]? = some seg →
      seps[position i]? = some seg.1 ∧ seps[position i + 1]? = some seg.2) ∧
    (∀ seg ∈ segments keys seps, ∃ key ∈ keys, seg.1 < key ∧ key < seg.2) ∧
    ∀ keywordFilename, ∀ commands ∈ fileOutput keywordFilename keys seps, ∀ head tail,
      .headTail head tail ∈ commands → 3 ≤ tail ∧ tail ≤ head := by
  refine ⟨?_, fun seg => exists_key_of_mem_segments, ?_⟩
  · obtain ⟨f, hf⟩ := List.sublist_iff_exists_orderEmbedding_getElem?_eq.mp
      (segments_sublist keys seps)
    exact ⟨f, f.strictMono, fun i seg hi => getElem?_neighbours.mp ((hf i).symm.trans hi)⟩
  · intro keywordFilename commands hcommands head tail hmem
    obtain ⟨-, rfl⟩ := fileOutput_eq_some.mp hcommands
    obtain ⟨seg, hseg, hmem⟩ := List.mem_flatMap.mp ((List.mem_cons.mp hmem).resolve_left nofun)
    obtain ⟨rfl, rfl⟩ := headTail_mem_commands.mp hmem
    obtain ⟨key, -, hbefore, hafter⟩ := exists_key_of_mem_segments hseg
    have hfirst : 1 ≤ seg.1 :=
      hpos _ (mem_neighbours.mp ((segments_sublist keys seps).subset hseg)).mem_left
    omega

/-- Numbers in no order, with one that is read twice. -/
theorem segments_positions_unordered : ∃ position : ℕ → ℕ, StrictMono position ∧
    ∀ i seg, (segments [6, 3, 8] [7, 2, 5, 5, 9])[i]? = some seg →
      [7, 2, 5, 5, 9][position i]? = some seg.1 ∧
        [7, 2, 5, 5, 9][position i + 1]? = some seg.2 :=
  (segments_positions (by decide)).1

/-! ### Sorted numbers -/

/-- **Of sorted files** the segments are the pairs of neighbours with a key strictly inside and
none on the first of the two. -/
theorem mem_segments (hseps : seps.Pairwise (· ≤ ·)) (hkeys : keys.Pairwise (· ≤ ·)) :
    seg ∈ segments keys seps ↔ Adjacent seps seg.1 seg.2 ∧
      (∃ key ∈ keys, seg.1 < key ∧ key < seg.2) ∧ seg.1 ∉ keys := by
  cases seps with
  | nil => simp [segments, not_adjacent_nil]
  | cons last segs => exact mem_mergeLoop hseps hkeys

/-- The segments with a hit strictly inside, in the order of the seg file. -/
def hitSegments (keys seps : List ℕ) : List Segment :=
  (neighbours seps).filter fun seg => keys.any fun key => seg.1 < key && key < seg.2

/-- The pairs of neighbours that should be written. -/
theorem mem_hitSegments : seg ∈ hitSegments keys seps ↔
    Adjacent seps seg.1 seg.2 ∧ ∃ key ∈ keys, seg.1 < key ∧ key < seg.2 := by
  simp [hitSegments, mem_neighbours]

/-- The segments with a hit follow one another. -/
theorem hitSegments_pairwise (hseps : seps.Pairwise (· ≤ ·)) :
    (hitSegments keys seps).Pairwise fun x y => x.2 ≤ y.1 :=
  (neighbours_pairwise hseps).sublist List.filter_sublist

/-- None of them is there twice, though the seg file may have repetitions: between two equal
numbers there is no key. -/
theorem hitSegments_nodup (hseps : seps.Pairwise (· ≤ ·)) : (hitSegments keys seps).Nodup := by
  refine (hitSegments_pairwise hseps).imp_of_mem fun {x y} hx _ hxy heq => ?_
  obtain ⟨-, key, -, hbefore, hafter⟩ := mem_hitSegments.mp hx
  rw [← heq] at hxy
  omega

/-- Without a hit on a date line the loop writes the segments with a hit. -/
theorem segments_eq (hseps : seps.Pairwise (· ≤ ·)) (hkeys : keys.Pairwise (· ≤ ·))
    (hdisjoint : ∀ key ∈ keys, key ∉ seps) : segments keys seps = hitSegments keys seps := by
  have hsub : (segments keys seps).Sublist (hitSegments keys seps) := by
    have hfilter := (segments_sublist keys seps).filter
      fun seg => keys.any fun key => seg.1 < key && key < seg.2
    rwa [List.filter_eq_self.mpr fun seg hseg => by
      simpa using exists_key_of_mem_segments hseg] at hfilter
  refine hsub.eq_of_length_le (List.subperm_of_subset (hitSegments_nodup hseps) ?_).length_le
  intro seg hseg
  obtain ⟨hadj, hkey⟩ := mem_hitSegments.mp hseg
  exact (mem_segments hseps hkeys).mpr
    ⟨hadj, hkey, fun hmem => hdisjoint _ hmem hadj.mem_left⟩

/-- **The script.** Of sorted files without a hit on a date line, the commands are those of the
segments with a hit, one after the other; the segments do not overlap but for their ends; and
the command of a segment prints the lines from its first to its last of any file that has as
many. -/
theorem script_eq (hne : seps ≠ []) (hpos : ∀ s ∈ seps, 1 ≤ s) (hseps : seps.Pairwise (· ≤ ·))
    (hkeys : keys.Pairwise (· ≤ ·)) (hdisjoint : ∀ key ∈ keys, key ∉ seps)
    (keywordFilename : FindKeyword.Line) :
    fileOutput keywordFilename keys seps =
      some (.echo ("result in ".toList ++ keywordFilename) ::
        (hitSegments keys seps).flatMap Segment.commands) ∧
    ((hitSegments keys seps).Pairwise fun x y => x.2 ≤ y.1) ∧
    ∀ seg ∈ hitSegments keys seps, ∀ {α : Type} (file : List α), seg.2 ≤ file.length →
      seg.commands.flatMap (Command.prints file) = (file.take seg.2).drop (seg.1 - 1) := by
  refine ⟨?_, hitSegments_pairwise hseps, fun seg hseg α file hlength => ?_⟩
  · rw [fileOutput_eq_some, segments_eq hseps hkeys hdisjoint]
    exact ⟨hne, rfl⟩
  · obtain ⟨hadj, key, -, hbefore, hafter⟩ := mem_hitSegments.mp hseg
    rw [prints_commands, Command.prints, tail_take (hpos _ hadj.mem_left) (by omega) hlength]

/-- Of four segments one is written. -/
theorem script_eq_example : fileOutput [] [1, 4, 5, 12] [2, 7, 9, 11] =
    some (.echo "result in ".toList :: Segment.commands (2, 7)) :=
  (script_eq (by decide) (by decide) (by decide) (by decide) (by decide) []).1

/-! ### A further hit -/

/-- **A further hit.** Every segment that is written for `keys` is written for `keys'` as well,
exactly if `keys'` adds no hit on the first line of a segment that `keys` has a hit in. Such a
hit makes the search for the next date line go past the segment. -/
theorem segments_mono_iff (hseps : seps.Pairwise (· ≤ ·)) (hkeys' : keys'.Pairwise (· ≤ ·))
    (hsub : keys.Sublist keys') :
    (∀ seg ∈ segments keys seps, seg ∈ segments keys' seps) ↔
      ∀ a b, Adjacent seps a b → (∃ key ∈ keys, a < key ∧ key < b) → a ∈ keys' → a ∈ keys := by
  have hkeys : keys.Pairwise (· ≤ ·) := hkeys'.sublist hsub
  constructor
  · intro hmono a b hadj hkey hmem'
    by_contra hnot
    have hseg := hmono (a, b) ((mem_segments hseps hkeys).mpr ⟨hadj, hkey, hnot⟩)
    exact ((mem_segments hseps hkeys').mp hseg).2.2 hmem'
  · intro hadds seg hseg
    obtain ⟨hadj, ⟨key, hkey, hinside⟩, hnot⟩ := (mem_segments hseps hkeys).mp hseg
    exact (mem_segments hseps hkeys').mpr ⟨hadj, ⟨key, hsub.subset hkey, hinside⟩,
      fun hmem' => hnot (hadds _ _ hadj ⟨key, hkey, hinside⟩ hmem')⟩

/-- A hit in another segment leaves a segment where it is. -/
theorem segments_mono_inside : (1, 5) ∈ segments [3, 7] [1, 5, 9] := by
  have hsub : [3].Sublist [3, 7] := by decide
  refine (segments_mono_iff (by decide) (by decide) hsub).mpr ?_ (1, 5) (by decide)
  intro a b hadj _ hmem
  rcases List.mem_cons.mp hmem with rfl | hmem
  · exact List.mem_cons_self
  · obtain rfl := List.mem_singleton.mp hmem
    exact absurd hadj.mem_left (by decide)

/-- **A segment disappears** with a further hit, on its date line. -/
theorem segment_disappears : (1, 5) ∈ segments [3] [1, 5] ∧ (1, 5) ∉ segments [1, 3] [1, 5] := by
  decide

end LogAssistant

end OpenLog
