import OpenLog.FindKeyword.Sections

/-!
# Searching the result of a search

`find_keyword.pl` writes sections in the form in which it reads them, so its output
file can be searched again. With the same keywords and the same content key nothing
is lost or gained: the second output file is the first one, byte for byte, and so is
the number of matches (`OpenLog.FindKeyword.findKeyword_idempotent`).

The heart of it is `OpenLog.FindKeyword.sections_outputFile`: read back, the output
file has exactly the sections that were written to it, although they came from
different files. The empty line in front is the part of the file before the first
date line, and every section is closed by the next date line or the end of the file,
as it was where it came from.
-/

namespace OpenLog

namespace FindKeyword

open Text

variable {a : Args} {key : Line → Bool}

/-- The lines of the sections of a file contain no line end. -/
theorem not_mem_of_mem_sections {file : List Char} {s : Section} (hs : s ∈ sections file) :
    ∀ l ∈ blockElems s, '\n' ∉ l := by
  intro l hl
  have hmem : l ∈ readLines '\n' file := by
    rw [← blocks_join (p := isHeader) (readLines '\n' file)]
    exact List.mem_append_right _ (List.mem_flatMap.mpr ⟨s, hs, hl⟩)
  exact not_mem_of_mem_readLines hmem

/-- **Sections read back**: a file that is an empty line followed by sections of other
files has exactly those sections. -/
theorem sections_outputFile {ss : List Section}
    (hss : ∀ s ∈ ss, ∃ file, s ∈ sections file) :
    sections ('\n' :: writeLines '\n' (ss.flatMap blockElems)) = ss := by
  have hlines : ∀ l ∈ ss.flatMap blockElems, '\n' ∉ l := by
    intro l hl
    obtain ⟨s, hs, hl⟩ := List.mem_flatMap.mp hl
    obtain ⟨file, hfile⟩ := hss s hs
    exact not_mem_of_mem_sections hfile l hl
  have hhead : ∀ s ∈ ss, isHeader s.1 = true := by
    intro s hs
    obtain ⟨file, hfile⟩ := hss s hs
    exact blocks_head hfile
  have hbody : ∀ s ∈ ss, ∀ l ∈ s.2, isHeader l = false := by
    intro s hs
    obtain ⟨file, hfile⟩ := hss s hs
    exact blocks_body hfile
  have hlead : ∀ l ∈ [([] : Line)], isHeader l = false := by decide
  rw [sections, readLines_terminator, readLines_writeLines hlines]
  exact congrArg Prod.snd (blocks_unique hlead hhead hbody)

/-- A section that is not written adds nothing to the number of matches. -/
theorem hits_eq_zero {s : Section} (hw : wanted a key s = false) : hits a key s = 0 := by
  rcases hm : keywordMatch a s with _ | _
  · simp [hits, hm]
  · have hany : (afterDates s.2).tail.any key = false := by simpa [wanted, hm] using hw
    have hcount : contentCount key s = 0 := by
      rw [contentCount, List.countP_eq_zero]
      intro l hl
      simpa using List.any_eq_false.mp hany l hl
    simp [hits, hcount]

/-- Only the sections that are written contribute to the number of matches. -/
theorem sum_hits_wanted (ss : List Section) :
    ((ss.filter (wanted a key)).map (hits a key)).sum = (ss.map (hits a key)).sum := by
  induction ss with
  | nil => rfl
  | cons s ss ih =>
    rcases hw : wanted a key s with _ | _
    · rw [List.filter_cons_of_neg (by simp [hw]), List.map_cons, List.sum_cons,
        hits_eq_zero hw, ih, Nat.zero_add]
    · rw [List.filter_cons_of_pos hw, List.map_cons, List.map_cons, List.sum_cons,
        List.sum_cons, ih]

/-- Writing the written sections again writes them all. -/
theorem flatMap_emit_wanted (ss : List Section) :
    (ss.filter (wanted a key)).flatMap (emit a key) = ss.flatMap (emit a key) := by
  rw [flatMap_emit, flatMap_emit, List.filter_filter]
  simp

/-- **The search is idempotent**: run again, with the same keywords and content key, on the
output file as its only input, the script writes that file once more, byte for byte, and counts
the same matches. Any predicates will do for the keywords and the content key. -/
theorem findKeyword_idempotent (a : Args) (key : Line → Bool) (hkey : a.contentKey = some key)
    (hne : a.keywordList ≠ []) (filelist : List (Line × List Char)) (name : Line) :
    (findKeyword a [(name, (findKeyword a filelist).outputFile)]).outputFile =
        (findKeyword a filelist).outputFile ∧
      (findKeyword a [(name, (findKeyword a filelist).outputFile)]).matchCount =
        (findKeyword a filelist).matchCount := by
  obtain ⟨hout, hcount⟩ := findKeyword_emit hne hkey filelist
  set ss := filelist.flatMap fun f => sections f.2 with hss
  have hmem : ∀ s ∈ ss.filter (wanted a key), ∃ file, s ∈ sections file := by
    intro s hs
    obtain ⟨f, -, hf⟩ := List.mem_flatMap.mp (List.mem_of_mem_filter hs)
    exact ⟨f.2, hf⟩
  -- the second run sees the sections that the first one wrote
  have hsec : ([(name, (findKeyword a filelist).outputFile)].flatMap fun f => sections f.2) =
      ss.filter (wanted a key) := by
    rw [List.flatMap_singleton, hout, flatMap_emit, sections_outputFile hmem]
  obtain ⟨hout', hcount'⟩ := findKeyword_emit hne hkey
    [(name, (findKeyword a filelist).outputFile)]
  refine ⟨?_, ?_⟩
  · rw [hout', hsec, flatMap_emit_wanted, hout]
  · rw [hcount', hsec, sum_hits_wanted, hcount]

/-- An output file that is searched again. -/
theorem findKeyword_idempotent_sample :
    (findKeyword sampleArgs [([], "\n15:16 2009-12-7\nVC0882\nnote\n".toList)]).outputFile =
      "\n15:16 2009-12-7\nVC0882\nnote\n".toList := by
  have hfirst : (findKeyword sampleArgs
      [([], "15:16 2009-12-7\nVC0882\nnote".toList)]).outputFile =
      "\n15:16 2009-12-7\nVC0882\nnote\n".toList := by decide
  have hsecond := (findKeyword_idempotent sampleArgs (fun l => l.contains 'n') rfl
    (by simp [sampleArgs]) [([], "15:16 2009-12-7\nVC0882\nnote".toList)] []).1
  rwa [hfirst] at hsecond

end FindKeyword

end OpenLog
