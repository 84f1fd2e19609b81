import OpenLog.LogAssistant.ReadLineNum

/-!
# The two arrays of `readLineNum`

`readLineNum` has an array for a line and one for its digits, and a pointer into each. Neither
pointer is compared to the end of its array, and both keep their places when a line is skipped.

Here the function is looked at call by call of `fgets`, with the places that it reads and writes
behind each of them (`OpenLog.LogAssistant.turn`). As long as nothing is written behind the end of
`digitArray`, the other pointer stays inside of `newLine` as well
(`OpenLog.LogAssistant.read_lt_lineLen`), but not inside of the line that was read last. Both is
well in a turn just when the line reaches as far as the pointer into it, and its digits fit behind
those that are kept (`OpenLog.LogAssistant.staysInside_iff_fits`).

On a file it is enough that no line begins with more than five digits, and that none which begins
with a digit has something else than a colon behind its digits. Where no line is of the second kind,
the first half is needed as well; one of the second kind makes the function jump with its pointers
moved, and what happens then is up to the lines behind it
(`OpenLog.LogAssistant.staysInside_of_inOrder`).
-/

namespace OpenLog

namespace LogAssistant

open Text

/-! ### Accesses -/

/-- An access to one of the two arrays. -/
inductive Access where
  /-- `newLine[i]` is read, of which the last `fgets` has written the first `written` bytes. -/
  | read (i written : ℕ)
  /-- `digitArray[i]` is written. -/
  | write (i : ℕ)
  deriving DecidableEq

/-- The read byte is written, and the written one exists. -/
def Access.Inside : Access → Prop
  | .read i written => i < written
  | .write i => i < charArrayLen

instance : (a : Access) → Decidable a.Inside
  | .read _ _ | .write _ => inferInstanceAs (Decidable (_ < _))

/-- The inner loop with its accesses, up to a write behind the end of `digitArray`. -/
def scanTraced (written newLinePt : ℕ) (digitArray : List Char) :
    List Char → List Access × Scanned
  | [] => ([.read newLinePt written], .undefined)
  | c :: cs =>
    let behind : List Access × Scanned :=
      if charArrayLen ≤ digitArray.length then ([], .undefined)
      else if c = '\x00' then ([], .ended)
      else if c.isDigit then scanTraced written (newLinePt + 1) (digitArray ++ [c]) cs
      else if c = seperater then ([], .number (atoi digitArray))
      else ([], .again (newLinePt + 1) digitArray)
    -- `*digitArrayPt = *newLinePt++`
    (.read newLinePt written :: .write digitArray.length :: behind.1, behind.2)

/-- How a call of `readLineNum` goes on after a call of `fgets`. -/
inductive Turn where
  /-- It returns, `none` standing for `-1`. -/
  | back (lineNum : Option ℕ)
  /-- It jumps back to `startReadLine`. -/
  | again (v : Locals)
  | undefined

/-- What follows a call of `fgets` that returns a piece, with its accesses. -/
def turn (v : Locals) (piece : List Char) : List Access × Turn :=
  let newLine := overwrite v.newLine piece
  let written := piece.length + 1
  match newLine.drop v.newLinePt with
  | [] => ([.read v.newLinePt written], .undefined)
  | c :: cs =>
    if c.isDigit then
      let loop := scanTraced written v.newLinePt v.digitArray (c :: cs)
      (.read v.newLinePt written :: loop.1, match loop.2 with
        | .number lineNum => .back (some lineNum)
        | .ended => .back none
        | .again newLinePt digitArray => .again ⟨newLine, newLinePt, digitArray⟩
        | .undefined => .undefined)
    else ([.read v.newLinePt written], .again { v with newLine := newLine })

/-- The turns of a call: the variables before each, and the piece that `fgets` returns in it. -/
def turns : Locals → List (List Char) → List (Locals × List Char)
  | _, [] => []
  | v, piece :: file =>
    (v, piece) :: match (turn v piece).2 with
      | .again v' => turns v' file
      | .back _ | .undefined => []

/-- The turns of `n` calls, one after the other, or of those up to one with an undefined end. -/
def callTurns : ℕ → List (List Char) → List (Locals × List Char)
  | 0, _ => []
  | n + 1, file =>
    turns Locals.init file ++ match readLineNum file with
      | none => []
      | some (_, rest) => callTurns n rest

/-- The accesses of `n` calls of `readLineNum` on a file. -/
def accesses (n : ℕ) (file : List Char) : List Access :=
  (callTurns n (fgets file)).flatMap fun t => (turn t.1 t.2).1

/-- **The function stays inside of its arrays.** -/
def StaysInside (n : ℕ) (file : List Char) : Prop := ∀ a ∈ accesses n file, a.Inside

/-- The piece reaches to the pointer into it, and `digitArray` has room for the digits there. -/
structure Fits (v : Locals) (piece : List Char) : Prop where
  reaches : v.newLinePt ≤ piece.length
  room : v.digitArray.length + (leadingDigits (piece.drop v.newLinePt)).length < charArrayLen

variable {v v' : Locals} {piece stale : List Char} {pt written : ℕ} {digitArray : List Char}

/-! ### The function without its accesses -/

theorem scanTraced_snd (cs : List Char) :
    (scanTraced written pt digitArray cs).2 = scan pt digitArray cs := by
  induction cs generalizing pt digitArray with
  | nil => rfl
  | cons c cs ih =>
    rw [scanTraced, scan]
    split_ifs
    · rfl
    · rfl
    · exact ih
    · rfl
    · rfl

/-- **The turns are those of the function.** -/
theorem startReadLine_eq_turn (v : Locals) (piece : List Char) (file : List (List Char)) :
    startReadLine v (piece :: file) = match (turn v piece).2 with
      | .back lineNum => some (lineNum, file)
      | .again v' => startReadLine v' file
      | .undefined => none := by
  rw [startReadLine, turn]
  rcases (overwrite v.newLine piece).drop v.newLinePt with _ | ⟨c, cs⟩
  · rfl
  · rcases hc : c.isDigit with _ | _
    · simp [hc]
    · simp only [hc, if_true, scanTraced_snd]
      rcases scan v.newLinePt v.digitArray (c :: cs) with _ | _ | _ | _ <;> rfl

/-! ### Runs -/

section Runs

variable {P : Locals → Prop} {R : List Char → Prop} {file rest : List (List Char)}
  {lineNum : Option ℕ}

/-- What a call leaves of the file. -/
theorem forall_mem_rest (hfile : ∀ p ∈ file, R p)
    (h : startReadLine v file = some (lineNum, rest)) : ∀ p ∈ rest, R p := by
  induction file generalizing v with
  | nil =>
    obtain ⟨-, rfl⟩ := Prod.mk.inj (Option.some.inj h)
    nofun
  | cons piece file ih =>
    rw [List.forall_mem_cons] at hfile
    rw [startReadLine_eq_turn] at h
    rcases hturn : (turn v piece).2 with _ | v' | _
    · simp only [hturn] at h
      obtain ⟨-, rfl⟩ := Prod.mk.inj (Option.some.inj h)
      exact hfile.2
    · simp only [hturn] at h
      exact ih hfile.2 h
    · simp [hturn] at h

/-- **The invariant rule** for a call: what a turn preserves holds in all turns. -/
theorem invariant_turns (hv : P v)
    (hturn : ∀ v piece v', P v → R piece → (turn v piece).2 = .again v' → P v')
    (hfile : ∀ p ∈ file, R p) : ∀ t ∈ turns v file, P t.1 ∧ R t.2 := by
  induction file generalizing v with
  | nil => nofun
  | cons piece file ih =>
    rw [List.forall_mem_cons] at hfile
    intro t ht
    rcases List.mem_cons.mp ht with rfl | ht
    · exact ⟨hv, hfile.1⟩
    · rcases hnext : (turn v piece).2 with _ | v' | _
      · simp [hnext] at ht
      · simp only [hnext] at ht
        exact ih (hturn v piece v' hv hfile.1 hnext) hfile.2 t ht
      · simp [hnext] at ht

/-- The invariant rule for any number of calls. -/
theorem invariant_callTurns {n : ℕ} (hinit : P Locals.init)
    (hturn : ∀ v piece v', P v → R piece → (turn v piece).2 = .again v' → P v')
    (hfile : ∀ p ∈ file, R p) : ∀ t ∈ callTurns n file, P t.1 ∧ R t.2 := by
  induction n generalizing file with
  | zero => nofun
  | succ n ih =>
    intro t ht
    rcases List.mem_append.mp ht with ht | ht
    · exact invariant_turns hinit hturn hfile t ht
    · rcases hcall : readLineNum file with _ | ⟨lineNum, rest⟩
      · simp [hcall] at ht
      · simp only [hcall] at ht
        exact ih (forall_mem_rest hfile hcall) t ht

/-! ### The pointers -/

/-- How far the pointers get: `newLinePt` is moved by one more than the digits are, and by at
least one digit, for each line that is skipped. -/
structure Moved (v : Locals) : Prop where
  moved : v.newLinePt ≤ 2 * v.digitArray.length
  room : v.digitArray.length < charArrayLen

theorem moved_init : Moved Locals.init := ⟨Nat.le_refl _, by decide⟩

/-- What a turn does that is not the last of its call. -/
theorem eq_of_turn_again (h : (turn v piece).2 = .again v') :
    (v'.newLinePt = v.newLinePt ∧ v'.digitArray = v.digitArray) ∨
      ∃ c cs, (overwrite v.newLine piece).drop v.newLinePt = c :: cs ∧ c.isDigit = true ∧
        scan v.newLinePt v.digitArray (c :: cs) = .again v'.newLinePt v'.digitArray := by
  rw [turn] at h
  rcases hdrop : (overwrite v.newLine piece).drop v.newLinePt with _ | ⟨c, cs⟩
  · simp [hdrop] at h
  · rcases hc : c.isDigit with _ | _
    · simp only [hdrop, hc, Bool.false_eq_true, if_false] at h
      obtain rfl := Turn.again.inj h
      exact .inl ⟨rfl, rfl⟩
    · simp only [hdrop, hc, if_true, scanTraced_snd] at h
      rcases hscan : scan v.newLinePt v.digitArray (c :: cs) with _ | _ | ⟨pt', digitArray'⟩ | _
      · simp [hscan] at h
      · simp [hscan] at h
      · simp only [hscan] at h
        obtain rfl := Turn.again.inj h
        exact .inr ⟨c, cs, rfl, hc, hscan⟩
      · simp [hscan] at h

/-- **One turn.** -/
theorem Moved.turn (hv : Moved v) (h : (turn v piece).2 = .again v') : Moved v' := by
  rcases eq_of_turn_again h with ⟨hpt, hdigits⟩ | ⟨c, cs, -, hc, hscan⟩
  · exact ⟨by rw [hpt, hdigits]; exact hv.moved, by rw [hdigits]; exact hv.room⟩
  · obtain ⟨-, hroom, hpt⟩ := scan_again hscan
    have hdigit := scan_again_of_digit hc hscan
    have hmoved := hv.moved
    exact ⟨by omega, hroom⟩

/-- **All turns.** -/
theorem moved_callTurns {n : ℕ} : ∀ t ∈ callTurns n file, Moved t.1 := fun t ht =>
  (invariant_callTurns (R := fun _ => True) moved_init (fun _ _ _ hv _ h => hv.turn h)
    (fun _ _ => trivial) t ht).1

end Runs

/-! ### One turn -/

theorem leadingDigits_cons {c : Char} {cs : List Char} (hc : c.isDigit = true) :
    leadingDigits (c :: cs) = c :: leadingDigits cs := List.takeWhile_cons_of_pos hc

theorem leadingDigits_cons_of_not {c : Char} {cs : List Char} (hc : ¬c.isDigit = true) :
    leadingDigits (c :: cs) = [] := List.takeWhile_cons_of_neg hc

section Scan

variable {c : Char} {cs : List Char}

/-- The loop takes no further byte where there is no room, or no digit. -/
theorem scanTraced_last (h : charArrayLen ≤ digitArray.length ∨ ¬c.isDigit = true) :
    (scanTraced written pt digitArray (c :: cs)).1 =
      [.read pt written, .write digitArray.length] := by
  rw [scanTraced]
  split_ifs with hfull hzero hdigit
  · rfl
  · rfl
  · rcases h with h | h
    · exact absurd h hfull
    · exact absurd hdigit h
  · rfl
  · rfl

theorem scanTraced_digit (hroom : digitArray.length < charArrayLen) (hc : c.isDigit = true) :
    (scanTraced written pt digitArray (c :: cs)).1 =
      .read pt written :: .write digitArray.length ::
        (scanTraced written (pt + 1) (digitArray ++ [c]) cs).1 := by
  have hzero : c ≠ '\x00' := by
    rintro rfl
    exact absurd hc (by decide)
  rw [scanTraced, if_neg (Nat.not_le.mpr hroom), if_neg hzero, if_pos hc]

theorem forall_inside_pair {i j : ℕ} :
    (∀ a ∈ [Access.read i written, .write j], a.Inside) ↔ i < written ∧ j < charArrayLen := by
  rw [List.forall_mem_cons, List.forall_mem_singleton]
  rfl

/-- **The inner loop** on the rest of a piece stays inside just when the digits fit. -/
theorem scanTraced_inside_iff (hwritten : pt + cs.length < written) :
    (∀ a ∈ (scanTraced written pt digitArray (cs ++ '\x00' :: stale)).1, a.Inside) ↔
      digitArray.length + (leadingDigits cs).length < charArrayLen := by
  induction cs generalizing pt digitArray with
  | nil =>
    rw [List.nil_append, scanTraced_last (.inr (by decide)), forall_inside_pair]
    exact and_iff_right hwritten
  | cons c cs ih =>
    rw [List.length_cons] at hwritten
    rw [List.cons_append]
    by_cases hc : c.isDigit = true
    · rw [leadingDigits_cons hc, List.length_cons]
      by_cases hroom : digitArray.length < charArrayLen
      · have hread : (Access.read pt written).Inside := show pt < written by omega
        have hwrite : (Access.write digitArray.length).Inside := hroom
        rw [scanTraced_digit hroom hc, List.forall_mem_cons, List.forall_mem_cons,
          ih (by omega), List.length_append, List.length_singleton]
        constructor
        · rintro ⟨-, -, h⟩
          omega
        · intro h
          exact ⟨hread, hwrite, by omega⟩
      · rw [scanTraced_last (.inl (Nat.not_lt.mp hroom)), forall_inside_pair]
        omega
    · rw [scanTraced_last (.inr hc), leadingDigits_cons_of_not hc, forall_inside_pair,
        List.length_nil, Nat.add_zero]
      exact and_iff_right (by omega)

end Scan

/-- The first access of a turn is that of `isdigit(*newLinePt)`, and what follows is the inner
loop, if anything. -/
theorem turn_fst_eq (v : Locals) (piece : List Char) :
    ∃ behind, (turn v piece).1 = .read v.newLinePt (piece.length + 1) :: behind ∧
      (behind = [] ∨ ∃ cs,
        behind = (scanTraced (piece.length + 1) v.newLinePt v.digitArray cs).1) := by
  rw [turn]
  rcases (overwrite v.newLine piece).drop v.newLinePt with _ | ⟨c, cs⟩
  · exact ⟨[], rfl, .inl rfl⟩
  · show ∃ behind, (if c.isDigit then _ else _ : List Access × Turn).1 = _ ∧ _
    split_ifs
    · exact ⟨_, rfl, .inr ⟨c :: cs, rfl⟩⟩
    · exact ⟨[], rfl, .inl rfl⟩

/-- The accesses of a turn in which the pointer finds something that was read. -/
theorem turn_fst {rest : List Char} (hrest : piece.drop v.newLinePt = rest)
    (hreaches : v.newLinePt ≤ piece.length) : (turn v piece).1 =
      .read v.newLinePt (piece.length + 1) ::
        if leadingDigits rest = [] then []
        else (scanTraced (piece.length + 1) v.newLinePt v.digitArray
          (rest ++ '\x00' :: v.newLine.drop (piece.length + 1))).1 := by
  rw [turn, overwrite, List.drop_append_of_le_length hreaches, hrest]
  rcases rest with _ | ⟨c, rest⟩
  · rfl
  · by_cases hc : c.isDigit = true
    · simp [hc, leadingDigits_cons hc]
    · simp [hc, leadingDigits_cons_of_not hc]

/-- **One turn** stays inside just when the piece fits. -/
theorem turn_inside_iff (hv : Moved v) : (∀ a ∈ (turn v piece).1, a.Inside) ↔ Fits v piece := by
  have hroom := hv.room
  constructor
  · intro h
    obtain ⟨behind, hbehind, -⟩ := turn_fst_eq v piece
    have hread := h (.read v.newLinePt (piece.length + 1)) (hbehind ▸ List.mem_cons_self)
    have hreaches : v.newLinePt ≤ piece.length := Nat.le_of_lt_succ hread
    refine ⟨hreaches, ?_⟩
    rw [turn_fst rfl hreaches, List.forall_mem_cons] at h
    split_ifs at h with hnone
    · rw [hnone]
      exact hroom
    · refine (scanTraced_inside_iff ?_).mp h.2
      rw [List.length_drop]
      omega
  · rintro ⟨hreaches, hfits⟩
    have hread : (Access.read v.newLinePt (piece.length + 1)).Inside :=
      Nat.lt_succ_of_le hreaches
    rw [turn_fst rfl hreaches, List.forall_mem_cons]
    refine ⟨hread, ?_⟩
    split_ifs with hnone
    · nofun
    · refine (scanTraced_inside_iff ?_).mpr hfits
      rw [List.length_drop]
      omega

/-- **All turns.** `readLineNum` stays inside of its arrays in any number of calls just when in
each turn of them the piece fits. -/
theorem staysInside_iff_fits (n : ℕ) (file : List Char) :
    StaysInside n file ↔ ∀ t ∈ callTurns n (fgets file), Fits t.1 t.2 := by
  rw [StaysInside, accesses, List.forall_mem_flatMap]
  exact forall₂_congr fun t ht => turn_inside_iff (moved_callTurns t ht)

/-! ### Inside of the array for a line -/

/-- The reads of the inner loop, which ends where `digitArray` is full. -/
theorem le_of_read_mem_scanTraced {cs : List Char} {i w : ℕ}
    (hroom : digitArray.length ≤ charArrayLen)
    (h : .read i w ∈ (scanTraced written pt digitArray cs).1) :
    i + digitArray.length ≤ pt + charArrayLen := by
  induction cs generalizing pt digitArray with
  | nil =>
    obtain ⟨rfl, -⟩ : i = pt ∧ w = written := by simpa [scanTraced] using h
    omega
  | cons c cs ih =>
    by_cases hlast : charArrayLen ≤ digitArray.length ∨ ¬c.isDigit = true
    · rw [scanTraced_last hlast] at h
      obtain ⟨rfl, -⟩ : i = pt ∧ w = written := by simpa using h
      omega
    · obtain ⟨hlt, hc⟩ : digitArray.length < charArrayLen ∧ c.isDigit = true := by
        simpa using hlast
      rw [scanTraced_digit hlt hc] at h
      rcases List.mem_cons.mp h with hfirst | h
      · obtain ⟨rfl, -⟩ := Access.read.inj hfirst
        omega
      · rcases List.mem_cons.mp h with hwrite | h
        · cases hwrite
        · have hbehind := ih (by rw [List.length_append]; exact hlt) h
          rw [List.length_append, List.length_singleton] at hbehind
          omega

/-- **No byte behind the end of `newLine`** is read, whether or not the last `fgets` has written
it. -/
theorem read_lt_lineLen {n i w : ℕ} {file : List Char} (h : .read i w ∈ accesses n file) :
    i < lineLen := by
  obtain ⟨⟨v, piece⟩, ht, h⟩ := List.mem_flatMap.mp h
  obtain ⟨hmoved, hroom⟩ : Moved v := moved_callTurns _ ht
  have hroom' : v.digitArray.length < 6 := hroom
  have hread : i ≤ v.newLinePt + charArrayLen := by
    obtain ⟨behind, hbehind, hloop⟩ := turn_fst_eq v piece
    rw [hbehind] at h
    rcases List.mem_cons.mp h with hfirst | h
    · obtain ⟨rfl, -⟩ := Access.read.inj hfirst
      exact Nat.le_add_right _ _
    · rcases hloop with rfl | ⟨cs, rfl⟩
      · cases h
      · exact Nat.le_trans (Nat.le_add_right _ _) (le_of_read_mem_scanTraced hroom.le h)
  show i < 100
  have hlen : charArrayLen = 6 := rfl
  omega

/-! ### Files whose lines are in order -/

/-- The line makes `readLineNum` jump in the middle of it: behind the digits that it starts with
comes a byte that is neither a colon nor a zero. -/
def Jumps (l : List Char) : Prop :=
  leadingDigits l ≠ [] ∧
    ∃ c ∈ (l.dropWhile Char.isDigit).head?, c ≠ seperater ∧ c ≠ '\x00'

instance (l : List Char) : Decidable (Jumps l) :=
  decidable_of_iff (leadingDigits l ≠ [] ∧
      (l.dropWhile Char.isDigit).head?.any (fun c => c ≠ seperater && c ≠ '\x00') = true) (by
    simp [Jumps, Option.any_eq_true])

/-- There is room for the digits of the line, and it does not make `readLineNum` jump. -/
structure InOrder (l : List Char) : Prop where
  digits : (leadingDigits l).length < charArrayLen
  not_jumps : ¬Jumps l

/-- The pointers stand at the starts of their arrays. -/
structure AtStart (v : Locals) : Prop where
  newLinePt : v.newLinePt = 0
  digitArray : v.digitArray = []

theorem AtStart.init : AtStart Locals.init := ⟨rfl, rfl⟩

/-- **The inner loop on a line**, from its start, if there is room for its digits: what it does is
up to the byte behind them. -/
theorem scan_line (hdigits : (leadingDigits piece).length < charArrayLen) :
    scan 0 [] (piece ++ '\x00' :: stale) =
      match (piece.dropWhile Char.isDigit).head? with
      | none => .ended
      | some c =>
        if c = '\x00' then .ended
        else if c = seperater then .number (atoi (leadingDigits piece))
        else .again ((leadingDigits piece).length + 1) (leadingDigits piece) := by
  nth_rewrite 1 [← leadingDigits_append piece]
  rw [List.append_assoc, scan_digits isDigit_of_mem_leadingDigits (by simp; omega),
    List.nil_append, Nat.zero_add]
  rcases hrest : piece.dropWhile Char.isDigit with _ | ⟨c, cs⟩
  · rw [List.nil_append, scan, if_neg (by omega), if_pos rfl]
    rfl
  · have hc : ¬c.isDigit = true := by
      have hhead := List.head?_dropWhile_not Char.isDigit piece
      rw [hrest] at hhead
      simpa using hhead
    rw [List.cons_append, scan, if_neg (by omega), if_neg hc]
    rfl

/-- Only a line that says so makes the inner loop jump. -/
theorem jumps_of_scan_again {digitArray' : List Char} {pt' : ℕ} (hne : leadingDigits piece ≠ [])
    (h : scan 0 [] (piece ++ '\x00' :: stale) = .again pt' digitArray') : Jumps piece := by
  have hdigits : (leadingDigits piece).length < charArrayLen := by
    by_contra hfull
    rw [scan_undefined (Nat.not_lt.mp hfull)] at h
    cases h
  rw [scan_line hdigits] at h
  refine ⟨hne, ?_⟩
  rcases hhead : (piece.dropWhile Char.isDigit).head? with _ | c
  · rw [hhead] at h
    cases h
  · rw [hhead] at h
    dsimp only at h
    split_ifs at h with hzero hsep
    exact ⟨c, rfl, hsep, hzero⟩

/-- The pointers stay there over a line that does not make it jump. -/
theorem AtStart.turn (hv : AtStart v) (hpiece : ¬Jumps piece)
    (h : (turn v piece).2 = .again v') : AtStart v' := by
  rcases eq_of_turn_again h with ⟨hpt, hdigits⟩ | ⟨c, cs, hdrop, hc, hscan⟩
  · exact ⟨hpt.trans hv.newLinePt, hdigits.trans hv.digitArray⟩
  · rw [hv.newLinePt, List.drop_zero] at hdrop
    rw [hv.newLinePt, hv.digitArray, ← hdrop, overwrite] at hscan
    refine absurd (jumps_of_scan_again ?_ hscan) hpiece
    rcases piece with _ | ⟨d, piece⟩
    · obtain ⟨rfl, -⟩ := List.cons.inj hdrop
      exact absurd hc (by decide)
    · obtain ⟨rfl, -⟩ := List.cons.inj hdrop
      rw [leadingDigits_cons hc]
      exact List.cons_ne_nil _ _

theorem AtStart.fits_iff (hv : AtStart v) :
    Fits v piece ↔ (leadingDigits piece).length < charArrayLen := by
  constructor
  · rintro ⟨-, hroom⟩
    rwa [hv.newLinePt, hv.digitArray, List.drop_zero, List.length_nil, Nat.zero_add] at hroom
  · intro hdigits
    refine ⟨?_, ?_⟩
    · rw [hv.newLinePt]
      exact Nat.zero_le _
    · rwa [hv.newLinePt, hv.digitArray, List.drop_zero, List.length_nil, Nat.zero_add]

/-- With room for the digits, nothing undefined is done. -/
theorem AtStart.defined (hv : AtStart v) (hdigits : (leadingDigits piece).length < charArrayLen) :
    (LogAssistant.turn v piece).2 ≠ .undefined := by
  intro h
  rw [LogAssistant.turn, hv.newLinePt, hv.digitArray, List.drop_zero] at h
  rcases hline : overwrite v.newLine piece with _ | ⟨c, cs⟩
  · exact absurd hline (by simp [overwrite])
  · simp only [hline, scanTraced_snd] at h
    rw [← hline, overwrite, scan_line hdigits] at h
    split_ifs at h
    rcases hhead : (piece.dropWhile Char.isDigit).head? with _ | c
    · rw [hhead] at h
      cases h
    · rw [hhead] at h
      dsimp only at h
      split_ifs at h

/-- The turns of a call that is under way, and of `n` further calls. -/
def turnsFrom (v : Locals) (n : ℕ) (file : List (List Char)) : List (Locals × List Char) :=
  turns v file ++ match startReadLine v file with
    | none => []
    | some (_, rest) => callTurns n rest

theorem callTurns_succ (n : ℕ) (file : List (List Char)) :
    callTurns (n + 1) file = turnsFrom Locals.init n file := rfl

/-- **The digits of every line.** Where no line makes it jump, the calls get to each line, with
the pointers at the start. The induction is on the lines that are left. -/
theorem digits_of_fits {file : List (List Char)} (hv : AtStart v)
    (hjumps : ∀ p ∈ file, ¬Jumps p) (h : ∀ n, ∀ t ∈ turnsFrom v n file, Fits t.1 t.2) :
    ∀ p ∈ file, (leadingDigits p).length < charArrayLen := by
  induction file generalizing v with
  | nil => nofun
  | cons piece file ih =>
    rw [List.forall_mem_cons] at hjumps ⊢
    have hfits : Fits v piece := h 0 (v, piece) (List.mem_append_left _ List.mem_cons_self)
    refine ⟨hv.fits_iff.mp hfits, ?_⟩
    rcases hturn : (turn v piece).2 with lineNum | v' | _
    · -- the call is over, and the next one begins with the rest of the file
      refine ih AtStart.init hjumps.2 fun n t ht => h (n + 1) t ?_
      refine List.mem_append_right _ ?_
      rw [startReadLine_eq_turn, hturn]
      exact ht
    · refine ih (hv.turn hjumps.1 hturn) hjumps.2 fun n t ht => h n t ?_
      rw [turnsFrom, turns, startReadLine_eq_turn, hturn]
      exact List.mem_cons_of_mem _ ht
    · exact absurd hturn (hv.defined (hv.fits_iff.mp hfits))

/-- **`readLineNum` stays inside of its arrays**, in any number of calls, on a file whose lines
are in order: none begins with more than five digits, and behind the digits that a line begins
with comes a colon or a zero, or nothing any more. And where no line makes it jump, it stays
inside on no other file. -/
theorem staysInside_of_inOrder (file : List Char) :
    ((∀ p ∈ fgets file, InOrder p) → ∀ n, StaysInside n file) ∧
      ((∀ p ∈ fgets file, ¬Jumps p) → (∀ n, StaysInside n file) → ∀ p ∈ fgets file, InOrder p) := by
  constructor
  · intro h n
    refine (staysInside_iff_fits n file).mpr fun t ht => ?_
    obtain ⟨hv, hpiece⟩ := invariant_callTurns AtStart.init
      (fun _ _ _ (hv : AtStart _) (hp : InOrder _) hturn => hv.turn hp.not_jumps hturn) h t ht
    exact hv.fits_iff.mpr hpiece.digits
  · intro hjumps h p hp
    refine ⟨digits_of_fits AtStart.init hjumps (fun n => ?_) p hp, hjumps p hp⟩
    rw [← callTurns_succ]
    exact (staysInside_iff_fits (n + 1) file).mp (h (n + 1))

/-- Two calls on a file with a number, a line without one, and the end of the file behind digits. -/
theorem staysInside_numbered : StaysInside 2 "12:foo\nbar\n7".toList ∧
    ∀ p ∈ fgets "12:foo\nbar\n7".toList, InOrder p := by
  have hjumps : ∀ p ∈ fgets "12:foo\nbar\n7".toList, ¬Jumps p := by decide
  have hdigits : ∀ p ∈ fgets "12:foo\nbar\n7".toList, (leadingDigits p).length < charArrayLen := by
    decide
  have horder : ∀ p ∈ fgets "12:foo\nbar\n7".toList, InOrder p := fun p hp =>
    ⟨hdigits p hp, hjumps p hp⟩
  have hinside := (staysInside_of_inOrder "12:foo\nbar\n7".toList).1 horder
  exact ⟨hinside 2, (staysInside_of_inOrder _).2 hjumps hinside⟩

/-- **A number of six digits** is written with its colon behind the end of `digitArray`; and
behind a line with digits and no colon, a byte is read that an earlier `fgets` has written. -/
theorem not_staysInside : ¬StaysInside 1 "123456:\n".toList ∧
    ¬StaysInside 1 "12 a\n1\n".toList := by
  have hwrite : .write 6 ∈ accesses 1 "123456:\n".toList := by decide
  have hread : .read 3 3 ∈ accesses 1 "12 a\n1\n".toList := by decide
  exact ⟨fun h => absurd (h _ hwrite) (by decide), fun h => absurd (h _ hread) (by decide)⟩

end LogAssistant

end OpenLog
