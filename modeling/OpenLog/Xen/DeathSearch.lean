import Mathlib.Data.List.Basic
import Mathlib.Data.List.TakeWhile
import Mathlib.Tactic.SplitIfs
import OpenLog.Logic.Loop

/-!
# The search for dead domains

`domain_death_xswatch_callback` runs whenever some domain has gone away. It walks along the list
of those who want to know, `death_list`, which is sorted, and along the domains that the
hypervisor still has, which it asks for in pieces. A generator whose domain is missing or dying is
moved to `death_reported`; a shutdown is reported once.

## A turn of the search

One question to the hypervisor with the loop behind it is a turn of the outer loop
(`OpenLog.Xen.Search.turn`). It settles the generators that the piece covers
(`OpenLog.Xen.DomainTable.covers`), which are the first of those that are left, and begins the
next piece with the domain with which this one has ended.

## Whether it comes back

Over a table of domains that does not change, a search that comes back has settled every generator
as the table says (`OpenLog.Xen.search_settles`). It does not always come back: a piece begins
with the domain with which the one before has ended, and holds that domain alone when there is one
generator left. `OpenLog.Xen.search_comes_back_iff` says exactly when it does, and that it asks
for the same piece for ever otherwise.
-/

namespace OpenLog

namespace Xen

open Logic

/-! ### Data -/

/-- `xc_domaininfo_t`, with the flags that the search looks at. -/
structure DomainInfo where
  domain : ℕ
  /-- `XEN_DOMINF_dying`. -/
  dying : Bool
  /-- `XEN_DOMINF_shutdown`. -/
  shutdown : Bool
  shutdownReason : ℕ
  deriving DecidableEq

/-- `libxl_evgen_domain_death`, with its address. -/
structure Evgen where
  addr : ℕ
  domid : ℕ
  shutdownReported : Bool
  deathReported : Bool
  deriving DecidableEq

/-- The flag `death_reported`. -/
def Evgen.report (evg : Evgen) : Evgen := { evg with deathReported := true }

inductive Event where
  | domainDeath (domid : ℕ)
  | domainShutdown (domid shutdownReason : ℕ)
  deriving DecidableEq

/-- What a search changes. An event comes with the generator that it is for, which the code does
not keep. -/
structure Lists where
  /-- The part of `death_list` that has been passed. -/
  passed : List Evgen
  /-- `death_reported`. -/
  reported : List Evgen
  occurred : List (ℕ × Event)
  deriving DecidableEq

namespace Lists

/-- `domain_death_occurred`. -/
def domainDeathOccurred (x : Lists) (evg : Evgen) : Lists :=
  { x with
    reported := evg.report :: x.reported
    occurred := x.occurred ++ [(evg.addr, .domainDeath evg.domid)] }

/-- The domain exists: its shutdown is reported, if it has not been. -/
def pass (x : Lists) (got : DomainInfo) (evg : Evgen) : Lists :=
  if !evg.shutdownReported && got.shutdown then
    { x with
      passed := x.passed ++ [{ evg with shutdownReported := true }]
      occurred := x.occurred ++ [(evg.addr, .domainShutdown got.domain got.shutdownReason)] }
  else { x with passed := x.passed ++ [evg] }

end Lists

/-! ### The search -/

/-- The search in front of a question to the hypervisor. -/
structure Search where
  lists : Lists
  /-- `evg` and what follows it in `death_list`. -/
  left : List Evgen
  domid : ℕ
  deriving DecidableEq

/-- How the search comes back. -/
inductive Outcome where
  | done (lists : Lists)
  /-- `xc_domain_getinfolist` has failed. -/
  | disaster (s : Search)

namespace Search

/-- The inner loop over a piece, with what is left of the generators. -/
def scan (x : Lists) (left : List Evgen) (got : List DomainInfo) : Lists × List Evgen :=
  match left, got with
  | [], _ => (x, [])
  | evg :: left, [] => (x, evg :: left)
  | evg :: left, g :: got =>
    -- the list does not contain the domain any more
    if evg.domid < g.domain then scan (x.domainDeathOccurred evg) left (g :: got)
    else if g.domain < evg.domid then scan x (evg :: left) got
    else if g.dying then scan (x.domainDeathOccurred evg) left (g :: got)
    else scan (x.pass g evg) left (g :: got)
termination_by left.length + got.length

/-- `nentries`. -/
def nentries (left : List Evgen) : ℕ := if 1 < left.length then 200 else 1

/-- A turn of the outer loop, with the answer to its question. -/
def turn (getinfolist : ℕ → ℕ → Option (List DomainInfo)) (s : Search) : Outcome ⊕ Search :=
  match getinfolist s.domid (nentries s.left) with
  | none => .inl (.disaster s)
  -- an empty list: no domain is left
  | some [] => .inl (.done (s.left.foldl Lists.domainDeathOccurred s.lists))
  | some (g :: got) =>
    match scan s.lists s.left (g :: got) with
    | (x, []) => .inl (.done x)
    | (x, evg :: left) => .inr ⟨x, evg :: left, ((g :: got).getLast nofun).domain⟩

/-- The search for a `death_list` that is not empty. -/
def start (evg : Evgen) (left : List Evgen) (reported : List Evgen)
    (occurred : List (ℕ × Event)) : Search :=
  ⟨⟨[], reported, occurred⟩, evg :: left, evg.domid⟩

end Search

/-! ### The domains of the hypervisor -/

/-- The domains that there are, in ascending order. -/
structure DomainTable where
  infos : List DomainInfo
  sorted : infos.Pairwise (·.domain < ·.domain)

namespace DomainTable

variable (T : DomainTable)

/-- The domains from a given one on. -/
def onward (domid : ℕ) : List DomainInfo := T.infos.filter (domid ≤ ·.domain)

/-- `xc_domain_getinfolist`: some of the domains from a given one on. -/
def getinfolist (domid nentries : ℕ) : Option (List DomainInfo) :=
  some ((T.onward domid).take nentries)

def lookup (domid : ℕ) : Option DomainInfo := T.infos.find? (·.domain = domid)

/-- The domain of a generator is missing or dying. -/
def dead (evg : Evgen) : Bool := (T.lookup evg.domid).all DomainInfo.dying

/-- What a generator makes of the table. -/
def settle (x : Lists) (evg : Evgen) : Lists :=
  match T.lookup evg.domid with
  | none => x.domainDeathOccurred evg
  | some g => if g.dying then x.domainDeathOccurred evg else x.pass g evg

/-- A generator that stays, with its flag. -/
def told (evg : Evgen) : Evgen :=
  { evg with
    shutdownReported := evg.shutdownReported || (T.lookup evg.domid).any DomainInfo.shutdown }

/-- The events for a generator. -/
def events (evg : Evgen) : List (ℕ × Event) :=
  match T.lookup evg.domid with
  | none => [(evg.addr, .domainDeath evg.domid)]
  | some g =>
    if g.dying then [(evg.addr, .domainDeath evg.domid)]
    else if !evg.shutdownReported && g.shutdown then
      [(evg.addr, .domainShutdown evg.domid g.shutdownReason)]
    else []

/-- The generators that a turn settles: those whose domain is not beyond the last one that the
turn is shown, and all of them where it is shown none. -/
def covers (s : Search) (evg : Evgen) : Bool :=
  ((T.onward s.domid).take (Search.nentries s.left)).getLast?.all (evg.domid ≤ ·.domain)

/-- The number of domains from `first` on that lie below a given one. -/
def place (first domid : ℕ) : ℕ := ((T.onward first).filter (·.domain < domid)).length

/-- The piece of two hundred domains that reaches up to a given one. Each piece begins with the
domain with which the one before ends. -/
def piece (first domid : ℕ) : ℕ := (T.place first domid - 1) / 199

/-- There is no domain from the first generator on, or there is only one generator, or some domain
lies at or beyond the last generator and the last two generators are in the same piece. -/
def ComesBack (evg : Evgen) (left : List Evgen) : Prop :=
  T.onward evg.domid = [] ∨ ∀ front e e', evg :: left = front ++ [e, e'] →
    (∃ g ∈ T.infos, e'.domid ≤ g.domain) ∧ T.piece evg.domid e.domid = T.piece evg.domid e'.domid

end DomainTable

/-! ### A piece of the table -/

section Piece

variable {T : DomainTable} {x : Lists} {left : List Evgen} {got : List DomainInfo} {hi : ℕ}

/-- **The inner loop settles the generators up to the end of its piece**, and leaves the others
alone. -/
theorem scan_eq (hsorted : left.Pairwise (·.domid ≤ ·.domid))
    (hgot : got.Pairwise (·.domain < ·.domain)) (hle : ∀ g ∈ got, g.domain ≤ hi)
    (hhi : ∀ evg ∈ left, evg.domid ≤ hi → ∃ g ∈ got, evg.domid ≤ g.domain)
    (hlookup : ∀ evg ∈ left, evg.domid ≤ hi →
      T.lookup evg.domid = got.find? (·.domain = evg.domid)) :
    Search.scan x left got = ((left.takeWhile (·.domid ≤ hi)).foldl T.settle x,
      left.dropWhile (·.domid ≤ hi)) := by
  fun_induction Search.scan x left got with
  | case1 x got => rfl
  | case2 x evg left =>
    have habove : ¬evg.domid ≤ hi := by
      intro hle
      obtain ⟨g, hg, -⟩ := hhi evg List.mem_cons_self hle
      cases hg
    simp [habove]
  | case3 x evg left g got hlt ih =>
    -- every domain of the piece lies above the generator
    have hup : evg.domid ≤ hi := Nat.le_trans (Nat.le_of_lt hlt) (hle g List.mem_cons_self)
    have hnone : T.lookup evg.domid = none := by
      rw [hlookup evg List.mem_cons_self hup]
      apply List.find?_eq_none.mpr
      intro g' hg'
      rcases List.mem_cons.mp hg' with rfl | hg'
      · simpa using Nat.ne_of_gt hlt
      · have hgg' := (List.pairwise_cons.mp hgot).1 g' hg'
        simpa using Nat.ne_of_gt (Nat.lt_trans hlt hgg')
    rw [ih hsorted.of_cons hgot hle (fun e he => hhi e (List.mem_cons_of_mem _ he))
      (fun e he => hlookup e (List.mem_cons_of_mem _ he))]
    simp [hup, DomainTable.settle, hnone]
  | case4 x evg left g got hlt hgt ih =>
    -- the domain lies below every generator that is left
    have hbelow (e : Evgen) (he : e ∈ evg :: left) : g.domain < e.domid := by
      rcases List.mem_cons.mp he with rfl | he
      · exact hgt
      · exact Nat.lt_of_lt_of_le hgt ((List.pairwise_cons.mp hsorted).1 e he)
    refine ih hsorted hgot.of_cons (fun g' hg' => hle g' (List.mem_cons_of_mem _ hg')) ?_ ?_
    · intro e he hup
      obtain ⟨g', hg', hle'⟩ := hhi e he hup
      rcases List.mem_cons.mp hg' with rfl | hg'
      · exact absurd hle' (Nat.not_le_of_lt (hbelow e he))
      · exact ⟨g', hg', hle'⟩
    · intro e he hup
      rw [hlookup e he hup]
      exact List.find?_cons_of_neg (by simpa using Nat.ne_of_lt (hbelow e he))
  | case5 x evg left g got hlt hgt hdying ih =>
    have heq : g.domain = evg.domid := by omega
    have hup : evg.domid ≤ hi := heq ▸ hle g List.mem_cons_self
    have hsome : T.lookup evg.domid = some g := by
      rw [hlookup evg List.mem_cons_self hup]
      exact List.find?_cons_of_pos (by simpa using heq)
    rw [ih hsorted.of_cons hgot hle (fun e he => hhi e (List.mem_cons_of_mem _ he))
      (fun e he => hlookup e (List.mem_cons_of_mem _ he))]
    simp [hup, DomainTable.settle, hsome, hdying]
  | case6 x evg left g got hlt hgt hdying ih =>
    have heq : g.domain = evg.domid := by omega
    have hup : evg.domid ≤ hi := heq ▸ hle g List.mem_cons_self
    have hsome : T.lookup evg.domid = some g := by
      rw [hlookup evg List.mem_cons_self hup]
      exact List.find?_cons_of_pos (by simpa using heq)
    rw [ih hsorted.of_cons hgot hle (fun e he => hhi e (List.mem_cons_of_mem _ he))
      (fun e he => hlookup e (List.mem_cons_of_mem _ he))]
    simp [hup, DomainTable.settle, hsome, hdying]

end Piece

/-! ### A turn of the search -/

section Turn

variable {T : DomainTable} {s s' : Search} {d hi : ℕ} {evg : Evgen}

theorem DomainTable.onward_sorted (T : DomainTable) (d : ℕ) :
    (T.onward d).Pairwise (·.domain < ·.domain) :=
  T.sorted.filter _

theorem DomainTable.lookup_eq (hd : d ≤ evg.domid) :
    T.lookup evg.domid = (T.onward d).find? (·.domain = evg.domid) := by
  rw [DomainTable.onward, List.find?_filter, DomainTable.lookup]
  congr 1
  funext g
  by_cases hg : g.domain = evg.domid
  · simp [hg, hd]
  · simp [hg]

/-- What is looked up below the end of a piece is found in the piece, or not at all. -/
theorem DomainTable.lookup_piece {front rest : List DomainInfo} {g : DomainInfo}
    (hpiece : T.onward d = front ++ g :: rest) (hd : d ≤ evg.domid) (hup : evg.domid ≤ g.domain) :
    T.lookup evg.domid = (front ++ [g]).find? (·.domain = evg.domid) := by
  have hsplit : T.onward d = (front ++ [g]) ++ rest := by
    simp [hpiece]
  have habove : rest.find? (·.domain = evg.domid) = none := by
    apply List.find?_eq_none.mpr
    intro g' hg'
    have hsorted := T.onward_sorted d
    rw [hpiece] at hsorted
    have hgg' := (List.pairwise_cons.mp (List.pairwise_append.mp hsorted).2.1).1 g' hg'
    simpa using Nat.ne_of_gt (Nat.lt_of_le_of_lt hup hgg')
  rw [DomainTable.lookup_eq hd, hsplit, List.find?_append, habove, Option.or_none]

/-- The generators that are left are in order, and none of them lies before the next question. -/
structure Search.Ordered (s : Search) : Prop where
  sorted : s.left.Pairwise (·.domid ≤ ·.domid)
  ahead : ∀ evg ∈ s.left, s.domid ≤ evg.domid

/-- No domain is left: every generator is settled. -/
theorem turn_nil (h : s.Ordered) (hnil : T.onward s.domid = []) :
    s.turn T.getinfolist = .inl (.done (s.left.foldl T.settle s.lists)) := by
  have hsettle : ∀ evg ∈ s.left, ∀ x, T.settle x evg = Lists.domainDeathOccurred x evg := by
    intro evg hevg x
    rw [DomainTable.settle, DomainTable.lookup_eq (h.ahead evg hevg), hnil]
    rfl
  have hfold : s.left.foldl T.settle s.lists = s.left.foldl Lists.domainDeathOccurred s.lists :=
    List.foldl_ext _ _ _ fun x evg hevg => hsettle evg hevg x
  simp [Search.turn, DomainTable.getinfolist, hnil, hfold]

/-- Otherwise the generators up to the last domain of the piece are settled, and the next piece
begins with that domain. -/
theorem turn_piece {front rest : List DomainInfo} {g : DomainInfo} (h : s.Ordered)
    (hpiece : T.onward s.domid = front ++ g :: rest)
    (htake : (T.onward s.domid).take (Search.nentries s.left) = front ++ [g]) :
    s.turn T.getinfolist =
      if s.left.dropWhile (·.domid ≤ g.domain) = [] then
        .inl (.done (s.left.foldl T.settle s.lists))
      else
        .inr ⟨(s.left.takeWhile (·.domid ≤ g.domain)).foldl T.settle s.lists,
          s.left.dropWhile (·.domid ≤ g.domain), g.domain⟩ := by
  have hsorted : (front ++ [g]).Pairwise (·.domain < ·.domain) :=
    htake ▸ (T.onward_sorted s.domid).sublist (List.take_sublist _ _)
  have hscan : Search.scan s.lists s.left (front ++ [g]) =
      ((s.left.takeWhile (·.domid ≤ g.domain)).foldl T.settle s.lists,
        s.left.dropWhile (·.domid ≤ g.domain)) := by
    refine scan_eq h.sorted hsorted ?_ ?_ ?_
    · intro g' hg'
      rcases List.mem_append.mp hg' with hg' | hg'
      · exact Nat.le_of_lt ((List.pairwise_append.mp hsorted).2.2 g' hg' g List.mem_cons_self)
      · exact Nat.le_of_eq (congrArg _ (List.mem_singleton.mp hg'))
    · intro evg _ hup
      exact ⟨g, List.mem_append_right _ List.mem_cons_self, hup⟩
    · intro evg hevg hup
      exact DomainTable.lookup_piece hpiece (h.ahead evg hevg) hup
  obtain ⟨g₀, got, hgot⟩ := List.exists_cons_of_ne_nil (l := front ++ [g]) (by simp)
  have hlast : (g₀ :: got).getLast nofun = g := by
    simp [← hgot]
  rw [hgot] at hscan
  simp only [Search.turn, DomainTable.getinfolist, htake, hgot, hscan, hlast]
  rcases hleft : s.left.dropWhile (·.domid ≤ g.domain) with - | ⟨evg, left⟩
  · have hall : s.left.takeWhile (·.domid ≤ g.domain) = s.left := by
      have hsplit := List.takeWhile_append_dropWhile (p := (·.domid ≤ g.domain)) (l := s.left)
      rwa [hleft, List.append_nil] at hsplit
    rw [hleft, hall]
    rfl
  · rw [hleft]
    rfl

theorem DomainTable.exists_piece (hne : T.onward d ≠ []) {n : ℕ} (hn : 0 < n) :
    ∃ front g rest, T.onward d = front ++ g :: rest ∧ (T.onward d).take n = front ++ [g] := by
  have htake : (T.onward d).take n ≠ [] := by
    intro hnil
    rcases List.take_eq_nil_iff.mp hnil with h | h
    · omega
    · exact hne h
  obtain ⟨front, g, hfront⟩ := (List.eq_nil_or_concat' _).resolve_left htake
  refine ⟨front, g, (T.onward d).drop n, ?_, hfront⟩
  rw [← List.singleton_append, ← List.append_assoc, ← hfront, List.take_append_drop]

theorem nentries_pos (left : List Evgen) : 0 < Search.nentries left := by
  rw [Search.nentries]
  split_ifs <;> decide

/-- The generators behind a piece lie beyond its last domain. -/
theorem lt_of_mem_dropWhile {left : List Evgen} (h : left.Pairwise (·.domid ≤ ·.domid))
    (hevg : evg ∈ left.dropWhile (·.domid ≤ hi)) : hi < evg.domid := by
  have hsorted := h.sublist (List.dropWhile_sublist (·.domid ≤ hi))
  have hne : left.dropWhile (·.domid ≤ hi) ≠ [] := List.ne_nil_of_mem hevg
  have hnot := List.head_dropWhile_not (fun evg : Evgen => decide (evg.domid ≤ hi)) hne
  obtain ⟨evg₀, left', hcons⟩ := List.exists_cons_of_ne_nil hne
  have hhead : hi < evg₀.domid := by
    simpa [hcons] using hnot
  rw [hcons] at hsorted hevg
  rcases List.mem_cons.mp hevg with rfl | hevg
  · exact hhead
  · exact Nat.lt_of_lt_of_le hhead ((List.pairwise_cons.mp hsorted).1 evg hevg)

theorem DomainTable.covers_of_nil (hnil : T.onward s.domid = []) : T.covers s evg = true := by
  rw [DomainTable.covers, hnil, List.take_nil]
  rfl

theorem DomainTable.covers_of_piece {front : List DomainInfo} {g : DomainInfo}
    (htake : (T.onward s.domid).take (Search.nentries s.left) = front ++ [g]) :
    T.covers s evg = decide (evg.domid ≤ g.domain) := by
  rw [DomainTable.covers, htake, List.getLast?_concat, Option.all_some]

/-- **A turn that goes on has settled a part of the generators**: those that it covers, which are
the first ones. -/
theorem turn_next (h : s.Ordered) (hs : s.turn T.getinfolist = .inr s') :
    s'.Ordered ∧ s'.left ≠ [] ∧
      ∃ pre, s.left = pre ++ s'.left ∧ s'.lists = pre.foldl T.settle s.lists ∧
        (∀ evg ∈ pre, T.covers s evg = true) ∧ ∀ evg ∈ s'.left, T.covers s evg = false := by
  by_cases hnil : T.onward s.domid = []
  · rw [turn_nil h hnil] at hs
    cases hs
  obtain ⟨front, g, rest, hpiece, htake⟩ := DomainTable.exists_piece hnil (nentries_pos s.left)
  rw [turn_piece h hpiece htake] at hs
  split_ifs at hs with hleft
  obtain rfl := Sum.inr.inj hs
  refine ⟨⟨h.sorted.sublist (List.dropWhile_sublist _), ?_⟩, hleft, _, ?_, rfl, ?_, ?_⟩
  · exact fun evg hevg => Nat.le_of_lt (lt_of_mem_dropWhile h.sorted hevg)
  · exact List.takeWhile_append_dropWhile.symm
  · intro evg hevg
    rw [DomainTable.covers_of_piece htake]
    exact List.mem_takeWhile_imp (p := fun e : Evgen => decide (e.domid ≤ g.domain)) hevg
  · intro evg hevg
    rw [DomainTable.covers_of_piece htake]
    exact decide_eq_false (Nat.not_le_of_lt (lt_of_mem_dropWhile h.sorted hevg))

/-- **The last turn settles the others**, all of which it covers. -/
theorem turn_last (h : s.Ordered) {o : Outcome} (hs : s.turn T.getinfolist = .inl o) :
    o = .done (s.left.foldl T.settle s.lists) ∧ ∀ evg ∈ s.left, T.covers s evg = true := by
  by_cases hnil : T.onward s.domid = []
  · rw [turn_nil h hnil] at hs
    exact ⟨(Sum.inl.inj hs).symm, fun evg _ => DomainTable.covers_of_nil hnil⟩
  obtain ⟨front, g, rest, hpiece, htake⟩ := DomainTable.exists_piece hnil (nentries_pos s.left)
  rw [turn_piece h hpiece htake] at hs
  split_ifs at hs with hleft
  refine ⟨(Sum.inl.inj hs).symm, fun evg hevg => ?_⟩
  rw [DomainTable.covers_of_piece htake]
  exact List.dropWhile_eq_nil_iff.mp hleft evg hevg

end Turn

/-! ### What the search finds -/

section Found

variable {T : DomainTable} {evg : Evgen} {left reported : List Evgen}
variable {occurred : List (ℕ × Event)} {o : Outcome}

theorem DomainTable.settle_eq (T : DomainTable) (x : Lists) (evg : Evgen) :
    T.settle x evg =
      { passed := x.passed ++ (if T.dead evg then [] else [T.told evg])
        reported := (if T.dead evg then [evg.report] else []) ++ x.reported
        occurred := x.occurred ++ T.events evg } := by
  rcases evg with ⟨addr, domid, shutdownReported, deathReported⟩
  rcases hlookup : T.lookup domid with - | g
  · simp [settle, dead, events, hlookup, Lists.domainDeathOccurred]
  have hdomain : g.domain = domid := by
    simpa using List.find?_some hlookup
  by_cases hdying : g.dying = true
  · simp [settle, dead, events, hlookup, hdying, Lists.domainDeathOccurred]
  · rcases shutdownReported with - | - <;> rcases hshutdown : g.shutdown with - | - <;>
      simp [settle, dead, events, told, hlookup, hdying, Lists.pass, hshutdown, hdomain]

/-- All the generators, one after the other. -/
theorem DomainTable.foldl_settle (T : DomainTable) (evgs : List Evgen) (x : Lists) :
    evgs.foldl T.settle x =
      { passed := x.passed ++ (evgs.filter (!T.dead ·)).map T.told
        reported := ((evgs.filter T.dead).map Evgen.report).reverse ++ x.reported
        occurred := x.occurred ++ evgs.flatMap T.events } := by
  induction evgs generalizing x with
  | nil => simp
  | cons evg evgs ih =>
    rw [List.foldl_cons, ih, DomainTable.settle_eq]
    cases hdead : T.dead evg <;> simp [hdead]

theorem Search.ordered_start (h : (evg :: left).Pairwise (·.domid ≤ ·.domid)) :
    (Search.start evg left reported occurred).Ordered := by
  refine ⟨h, ?_⟩
  intro e he
  rcases List.mem_cons.mp he with rfl | he
  · exact Nat.le_refl _
  · exact (List.pairwise_cons.mp h).1 e he

/-- **A search that comes back has settled every generator.** Those whose domain is missing or
dying have moved to the list of the reported, and the others are left, in order; there is one
event for each death, and one for a shutdown that had not been reported. -/
theorem search_settles (hsorted : (evg :: left).Pairwise (·.domid ≤ ·.domid))
    (h : Ends (Search.turn T.getinfolist) (Search.start evg left reported occurred) o) :
    o = .done
      { passed := ((evg :: left).filter (!T.dead ·)).map T.told
        reported := (((evg :: left).filter T.dead).map Evgen.report).reverse ++ reported
        occurred := occurred ++ (evg :: left).flatMap T.events } := by
  obtain ⟨s, hr, hs⟩ := h
  have hinv : s.Ordered ∧
      s.left.foldl T.settle s.lists = (evg :: left).foldl T.settle ⟨[], reported, occurred⟩ := by
    refine hr.invariant (P := fun s => s.Ordered ∧ s.left.foldl T.settle s.lists =
      (evg :: left).foldl T.settle ⟨[], reported, occurred⟩)
        ⟨Search.ordered_start hsorted, rfl⟩ ?_
    rintro s s' ⟨hordered, hfold⟩ hturn
    obtain ⟨hordered', -, pre, hleft, hlists, -, -⟩ := turn_next hordered hturn
    refine ⟨hordered', ?_⟩
    rw [hlists, ← List.foldl_append, ← hleft, hfold]
  rw [(turn_last hinv.1 hs).1, hinv.2, T.foldl_settle]
  simp

end Found

/-! ### Whether the search comes back -/

section Back

variable {T : DomainTable} {s : Search} {d e : ℕ} {front rest : List DomainInfo} {g : DomainInfo}

/-- The next piece begins with the last domain of this one. -/
theorem DomainTable.onward_last (hpiece : T.onward d = front ++ g :: rest) :
    T.onward g.domain = g :: rest := by
  have hsorted := T.onward_sorted d
  have hg : g ∈ T.onward d := by
    simp [hpiece]
  have hd : d ≤ g.domain := by
    simpa using (List.mem_filter.mp hg).2
  have hfilter : T.onward g.domain = (T.onward d).filter (g.domain ≤ ·.domain) := by
    rw [DomainTable.onward, DomainTable.onward, List.filter_filter]
    congr 1
    funext g'
    by_cases hle : g.domain ≤ g'.domain
    · simp [hle, Nat.le_trans hd hle]
    · simp [hle]
  rw [hpiece] at hsorted
  obtain ⟨-, htail, hcross⟩ := List.pairwise_append.mp hsorted
  have hfront : front.filter (g.domain ≤ ·.domain) = [] := by
    apply List.filter_eq_nil_iff.mpr
    intro g' hg'
    simpa using hcross g' hg' g List.mem_cons_self
  have hrest : rest.filter (g.domain ≤ ·.domain) = rest := by
    apply List.filter_eq_self.mpr
    intro g' hg'
    simpa using Nat.le_of_lt ((List.pairwise_cons.mp htail).1 g' hg')
  rw [hfilter, hpiece, List.filter_append, hfront, List.filter_cons, hrest]
  simp

/-- Up to the last domain of a piece there are only the domains before it. -/
theorem DomainTable.place_le (hpiece : T.onward d = front ++ g :: rest) (he : e ≤ g.domain) :
    T.place d e ≤ front.length := by
  have hsorted := T.onward_sorted d
  rw [hpiece] at hsorted
  have htail := (List.pairwise_append.mp hsorted).2.1
  have hnil : (g :: rest).filter (·.domain < e) = [] := by
    apply List.filter_eq_nil_iff.mpr
    intro g' hg'
    rcases List.mem_cons.mp hg' with rfl | hg'
    · simpa using he
    · have hlt := (List.pairwise_cons.mp htail).1 g' hg'
      simpa using Nat.le_of_lt (Nat.lt_of_le_of_lt he hlt)
  rw [DomainTable.place, hpiece, List.filter_append, hnil, List.append_nil]
  exact List.length_filter_le _ _

/-- Beyond it, the places are counted on from there. -/
theorem DomainTable.place_of_lt (hpiece : T.onward d = front ++ g :: rest) (he : g.domain < e) :
    T.place d e = front.length + T.place g.domain e ∧ 0 < T.place g.domain e := by
  have hsorted := T.onward_sorted d
  rw [hpiece] at hsorted
  have hcross := (List.pairwise_append.mp hsorted).2.2
  have hall : front.filter (·.domain < e) = front := by
    apply List.filter_eq_self.mpr
    intro g' hg'
    simpa using Nat.lt_trans (hcross g' hg' g List.mem_cons_self) he
  rw [DomainTable.place, DomainTable.place, DomainTable.onward_last hpiece, hpiece,
    List.filter_append, hall, List.filter_cons_of_pos (by simpa using he)]
  simp

/-- A full piece is one piece. -/
theorem DomainTable.piece_of_lt (hpiece : T.onward d = front ++ g :: rest)
    (hfull : front.length = 199) (he : g.domain < e) :
    T.piece d e = T.piece g.domain e + 1 := by
  obtain ⟨hplace, hpos⟩ := DomainTable.place_of_lt hpiece he
  rw [DomainTable.piece, DomainTable.piece]
  omega

/-- A domain beyond the piece is found behind it. -/
theorem DomainTable.exists_onward_iff (hpiece : T.onward d = front ++ g :: rest)
    (he : g.domain < e) :
    (∃ g' ∈ T.onward g.domain, e ≤ g'.domain) ↔ ∃ g' ∈ T.onward d, e ≤ g'.domain := by
  have hg : d ≤ g.domain := by
    have hmem : g ∈ T.onward d := by
      simp [hpiece]
    simpa using (List.mem_filter.mp hmem).2
  constructor
  · rintro ⟨g', hg', hle⟩
    obtain ⟨hmem, hup⟩ := List.mem_filter.mp hg'
    refine ⟨g', List.mem_filter.mpr ⟨hmem, ?_⟩, hle⟩
    simpa using Nat.le_trans hg (by simpa using hup)
  · rintro ⟨g', hg', hle⟩
    refine ⟨g', List.mem_filter.mpr ⟨(List.mem_filter.mp hg').1, ?_⟩, hle⟩
    simpa using Nat.le_of_lt (Nat.lt_of_lt_of_le he hle)

/-- **A search that gets no further** turns for ever: all the domains that it is shown lie below
the generators that are left, and the next piece is the same. -/
theorem not_ends_of_short {left : List Evgen} {x : Lists} (hleft : left ≠ [])
    (hordered : left.Pairwise (·.domid ≤ ·.domid)) (honward : T.onward d = g :: rest)
    (hd : d = g.domain) (hbelow : ∀ evg ∈ left, g.domain < evg.domid)
    (hshort : left.length = 1 ∨ rest = []) (o : Outcome) :
    ¬Ends (Search.turn T.getinfolist) ⟨x, left, d⟩ o := by
  refine Spins.not_ends ⟨_, .refl _, ?_⟩ o
  have hs : Search.Ordered ⟨x, left, d⟩ :=
    ⟨hordered, fun evg hevg => hd ▸ Nat.le_of_lt (hbelow evg hevg)⟩
  have htake : (T.onward d).take (Search.nentries left) = [] ++ [g] := by
    rw [honward]
    rcases hshort with hone | rfl
    · simp [Search.nentries, hone]
    · exact List.take_of_length_le (nentries_pos left)
  have hstay : left.dropWhile (·.domid ≤ g.domain) = left ∧
      left.takeWhile (·.domid ≤ g.domain) = [] := by
    obtain ⟨evg, left', rfl⟩ := List.exists_cons_of_ne_nil hleft
    have hlt := hbelow evg List.mem_cons_self
    constructor
    · exact List.dropWhile_cons_of_neg (by simpa using hlt)
    · exact List.takeWhile_cons_of_neg (by simpa using hlt)
  have hturn := turn_piece hs honward htake
  simp only [hstay, hleft, if_false] at hturn
  rw [hturn, hd]
  rfl

/-- What is left behind a piece, by where the last two generators lie. -/
theorem dropWhile_two {front : List Evgen} {e e' : Evgen} (hi : ℕ)
    (h : (front ++ [e, e']).Pairwise (·.domid ≤ ·.domid)) :
    (e'.domid ≤ hi ∧ (front ++ [e, e']).dropWhile (·.domid ≤ hi) = []) ∨
      (e.domid ≤ hi ∧ hi < e'.domid ∧ (front ++ [e, e']).dropWhile (·.domid ≤ hi) = [e']) ∨
      (hi < e.domid ∧ ∃ front',
        (front ++ [e, e']).dropWhile (·.domid ≤ hi) = front' ++ [e, e']) := by
  obtain ⟨-, htwo, hcross⟩ := List.pairwise_append.mp h
  have hee' : e.domid ≤ e'.domid := (List.pairwise_cons.mp htwo).1 e' List.mem_cons_self
  rcases Nat.lt_or_ge hi e.domid with hlt | hle
  · refine Or.inr (Or.inr ⟨hlt, front.dropWhile (·.domid ≤ hi), ?_⟩)
    rw [List.dropWhile_append]
    split_ifs with hnil
    · rw [List.isEmpty_iff.mp hnil, List.dropWhile_cons_of_neg (by simpa using hlt)]
      rfl
    · rfl
  · have hfront : front.dropWhile (·.domid ≤ hi) = [] := by
      apply List.dropWhile_eq_nil_iff.mpr
      intro evg hevg
      simpa using Nat.le_trans (hcross evg hevg e List.mem_cons_self) hle
    have hdrop : (front ++ [e, e']).dropWhile (·.domid ≤ hi) =
        [e'].dropWhile (·.domid ≤ hi) := by
      rw [List.dropWhile_append, hfront, if_pos List.isEmpty_nil]
      exact List.dropWhile_cons_of_pos (by simpa using hle)
    rcases Nat.lt_or_ge hi e'.domid with hlt' | hle'
    · exact Or.inr (Or.inl ⟨hle, hlt', hdrop.trans
        (List.dropWhile_cons_of_neg (by simpa using hlt'))⟩)
    · exact Or.inl ⟨hle', hdrop.trans (List.dropWhile_cons_of_pos (by simpa using hle'))⟩

/-- **With two generators left**, the search comes back if there is no domain left at all, or if
the last two generators are settled in one piece. -/
theorem ends_iff_of_two {front : List Evgen} {e e' : Evgen} (h : s.Ordered)
    (hleft : s.left = front ++ [e, e']) :
    (∃ o, Ends (Search.turn T.getinfolist) s o) ↔ T.onward s.domid = [] ∨
      ((∃ g ∈ T.onward s.domid, e'.domid ≤ g.domain) ∧
        T.piece s.domid e.domid = T.piece s.domid e'.domid) := by
  induction hn : (T.onward s.domid).length using Nat.strong_induction_on generalizing s front with
  | _ n ih =>
    by_cases hnil : T.onward s.domid = []
    · exact ⟨fun _ => Or.inl hnil, fun _ => ⟨_, .of_inl (turn_nil h hnil)⟩⟩
    have hentries : Search.nentries s.left = 200 := by
      simp [Search.nentries, hleft]
    obtain ⟨ahead, g, rest, hpiece, htake⟩ := DomainTable.exists_piece hnil (nentries_pos s.left)
    have hturn := turn_piece h hpiece htake
    have hlen : ahead.length + 1 = min 200 (ahead.length + 1 + rest.length) := by
      have hcount := congrArg List.length htake
      rw [List.length_take, hentries, hpiece] at hcount
      simp only [List.length_append, List.length_cons, List.length_nil] at hcount
      omega
    have honward := DomainTable.onward_last hpiece
    -- beyond the last domain of all there is none
    have hbeyond {e : ℕ} (he : g.domain < e) (hex : ∃ g' ∈ T.onward s.domid, e ≤ g'.domain) :
        rest ≠ [] := by
      rintro rfl
      obtain ⟨g', hg', hle⟩ := (DomainTable.exists_onward_iff hpiece he).mpr hex
      rw [honward, List.mem_singleton] at hg'
      subst hg'
      omega
    have hsorted := h.sorted
    rw [hleft] at hsorted
    rcases dropWhile_two g.domain hsorted with
      ⟨hle, hdrop⟩ | ⟨hle, hlt, hdrop⟩ | ⟨hlt, front', hdrop⟩ <;> rw [← hleft] at hdrop
    · -- the piece settles them all
      have hee' : e.domid ≤ e'.domid :=
        (List.pairwise_cons.mp (List.pairwise_append.mp hsorted).2.1).1 e' List.mem_cons_self
      rw [if_pos hdrop] at hturn
      refine ⟨fun _ => Or.inr ⟨⟨g, ?_, hle⟩, ?_⟩, fun _ => ⟨_, .of_inl hturn⟩⟩
      · rw [hpiece]
        exact List.mem_append_right _ List.mem_cons_self
      · have hplace := DomainTable.place_le hpiece (Nat.le_trans hee' hle)
        have hplace' := DomainTable.place_le hpiece hle
        rw [DomainTable.piece, DomainTable.piece, Nat.div_eq_of_lt (by omega),
          Nat.div_eq_of_lt (by omega)]
    · -- the last generator is left alone with a piece of one domain
      rw [if_neg (by simp [hdrop]), hdrop] at hturn
      constructor
      · rintro ⟨o, ho⟩
        refine absurd ((ends_iff_of_inr hturn).mp ho) ?_
        exact not_ends_of_short (by simp) (List.pairwise_singleton _ _) honward rfl
          (by simpa using hlt) (Or.inl rfl) o
      · rintro (hnil' | ⟨hex, hpieces⟩)
        · exact absurd hnil' hnil
        · have hrest := List.length_pos_iff.mpr (hbeyond hlt hex)
          have hplace := DomainTable.place_le hpiece hle
          have hplace' := DomainTable.place_of_lt hpiece hlt
          rw [DomainTable.piece, DomainTable.piece] at hpieces
          omega
    · -- both are left for the next piece
      have hlt' : g.domain < e'.domid := Nat.lt_of_lt_of_le hlt
        ((List.pairwise_cons.mp (List.pairwise_append.mp hsorted).2.1).1 e' List.mem_cons_self)
      have hordered := (turn_next h (hturn.trans (if_neg (by simp [hdrop])))).1
      rw [if_neg (by simp [hdrop])] at hturn
      rw [exists_congr fun o => ends_iff_of_inr hturn]
      by_cases hrest : rest = []
      · constructor
        · rintro ⟨o, ho⟩
          exact absurd ho (not_ends_of_short (by simp [hdrop]) hordered.sorted honward rfl
            (fun evg hevg => lt_of_mem_dropWhile h.sorted hevg) (Or.inr hrest) o)
        · rintro (hnil' | ⟨hex, -⟩)
          · exact absurd hnil' hnil
          · exact absurd hrest (hbeyond hlt' hex)
      · have hpos := List.length_pos_iff.mpr hrest
        have hshorter : (T.onward g.domain).length < n := by
          rw [← hn, honward, hpiece, List.length_append, List.length_cons]
          omega
        rw [ih _ hshorter hordered hdrop rfl]
        have hne : T.onward g.domain ≠ [] := by
          simp [honward]
        simp only [hnil, hne, false_or]
        rw [DomainTable.exists_onward_iff hpiece hlt',
          DomainTable.piece_of_lt hpiece (by omega) hlt,
          DomainTable.piece_of_lt hpiece (by omega) hlt', Nat.add_right_cancel_iff]

variable (T) in
/-- What gets smaller while the search gets on: the domains and the generators that are left, and
whether there is a domain to begin with. -/
def weight (s : Search) : ℕ :=
  (T.onward s.domid).length + s.left.length +
    if s.domid ∈ T.infos.map DomainInfo.domain then 0 else 1

/-- **A turn gets on, or it leads back to itself**: it is shown the one domain that it asks from,
and no generator waits for that. -/
theorem weight_turn {s' : Search} (h : s.Ordered) (hs : s.turn T.getinfolist = .inr s') :
    s'.Ordered ∧ (weight T s' < weight T s ∨ s' = s) := by
  refine ⟨(turn_next h hs).1, ?_⟩
  by_cases hnil : T.onward s.domid = []
  · rw [turn_nil h hnil] at hs
    cases hs
  obtain ⟨front, g, rest, hpiece, htake⟩ := DomainTable.exists_piece hnil (nentries_pos s.left)
  rw [turn_piece h hpiece htake] at hs
  split_ifs at hs with hleft
  obtain rfl := Sum.inr.inj hs
  have hg : g ∈ T.onward s.domid := by
    simp [hpiece]
  have hmem : g.domain ∈ T.infos.map DomainInfo.domain :=
    List.mem_map_of_mem (List.mem_filter.mp hg).1
  have hd : s.domid ≤ g.domain := by
    simpa using (List.mem_filter.mp hg).2
  have hlen := congrArg List.length hpiece
  have hshort := (List.dropWhile_sublist (l := s.left)
    fun e : Evgen => decide (e.domid ≤ g.domain)).length_le
  rw [List.length_append, List.length_cons] at hlen
  rw [weight, weight, DomainTable.onward_last hpiece, if_pos hmem, List.length_cons]
  by_cases hcovered : s.left.takeWhile (·.domid ≤ g.domain) = []
  · have hsplit := List.takeWhile_append_dropWhile (p := (·.domid ≤ g.domain)) (l := s.left)
    rw [hcovered, List.nil_append] at hsplit
    by_cases hthere : s.domid ∈ T.infos.map DomainInfo.domain
    · cases front with
      | nil =>
        -- the domain that the turn asks from is the first that it is shown
        right
        obtain ⟨g', hg', hdomain⟩ := List.mem_map.mp hthere
        have hg'' : g' ∈ T.onward s.domid := List.mem_filter.mpr ⟨hg', by simp [hdomain]⟩
        have hsorted := T.onward_sorted s.domid
        rw [hpiece, List.nil_append] at hg'' hsorted
        have hle : g.domain ≤ s.domid := by
          rcases List.mem_cons.mp hg'' with rfl | hrest
          · exact Nat.le_of_eq hdomain
          · exact hdomain ▸ Nat.le_of_lt ((List.pairwise_cons.mp hsorted).1 g' hrest)
        have hdomid : g.domain = s.domid := Nat.le_antisymm hle hd
        rw [hcovered, hsplit, hdomid]
        rfl
      | cons g₀ front =>
        left
        rw [List.length_cons] at hlen
        dsimp only
        omega
    · left
      rw [if_neg hthere]
      dsimp only
      omega
  · left
    have hpos := List.length_pos_iff.mpr hcovered
    have hsum := congrArg List.length
      (List.takeWhile_append_dropWhile (p := (·.domid ≤ g.domain)) (l := s.left))
    rw [List.length_append] at hsum
    dsimp only
    omega

/-- A single generator is settled in the first piece. -/
theorem exists_ends_of_one {evg : Evgen} (h : s.Ordered) (hleft : s.left = [evg])
    (hd : s.domid = evg.domid) : ∃ o, Ends (Search.turn T.getinfolist) s o := by
  by_cases hnil : T.onward s.domid = []
  · exact ⟨_, .of_inl (turn_nil h hnil)⟩
  obtain ⟨front, g, rest, hpiece, htake⟩ := DomainTable.exists_piece hnil (nentries_pos s.left)
  have hg : g ∈ T.onward s.domid := by
    simp [hpiece]
  have hle : evg.domid ≤ g.domain := by
    simpa [← hd] using (List.mem_filter.mp hg).2
  refine ⟨_, .of_inl ((turn_piece h hpiece htake).trans (if_pos ?_))⟩
  rw [hleft]
  exact List.dropWhile_cons_of_pos (by simpa using hle)

/-- **When the search comes back**, by where the last two generators lie. -/
theorem exists_ends_iff {evg : Evgen} {left reported : List Evgen}
    {occurred : List (ℕ × Event)} (hsorted : (evg :: left).Pairwise (·.domid ≤ ·.domid)) :
    (∃ o, Ends (Search.turn T.getinfolist) (Search.start evg left reported occurred) o) ↔
      T.ComesBack evg left := by
  rw [DomainTable.ComesBack]
  have hordered : (Search.start evg left reported occurred).Ordered := Search.ordered_start hsorted
  rcases List.eq_nil_or_concat' left with rfl | ⟨left, e', rfl⟩
  · refine ⟨fun _ => Or.inr fun front e e' htwo => ?_, fun _ => exists_ends_of_one hordered rfl rfl⟩
    have hlen := congrArg List.length htwo
    simp at hlen
  obtain ⟨front, e, hfront⟩ : ∃ front e, evg :: left = front ++ [e] := by
    rcases List.eq_nil_or_concat' (evg :: left) with hnil | h
    · cases hnil
    · exact h
  have htwo : evg :: (left ++ [e']) = front ++ [e, e'] := by
    rw [← List.cons_append, hfront, List.append_assoc]
    rfl
  have hlast : evg.domid ≤ e'.domid :=
    hordered.ahead e' (by rw [show (Search.start evg (left ++ [e']) reported occurred).left =
      front ++ [e, e'] from htwo]; simp)
  have hexists : (∃ g ∈ T.onward evg.domid, e'.domid ≤ g.domain) ↔
      ∃ g ∈ T.infos, e'.domid ≤ g.domain := by
    constructor
    · rintro ⟨g, hg, hle⟩
      exact ⟨g, (List.mem_filter.mp hg).1, hle⟩
    · rintro ⟨g, hg, hle⟩
      exact ⟨g, List.mem_filter.mpr ⟨hg, by simpa using Nat.le_trans hlast hle⟩, hle⟩
  rw [ends_iff_of_two hordered htwo, show (Search.start evg (left ++ [e']) reported
    occurred).domid = evg.domid from rfl, hexists]
  refine or_congr_right ⟨fun h front' a a' htwo' => ?_, fun h => h front e e' htwo⟩
  obtain ⟨-, hpair⟩ := List.append_inj' (htwo.symm.trans htwo') rfl
  simp only [List.cons.injEq, and_true] at hpair
  obtain ⟨rfl, rfl⟩ := hpair
  exact h

/-- **The search comes back or asks for ever.** With a table that does not change it comes back
exactly if there is no domain from the first generator on, if there is only one generator, or if
some domain lies at or beyond the last generator and the last two generators are settled in the
same piece. Otherwise it comes to a turn that leads back to itself: it asks for the same piece, and
no generator that is left lies in it. -/
theorem search_comes_back_iff {evg : Evgen} {left reported : List Evgen}
    {occurred : List (ℕ × Event)} (hsorted : (evg :: left).Pairwise (·.domid ≤ ·.domid)) :
    ((∃ o, Ends (Search.turn T.getinfolist) (Search.start evg left reported occurred) o) ↔
      T.ComesBack evg left) ∧
    (¬T.ComesBack evg left →
      ∃ s, Reaches (Search.turn T.getinfolist) (Search.start evg left reported occurred) s ∧
        s.turn T.getinfolist = .inr s) := by
  refine ⟨exists_ends_iff hsorted, fun hnot => ?_⟩
  have hordered : (Search.start evg left reported occurred).Ordered := Search.ordered_start hsorted
  have hfate := ends_or_spins_of_measure (weight T) hordered
    fun s s' hordered hs => weight_turn hordered hs
  exact hfate.resolve_left fun hends => hnot ((exists_ends_iff hsorted).mp hends)

/-- Domain 3 is there and domain 5 is gone: whoever waits for both is asked for domain 3 for
ever. -/
theorem search_comes_back_gone : ∃ s,
    Reaches (Search.turn (DomainTable.mk [⟨3, false, false, 0⟩]
      (List.pairwise_singleton _ _)).getinfolist)
        (Search.start ⟨0, 3, false, false⟩ [⟨1, 5, false, false⟩] [] []) s ∧
      s.turn (DomainTable.mk [⟨3, false, false, 0⟩] (List.pairwise_singleton _ _)).getinfolist =
        .inr s := by
  refine (search_comes_back_iff (by decide)).2 ?_
  rintro (hnil | h)
  · cases hnil
  · obtain ⟨⟨g, hg, hle⟩, -⟩ := h [] _ _ rfl
    rw [List.mem_singleton.mp hg] at hle
    exact absurd hle (by decide)

/-- Domains up to 299, where domain 2 is shut down, domain 250 is dying and domain 260 is gone. -/
def manyDomains : DomainTable where
  infos := ((List.range 300).map fun n => ⟨n, n = 250, n = 2, 1⟩).filter (·.domain ≠ 260)
  sorted := by
    refine List.Pairwise.filter _ (List.pairwise_map.mpr ?_)
    exact List.pairwise_lt_range

/-- Four wait for domains in two pieces of that table, and are told what has become of theirs. -/
theorem search_settles_many : ∃ o, Ends (Search.turn manyDomains.getinfolist)
    (Search.start ⟨0, 2, false, false⟩
      [⟨1, 7, false, false⟩, ⟨2, 250, false, false⟩, ⟨3, 260, false, false⟩] [] []) o ∧
      o = .done ⟨[⟨0, 2, true, false⟩, ⟨1, 7, false, false⟩],
        [⟨3, 260, false, true⟩, ⟨2, 250, false, true⟩],
        [(0, .domainShutdown 2 1), (2, .domainDeath 250), (3, .domainDeath 260)]⟩ := by
  have hback : manyDomains.ComesBack ⟨0, 2, false, false⟩
      [⟨1, 7, false, false⟩, ⟨2, 250, false, false⟩, ⟨3, 260, false, false⟩] := by
    refine Or.inr fun front e e' htwo => ?_
    obtain ⟨-, hpair⟩ := List.append_inj'
      (show [⟨0, 2, false, false⟩, ⟨1, 7, false, false⟩] ++
        [⟨2, 250, false, false⟩, ⟨3, 260, false, false⟩] = front ++ [e, e'] from htwo) rfl
    simp only [List.cons.injEq, and_true] at hpair
    obtain ⟨rfl, rfl⟩ := hpair
    refine ⟨⟨⟨261, false, false, 1⟩, ?_, by decide⟩, ?_⟩
    · decide +kernel
    · decide +kernel
  have hends : ∃ o, Ends (Search.turn manyDomains.getinfolist) (Search.start ⟨0, 2, false, false⟩
      [⟨1, 7, false, false⟩, ⟨2, 250, false, false⟩, ⟨3, 260, false, false⟩] [] []) o :=
    (exists_ends_iff (by decide)).mpr hback
  obtain ⟨o, ho⟩ := hends
  refine ⟨o, ho, (search_settles (by decide) ho).trans (congrArg Outcome.done ?_)⟩
  decide +kernel

end Back

end Xen

end OpenLog
