import Mathlib.Data.List.Perm.Basic
import Mathlib.Data.List.Sort
import OpenLog.Logic.Run
import OpenLog.Xen.DeathSearch

/-!
# Waiting for dead domains

The generators of a context over time: they are made with `libxl_evenable_domain_death`, given
back with `libxl_evdisable_domain_death`, and searched whenever `@releaseDomain` is written. A
search asks the hypervisor several times, and the domains may change in between; the context is
locked as long as it takes (`OpenLog.Xen.Ctx.asking`).

What a generator has been told is what its flags say: nothing, a shutdown, a death, or the one
after the other (`OpenLog.Xen.watch_history`). No event is made up: what a turn of a search
reports is what the table of that moment says of the generators that it covers
(`OpenLog.Xen.watch_truth`).

The macro that inserts a generator into the sorted list is a parameter.
-/

namespace OpenLog

namespace Xen

open Logic

/-! ### Contexts -/

/-- A context, as far as the deaths of domains go. -/
structure Ctx where
  lists : Lists
  /-- The part of `death_list` from the cursor of a search on, all of it where there is none. -/
  left : List Evgen
  /-- The domain from which a search asks next. -/
  asking : Option ℕ
  /-- `death_watch` is registered. -/
  watch : Bool
  /-- The number of generators that have been made, which is the address of the next. -/
  made : ℕ

inductive CtxAct where
  /-- `libxl_evenable_domain_death`, with what `malloc` and the registration come back with. -/
  | evenable (domid : ℕ) (malloc registers : Bool)
  /-- `libxl_evdisable_domain_death`. -/
  | evdisable (evg : Evgen)
  /-- `@releaseDomain` is written: `domain_death_xswatch_callback` is called. -/
  | releaseDomain
  /-- The search asks, and sees the domains that there are at that moment. -/
  | getinfolist (answer : Option DomainTable)

namespace Ctx

def init : Ctx := ⟨⟨[], [], []⟩, [], none, false, 0⟩

/-- `death_list`. -/
def deathList (c : Ctx) : List Evgen := c.lists.passed ++ c.left

/-- `libxl__evdisable_domain_death`. -/
def evdisable (c : Ctx) (evg : Evgen) : Ctx :=
  let c :=
    if !evg.deathReported then { c with left := c.left.filter (·.addr ≠ evg.addr) }
    else
      { c with
        lists := { c.lists with reported := c.lists.reported.filter (·.addr ≠ evg.addr) } }
  if c.left.isEmpty && c.watch then { c with watch := false } else c

variable (insertSorted : Evgen → List Evgen → List Evgen)

/-- `libxl_evenable_domain_death`. -/
def evenable (c : Ctx) (domid : ℕ) (malloc registers : Bool) : Ctx :=
  if !malloc then c
  else
    let evg : Evgen := ⟨c.made, domid, false, false⟩
    let c := { c with left := insertSorted evg c.left, made := c.made + 1 }
    if c.watch then c
    else if registers then { c with watch := true }
    else c.evdisable evg

/-- A turn of the search is over. -/
def goOn (c : Ctx) : Outcome ⊕ Search → Ctx
  | .inl (.done x) => { c with lists := { x with passed := [] }, left := x.passed, asking := none }
  | .inl (.disaster s) =>
    { c with
      lists := { s.lists with passed := [] }
      left := s.lists.passed ++ s.left
      asking := none }
  | .inr s => { c with lists := s.lists, left := s.left, asking := some s.domid }

def step (c : Ctx) : CtxAct → Option Ctx
  | .evenable domid malloc registers =>
    if c.asking = none then some (c.evenable insertSorted domid malloc registers) else none
  | .evdisable evg =>
    if c.asking = none ∧ evg ∈ c.left ++ c.lists.reported then some (c.evdisable evg) else none
  | .releaseDomain =>
    if c.asking = none ∧ c.watch = true then
      some { c with asking := c.left.head?.map Evgen.domid }
    else none
  | .getinfolist answer =>
    c.asking.map fun domid =>
      c.goOn (Search.turn (fun d n => answer.bind (·.getinfolist d n)) ⟨c.lists, c.left, domid⟩)

def Initial (c : Ctx) : Prop := c = init

theorem initial_init : Initial init := rfl

end Ctx

/-- What the macro `LIBXL_TAILQ_INSERT_SORTED` does here. -/
structure InsertsSorted (insertSorted : Evgen → List Evgen → List Evgen) : Prop where
  perm : ∀ evg l, (insertSorted evg l).Perm (evg :: l)
  sorted : ∀ evg l, l.Pairwise (·.domid ≤ ·.domid) →
    (insertSorted evg l).Pairwise (·.domid ≤ ·.domid)

/-! ### What a generator has been told -/

/-- The events for the generator with an address. -/
def history (occurred : List (ℕ × Event)) (addr : ℕ) : List Event :=
  (occurred.filter (·.1 = addr)).map Prod.snd

/-- The flags of a generator say what it has been told. -/
def Evgen.Tells (evg : Evgen) (events : List Event) : Prop :=
  ∃ reason, events =
    (if evg.shutdownReported then [.domainShutdown evg.domid reason] else []) ++
      (if evg.deathReported then [.domainDeath evg.domid] else [])

/-- What occurs later comes later in the history of each generator. -/
@[simp] theorem history_append (occurred new : List (ℕ × Event)) (addr : ℕ) :
    history (occurred ++ new) addr = history occurred addr ++ history new addr := by
  simp [history]

/-- Each of the generators has an address of its own and has been told what its flags say. -/
structure Told (made : ℕ) (all : List Evgen) (occurred : List (ℕ × Event)) : Prop where
  nodup : (all.map Evgen.addr).Nodup
  fresh : ∀ evg ∈ all, evg.addr < made
  old : ∀ p ∈ occurred, p.1 < made
  tells : ∀ evg ∈ all, evg.Tells (history occurred evg.addr)

/-- The generators of a context are as they should be, in the middle of a search as well: they
have been told what their flags say, those that wait for a death are alive and in the order of
their domains, and those in `death_reported` are not. The cursor of a search is between
`passed` and `left`, and moves in `Sound.settle` only. -/
structure Sound (made : ℕ) (x : Lists) (left : List Evgen) : Prop where
  told : Told made (x.passed ++ left ++ x.reported) x.occurred
  alive : ∀ evg ∈ x.passed ++ left, evg.deathReported = false
  dead : ∀ evg ∈ x.reported, evg.deathReported = true
  sorted : (x.passed ++ left).Pairwise (·.domid ≤ ·.domid)

section Settle

variable {T : DomainTable} {made : ℕ} {x : Lists} {evg : Evgen} {left : List Evgen}

/-- The events that settle a generator are all its own, -/
theorem DomainTable.history_events_self (T : DomainTable) (evg : Evgen) :
    history (T.events evg) evg.addr = (T.events evg).map Prod.snd := by
  rw [history, List.filter_eq_self.mpr]
  intro p hp
  rw [DomainTable.events] at hp
  split at hp
  · simp_all
  · split_ifs at hp <;> simp_all

/-- and no other is told of them. -/
theorem DomainTable.history_events_other (T : DomainTable) {addr : ℕ} (h : evg.addr ≠ addr) :
    history (T.events evg) addr = [] := by
  rw [history, List.map_eq_nil_iff, List.filter_eq_nil_iff]
  intro p hp
  rw [DomainTable.events] at hp
  split at hp
  · simp_all
  · split_ifs at hp <;> simp_all

/-- A generator that is settled has been told what its flags then say. -/
theorem Evgen.Tells.settle {events : List Event} (h : evg.Tells events)
    (halive : evg.deathReported = false) :
    (if T.dead evg then evg.report else T.told evg).Tells
      (events ++ (T.events evg).map Prod.snd) := by
  obtain ⟨reason, rfl⟩ := h
  rcases hlookup : T.lookup evg.domid with - | g
  · refine ⟨reason, ?_⟩
    simp [DomainTable.dead, DomainTable.events, hlookup, Evgen.report, halive]
  by_cases hdying : g.dying = true
  · refine ⟨reason, ?_⟩
    simp [DomainTable.dead, DomainTable.events, hlookup, hdying, Evgen.report, halive]
  · refine ⟨if evg.shutdownReported then reason else g.shutdownReason, ?_⟩
    rcases hreported : evg.shutdownReported with - | - <;>
      rcases hshutdown : g.shutdown with - | - <;>
      simp [DomainTable.dead, DomainTable.events, DomainTable.told, hlookup, hdying, halive,
        hreported, hshutdown]

variable {all all' others : List Evgen} {occurred : List (ℕ × Event)}

/-- It does not matter in which list a generator is, -/
theorem Told.perm (h : Told made all occurred) (hperm : all.Perm all') :
    Told made all' occurred where
  nodup := (hperm.map Evgen.addr).nodup_iff.mp h.nodup
  fresh evg hevg := h.fresh evg (hperm.mem_iff.mpr hevg)
  old := h.old
  tells evg hevg := h.tells evg (hperm.mem_iff.mpr hevg)

/-- and a generator that was given back need not be told of any more. -/
theorem Told.sublist (h : Told made all occurred) (hsub : all'.Sublist all) :
    Told made all' occurred where
  nodup := h.nodup.sublist (hsub.map Evgen.addr)
  fresh evg hevg := h.fresh evg (hsub.subset hevg)
  old := h.old
  tells evg hevg := h.tells evg (hsub.subset hevg)

/-- A generator is made. -/
theorem Told.cons (h : Told made all occurred) (domid : ℕ) :
    Told (made + 1) (⟨made, domid, false, false⟩ :: all) occurred where
  nodup := by
    refine List.nodup_cons.mpr ⟨?_, h.nodup⟩
    intro hmem
    obtain ⟨evg, hevg, haddr⟩ := List.mem_map.mp hmem
    exact absurd haddr (Nat.ne_of_lt (h.fresh evg hevg))
  fresh := by
    intro evg hevg
    rcases List.mem_cons.mp hevg with rfl | hevg
    · exact Nat.lt_succ_self made
    · exact Nat.lt_succ_of_lt (h.fresh evg hevg)
  old p hp := Nat.lt_succ_of_lt (h.old p hp)
  tells := by
    intro evg hevg
    rcases List.mem_cons.mp hevg with rfl | hevg
    · -- an address that has not been given out has no history
      refine ⟨0, ?_⟩
      simp only [history, Bool.false_eq_true, if_false, List.append_nil, List.map_eq_nil_iff]
      apply List.filter_eq_nil_iff.mpr
      intro p hp
      simpa using Nat.ne_of_lt (h.old p hp)
    · exact h.tells evg hevg

/-- A generator is settled. -/
theorem Told.settle (h : Told made (evg :: others) occurred) (halive : evg.deathReported = false) :
    Told made ((if T.dead evg then evg.report else T.told evg) :: others)
      (occurred ++ T.events evg) := by
  have haddr : (if T.dead evg then evg.report else T.told evg).addr = evg.addr := by
    split_ifs <;> rfl
  refine ⟨?_, ?_, ?_, ?_⟩
  · rw [List.map_cons, haddr]
    exact h.nodup
  · intro e he
    rcases List.mem_cons.mp he with rfl | he
    · rw [haddr]
      exact h.fresh evg List.mem_cons_self
    · exact h.fresh e (List.mem_cons_of_mem _ he)
  · intro p hp
    rcases List.mem_append.mp hp with hp | hp
    · exact h.old p hp
    · have hself : p.1 = evg.addr := by
        by_contra hother
        have hnil := T.history_events_other (Ne.symm hother)
        rw [history, List.map_eq_nil_iff, List.filter_eq_nil_iff] at hnil
        exact hnil p hp (by simp)
      rw [hself]
      exact h.fresh evg List.mem_cons_self
  · intro e he
    rw [history_append]
    rcases List.mem_cons.mp he with rfl | he
    · rw [haddr, T.history_events_self]
      exact (h.tells evg List.mem_cons_self).settle halive
    · have hother : evg.addr ≠ e.addr := by
        intro heq
        exact (List.nodup_cons.mp h.nodup).1 (List.mem_map.mpr ⟨e, he, heq.symm⟩)
      rw [T.history_events_other hother, List.append_nil]
      exact h.tells e (List.mem_cons_of_mem _ he)

/-- **The search settles a generator.** -/
theorem Sound.settle (h : Sound made x (evg :: left)) : Sound made (T.settle x evg) left := by
  have halive := h.alive evg (by simp)
  have hfront : (x.passed ++ evg :: left ++ x.reported).Perm
      (evg :: (x.passed ++ left ++ x.reported)) := by
    rw [List.append_assoc, List.append_assoc]
    exact List.perm_middle
  have htold := (h.told.perm hfront).settle (T := T) halive
  rw [T.settle_eq]
  rcases hdead : T.dead evg with - | -
  · simp only [hdead, Bool.false_eq_true, if_false] at htold
    refine ⟨htold.perm ?_, ?_, h.dead, ?_⟩
    · simp only [Bool.false_eq_true, if_false, List.append_assoc, List.nil_append]
      exact List.perm_middle.symm
    · intro e he
      simp only [Bool.false_eq_true, if_false, List.append_assoc] at he
      rcases List.mem_append.mp he with he | he
      · exact h.alive e (List.mem_append_left _ he)
      · rcases List.mem_cons.mp he with rfl | he
        · exact halive
        · have hleft : e ∈ left := he
          exact h.alive e (by simp [hleft])
    · have hmap : (x.passed ++ [T.told evg] ++ left).map Evgen.domid =
          (x.passed ++ evg :: left).map Evgen.domid := by
        simp [DomainTable.told]
      have hsorted := h.sorted
      simp only [Bool.false_eq_true, if_false]
      rw [← List.pairwise_map (f := Evgen.domid)] at hsorted ⊢
      rwa [hmap]
  · simp only [hdead, if_true] at htold
    refine ⟨htold.perm ?_, ?_, ?_, ?_⟩
    · simp only [if_true, List.append_nil]
      exact List.perm_middle.symm
    · intro e he
      refine h.alive e ?_
      simp only [if_true, List.append_nil, List.mem_append, List.mem_cons] at he ⊢
      tauto
    · intro e he
      rcases List.mem_cons.mp he with rfl | he
      · rfl
      · exact h.dead e he
    · simp only [if_true, List.append_nil]
      exact h.sorted.sublist ((List.sublist_cons_self _ _).append_left _)

/-- **A turn settles several of them**, one after the other. -/
theorem Sound.foldl_settle {pre : List Evgen} (h : Sound made x (pre ++ left)) :
    Sound made (pre.foldl T.settle x) left := by
  induction pre generalizing x with
  | nil => exact h
  | cons evg pre ih => exact ih h.settle

end Settle

/-! ### Every run -/

section Runs

variable {insertSorted : Evgen → List Evgen → List Evgen} {c c' : Ctx} {evg : Evgen}

/-- What holds of a context at any time, in the middle of a search as well. It is an invariant
of every step; the last part says that a search asks for no domain behind the generator at its
cursor, which is what the lemmas on a turn need. -/
structure Ctx.Inv (c : Ctx) : Prop where
  sound : Sound c.made c.lists c.left
  /-- While somebody waits, the watch is registered. -/
  watched : c.deathList ≠ [] → c.watch = true
  idle : c.asking = none → c.lists.passed = []
  ahead : ∀ domid, c.asking = some domid → ∀ evg ∈ c.left, domid ≤ evg.domid

/-- Nobody waits, and nothing has been told. -/
theorem Ctx.Inv.init : Ctx.init.Inv where
  sound := ⟨⟨.nil, nofun, nofun, nofun⟩, nofun, nofun, .nil⟩
  watched h := absurd rfl h
  idle _ := rfl
  ahead := nofun

/-- A search that is under way is as the lemmas on its turns want it. -/
theorem Ctx.Inv.ordered (h : c.Inv) {domid : ℕ} (hasking : c.asking = some domid) :
    Search.Ordered ⟨c.lists, c.left, domid⟩ where
  sorted := (List.pairwise_append.mp h.sound.sorted).2.1
  ahead := h.ahead domid hasking

/-- A generator is given back. -/
theorem Sound.remove {made : ℕ} {x : Lists} {left left' reported' : List Evgen}
    (h : Sound made x left) (hleft : left'.Sublist left)
    (hreported : reported'.Sublist x.reported) :
    Sound made { x with reported := reported' } left' where
  told := h.told.sublist ((hleft.append_left _).append hreported)
  alive e he := h.alive e ((hleft.append_left _).subset he)
  dead e he := h.dead e (hreported.subset he)
  sorted := h.sorted.sublist (hleft.append_left _)

/-- What giving a generator back leaves: a part of each list, and the watch while somebody
waits. -/
theorem Ctx.evdisable_cases (c : Ctx) (evg : Evgen) : ∃ left' reported' watch',
    c.evdisable evg =
      { c with lists := { c.lists with reported := reported' }, left := left', watch := watch' } ∧
    left'.Sublist c.left ∧ reported'.Sublist c.lists.reported ∧
    (left' ≠ [] → watch' = c.watch) ∧
    (evg.deathReported = false → left' = c.left.filter (·.addr ≠ evg.addr)) := by
  have hsub (l : List Evgen) : (l.filter (·.addr ≠ evg.addr)).Sublist l := List.filter_sublist
  simp only [Ctx.evdisable]
  rcases hreported : evg.deathReported with - | -
  · simp only [Bool.not_false, if_true]
    split_ifs with hempty
    · refine ⟨_, _, _, rfl, hsub _, List.Sublist.refl _, fun hne => ?_, fun _ => rfl⟩
      exact absurd (List.isEmpty_iff.mp (Bool.and_eq_true _ _ ▸ hempty).1) hne
    · exact ⟨_, _, _, rfl, hsub _, List.Sublist.refl _, fun _ => rfl, fun _ => rfl⟩
  · simp only [Bool.not_true, Bool.false_eq_true, if_false]
    split_ifs with hempty
    · refine ⟨_, _, _, rfl, List.Sublist.refl _, hsub _, fun hne => ?_, nofun⟩
      exact absurd (List.isEmpty_iff.mp (Bool.and_eq_true _ _ ▸ hempty).1) hne
    · exact ⟨_, _, _, rfl, List.Sublist.refl _, hsub _, fun _ => rfl, nofun⟩

/-- A generator is given back. -/
theorem Ctx.Inv.evdisable (h : c.Inv) (hasking : c.asking = none) : (c.evdisable evg).Inv := by
  obtain ⟨left', reported', watch', heq, hleft, hreported, hwatch, -⟩ := c.evdisable_cases evg
  have hpassed := h.idle hasking
  rw [heq]
  refine ⟨h.sound.remove hleft hreported, fun hne => ?_, fun _ => hpassed, fun d hd => ?_⟩
  · have hne' : left' ≠ [] := by
      simpa [Ctx.deathList, hpassed] using hne
    refine (hwatch hne').trans (h.watched fun hnil => hne' ?_)
    rw [Ctx.deathList, hpassed, List.nil_append] at hnil
    exact List.sublist_nil.mp (hnil ▸ hleft)
  · rw [hasking] at hd
    cases hd

/-- A generator is made. -/
theorem Sound.insert (hins : InsertsSorted insertSorted) {made : ℕ} {x : Lists}
    {left : List Evgen} (h : Sound made x left) (hpassed : x.passed = []) (domid : ℕ) :
    Sound (made + 1) x (insertSorted ⟨made, domid, false, false⟩ left) := by
  have hperm := hins.perm ⟨made, domid, false, false⟩ left
  have htold := h.told.cons domid
  have hsorted := h.sorted
  rw [hpassed, List.nil_append] at htold hsorted
  refine ⟨?_, ?_, h.dead, ?_⟩
  · rw [hpassed, List.nil_append]
    exact htold.perm (hperm.symm.append_right _)
  · intro e he
    rw [hpassed, List.nil_append] at he
    rcases List.mem_cons.mp (hperm.mem_iff.mp he) with rfl | he
    · rfl
    · exact h.alive e (List.mem_append_right _ he)
  · rw [hpassed, List.nil_append]
    exact hins.sorted _ _ hsorted

/-- A generator is made, unless the memory is short. If the watch cannot be registered it is
given back at once, and since nobody else waits then, nothing is left to be watched. -/
theorem Ctx.Inv.evenable (hins : InsertsSorted insertSorted) (h : c.Inv) (hasking : c.asking = none)
    (domid : ℕ) (malloc registers : Bool) :
    (c.evenable insertSorted domid malloc registers).Inv := by
  have hpassed := h.idle hasking
  have hsound := h.sound.insert hins hpassed domid
  have hahead : ∀ d, c.asking = some d → ∀ evg ∈ insertSorted ⟨c.made, domid, false, false⟩ c.left,
      d ≤ evg.domid := by
    intro d hd
    rw [hasking] at hd
    cases hd
  simp only [Ctx.evenable]
  split_ifs with hmalloc hwatch hregisters
  · exact h
  · exact ⟨hsound, fun _ => hwatch, fun _ => hpassed, hahead⟩
  · exact ⟨hsound, fun _ => rfl, fun _ => hpassed, hahead⟩
  · -- nobody else waits: the list is empty again
    have hnil : c.left = [] := by
      by_contra hne
      refine hwatch (h.watched ?_)
      rw [Ctx.deathList, hpassed, List.nil_append]
      exact hne
    obtain ⟨left', reported', watch', heq, hleft, hreported, -, hfilter⟩ := Ctx.evdisable_cases
      { c with left := insertSorted ⟨c.made, domid, false, false⟩ c.left, made := c.made + 1 }
      ⟨c.made, domid, false, false⟩
    have hempty : left' = [] := by
      rw [hfilter rfl, List.filter_eq_nil_iff]
      intro e he
      have hmem := (hins.perm _ _).mem_iff.mp he
      rw [hnil, List.mem_singleton] at hmem
      simp [hmem]
    rw [heq]
    refine ⟨hsound.remove hleft hreported, fun hne => absurd ?_ hne, fun _ => hpassed, ?_⟩
    · show c.lists.passed ++ left' = []
      rw [hpassed, hempty]
      rfl
    · exact fun d hd evg hevg => hahead d hd evg (hleft.subset hevg)

/-- **What a turn of a search comes to**: it settles the generators that it covers, which are the
first of those that are left; with the last of them the search is over. If the question fails, it
gives up. -/
theorem Ctx.getinfolist_cases (h : c.Inv) {answer : Option DomainTable} {domid : ℕ}
    (hasking : c.asking = some domid) (hs : c.step insertSorted (.getinfolist answer) = some c') :
    (answer = none ∧
      c' = { c with
        lists := { c.lists with passed := [] }
        left := c.lists.passed ++ c.left
        asking := none }) ∨
    ∃ T, answer = some T ∧ ∃ pre left, c.left = pre ++ left ∧
      (∀ evg ∈ pre, T.covers ⟨c.lists, c.left, domid⟩ evg = true) ∧
      (∀ evg ∈ left, T.covers ⟨c.lists, c.left, domid⟩ evg = false) ∧
      ((left = [] ∧ c' = c.goOn (.inl (.done (pre.foldl T.settle c.lists)))) ∨
        left ≠ [] ∧ ∃ domid', (∀ evg ∈ left, domid' ≤ evg.domid) ∧
          c' = { c with
            lists := pre.foldl T.settle c.lists, left := left, asking := some domid' }) := by
  rw [Ctx.step, hasking, Option.map_some] at hs
  obtain rfl := Option.some.inj hs
  rcases answer with - | T
  · exact Or.inl ⟨rfl, rfl⟩
  refine Or.inr ⟨T, rfl, ?_⟩
  have hordered := h.ordered hasking
  have hask : (fun d n => (some T).bind (·.getinfolist d n)) = T.getinfolist := rfl
  rw [hask]
  rcases hturn : Search.turn T.getinfolist ⟨c.lists, c.left, domid⟩ with o | s
  · obtain ⟨rfl, hcovers⟩ := turn_last hordered hturn
    exact ⟨c.left, [], (List.append_nil _).symm, hcovers, nofun, Or.inl ⟨rfl, rfl⟩⟩
  · obtain ⟨hahead, hne, pre, hleft, hlists, hcovers, hbeyond⟩ := turn_next hordered hturn
    refine ⟨pre, s.left, hleft, hcovers, hbeyond, Or.inr ⟨hne, s.domid, hahead.ahead, ?_⟩⟩
    rw [← hlists]
    rfl

/-- The search comes back: its cursor is put in front again. -/
theorem Sound.rewind {made : ℕ} {x : Lists} {left : List Evgen} (h : Sound made x left) :
    Sound made { x with passed := [] } (x.passed ++ left) :=
  ⟨h.told, h.alive, h.dead, h.sorted⟩

/-- **A turn of a search** keeps the invariant: it gives up, is over, or goes on behind the
generators that it has settled. -/
theorem Ctx.Inv.getinfolist (h : c.Inv) {answer : Option DomainTable}
    (hs : c.step insertSorted (.getinfolist answer) = some c') : c'.Inv := by
  rcases hasking : c.asking with - | domid
  · rw [Ctx.step, hasking] at hs
    cases hs
  rcases Ctx.getinfolist_cases h hasking hs with
    ⟨-, rfl⟩ | ⟨T, -, pre, left, hleft, -, -, ⟨rfl, rfl⟩ | ⟨-, domid', hahead, rfl⟩⟩
  · exact ⟨h.sound.rewind, h.watched, fun _ => rfl, nofun⟩
  · have hsound : Sound c.made (pre.foldl T.settle c.lists) [] :=
      Sound.foldl_settle (hleft ▸ h.sound)
    have hrewind := hsound.rewind
    rw [List.append_nil] at hrewind
    refine ⟨hrewind, fun hne => h.watched fun hnil => hne ?_, fun _ => rfl, nofun⟩
    obtain ⟨hpassed, hnil⟩ := List.append_eq_nil_iff.mp hnil
    rw [hnil, List.append_nil] at hleft
    rw [← hleft]
    exact hpassed
  · have hsound : Sound c.made (pre.foldl T.settle c.lists) left :=
      Sound.foldl_settle (hleft ▸ h.sound)
    refine ⟨hsound, fun hne => h.watched fun hnil => hne ?_, nofun, ?_⟩
    · obtain ⟨hpassed, hnil⟩ := List.append_eq_nil_iff.mp hnil
      rw [hnil] at hleft
      obtain ⟨rfl, rfl⟩ := List.append_eq_nil_iff.mp hleft.symm
      exact List.append_eq_nil_iff.mpr ⟨hpassed, rfl⟩
    · rintro d hd
      obtain rfl := Option.some.inj hd
      exact hahead

/-- **Step.** A search begins with the first generator, whose domain is the least. -/
theorem Ctx.Inv.step (hins : InsertsSorted insertSorted) (h : c.Inv) {a : CtxAct}
    (hs : c.step insertSorted a = some c') : c'.Inv := by
  rcases a with ⟨domid, malloc, registers⟩ | evg | - | answer
  · simp only [Ctx.step] at hs
    split_ifs at hs with hasking
    obtain rfl := Option.some.inj hs
    exact h.evenable hins hasking domid malloc registers
  · simp only [Ctx.step] at hs
    split_ifs at hs with hasking
    obtain rfl := Option.some.inj hs
    exact h.evdisable hasking.1
  · simp only [Ctx.step] at hs
    split_ifs at hs with hguard
    obtain rfl := Option.some.inj hs
    refine { h with idle := fun _ => h.idle hguard.1, ahead := fun d hd => ?_ }
    -- the search begins with the first of the list
    obtain ⟨evg, hevg, rfl⟩ := Option.map_eq_some_iff.mp hd
    obtain ⟨left, hleft⟩ := List.head?_eq_some_iff.mp hevg
    have hsorted := (List.pairwise_append.mp h.sound.sorted).2.1
    intro e he
    rw [hleft] at hsorted he
    rcases List.mem_cons.mp he with rfl | he
    · exact Nat.le_refl _
    · exact (List.pairwise_cons.mp hsorted).1 e he
  · exact h.getinfolist hs

/-- **Run.** It holds in every state that is reached, by the induction on runs. -/
theorem Ctx.inv_of_reach (hins : InsertsSorted insertSorted)
    (h : Reach (Ctx.step insertSorted) Ctx.Initial c) : c.Inv := by
  refine h.invariant ?_ fun _ _ _ hinv hs => hinv.step hins hs
  rintro _ rfl
  exact Ctx.Inv.init

/-- **What a generator has been told is what its flags say**, in any run and in the middle of a
search as well: nothing, a shutdown, a death, or a shutdown and then a death, each at most once.
Those that wait for a death are in `death_list`, in order, and the others are not; while somebody
waits the watch is registered. -/
theorem watch_history (hins : InsertsSorted insertSorted)
    (h : Reach (Ctx.step insertSorted) Ctx.Initial c) :
    (∀ evg ∈ c.deathList ++ c.lists.reported,
      evg.Tells (history c.lists.occurred evg.addr) ∧
        (evg ∈ c.deathList ↔ evg.deathReported = false)) ∧
      c.deathList.Pairwise (·.domid ≤ ·.domid) ∧ (c.deathList ≠ [] → c.watch = true) := by
  have hinv := Ctx.inv_of_reach hins h
  refine ⟨fun evg hevg => ⟨hinv.sound.told.tells evg hevg, hinv.sound.alive evg, fun halive => ?_⟩,
    hinv.sound.sorted, hinv.watched⟩
  refine (List.mem_append.mp hevg).resolve_right fun hdead => ?_
  rw [hinv.sound.dead evg hdead] at halive
  cases halive

/-- The insertion in front of the first generator that does not lie before the new one. -/
def insertBefore : Evgen → List Evgen → List Evgen := List.orderedInsert (·.domid ≤ ·.domid)

/-- It inserts as the macro is said to. -/
theorem insertsSorted_insertBefore : InsertsSorted insertBefore where
  perm evg l := List.perm_orderedInsert _ evg l
  sorted evg l hl := by
    have : Std.Total fun a b : Evgen => a.domid ≤ b.domid := ⟨fun a b => Nat.le_total _ _⟩
    have : IsTrans Evgen fun a b => a.domid ≤ b.domid := ⟨fun _ _ _ => Nat.le_trans⟩
    exact hl.orderedInsert evg l

/-- Domain 5 has shut down. -/
def shutTable : DomainTable := ⟨[⟨5, false, true, 1⟩], List.pairwise_singleton _ _⟩

/-- Domain 5 shuts down, and is destroyed. -/
def goneRun : List CtxAct := [.evenable 5 true true, .releaseDomain, .getinfolist (some shutTable),
  .releaseDomain, .getinfolist (some ⟨[], .nil⟩)]

/-- A generator has been told of a shutdown and then of a death. -/
theorem watch_history_gone : ∃ c, Reach (Ctx.step insertBefore) Ctx.Initial c ∧
    c.lists.reported = [⟨0, 5, true, true⟩] ∧
    (⟨0, 5, true, true⟩ : Evgen).Tells (history c.lists.occurred 0) := by
  have hrun : (exec (Ctx.step insertBefore) Ctx.init goneRun).map (·.lists.reported) =
      some [⟨0, 5, true, true⟩] := by
    decide +kernel
  obtain ⟨c, hc, hreported⟩ := Option.map_eq_some_iff.mp hrun
  have hreach := (Reach.start Ctx.initial_init).of_exec hc
  have htold := (watch_history insertsSorted_insertBefore hreach).1 ⟨0, 5, true, true⟩
    (List.mem_append_right _ (hreported ▸ List.mem_cons_self))
  exact ⟨c, hreach, hreported, htold.1⟩

/-- **No event is made up, and none is missed.** A turn of a search settles of the generators that
are left exactly those that it covers: those up to the last domain that it is shown, or all of them
where it is shown none. What it reports is what the table of domains of that moment says of these;
they move to `death_reported` or stay with their flag, the others stay as they are, and the search
is over when there are none. -/
theorem watch_truth (hins : InsertsSorted insertSorted)
    (h : Reach (Ctx.step insertSorted) Ctx.Initial c) {T : DomainTable}
    (hs : c.step insertSorted (.getinfolist (some T)) = some c') :
    ∃ domid pre left, c.asking = some domid ∧ c.left = pre ++ left ∧
      (∀ evg ∈ pre, T.covers ⟨c.lists, c.left, domid⟩ evg = true) ∧
      (∀ evg ∈ left, T.covers ⟨c.lists, c.left, domid⟩ evg = false) ∧
      c'.lists.occurred = c.lists.occurred ++ pre.flatMap T.events ∧
      c'.lists.reported = ((pre.filter T.dead).map Evgen.report).reverse ++ c.lists.reported ∧
      c'.deathList = c.lists.passed ++ (pre.filter (!T.dead ·)).map T.told ++ left ∧
      (c'.asking = none ↔ left = []) := by
  have hinv := Ctx.inv_of_reach hins h
  rcases hasking : c.asking with - | domid
  · rw [Ctx.step, hasking] at hs
    cases hs
  rcases Ctx.getinfolist_cases hinv hasking hs with
    ⟨hnone, -⟩ | ⟨T', hT, pre, left, hleft, hcovers, hbeyond, hcase⟩
  · cases hnone
  obtain rfl := Option.some.inj hT
  refine ⟨domid, pre, left, rfl, hleft, hcovers, hbeyond, ?_⟩
  rcases hcase with ⟨rfl, rfl⟩ | ⟨hne, domid', -, rfl⟩
  · simp [Ctx.goOn, Ctx.deathList, DomainTable.foldl_settle]
  · simp [Ctx.deathList, DomainTable.foldl_settle, hne]

/-- A search for the domains 5 and 7 is under way. -/
def searching : Ctx :=
  ⟨⟨[], [], []⟩, [⟨0, 5, false, false⟩, ⟨1, 7, false, false⟩], some 5, true, 2⟩

/-- Domain 5 has shut down, domain 7 is gone and domain 9 runs. -/
def laterTable : DomainTable := ⟨[⟨5, false, true, 1⟩, ⟨9, false, false, 0⟩], by decide⟩

/-- The search reports the shutdown of domain 5 and the death of domain 7. -/
theorem watch_truth_shut : ∃ c',
    searching.step insertBefore (.getinfolist (some laterTable)) = some c' ∧
    c'.lists.occurred = [(0, .domainShutdown 5 1), (1, .domainDeath 7)] := by
  have hexec : exec (Ctx.step insertBefore) Ctx.init
      [.evenable 5 true true, .evenable 7 true true, .releaseDomain] = some searching := rfl
  have hreach := (Reach.start Ctx.initial_init).of_exec hexec
  obtain ⟨domid, pre, left, hasking, hleft, -, hbeyond, hoccurred, -⟩ :=
    watch_truth insertsSorted_insertBefore hreach (T := laterTable) rfl
  obtain rfl : 5 = domid := Option.some.inj hasking
  have hall : ∀ evg ∈ searching.left,
      laterTable.covers ⟨searching.lists, searching.left, 5⟩ evg = true := by
    decide +kernel
  have hnil : left = [] := by
    refine List.eq_nil_iff_forall_not_mem.mpr fun evg hevg => ?_
    have hcovers := hall evg (hleft ▸ List.mem_append_right _ hevg)
    rw [hbeyond evg hevg] at hcovers
    cases hcovers
  rw [hnil, List.append_nil] at hleft
  refine ⟨_, rfl, hoccurred.trans ?_⟩
  rw [← hleft]
  decide

end Runs

end Xen

end OpenLog
