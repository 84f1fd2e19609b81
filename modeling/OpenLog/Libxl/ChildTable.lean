import Mathlib.Data.List.Basic
import OpenLog.Logic.Run

/-!
# The table of a domain's children

With the patches of December 2013 the driver itself waits for the processes that libxenlight
forks. `libxl_fork_replacement` enters a new child in a table of the domain, at the first free
slot, and `ao_how_wait` looks once a second through the slots in use and hands the children that
have exited to `libxl_childproc_reaped`. A slot is never freed.

The forks, exits and scans of a domain, in any order, are the system
`OpenLog.Libxl.ChildTable.step`; an exit during a scan is one before or after it, for each child
is looked at once. As long as the table has a free slot, all children are entered in it, every
scan hands over those that have exited, and none is handed over twice
(`OpenLog.Libxl.ChildTable.tended_of_room`). But the free slots run out with the hundredth child
of the domain, whatever has become of the others, and then both functions read behind the end of
the table (`OpenLog.Libxl.ChildTable.tended_step_iff`).
-/

namespace OpenLog

namespace Libxl

open Logic

namespace ChildTable

/-! ### The table and the children -/

/-- `MAX_CHILD`. -/
def maxChild : ℕ := 100

/-- `per_sigchild_info`; the field `status` is not used. -/
structure Entry where
  pid : ℕ
  called : Bool
  deriving DecidableEq

/-- A slot that has not been used. -/
def freeEntry : Entry := ⟨0, false⟩

/-- A process that was forked for the domain. -/
structure Child where
  pid : ℕ
  exited : Bool
  /-- `waitpid` has returned its pid. -/
  waited : Bool
  /-- How often it was handed to `libxl_childproc_reaped`. -/
  handed : ℕ
  /-- The slot in which `libxl_fork_replacement` has entered it, if it has returned. -/
  slot : Option ℕ
  deriving DecidableEq

/-- The table of a domain, and the children that were forked for it, in order. -/
structure State where
  table : List Entry
  children : List Child
  /-- A slot behind the end of the table was read. -/
  outside : Bool
  /-- A scan has left out a child that had exited before. -/
  missed : Bool

/-- Nothing is forked, and the table is zero. -/
def start : State := ⟨List.replicate maxChild freeEntry, [], false, false⟩

/-! ### Forking -/

/-- How the loop of `libxl_fork_replacement` ends. -/
inductive Found where
  | free (i : ℕ)
  /-- In `while(1)`. -/
  | hangs
  /-- With a slot behind the end of the table. -/
  | outside
  deriving DecidableEq

/-- The loop, from slot `i` on. -/
def findFree : ℕ → List Entry → Found
  | _, [] => .outside
  | i, e :: es =>
    if e.pid ≠ 0 then
      if i = maxChild then .hangs else findFree (i + 1) es
    else .free i

/-- `libxl_fork_replacement` where `fork` returns `pid`. -/
def State.fork (s : State) (pid : ℕ) : State :=
  let forked (slot : Option ℕ) : List Child := s.children ++ [⟨pid, false, false, 0, slot⟩]
  match findFree 0 s.table with
  | .free i => { s with table := s.table.set i ⟨pid, false⟩, children := forked (some i) }
  | .hangs => { s with children := forked none }
  | .outside => { s with children := forked none, outside := true }

/-! ### Scanning -/

/-- What `waitpid` with `WNOHANG` returns. -/
inductive Waited where
  /-- `0`. -/
  | notChanged
  /-- `-1`. -/
  | failed
  /-- The pid of the child at the index `k`. -/
  | exited (k : ℕ) (c : Child)

/-- `waitpid` on a pid. A child whose pid it has returned is gone. -/
def waitpid (children : List Child) (pid : ℕ) : Waited :=
  match children.findIdx? fun c => c.pid = pid && !c.waited with
  | none => .failed
  | some k =>
    match children[k]? with
    | none => .failed
    | some c => if c.exited then .exited k c else .notChanged

def Child.exit (c : Child) : Child := { c with exited := true }

/-- What is left of a child that is waited for and handed over. -/
def Child.reaped (c : Child) : Child := { c with waited := true, handed := c.handed + 1 }

/-- A turn that leaves the entry `e` in its slot, before the turns on the slots behind it. -/
def turned (e : Entry) (behind : Option (List Entry × List Child)) :
    Option (List Entry × List Child) :=
  behind.map fun r => (e :: r.1, r.2)

/-- The loop of `ao_how_wait` through the table: the entries and the children after it, or
`none` if it reads a slot behind the end. -/
def scanLoop (children : List Child) : List Entry → Option (List Entry × List Child)
  -- `info->child[i].pid` is read before `i` is compared to `MAX_CHILD`
  | [] => none
  | e :: es =>
    if e.pid = 0 then some (e :: es, children)
    else if e.called then turned e (scanLoop children es)
    else
      match waitpid children e.pid with
      | .notChanged | .failed => turned e (scanLoop children es)
      | .exited k c => turned { e with called := true } (scanLoop (children.set k c.reaped) es)

/-- A child that a scan should hand over. -/
def Child.due (c : Child) : Bool := c.exited && c.handed == 0 && c.slot.isSome

/-- `ao_how_wait` looks through the table. -/
def State.scan (s : State) : State :=
  match scanLoop s.children s.table with
  | none => { s with outside := true }
  | some (table, children) =>
    { s with
      table := table
      children := children
      missed := s.missed || (s.children.zip children).any fun c => c.1.due && c.2.handed == 0 }

/-! ### The system -/

inductive Act where
  /-- `libxl_fork_replacement`; `pid` is what `fork` returns in the parent, if it succeeds. -/
  | fork (pid : Option ℕ)
  /-- The child at the index `k` exits. -/
  | exit (k : ℕ)
  | scan
  deriving DecidableEq

/-- The system gives a pid to one process at a time. -/
def Fresh (s : State) (pid : ℕ) : Prop :=
  pid ≠ 0 ∧ ∀ c ∈ s.children, c.waited = false → c.pid ≠ pid

instance (s : State) (pid : ℕ) : Decidable (Fresh s pid) := inferInstanceAs (Decidable (_ ∧ _))

/-- One step, as long as nothing undefined has happened. -/
def step (s : State) (a : Act) : Option State :=
  if s.outside then none
  else match a with
    | .fork none => some s
    | .fork (some pid) => if Fresh s pid then some (s.fork pid) else none
    | .exit k =>
      match s.children[k]? with
      | none => none
      | some c =>
        if c.exited then none
        else some { s with children := s.children.set k c.exit }
    | .scan => some s.scan

def Initial (s : State) : Prop := s = start

/-- **The children are tended.** Each is entered in the table, at a slot of its own; no slot
behind the end is read; no scan leaves a child out that has exited; and none is handed over
twice. -/
structure Tended (s : State) : Prop where
  entered : ∀ k, ∀ c ∈ s.children[k]?, c.slot = some k ∧ k < maxChild ∧
    (s.table[k]?).map Entry.pid = some c.pid
  inside : s.outside = false
  complete : s.missed = false
  once : ∀ c ∈ s.children, c.handed ≤ 1

/-- The table has a free slot: fewer children than it has slots were forked in the life of the
domain. -/
def Room (s : State) : Act → Prop
  | .fork (some _) | .scan => s.children.length < maxChild
  | .fork none | .exit _ => True

instance (s : State) : (a : Act) → Decidable (Room s a)
  | .fork (some _) | .scan => inferInstanceAs (Decidable (_ < _))
  | .fork none | .exit _ => .isTrue trivial

/-! ### What the loops find -/

/-- The entry of a child in the table. -/
def Child.entry (c : Child) : Entry := ⟨c.pid, c.waited⟩

/-- What a child's entry in the table says of it, and what looking at it changes. -/
@[simp] theorem Child.entry_pid (c : Child) : c.entry.pid = c.pid := rfl

@[simp] theorem Child.entry_called (c : Child) : c.entry.called = c.waited := rfl

/-- A child after a scan. -/
def Child.tend (c : Child) : Child := if c.exited && !c.waited then c.reaped else c

@[simp] theorem Child.tend_pid (c : Child) : c.tend.pid = c.pid := by
  rw [tend]
  split_ifs <;> rfl

@[simp] theorem Child.tend_slot (c : Child) : c.tend.slot = c.slot := by
  rw [tend]
  split_ifs <;> rfl

/-- A child that is not handed over now was not before. -/
theorem Child.waited_of_tend (c : Child) (h : c.tend.waited = false) : c.waited = false := by
  rw [tend] at h
  split_ifs at h
  · cases h
  · exact h

/-- The table of a domain with these children. -/
def tableOf (children : List Child) : List Entry :=
  children.map Child.entry ++ List.replicate (maxChild - children.length) freeEntry

/-- No two processes have the same pid at the same time. -/
def Apart (children : List Child) : Prop :=
  children.Pairwise fun c d => c.waited = false → d.waited = false → c.pid ≠ d.pid

/-- No two entries of the same process are open, said of the table instead of the children. -/
theorem apart_iff {children : List Child} : Apart children ↔
    (children.map Child.entry).Pairwise fun e f =>
      e.called = false → f.called = false → e.pid ≠ f.pid := by
  rw [List.pairwise_map]
  rfl

/-- An exit leaves alone what does not depend on it. -/
theorem map_exit {α : Type} {f : Child → α} (hf : ∀ c : Child, f c.exit = f c)
    {children : List Child} {k : ℕ} (hk : k < children.length) :
    (children.set k children[k].exit).map f = children.map f := by
  have hk' : k < (children.map f).length := by rwa [List.length_map]
  have hget : (children.map f)[k] = f children[k] := List.getElem_map ..
  rw [List.map_set, hf, ← hget, List.set_getElem_self]

/-- The first free slot is the one behind the entries. -/
theorem findFree_entries {es : List Entry} (hes : ∀ e ∈ es, e.pid ≠ 0) (n : ℕ) {i : ℕ}
    (hi : i + es.length ≤ maxChild) : findFree i (es ++ List.replicate n freeEntry) =
      if n = 0 then .outside else .free (i + es.length) := by
  induction es generalizing i with
  | nil =>
    rcases n with _ | n
    · rfl
    · rfl
  | cons e es ih =>
    rw [List.forall_mem_cons] at hes
    rw [List.length_cons] at hi ⊢
    rw [List.cons_append, findFree, if_pos hes.1, if_neg (by omega), ih hes.2 (by omega)]
    congr 2
    omega

/-- `waitpid` finds the child of an entry that is not called yet. -/
theorem waitpid_eq {before after : List Child} {c : Child} (hc : c.waited = false)
    (hapart : Apart (before ++ c :: after)) : waitpid (before ++ c :: after) c.pid =
      if c.exited then .exited before.length c else .notChanged := by
  have hbefore : before.findIdx? (fun d => d.pid = c.pid && !d.waited) = none := by
    rw [List.findIdx?_eq_none_iff]
    intro d hd
    have hne := (List.pairwise_append.mp hapart).2.2 d hd c List.mem_cons_self
    rcases hwaited : d.waited with _ | _
    · simp [hne hwaited hc]
    · simp
  have hfind : (before ++ c :: after).findIdx? (fun d => d.pid = c.pid && !d.waited) =
      some before.length := by
    rw [List.findIdx?_append, hbefore, List.findIdx?_cons]
    simp [hc]
  rw [waitpid, hfind]
  simp

/-- A child with the same pid takes up no more room. -/
theorem Apart.replace {before after : List Child} {c c' : Child} (hpid : c'.pid = c.pid)
    (hwaited : c'.waited = false → c.waited = false) (h : Apart (before ++ c :: after)) :
    Apart (before ++ c' :: after) := by
  rw [Apart, List.pairwise_append, List.pairwise_cons] at h ⊢
  obtain ⟨hbefore, ⟨hc, hafter⟩, hbetween⟩ := h
  refine ⟨hbefore, ⟨fun d hd hc' => ?_, hafter⟩, fun d hd e he hd' he' => ?_⟩
  · rw [hpid]
    exact hc d hd (hwaited hc')
  · rcases List.mem_cons.mp he with rfl | he
    · rw [hpid]
      exact hbetween d hd c List.mem_cons_self hd' (hwaited he')
    · exact hbetween d hd e (List.mem_cons_of_mem _ he) hd' he'

/-- A turn of the loop on the entry of a child. -/
theorem scanLoop_cons {before rest : List Child} {c : Child} (hpid : c.pid ≠ 0)
    (hapart : Apart (before ++ c :: rest)) (es : List Entry) :
    scanLoop (before ++ c :: rest) (c.entry :: es) =
      turned c.tend.entry (scanLoop (before ++ c.tend :: rest) es) := by
  rw [scanLoop, Child.entry_pid, if_neg hpid, Child.entry_called]
  rcases hwaited : c.waited with _ | _
  · rw [if_neg (by simp), waitpid_eq hwaited hapart]
    rcases hexited : c.exited with _ | _
    · have htend : c.tend = c := by simp [Child.tend, hexited]
      rw [htend]
      rfl
    · have htend : c.tend = c.reaped := by simp [Child.tend, hexited, hwaited]
      have hset : (before ++ c :: rest).set before.length c.reaped =
          before ++ c.reaped :: rest := by simp
      show turned _ (scanLoop ((before ++ c :: rest).set before.length c.reaped) es) = _
      rw [htend, hset]
      rfl
  · have htend : c.tend = c := by simp [Child.tend, hwaited]
    rw [if_pos rfl, htend]

/-- **The loop of a scan** over what is left of the table, the children before it being dealt
with. -/
theorem scanLoop_entries {rest : List Child} (hpids : ∀ c ∈ rest, c.pid ≠ 0) (n : ℕ)
    {before : List Child} (hapart : Apart (before ++ rest)) :
    scanLoop (before ++ rest) (rest.map Child.entry ++ List.replicate n freeEntry) =
      if n = 0 then none
      else some ((rest.map Child.tend).map Child.entry ++ List.replicate n freeEntry,
        before ++ rest.map Child.tend) := by
  induction rest generalizing before with
  | nil =>
    rcases n with _ | n
    · rfl
    · rfl
  | cons c rest ih =>
    rw [List.forall_mem_cons] at hpids
    have hnext : Apart (before ++ [c.tend] ++ rest) := by
      rw [List.append_assoc, List.singleton_append]
      exact hapart.replace c.tend_pid c.waited_of_tend
    have hrest := ih hpids.2 hnext
    rw [List.append_assoc, List.singleton_append] at hrest
    rw [List.map_cons, List.cons_append, scanLoop_cons hpids.1 hapart, hrest]
    rcases n with _ | n
    · rfl
    · simp [turned]

/-- A child that should be handed over is. -/
theorem handed_tend {c : Child} (hcounted : c.handed = if c.waited then 1 else 0)
    (hdue : c.due = true) : c.tend.handed = 1 := by
  rw [Child.due, Bool.and_eq_true, Bool.and_eq_true, beq_iff_eq] at hdue
  obtain ⟨⟨hexited, hhanded⟩, -⟩ := hdue
  rcases hwaited : c.waited with _ | _
  · rw [Child.tend, hexited, hwaited]
    show c.handed + 1 = 1
    rw [hhanded]
  · rw [hwaited, hhanded] at hcounted
    cases hcounted

/-- A child is handed over when its status is fetched, and only then. -/
theorem counted_tend {c : Child} (hcounted : c.handed = if c.waited then 1 else 0) :
    c.tend.handed = if c.tend.waited then 1 else 0 := by
  rw [Child.tend]
  rcases hdue : c.exited && !c.waited with _ | _
  · exact hcounted
  · obtain ⟨-, hwaited⟩ := Bool.and_eq_true_iff.mp hdue
    rw [Bool.not_eq_true'] at hwaited
    show c.handed + 1 = 1
    rw [hcounted, hwaited]
    rfl

/-- A scan leaves out no child. -/
theorem not_missed {children : List Child}
    (hcounted : ∀ c ∈ children, c.handed = if c.waited then 1 else 0) :
    ((children.zip (children.map Child.tend)).any fun c => c.1.due && c.2.handed == 0) =
      false := by
  rw [← List.map_prod_left_eq_zip, List.any_map, List.any_eq_false]
  intro c hc hmissed
  rw [Function.comp_apply, Bool.and_eq_true, beq_iff_eq] at hmissed
  rw [handed_tend (hcounted c hc) hmissed.1] at hmissed
  cases hmissed.2

/-! ### The invariant -/

/-- **The table is in order**: it holds the children in the order of their forks, and those that
were waited for are those that were handed over. -/
structure Inv (s : State) : Prop where
  table : s.table = tableOf s.children
  length : s.children.length ≤ maxChild
  slots : s.children.map Child.slot = (List.range s.children.length).map some
  pids : ∀ c ∈ s.children, c.pid ≠ 0
  counted : ∀ c ∈ s.children, c.handed = if c.waited then 1 else 0
  apart : Apart s.children
  inside : s.outside = false
  complete : s.missed = false

/-- The table is empty and there are no children. -/
theorem inv_start : Inv start where
  table := rfl
  length := by decide
  slots := rfl
  pids := nofun
  counted := nofun
  apart := List.Pairwise.nil
  inside := rfl
  complete := rfl

/-- A table in order has all that is asked of it. -/
theorem Inv.tended {s : State} (h : Inv s) : Tended s := by
  refine ⟨fun k c hc => ?_, h.inside, h.complete, fun c hc => ?_⟩
  · obtain ⟨hk, hget⟩ := List.getElem?_eq_some_iff.mp hc
    have hslot : (s.children.map Child.slot)[k]? = some c.slot := by
      rw [List.getElem?_map, hc]
      rfl
    rw [h.slots, List.getElem?_map, List.getElem?_range hk] at hslot
    have hentry : s.table[k]? = some c.entry := by
      rw [h.table, tableOf, List.getElem?_append_left (by simpa using hk), List.getElem?_map, hc]
      rfl
    refine ⟨(Option.some.inj hslot).symm, Nat.lt_of_lt_of_le hk h.length, ?_⟩
    rw [hentry]
    rfl
  · rw [h.counted c hc]
    split_ifs <;> decide

section Steps

variable {s s' : State} {pid k : ℕ}

/-- What the loop of a fork finds. -/
theorem Inv.findFree (h : Inv s) : findFree 0 s.table =
    if s.children.length < maxChild then .free s.children.length else .outside := by
  have hpids : ∀ e ∈ s.children.map Child.entry, e.pid ≠ 0 := by
    intro e he
    obtain ⟨c, hc, rfl⟩ := List.mem_map.mp he
    exact h.pids c hc
  have hlength := h.length
  rw [h.table, tableOf, findFree_entries hpids _ (by simpa using hlength)]
  split_ifs
  · omega
  · rfl
  · simp
  · omega

/-- A fork with room. -/
theorem Inv.fork (h : Inv s) (hroom : s.children.length < maxChild) (hfresh : Fresh s pid) :
    Inv (s.fork pid) := by
  have hfree : maxChild - s.children.length = (maxChild - (s.children.length + 1)) + 1 := by omega
  rw [State.fork, h.findFree, if_pos hroom]
  refine ⟨?_, ?_, ?_, ?_, ?_, ?_, h.inside, h.complete⟩
  · show s.table.set _ _ = _
    rw [h.table, tableOf, tableOf, hfree, List.replicate_succ]
    simp [Child.entry]
  · rw [List.length_append]
    exact hroom
  · simp [List.range_succ, h.slots]
  · intro c hc
    rcases List.mem_append.mp hc with hc | hc
    · exact h.pids c hc
    · obtain rfl := List.mem_singleton.mp hc
      exact hfresh.1
  · intro c hc
    rcases List.mem_append.mp hc with hc | hc
    · exact h.counted c hc
    · obtain rfl := List.mem_singleton.mp hc
      rfl
  · refine List.pairwise_append.mpr ⟨h.apart, List.pairwise_singleton _ _, ?_⟩
    intro c hc d hd hwaited _
    obtain rfl := List.mem_singleton.mp hd
    exact hfresh.2 c hc hwaited

/-- An exit. -/
theorem Inv.exit (h : Inv s) (hk : k < s.children.length) :
    Inv { s with children := s.children.set k s.children[k].exit } := by
  have hmem := List.getElem_mem hk
  refine ⟨?_, ?_, ?_, fun c hc => ?_, fun c hc => ?_, ?_, h.inside, h.complete⟩
  · show s.table = _
    rw [tableOf, map_exit fun c => rfl, List.length_set]
    exact h.table
  · rw [List.length_set]
    exact h.length
  · rw [map_exit fun c => rfl, List.length_set]
    exact h.slots
  · rcases List.mem_or_eq_of_mem_set hc with hc | rfl
    · exact h.pids c hc
    · exact h.pids s.children[k] hmem
  · rcases List.mem_or_eq_of_mem_set hc with hc | rfl
    · exact h.counted c hc
    · exact h.counted s.children[k] hmem
  · rw [apart_iff, map_exit fun c => rfl, ← apart_iff]
    exact h.apart

/-- A scan with room. -/
theorem Inv.scan_eq (h : Inv s) : s.scan =
    if s.children.length < maxChild then
      { s with
        table := tableOf (s.children.map Child.tend)
        children := s.children.map Child.tend }
    else { s with outside := true } := by
  have hloop : scanLoop ([] ++ s.children) _ = _ :=
    scanLoop_entries h.pids (maxChild - s.children.length) h.apart
  have hlength := h.length
  rw [List.nil_append, ← tableOf, ← h.table] at hloop
  rw [State.scan, hloop]
  split_ifs with hfull hroom hroom
  · omega
  · rfl
  · have htable : (s.children.map Child.tend).map Child.entry ++
        List.replicate (maxChild - s.children.length) freeEntry =
        tableOf (s.children.map Child.tend) := by
      rw [tableOf, List.length_map]
    rw [List.nil_append, htable]
    show State.mk _ _ _ (s.missed || _) = _
    rw [not_missed h.counted, Bool.or_false]
  · omega

/-- **A scan** comes to all the children as long as the slot behind them is free, where it
stops. -/
theorem Inv.scan (h : Inv s) (hroom : s.children.length < maxChild) : Inv s.scan := by
  rw [h.scan_eq, if_pos hroom]
  refine ⟨rfl, ?_, ?_, fun c hc => ?_, fun c hc => ?_, ?_, h.inside, h.complete⟩
  · rw [List.length_map]
    exact h.length
  · rw [List.map_map, List.length_map, ← h.slots]
    exact List.map_congr_left fun c _ => c.tend_slot
  · obtain ⟨d, hd, rfl⟩ := List.mem_map.mp hc
    rw [d.tend_pid]
    exact h.pids d hd
  · obtain ⟨d, hd, rfl⟩ := List.mem_map.mp hc
    exact counted_tend (h.counted d hd)
  · refine List.pairwise_map.mpr (h.apart.imp fun hne hc hd => ?_)
    rw [Child.tend_pid, Child.tend_pid]
    exact hne (Child.waited_of_tend _ hc) (Child.waited_of_tend _ hd)

/-- **One step with room.** -/
theorem Inv.step {a : Act} (h : Inv s) (hroom : Room s a) (hs : step s a = some s') :
    Inv s' := by
  rcases a with ⟨_ | pid⟩ | k | _
  · obtain rfl : s = s' := by simpa [ChildTable.step, h.inside] using hs
    exact h
  · obtain ⟨hfresh, rfl⟩ : Fresh s pid ∧ s.fork pid = s' := by
      simpa [ChildTable.step, h.inside] using hs
    exact h.fork hroom hfresh
  · rcases hc : s.children[k]? with _ | c
    · simp [ChildTable.step, h.inside, hc] at hs
    · obtain ⟨hk, rfl⟩ := List.getElem?_eq_some_iff.mp hc
      obtain ⟨-, rfl⟩ : s.children[k].exited = false ∧
          { s with children := s.children.set k s.children[k].exit } = s' := by
        simpa [ChildTable.step, h.inside, hc] using hs
      exact h.exit hk
  · obtain rfl : s.scan = s' := by simpa [ChildTable.step, h.inside] using hs
    exact h.scan hroom

/-- **A step leaves the children tended just when there is room for it.** -/
theorem tended_step_iff {a : Act} (h : Inv s) (hs : ChildTable.step s a = some s') :
    Tended s' ↔ Room s a := by
  refine ⟨fun htended => ?_, fun hroom => (h.step hroom hs).tended⟩
  by_contra hfull
  rcases a with ⟨_ | pid⟩ | k | _
  · exact hfull trivial
  · obtain ⟨-, rfl⟩ : Fresh s pid ∧ s.fork pid = s' := by
      simpa [ChildTable.step, h.inside] using hs
    have houtside : (s.fork pid).outside = true := by
      rw [State.fork, h.findFree, if_neg (show ¬s.children.length < maxChild from hfull)]
    rw [htended.inside] at houtside
    cases houtside
  · exact hfull trivial
  · obtain rfl : s.scan = s' := by simpa [ChildTable.step, h.inside] using hs
    have houtside : s.scan.outside = true := by
      rw [h.scan_eq, if_neg (show ¬s.children.length < maxChild from hfull)]
    rw [htended.inside] at houtside
    cases houtside

end Steps

/-! ### Runs -/

/-- **The children of a domain are tended** in every run in which the table has a free slot at
every fork and scan: each is entered at a slot of its own, every scan hands over those that
have exited, and none is handed over twice. The forks, exits and scans may come in any order,
and processes may get the number of an earlier one. -/
theorem tended_of_room {s : State} (h : ReachVia step Initial Room s) : Tended s := by
  have hinv : Inv s := h.invariant (by rintro _ rfl; exact inv_start)
    fun _ _ _ h hroom hs => h.step hroom hs
  exact hinv.tended

/-- A child is forked, exits and is handed over. -/
theorem tended_of_room_child : ∃ s, ReachVia step Initial Room s ∧ Tended s ∧
    s.children = [⟨7, true, true, 1, some 0⟩] := by
  obtain ⟨s, hs, hchildren⟩ :
      ∃ s, exec (restrict step Room) start [.fork (some 7), .exit 0, .scan] = some s ∧
        s.children = [⟨7, true, true, 1, some 0⟩] := ⟨_, rfl, rfl⟩
  have hreach := (ReachVia.start (I := Initial) rfl).of_exec hs
  exact ⟨s, hreach, tended_of_room hreach, hchildren⟩

/-! ### A domain that lives long -/

/-- Fewer children than the table has slots are forked and not handed over yet. -/
def Few (s : State) : Act → Prop
  | .fork (some _) => (s.children.filter fun c => c.handed == 0).length + 1 < maxChild
  | .fork none | .exit _ | .scan => True

/-- The `k`-th child, after it has exited. -/
def lone (k : ℕ) : Child := ⟨7, true, false, 0, some k⟩

/-- `k` children, of which each was forked after the one before it was handed over. -/
def used (k : ℕ) : List Child := (List.range k).map fun i => (lone i).reaped

theorem used_succ (k : ℕ) : used (k + 1) = used k ++ [(lone k).reaped] := by
  rw [used, List.range_succ, List.map_append]
  rfl

/-- There are `k` of them, -/
theorem length_used (k : ℕ) : (used k).length = k := by
  rw [used, List.length_map, List.length_range]

/-- all handed over, -/
theorem handed_used {k : ℕ} {c : Child} (hc : c ∈ used k) : c.handed = 1 := by
  obtain ⟨i, -, rfl⟩ := List.mem_map.mp hc
  rfl

/-- and no scan has anything to do. -/
theorem tend_used (k : ℕ) : (used k).map Child.tend = used k := by
  rw [used, List.map_map]
  rfl

section Cycles

variable {s : State} {k : ℕ}

/-- The next child is forked and exits. -/
theorem reach_lone (hreach : ReachVia step Initial Few s) (h : Inv s)
    (hused : s.children = used k) (hk : k < maxChild) :
    ∃ s', ReachVia step Initial Few s' ∧ Inv s' ∧ s'.children = used k ++ [lone k] := by
  have hlength : s.children.length = k := by rw [hused, length_used]
  have hroom : s.children.length < maxChild := hlength ▸ hk
  have hfresh : Fresh s 7 := by
    refine ⟨by decide, fun c hc hwaited => ?_⟩
    have hhanded := h.counted c hc
    rw [hused] at hc
    rw [handed_used hc, hwaited] at hhanded
    cases hhanded
  have hfew : Few s (.fork (some 7)) := by
    have hnone : s.children.filter (fun c => c.handed == 0) = [] := by
      rw [hused, List.filter_eq_nil_iff]
      intro c hc hzero
      rw [handed_used hc] at hzero
      cases hzero
    rw [Few, hnone]
    decide
  have hforked : (s.fork 7).children = used k ++ [⟨7, false, false, 0, some k⟩] := by
    rw [State.fork, h.findFree, if_pos hroom, ← hused, ← hlength]
  have hinv := h.fork hroom hfresh
  have hk' : k < (s.fork 7).children.length := by
    rw [hforked, List.length_append, length_used]
    exact k.lt_succ_self
  have hget : (s.fork 7).children[k] = ⟨7, false, false, 0, some k⟩ := by
    simp [hforked, length_used]
  have hfork : step s (.fork (some 7)) = some (s.fork 7) := by simp [step, h.inside, hfresh]
  have hreached := hreach.step hfew hfork
  refine ⟨_, hreached.step (a := .exit k) trivial ?_, hinv.exit hk', ?_⟩
  · simp [step, hinv.inside, hk', hget]
  · simp [hforked, length_used, Child.exit, lone]

/-- So up to the size of the table a domain gets there, with at most one child at a time that
was not handed over. -/
theorem reach_used (hk : k < maxChild) :
    ∃ s, ReachVia step Initial Few s ∧ Inv s ∧ s.children = used k := by
  induction k with
  | zero => exact ⟨start, ReachVia.start rfl, inv_start, rfl⟩
  | succ k ih =>
    obtain ⟨s, hreach, hinv, hused⟩ := ih (by omega)
    obtain ⟨s', hreach', hinv', hlone⟩ := reach_lone hreach hinv hused (by omega)
    have hroom : s'.children.length < maxChild := by
      rw [hlone, List.length_append, length_used]
      exact hk
    refine ⟨s'.scan, hreach'.step (a := .scan) trivial ?_, hinv'.scan hroom, ?_⟩
    · simp [step, hinv'.inside]
    · rw [hinv'.scan_eq, if_pos hroom, hlone, List.map_append, tend_used, used_succ]
      rfl

end Cycles

/-- **Reading behind the table.** Each child is handed over before the next is forked, up to
the hundredth, and the scan for this one does not find the end of the table. -/
theorem hundredth_outside : ∃ s, ReachVia step Initial Few s ∧ s.children.length = 100 ∧
    s.outside = true ∧ ¬Tended s := by
  obtain ⟨s, hreach, hinv, hused⟩ := reach_used (k := 99) (by decide)
  obtain ⟨s', hreach', hinv', hlone⟩ := reach_lone hreach hinv hused (by decide)
  have hlength : s'.children.length = 100 := by
    rw [hlone, List.length_append, length_used]
    rfl
  have hscan : s'.scan = { s' with outside := true } := by
    rw [hinv'.scan_eq, if_neg (by rw [hlength]; decide)]
  have hstep : step s' .scan = some s'.scan := by simp [step, hinv'.inside]
  refine ⟨s'.scan, hreach'.step (a := .scan) trivial hstep, ?_, ?_, fun htended => ?_⟩
  · rw [hscan]
    exact hlength
  · rw [hscan]
  · have hinside := htended.inside
    rw [hscan] at hinside
    cases hinside

end ChildTable

end Libxl

end OpenLog
