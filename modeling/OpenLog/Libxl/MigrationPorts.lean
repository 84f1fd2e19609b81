import OpenLog.Logic.Reservations
import OpenLog.Logic.Run
import OpenLog.Libxl.Migrate

/-!
# The ports of incoming migrations

Prepare3 reserves a port for a migration whose URI names none, by setting a bit of
`reservedMigPorts`, and Finish3 frees the port that its own URI names. The calls of any
number of migrations, in any order, are the system of `OpenLog.Libxl.Ports`; a call is a
run of its program in which the bits read are those of the bitmap.

The bitmap is exact (`OpenLog.Libxl.Ports.Exact`) if it holds just the ports of the
migrations that are prepared and not finished. It stays so in a run where Prepare3 does not
fail after it has chosen a port, and Finish3 frees what its migration has reserved
and nothing else (`OpenLog.Libxl.Ports.exact_of_tidy`); and a call that is not of this kind
spoils it (`OpenLog.Libxl.Ports.exact_step_iff`).
-/

namespace OpenLog

namespace Libxl

open Logic
open Logic.Reservations (without)

/-! ### The bitmap during a call -/

/-- The bitmap during a call, and what the call has done. -/
structure PortRun where
  bits : Finset ℕ
  /-- The bit that the call has set. -/
  chosen : Option ℕ
  /-- A primitive has failed after that. -/
  failed : Bool
  /-- `virReportOOMError` has been called. -/
  outOfMemory : Bool

namespace PortRun

/-- A call that has done nothing yet. -/
def start (bits : Finset ℕ) : PortRun := ⟨bits, none, false, false⟩

@[simp] theorem start_chosen (bits : Finset ℕ) : (start bits).chosen = none := rfl

/-- One operation; `none` if a bit is read wrongly. -/
def next (p : PortRun) : (o : Op) → Res o → Option PortRun
  | .ask (.getBit bit), true => if bit ∈ p.bits then some p else none
  | .ask (.getBit bit), false => if bit ∈ p.bits then none else some p
  | .act (.setBit bit), _ => some { p with bits := insert bit p.bits, chosen := some bit }
  | .act (.clearBit bit), _ => some { p with bits := p.bits.erase bit }
  | .ask (.prim _), ok => some (if p.chosen.isSome && !ok then { p with failed := true } else p)
  | .act (.report .noMemory _), _ => some { p with outOfMemory := true }
  | _, _ => some p

attribute [local simp] next

/-- The bitmap as a monitor without requirements. -/
def monitor : Monitor Res (Option PortRun) :=
  ⟨fun p o r => p.bind fun p => p.next o r, fun _ _ => True⟩

@[simp] theorem monitor_next : monitor.next = fun p o r => p.bind fun p => p.next o r := rfl

@[simp] theorem monitor_ok (p : Option PortRun) (o : Op) : monitor.ok p o := trivial

variable {α : Type} {Q : α → Option PortRun → Prop} {E : Option PortRun → Prop}

/-- Nothing is asked of a run that reads a bit wrongly. -/
theorem wp_none {code : Code α} (hQ : ∀ a, Q a none) (hE : E none) :
    code.wp monitor Q E none := by
  refine Prog.wp_mono ?_ ?_ (Prog.wp_idle (fun _ => trivial) fun _ _ => rfl)
  · rintro a p rfl
    exact hQ a
  · rintro p rfl
    exact hE

/-- The loop that looks for a free port. -/
theorem wp_nextFreePortFrom {p : PortRun} {startPort bit left : ℕ} :
    (nextFreePortFrom startPort bit left).wp monitor
      (fun port p' => p' = none ∨ port = -1 ∧ p' = some p ∨
        ∃ i ∉ p.bits, port = (startPort + i : ℕ) ∧
          p' = some { p with bits := insert i p.bits, chosen := some i })
      (fun p' => p' = none) (some p) := by
  induction left generalizing bit with
  | zero => exact Or.inr (Or.inl ⟨rfl, rfl⟩)
  | succ left ih =>
    simp only [nextFreePortFrom, wp_ask, Prog.wp_ite, monitor_ok, monitor_next, true_and,
      Bool.forall_bool, Option.bind_some, next]
    by_cases hbit : bit ∈ p.bits
    -- one of the two answers is the right one, the other leads to `none`
    · simp only [hbit, if_true]
      exact ⟨wp_none (fun _ => Or.inl rfl) rfl, ih⟩
    · simp only [hbit, if_false]
      refine ⟨⟨trivial, fun probe => ?_⟩, wp_none (fun _ => Or.inl rfl) rfl⟩
      cases probe with
      | free => exact ⟨trivial, fun _ => Or.inr (Or.inr ⟨bit, hbit, by simp, rfl⟩)⟩
      | inUse => exact ih
      | error => exact Or.inr (Or.inl ⟨rfl, rfl⟩)

variable {strToLong : List Char → Option ℤ} {uri : Option Uri} {flags : MigrateFlags}

/-- Parsing fails for want of memory, or gives what is read off the URI. -/
theorem wp_parse {bits : Finset ℕ} : (doParseURI strToLong uri).wp monitor
    (fun res p' => ∃ oom, p' = some { start bits with outOfMemory := oom } ∧
      res = if oom then none else parseUri strToLong uri)
    (fun _ => False) (some (start bits)) := by
  unfold doParseURI parseUri
  split
  · simp [start]
  · split
    · simp [start]
    · split
      · rename_i hport
        simp [start, hport]
      · rename_i hport
        simp [start, hport]

/-- What Prepare3 has done to the bitmap: nothing, or it has set a free bit, and then
it succeeds unless a primitive fails. -/
def Prepared (bits : Finset ℕ) (ret : Int) (p : PortRun) : Prop :=
  p.chosen = none ∧ p.bits = bits ∧ p.failed = false ∨
    ∃ bit ∉ bits, p.chosen = some bit ∧ p.bits = insert bit bits ∧
      (0 ≤ ret ↔ p.failed = false)

variable {bits : Finset ℕ} {oom : Bool} {uriOut : Option Uri}

/-- Nothing has been done to the bitmap yet. -/
@[simp] theorem prepared_start (ret : Int) : Prepared bits ret (start bits) :=
  Or.inl ⟨rfl, rfl, rfl⟩

/-- The socket and the thread, for a migration whose uri names its port. -/
theorem wp_receive : (migratePrepare3.receive uriOut).wp monitor
    (fun ret p' => ∀ p, p' = some p → Prepared bits ret.1 p) (fun _ => True)
    (some { start bits with outOfMemory := oom }) := by
  simp [migratePrepare3.receive, start, Prepared]

/-- A port has been chosen, and is lost if anything fails. -/
theorem wp_receive_chosen {bit : ℕ} (hbit : bit ∉ bits) : (migratePrepare3.receive uriOut).wp
    monitor (fun ret p' => ∀ p, p' = some p → Prepared bits ret.1 p) (fun _ => True)
    (some ⟨insert bit bits, some bit, false, oom⟩) := by
  simp [migratePrepare3.receive, Prepared, hbit]

/-- A free port is looked for and the uri made of it, and then it goes on with the socket. -/
theorem wp_choosePort {hostname : List Char} : (migratePrepare3.choosePort hostname).wp monitor
    (fun ret p' => ∀ p, p' = some p → Prepared bits ret.1 p) (fun _ => True)
    (some { start bits with outOfMemory := oom }) := by
  refine Prog.wp_bind.mpr (Prog.wp_mono ?_ (fun _ _ => trivial) wp_nextFreePortFrom)
  rintro port p' (rfl | ⟨rfl, rfl⟩ | ⟨bit, hbit, rfl, rfl⟩)
  · exact wp_none (fun _ => nofun) trivial
  · simp [start, Prepared]
  · have hfree : bit ∉ bits := hbit
    have hport : ¬((migrationMinPort + bit : ℕ) : ℤ) < 0 := by omega
    have hlost : Prepared bits (-1) ⟨insert bit bits, some bit, true, true⟩ :=
      Or.inr ⟨bit, hfree, rfl, rfl, by simp⟩
    simp only [hport, if_false]
    simpa [start, hlost] using wp_receive_chosen hfree

/-- Prepare3 once the domain is in the list, with a uri that names a port or does not. -/
theorem wp_assign {defn : Bool} : (migratePrepare3.assign strToLong uri defn).wp monitor
    (fun ret p' => ∀ p, p' = some p → Prepared bits ret.1 p) (fun _ => True)
    (some (start bits)) := by
  cases uri with
  | none =>
    have hchoose : ∀ hostname, (migratePrepare3.choosePort hostname).wp monitor
        (fun ret p' => ∀ p, p' = some p → Prepared bits ret.1 p) (fun _ => True)
        (some (start bits)) :=
      fun _ => wp_choosePort
    simpa [migratePrepare3.assign, Option.forall]
      using fun _ => hchoose
  | some uri =>
    simp [migratePrepare3.assign]
    refine fun _ => Prog.wp_bind.mpr (Prog.wp_mono ?_ (fun _ h => h.elim) wp_parse)
    rintro (_ | ⟨hostname, port⟩) p' ⟨oom, rfl, -⟩
    · simp [start, Prepared]
    · simp only
      split_ifs
      · exact wp_choosePort
      · exact wp_receive

/-- **Prepare3.** Before that it does nothing to the bitmap. -/
theorem wp_prepare3 {domXml dname : Bool} :
    (migratePrepare3 strToLong domXml dname uri flags).wp monitor
      (fun ret p' => ∀ p, p' = some p → Prepared bits ret.1 p) (fun _ => True)
      (some (start bits)) := by
  simp [migratePrepare3, wp_assign]

/-- The bit of a port. -/
def portBit (port : ℤ) : Option ℕ :=
  if migrationMinPort ≤ port ∧ port < migrationMaxPort then
    some (port - migrationMinPort).toNat
  else none

/-- The bit that Finish3 clears. -/
def freedBit (strToLong : List Char → Option ℤ) (uri : Option Uri) (flags : MigrateFlags)
    (outOfMemory : Bool) : Option ℕ :=
  if flags.unsupported || outOfMemory then none
  else (parseUri strToLong uri).bind fun parsed => portBit parsed.2

/-- Releasing a port clears its bit, if it has one. -/
theorem wp_release {f : Unit → Code α} {p : PortRun} {port : ℤ} :
    (migrateFinish3.release port >>= f).wp monitor Q E (some p) ↔
      (f ()).wp monitor Q E (some { p with bits := without p.bits (portBit port) }) := by
  rw [wp_finish3_release, portBit]
  split_ifs <;> simp [without]

/-- Cleaning up after a domain leaves a call that has chosen no port alone. -/
theorem ignores_cleanup {p : PortRun} (hp : p.chosen = none) :
    monitor.Ignores Op.Cleanup (some p) := by
  rw [ignores_cleanup_iff]
  simp [hp]

/-- So does the rest of Finish3. -/
theorem wp_lookup {p : PortRun} {cancelled : Bool} (hp : p.chosen = none) :
    (migrateFinish3.lookup flags cancelled).wp monitor (fun _ p' => p' = some p) (fun _ => True)
      (some p) := by
  cases cancelled <;> cases hpaused : flags.paused <;>
  simp [migrateFinish3.lookup, migrateFinish3.cleanup, hp, hpaused, ignores_cleanup hp]

/-- **Finish3** clears the bit of the port that it reads off its own uri, whatever becomes of
the guest. -/
theorem wp_finish3 {cancelled : Bool} : (migrateFinish3 strToLong uri flags cancelled).wp monitor
    (fun _ p' => ∀ p, p' = some p →
      p.bits = without bits (freedBit strToLong uri flags p.outOfMemory))
    (fun _ => True) (some (start bits)) := by
  cases hflags : flags.unsupported with
  | true => simp [migrateFinish3, hflags, freedBit, start, without]
  | false =>
    rw [migrateFinish3]
    simp only [hflags, Bool.false_eq_true, if_false, wp_act, monitor_ok, true_and]
    refine Prog.wp_bind.mpr (Prog.wp_mono ?_ (fun _ h => h.elim) wp_parse)
    rintro res p' ⟨oom, rfl, rfl⟩
    have hrelease : ∀ port, portBit port = freedBit strToLong uri flags oom →
        (do migrateFinish3.release port; migrateFinish3.lookup flags cancelled).wp monitor
          (fun _ p' => ∀ p, p' = some p →
            p.bits = without bits (freedBit strToLong uri flags p.outOfMemory))
          (fun _ => True) (some { start bits with outOfMemory := oom }) := by
      intro port hport
      refine wp_release.mpr (Prog.wp_mono ?_ (fun _ => id) (wp_lookup rfl))
      rintro dom p' rfl p hp
      obtain rfl := Option.some.inj hp
      simp [hport, start]
    cases oom with
    | true => exact hrelease 0 (by simp [freedBit, portBit, migrationMinPort])
    | false =>
      cases hparse : parseUri strToLong uri with
      | none => exact hrelease 0 (by simp [freedBit, hflags, hparse, portBit, migrationMinPort])
      | some parsed => exact hrelease parsed.2 (by simp [freedBit, hflags, hparse])

end PortRun

/-! ### The system -/

/-- The bits that are set, and the bit of each migration that has been prepared with a
port chosen for it and not been finished. -/
abbrev Ports (Mig : Type*) : Type _ := Reservations Mig ℕ

/-- A call on behalf of a migration: its arguments, what it has called, and its result. A
call that crashes takes the bitmap with it and is not one of them. -/
inductive PortCall (Mig : Type*) where
  | prepare3 (m : Mig) (domXml dname : Bool) (uriIn : Option Uri) (flags : MigrateFlags)
    (tr : List (Event Res)) (ret : Int × Option Uri)
  | finish3 (m : Mig) (uri : Option Uri) (flags : MigrateFlags) (cancelled : Bool)
    (tr : List (Event Res)) (dom : Bool)

namespace Ports

variable {Mig : Type*} {s s' : Ports Mig} {a : PortCall Mig}

/-- No bit is set, and no migration prepared. -/
def Fresh (s : Ports Mig) : Prop := s = Reservations.empty Mig ℕ

/-- The bitmap after the operations of a call; `none` if they read a bit wrongly. -/
def during (s : Ports Mig) (tr : List (Event Res)) : Option PortRun :=
  PortRun.monitor.run (some (PortRun.start s.taken)) tr

/-- The call is made by the driver: it is a run of its program, and a migration is
prepared only once. -/
def Made (strToLong : List Char → Option ℤ) (s : Ports Mig) : PortCall Mig → Prop
  | .prepare3 m domXml dname uriIn flags tr ret =>
    s.holds m = none ∧ (migratePrepare3 strToLong domXml dname uriIn flags).Runs tr (some ret)
  | .finish3 _ uri flags cancelled tr dom =>
    (migrateFinish3 strToLong uri flags cancelled).Runs tr (some dom)

/-- The call does not go wrong: Prepare3 does not fail after it has chosen a port, and
Finish3 frees the port of its migration and no other that is reserved. -/
def Tidy (strToLong : List Char → Option ℤ) (s : Ports Mig) : PortCall Mig → Prop
  | .prepare3 _ _ _ _ _ tr _ => ∀ p, s.during tr = some p → p.failed = false
  | .finish3 m uri flags _ tr _ => ∀ p, s.during tr = some p →
    let freed := PortRun.freedBit strToLong uri flags p.outOfMemory
    (∀ bit, s.holds m = some bit → freed = some bit) ∧
      ∀ bit, freed = some bit → bit ∈ s.taken → s.holds m = some bit

variable [DecidableEq Mig]

def step (s : Ports Mig) : PortCall Mig → Option (Ports Mig)
  | .prepare3 m _ _ _ _ tr ret => (s.during tr).map fun p =>
    ⟨p.bits, if 0 ≤ ret.1 then Function.update s.holds m p.chosen else s.holds⟩
  | .finish3 m _ _ _ tr _ => (s.during tr).map fun p => ⟨p.bits, Function.update s.holds m none⟩

variable {strToLong : List Char → Option ℤ}

/-- **One call.** From an exact bitmap a call leads to an exact one if and only if it does
not go wrong. -/
theorem exact_step_iff (h : s.Exact) (hm : Made strToLong s a) (hs : step s a = some s') :
    s'.Exact ↔ Tidy strToLong s a := by
  cases a with
  | prepare3 m domXml dname uriIn flags tr ret =>
    obtain ⟨hnone, hrun⟩ := hm
    obtain ⟨p, hp, rfl⟩ := Option.map_eq_some_iff.mp hs
    have hprep : p.Prepared s.taken ret.1 :=
      (Prog.wp_sound PortRun.wp_prepare3 hrun).1 ret rfl p hp
    have htidy : Tidy strToLong s (.prepare3 m domXml dname uriIn flags tr ret) ↔
        p.failed = false :=
      ⟨fun ht => ht p hp, fun hf p' hp' => Option.some.inj (hp.symm.trans hp') ▸ hf⟩
    rw [htidy]
    obtain ⟨hchosen, hbits, hfailed⟩ | ⟨bit, hbit, hchosen, hbits, hret⟩ := hprep
    · -- no port was chosen, and nothing changes
      have hsame : Function.update s.holds m p.chosen = s.holds := by
        rw [hchosen, ← hnone, Function.update_eq_self]
      simp [hbits, hsame, hfailed, h]
    -- a port was chosen, and is held by `m` or by nobody
    · cases hfailed : p.failed with
      | false =>
        rw [hbits, hchosen, if_pos (hret.mpr hfailed)]
        exact iff_of_true (h.reserve hnone hbit) rfl
      | true =>
        have hneg : ¬0 ≤ ret.1 := fun hnn => by simp [hret.mp hnn] at hfailed
        rw [hbits, if_neg hneg]
        exact iff_of_false (h.not_leak hbit) nofun
  | finish3 m uri flags cancelled tr dom =>
    obtain ⟨p, hp, rfl⟩ := Option.map_eq_some_iff.mp hs
    have hbits := (Prog.wp_sound PortRun.wp_finish3 hm).1 dom rfl p hp
    have htidy : Tidy strToLong s (.finish3 m uri flags cancelled tr dom) ↔ _ :=
      ⟨fun ht => ht p hp, fun ht p' hp' => by rwa [← Option.some.inj (hp.symm.trans hp')]⟩
    rw [htidy, ← h.release_iff, Reservations.release, hbits]

/-- **The bitmap is exact** after any calls of any migrations none of which goes wrong: the
bits that are set are those of the migrations that are prepared and not finished, and each is
held by one of them only. By `exact_step_iff` the condition on the calls cannot be weakened. -/
theorem exact_of_tidy {s : Ports Mig} (h : ReachVia step Fresh
    (fun s a => Made strToLong s a ∧ Tidy strToLong s a) s) : s.Exact := by
  refine h.invariant (fun s hs => ?_) fun s a s' hexact hC hs => ?_
  · exact hs ▸ Reservations.exact_empty
  · exact (exact_step_iff hexact hC.1 hs).mpr hC.2

/-- The calls of a migration whose port is chosen for it, if all goes well. -/
def preparedWell : PortCall Unit :=
  .prepare3 () true false none noFlags
    ((migratePrepare3 readDecimal true false none noFlags).eval allWell).1
    (0, some (formatUri ['h'] migrationMinPort))

def finishedWell : PortCall Unit :=
  .finish3 () (some ['h', ':', '4', '9', '5', '1', '2']) noFlags false
    ((migrateFinish3 readDecimal (some ['h', ':', '4', '9', '5', '1', '2']) noFlags false).eval
      allWell).1 true

/-- If all goes well the port is free again. -/
theorem exact_of_tidy_well : ∃ s : Ports Unit, ReachVia step Fresh
    (fun s a => Made readDecimal s a ∧ Tidy readDecimal s a) s ∧ s.taken = ∅ ∧ s.Exact := by
  let s₀ : Ports Unit := Reservations.empty Unit ℕ
  let s₁ : Ports Unit := ⟨{0}, fun _ => some 0⟩
  have hfirst : step s₀ preparedWell = some s₁ := rfl
  have hsecond : step s₁ finishedWell = some s₀ := rfl
  have hmade₁ : Made readDecimal s₀ preparedWell := ⟨rfl, Prog.runs_eval allWell _⟩
  have hmade₂ : Made readDecimal s₁ finishedWell := Prog.runs_eval allWell _
  have htidy₁ : Tidy readDecimal s₀ preparedWell := by
    intro p hp
    obtain rfl : ⟨{0}, some 0, false, false⟩ = p := Option.some.inj hp
    rfl
  have htidy₂ : Tidy readDecimal s₁ finishedWell := by
    intro p hp
    obtain rfl : ⟨∅, none, false, false⟩ = p := Option.some.inj hp
    exact ⟨fun bit hbit => hbit, fun bit hbit _ => hbit⟩
  have hreach := ((ReachVia.start (I := Fresh) rfl).step (C := fun s a =>
    Made readDecimal s a ∧ Tidy readDecimal s a) ⟨hmade₁, htidy₁⟩ hfirst).step
      ⟨hmade₂, htidy₂⟩ hsecond
  exact ⟨s₀, hreach, rfl, exact_of_tidy hreach⟩

/-- Everything succeeds but binding the port. -/
def portTaken : (o : Op) → Res o
  | .ask (.prim .bind) => false
  | o => allWell o

/-- The call of Prepare3 in which binding the chosen port fails. -/
def preparedInVain : PortCall Unit :=
  .prepare3 () true false none noFlags
    ((migratePrepare3 readDecimal true false none noFlags).eval portTaken).1
    (-1, some (formatUri ['h'] migrationMinPort))

/-- **A port is lost**: Prepare3 chooses it, cannot bind it, and leaves its bit set. -/
theorem port_lost : ∃ s : Ports Unit, ReachVia step Fresh (Made readDecimal) s ∧ ¬s.Exact := by
  have hmade : Made readDecimal (Reservations.empty Unit ℕ) preparedInVain :=
    ⟨rfl, Prog.runs_eval portTaken _⟩
  have hstep : step (Reservations.empty Unit ℕ) preparedInVain =
      some ⟨{0}, fun _ => none⟩ := rfl
  refine ⟨_, (ReachVia.start (I := Fresh) rfl).step hmade hstep, fun hexact => ?_⟩
  obtain ⟨m, hm⟩ := (hexact.taken_iff 0).mp (by decide)
  cases hm

end Ports

end Libxl

end OpenLog
