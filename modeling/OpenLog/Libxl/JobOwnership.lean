import Mathlib.Logic.Function.Basic
import OpenLog.Logic.Run
import OpenLog.Libxl.Migrate

/-!
# Whose asynchronous job it is

The calls of any number of migrations, with saves and dumps of the same domain, made by
any threads in any order and executed call by call, interleaved in any way. The
asynchronous job of the domain belongs to the operation that has begun it, a
migration or a single call; it goes astray (`OpenLog.Libxl.AsyncJob.astray`) if a call of
another operation ends it.

Begin3, Prepare3, SaveFlags and CoreDump end a job only after they have begun one. Perform3,
Finish3 and Confirm3 end a job that an earlier call has begun, and do not look whether
there is one. So the job is safe from the former, and from the latter if
the client calls them in turn: whenever one of them ends a job, it was called while the job
of its migration was held and no other call had it in hand
(`OpenLog.Libxl.Clients.not_astray`).
-/

namespace OpenLog

namespace Libxl

open Logic

/-! ### Calls and operations -/

/-- What an asynchronous job is begun for: a migration, or the save or dump that a thread
is making. -/
inductive Operation (Mig Tid : Type*) where
  | migration (m : Mig)
  | own (t : Tid)
  deriving DecidableEq

/-- The calls of clients, with their arguments. -/
inductive ClientCall (Mig : Type*) where
  | begin3 (m : Mig) (xmlin : Bool) (flags : MigrateFlags)
  | prepare3 (m : Mig) (domXml dname : Bool) (uriIn : Option Uri) (flags : MigrateFlags)
  | perform3 (m : Mig) (uri : Option Uri) (flags : MigrateFlags)
  | finish3 (m : Mig) (uri : Option Uri) (flags : MigrateFlags) (cancelled : Bool)
  | confirm3 (m : Mig) (flags : MigrateFlags) (cancelled : Bool)
  | saveFlags (flagsOk dxml : Bool)
  | coreDump (flags : DumpFlags)

namespace ClientCall

variable {Mig Tid : Type*}

/-- The operation on whose behalf thread `t` makes the call. -/
def operation (t : Tid) : ClientCall Mig → Operation Mig Tid
  | begin3 m _ _ | prepare3 m _ _ _ _ | perform3 m _ _ | finish3 m _ _ _ | confirm3 m _ _ =>
    .migration m
  | saveFlags _ _ | coreDump _ => .own t

/-- The call takes over a job that another call has begun. -/
def takesOver : ClientCall Mig → Bool
  | perform3 _ _ _ | finish3 _ _ _ _ | confirm3 _ _ _ => true
  | begin3 _ _ _ | prepare3 _ _ _ _ _ | saveFlags _ _ | coreDump _ => false

/-- A program whose result does not matter. -/
def forget {α : Type} (code : Code α) : Code Unit := do
  let _ ← code
  return ()

/-- The program of a call. -/
def code (strToLong : List Char → Option ℤ) : ClientCall Mig → Code Unit
  | begin3 _ xmlin flags => forget (migrateBegin3 xmlin flags)
  | prepare3 _ domXml dname uriIn flags =>
    forget (migratePrepare3 strToLong domXml dname uriIn flags)
  | perform3 _ uri flags => forget (migratePerform3 strToLong uri flags)
  | finish3 _ uri flags cancelled => forget (migrateFinish3 strToLong uri flags cancelled)
  | confirm3 _ flags cancelled => forget (migrateConfirm3 flags cancelled)
  | saveFlags flagsOk dxml => forget (domainSaveFlags flagsOk dxml)
  | coreDump flags => forget (domainCoreDump flags)

end ClientCall

/-! ### The system -/

/-- The asynchronous job of the domain. -/
structure AsyncJob (Mig Tid : Type*) where
  /-- The operation that has begun the job, if one is held. -/
  begunBy : Option (Operation Mig Tid)
  /-- The thread whose call has the job in hand: it has begun it or has taken it over,
  and has not returned since. -/
  inHand : Option Tid
  /-- `jobs_queued`. -/
  queued : ℤ
  /-- A job has been ended for another operation than had begun it, or without there
  being one. -/
  astray : Bool

/-- A call that a thread is making. -/
structure Running (Mig Tid : Type*) where
  operation : Operation Mig Tid
  takesOver : Bool
  /-- The job of its migration was held, and in nobody's hand, when it was made. -/
  entitled : Bool
  /-- What is left of its program. -/
  left : Code Unit

/-- The job and the calls in progress. -/
structure Clients (Mig Tid : Type*) where
  job : AsyncJob Mig Tid
  calls : Tid → Option (Running Mig Tid)

/-- What can happen. -/
inductive ClientAct (Mig Tid : Type*) where
  /-- `t` makes a call. -/
  | call (t : Tid) (c : ClientCall Mig)
  /-- The call of `t` goes on. -/
  | advance (t : Tid) (ω : (o : Op) → Res o)
  /-- The call of `t` returns. -/
  | return (t : Tid)

section Step

variable {Mig Tid : Type*} [DecidableEq Mig] [DecidableEq Tid]

/-- What an operation does to the job, in a call of `t`. A job is begun only where none
is held. -/
def AsyncJob.next (j : AsyncJob Mig Tid) (t : Tid) (operation : Operation Mig Tid) :
    (o : Op) → Res o → Option (AsyncJob Mig Tid)
  | .begin _, .ok =>
    if j.begunBy = none then
      some { j with begunBy := some operation, inHand := some t, queued := j.queued + 1 }
    else none
  | .begin _, .clockFailed => some { j with queued := j.queued + 1 }
  | .ask .endAsyncJob, _ =>
    some { begunBy := none
           inHand := none
           queued := j.queued - 1
           astray := j.astray || j.begunBy ≠ some operation }
  | _, _ => some j

/-- The call of `t` has returned. -/
def AsyncJob.letGo (j : AsyncJob Mig Tid) (t : Tid) : AsyncJob Mig Tid :=
  if j.inHand = some t then { j with inHand := none } else j

namespace Clients

def step (strToLong : List Char → Option ℤ) (s : Clients Mig Tid) :
    ClientAct Mig Tid → Option (Clients Mig Tid)
  | .call t c =>
    if (s.calls t).isNone then
      let entitled := c.takesOver && s.job.begunBy = some (c.operation t) && s.job.inHand.isNone
      let call := ⟨c.operation t, c.takesOver, entitled, c.code strToLong⟩
      some { job := if entitled then { s.job with inHand := some t } else s.job
             calls := Function.update s.calls t (some call) }
    else none
  | .advance t ω =>
    (s.calls t).bind fun call => (call.left.advance ω).bind fun (e, rest) =>
      (s.job.next t call.operation e.1 e.2).map fun job =>
        { job := job, calls := Function.update s.calls t (some { call with left := rest }) }
  | .return t =>
    match s.calls t with
    | some ⟨_, _, _, .ret ()⟩ =>
      some { job := s.job.letGo t, calls := Function.update s.calls t none }
    | _ => none

/-- No job is held and no call in progress. -/
def Idle (s : Clients Mig Tid) : Prop :=
  s.job.begunBy = none ∧ s.job.inHand = none ∧ 0 ≤ s.job.queued ∧ s.job.astray = false ∧
    s.calls = fun _ => none

/-- The step is in turn: a call that takes over a job ends it only if it was entitled to. -/
def InTurn (s : Clients Mig Tid) : ClientAct Mig Tid → Prop
  | .advance t ω => ∀ call ∈ s.calls t, ∀ x ∈ call.left.advance ω,
    call.takesOver = true → x.1.1 = .ask .endAsyncJob → call.entitled = true
  | _ => True

instance (s : Clients Mig Tid) : (a : ClientAct Mig Tid) → Decidable (InTurn s a)
  | .advance t ω => inferInstanceAs (Decidable (∀ call ∈ s.calls t,
      ∀ x ∈ call.left.advance ω, _ → _ → _))
  | .call _ _ | .return _ => .isTrue trivial

end Clients

end Step

/-! ### What a call does with a job in hand -/

namespace JobInHand

/-- Whether the call has a job in hand, after an operation. -/
def next (inHand : Bool) : (o : Op) → Res o → Bool
  | .begin _, .ok => true
  | .ask .endAsyncJob, _ => false
  | _, _ => inHand

/-- A job is ended only by a call that has it in hand. -/
def monitor : Monitor Res Bool :=
  ⟨next, fun inHand o => o = .ask .endAsyncJob → inHand = true⟩

@[simp] theorem monitor_next : monitor.next = next := rfl

@[simp] theorem monitor_ok (inHand : Bool) (o : Op) :
    monitor.ok inHand o ↔ (o = .ask .endAsyncJob → inHand = true) := Iff.rfl

/-- The call ends no job that it has not in hand. -/
def Safe {α : Type} (inHand : Bool) (code : Code α) : Prop :=
  code.wp monitor (fun _ _ => True) (fun _ => True) inHand

@[simp] theorem ignores_aside (b : Bool) : monitor.Ignores Op.Aside b := by
  rw [ignores_aside_iff, ignores_cleanup_iff, ignores_parse_iff, ignores_port_iff]
  simp [next]

variable {strToLong : List Char → Option ℤ} {uri : Option Uri} {flags : MigrateFlags}

attribute [local simp] next Safe

/-- Begin3, Prepare3, SaveFlags and CoreDump are safe as they are called, with no job in hand.
-/
theorem safe_begin3 (xmlin : Bool) : Safe false (migrateBegin3 xmlin flags) := by
  cases xmlin <;>
  simp [migrateBegin3]

theorem safe_prepare3 (domXml dname : Bool) :
    Safe false (migratePrepare3 strToLong domXml dname uri flags) := by
  cases uri <;>
  simp [migratePrepare3, migratePrepare3.assign, migratePrepare3.choosePort,
    migratePrepare3.receive, Option.forall]

/-- Perform3, Finish3 and Confirm3 are only safe where they are called with the job in hand:
they come to `EndAsyncJob` without a look at whether there is a job. -/
theorem safe_perform3 : Safe true (migratePerform3 strToLong uri flags) := by
  simp [migratePerform3, Option.forall]

theorem safe_finish3 (cancelled : Bool) :
    Safe true (migrateFinish3 strToLong uri flags cancelled) := by
  cases cancelled <;> cases hpaused : flags.paused <;>
  simp [migrateFinish3, migrateFinish3.lookup, migrateFinish3.cleanup, hpaused, Option.forall]

theorem safe_confirm3 (cancelled : Bool) : Safe true (migrateConfirm3 flags cancelled) := by
  cases cancelled <;> cases hundef : flags.undefineSource <;>
  simp [migrateConfirm3, hundef]

theorem safe_saveFlags (flagsOk dxml : Bool) : Safe false (domainSaveFlags flagsOk dxml) := by
  simp [domainSaveFlags, doDomainSave]

theorem safe_coreDump (flags : DumpFlags) : Safe false (domainCoreDump flags) := by
  simp [domainCoreDump, domainCoreDump.dump]

variable (strToLong) in
/-- **What the calls rely on.** A call that takes over a job is safe if it has it in hand
from the start, and every other call is safe if it has none. -/
theorem safe_code {Mig : Type*} (c : ClientCall Mig) : Safe c.takesOver (c.code strToLong) := by
  have forget : ∀ {α : Type} {b : Bool} {code : Code α}, Safe b code →
      Safe b (ClientCall.forget code) := fun h =>
    Prog.wp_bind.mpr (Prog.wp_mono (fun _ _ _ => trivial) (fun _ => id) h)
  cases c with
  | begin3 m xmlin flags => exact forget (safe_begin3 xmlin)
  | prepare3 m domXml dname uriIn flags => exact forget (safe_prepare3 domXml dname)
  | perform3 m uri flags => exact forget safe_perform3
  | finish3 m uri flags cancelled => exact forget (safe_finish3 cancelled)
  | confirm3 m flags cancelled => exact forget (safe_confirm3 cancelled)
  | saveFlags flagsOk dxml => exact forget (safe_saveFlags flagsOk dxml)
  | coreDump flags => exact forget (safe_coreDump flags)

end JobInHand

/-! ### The run -/

section Run

variable {Mig Tid : Type*} [DecidableEq Tid]

/-- What holds of the job while the calls are in turn. -/
structure AsyncJob.Ok (j : AsyncJob Mig Tid) : Prop where
  astray : j.astray = false
  queued : 0 ≤ j.queued
  held : j.begunBy ≠ none → 0 < j.queued
  inHand : j.inHand ≠ none → j.begunBy ≠ none

/-- A thread that returns lets go of the job, and so does no other. -/
theorem AsyncJob.letGo_inHand_iff {j : AsyncJob Mig Tid} {t u : Tid} :
    (j.letGo t).inHand = some u ↔ u ≠ t ∧ j.inHand = some u := by
  rw [letGo]
  split_ifs with hhand
  · simp [hhand, eq_comm]
  · exact ⟨fun h => ⟨fun hu => hhand (hu ▸ h), h⟩, And.right⟩

/-- The job is held on, by the operation that has begun it. -/
@[simp] theorem AsyncJob.letGo_begunBy (j : AsyncJob Mig Tid) (t : Tid) :
    (j.letGo t).begunBy = j.begunBy := by
  rw [letGo]
  split_ifs <;> rfl

/-- A return leaves the job in order. -/
theorem AsyncJob.Ok.letGo {j : AsyncJob Mig Tid} {t : Tid} (h : j.Ok) : (j.letGo t).Ok := by
  rw [AsyncJob.letGo]
  split_ifs
  · exact ⟨h.astray, h.queued, h.held, nofun⟩
  · exact h

namespace Clients

variable {s s' : Clients Mig Tid} {t : Tid}

/-- What holds while the calls are in turn. It is an invariant of the whole system: the job is
in order; whoever has it in hand is making a call of the operation that has begun it; and what
is left of each call is safe from where it stands, so that a call which comes to an
`EndAsyncJob` has the job in hand. -/
structure Inv (s : Clients Mig Tid) : Prop where
  job : s.job.Ok
  /-- The job in a call's hand is that of its operation. -/
  inHand : ∀ t, s.job.inHand = some t →
    ∃ call, s.calls t = some call ∧ s.job.begunBy = some call.operation
  /-- What is left of a call is safe, unless it takes over what it is not entitled to. -/
  safe : ∀ t call, s.calls t = some call → (call.takesOver = true → call.entitled = true) →
    JobInHand.Safe (decide (s.job.inHand = some t)) call.left

/-- Without a job and without calls all of this holds. -/
theorem Inv.init (h : s.Idle) : s.Inv := by
  obtain ⟨hbegun, hhand, hqueued, hastray, hcalls⟩ := h
  exact ⟨⟨hastray, hqueued, by simp [hbegun], by simp [hhand]⟩, by simp [hhand], by simp [hcalls]⟩

/-- The calls in progress after one of them has gone on. -/
theorem update_calls_iff {calls : Tid → Option (Running Mig Tid)} {u : Tid}
    {call call' : Running Mig Tid} : Function.update calls t (some call) u = some call' ↔
      u = t ∧ call = call' ∨ u ≠ t ∧ calls u = some call' := by
  by_cases hu : u = t <;> simp [hu]

/-- A thread that makes no call has no job in hand. -/
theorem Inv.not_inHand (h : s.Inv) (hnone : s.calls t = none) : s.job.inHand ≠ some t := by
  intro hhand
  obtain ⟨call, hcall, -⟩ := h.inHand t hhand
  simp [hnone] at hcall

end Clients

variable [DecidableEq Mig]

/-- What an operation of `t` can do to the job. -/
inductive AsyncJob.Effect (j : AsyncJob Mig Tid) (t : Tid) (operation : Operation Mig Tid) :
    (o : Op) → Res o → AsyncJob Mig Tid → Prop where
  | begun (call : BeginCall) (h : j.begunBy = none) : Effect j t operation (.begin call) .ok
      { j with begunBy := some operation, inHand := some t, queued := j.queued + 1 }
  | clockFailed (call : BeginCall) : Effect j t operation (.begin call) .clockFailed
      { j with queued := j.queued + 1 }
  | ended (more : Bool) : Effect j t operation (.ask .endAsyncJob) more
      { begunBy := none, inHand := none, queued := j.queued - 1
        astray := j.astray || j.begunBy ≠ some operation }
  | other {o : Op} {r : Res o} (hnext : ∀ b, JobInHand.next b o r = b) :
      Effect j t operation o r j

/-- An operation has one of these four effects. What the step does to the job is looked into
here only; the lemmas on `AsyncJob.Effect` say what each effect means for the invariant. -/
theorem AsyncJob.effect_of_next {j j' : AsyncJob Mig Tid} {t : Tid}
    {operation : Operation Mig Tid} {o : Op} {r : Res o}
    (h : j.next t operation o r = some j') : j.Effect t operation o r j' := by
  unfold AsyncJob.next at h
  split at h
  · split_ifs at h with hfree
    obtain rfl := Option.some.inj h
    exact .begun _ hfree
  · obtain rfl := Option.some.inj h
    exact .clockFailed _
  · obtain rfl := Option.some.inj h
    exact .ended _
  · obtain rfl := Option.some.inj h
    rename_i hbegun hclock hended
    refine .other fun b => ?_
    unfold JobInHand.next
    split
    · exact (hbegun _ rfl HEq.rfl).elim
    · exact (hended _ rfl HEq.rfl).elim
    · rfl

namespace AsyncJob.Effect

variable {j j' : AsyncJob Mig Tid} {t u : Tid} {operation : Operation Mig Tid} {o : Op} {r : Res o}

/-- The job stays in order if it is ended for the operation that has begun it. -/
theorem ok (heff : j.Effect t operation o r j') (h : j.Ok)
    (hend : o = .ask .endAsyncJob → j.begunBy = some operation) : j'.Ok := by
  cases heff with
  | begun call hfree =>
    have hpos : 0 < j.queued + 1 := Int.lt_add_one_of_le h.queued
    exact ⟨h.astray, Int.le_of_lt hpos, fun _ => hpos, fun _ => nofun⟩
  | clockFailed call =>
    have hpos : 0 < j.queued + 1 := Int.lt_add_one_of_le h.queued
    exact ⟨h.astray, Int.le_of_lt hpos, fun _ => hpos, h.inHand⟩
  | ended more =>
    have hmine := hend rfl
    have hpos : 0 < j.queued := h.held (by simp [hmine])
    refine ⟨by simp [h.astray, hmine], ?_, nofun, nofun⟩
    show 0 ≤ j.queued - 1
    omega
  | other _ => exact h

/-- Whether `t` has the job in hand is what its call makes of it. -/
theorem inHand_self (heff : j.Effect t operation o r j') :
    decide (j'.inHand = some t) = JobInHand.next (decide (j.inHand = some t)) o r := by
  cases heff with
  | begun call hfree => simp [JobInHand.next]
  | clockFailed call => rfl
  | ended more => rfl
  | other hnext => rw [hnext]

/-- It is not put in the hand of another thread, nor taken from it. -/
theorem inHand_other (heff : j.Effect t operation o r j') (h : j.Ok)
    (hend : o = .ask .endAsyncJob → j.inHand = some t) (hu : u ≠ t) :
    j'.inHand = some u ↔ j.inHand = some u := by
  cases heff with
  | begun call hfree =>
    have hnone : j.inHand = none := by
      by_contra hhand
      exact h.inHand hhand hfree
    simp [hnone, hu.symm]
  | clockFailed call => rfl
  | ended more => simp [hend rfl, hu.symm]
  | other _ => rfl

/-- A job in the hand of `t` is that of its operation. -/
theorem begunBy_self (heff : j.Effect t operation o r j') (hj' : j'.inHand = some t)
    (hmine : j.inHand = some t → j.begunBy = some operation) : j'.begunBy = some operation := by
  cases heff with
  | begun call hfree => rfl
  | clockFailed call => exact hmine hj'
  | ended more => cases hj'
  | other _ => exact hmine hj'

/-- A job in another hand keeps its operation. -/
theorem begunBy_other (heff : j.Effect t operation o r j') (hj' : j'.inHand = some u)
    (hu : u ≠ t) : j'.begunBy = j.begunBy := by
  cases heff with
  | begun call hfree => exact (hu (Option.some.inj hj').symm).elim
  | clockFailed call => rfl
  | ended more => cases hj'
  | other _ => rfl

end AsyncJob.Effect

namespace Clients

variable {strToLong : List Char → Option ℤ} {s s' : Clients Mig Tid} {t : Tid}

/-- `t` makes a call. -/
theorem Inv.call (h : s.Inv) {c : ClientCall Mig} (hs : step strToLong s (.call t c) = some s') :
    s'.Inv := by
  have hsafe := JobInHand.safe_code strToLong c
  simp only [step] at hs
  split_ifs at hs with hnone hent
  · -- the call takes the job over
    obtain rfl := Option.some.inj hs
    obtain ⟨⟨htakes, hbegun⟩, hhand⟩ : (c.takesOver = true ∧
        s.job.begunBy = some (c.operation t)) ∧ s.job.inHand = none := by simpa using hent
    refine ⟨⟨h.job.astray, h.job.queued, h.job.held, by simp [hbegun]⟩, fun u hu => ?_,
      fun u call hcall hent => ?_⟩
    · obtain rfl : t = u := by simpa using hu
      exact ⟨_, Function.update_self .., hbegun⟩
    · obtain ⟨rfl, rfl⟩ | ⟨hu, hcall⟩ := update_calls_iff.mp hcall
      · simpa [htakes] using hsafe
      · simpa [hhand, Ne.symm hu] using h.safe u call hcall hent
  · obtain rfl := Option.some.inj hs
    -- the call takes nothing over, and `t` comes with empty hands
    have hhand : s.job.inHand ≠ some t := h.not_inHand (by simpa using hnone)
    refine ⟨by simpa [hent] using h.job, fun u hu => ?_, fun u call hcall hent' => ?_⟩
    · obtain ⟨call, hcall, hbegun⟩ := h.inHand u (by simpa [hent] using hu)
      have hne : u ≠ t := by
        rintro rfl
        simp [hcall] at hnone
      exact ⟨call, update_calls_iff.mpr (Or.inr ⟨hne, hcall⟩), by simpa [hent] using hbegun⟩
    · obtain ⟨rfl, rfl⟩ | ⟨hu, hcall⟩ := update_calls_iff.mp hcall
      · have htakes : c.takesOver = false := by
          cases htakes : c.takesOver with
          | false => rfl
          | true => exact (hent (hent' htakes)).elim
        simpa [htakes, hhand, hent] using hsafe
      · simpa [hent] using h.safe u call hcall hent'

/-- The call of `t` goes on. -/
theorem Inv.advance (h : s.Inv) {ω : (o : Op) → Res o}
    (hturn : s.InTurn (.advance t ω)) (hs : step strToLong s (.advance t ω) = some s') :
    s'.Inv := by
  obtain ⟨call, hcall, hs⟩ := Option.bind_eq_some_iff.mp hs
  obtain ⟨⟨⟨o, r⟩, rest⟩, hadv, hs⟩ := Option.bind_eq_some_iff.mp hs
  obtain ⟨job, hjob, rfl⟩ := Option.map_eq_some_iff.mp hs
  have heff := AsyncJob.effect_of_next hjob
  -- a call that ends the job has it in hand: it is safe, or not in turn
  have hhand : o = .ask .endAsyncJob → s.job.inHand = some t := by
    intro ho
    have hent := fun htakes => hturn call hcall _ hadv htakes ho
    simpa using (Prog.wp_advance (h.safe t call hcall hent) hadv).1 ho
  have hmine : s.job.inHand = some t → s.job.begunBy = some call.operation := by
    intro hjob
    obtain ⟨call', hcall', hbegun⟩ := h.inHand t hjob
    rwa [Option.some.inj (hcall.symm.trans hcall')]
  refine ⟨heff.ok h.job fun ho => hmine (hhand ho), fun u hjob => ?_,
    fun u call' hcall' hent => ?_⟩
  · by_cases hu : u = t
    · subst hu
      exact ⟨_, Function.update_self .., heff.begunBy_self hjob hmine⟩
    · obtain ⟨call', hcall', hbegun⟩ := h.inHand u ((heff.inHand_other h.job hhand hu).mp hjob)
      exact ⟨call', update_calls_iff.mpr (Or.inr ⟨hu, hcall'⟩),
        (heff.begunBy_other hjob hu).trans hbegun⟩
  · obtain ⟨rfl, rfl⟩ | ⟨hu, hcall'⟩ := update_calls_iff.mp hcall'
    · show JobInHand.Safe (decide (job.inHand = some u)) rest
      rw [heff.inHand_self]
      exact (Prog.wp_advance (h.safe u call hcall hent) hadv).2
    · show JobInHand.Safe (decide (job.inHand = some u)) call'.left
      simp only [heff.inHand_other h.job hhand hu]
      exact h.safe u call' hcall' hent

/-- The call of `t` returns. -/
theorem Inv.return (h : s.Inv) (hs : step strToLong s (.return t) = some s') : s'.Inv := by
  simp only [step] at hs
  split at hs
  · obtain rfl := Option.some.inj hs
    refine ⟨h.job.letGo, fun u hu => ?_, fun u call hcall hent => ?_⟩
    · obtain ⟨hne, hu⟩ := AsyncJob.letGo_inHand_iff.mp hu
      obtain ⟨call, hcall, hbegun⟩ := h.inHand u hu
      exact ⟨call, by simpa [hne] using hcall, by simpa using hbegun⟩
    · have hne : u ≠ t := by
        rintro rfl
        simp at hcall
      have hcall₀ : s.calls u = some call := by simpa [hne] using hcall
      simpa [AsyncJob.letGo_inHand_iff, hne] using h.safe u call hcall₀ hent
  · cases hs

/-- **Step.** A call that is made, goes on or returns in turn keeps the invariant. -/
theorem Inv.step {a : ClientAct Mig Tid} (h : s.Inv) (hturn : s.InTurn a)
    (hs : step strToLong s a = some s') : s'.Inv := by
  cases a with
  | call t c => exact h.call hs
  | advance t ω => exact h.advance hturn hs
  | «return» t => exact h.return hs

/-- **No job goes astray** where the calls are in turn: in every state that is reached, however
many threads and migrations there are and however their calls are interleaved, a job was only
ended for the operation that had begun it, and `jobs_queued` has not fallen below zero. -/
theorem not_astray (h : ReachVia (Clients.step strToLong) Idle InTurn s) :
    s.job.astray = false ∧ 0 ≤ s.job.queued := by
  have hinv : s.Inv := h.invariant (fun _ => Inv.init) fun _ _ _ hs hC hstep => hs.step hC hstep
  exact ⟨hinv.job.astray, hinv.job.queued⟩

/-- A thread makes a call that goes on for `n` operations and returns. -/
def whole (t : Tid) (c : ClientCall Mig) (n : ℕ) : List (ClientAct Mig Tid) :=
  .call t c :: List.replicate n (.advance t allWell) ++ [.return t]

/-- Nothing has happened yet. -/
def idle : Clients Mig Tid := ⟨⟨none, none, 0, false⟩, fun _ => none⟩

omit [DecidableEq Mig] [DecidableEq Tid] in
/-- It is where the runs start. -/
theorem idle_idle : (idle : Clients Mig Tid).Idle := ⟨rfl, rfl, Int.le_refl 0, rfl, rfl⟩

/-- Two threads make the calls of a migration on the source in turn. -/
theorem not_astray_in_turn : ∃ s : Clients Unit Bool,
    ReachVia (step readDecimal) Idle InTurn s ∧ s.job.begunBy = none ∧
      s.job.astray = false ∧ 0 ≤ s.job.queued := by
  have hrun : (exec (restrict (step readDecimal) InTurn) (idle : Clients Unit Bool)
      (whole true (.begin3 () false noFlags) 9 ++
        whole false (.perform3 () (some ['h', ':', '7']) noFlags) 13 ++
        whole true (.confirm3 () noFlags false) 24)).map (fun s => s.job.begunBy) = some none := by
    decide
  obtain ⟨s, hs, hbegun⟩ := Option.map_eq_some_iff.mp hrun
  have hreach := (ReachVia.start idle_idle).of_exec hs
  exact ⟨s, hreach, hbegun, not_astray hreach⟩

/-- Everything succeeds, and the guest is not paused. -/
def guestRuns : (o : Op) → Res o
  | .ask .isPaused => false
  | o => allWell o

/-- **A save loses its job to a migration**: while the guest is saved, Finish3 of a
migration that has begun nothing ends the job of the save; then the save ends it again. -/
theorem save_astray : ∃ s : Clients Unit Bool, Reach (step readDecimal) Idle s ∧
    s.job.astray = true ∧ s.job.queued < 0 := by
  have hrun : (exec (step readDecimal) (idle : Clients Unit Bool)
      (.call true (.saveFlags true false) :: List.replicate 11 (.advance true guestRuns) ++
        whole false (.finish3 () (some ['h', ':', '7']) noFlags false) 11 ++
        List.replicate 25 (.advance true guestRuns))).map
          (fun s => (s.job.astray, s.job.queued)) = some (true, -1) := by
    decide
  obtain ⟨s, hs, hjob⟩ := Option.map_eq_some_iff.mp hrun
  obtain ⟨hastray, hqueued⟩ : s.job.astray = true ∧ s.job.queued = -1 := by simpa using hjob
  exact ⟨s, (Reach.start idle_idle).of_exec hs, hastray, by omega⟩

end Clients

end Run

end Libxl

end OpenLog
