import OpenLog.Libxl.JobLock.Exclusion

/-!
# Waiters that nobody wakes

A thread that waits for a job sleeps on one of two conditions. When nothing is held
and nobody is about to look again, a thread that still sleeps runs into its timeout
although it could start. `OpenLog.Libxl.JobLock.NoStranded` says that there is none,
and it fails (`OpenLog.Libxl.JobLock.exists_stranded`): `libxlDomainObjEndJob` wakes
one sleeper of `job.cond`, that sleeper may want an asynchronous job, and the end
of an asynchronous job wakes `job.asyncCond` only.

This is the one way to strand a thread. Where every end of an asynchronous job
leaves someone to take over the duty (`OpenLog.Libxl.JobLock.EndsSafely`), nobody is
stranded, and where one does not, somebody is
(`OpenLog.Libxl.JobLock.noStranded_of_endsSafely`). The invariant is
`OpenLog.Libxl.JobLock.Watched`: for each sleeper there is someone whose next step
will wake him or pass the duty on.
-/

namespace OpenLog

namespace Libxl

namespace JobLock

variable {Tid : Type*} {s s' : State Tid} {maxQueued refs : ℤ} {t : Tid} {r : Starter}

/-- **No stranded waiter**: where no job is held and no thread is between its
wake-up and its recheck, no thread is asleep. -/
def NoStranded (s : State Tid) : Prop :=
  (∀ t, s.normalHeld t = 0) → (∀ t, s.asyncHeld t = 0) → (∀ t, ¬(s.pc t).isWoken) →
    ∀ t, ¬(s.pc t).onCond ∧ ¬(s.pc t).onAsyncCond

/-- An asynchronous job does not end without a normal job beside it while threads
sleep on `job.cond` only and nobody is about to look again. -/
def EndsSafely (s : State Tid) : Act Tid → Prop
  | .endAsyncJob _ => s.job.active ≠ .none ∨ (∀ u, ¬(s.pc u).onCond) ∨
      ∃ u, (s.pc u).onAsyncCond ∨ (s.pc u).isWoken
  | _ => True

instance [Fintype Tid] (s : State Tid) : (a : Act Tid) → Decidable (EndsSafely s a)
  | .endAsyncJob _ => inferInstanceAs (Decidable (_ ∨ _ ∨ _))
  | .begin _ _ _ _ | .wakeSpuriously _ | .waitFails _ _ | .resume _ _ | .relock _
  | .endJob _ _ | .setAsyncJobMask _ _ => .isTrue trivial

/-- Whoever sleeps on `job.asyncCond` waits for the asynchronous job held, and
whoever sleeps on `job.cond` for a job held or for a thread that is awake. -/
structure Watched (s : State Tid) : Prop where
  async : ∀ u, (s.pc u).onAsyncCond → s.job.asyncJob ≠ .none
  cond : ∀ u, (s.pc u).onCond →
    s.job.active ≠ .none ∨ s.job.asyncJob ≠ .none ∨ ∃ v, (s.pc v).isWoken

/-! ### Steps -/

/-- Where a job is held, or an asynchronous one if somebody waits for that, all
sleepers are watched. -/
theorem Watched.of_held (hasync : ∀ u, (s.pc u).onAsyncCond → s.job.asyncJob ≠ .none)
    (hheld : s.job.active ≠ .none ∨ s.job.asyncJob ≠ .none) : Watched s :=
  ⟨hasync, fun _ _ => hheld.imp_right Or.inl⟩

/-- The sleepers are watched wherever the same threads sleep and are awake on the
same job object. -/
theorem Watched.congr (h : Watched s) (hjob : s'.job = s.job) (hpc : s'.pc = s.pc) :
    Watched s' := by
  refine ⟨fun u hu => ?_, fun u hu => ?_⟩
  · rw [hjob]
    exact h.async u (hpc ▸ hu)
  · rw [hjob, hpc]
    exact h.cond u (hpc ▸ hu)

theorem watched_init : Watched (init refs : State Tid) :=
  ⟨fun _ hu => hu.elim, fun _ hu => hu.elim⟩

variable [DecidableEq Tid]

/-- A thread that moves without going to sleep, and that was not the one awake,
changes nothing for the sleepers. -/
theorem Watched.move {p : Pc} (h : Watched s) (hwoken : ¬(s.pc t).isWoken) (hcond : ¬p.onCond)
    (hasync : ¬p.onAsyncCond) : Watched (s.setPc t p) := by
  refine ⟨fun u hu => ?_, fun u hu => ?_⟩
  · rcases eq_or_ne u t with rfl | hut
    · exact absurd (by simpa using hu) hasync
    · exact h.async u (by simpa [hut] using hu)
  · rcases eq_or_ne u t with rfl | hut
    · exact absurd (by simpa using hu) hcond
    · rcases h.cond u (by simpa [hut] using hu) with hheld | hheld | ⟨v, hv⟩
      · exact Or.inl hheld
      · exact Or.inr (Or.inl hheld)
      -- the thread that is awake is another one, and still is
      · have hvt : v ≠ t := fun hvt => hwoken (hvt ▸ hv)
        exact Or.inr (Or.inr ⟨v, by simpa [hvt] using hv⟩)

theorem isWoken_wake {p : Pc} (h : p.onCond) : p.wake.isWoken := by
  unfold Pc.onCond at h
  split at h
  · trivial
  · exact h.elim

theorem not_onCond_of_isWoken {p : Pc} (h : p.isWoken) : ¬p.onCond ∧ ¬p.onAsyncCond := by
  unfold Pc.isWoken at h
  split at h
  · exact ⟨id, id⟩
  · exact h.elim

/-- Going to sleep, for the reason the section has found. -/
theorem Watched.sleep {q : ℤ} {cv : CondVar} (h : Watched s)
    (hwait : (Outcome.wait cv).Justified maxQueued q s.job r.call.job) :
    Watched (s.setPc t (.asleep cv r)) := by
  cases cv with
  | cond =>
    refine Watched.of_held (fun u hu => ?_) (Or.inl hwait)
    rcases eq_or_ne u t with rfl | hut
    · have hself : (Pc.asleep .cond r).onAsyncCond := by simpa using hu
      exact hself.elim
    · exact h.async u (by simpa [hut] using hu)
  | asyncCond =>
    have hasync : s.job.asyncJob ≠ .none := by
      intro hnone
      simp [Outcome.Justified, domainNestedJobAllowed, hnone] at hwait
    exact Watched.of_held (fun _ _ => hasync) (Or.inr hasync)

/-- Taking a job gives the sleepers a job to wait for. -/
theorem Watched.take (h : Watched s) : Watched (s.take t r) := by
  have hasleep : ∀ u, ((s.take t r).pc u).onAsyncCond → (s.pc u).onAsyncCond := by
    intro u hu
    rw [State.take_pc] at hu
    rcases eq_or_ne u t with rfl | hut
    · rw [Function.update_self] at hu
      split_ifs at hu <;> exact hu.elim
    · rwa [Function.update_of_ne hut] at hu
  by_cases hjob : r.call.job = .async
  · have hheld : (s.take t r).job.asyncJob ≠ .none := by
      rw [State.take_job, takeJob_of_async hjob]
      exact fun hnone => r.call.none_iff_async.mp hnone hjob
    exact Watched.of_held (fun _ _ => hheld) (Or.inr hheld)
  · have hjobs : (s.take t r).job = { s.job with active := r.call.job, owner := some t } := by
      rw [State.take_job, takeJob_of_ne_async hjob]
    refine Watched.of_held (fun u hu => ?_) (Or.inl ?_)
    · rw [hjobs]
      exact h.async u (hasleep u hu)
    · rw [hjobs]
      exact r.call.job_ne_none

/-- The error path, by a thread that was not awake or beside an asynchronous job. -/
theorem Watched.fail {errno : Errno} (h : Watched s)
    (hduty : ¬(s.pc t).isWoken ∨ s.job.asyncJob ≠ .none) :
    Watched (s.fail maxQueued t r errno) := by
  -- the error path leads to a place where nobody sleeps
  obtain ⟨p, hp, hcond, hasync⟩ : ∃ p, (s.fail maxQueued t r errno).pc =
      Function.update s.pc t p ∧ ¬p.onCond ∧ ¬p.onAsyncCond := by
    rw [State.fail]
    split_ifs
    · exact ⟨_, rfl, id, id⟩
    · exact ⟨_, rfl, id, id⟩
  rcases hduty with hwoken | hheld
  · exact (h.move hwoken hcond hasync).congr State.fail_job hp
  · have hheld' : (s.fail maxQueued t r errno).job.asyncJob ≠ .none := by
      rwa [State.fail_job]
    exact Watched.of_held (fun _ _ => hheld') (Or.inr hheld')

/-- **Ending a normal job**: the sleeper that the signal wakes takes over. -/
theorem Watched.release_signal [Fintype Tid] {w : Option Tid} (h : Watched s)
    (hw : CanWake s w) : Watched ((s.release t).signal w) := by
  cases w with
  | none =>
    exact ⟨h.async, fun u hu => absurd hu (hw u)⟩
  | some v =>
    -- `v` is awake now, and answers for every sleeper on `job.cond`
    have hawake : (((s.release t).signal (some v)).pc v).isWoken := by
      simpa [State.signal, State.release] using isWoken_wake hw
    refine ⟨fun u hu => ?_, fun u hu => Or.inr (Or.inr ⟨v, hawake⟩)⟩
    have huv : u ≠ v := fun huv => (not_onCond_of_isWoken hawake).2 (huv ▸ hu)
    exact h.async u (by simpa [State.signal, State.release, huv] using hu)

theorem onCond_of_hearBroadcast {p : Pc} (h : p.hearBroadcast.onCond) : p.onCond := by
  rw [Pc.hearBroadcast] at h
  split_ifs at h with hasync
  · exact absurd h (not_onCond_of_isWoken (by cases p <;> simp_all [Pc.onAsyncCond, Pc.wake,
      Pc.isWoken])).1
  · exact h

theorem not_onAsyncCond_hearBroadcast (p : Pc) : ¬p.hearBroadcast.onAsyncCond := by
  rw [Pc.hearBroadcast]
  split_ifs with hasync
  · cases p <;> simp_all [Pc.onAsyncCond, Pc.wake]
  · exact hasync

theorem isWoken_hearBroadcast {p : Pc} (h : p.onAsyncCond ∨ p.isWoken) :
    p.hearBroadcast.isWoken := by
  rw [Pc.hearBroadcast]
  rcases h with hasync | hwoken
  · rw [if_pos hasync]
    cases p <;> simp_all [Pc.onAsyncCond, Pc.wake, Pc.isWoken]
  · rw [if_neg (not_onCond_of_isWoken hwoken).2]
    exact hwoken

theorem hearBroadcast_of_not {p : Pc} (h : ¬p.onAsyncCond) : p.hearBroadcast = p := by
  simp [Pc.hearBroadcast, h]

/-- Ending an asynchronous job, if somebody is left to take over. -/
theorem watched_releaseAsync (hsafe : EndsSafely s (.endAsyncJob t)) :
    Watched (s.releaseAsync t) := by
  refine ⟨fun u hu => absurd hu (not_onAsyncCond_hearBroadcast _), fun u hu => ?_⟩
  rcases hsafe with hactive | hnobody | ⟨v, hv⟩
  · exact Or.inl hactive
  · exact absurd (onCond_of_hearBroadcast hu) (hnobody u)
  · exact Or.inr (Or.inr ⟨v, isWoken_hearBroadcast hv⟩)

/-- Watched sleepers are not stranded. -/
theorem Watched.noStranded (h : Watched s) (hex : Exclusive s) : NoStranded s := by
  intro hnormal hasync hawake u
  have hactive : s.job.active = .none := by
    by_contra hne
    obtain ⟨v, hv⟩ := hex.active_ne_none_iff.mp hne
    exact absurd (hnormal v) hv.ne'
  have hasyncJob : s.job.asyncJob = .none := by
    by_contra hne
    obtain ⟨v, hv⟩ := hex.asyncJob_ne_none_iff.mp hne
    exact absurd (hasync v) hv.ne'
  refine ⟨fun hu => ?_, fun hu => h.async u hu hasyncJob⟩
  rcases h.cond u hu with hheld | hheld | ⟨v, hv⟩
  · exact hheld hactive
  · exact hheld hasyncJob
  · exact hawake v hv

variable [Fintype Tid]

/-- **One step keeps the sleepers watched** if it ends no asynchronous job unsafely. -/
theorem Watched.step {a : Act Tid} (h : Watched s) (hsafe : EndsSafely s a)
    (hs : step maxQueued s a = some s') : Watched s' := by
  cases effect_of_step hs with
  | clockFailed hpc => exact h.congr rfl rfl
  | @begun t call now errno out hpc hout herror =>
    have hqueue : Watched s.enqueue := h.congr rfl rfl
    cases out with
    | wait cv => exact hqueue.sleep hout
    | error => exact hqueue.fail (Or.inl (by simp [State.enqueue, hpc, Pc.isWoken]))
    | start => exact hqueue.take
  | @rechecked t cv r errno out hpc hout herror =>
    cases out with
    | wait cv => exact h.sleep hout
    | error =>
      -- refused by an asynchronous job, which is still there to be ended
      refine h.fail (Or.inr fun hnone => ?_)
      simpa [domainNestedJobAllowed, hnone] using herror rfl
    | start => exact h.take
  | gaveUp hpc => exact h.fail (Or.inl (by simp [hpc, Pc.isWoken]))
  | wokeUp hpc => exact h.move (by simp [hpc, Pc.isWoken]) id id
  | waitFailed hpc => exact h.move (by simp [hpc, Pc.isWoken]) id id
  | relockedTaken hpc => exact h.move (by simp [hpc, Pc.isWoken]) id id
  | @relockedRefused t r hpc =>
    exact (h.move (t := t) (p := .idle) (by simp [hpc, Pc.isWoken]) id id).congr rfl rfl
  | ended hpc hheld hw => exact h.release_signal hw
  | endedAsync hpc hheld => exact watched_releaseAsync hsafe
  | @masked t allowedJobs hpc hheld hmask =>
    rw [domainObjSetAsyncJobMask]
    split_ifs
    · exact h
    · exact ⟨h.async, h.cond⟩

/-! ### Every reachable state -/

/-- A job that ends unsafely strands a thread at once. -/
theorem stranded_of_not_endsSafely {a : Act Tid} (hex : Exclusive s)
    (hs : step maxQueued s a = some s') (hsafe : ¬EndsSafely s a) : ¬NoStranded s' := by
  have hex' : Exclusive s' := hex.step hs
  cases effect_of_step hs with
  | @endedAsync t hpc hheld =>
    simp only [EndsSafely, not_or, not_forall, not_not, not_exists] at hsafe
    obtain ⟨hactive, ⟨u, hu⟩, hnobody⟩ := hsafe
    -- nobody hears the broadcast, so `u` sleeps on
    have hpcs : ∀ v, ((s.releaseAsync t).pc v) = s.pc v :=
      fun v => hearBroadcast_of_not (hnobody v).1
    intro hstranded
    refine (hstranded (hex'.normalHeld_eq_zero hactive) (hex'.asyncHeld_eq_zero rfl)
      (fun v => ?_) u).1 ?_
    · rw [hpcs v]
      exact (hnobody v).2
    · rw [hpcs u]
      exact hu
  | clockFailed | begun | rechecked | gaveUp | wokeUp | waitFailed | relockedTaken
  | relockedRefused | ended | masked => exact absurd trivial hsafe

variable (maxQueued refs) in
/-- **When waiters are stranded.** In a run whose asynchronous jobs all end safely nobody is
stranded, and in any run a step that ends one otherwise leads to a state in which somebody is.
So the condition on the state before an `EndAsyncJob` is exact. -/
theorem noStranded_of_endsSafely :
    (∀ s : State Tid, Logic.ReachVia (step maxQueued) (Initial refs) EndsSafely s →
      NoStranded s) ∧
    ∀ (s s' : State Tid) a, Reachable maxQueued s → step maxQueued s a = some s' →
      ¬EndsSafely s a → ¬NoStranded s' := by
  refine ⟨fun s h => ?_, fun s s' a h hs hsafe => ?_⟩
  · have hwatched : Watched s := Logic.ReachVia.invariant
      (fun s (hs : s = init refs) => hs ▸ watched_init) (fun s a s' hP hC hs => hP.step hC hs) h
    exact hwatched.noStranded (Reachable.exclusive ⟨refs, h.reach⟩)
  · exact stranded_of_not_endsSafely h.exclusive hs hsafe

/-- Thread `t₀` holds a normal job; thread `t₁` wants an asynchronous job and thread
`t₂` a normal one, and the signals reach them in the order that strands nobody. -/
def safeRun : List (Act (Fin 3)) :=
  [.begin t₀ (domainObjBeginJob .modify modify_normal) (some 7) (.other 0),
    .begin t₁ (domainObjBeginAsyncJob .save save_ne_none) (some 8) (.other 0),
    .begin t₂ (domainObjBeginJob .modify modify_normal) (some 9) (.other 0),
    .endJob t₀ (some t₂),
    .resume t₂ (.other 0),
    .endJob t₂ (some t₁),
    .resume t₁ (.other 0),
    .endAsyncJob t₁]

/-- Nobody is stranded when the normal job goes first. -/
theorem noStranded_safeRun :
    ∃ s, Logic.exec (Logic.restrict (step 0) EndsSafely) (init 1) safeRun = some s ∧
      NoStranded s := by
  have hrun : (Logic.exec (Logic.restrict (step 0) EndsSafely) (init 1) safeRun).isSome := by
    decide
  obtain ⟨s, hs⟩ := Option.isSome_iff_exists.mp hrun
  refine ⟨s, hs, (noStranded_of_endsSafely 0 1).1 s ?_⟩
  exact Logic.ReachVia.of_exec (Logic.ReachVia.start rfl) hs

/-- Thread `t₀` holds a normal job; thread `t₁` wants an asynchronous job and thread
`t₂` a normal one. The signal of `t₀` reaches `t₁`, and `t₁` ends its job without a word
to `t₂`. -/
def strandedRun : List (Act (Fin 3)) :=
  [.begin t₀ (domainObjBeginJob .modify modify_normal) (some 7) (.other 0),
    .begin t₁ (domainObjBeginAsyncJob .save save_ne_none) (some 8) (.other 0),
    .begin t₂ (domainObjBeginJob .modify modify_normal) (some 9) (.other 0),
    .endJob t₀ (some t₁),
    .resume t₁ (.other 0),
    .endAsyncJob t₁]

/-- **A waiter is stranded.** -/
theorem exists_stranded : ¬∀ s : State (Fin 3), Reachable 0 s → NoStranded s := by
  intro hall
  have hrun : (Logic.exec (step 0) (init 1) strandedRun).map (fun s =>
      (decide ((∀ t, s.normalHeld t = 0) ∧ (∀ t, s.asyncHeld t = 0) ∧
        ∀ t, ¬(s.pc t).isWoken), decide (s.pc 2).onCond)) = some (true, true) := by decide
  obtain ⟨s, hs, hv⟩ := Option.map_eq_some_iff.mp hrun
  obtain ⟨hnormal, hasync, hawake⟩ := of_decide_eq_true (congrArg Prod.fst hv)
  have hasleep := of_decide_eq_true (congrArg Prod.snd hv)
  exact (hall s (Reachable.of_exec hs) hnormal hasync hawake 2).1 hasleep

end JobLock

end Libxl

end OpenLog
