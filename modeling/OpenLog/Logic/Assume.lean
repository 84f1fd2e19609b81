import OpenLog.Logic.Prog

/-!
# Programs with an assumption on the answers

What a program does may only matter where the operations are answered in a certain way:
as the state of the world has it, or where none of them fails. An *assumption*
`A : σ → (o : Op) → Res o → Prop` says which answers are looked at, in the state of a
monitor. `OpenLog.Logic.Prog.wpOn` is the weakest precondition under an assumption, with the
rules of `OpenLog.Logic.Prog.wp`; `OpenLog.Logic.Prog.wpOn_sound` reads it off on the runs that
follow the assumption (`OpenLog.Logic.Monitor.Follows`).
-/

namespace OpenLog

namespace Logic

variable {Op : Type} {Res : Op → Type} {α β : Type} {σ : Type*}

/-- All answers of a run, from the state `s` on, are as the assumption has them. -/
def Monitor.Follows (M : Monitor Res σ) (A : σ → (o : Op) → Res o → Prop) (s : σ) :
    List (Event Res) → Prop
  | [] => True
  | e :: tr => A s e.1 e.2 ∧ M.Follows A (M.next s e.1 e.2) tr

/-- An assumption that does not look at the state is one on each call. -/
theorem Monitor.follows_of_forall {M : Monitor Res σ} {A : (o : Op) → Res o → Prop} {s : σ}
    {tr : List (Event Res)} (h : ∀ e ∈ tr, A e.1 e.2) : M.Follows (fun _ => A) s tr := by
  induction tr generalizing s with
  | nil => trivial
  | cons e tr ih =>
    rw [List.forall_mem_cons] at h
    exact ⟨h.1, ih h.2⟩

namespace Prog

/-- The weakest precondition under an assumption on the answers. -/
def wpOn (A : σ → (o : Op) → Res o → Prop) (M : Monitor Res σ) :
    Prog Res α → (α → σ → Prop) → (σ → Prop) → σ → Prop
  | .ret a, Q, _, s => Q a s
  | .fault, _, E, s => E s
  | .call o k, Q, E, s => M.ok s o ∧ ∀ r, A s o r → (k r).wpOn A M Q E (M.next s o r)

variable {A : σ → (o : Op) → Res o → Prop} {M : Monitor Res σ} {s : σ}
variable {Q Q' : α → σ → Prop} {E E' : σ → Prop} {p : Prog Res α}

@[simp] theorem wpOn_ret (a : α) : (ret a : Prog Res α).wpOn A M Q E s ↔ Q a s := Iff.rfl

@[simp] theorem wpOn_fault : (fault : Prog Res α).wpOn A M Q E s ↔ E s := Iff.rfl

@[simp] theorem wpOn_call (o : Op) (k : Res o → Prog Res α) : (call o k).wpOn A M Q E s ↔
    M.ok s o ∧ ∀ r, A s o r → (k r).wpOn A M Q E (M.next s o r) := Iff.rfl

@[simp] theorem wpOn_ite {c : Prop} [Decidable c] {q : Prog Res α} :
    (if c then p else q).wpOn A M Q E s ↔ if c then p.wpOn A M Q E s else q.wpOn A M Q E s := by
  split <;> rfl

/-- **Sequencing.** -/
theorem wpOn_bind {f : α → Prog Res β} {R : β → σ → Prop} :
    (p >>= f).wpOn A M R E s ↔ p.wpOn A M (fun a => (f a).wpOn A M R E) E s := by
  induction p generalizing s with
  | ret a => rfl
  | call o k ih => simp only [call_bind, wpOn_call, ih]
  | fault => rfl

/-- **Consequence.** -/
theorem wpOn_mono (hQ : ∀ a s, Q a s → Q' a s) (hE : ∀ s, E s → E' s) (h : p.wpOn A M Q E s) :
    p.wpOn A M Q' E' s := by
  induction p generalizing s with
  | ret a => exact hQ a s h
  | call o k ih => exact ⟨h.1, fun r hr => ih r (h.2 r hr)⟩
  | fault => exact hE s h

/-- Without an assumption. -/
theorem wpOn_true : p.wpOn (fun _ _ _ => True) M Q E s ↔ p.wp M Q E s := by
  induction p generalizing s with
  | ret a => rfl
  | call o k ih =>
    exact and_congr_right fun _ => forall_congr' fun r => ⟨fun h => (ih r).mp (h trivial),
      fun h _ => (ih r).mpr h⟩
  | fault => rfl

/-- What holds however the operations are answered holds under any assumption. -/
theorem wpOn_of_wp (h : p.wp M Q E s) : p.wpOn A M Q E s := by
  induction p generalizing s with
  | ret a => exact h
  | call o k ih => exact ⟨h.1, fun r _ => ih r (h.2 r)⟩
  | fault => exact h

/-- **Runs under the assumption.** -/
theorem wpOn_sound {tr : List (Event Res)} {out : Option α} (h : p.wpOn A M Q E s)
    (hr : p.Runs tr out) (hA : M.Follows A s tr) :
    (∀ a, out = some a → Q a (M.run s tr)) ∧ (out = none → E (M.run s tr)) := by
  induction hr generalizing s with
  | ret a => exact ⟨fun b hb => Option.some.inj hb ▸ h, nofun⟩
  | fault => exact ⟨nofun, fun _ => h⟩
  | call o k r _ ih => exact ih (h.2 r hA.1) hA.2

/-- **One call under the assumption.** -/
theorem wpOn_advance {ω : (o : Op) → Res o} {e : Event Res} {p' : Prog Res α}
    (h : p.wpOn A M Q E s) (ha : p.advance ω = some (e, p')) (hA : A s e.1 e.2) :
    M.ok s e.1 ∧ p'.wpOn A M Q E (M.next s e.1 e.2) := by
  cases p with
  | ret a => cases ha
  | fault => cases ha
  | call o k =>
    obtain ⟨rfl, rfl⟩ : (⟨o, ω o⟩ : Event Res) = e ∧ k (ω o) = p' := by simpa [advance] using ha
    exact ⟨h.1, h.2 (ω o) hA⟩

/-- **Skipping a part** whose calls leave the monitor alone. -/
theorem Calls.wpOn_bind {S : Op → Prop} {f : α → Prog Res β} {R : β → σ → Prop}
    (hp : p.Calls S) (hS : M.Ignores S s) (hf : ∀ a, p.CanReturn a → (f a).wpOn A M R E s) :
    (p >>= f).wpOn A M R E s := by
  induction p with
  | ret a => exact hf a rfl
  | call o k ih =>
    obtain ⟨hok, hnext⟩ := hS o hp.1
    refine ⟨hok, fun r _ => ?_⟩
    rw [hnext r]
    exact ih r (hp.2 r) fun a ha => hf a ⟨r, ha⟩
  | fault => exact hp.elim

/-- Marked calls, under an assumption on them. -/
theorem wpOn_tag {ι : Type} {A : σ → (o : ι × Op) → Res o.2 → Prop}
    {M : Monitor (fun o : ι × Op => Res o.2) σ} {i : ι} :
    (p.tag i).wpOn A M Q E s ↔ p.wpOn (fun s o => A s (i, o)) (M.at i) Q E s := by
  induction p generalizing s with
  | ret a => rfl
  | call o k ih =>
    exact and_congr_right fun _ => forall_congr' fun r => imp_congr_right fun _ => ih r
  | fault => rfl

/-- A program among more operations, under an assumption on them. -/
theorem wpOn_embed {Op' : Type} {Res' : Op' → Type} {A : σ → (o : Op') → Res' o → Prop}
    {M : Monitor Res' σ} {e : Op → Op'} {p : Prog (fun o => Res' (e o)) α} :
    (p.embed e).wpOn A M Q E s ↔ p.wpOn (fun s o => A s (e o)) (M.comap e) Q E s := by
  induction p generalizing s with
  | ret a => rfl
  | call o k ih =>
    exact and_congr_right fun _ => forall_congr' fun r => imp_congr_right fun _ => ih r
  | fault => rfl

end Prog

end Logic

end OpenLog
