import Mathlib.Tactic.Common

/-!
What a computation with a state keeps true of the state and what holds of its answer. There is one
rule for each way in which such computations are put together.
-/
namespace Stencil

variable {σ ε α β : Type} {P : σ → Prop} {R R' : α → Prop} {Q : β → Prop} {x y : StateT σ (Except ε) α}

/-- If `x` succeeds, it keeps `P`, and `R` holds of its answer. -/
def Keeps (P : σ → Prop) (x : StateT σ (Except ε) α) (R : α → Prop) : Prop :=
  ∀ ⦃s a s'⦄, P s → x.run s = .ok (a, s') → P s' ∧ R a

namespace Keeps

theorem pure {a : α} (h : R a) : Keeps P (pure a : StateT σ (Except ε) α) R := by
  intro s a' s' hs hx
  cases hx
  exact ⟨hs, h⟩

theorem bind {f : α → StateT σ (Except ε) β} (hx : Keeps P x R) (hf : ∀ a, R a → Keeps P (f a) Q) :
    Keeps P (x >>= f) Q := by
  intro s b s' hs h
  rw [StateT.run_bind] at h
  cases hrun : x.run s with
  | error e => simp [hrun, Bind.bind, Except.bind] at h
  | ok r =>
    rw [hrun] at h
    obtain ⟨hr, ha⟩ := hx hs hrun
    exact hf r.1 ha hr h

theorem mono (hx : Keeps P x R) (h : ∀ a, R a → R' a) : Keeps P x R' :=
  fun _ _ _ hs hrun => (hx hs hrun).imp_right (h _)

theorem weaken (hx : Keeps P x R) : Keeps P x fun _ => True := hx.mono fun _ _ => trivial

theorem ite {c : Prop} {_ : Decidable c} (hx : c → Keeps P x R) (hy : ¬ c → Keeps P y R) :
    Keeps P (if c then x else y) R := by
  by_cases hc : c
  · simpa only [if_pos hc] using hx hc
  · simpa only [if_neg hc] using hy hc

theorem map {f : α → β} (hx : Keeps P x R) (h : ∀ a, R a → Q (f a)) : Keeps P (f <$> x) Q := by
  rw [map_eq_pure_bind]
  exact hx.bind fun a ha => pure (h a ha)

/-- One of two computations in front of a third. -/
theorem either {c : Prop} {_ : Decidable c} {f : α → StateT σ (Except ε) β} (hx : c → Keeps P x R)
    (hy : ¬ c → Keeps P y R) (hf : ∀ a, R a → Keeps P (f a) Q) :
    Keeps P (if c then x >>= f else y >>= f) Q :=
  ite (fun hc => (hx hc).bind hf) fun hc => (hy hc).bind hf

theorem throw {e : ε} : Keeps P (throw e : StateT σ (Except ε) α) R := by
  intro s a s' _ h
  cases h

theorem lift {r : Except ε α} (h : ∀ a, r = .ok a → R a) : Keeps P (liftM r : StateT σ (Except ε) α) R := by
  intro s a s' hs hx
  cases r with
  | error e => cases hx
  | ok c =>
    cases hx
    exact ⟨hs, h _ rfl⟩

theorem get : Keeps P (MonadState.get : StateT σ (Except ε) σ) P := by
  intro s a s' hs h
  cases h
  exact ⟨hs, hs⟩

theorem set {s : σ} (h : P s) : Keeps P (MonadStateOf.set s : StateT σ (Except ε) PUnit) fun _ => True := by
  intro _ _ s' _ hx
  cases hx
  exact ⟨h, trivial⟩

theorem modify {f : σ → σ} (h : ∀ s, P s → P (f s)) :
    Keeps P (modify f : StateT σ (Except ε) PUnit) fun _ => True := by
  intro s _ s' hs hx
  cases hx
  exact ⟨h s hs, trivial⟩

end Keeps

end Stencil
