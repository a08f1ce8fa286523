import Mathlib.Tactic.Common
import Stencil.Analysis.Workspace

/-!
What holds when work ends that has a state and can fail, with an answer or early. What was done to the state
stays done after a failure. There is one rule for each way in which work is put together.
-/
namespace Stencil

variable {σ ε α β : Type} {P P' : σ → Prop} {Q Q' : α → σ → Prop} {R : β → σ → Prop} {E E' : ε → σ → Prop}
  {x y : ExceptT ε (StateM σ) α}

/-- From a state with `P`, the work ends with an answer and a state with `Q`, or it fails with `E`. -/
def Ensures (P : σ → Prop) (x : ExceptT ε (StateM σ) α) (Q : α → σ → Prop) (E : ε → σ → Prop) : Prop :=
  ∀ s, P s → match x.run s with
    | (.ok a, s') => Q a s'
    | (.error e, s') => E e s'

theorem run_bind (x : ExceptT ε (StateM σ) α) (f : α → ExceptT ε (StateM σ) β) (s : σ) :
    (x >>= f).run s = match x.run s with
      | (.ok a, s') => (f a).run s'
      | (.error e, s') => (.error e, s') := by
  change (match x.run s with
    | (r, s') => ExceptT.bindCont f r s') = _
  cases x.run s with
  | mk r s' => cases r <;> rfl

theorem exists_of_run_bind {f : α → ExceptT ε (StateM σ) β} {s s' : σ} {b : β} (h : (x >>= f).run s = (.ok b, s')) :
    ∃ a s₁, x.run s = (.ok a, s₁) ∧ (f a).run s₁ = (.ok b, s') := by
  rw [run_bind] at h
  split at h
  · next a s₁ hx => exact ⟨a, s₁, hx, h⟩
  · cases h

namespace Ensures

theorem pure {a : α} (h : ∀ s, P s → Q a s) : Ensures P (pure a) Q E := fun s hs => h s hs

theorem throw {e : ε} (h : ∀ s, P s → E e s) : Ensures P (throw e : ExceptT ε (StateM σ) α) Q E := fun s hs => h s hs

theorem bind {f : α → ExceptT ε (StateM σ) β} (hx : Ensures P x Q E) (hf : ∀ a, Ensures (Q a) (f a) R E) :
    Ensures P (x >>= f) R E := by
  intro s hs
  have hx := hx s hs
  rw [run_bind]
  split at hx
  · exact hf _ _ hx
  · exact hx

theorem mono (hx : Ensures P x Q E) (hP : ∀ s, P' s → P s) (hQ : ∀ a s, Q a s → Q' a s) (hE : ∀ e s, E e s → E' e s) :
    Ensures P' x Q' E' := by
  intro s hs
  have hx := hx s (hP s hs)
  split at hx
  · exact hQ _ _ hx
  · exact hE _ _ hx

/-- Nothing is said of any end. -/
theorem trivial (x : ExceptT ε (StateM σ) α) : Ensures P x (fun _ _ => True) fun _ _ => True := by
  intro s _
  split <;> exact True.intro

theorem absurd (x : ExceptT ε (StateM σ) α) : Ensures (fun _ => False) x Q E := fun _ hs => hs.elim

theorem ite {c : Prop} {_ : Decidable c} (hx : c → Ensures P x Q E) (hy : ¬ c → Ensures P y Q E) :
    Ensures P (if c then x else y) Q E := by
  by_cases hc : c
  · simpa only [if_pos hc] using hx hc
  · simpa only [if_neg hc] using hy hc

theorem adapt {ε' : Type} {E : ε' → σ → Prop} {e : ε → ε'} (hx : Ensures P x Q fun f => E (e f)) :
    Ensures P (x.adapt e) Q E := by
  intro s hs
  have hx := hx s hs
  have hrun : (x.adapt e).run s = ((x.run s).1.mapError e, (x.run s).2) := rfl
  rw [hrun]
  split at hx
  · next heq =>
    rw [heq]
    exact hx
  · next heq =>
    rw [heq]
    exact hx

theorem get {Q : σ → σ → Prop} (h : ∀ s, P s → Q s s) : Ensures P (get : ExceptT ε (StateM σ) σ) Q E :=
  fun s hs => h s hs

theorem modify {f : σ → σ} {Q : PUnit → σ → Prop} (h : ∀ s, P s → Q ⟨⟩ (f s)) :
    Ensures P (modify f : ExceptT ε (StateM σ) PUnit) Q E := fun s hs => h s hs

/-- Work on each element of a list keeps what work on one of them keeps. -/
theorem forM {as : List β} {f : β → ExceptT ε (StateM σ) PUnit} (h : ∀ b ∈ as, Ensures P (f b) (fun _ => P) E) :
    Ensures P (as.forM f) (fun _ => P) E := by
  induction as with
  | nil => exact pure fun _ => id
  | cons a as ih =>
    obtain ⟨ha, has⟩ := List.forall_mem_cons.1 h
    exact ha.bind fun _ => ih has

theorem mapM {as : List β} {f : β → ExceptT ε (StateM σ) α} (h : ∀ b ∈ as, Ensures P (f b) (fun _ => P) E) :
    Ensures P (as.mapM f) (fun _ => P) E := by
  induction as with
  | nil => exact pure fun _ => id
  | cons a as ih =>
    obtain ⟨ha, has⟩ := List.forall_mem_cons.1 h
    rw [List.mapM_cons]
    exact ha.bind fun _ => (ih has).bind fun _ => pure fun _ => id

theorem ok {s : σ} {a : α} (hx : Ensures P x Q E) (hs : P s) (ha : (x.run s).1 = .ok a) : Q a (x.run s).2 := by
  have hx := hx s hs
  split at hx
  · next heq =>
    rw [heq] at ha ⊢
    cases ha
    exact hx
  · next heq =>
    rw [heq] at ha
    cases ha

theorem error {s : σ} {e : ε} (hx : Ensures P x Q E) (hs : P s) (he : (x.run s).1 = .error e) : E e (x.run s).2 := by
  have hx := hx s hs
  split at hx
  · next heq =>
    rw [heq] at he
    cases he
  · next heq =>
    rw [heq] at he ⊢
    cases he
    exact hx

end Ensures

end Stencil

/-! ### Work on a workspace -/

namespace Stencil.Ensures
open Analysis

variable {α β ε : Type} {P : Workspace → Prop} {Q : α → Workspace → Prop} {R : β → Workspace → Prop}
  {E : Stop → Workspace → Prop}

theorem note {e : Event} {Q : PUnit → Workspace → Prop}
    (h : ∀ w, P w → Q ⟨⟩ { w with events := w.events ++ [e] }) : Ensures P (note e) Q E := modify h

theorem tree {Q : Files.Tree → Workspace → Prop} (h : ∀ w, P w → Q w.tree w) : Ensures P tree Q E :=
  fun w hw => h w hw

theorem orStop {stop : ε → Stop} {r : Except ε α} (h : ∀ a, r = .ok a → ∀ w, P w → Q a w)
    (hstop : ∀ e, r = .error e → ∀ w, P w → E (stop e) w) : Ensures P (orStop stop r) Q E := by
  cases r with
  | ok a => exact pure (h a rfl)
  | error e => exact throw (hstop e rfl)

/-- Work goes on with the tree as it is. -/
theorem tree_bind {I : Files.Tree → Prop} {f : Files.Tree → Work β}
    (h : ∀ t, I t → Ensures (fun w => w.tree = t) (f t) R E) :
    Ensures (fun w => I w.tree) (Analysis.tree >>= f) R E := by
  intro w hw
  rw [run_bind]
  exact h w.tree hw w rfl

theorem known_tree_bind {t : Files.Tree} {f : Files.Tree → Work β} (h : Ensures (fun w => w.tree = t) (f t) R E) :
    Ensures (fun w => w.tree = t) (Analysis.tree >>= f) R E := by
  refine tree_bind (I := (· = t)) fun t' ht' => ?_
  subst ht'
  exact h

/-- Work goes on with an outcome that is no error. -/
theorem orStop_bind {stop : ε → Stop} {r : Except ε α} {f : α → Work β} (h : ∀ a, r = .ok a → Ensures P (f a) R E)
    (hstop : ∀ e, r = .error e → ∀ w, P w → E (stop e) w) : Ensures P (Analysis.orStop stop r >>= f) R E := by
  intro w hw
  rw [run_bind]
  cases r with
  | ok a => exact h a rfl w hw
  | error e => exact hstop e rfl w hw

/-- Work goes on with a path without links. -/
theorem resolved_bind {t : Files.Tree} {p : Path} {f : Path → Work β}
    (h : ∀ q, t.resolve false p.parts = .ok q → Ensures (fun w => w.tree = t) (f ⟨true, q⟩) R E)
    (hstop : ∀ e, t.resolve false p.parts = .error e → ∀ w, w.tree = t → E (.resolving e) w) :
    Ensures (fun w => w.tree = t) (resolved p >>= f) R E := by
  rw [resolved, bind_assoc]
  refine known_tree_bind ?_
  rw [bind_assoc]
  exact orStop_bind (fun q hq => by simpa only [pure_bind] using h q hq) hstop

end Stencil.Ensures
