import Mathlib.Data.List.Infix
import Mathlib.Tactic.Common
import Stencil.Code.Grammar

/-!
Partial correctness of readers: what holds of the state behind a reader if it succeeds. There is one
rule for each way in which readers are put together.
-/
namespace Stencil.Code.Grammar

variable {α β : Type} {P : State → Prop} {p : Read α} {s s' : State} {a : α}

theorem bind_eq_some {q : α → Read β} {b : β} :
    (p >>= q) s = some (b, s') ↔ ∃ a t, p s = some (a, t) ∧ q a t = some (b, s') := by
  change (p s).bind (fun r => q r.1 r.2) = some (b, s') ↔ _
  cases hp : p s with
  | none => simp
  | some r =>
    constructor
    · exact fun h => ⟨r.1, r.2, rfl, h⟩
    · rintro ⟨a, t, h, hq⟩
      cases h
      exact hq

theorem pure_eq_some {b : α} : (pure a : Read α) s = some (b, s') ↔ a = b ∧ s = s' := by
  change some (a, s) = some (b, s') ↔ _
  simp

/-- Whenever `P` holds in front and the reader succeeds, `Q` holds of its result and the state
behind. -/
def Yields (P : State → Prop) (p : Read α) (Q : α → State → Prop) : Prop :=
  ∀ ⦃s a s'⦄, P s → p s = some (a, s') → Q a s'

namespace Yields

variable {Q : α → State → Prop}

theorem bind {q : α → Read β} {R : β → State → Prop} (hp : Yields P p Q)
    (hq : ∀ a, Yields (Q a) (q a) R) : Yields P (p >>= q) R := by
  intro s b s' hs h
  obtain ⟨a, t, hp', hq'⟩ := bind_eq_some.1 h
  exact hq a (hp hs hp') hq'

theorem pure (h : ∀ s, P s → Q a s) : Yields P (pure a) Q := by
  intro s b s' hs hb
  obtain ⟨rfl, rfl⟩ := pure_eq_some.1 hb
  exact h _ hs

theorem mono {P' : State → Prop} {Q' : α → State → Prop} (h : Yields P p Q)
    (hP : ∀ s, P' s → P s) (hQ : ∀ a s, Q a s → Q' a s) : Yields P' p Q' :=
  fun _ _ _ hs hp => hQ _ _ (h (hP _ hs) hp)

theorem weaken {P' : State → Prop} (h : Yields P p Q) (hP : ∀ s, P' s → P s) : Yields P' p Q :=
  h.mono hP fun _ _ hq => hq

theorem and {Q' : α → State → Prop} (h : Yields P p Q) (h' : Yields P p Q') :
    Yields P p fun a s => Q a s ∧ Q' a s :=
  fun _ _ _ hs hp => ⟨h hs hp, h' hs hp⟩

theorem ite {c : Prop} {_ : Decidable c} {p q : Read α}
    (hp : c → Yields P p Q) (hq : ¬ c → Yields P q Q) : Yields P (if c then p else q) Q := by
  by_cases hc : c
  · simpa only [if_pos hc] using hp hc
  · simpa only [if_neg hc] using hq hc

theorem trivial : Yields P p fun _ _ => True := fun _ _ _ _ _ => True.intro

theorem absurd (h : ∀ s, ¬ P s) : Yields P p Q := fun s _ _ hs _ => (h s hs).elim

theorem fail : Yields P (Grammar.fail : Read α) Q := by
  intro s a s' _ h
  cases h

theorem orElse {q : Read α} (hp : Yields P p Q) (hq : Yields P q Q) :
    Yields P (Grammar.orElse p q) Q := by
  intro s a s' hs h
  obtain h | ⟨_, h⟩ := Option.or_eq_some_iff.1 h
  · exact hp hs h
  · exact hq hs h

/-- What is known of the place a reader starts from may be kept for the place it ends at. -/
theorem keep {C : Prop} (h : C → Yields P p Q) : Yields (fun s => C ∧ P s) p Q :=
  fun _ _ _ hs hp => h hs.1 hs.2 hp

theorem keep' {C : Prop} (h : C → Yields P p Q) : Yields (fun s => P s ∧ C) p Q :=
  fun _ _ _ hs hp => h hs.2 hs.1 hp

theorem get : Yields P (MonadState.get : Read State) fun t s => P s ∧ t = s := by
  intro s a s' hs h
  cases h
  exact ⟨hs, rfl⟩

theorem modify {f : State → State} {Q : State → Prop} (h : ∀ s, P s → Q (f s)) :
    Yields P (modify f : Read Unit) fun _ => Q := by
  intro s a s' hs h'
  cases h'
  exact h _ hs

/-- A repetition keeps what each round keeps, for the results of all rounds so far. -/
theorem many {I : List β → State → Prop} {f : α → List β} {p : Read (Option α)} {l : List β}
    (h : ∀ l, Yields (I l) p fun o s => I (l ++ (o.map f).getD []) s) :
    Yields (I l) (many p) fun as => I (l ++ as.flatMap f) := by
  have upTo : ∀ n l, Yields (I l) (manyUpTo p n) fun as => I (l ++ as.flatMap f) := by
    intro n
    induction n with
    | zero => exact fun l => Yields.pure fun s hs => by simpa using hs
    | succ n ih =>
      intro l
      refine Yields.bind (h l) fun o => ?_
      cases o with
      | none => exact Yields.pure fun s hs => by simpa using hs
      | some a =>
        refine Yields.bind (ih _) fun as => Yields.pure fun s hs => ?_
        simpa [List.append_assoc] using hs
  refine Yields.bind Yields.get fun t => ?_
  exact (upTo _ l).weaken fun s hs => hs.1

/-- A repetition whose rounds pass a token each goes on until a round gives nothing. -/
theorem many_end {I E : List β → State → Prop} {f : α → List β} {p : Read (Option α)} {l : List β}
    (h : ∀ l, Yields (I l) p fun o s => match o with
      | some a => I (l ++ f a) s
      | none => E l s)
    (hless : ∀ l s a s', I l s → p s = some (some a, s') → s'.rest.length < s.rest.length) :
    Yields (I l) (Grammar.many p) fun as => E (l ++ as.flatMap f) := by
  have upTo : ∀ n l, Yields (fun s => I l s ∧ s.rest.length < n) (manyUpTo p n) fun as =>
      E (l ++ as.flatMap f) := by
    intro n
    induction n with
    | zero => exact fun l => Yields.absurd fun s hs => by omega
    | succ n ih =>
      intro l s as s' ⟨hs, hn⟩ hp
      obtain ⟨o, t, ho, hq⟩ := bind_eq_some.1 hp
      cases o with
      | none =>
        obtain ⟨rfl, rfl⟩ := pure_eq_some.1 hq
        simpa using h l hs ho
      | some a =>
        have hlt := hless l s a t hs ho
        obtain ⟨bs, t', hbs, hr⟩ := bind_eq_some.1 hq
        obtain ⟨rfl, rfl⟩ := pure_eq_some.1 hr
        have := ih (l ++ f a) ⟨h l hs ho, by omega⟩ hbs
        simpa [List.append_assoc] using this
  refine Yields.bind Yields.get fun t => ?_
  exact (upTo _ l).weaken fun s hs => ⟨hs.1, by rw [hs.2]; omega⟩

end Yields

end Stencil.Code.Grammar
