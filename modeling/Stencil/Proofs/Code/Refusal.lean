import Stencil.Proofs.Code.Gives

/-! Tokens that no statement and no expression begins with. -/
namespace Stencil.Code.Grammar

variable {α β : Type} {P : State → Prop} {s₀ : State} {p : Read α} {expr inner : Read Node} {t : Token}
  {w x : String}

theorem needed_head : Yields (· = s₀) needed fun t s => s₀.rest.head? = some t ∧ s = s₀ := by
  refine Yields.bind Yields.get fun s => ?_
  rintro s' t s'' ⟨rfl, rfl⟩ h
  cases hr : s.rest.head? with
  | none => simp only [hr] at h; cases h
  | some u =>
    simp only [hr] at h
    split at h
    · obtain ⟨rfl, rfl⟩ := pure_eq_some.1 h
      exact ⟨rfl, rfl⟩
    · cases h

theorem second_spec : Yields P second? fun o s => P s ∧ o = s.rest.tail.head? := by
  refine Yields.bind Yields.get fun t => Yields.pure fun s hs => ?_
  exact ⟨hs.1, by rw [hs.2]⟩

/-- No statement begins with the token. -/
def Refuses (t : Token) (p : Read α) : Prop :=
  Yields (fun s => s.rest.head? = some t) p fun _ _ => False

theorem Refuses.bind {q : α → Read β} (h : Refuses t p) : Refuses t (p >>= q) :=
  Yields.bind h fun _ => Yields.absurd fun _ => id

theorem refuses_of_needed {q : Token → Read β} (h : Refuses t (q t)) :
    Refuses t (needed >>= q) := by
  refine Yields.bind (Q := fun u s => u = t ∧ s.rest.head? = some t) (fun s u s' hs hu => ?_)
    fun u => Yields.keep fun hu => hu ▸ h
  obtain ⟨hu, rfl⟩ := needed_head rfl hu
  exact ⟨Option.some.inj (hu.symm.trans hs), hs⟩

theorem refuses_behind {q : α → Read β}
    (hp : Yields (fun s => s.rest.head? = some t) p fun _ s => s.rest.head? = some t)
    (h : ∀ a, Refuses t (q a)) : Refuses t (p >>= q) :=
  Yields.bind hp h

theorem refuses_spanned {p : Read (Kind × List Node)} (h : Refuses t p) : Refuses t (spanned p) :=
  refuses_of_needed h.bind

theorem Refuses.chain {operator : Read Bool} {operand : Read Node} (h : Refuses t operand) :
    Refuses t (chain operator operand) :=
  h.bind

/-- A repetition that does not begin takes nothing. -/
theorem many_stays {p : Read (Option β)}
    (h : Yields (fun s => s.rest.head? = some t) p fun o s => o = none ∧ s.rest.head? = some t) :
    Yields (fun s => s.rest.head? = some t) (many p) fun _ s => s.rest.head? = some t := by
  refine Yields.mono (Yields.many (I := fun _ s => s.rest.head? = some t) (f := fun _ => ([] : List β))
    (l := []) fun l => ?_) (fun _ hs => hs) fun _ _ hs => hs
  exact h.mono (fun _ hs => hs) fun _ _ hs => hs.2

theorem needed_stays : Yields (fun s => s.rest.head? = some t) needed fun u s =>
    u = t ∧ s.rest.head? = some t := fun s u s' hs hu => by
  obtain ⟨hu, rfl⟩ := needed_head rfl hu
  exact ⟨Option.some.inj (hu.symm.trans hs), hs⟩

/-- No operand begins with a token of this kind. -/
def IsStuck (t : Token) : Prop :=
  (t.shape = .symbol ∧ (t.text = "=" ∨ t.text = ":")) ∨ t.shape = .name ∧ (t.text = "elif" ∨ t.text = "else")

theorem IsStuck.text (h : IsStuck t) : t.text ∈ ["=", ":", "elif", "else"] := by
  obtain ⟨-, h | h⟩ | ⟨-, h | h⟩ := h <;> simp [h]

theorem IsStuck.not_is (h : IsStuck t) (hx : x ∉ ["=", ":", "elif", "else"]) : t.is x = false := by
  have hne : t.text ≠ x := fun htext => hx (htext ▸ h.text)
  simp [Token.is, hne]

theorem IsStuck.not_isIdentifier (h : IsStuck t) : isIdentifier t = false ∧ t.shape ≠ .quoted := by
  obtain ⟨hshape, -⟩ | ⟨hshape, htext⟩ := h
  · simp [isIdentifier, hshape]
  · have hhard : isHard t.text := by obtain htext | htext := htext <;> rw [htext] <;> decide
    simp [isIdentifier, hshape, hhard]

variable (hx : IsStuck t)
include hx

theorem atom_refuses : Refuses t (atom expr inner) := by
  refine refuses_of_needed ?_
  have hname := hx.not_isIdentifier.1
  obtain ⟨hshape, htext⟩ | ⟨hshape, htext⟩ := hx
  · simp only [hshape]
    obtain htext | htext := htext <;> simp only [htext] <;> exact Yields.fail
  · have hconstant : ["True", "False", "None"].contains t.text = false := by
      obtain htext | htext := htext <;> rw [htext] <;> decide
    simp only [hshape, hname, hconstant, Bool.false_eq_true, if_false]
    exact Yields.fail

theorem unary_refuses (h : Refuses t expr) : Refuses t (unary expr) := by
  refine refuses_of_needed (refuses_behind (many_stays ?_) fun _ => h.bind)
  refine Yields.bind needed_stays fun u => Yields.keep fun hu => ?_
  subst hu
  simp only [hx.not_is (x := "+") (by decide), hx.not_is (x := "-") (by decide),
    hx.not_is (x := "~") (by decide), Bool.or_self, Bool.false_eq_true, if_false]
  refine Yields.bind second_spec fun o => Yields.ite (fun hc => ?_) fun _ =>
    Yields.pure fun s hs => ⟨rfl, hs.1⟩
  simp [hx.not_is (x := "await") (by decide)] at hc

theorem operand_refuses (h : Refuses t inner) : Refuses t (operand expr inner) := by
  refine refuses_of_needed (refuses_behind (many_stays ?_) fun _ => ?_)
  · refine Yields.bind needed_stays fun u => Yields.keep fun hu => ?_
    subst hu
    refine Yields.ite (fun hc => ?_) fun _ => Yields.pure fun s hs => ⟨rfl, hs⟩
    simp [hx.not_is (x := "not") (by decide)] at hc
  · refine refuses_of_needed (Yields.ite (fun hc => ?_) fun _ => ?_)
    · simp [hx.not_is (x := "lambda") (by decide)] at hc
    · exact (unary_refuses hx h).chain.chain.bind

theorem expression_refuses : Refuses t expression := by
  intro s n s' hs h
  have hpair : Refuses t (pair (s.rest.length + 1)).1 :=
    ((operand_refuses hx (atom_refuses hx).bind).chain).bind
  exact hpair hs h

theorem starred_refuses : Refuses t (starred expression) := by
  refine refuses_of_needed (Yields.ite (fun hc => ?_) fun _ => expression_refuses hx)
  simp [hx.not_is (x := "*") (by decide)] at hc

theorem expressionList_refuses : Refuses t expressionList := (starred_refuses hx).bind

theorem rightSide_refuses : Refuses t rightSide := by
  refine refuses_of_needed (Yields.ite (fun hc => ?_) fun _ => (starred_refuses hx).bind)
  simp [hx.not_is (x := "yield") (by decide)] at hc

theorem accept_stays (hne : x ∉ ["=", ":", "elif", "else"]) : Yields (fun s => s.rest.head? = some t) (accept x)
    fun r s => r = false ∧ s.rest.head? = some t := by
  intro s r s' hs h
  cases refuse_gives (List.cons_head?_tail hs).symm (hx.not_is hne) _ h
  exact ⟨rfl, hs⟩

/-- No statement is known by such a token. -/
theorem IsStuck.word_ne {c : Prop} [Decidable c] (hw : w ≠ "" ∧ w ∉ ["=", ":", "elif", "else"]) :
    (if c then t.text else "") ≠ w := by
  split
  · exact fun htext => hw.2 (htext ▸ hx.text)
  · exact hw.1.symm

/-- What a line may be that no keyword begins. -/
theorem otherwise_refuses :
    Refuses t (orElse (whole aliasStatement) (orElse expressionStatement (whole oldStatement))) := by
  refine Yields.orElse (Refuses.bind (refuses_spanned ?_)) (Yields.orElse
    (refuses_spanned (rightSide_refuses hx).bind) (Refuses.bind (refuses_spanned ?_)))
  · refine Yields.bind second_spec fun _ => Yields.ite (fun _ => ?_) fun _ => Yields.fail
    refine Yields.weaken (Refuses.bind (refuses_of_needed (Yields.ite (fun hc => ?_) fun _ =>
      Yields.fail))) fun s hs => hs.1
    simp [hx.not_is (x := "type") (by decide)] at hc
  · refine Yields.bind (accept_stays hx (by decide)) fun _ => Yields.keep fun hr => ?_
    subst hr
    refine Yields.ite (by simp) fun _ => ?_
    refine Yields.bind (accept_stays hx (by decide)) fun _ => Yields.keep fun hr => ?_
    subst hr
    exact Yields.ite (by simp) fun _ => Yields.fail

theorem simple_refuses : Refuses t simple := by
  refine refuses_of_needed ?_
  have hword := fun w hw => hx.word_ne (w := w) (c := t.shape = .name) hw
  generalize (if t.shape = .name then t.text else "") = word at hword
  dsimp only
  split
  case h_12 =>
    exact otherwise_refuses hx
  all_goals exact absurd rfl (hword _ (by decide))

theorem line_refuses (statement : Read (List Node)) : Refuses t (line statement) := by
  refine refuses_of_needed (Yields.bind second_spec fun o => Yields.bind Yields.get fun s => ?_)
  have hword := fun w hw => hx.word_ne (w := w) (c := decide (t.shape = .name) || t.is "@") hw
  generalize (if (decide (t.shape = .name) || t.is "@") = true then t.text else "") = word at hword
  dsimp only
  have hsimples : Refuses t (simples (s.rest.length + 1)) := Refuses.bind (simple_refuses hx)
  split
  case h_11 => exact Yields.weaken hsimples fun s hs => hs.1.1
  all_goals exact absurd rfl (hword _ (by decide))

end Stencil.Code.Grammar
