import Stencil.Proofs.Code.Triple

/-!
Readers in front of tokens that are known. Where the depth to which expressions may nest runs out, a
reader gives nothing; what it gives otherwise is settled here.
-/
namespace Stencil.Code.Grammar

variable {α β : Type} {s s' s₁ : State} {a : α} {b : β} {p : Read α} {t u : Token}
  {ts : List Token} {x : String} {n : Node}

/-- The only answer that a reader can give. -/
def Gives (p : Read α) (s : State) (a : α) (s' : State) : Prop := ∀ r ∈ p s, r = (a, s')

namespace Gives

theorem of_eq (h : p s = some (a, s')) : Gives p s a s' := by
  rintro r hr
  rw [h] at hr
  exact (Option.some.inj hr).symm

theorem fail : Gives (Grammar.fail : Read α) s a s' := by
  rintro r hr
  cases hr

theorem pure : Gives (pure a) s a s := of_eq rfl

theorem get : Gives get s s s := of_eq rfl

theorem bind {q : α → Read β} (hp : Gives p s a s₁) (hq : Gives (q a) s₁ b s') :
    Gives (p >>= q) s b s' := by
  rintro ⟨b', t⟩ hr
  obtain ⟨a', t', hp', hq'⟩ := bind_eq_some.1 hr
  cases hp _ hp'
  exact hq _ hq'

theorem ite_pos {c : Prop} {_ : Decidable c} {p q : Read α} (hc : c) (h : Gives p s a s') :
    Gives (if c then p else q) s a s' := by rwa [if_pos hc]

theorem ite_neg {c : Prop} {_ : Decidable c} {p q : Read α} (hc : ¬ c) (h : Gives q s a s') :
    Gives (if c then p else q) s a s' := by rwa [if_neg hc]

/-- Nothing is repeated where the first round ends. -/
theorem many_nil {p : Read (Option β)} (h : Gives p s none s) : Gives (many p) s [] s := by
  refine bind get ?_
  exact bind h pure

end Gives

/-- A token of a line other than its first one. -/
def IsNext (t : Token) (shape : Shape) (text : String) : Prop :=
  t.shape = shape ∧ t.text = text ∧ t.indent = none

theorem IsNext.is (h : IsNext t .symbol x) : t.is x := by simp [Token.is, h.1, h.2.1]

theorem IsNext.sameLine (h : IsNext t .symbol x) (s : State) : sameLine s t := by
  simp [Grammar.sameLine, h.1, h.2.2]

/-- The state behind the next token. -/
def after (t : Token) (s : State) : State :=
  { s with rest := s.rest.tail, stop := t.stop, endRow := t.endRow }

/-- Behind the tokens `ts`, which leave as many brackets open as before. -/
def behind (ts : List Token) (s : State) : State :=
  { s with
    rest := s.rest.drop ts.length
    stop := (ts.getLast?.map Token.stop).getD s.stop
    endRow := (ts.getLast?.map Token.endRow).getD s.endRow }

theorem behind_single (t : Token) (s : State) : behind [t] s = after t s := by
  simp [behind, after]

theorem consume_eq : consume t s = some ((), after t s) := rfl

theorem needed_gives (h : s.rest = t :: ts) : Gives needed s t s := by
  refine Gives.bind .get ?_
  simp only [h, List.head?_cons]
  split
  · exact .pure
  · exact .fail

section Line

variable (h : s.rest = t :: ts) (hl : sameLine s t)
include h hl

theorem inLine_eq : inLine s = some (some t, s) := by
  change some (s.rest.head?.filter (sameLine s), s) = _
  simp [h, hl]

theorem looksAt_gives : Gives (looksAt x) s (t.is x) s :=
  .bind (.of_eq (inLine_eq h hl)) .pure

theorem accept_gives (hx : t.is x) : Gives (accept x) s true (after t s) := by
  refine .bind (.of_eq (inLine_eq h hl)) (.ite_pos hx ?_)
  exact .bind (.of_eq consume_eq) .pure

end Line

theorem refuse_gives (h : s.rest = t :: ts) (hx : t.is x = false) :
    Gives (accept x) s false s := by
  refine .bind (.of_eq rfl) ?_
  cases ho : s.rest.head?.filter (sameLine s) with
  | none => exact .pure
  | some u =>
    obtain ⟨hu, -⟩ := Option.filter_eq_some_iff.1 ho
    obtain rfl : t = u := by simpa [h] using hu
    exact .ite_neg (by simp [hx]) .pure

theorem identifier_gives (h : s.rest = t :: ts) : Gives identifier s t (after t s) := by
  refine .bind (needed_gives h) ?_
  by_cases hi : isIdentifier t
  · exact .ite_pos hi (.bind (.of_eq consume_eq) .pure)
  · exact .ite_neg hi .fail

theorem expect_gives (h : s.rest = t :: ts) (hx : t.is x) : Gives (expect x) s () (after t s) := by
  refine .bind (needed_gives h) (.ite_pos hx ?_)
  exact .of_eq consume_eq

theorem second_gives : Gives second? s s.rest.tail.head? s := .of_eq rfl

section End

variable (h : inLine s = some (none, s))
include h

theorem accept_none : Gives (accept x) s false s := .bind (.of_eq h) .pure

theorem atEnd_none : Gives atEnd s true s := .bind (.of_eq h) .pure

end End

/-- A line ends in front of one that starts. -/
theorem inLine_none (hd : s.depth = 0) (h : ∀ t ∈ s.rest.head?, t.indent.isSome) :
    inLine s = some (none, s) := by
  change some (s.rest.head?.filter (sameLine s), s) = _
  cases ht : s.rest.head? with
  | none => rfl
  | some t =>
    have hi := h t ht
    have hl : sameLine s t = false := by
      cases hn : t.indent <;> simp_all [sameLine]
    simp [hl]

/-- What may stand behind an operand that is at an end. -/
def closers : List String := [")", ":", "]", "=", ","]

/-- The line goes on with a closer, if at all. -/
def Ended (s : State) : Prop :=
  ∀ t ∈ s.rest.head?, sameLine s t → t.shape = .symbol ∧ t.text ∈ closers

theorem ended_of_indent (hd : s.depth = 0) (h : ∀ t ∈ s.rest.head?, t.indent.isSome) : Ended s := by
  intro t ht hl
  have hi := h t ht
  cases hn : t.indent <;> simp_all [sameLine]

namespace Ended

variable (h : Ended s)
include h

theorem inLine : ∃ o, Grammar.inLine s = some (o, s) ∧
    ∀ t ∈ o, t.shape = .symbol ∧ t.text ∈ closers := by
  refine ⟨_, rfl, fun t ht => ?_⟩
  obtain ⟨ht, hl⟩ := Option.filter_eq_some_iff.1 (Option.mem_def.1 ht)
  exact h t ht hl

theorem looksAt (hx : x ∉ closers) : Gives (Grammar.looksAt x) s false s := by
  obtain ⟨o, ho, hc⟩ := h.inLine
  refine .bind (.of_eq ho) (.of_eq ?_)
  have : o.any (·.is x) = false := by
    cases o with
    | none => rfl
    | some t =>
      obtain ⟨-, hmem⟩ := hc t rfl
      simp only [Option.any_some, Token.is, Bool.and_eq_false_iff, beq_eq_false_iff_ne]
      exact .inr fun he => hx (he ▸ hmem)
  rw [this]
  rfl

theorem accept (hx : x ∉ closers) : Gives (Grammar.accept x) s false s := by
  obtain ⟨o, ho, hc⟩ := h.inLine
  refine .bind (.of_eq ho) ?_
  cases o with
  | none => exact .pure
  | some t =>
    refine .ite_neg (fun hi => hx ?_) .pure
    simp only [Token.is, Bool.and_eq_true, beq_iff_eq] at hi
    exact hi.2 ▸ (hc t rfl).2

theorem acceptAny {xs : List String} (hx : ∀ x ∈ xs, x ∉ closers) :
    Gives (Grammar.acceptAny xs) s false s := by
  obtain ⟨o, ho, hc⟩ := h.inLine
  refine .bind (.of_eq ho) ?_
  cases o with
  | none => exact .pure
  | some t =>
    refine .ite_neg (fun hi => ?_) .pure
    obtain ⟨x, hmem, hi⟩ := List.any_eq_true.1 hi
    simp only [Token.is, Bool.and_eq_true, beq_iff_eq] at hi
    exact hx x hmem (hi.2 ▸ (hc t rfl).2)

end Ended

/-- What may stand in front of an operand or change what it is. -/
def leaders : List String := ["+", "-", "~", "await", "not", "lambda", "yield", "*", "**"]

def Plain (t : Token) : Prop := ∀ x ∈ leaders, t.is x = false

section Operators

variable {expr value item : Read Node} {operator : Read Bool}

theorem chain_gives (ho : Gives operator s' false s') (hp : Gives item s n s') :
    Gives (chain operator item) s n s' := by
  refine .bind hp (.bind (.many_nil (.bind ho ?_)) ?_)
  · exact .ite_neg (by simp) .pure
  · exact .ite_pos rfl .pure

theorem unary_gives (h : s.rest = t :: ts) (ht : Plain t) (hp : Gives value s n s') :
    Gives (unary value) s n s' := by
  refine .bind (needed_gives h) (.bind (.many_nil ?_) (.bind hp (.ite_pos rfl .pure)))
  refine .bind (needed_gives h) (.ite_neg ?_ (.bind second_gives (.ite_neg ?_ .pure)))
  · simp [ht "+" (by decide), ht "-" (by decide), ht "~" (by decide)]
  · simp [ht "await" (by decide)]

theorem comparison_gives (h : s.rest = t :: ts) (ht : Plain t) (he : Ended s')
    (hp : Gives value s n s') : Gives (comparison value) s n s' := by
  refine chain_gives ?_ (chain_gives (he.acceptAny (by decide)) (unary_gives h ht hp))
  refine .bind (he.acceptAny (by decide)) (.ite_neg (by simp) ?_)
  refine .bind (he.accept (by decide)) (.ite_neg (by simp) ?_)
  exact .bind (he.looksAt (by decide)) (.bind second_gives (.ite_neg (by simp) .pure))

theorem walrus_gives (he : Ended s) : Gives (walrus expr n) s n s := by
  unfold walrus
  split
  · exact .bind (he.accept (by decide)) (.ite_neg (by simp) .pure)
  · exact .pure

theorem operand_gives (h : s.rest = t :: ts) (ht : Plain t) (he : Ended s')
    (hp : Gives value s n s') : Gives (operand expr value) s n s' := by
  refine .bind (needed_gives h) (.bind (.many_nil ?_) (.bind (needed_gives h) ?_))
  · exact .bind (needed_gives h) (.ite_neg (by simp [ht "not" (by decide)]) .pure)
  · refine .ite_neg (by simp [ht "lambda" (by decide)]) ?_
    exact .bind (comparison_gives h ht he hp) (.bind (walrus_gives he) (.ite_pos rfl .pure))

/-- A value that nothing follows is an expression. -/
theorem level_gives (h : s.rest = t :: ts) (ht : Plain t) (he : Ended s')
    (hp : Gives value s n s') : Gives (level expr value) s n s' := by
  refine .bind (chain_gives (he.acceptAny (by decide)) (operand_gives h ht he hp)) ?_
  refine .bind (.bind (he.looksAt (by decide)) (.ite_neg (by simp) .pure)) ?_
  exact .bind (he.accept (by decide)) (.ite_neg (by simp) .pure)

/-- An expression to any depth that is one value. -/
theorem pair_gives {k : Nat} (h : s.rest = t :: ts) (ht : Plain t) (he : Ended s')
    (hp : ∀ k, Gives (postfixed (pair k).1 (pair k).2) s n s') : Gives (pair k).1 s n s' := by
  cases k with
  | zero => exact .fail
  | succ k => exact level_gives h ht he (hp k)

theorem starred_gives (h : s.rest = t :: ts) (ht : Plain t) (hp : Gives expr s n s') :
    Gives (starred expr) s n s' :=
  .bind (needed_gives h) (.ite_neg (by simp [ht "*" (by decide)]) hp)

/-- An argument without a name. -/
theorem argument_gives (h : s.rest = t :: u :: ts) (ht : Plain t) (hu : u.is "=" = false)
    (hp : Gives expr s n s') : Gives (argument expr) s n s' := by
  refine .bind (needed_gives h) (.ite_neg (by simp [ht "**" (by decide)]) ?_)
  refine .bind second_gives (.ite_neg (by simp [h, hu]) (starred_gives h ht hp))

end Operators

section Values

variable {expr value : Read Node}

/-- Where a part stands that begins with `t` and was read up to `s`. -/
def spanTo (t : Token) (s : State) : Extent := ⟨t.start, s.stop, t.row, s.endRow⟩

theorem spanned_gives {p : Read (Kind × List Node)} {kind : Kind} {ns : List Node}
    (h : s.rest = t :: ts) (hp : Gives p s (kind, ns) s') :
    Gives (spanned p) s (.mk kind (spanTo t s') ns) s' :=
  .bind (needed_gives h) (.bind hp (.bind .get .pure))

theorem grown_gives {kind : Kind} {ns : List Node} : Gives (grown n kind ns) s
    (.mk kind { n.extent with stop := s.stop, endRow := s.endRow } ns) s :=
  .bind .get .pure

theorem atom_name_gives (h : s.rest = t :: ts) (hi : isIdentifier t) :
    Gives (atom expr value) s (.mk .name (spanTo t (after t s)) []) (after t s) := by
  have hs : t.shape = .name := by simp_all [isIdentifier]
  refine .bind (needed_gives h) ?_
  simp only [hs, hi, if_true]
  refine spanned_gives h ?_
  exact .bind (.of_eq consume_eq) .pure

theorem quoted_gives (h : s.rest = t :: ts) (hq : t.shape = .quoted) (he : Ended (after t s)) :
    Gives quoted s (.mk .quoted (spanTo t (after t s)) []) (after t s) := by
  have hone : Gives (spanned do
      let t ← needed
      if t.shape = .quoted then
        consume t
        return (.quoted, [])
      else Grammar.fail) s (.mk .quoted (spanTo t (after t s)) []) (after t s) := by
    refine spanned_gives h ?_
    exact .bind (needed_gives h) (.ite_pos hq (.bind (.of_eq consume_eq) .pure))
  refine .bind hone (.bind (.many_nil ?_) (.ite_pos rfl .pure))
  obtain ⟨o, ho, hc⟩ := he.inLine
  refine .bind (.of_eq ho) (.ite_neg ?_ .pure)
  cases o with
  | none => simp
  | some u => simp [(hc u rfl).1]

theorem atom_quoted_gives (h : s.rest = t :: ts) (hq : t.shape = .quoted) (he : Ended (after t s)) :
    Gives (atom expr value) s (.mk .quoted (spanTo t (after t s)) []) (after t s) := by
  refine .bind (needed_gives h) ?_
  simp only [hq]
  exact quoted_gives h hq he

theorem trailers_nil_gives (he : Ended s) (fuel : Nat) :
    Gives (trailers expr value fuel n) s n s := by
  cases fuel with
  | zero => exact .pure
  | succ fuel =>
    refine .bind (he.accept (by decide)) (.ite_neg (by simp) ?_)
    refine .bind (he.looksAt (by decide)) (.ite_neg (by simp) ?_)
    exact .bind (he.looksAt (by decide)) (.ite_neg (by simp) .pure)

/-- In front of the next token, one bracket deeper. -/
def opened (t : Token) (s : State) : State := { after t s with depth := s.depth + 1 }

/-- Behind the next token, one bracket less deep. -/
def closed (t : Token) (s : State) : State := { after t s with depth := s.depth - 1 }

theorem is_ne {x y : String} (h : t.is x) (hy : x ≠ y) : t.is y = false := by
  simp only [Token.is, Bool.and_eq_true, beq_iff_eq] at h
  simp only [Token.is, Bool.and_eq_false_iff, beq_eq_false_iff_ne]
  exact .inr fun he => hy (h.2.symm.trans he)

theorem nested_gives {o close : Token} (h : Gives p (opened o s) a (after close s')) :
    Gives (nested p) (after o s) a (closed close s') :=
  .bind (.of_eq rfl) (.bind h (.bind (.of_eq rfl) .pure))

/-- The only argument of a call. -/
theorem arguments_gives {o l close : Token} {rest : List Token} (h : s.rest = o :: l :: ts)
    (ho : o.is "(") (hl : ∀ x ∈ [")", ","], l.is x = false)
    (harg : Gives (argument expr) (opened o s) n s') (h' : s'.rest = close :: rest)
    (hclose : close.is ")") (hd : 0 < s'.depth) :
    Gives (arguments expr value) s (.mk .arguments (spanTo o (closed close s')) [n])
      (closed close s') := by
  have hrest : (opened o s).rest = l :: ts := by simp [opened, after, h]
  have hshape : close.shape ≠ .stop := by
    rintro hs
    simp [Token.is, hs] at hclose
  have hline' : sameLine s' close := by simp [sameLine, hshape, hd]
  have hat : Gives atClause s' false s' := by
    refine .bind (looksAt_gives h' hline') (.ite_neg (by simp [is_ne hclose]) ?_)
    refine .bind (looksAt_gives h' hline') (.bind second_gives ?_)
    rw [is_ne hclose (by decide), Bool.false_and]
    exact .pure
  refine spanned_gives h (.bind (expect_gives h ho) (nested_gives ?_))
  refine .bind (refuse_gives hrest (hl _ (by decide))) (.ite_neg (by simp) ?_)
  refine .bind (refuse_gives hrest (hl _ (by decide))) (.ite_neg (by simp) ?_)
  refine .bind harg (.bind hat (.ite_neg (by simp) (.bind ?_ .pure)))
  refine .bind (.many_nil ?_) (.bind (expect_gives h' hclose) .pure)
  exact .bind (refuse_gives h' (is_ne hclose (by decide))) (.ite_neg (by simp) .pure)

/-- A call of an attribute of a name. -/
theorem postfixed_call_gives {a dot b o l close : Token} {rest : List Token}
    (h : s.rest = a :: dot :: b :: o :: l :: ts) (ha : isIdentifier a) (hdot : dot.is ".")
    (hb : isIdentifier b) (ho : o.is "(")
    (hline : dot.indent = none ∧ b.indent = none ∧ o.indent = none)
    (hl : ∀ x ∈ [")", ","], l.is x = false)
    (harg : Gives (argument expr) (opened o (after b (after dot (after a s)))) n s')
    (h' : s'.rest = close :: rest) (hclose : close.is ")") (hd : 0 < s'.depth)
    (he : Ended (closed close s')) :
    Gives (postfixed expr value) s
      (.mk .call (spanTo a (closed close s'))
        [.mk .member (spanTo a (after b (after dot (after a s)))) [.mk .name (spanTo a (after a s)) []],
          .mk .arguments (spanTo o (closed close s')) [n]])
      (closed close s') := by
  have hshape {t : Token} {x : String} (ht : t.is x) : t.shape ≠ .stop := by
    rintro hs
    simp [Token.is, hs] at ht
  have hrest : (after a s).rest = dot :: b :: o :: l :: ts := by simp [after, h]
  have hrest' : (after dot (after a s)).rest = b :: o :: l :: ts := by simp [after, h]
  have hrest'' : (after b (after dot (after a s))).rest = o :: l :: ts := by simp [after, h]
  have hsame : sameLine (after a s) dot := by simp [sameLine, hshape hdot, hline.1]
  have hsame'' : sameLine (after b (after dot (after a s))) o := by
    simp [sameLine, hshape ho, hline.2.2]
  refine .bind (atom_name_gives h ha) (.bind .get ?_)
  obtain ⟨fuel, hfuel⟩ : ∃ fuel, (after a s).rest.length = fuel + 1 := ⟨_, by rw [hrest]; rfl⟩
  rw [hfuel]
  refine .bind (accept_gives hrest hsame hdot) (.ite_pos rfl ?_)
  refine .bind (.bind (needed_gives hrest') (.ite_pos hb (.bind (.of_eq consume_eq) .pure))) ?_
  refine .bind grown_gives ?_
  refine .bind (refuse_gives hrest'' (is_ne ho (by decide))) (.ite_neg (by simp) ?_)
  refine .bind (looksAt_gives hrest'' hsame'') (.ite_neg (by simp [is_ne ho]) ?_)
  refine .bind (looksAt_gives hrest'' hsame'') (.ite_pos ho ?_)
  refine .bind (arguments_gives hrest'' ho hl harg h' hclose hd) (.bind grown_gives ?_)
  exact trailers_nil_gives he fuel

end Values

end Stencil.Code.Grammar
