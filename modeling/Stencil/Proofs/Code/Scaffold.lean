import Stencil.Proofs.Code.Refusal

/-! What the fixed statements of a module are read as. -/
namespace Stencil.Code.Grammar

variable {s s' : State} {t u v : Token} {ts : List Token} {n : Node} {ns : List Node}
  {x : String} {statement : Read (List Node)}

/-- Words that statements of several lines begin with. One more does so unless what is behind it
makes it a name. -/
def compound : List String := ["if", "while", "for", "try", "with", "def", "class", "@", "async"]

/-- Words that simple statements of a form of their own begin with. -/
def special : List String := [
  "pass", "break", "continue", "return", "del", "assert", "raise", "global", "nonlocal", "import",
  "from"]

theorem IsNext.is_name (h : IsNext t .name x) : t.is x := by simp [Token.is, h.1, h.2.1]

/-- Behind a reader whose only answer is known. -/
theorem Gives.then {α β : Type} {p : Read α} {q : α → Read β} {a : α} {Q : β → State → Prop}
    (hp : Gives p s a s') (hq : Yields (· = s') (q a) Q) : Yields (· = s) (p >>= q) Q := by
  rintro _ b s₂ rfl hb
  obtain ⟨_, _, ha, hb⟩ := bind_eq_some.1 hb
  cases hp _ ha
  exact hq rfl hb

theorem looksAt_refuse (h : s.rest = t :: ts) (hx : t.is x = false) :
    Gives (looksAt x) s false s := by
  refine .bind (.of_eq rfl) (.of_eq ?_)
  have : (s.rest.head?.filter (sameLine s)).any (·.is x) = false := by
    cases ho : s.rest.head?.filter (sameLine s) with
    | none => rfl
    | some u =>
      obtain ⟨hu, -⟩ := Option.filter_eq_some_iff.1 ho
      obtain rfl : t = u := by simpa [h] using hu
      exact hx
  rw [this]
  rfl

theorem acceptAny_refuse {xs : List String} (h : s.rest = t :: ts)
    (hx : ∀ x ∈ xs, t.is x = false) : Gives (acceptAny xs) s false s := by
  refine .bind (.of_eq rfl) ?_
  cases ho : s.rest.head?.filter (sameLine s) with
  | none => exact .pure
  | some u =>
    obtain ⟨hu, -⟩ := Option.filter_eq_some_iff.1 ho
    obtain rfl : t = u := by simpa [h] using hu
    refine .ite_neg ?_ .pure
    simpa using hx

/-- A statement that is alone on its line. -/
theorem simples_gives (hp : Gives simple s n s') (he : inLine s' = some (none, s')) (fuel : Nat) :
    Gives (simples fuel) s [n] s' := by
  cases fuel with
  | zero => exact .fail
  | succ fuel =>
    refine .bind hp (.bind (accept_none he) (.ite_neg (by simp) ?_))
    exact .bind (.of_eq he) (.ite_pos rfl .pure)

theorem orElse_gives {α : Type} {p q : Read α} {a : α} (hp : Gives p s a s') (hq : q s = none) :
    Gives (orElse p q) s a s' := by
  rintro r hr
  obtain h | ⟨_, h⟩ := Option.or_eq_some_iff.1 hr
  · exact hp r h
  · rw [hq] at h
    cases h

theorem orElse_none_gives {α : Type} {p q : Read α} {a : α} (hp : p s = none) (hq : Gives q s a s') :
    Gives (orElse p q) s a s' := by
  rintro r hr
  obtain h | ⟨-, h⟩ := Option.or_eq_some_iff.1 hr
  · rw [hp] at h
    cases h
  · exact hq r h

theorem line_gives (h : s.rest = t :: ts) (ht : t.shape = .name) (hx : t.text ∉ compound)
    (hmatch : t.text = "match" → matchStatement statement s = none)
    (hp : ∀ fuel, Gives (simples fuel) s ns s') : Gives (line statement) s ns s' := by
  refine .bind (needed_gives h) (.bind second_gives (.bind .get ?_))
  simp only [compound, List.mem_cons, List.not_mem_nil, or_false, not_or] at hx
  simp only [ht, decide_true, Bool.true_or, if_true]
  split
  case h_10 hword =>
    refine orElse_gives (hp _) (Option.eq_none_iff_forall_ne_some.2 fun r hr => ?_)
    obtain ⟨_, _, hn, -⟩ := bind_eq_some.1 hr
    rw [hmatch hword] at hn
    cases hn
  all_goals first | exact hp _ | simp_all

theorem lineAt_gives (h : s.rest = t :: ts) (ht : t.shape = .name) (hx : t.text ∉ compound)
    (hmatch : ∀ statement, t.text = "match" → matchStatement statement s = none)
    (hp : ∀ fuel, Gives (simples fuel) s ns s') (k : Nat) : Gives (Grammar.lineAt k) s ns s' := by
  cases k with
  | zero => exact .fail
  | succ k => exact line_gives h ht hx (hmatch _) hp

/-- A line that is read as a single statement. -/
def IsSimple (us : List Token) : Prop :=
  ∀ k s ts, s.rest = us ++ ts → s.depth = 0 → (∀ u ∈ ts.head?, u.indent.isSome) →
    ∃ n, n.kind = .statement ∧ Gives (Grammar.lineAt k) s [n] (behind us s)

/-- The end of a line. -/
theorem behind_end {us : List Token} (h : s.rest = us ++ ts) (hd : s.depth = 0)
    (hline : ∀ u ∈ ts.head?, u.indent.isSome) :
    inLine (behind us s) = some (none, behind us s) ∧ Ended (behind us s) := by
  have hrest : (behind us s).rest = ts := by simp [behind, h]
  exact ⟨inLine_none hd (by rwa [hrest]), ended_of_indent hd (by rwa [hrest])⟩

section Imports

theorem dottedName_gives (h : s.rest = t :: ts) (hdot : Gives (accept ".") (after t s) false (after t s)) :
    Gives dottedName s () (after t s) :=
  .bind (identifier_gives h) (.bind (.many_nil (.bind hdot (.ite_neg (by simp) .pure))) .pure)

/-- What is imported up to the end of the line, and the name it gets. -/
theorem importList_gives {s₁ : State} (hitem : Gives importItem s () s₁)
    (he : inLine s₁ = some (none, s₁)) : Gives (importList false) s () s₁ :=
  .bind hitem (.bind (.many_nil (.bind (accept_none he) (.ite_neg (by simp) .pure))) .pure)

theorem importItem_gives (h : s.rest = t :: ts) (he : inLine (after t s) = some (none, after t s)) :
    Gives importItem s () (after t s) :=
  .bind (dottedName_gives h (accept_none he)) (.bind (accept_none he) (.ite_neg (by simp) .pure))

theorem importItem_as_gives (h : s.rest = t :: u :: v :: ts) (hu : IsNext u .name "as") :
    Gives importItem s () (after v (after u (after t s))) := by
  have hrest : (after t s).rest = u :: v :: ts := by simp [after, h]
  have hrest' : (after u (after t s)).rest = v :: ts := by simp [after, h]
  have his : u.is "as" := by simp [Token.is, hu.1, hu.2.1]
  refine .bind (dottedName_gives h (refuse_gives hrest (is_ne his (by decide)))) ?_
  refine .bind (accept_gives hrest (by simp [sameLine, hu.1, hu.2.2]) his) (.ite_pos rfl ?_)
  exact .bind (identifier_gives hrest') .pure

theorem isSimple_of_gives {us : List Token} (hus : us = t :: ts) (ht : t.shape = .name)
    (hx : t.text ∉ compound ∧ t.text ≠ "match")
    (h : ∀ s vs, s.rest = us ++ vs → s.depth = 0 → (∀ u ∈ vs.head?, u.indent.isSome) →
      ∃ n, n.kind = .statement ∧ Gives simple s n (behind us s)) : IsSimple us := by
  intro k s vs hrest hd hline
  obtain ⟨n, hn, hgives⟩ := h s vs hrest hd hline
  have hfirst : s.rest = t :: (ts ++ vs) := by rw [hrest, hus, List.cons_append]
  refine ⟨n, hn, lineAt_gives hfirst ht hx.1 (fun _ hmatch => (hx.2 hmatch).elim) (fun fuel => ?_) k⟩
  exact simples_gives hgives (behind_end hrest hd hline).1 fuel

theorem isSimple_import (ht : t.shape = .name ∧ t.text = "import") : IsSimple [t, u] := by
  refine isSimple_of_gives rfl ht.1 (by rw [ht.2]; decide) fun s vs h hd hline =>
    ⟨.mk .statement (spanTo t (behind [t, u] s)) [], rfl, ?_⟩
  have hstate : behind [t, u] s = after u (after t s) := by simp [behind, after, h]
  have hend := (behind_end h hd hline).1
  rw [hstate] at hend ⊢
  have hrest : (after t s).rest = u :: vs := by simp [after, h]
  refine .bind (needed_gives h) ?_
  simp only [ht, if_true]
  refine spanned_gives h (.bind (.of_eq consume_eq) (.bind (.bind (a := ()) ?_ .pure) .pure))
  exact importList_gives (importItem_gives hrest hend) hend

/-- An import from a module. -/
theorem isSimple_from {m i : Token} {us : List Token} (ht : t.shape = .name ∧ t.text = "from")
    (hm : m.is "." = false ∧ m.is "..." = false) (hi : i.is "import") (hu : u.is "*" = false ∧ u.is "(" = false)
    (hitem : ∀ s vs, s.rest = u :: us ++ vs → s.depth = 0 → (∀ v ∈ vs.head?, v.indent.isSome) →
      Gives importItem s () (behind (u :: us) s)) : IsSimple (t :: m :: i :: u :: us) := by
  refine isSimple_of_gives rfl ht.1 (by rw [ht.2]; decide) fun s vs h hd hline =>
    ⟨.mk .statement (spanTo t (behind (t :: m :: i :: u :: us) s)) [], rfl, ?_⟩
  have hrest : (after t s).rest = m :: i :: u :: (us ++ vs) := by simp [after, h]
  have hrest' : (after m (after t s)).rest = i :: u :: (us ++ vs) := by simp [after, h]
  have hrest'' : (after i (after m (after t s))).rest = u :: us ++ vs := by simp [after, h]
  have hstate : behind (u :: us) (after i (after m (after t s))) = behind (t :: m :: i :: u :: us) s := by
    simp [behind, after, h, List.getLast?_cons]
  have hlist := hitem _ _ hrest'' hd hline
  rw [hstate] at hlist
  refine .bind (needed_gives h) ?_
  simp only [ht, if_true]
  refine spanned_gives h (.bind (.of_eq consume_eq) (.bind (.bind (a := ()) ?_ .pure) .pure))
  refine .bind (.many_nil (.bind (acceptAny_refuse hrest ?_) (.ite_neg (by simp) .pure))) ?_
  · simpa using hm
  refine .ite_pos rfl (.bind (dottedName_gives hrest (refuse_gives hrest' (is_ne hi (by decide)))) ?_)
  refine .bind (expect_gives hrest' hi) ?_
  refine .bind (refuse_gives hrest'' hu.1) (.ite_neg (by simp) ?_)
  refine .bind (looksAt_refuse hrest'' hu.2) (.ite_neg (by simp) ?_)
  exact importList_gives hlist (behind_end h hd hline).1

end Imports

section Values

/-- A name that a closer follows. -/
theorem name_gives {k : Nat} (h : s.rest = t :: ts) (hi : isIdentifier t) (ht : Plain t)
    (he : Ended (after t s)) :
    Gives (pair k).1 s (.mk .name (spanTo t (after t s)) []) (after t s) :=
  pair_gives h ht he fun _ => .bind (atom_name_gives h hi) (.bind .get (trailers_nil_gives he _))

theorem expression_gives (hp : ∀ k, Gives (pair k).1 s n s') : Gives expression s n s' :=
  fun r hr => hp (s.rest.length + 1) r hr

theorem acceptBehind_eq (hn : n.isPattern = false) : acceptBehind x n = accept x := by
  simp [acceptBehind, hn]

/-- A value in front of no comma is a side of its own. -/
theorem rightSide_gives (h : s.rest = t :: ts) (ht : Plain t) (hp : ∀ k, Gives (pair k).1 s n s')
    (hn : n.isPattern = false) (hc : Gives (accept ",") s' false s') : Gives rightSide s n s' := by
  refine .bind (needed_gives h) (.ite_neg (by simp [ht "yield" (by decide)]) ?_)
  refine .bind (starred_gives h ht (expression_gives hp)) (.bind (.many_nil ?_) (.ite_pos rfl .pure))
  rw [acceptBehind_eq hn]
  exact .bind hc (.ite_neg (by simp) .pure)

/-- A word that is expected is the next token. -/
theorem expect_inversion {r : Unit} {s₁ : State} (h : s.rest = t :: ts) (hr : expect x s = some (r, s₁)) :
    s₁ = after t s := by
  obtain ⟨_, _, hneeded, hr⟩ := bind_eq_some.1 hr
  cases needed_gives h _ hneeded
  by_cases hx : t.is x
  · rw [if_pos hx, consume_eq] at hr
    cases hr
    rfl
  · rw [if_neg hx] at hr
    cases hr

/-- A word that is accepted is the next token. -/
theorem accept_inversion {r : Bool} {s₁ : State} (h : s.rest = t :: ts) (hr : accept x s = some (r, s₁)) :
    s₁ = if r then after t s else s := by
  obtain ⟨o, _, ho, hr⟩ := bind_eq_some.1 hr
  cases ho
  cases hfilter : s.rest.head?.filter (sameLine s) with
  | none =>
    rw [hfilter] at hr
    cases hr
    rfl
  | some v =>
    obtain ⟨hv, -⟩ := Option.filter_eq_some_iff.1 hfilter
    obtain rfl : t = v := by simpa [h] using hv
    rw [hfilter] at hr
    dsimp only at hr
    split at hr <;> cases hr <;> rfl

/-- A token that no operand begins with is not read behind a word. -/
theorem refuses_second {α : Type} {p : Read α} {s₁ s₂ : State} {a : α} (h : s.rest = t :: u :: ts)
    (hp : Refuses u p) (hs : s₁ = after t s) (ha : p s₁ = some (a, s₂)) : False :=
  hp (by simp [hs, after, h]) ha

/-- In front of what no operand begins with no word begins a statement of older code. -/
theorem oldStatement_none (h : s.rest = t :: u :: ts) (hu : IsStuck u) : oldStatement s = none := by
  refine Option.eq_none_iff_forall_ne_some.2 fun r hr => ?_
  have hrest : (after t s).rest = u :: ts := by simp [after, h]
  obtain ⟨_, _, hneeded, hr⟩ := bind_eq_some.1 hr
  cases needed_gives h _ hneeded
  obtain ⟨_, _, hp, -⟩ := bind_eq_some.1 hr
  obtain ⟨printed, _, hprint, hp⟩ := bind_eq_some.1 hp
  obtain rfl := accept_inversion h hprint
  cases printed with
  | true =>
    obtain ⟨_, _, hmore, hp⟩ := bind_eq_some.1 hp
    cases refuse_gives hrest (hu.not_is (by decide)) _ hmore
    obtain ⟨_, _, hlist, -⟩ := bind_eq_some.1 hp
    exact refuses_second h (expressionList_refuses hu) rfl hlist
  | false =>
    obtain ⟨run, _, hexec, hp⟩ := bind_eq_some.1 hp
    obtain rfl := accept_inversion h hexec
    cases run with
    | true =>
      obtain ⟨_, _, hneeded, hp⟩ := bind_eq_some.1 hp
      cases needed_gives hrest _ hneeded
      simp [hu.not_isIdentifier] at hp
      cases hp
    | false => cases hp

theorem aliasStatement_none (h : s.rest = t :: u :: ts) (hu : IsStuck u) : aliasStatement s = none := by
  refine Option.eq_none_iff_forall_ne_some.2 fun r hr => ?_
  obtain ⟨_, _, hneeded, hr⟩ := bind_eq_some.1 hr
  cases needed_gives h _ hneeded
  obtain ⟨_, _, hp, -⟩ := bind_eq_some.1 hr
  obtain ⟨_, _, hsecond, hp⟩ := bind_eq_some.1 hp
  cases second_gives _ hsecond
  split at hp
  · obtain ⟨_, _, hexpect, hp⟩ := bind_eq_some.1 hp
    obtain ⟨_, _, hleft, -⟩ := bind_eq_some.1 hp
    exact refuses_second h (expression_refuses hu) (expect_inversion h hexpect) hleft
  · cases hp

theorem matchStatement_none (h : s.rest = t :: u :: ts) (hu : IsStuck u) :
    matchStatement statement s = none := by
  refine Option.eq_none_iff_forall_ne_some.2 fun r hr => ?_
  obtain ⟨_, _, hneeded, hr⟩ := bind_eq_some.1 hr
  cases needed_gives h _ hneeded
  obtain ⟨_, _, hp, -⟩ := bind_eq_some.1 hr
  obtain ⟨_, _, hexpect, hp⟩ := bind_eq_some.1 hp
  obtain ⟨_, _, hsubject, -⟩ := bind_eq_some.1 hp
  exact refuses_second h (expressionList_refuses hu) (expect_inversion h hexpect) hsubject

theorem whole_none {p : Read Node} (h : p s = none) : whole p s = none := by
  refine Option.eq_none_iff_forall_ne_some.2 fun r hr => ?_
  obtain ⟨_, _, hn, -⟩ := bind_eq_some.1 hr
  rw [h] at hn
  cases hn

/-- What is in front of a closer is at an end. -/
theorem ended_of_next (h : s.rest = t :: ts) (ht : IsNext t .symbol x) (hx : x ∈ closers) :
    Ended s := by
  intro u hu _
  obtain rfl : t = u := by simpa [h] using hu
  exact ⟨ht.1, ht.2.1 ▸ hx⟩

/-- An annotated name, with a value or without one, on a line of its own. -/
theorem annotation_gives {type : Node} {s₁ : State} {tail : List Node}
    (h : s.rest = t :: u :: v :: ts) (hi : isIdentifier t) (ht : Plain t)
    (hw : t.text ∉ special) (hu : IsNext u .symbol ":") (hv : Plain v)
    (htype : ∀ k, Gives (pair k).1 (after u (after t s)) type s₁)
    (htail : ∀ fuel, Gives (assignTail fuel (.mk .name (spanTo t (after t s)) [])) s₁ tail s')
    (he : inLine s' = some (none, s')) :
    Gives simple s (.mk .statement (spanTo t s')
      (.mk .name (spanTo t (after t s)) [] :: type :: tail)) s' := by
  have hrest : (after t s).rest = u :: v :: ts := by simp [after, h]
  have hrest' : (after u (after t s)).rest = v :: ts := by simp [after, h]
  have hname : ∀ k, Gives (pair k).1 s (.mk .name (spanTo t (after t s)) []) (after t s) :=
    fun k => name_gives h hi ht (ended_of_next hrest hu (by decide))
  have hshape : t.shape = .name := by
    simp only [isIdentifier, Bool.and_eq_true, decide_eq_true_eq] at hi
    exact hi.1
  have hstatement : Gives expressionStatement s (.mk .statement (spanTo t s')
      (.mk .name (spanTo t (after t s)) [] :: type :: tail)) s' := by
    refine spanned_gives h (.bind (rightSide_gives h ht hname rfl ?_) (.bind .get ?_))
    · exact refuse_gives hrest (is_ne hu.is (by decide))
    refine .ite_pos rfl (.bind (accept_gives hrest (hu.sameLine _) hu.is) (.ite_pos rfl ?_))
    refine .bind (starred_gives hrest' hv (expression_gives htype)) ?_
    refine .bind (htail _) (.bind .pure ?_)
    exact .bind (atEnd_none he) (.ite_pos rfl .pure)
  refine .bind (needed_gives h) ?_
  simp only [special, List.mem_cons, List.not_mem_nil, or_false, not_or] at hw
  simp only [hshape, if_true]
  split
  iterate 11 simp_all
  have hstuck : IsStuck u := .inl ⟨hu.1, .inr hu.2.1⟩
  refine orElse_none_gives (whole_none (aliasStatement_none h hstuck)) ?_
  exact orElse_gives hstatement (whole_none (oldStatement_none h hstuck))

theorem assignTail_nil_gives (hn : n.isPattern = false) (h : inLine s = some (none, s)) (fuel : Nat) :
    Gives (assignTail fuel n) s [] s := by
  cases fuel with
  | zero => exact .fail
  | succ fuel =>
    have hnone : Gives (acceptBehind "=" n) s false s := acceptBehind_eq hn ▸ accept_none h
    exact .bind hnone (.ite_neg (by simp) .pure)

/-- An attribute of a name. -/
theorem attribute_gives {k : Nat} (h : s.rest = t :: u :: v :: ts) (hi : isIdentifier t)
    (ht : Plain t) (hu : IsNext u .symbol ".") (he : Ended (after v (after u (after t s)))) :
    Gives (pair k).1 s (.mk .member (spanTo t (after v (after u (after t s))))
      [.mk .name (spanTo t (after t s)) []]) (after v (after u (after t s))) := by
  have hrest : (after t s).rest = u :: v :: ts := by simp [after, h]
  have hrest' : (after u (after t s)).rest = v :: ts := by simp [after, h]
  obtain ⟨fuel, hfuel⟩ : ∃ fuel, (after t s).rest.length = fuel + 1 := ⟨_, by rw [hrest]; rfl⟩
  refine pair_gives h ht he fun _ => .bind (atom_name_gives h hi) (.bind .get ?_)
  rw [hfuel]
  refine .bind (accept_gives hrest (hu.sameLine _) hu.is) (.ite_pos rfl ?_)
  exact .bind (identifier_gives hrest') (.bind grown_gives (trailers_nil_gives he _))

/-- A word that is no keyword and no sign of an operand is a name. -/
theorem word_of_shape (ht : t.shape = .name) (hx : isHard t.text = false ∧ t.text ∉ leaders) :
    isIdentifier t ∧ Plain t := by
  refine ⟨by simp [isIdentifier, ht, hx.1], fun x hx' => ?_⟩
  simp only [Token.is, Bool.and_eq_false_iff, beq_eq_false_iff_ne]
  exact .inr fun he => hx.2 (he ▸ hx')

end Values

section Lines

/-- A name that no statement has a form of its own for, unless what is behind it says so. -/
structure Ordinary (t : Token) : Prop where
  shape : t.shape = .name
  hard : isHard t.text = false
  others : t.text ∉ leaders ∧ t.text ∉ special ∧ t.text ∉ compound

theorem Ordinary.word (h : Ordinary t) : isIdentifier t ∧ Plain t :=
  word_of_shape h.shape ⟨h.hard, h.others.1⟩

theorem IsNext.word (h : IsNext t .name x) (hx : isHard x = false ∧ x ∉ leaders) :
    isIdentifier t ∧ Plain t :=
  word_of_shape h.1 (by rwa [h.2.1])

/-- The declaration of a variable of any type. -/
theorem isSimple_declaration {c m d a : Token} (ht : Ordinary t) (hc : IsNext c .symbol ":")
    (hm : IsNext m .name "typing") (hd : IsNext d .symbol ".") : IsSimple [t, c, m, d, a] := by
  intro k s vs h hdepth hline
  have hstate : after a (after d (after m (after c (after t s)))) = behind [t, c, m, d, a] s := by
    simp [after, behind, h]
  obtain ⟨hend, hended⟩ := behind_end h hdepth hline
  have hrest : (after c (after t s)).rest = m :: d :: a :: vs := by simp [after, h]
  have hmodule := hm.word (by decide)
  have htype (k : Nat) := attribute_gives (k := k) hrest hmodule.1 hmodule.2 hd (hstate ▸ hended)
  rw [hstate] at htype
  have hgives := annotation_gives h ht.word.1 ht.word.2 ht.others.2.1 hc hmodule.2 htype
    (assignTail_nil_gives rfl hend) hend
  refine ⟨_, rfl, lineAt_gives h ht.shape ht.others.2.2 (fun statement _ => ?_)
    (simples_gives hgives hend) k⟩
  exact matchStatement_none h (.inl ⟨hc.1, .inr hc.2.1⟩)

end Lines

end Stencil.Code.Grammar
