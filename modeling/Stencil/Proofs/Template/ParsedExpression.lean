import Stencil.Proofs.Keeps
import Stencil.Proofs.Template.Worded
import Stencil.Template.ExprParser

/-!
Templates are made of names that stand in them as tokens, and of a few that the parser brings along.
So what holds of these names holds of all names in the syntax tree.
-/
namespace Stencil.Template

variable {α β : Type} {p : String → Prop} {R : α → Prop} {Q : β → Prop} {x : Parser α} {f : α → Parser β}

/-- The name in a token satisfies `p`. -/
def Lexeme.Named (p : String → Prop) (l : Lexeme) : Prop := ∀ s, l = .name s → p s

def TokenStream.Named (p : String → Prop) : TokenStream → Prop
  | .token t rest => t.lexeme.Named p ∧ rest.Named p
  | _ => True

instance Lexeme.decidableNamed [DecidablePred p] : (l : Lexeme) → Decidable (l.Named p)
  | .name s => decidable_of_iff (p s) ⟨fun h t ht => Lexeme.name.inj ht ▸ h, fun h => h s rfl⟩
  | .data _ | .blockBegin | .blockEnd | .variableBegin | .variableEnd | .str _ | .int _ | .float _ | .op _ | .eof =>
    isTrue fun _ h => by cases h

instance TokenStream.decidableNamed [DecidablePred p] : (stream : TokenStream) → Decidable (stream.Named p)
  | .token t rest => @instDecidableAnd _ _ (Lexeme.decidableNamed t.lexeme) (decidableNamed rest)
  | .done | .failed _ => isTrue trivial

/-- The names in the tokens that are left satisfy `p`. -/
def ParserState.Named (p : String → Prop) (s : ParserState) : Prop :=
  s.current.lexeme.Named p ∧ s.rest.Named p

/-- What holds of a parser's answer if the names in the tokens satisfy `p`. -/
abbrev Parser.Reads (p : String → Prop) (x : Parser α) (R : α → Prop) : Prop :=
  Keeps (ParserState.Named p) x R

namespace Parser

theorem named_forced {line : Nat} {stream rest : TokenStream} {t : Token} (h : stream.Named p)
    (hf : forced line stream = .ok (t, rest)) : t.lexeme.Named p ∧ rest.Named p := by
  cases stream with
  | done =>
    cases hf
    exact ⟨fun s hs => (by cases hs), trivial⟩
  | failed e => cases hf
  | token u us =>
    cases hf
    exact h

theorem failAt_reads {line : Nat} {fault : Fault} : Reads p (failAt line fault : Parser α) R := Keeps.throw

theorem fail_reads {fault : Fault} : Reads p (fail fault : Parser α) R :=
  Keeps.bind (R := fun _ => True) (Keeps.get.bind fun _ _ => Keeps.pure trivial) fun _ _ => failAt_reads

theorem current_reads : Reads p current fun t => t.lexeme.Named p :=
  Keeps.get.bind fun _ hs => Keeps.pure hs.1

theorem lexeme_reads : Reads p lexeme fun l => l.Named p :=
  Keeps.get.bind fun _ hs => Keeps.pure hs.1

theorem line_reads : Reads p line fun _ => True :=
  Keeps.get.bind fun _ _ => Keeps.pure trivial

theorem nodeLine_reads : Reads p nodeLine fun _ => True :=
  Keeps.get.bind fun _ _ => Keeps.pure trivial

theorem next_reads : Reads p next fun t => t.lexeme.Named p := by
  refine Keeps.get.bind fun s hs => ?_
  have hforced : Reads p (do
      let r ← (forced s.current.line s.rest : Except ParseError _)
      set { s with current := r.1, rest := r.2 }
      return s.current) fun t => t.lexeme.Named p := by
    refine (Keeps.lift fun r hr => named_forced hs.2 hr).bind fun r hr => ?_
    exact (Keeps.set ⟨hr.1, hr.2⟩).bind fun _ _ => Keeps.pure hs.1
  split
  · exact Keeps.pure hs.1
  · exact hforced

theorem look_reads : Reads p look fun _ => True := by
  refine Keeps.get.bind fun s hs => ?_
  split
  · exact Keeps.pure trivial
  · exact (Keeps.lift fun _ _ => trivial).bind fun _ _ => Keeps.pure trivial

theorem isOp_reads {o : Operator} : Reads p (isOp o) fun _ => True :=
  lexeme_reads.bind fun _ _ => Keeps.pure trivial

theorem isName_reads {s : String} : Reads p (isName s) fun _ => True :=
  lexeme_reads.bind fun _ _ => Keeps.pure trivial

theorem skipIf_reads {test : Lexeme → Bool} : Reads p (skipIf test) fun _ => True :=
  lexeme_reads.bind fun _ _ => Keeps.ite (fun _ => next_reads.bind fun _ _ => Keeps.pure trivial) fun _ =>
    Keeps.pure trivial

theorem refuse_reads {wanted : String} : Reads p (refuse wanted : Parser α) R := by
  refine current_reads.bind fun t _ => ?_
  split <;> exact failAt_reads

theorem expect_reads {test : Lexeme → Bool} {wanted : String} :
    Reads p (expect test wanted) fun t => t.lexeme.Named p :=
  lexeme_reads.bind fun _ _ => Keeps.ite (fun _ => next_reads) fun _ => refuse_reads

theorem expectName_reads : Reads p expectName fun r => p r.2 := by
  refine current_reads.bind fun t ht => ?_
  split
  · next s hs => exact next_reads.bind fun _ _ => Keeps.pure (ht s hs)
  · exact refuse_reads

theorem repeatWhile_reads {more : Parser Bool} (hmore : Reads p more fun _ => True) (hx : Reads p x R)
    (n : Nat) : Reads p (repeatWhile more x n) fun as => ∀ a ∈ as, R a := by
  induction n with
  | zero => exact Keeps.pure (by simp)
  | succ n ih =>
    refine hmore.bind fun _ _ => Keeps.ite (fun _ => ?_) fun _ => Keeps.pure (by simp)
    refine hx.bind fun a ha => ih.bind fun as has => Keeps.pure ?_
    exact List.forall_mem_cons.2 ⟨ha, has⟩

/-! ### Expressions -/

/-- All names in arguments satisfy `p`. -/
structure Args.Worded (p : String → Prop) (a : Args) : Prop where
  args : ∀ e ∈ a.args, e.Worded p false
  named : ∀ e ∈ a.named, p e.1 ∧ e.2.Worded p false
  rest : wordedOption p a.rest
  restNamed : wordedOption p a.restNamed

theorem noArgs_worded : noArgs.Worded p := ⟨by simp [noArgs], by simp [noArgs], trivial, trivial⟩

section Levels

variable {fuel : Nat} {expression item operand : Parser Expr} {e : Expr} {items : List Expr} {a : Args}
  {s : String} {input : Option Expr}

theorem tupleTail_reads {line : Nat} {isTuple explicit : Bool} (h : ∀ e ∈ items, e.Worded p false) :
    Reads p (tupleTail line isTuple explicit items) fun e => e.Worded p false := by
  unfold tupleTail
  split
  · exact Keeps.pure (h _ (by simp))
  · exact Keeps.ite (fun _ => Keeps.pure trivial) fun _ => lexeme_reads.bind fun _ _ => fail_reads
  · exact Keeps.pure (wordedAll_iff.2 fun e he => (h e he).loosen)

theorem tupleItems_reads (hitem : Reads p item fun e => e.Worded p false) (n line : Nat) (isTuple : Bool)
    (h : ∀ e ∈ items, e.Worded p false) :
    Reads p (tupleItems item n line isTuple items) fun r => ∀ e ∈ r.2.2, e.Worded p false := by
  induction n generalizing line isTuple items with
  | zero => exact Keeps.pure fun e he => h e (List.mem_reverse.1 he)
  | succ n ih =>
    have hdone (line : Nat) (isTuple : Bool) {items : List Expr} (h : ∀ e ∈ items, e.Worded p false) :
        Reads p (pure (line, isTuple, items.reverse)) fun r => ∀ e ∈ r.2.2, e.Worded p false :=
      Keeps.pure fun e he => h e (List.mem_reverse.1 he)
    refine Keeps.ite (fun _ => expect_reads.bind fun _ _ => ?_) fun _ => ?_
    all_goals
      refine lexeme_reads.bind fun l _ => Keeps.ite (fun _ => hdone _ _ h) fun _ => hitem.bind fun e he => ?_
      have hall : ∀ f ∈ e :: items, f.Worded p false := List.forall_mem_cons.2 ⟨he, h⟩
      exact isOp_reads.bind fun _ _ =>
        Keeps.ite (fun _ => line_reads.bind fun _ _ => ih _ _ hall) fun _ => hdone _ _ hall

theorem tuple_reads {explicit : Bool} (hitem : Reads p item fun e => e.Worded p false) :
    Reads p (tuple fuel explicit item) fun e => e.Worded p false :=
  line_reads.bind fun line _ => (tupleItems_reads hitem fuel line false (by simp)).bind fun _ hr =>
    tupleTail_reads hr

theorem itemsUntil_reads {item : Parser α} {close : Operator} (hitem : Reads p item R) (n : Nat) {as : List α}
    (h : ∀ a ∈ as, R a) : Reads p (itemsUntil close item n as) fun as => ∀ a ∈ as, R a := by
  have hdone {as : List α} (h : ∀ a ∈ as, R a) : Reads p (pure as.reverse) fun as => ∀ a ∈ as, R a :=
    Keeps.pure fun a ha => h a (List.mem_reverse.1 ha)
  induction n generalizing as with
  | zero => exact hdone h
  | succ n ih =>
    refine isOp_reads.bind fun _ _ => Keeps.ite (fun _ => hdone h) fun _ => ?_
    refine Keeps.ite (fun _ => expect_reads.bind fun _ _ => ?_) fun _ => ?_
    all_goals
      exact isOp_reads.bind fun _ _ => Keeps.ite (fun _ => hdone h) fun _ =>
        hitem.bind fun a ha => ih (List.forall_mem_cons.2 ⟨ha, h⟩)

variable (he : Reads p expression fun e => e.Worded p false)

include he

theorem listLiteral_reads : Reads p (listLiteral fuel expression) fun e => e.Worded p false :=
  expect_reads.bind fun _ _ => (itemsUntil_reads he fuel (by simp)).bind fun _ hitems =>
    expect_reads.bind fun _ _ => Keeps.pure (wordedAll_iff.2 hitems)

theorem dictLiteral_reads : Reads p (dictLiteral fuel expression) fun e => e.Worded p false := by
  have hitem : Reads p (dictItem expression) fun e => e.1.Worded p false ∧ e.2.Worded p false :=
    he.bind fun _ hkey => expect_reads.bind fun _ _ => he.bind fun _ hvalue => Keeps.pure ⟨hkey, hvalue⟩
  exact expect_reads.bind fun _ _ => (itemsUntil_reads hitem fuel (by simp)).bind fun _ hitems =>
    expect_reads.bind fun _ _ => Keeps.pure (wordedPairs_iff.2 hitems)

omit he in
theorem adjacentStrings_reads (n : Nat) : Reads p (adjacentStrings n) fun _ => True := by
  induction n with
  | zero => exact Keeps.pure trivial
  | succ n ih =>
    refine lexeme_reads.bind fun l _ => ?_
    split
    · exact next_reads.bind fun _ _ => ih.bind fun _ _ => Keeps.pure trivial
    · exact Keeps.pure trivial

theorem primary_reads {spaces : Bool} :
    Reads p (primary fuel expression spaces) fun e => e.Worded p false := by
  refine current_reads.bind fun t ht => ?_
  dsimp only
  split
  case h_1 s hs =>
    refine next_reads.bind fun _ _ => ?_
    split
    case h_7 =>
      refine isOp_reads.bind fun _ _ => Keeps.ite (fun _ => ?_) fun _ => Keeps.pure (ht s hs)
      exact next_reads.bind fun _ _ => expectName_reads.bind fun _ hattr => Keeps.pure ⟨ht s hs, hattr⟩
    all_goals exact Keeps.pure trivial
  case h_2 => exact next_reads.bind fun _ _ => (adjacentStrings_reads fuel).bind fun _ _ => Keeps.pure trivial
  case h_3 | h_4 => exact next_reads.bind fun _ _ => Keeps.pure trivial
  case h_5 =>
    exact next_reads.bind fun _ _ => (tuple_reads he).bind fun _ he => expect_reads.bind fun _ _ => Keeps.pure he
  case h_6 => exact listLiteral_reads he
  case h_7 => exact dictLiteral_reads he
  case h_8 => exact failAt_reads

theorem sliceBound_reads : Reads p (sliceBound expression) (wordedOption p) := by
  refine lexeme_reads.bind fun l _ => ?_
  split
  · exact Keeps.pure trivial
  · exact Keeps.pure trivial
  · exact he.bind fun _ he => Keeps.pure he

theorem subscript_reads : Reads p (subscript expression) fun e => e.Worded p true := by
  have hnone : Reads p (pure none : Parser (Option Expr)) (wordedOption p) := Keeps.pure trivial
  have hsome : Reads p (some <$> expression) (wordedOption p) := he.map fun _ he => he
  refine nodeLine_reads.bind fun line _ => isOp_reads.bind fun _ _ =>
    Keeps.either (fun _ => hnone) (fun _ => hsome) fun start hstart => isOp_reads.bind fun _ _ => ?_
  split
  · exact Keeps.pure (Expr.Worded.loosen hstart)
  · refine next_reads.bind fun _ _ => isOp_reads.bind fun _ _ =>
      Keeps.either (fun _ => hnone) (fun _ => sliceBound_reads he) fun _ hstop => skipIf_reads.bind fun _ _ => ?_
    exact Keeps.either (fun _ => sliceBound_reads he) (fun _ => hnone) fun _ hstep =>
      Keeps.pure ⟨rfl, hstart, hstop, hstep⟩

theorem subscripts_reads (n : Nat) (h : ∀ e ∈ items, e.Worded p true) :
    Reads p (subscripts expression n items) fun es => ∀ e ∈ es, e.Worded p true := by
  have hdone {items : List Expr} (h : ∀ e ∈ items, e.Worded p true) :
      Reads p (pure items.reverse) fun es => ∀ e ∈ es, e.Worded p true :=
    Keeps.pure fun e he => h e (List.mem_reverse.1 he)
  induction n generalizing items with
  | zero => exact hdone h
  | succ n ih =>
    refine isOp_reads.bind fun _ _ => Keeps.ite (fun _ => hdone h) fun _ => ?_
    refine Keeps.ite (fun _ => expect_reads.bind fun _ _ => ?_) fun _ => ?_
    all_goals exact (subscript_reads he).bind fun e he => ih (List.forall_mem_cons.2 ⟨he, h⟩)

theorem argument_reads {line : Nat} (ha : a.Worded p) : Reads p (argument expression line a) (Args.Worded p) := by
  have hensure {b : Bool} : Reads p (if b then pure () else failAt line .callSyntax) fun _ => True :=
    Keeps.ite (fun _ => Keeps.pure trivial) fun _ => failAt_reads
  refine lexeme_reads.bind fun l hl => ?_
  dsimp only
  split
  · exact hensure.bind fun _ _ => next_reads.bind fun _ _ => he.bind fun _ he => 
      Keeps.pure ⟨ha.args, ha.named, he, ha.restNamed⟩
  · exact hensure.bind fun _ _ => next_reads.bind fun _ _ => he.bind fun _ he =>
      Keeps.pure ⟨ha.args, ha.named, ha.rest, he⟩
  · simp only [pure_bind]
    have hpositional : Reads p (expression >>= fun e => pure { a with args := a.args ++ [e] }) (Args.Worded p) :=
      he.bind fun e he => Keeps.pure
        ⟨List.forall_mem_append.2 ⟨ha.args, List.forall_mem_singleton.2 he⟩, ha.named, ha.rest, ha.restNamed⟩
    split
    · next key _ _ =>
      refine look_reads.bind fun _ _ => Keeps.ite (fun _ => ?_) fun _ => hensure.bind fun _ _ => hpositional
      refine hensure.bind fun _ _ => next_reads.bind fun _ _ => next_reads.bind fun _ _ => he.bind fun e he => ?_
      exact Keeps.pure
        ⟨ha.args, List.forall_mem_append.2 ⟨ha.named, List.forall_mem_singleton.2 ⟨hl key rfl, he⟩⟩, ha.rest,
          ha.restNamed⟩
    · exact hensure.bind fun _ _ => hpositional

theorem arguments_reads {line : Nat} (n : Nat) (comma : Bool) (ha : a.Worded p) :
    Reads p (arguments expression line n comma a) (Args.Worded p) := by
  induction n generalizing comma a with
  | zero => exact Keeps.pure ha
  | succ n ih =>
    refine isOp_reads.bind fun _ _ => Keeps.ite (fun _ => Keeps.pure ha) fun _ => ?_
    refine Keeps.ite (fun _ => expect_reads.bind fun _ _ => ?_) fun _ => ?_
    all_goals
      exact isOp_reads.bind fun _ _ => Keeps.ite (fun _ => Keeps.pure ha) fun _ =>
        (argument_reads he ha).bind fun _ ha => ih true ha

theorem callArgs_reads : Reads p (callArgs fuel expression) (Args.Worded p) :=
  expect_reads.bind fun _ _ => (arguments_reads he fuel false noArgs_worded).bind fun _ ha =>
    expect_reads.bind fun _ _ => Keeps.pure ha

theorem call_reads (hcallee : e.Worded p false) :
    Reads p (call fuel expression e) fun e => e.Worded p false :=
  nodeLine_reads.bind fun _ _ => (callArgs_reads he).bind fun _ ha => Keeps.pure
    ⟨hcallee, wordedAll_iff.2 ha.args, wordedNamed_iff.2 ha.named, ha.rest, ha.restNamed⟩

theorem access_reads (howner : e.Worded p false) :
    Reads p (access fuel expression e) fun e => e.Worded p false := by
  refine next_reads.bind fun t _ => ?_
  dsimp only
  split
  · refine next_reads.bind fun u hu => ?_
    split
    · next s hs => exact Keeps.pure ⟨howner, hu s hs⟩
    · exact Keeps.pure ⟨howner, trivial⟩
    · exact failAt_reads
  · refine (subscripts_reads he fuel (by simp)).bind fun items hitems => expect_reads.bind fun _ _ => ?_
    split
    · exact Keeps.pure ⟨howner, hitems _ (by simp)⟩
    · exact Keeps.pure ⟨howner, wordedAll_iff.2 hitems⟩

theorem postfixes_reads (n : Nat) (h : e.Worded p false) :
    Reads p (postfixes fuel expression n e) fun e => e.Worded p false := by
  induction n generalizing e with
  | zero => exact Keeps.pure h
  | succ n ih =>
    refine lexeme_reads.bind fun l _ => ?_
    split
    · exact (access_reads he h).bind fun _ h => ih h
    · exact (access_reads he h).bind fun _ h => ih h
    · exact (call_reads he h).bind fun _ h => ih h
    · exact Keeps.pure h

omit he in
theorem dottedTail_reads (hdotted : ∀ s, p s → Dotted p s) (n : Nat) (h : Dotted p s) :
    Reads p (dottedTail n s) (Dotted p) := by
  induction n generalizing s with
  | zero => exact Keeps.pure h
  | succ n ih =>
    refine skipIf_reads.bind fun _ _ => Keeps.ite (fun _ => ?_) fun _ => Keeps.pure h
    exact expectName_reads.bind fun r hr => ih (h.append (hdotted _ hr))

theorem filterStep_reads (hdotted : ∀ s, p s → Dotted p s) (hinput : wordedOption p input) :
    Reads p (filterStep fuel expression input) fun e => e.Worded p false := by
  refine expectName_reads.bind fun r hr => (dottedTail_reads hdotted fuel (hdotted _ hr)).bind fun s hs => ?_
  refine isOp_reads.bind fun _ _ => Keeps.either (fun _ => callArgs_reads he) (fun _ => Keeps.pure noArgs_worded)
    fun a ha => Keeps.pure ?_
  exact ⟨hinput, hs, wordedAll_iff.2 ha.args, wordedNamed_iff.2 ha.named, ha.rest, ha.restNamed⟩

theorem filters_reads (hdotted : ∀ s, p s → Dotted p s) (n : Nat) (hinput : wordedOption p input) :
    Reads p (filters fuel expression n input) (wordedOption p) := by
  induction n generalizing input with
  | zero => exact Keeps.pure hinput
  | succ n ih =>
    refine skipIf_reads.bind fun _ _ => Keeps.ite (fun _ => ?_) fun _ => Keeps.pure hinput
    exact (filterStep_reads he hdotted hinput).bind fun e he => ih he

theorem testArgs_reads : Reads p (testArgs fuel expression) (Args.Worded p) := by
  refine lexeme_reads.bind fun l _ => ?_
  split
  · exact callArgs_reads he
  · refine Keeps.ite (fun _ => Keeps.ite (fun _ => fail_reads) fun _ => ?_) fun _ => Keeps.pure noArgs_worded
    refine (primary_reads he).bind fun e hprimary => (postfixes_reads he fuel hprimary).bind fun e he => Keeps.pure ?_
    exact ⟨List.forall_mem_singleton.2 he, by simp [noArgs], trivial, trivial⟩

theorem test_reads (hdotted : ∀ s, p s → Dotted p s) (hinput : e.Worded p false) :
    Reads p (test fuel expression e) fun e => e.Worded p false := by
  refine next_reads.bind fun t _ => skipIf_reads.bind fun negated _ => expectName_reads.bind fun r hr => ?_
  refine (dottedTail_reads hdotted fuel (hdotted _ hr)).bind fun s hs =>
    (testArgs_reads he).bind fun a ha => Keeps.pure ?_
  have htest : (Expr.test (some t.line : Line) e s a.args a.named a.rest a.restNamed).Worded p false :=
    ⟨hinput, hs, wordedAll_iff.2 ha.args, wordedNamed_iff.2 ha.named, ha.rest, ha.restNamed⟩
  cases negated <;> exact htest

theorem filtersAndTests_reads (hdotted : ∀ s, p s → Dotted p s) (n : Nat) (h : e.Worded p false) :
    Reads p (filtersAndTests fuel expression n e) fun e => e.Worded p false := by
  induction n generalizing e with
  | zero => exact Keeps.pure h
  | succ n ih =>
    refine lexeme_reads.bind fun l _ => ?_
    split
    · refine (filters_reads he hdotted fuel (show wordedOption p (some e) from h)).bind fun r hr => ih ?_
      cases r with
      | none => exact h
      | some f => exact hr
    · exact (test_reads he hdotted h).bind fun _ h => ih h
    · exact (call_reads he h).bind fun _ h => ih h
    · exact Keeps.pure h

omit he in
theorem signs_reads (n : Nat) : Reads p (signs n) fun _ => True := by
  induction n with
  | zero => exact Keeps.pure trivial
  | succ n ih =>
    refine nodeLine_reads.bind fun _ _ => lexeme_reads.bind fun l _ => ?_
    split
    · exact next_reads.bind fun _ _ => ih.bind fun _ _ => Keeps.pure trivial
    · exact next_reads.bind fun _ _ => ih.bind fun _ _ => Keeps.pure trivial
    · exact Keeps.pure trivial

theorem unary_reads (hdotted : ∀ s, p s → Dotted p s) :
    Reads p (unary fuel expression) fun e => e.Worded p false := by
  refine (signs_reads fuel).bind fun ops _ => (primary_reads he).bind fun e hprimary =>
    (postfixes_reads he fuel hprimary).bind fun e hpostfix => filtersAndTests_reads he hdotted fuel ?_
  induction ops with
  | nil => exact hpostfix
  | cons _ _ ih => exact ih

omit he in
theorem binary_reads {ops : Lexeme → Option BinaryOp} (ho : Reads p operand fun e => e.Worded p false) :
    Reads p (binary fuel ops operand) fun e => e.Worded p false := by
  have htail (n : Nat) (line : Line) {e : Expr} (h : e.Worded p false) :
      Reads p (binaryTail ops operand n line e) fun e => e.Worded p false := by
    induction n generalizing line e with
    | zero => exact Keeps.pure h
    | succ n ih =>
      refine lexeme_reads.bind fun l _ => ?_
      split
      · exact Keeps.pure h
      · exact next_reads.bind fun _ _ => ho.bind fun _ hright => nodeLine_reads.bind fun _ _ => ih _ ⟨h, hright⟩
  exact nodeLine_reads.bind fun _ _ => ho.bind fun _ h => htail fuel _ h

theorem concatenation_reads (hdotted : ∀ s, p s → Dotted p s) :
    Reads p (concatenation fuel expression) fun e => e.Worded p false := by
  have hproduct : Reads p (product fuel expression) fun e => e.Worded p false :=
    binary_reads (binary_reads (unary_reads he hdotted))
  refine nodeLine_reads.bind fun _ _ => hproduct.bind fun first hfirst =>
    (repeatWhile_reads skipIf_reads hproduct fuel).bind fun others hothers => Keeps.pure ?_
  split
  · exact hfirst
  · exact wordedAll_iff.2 (List.forall_mem_cons.2 ⟨hfirst, hothers⟩)

omit he in
theorem compareOp_reads : Reads p compareOp? fun _ => True := by
  refine lexeme_reads.bind fun l _ => ?_
  dsimp only
  split
  · exact next_reads.bind fun _ _ => Keeps.pure trivial
  · refine isName_reads.bind fun _ _ => Keeps.ite (fun _ => look_reads.bind fun _ _ => ?_) fun _ => Keeps.pure trivial
    exact Keeps.ite (fun _ => next_reads.bind fun _ _ => next_reads.bind fun _ _ => Keeps.pure trivial)
      fun _ => Keeps.pure trivial

omit he in
theorem comparisons_reads (ho : Reads p operand fun e => e.Worded p false) (n : Nat) :
    Reads p (comparisons operand n) fun es => ∀ e ∈ es, e.2.Worded p false := by
  induction n with
  | zero => exact Keeps.pure (by simp)
  | succ n ih =>
    refine compareOp_reads.bind fun o _ => ?_
    split
    · exact Keeps.pure (by simp)
    · exact ho.bind fun _ h => ih.bind fun _ hrest => Keeps.pure (List.forall_mem_cons.2 ⟨h, hrest⟩)

theorem comparison_reads (hdotted : ∀ s, p s → Dotted p s) :
    Reads p (comparison fuel expression) fun e => e.Worded p false := by
  have hsum : Reads p (sum fuel expression) fun e => e.Worded p false :=
    binary_reads (concatenation_reads he hdotted)
  refine hsum.bind fun first hfirst => (comparisons_reads hsum fuel).bind fun others hothers =>
    nodeLine_reads.bind fun _ _ => Keeps.pure ?_
  split
  · exact hfirst
  · exact ⟨hfirst, wordedOperands_iff.2 hothers⟩

theorem negation_reads (hdotted : ∀ s, p s → Dotted p s) :
    Reads p (negation fuel expression) fun e => e.Worded p false := by
  have hword : Reads p (do return some ((← next).line : Int) : Parser Line) fun _ => True :=
    next_reads.bind fun _ _ => Keeps.pure trivial
  refine (repeatWhile_reads isName_reads hword fuel).weaken.bind fun lines _ =>
    (comparison_reads he hdotted).bind fun e h => Keeps.pure ?_
  induction lines with
  | nil => exact h
  | cons _ _ ih => exact ih

theorem disjunction_reads (hdotted : ∀ s, p s → Dotted p s) :
    Reads p (disjunction fuel expression) fun e => e.Worded p false :=
  binary_reads (binary_reads (negation_reads he hdotted))

theorem conditions_reads (hdotted : ∀ s, p s → Dotted p s) (n : Nat) {line : Line} (h : e.Worded p false) :
    Reads p (conditions fuel expression n line e) fun e => e.Worded p false := by
  induction n generalizing line e with
  | zero => exact Keeps.pure h
  | succ n ih =>
    refine skipIf_reads.bind fun _ _ => Keeps.ite (fun _ => ?_) fun _ => Keeps.pure h
    refine (disjunction_reads he hdotted).bind fun test htest => skipIf_reads.bind fun _ _ => ?_
    refine Keeps.either (R := wordedOption p) (fun _ => he.map fun _ he => he) (fun _ => Keeps.pure trivial)
      fun otherwise hotherwise => nodeLine_reads.bind fun _ _ => ih ?_
    exact ⟨htest, h, hotherwise⟩

theorem conditional_reads (hdotted : ∀ s, p s → Dotted p s) :
    Reads p (conditional fuel expression) fun e => e.Worded p false :=
  nodeLine_reads.bind fun _ _ => (disjunction_reads he hdotted).bind fun _ h =>
    conditions_reads he hdotted fuel h

end Levels

section Whole

variable (hdotted : ∀ s, p s → Dotted p s)

include hdotted

theorem expression_reads (fuel : Nat) : Reads p (expression fuel) fun e => e.Worded p false := by
  induction fuel with
  | zero =>
    intro s a s' _ h
    cases h
  | succ fuel ih => exact conditional_reads ih hdotted

theorem plainExpression_reads (fuel : Nat) : Reads p (plainExpression fuel) fun e => e.Worded p false :=
  disjunction_reads (expression_reads hdotted fuel) hdotted

theorem expressions_reads (fuel : Nat) : Reads p (expressions fuel) fun e => e.Worded p false :=
  tuple_reads (expression_reads hdotted fuel)

end Whole

end Parser

end Stencil.Template
