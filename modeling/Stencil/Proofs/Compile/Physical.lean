import Stencil.Proofs.Compile.Grouped
import Stencil.Proofs.Dependency.Targets
import Stencil.Proofs.Flatten.Sourced

/-!
Statements and lines. Every line of a module is one line of its text, whatever the template holds, and the map of
lines counts these lines.
-/
namespace Stencil.Compile
open Template Code Text

variable {s t f o : String} {items args : List String} {block input : Option String}

/-! ### Texts -/

/-- Text in one line that does not begin with a blank. -/
structure Tidy (s : String) : Prop where
  unbroken : Unbroken s
  begins : s.toList.head?.any (· != ' ')

instance (s : String) : Decidable (Tidy s) :=
  decidable_of_iff (Unbroken s ∧ s.toList.head?.any (· != ' ')) ⟨fun h => ⟨h.1, h.2⟩, fun h => ⟨h.1, h.2⟩⟩

theorem Tidy.append (hs : Tidy s) (ht : Unbroken t) : Tidy (s ++ t) := by
  refine ⟨hs.unbroken.append ht, ?_⟩
  obtain ⟨c, hc, hblank⟩ := (Option.any_eq_true ..).1 hs.begins
  obtain ⟨cs, hcs⟩ := List.head?_eq_some_iff.1 hc
  rw [String.toList_append, hcs]
  simpa using hblank

theorem tidy_of_isIdentifier (h : isIdentifier s.toList) : Tidy s := by
  refine ⟨fun c hc => isLineBreak_of_continue (continue_of_mem_identifier h c hc), ?_⟩
  obtain ⟨c, cs, hcs⟩ := List.exists_cons_of_ne_nil (l := s.toList) (by rintro hs; simp [hs, isIdentifier] at h)
  have hc : isIdentifierContinue c := continue_of_mem_identifier h c (by simp [hcs])
  rw [hcs]
  simp only [List.head?_cons, Option.any_some, bne_iff_ne]
  rintro rfl
  revert hc
  decide

theorem tidy_identifier (h : isIdentifier s.toList) : Tidy (identifier s) := by
  unfold identifier
  split
  · exact (tidy_of_isIdentifier h).append (by decide)
  · exact tidy_of_isIdentifier h

theorem tidy_loadName (h : isIdentifier s.toList) : Tidy (loadName s) := by
  unfold loadName
  split
  · exact (by decide : Tidy "_jt_rt.").append (tidy_of_isIdentifier h).unbroken
  · exact tidy_identifier h

theorem tidy_blockFunction (h : isIdentifier s.toList) (n : Nat) : Tidy (blockFunction s n) :=
  tidy_of_isIdentifier (isIdentifier_blockFunction h n)

theorem unbroken_dotted (h : Dotted (isIdentifier ·.toList) s) : Unbroken s := by
  intro c hc
  obtain rfl | ⟨part, hpart, hc⟩ := h.mem hc
  · decide
  · exact isLineBreak_of_continue (continue_of_mem_identifier hpart c hc)

theorem unbroken_runtimeAttribute (h : Unbroken s) : Unbroken (runtimeAttribute s) := by
  unfold runtimeAttribute
  split
  · exact h.append (by decide)
  · exact h

theorem tidy_quotePoints (ps : Points) : Tidy (quotePoints ps) := by
  obtain ⟨⟨q, cs, hq, hs, -⟩, hbreaks⟩ := literal_quotePoints ps
  refine ⟨hbreaks, ?_⟩
  rw [hs, List.cons_append, List.head?_cons, Option.any_some, bne_iff_ne]
  rintro rfl
  revert hq
  decide

theorem tidy_quote (s : String) : Tidy (Text.quote s) := tidy_quotePoints _

theorem tidy_literal (value : Template.Const) : Tidy value.literal := by
  obtain ⟨as, hspell, hphrase⟩ := Atom.phrase_literal value
  refine ⟨fun c hc => ?_, ?_⟩
  · obtain ⟨a, ha, hc⟩ := List.mem_flatMap.1 (hspell ▸ hc)
    exact (hphrase.mild a ha).unbroken c hc
  · obtain ⟨c, cs, hc, hsolid⟩ := hphrase.begins
    rw [← hspell, hc]
    simpa using ne_blank_of_solid hsolid

/-! ### Parts put together -/

theorem unbroken_commaSeparated (h : ∀ t ∈ items, Unbroken t) : Unbroken (commaSeparated items) := .join h (by decide)

theorem tidy_callText (hf : Tidy f) (ha : ∀ t ∈ args, Tidy t) : Tidy (callText f args) :=
  ((hf.append (by decide)).append (unbroken_commaSeparated fun t ht => (ha t ht).unbroken)).append (by decide)

theorem tidy_tupleText (h : ∀ t ∈ items, Tidy t) : Tidy (tupleText items) := by
  unfold tupleText
  split
  · next item =>
    exact ((by decide : Tidy "(").append (h item (by simp)).unbroken).append (by decide)
  · exact ((by decide : Tidy "(").append (unbroken_commaSeparated fun t ht => (h t ht).unbroken)).append (by decide)

theorem tidy_argumentTexts {rest restNamed : Option String} {named : List (String × String)} (ha : ∀ t ∈ args, Tidy t)
    (hr : Given Tidy rest) (hn : ∀ n ∈ named, isIdentifier n.1.toList ∧ Tidy n.2) (hrn : Given Tidy restNamed) :
    ∀ t ∈ argumentTexts args rest named restNamed, Tidy t := by
  simp only [argumentTexts]
  intro t ht
  simp only [List.mem_append, List.mem_map, List.mem_filter, Option.mem_toList] at ht
  obtain (((ht | ht) | ⟨n, ⟨hmem, -⟩, rfl⟩) | ht) | ht := ht
  · exact ha t ht
  · obtain ⟨u, hu, rfl⟩ := Option.map_eq_some_iff.1 ht
    exact (by decide : Tidy "*").append (hr u hu).unbroken
  · exact ((tidy_of_isIdentifier (hn n hmem).1).append (by decide)).append (hn n hmem).2.unbroken
  · split at ht
    · cases ht
    · obtain rfl := List.mem_singleton.1 ht
      refine ((by decide : Tidy "**\x7b").append (unbroken_commaSeparated fun t ht => ?_)).append (by decide)
      obtain ⟨n, hmem, rfl⟩ := List.mem_map.1 ht
      exact ((tidy_quote n.1).unbroken.append (by decide)).append (hn n (List.mem_filter.1 hmem).1).2.unbroken
  · obtain ⟨u, hu, rfl⟩ := Option.map_eq_some_iff.1 ht
    exact (by decide : Tidy "**").append (hrn u hu).unbroken

theorem unbroken_getD (h : Given Tidy input) (ht : Unbroken t) : Unbroken (input.getD t) := by
  cases input with
  | none => exact ht
  | some u => exact (h u rfl).unbroken

/-- A slice begins with a colon if not with its start. -/
theorem tidy_sliceText {start stop step : Option String} (hstart : Given Tidy start) (hstop : Given Tidy stop)
    (hstep : Given Tidy step) : Tidy (sliceText start stop step) := by
  have hbounds : Tidy (start.getD "" ++ ":" ++ stop.getD "") := by
    refine Tidy.append ?_ (unbroken_getD hstop (by decide))
    cases start with
    | none => exact (by decide : Tidy ("" ++ ":"))
    | some u => exact (hstart u rfl).append (by decide)
  cases step with
  | none => exact hbounds
  | some u => exact (hbounds.append (by decide)).append (hstep u rfl).unbroken

theorem tidy_attributeText (ho : Tidy o) (hs : isIdentifier s.toList) : Tidy (attributeText o s) := by
  unfold attributeText
  split
  · exact ((((by decide : Tidy "getattr(").append ho.unbroken).append (by decide)).append (tidy_quote s).unbroken).append
      (by decide)
  · exact (ho.append (by decide)).append (tidy_of_isIdentifier hs).unbroken

theorem tidy_unaryText (op : UnaryOp) (h : Tidy s) : Tidy (unaryText op s) := by
  cases op
  case not => exact ((by decide : Tidy "(not ").append h.unbroken).append (by decide)
  case neg => exact ((by decide : Tidy "(-").append h.unbroken).append (by decide)
  case pos => exact ((by decide : Tidy "(+").append h.unbroken).append (by decide)

theorem unbroken_binaryOp (op : BinaryOp) : Unbroken op.text := by cases op <;> decide

theorem tidy_compareOp (op : CompareOp) : Tidy op.text := by cases op <;> decide

theorem tidy_superCall {line : Line} (hb : ∀ n ∈ block, IsIdentifier n) (h : superCall block line = .ok s) : Tidy s := by
  cases block with
  | none => cases h
  | some name =>
    cases h
    exact (tidy_blockFunction (hb name rfl) 1).append (by decide)

/-! ### Expressions -/

section Trees

mutual

/-- The text of an expression stands in one line. -/
theorem tidy_expr (hb : ∀ n ∈ block, IsIdentifier n) (input : Option String) (hi : Given Tidy input) (slices : Bool)
    (e : Expr) (hw : e.Worded IsIdentifier slices) (s : String) (h : expr block input e = .ok s) : Tidy s :=
  match e with
  | .name .. => by
    rw [expr] at h
    cases h
    exact tidy_loadName hw
  | .attrRef _ space attr => by
    rw [expr] at h
    cases h
    exact ((tidy_identifier hw.1).append (by decide)).append (tidy_of_isIdentifier hw.2).unbroken
  | .const _ value => by
    rw [expr] at h
    cases h
    exact tidy_literal value
  | .data _ text => by
    rw [expr] at h
    cases h
    exact tidy_quote text
  | .tuple _ items => by
    rw [expr] at h
    obtain ⟨ts, hts, h⟩ := bind_eq_ok.1 h
    cases h
    exact tidy_tupleText (tidy_exprs hb true items hw ts hts)
  | .list _ items => by
    rw [expr] at h
    obtain ⟨ts, hts, h⟩ := bind_eq_ok.1 h
    cases h
    have hitems := unbroken_commaSeparated fun t ht => (tidy_exprs hb false items hw ts hts t ht).unbroken
    exact ((by decide : Tidy "[").append hitems).append (by decide)
  | .dict _ items => by
    rw [expr] at h
    obtain ⟨ts, hts, h⟩ := bind_eq_ok.1 h
    cases h
    have hitems := unbroken_commaSeparated fun t ht => (tidy_pairs hb items hw ts hts t ht).unbroken
    exact ((by decide : Tidy "\x7b").append hitems).append (by decide)
  | .cond _ test body otherwise => by
    rw [expr] at h
    obtain ⟨o, ho, h⟩ := bind_eq_ok.1 h
    obtain ⟨b, hbody, h⟩ := bind_eq_ok.1 h
    obtain ⟨t, ht, h⟩ := bind_eq_ok.1 h
    cases h
    have hthen := tidy_expr hb none (by simp [Given]) false body hw.2.1 b hbody
    have htest := tidy_expr hb none (by simp [Given]) false test hw.1 t ht
    have hotherwise := unbroken_getD (t := "None") (tidy_option hb otherwise hw.2.2 o ho) (by decide)
    exact (((((by decide : Tidy "(").append hthen.unbroken).append (by decide)).append htest.unbroken).append (by decide)).append
      hotherwise |>.append (by decide)
  | .filter line operand name args named rest restNamed => by
    rw [expr] at h
    obtain ⟨o, ho, h⟩ := bind_eq_ok.1 h
    obtain ⟨as, has, h⟩ := bind_eq_ok.1 h
    obtain ⟨r, hr, h⟩ := bind_eq_ok.1 h
    obtain ⟨ns, hns, h⟩ := bind_eq_ok.1 h
    obtain ⟨rn, hrn, h⟩ := bind_eq_ok.1 h
    cases h
    obtain ⟨hwo, hwname, hwargs, hwnamed, hwrest, hwrestNamed⟩ := hw
    have hoperand := tidy_filterOperand hb input hi line name operand hwo o ho
    have hargs := tidy_argumentTexts (tidy_exprs hb false args hwargs as has) (tidy_option hb rest hwrest r hr)
      (tidy_named hb named hwnamed ns hns) (tidy_option hb restNamed hwrestNamed rn hrn)
    have hfunction := (by decide : Tidy "_jt_filters.").append (unbroken_runtimeAttribute (unbroken_dotted hwname))
    exact tidy_callText hfunction (List.forall_mem_cons.2 ⟨hoperand, hargs⟩)
  | .test _ operand name args named rest restNamed => by
    rw [expr] at h
    obtain ⟨o, ho, h⟩ := bind_eq_ok.1 h
    obtain ⟨as, has, h⟩ := bind_eq_ok.1 h
    obtain ⟨r, hr, h⟩ := bind_eq_ok.1 h
    obtain ⟨ns, hns, h⟩ := bind_eq_ok.1 h
    obtain ⟨rn, hrn, h⟩ := bind_eq_ok.1 h
    cases h
    obtain ⟨hwo, hwname, hwargs, hwnamed, hwrest, hwrestNamed⟩ := hw
    have hoperand := tidy_expr hb input hi false operand hwo o ho
    have hargs := tidy_argumentTexts (tidy_exprs hb false args hwargs as has) (tidy_option hb rest hwrest r hr)
      (tidy_named hb named hwnamed ns hns) (tidy_option hb restNamed hwrestNamed rn hrn)
    have hfunction := (by decide : Tidy "_jt_tests.").append
      (unbroken_runtimeAttribute (unbroken_dotted (testName_dotted hwname)))
    exact tidy_callText hfunction (List.forall_mem_cons.2 ⟨hoperand, hargs⟩)
  | .call line callee args named rest restNamed => by
    rw [expr] at h
    split at h
    · exact tidy_superCall hb h
    · obtain ⟨f, hf, h⟩ := bind_eq_ok.1 h
      obtain ⟨as, has, h⟩ := bind_eq_ok.1 h
      obtain ⟨r, hr, h⟩ := bind_eq_ok.1 h
      obtain ⟨ns, hns, h⟩ := bind_eq_ok.1 h
      obtain ⟨rn, hrn, h⟩ := bind_eq_ok.1 h
      cases h
      obtain ⟨hwf, hwargs, hwnamed, hwrest, hwrestNamed⟩ := hw
      exact tidy_callText (tidy_expr hb none (by simp [Given]) false callee hwf f hf)
        (tidy_argumentTexts (tidy_exprs hb false args hwargs as has) (tidy_option hb rest hwrest r hr)
          (tidy_named hb named hwnamed ns hns) (tidy_option hb restNamed hwrestNamed rn hrn))
  | .item _ owner index => by
    rw [expr] at h
    obtain ⟨o, ho, h⟩ := bind_eq_ok.1 h
    obtain ⟨i, hindex, h⟩ := bind_eq_ok.1 h
    cases h
    have howner := tidy_expr hb none (by simp [Given]) false owner hw.1 o ho
    have hinside := tidy_expr hb none (by simp [Given]) true index hw.2 i hindex
    exact ((howner.append (by decide)).append hinside.unbroken).append (by decide)
  | .attr _ owner attr => by
    rw [expr] at h
    split at h
    · cases h
      exact tidy_blockFunction hw.2 0
    · obtain ⟨o, ho, h⟩ := bind_eq_ok.1 h
      cases h
      exact tidy_attributeText (tidy_expr hb none (by simp [Given]) false owner hw.1 o ho) hw.2
  | .slice _ start stop stride => by
    rw [expr] at h
    obtain ⟨a, ha, h⟩ := bind_eq_ok.1 h
    obtain ⟨b, hb', h⟩ := bind_eq_ok.1 h
    obtain ⟨c, hc, h⟩ := bind_eq_ok.1 h
    cases h
    exact tidy_sliceText (tidy_option hb start hw.2.1 a ha) (tidy_option hb stop hw.2.2.1 b hb')
      (tidy_option hb stride hw.2.2.2 c hc)
  | .concat _ items => by
    rw [expr] at h
    obtain ⟨ts, hts, h⟩ := bind_eq_ok.1 h
    cases h
    exact tidy_callText (by decide) (tidy_exprs hb false items hw ts hts)
  | .compare _ first others => by
    rw [expr] at h
    obtain ⟨f, hf, h⟩ := bind_eq_ok.1 h
    obtain ⟨ts, hts, h⟩ := bind_eq_ok.1 h
    cases h
    have hfirst := tidy_expr hb none (by simp [Given]) false first hw.1 f hf
    have hothers := tidy_comparisons hb others hw.2 ts hts
    have hjoined : Unbroken (" ".intercalate (f :: ts)) :=
      .join (List.forall_mem_cons.2 ⟨hfirst.unbroken, fun t ht => (hothers t ht).unbroken⟩) (by decide)
    exact ((by decide : Tidy "(").append hjoined).append (by decide)
  | .binary _ op left right => by
    rw [expr] at h
    obtain ⟨l, hl, h⟩ := bind_eq_ok.1 h
    obtain ⟨r, hr, h⟩ := bind_eq_ok.1 h
    cases h
    have hleft := tidy_expr hb none (by simp [Given]) false left hw.1 l hl
    have hright := tidy_expr hb none (by simp [Given]) false right hw.2 r hr
    exact (((((by decide : Tidy "(").append hleft.unbroken).append (by decide)).append (unbroken_binaryOp op)).append
      (by decide)).append hright.unbroken |>.append (by decide)
  | .unary _ op operand => by
    rw [expr] at h
    obtain ⟨o, ho, h⟩ := bind_eq_ok.1 h
    cases h
    exact tidy_unaryText op (tidy_expr hb none (by simp [Given]) false operand hw o ho)
  | .safe _ value => by
    rw [expr] at h
    exact tidy_expr hb none (by simp [Given]) false value hw s h
  | .context _ => by
    rw [expr] at h
    cases h
    decide
  | .other .. => by
    rw [expr] at h
    cases h
termination_by structural e

theorem tidy_filterOperand (hb : ∀ n ∈ block, IsIdentifier n) (input : Option String) (hi : Given Tidy input)
    (line : Line) (name : String) (e : Option Expr) (hw : wordedOption IsIdentifier e) (s : String)
    (h : filterOperand block input line name e = .ok s) : Tidy s :=
  match e with
  | some e => tidy_expr hb input hi false e hw s h
  | none => by
    cases input with
    | none => cases h
    | some t =>
      cases h
      exact hi _ rfl
termination_by structural e

theorem tidy_exprs (hb : ∀ n ∈ block, IsIdentifier n) (slices : Bool) (es : List Expr)
    (hw : wordedAll IsIdentifier slices es) (ts : List String) (h : exprs block es = .ok ts) : ∀ t ∈ ts, Tidy t :=
  match es with
  | [] => by
    cases h
    simp
  | e :: es => by
    rw [exprs] at h
    obtain ⟨t, ht, h⟩ := bind_eq_ok.1 h
    obtain ⟨us, hus, h⟩ := bind_eq_ok.1 h
    cases h
    exact List.forall_mem_cons.2 ⟨tidy_expr hb none (by simp [Given]) slices e hw.1 t ht, tidy_exprs hb slices es hw.2 us hus⟩
termination_by structural es

theorem tidy_option (hb : ∀ n ∈ block, IsIdentifier n) (e : Option Expr) (hw : wordedOption IsIdentifier e)
    (t : Option String) (h : option block e = .ok t) : Given Tidy t :=
  match e with
  | none => by
    cases h
    simp [Given]
  | some e => by
    rw [option] at h
    obtain ⟨u, hu, h⟩ := bind_eq_ok.1 h
    cases h
    simpa [Given] using tidy_expr hb none (by simp [Given]) false e hw u hu
termination_by structural e

theorem tidy_pairs (hb : ∀ n ∈ block, IsIdentifier n) (es : List (Expr × Expr)) (hw : wordedPairs IsIdentifier es)
    (ts : List String) (h : pairs block es = .ok ts) : ∀ t ∈ ts, Tidy t :=
  match es with
  | [] => by
    cases h
    simp
  | (key, value) :: es => by
    rw [pairs] at h
    obtain ⟨k, hk, h⟩ := bind_eq_ok.1 h
    obtain ⟨v, hv, h⟩ := bind_eq_ok.1 h
    obtain ⟨us, hus, h⟩ := bind_eq_ok.1 h
    cases h
    refine List.forall_mem_cons.2 ⟨?_, tidy_pairs hb es hw.2.2 us hus⟩
    exact ((tidy_expr hb none (by simp [Given]) false key hw.1 k hk).append (by decide)).append
      (tidy_expr hb none (by simp [Given]) false value hw.2.1 v hv).unbroken
termination_by structural es

theorem tidy_named (hb : ∀ n ∈ block, IsIdentifier n) (es : List (String × Expr)) (hw : wordedNamed IsIdentifier es)
    (ts : List (String × String)) (h : namedArguments block es = .ok ts) :
    ∀ t ∈ ts, isIdentifier t.1.toList ∧ Tidy t.2 :=
  match es with
  | [] => by
    cases h
    simp
  | (name, e) :: es => by
    rw [namedArguments] at h
    obtain ⟨t, ht, h⟩ := bind_eq_ok.1 h
    obtain ⟨us, hus, h⟩ := bind_eq_ok.1 h
    cases h
    exact List.forall_mem_cons.2 ⟨⟨hw.1, tidy_expr hb none (by simp [Given]) false e hw.2.1 t ht⟩,
      tidy_named hb es hw.2.2 us hus⟩
termination_by structural es

theorem tidy_comparisons (hb : ∀ n ∈ block, IsIdentifier n) (es : List (CompareOp × Expr))
    (hw : wordedOperands IsIdentifier es) (ts : List String) (h : comparisons block es = .ok ts) : ∀ t ∈ ts, Tidy t :=
  match es with
  | [] => by
    cases h
    simp
  | (op, e) :: es => by
    rw [comparisons] at h
    obtain ⟨t, ht, h⟩ := bind_eq_ok.1 h
    obtain ⟨us, hus, h⟩ := bind_eq_ok.1 h
    cases h
    exact List.forall_mem_cons.2 ⟨tidy_compareOp op, List.forall_mem_cons.2
      ⟨tidy_expr hb none (by simp [Given]) false e hw.1 t ht, tidy_comparisons hb es hw.2 us hus⟩⟩
termination_by structural es

end

/-! ### Targets -/

/-- Holds of the tuple of nothing, for which there is no text as a target. -/
def isEmptyTuple : Expr → Bool
  | .tuple _ [] => true
  | _ => false

theorem tidy_marked (hs : s = "" ∨ Tidy s) (ht : Tidy t) : Tidy (s ++ t) := by
  obtain rfl | hs := hs
  · simpa using ht
  · exact hs.append ht.unbroken

theorem unbroken_of_target (h : s = "" ∨ Tidy s) : Unbroken s := by
  obtain rfl | h := h
  · decide
  · exact h.unbroken

/-- Only for the empty tuple the names of a tuple give no text. -/
theorem tidy_names (h : ∀ t ∈ items, t = "" ∨ Tidy t) (hne : items ≠ []) (hone : ∀ t, items ≠ [t]) :
    Tidy (commaSeparated items) := by
  obtain ⟨first, rest, rfl⟩ := List.exists_cons_of_ne_nil hne
  have hmore : rest ≠ [] := fun hrest => hone first (by rw [hrest])
  obtain ⟨second, rest, rfl⟩ := List.exists_cons_of_ne_nil hmore
  obtain ⟨hfirst, hothers⟩ := List.forall_mem_cons.1 h
  have hrest : Unbroken (commaSeparated (second :: rest)) :=
    unbroken_commaSeparated fun t ht => unbroken_of_target (hothers t ht)
  rw [commaSeparated, String.intercalate_cons_cons]
  exact (tidy_marked hfirst (by decide)).append hrest

mutual

/-- The text of a target stands in one line. The empty tuple alone has none. -/
theorem tidy_target (slices : Bool) (e : Expr) (hw : e.Worded IsIdentifier slices) (s : String) (h : target e = .ok s) :
    s = "" ∧ isEmptyTuple e ∨ Tidy s :=
  match e with
  | .name .. => by
    cases h
    exact .inr (tidy_identifier hw)
  | .attrRef .. => by
    cases h
    exact .inr (((tidy_identifier hw.1).append (by decide)).append (tidy_of_isIdentifier hw.2).unbroken)
  | .tuple _ items => by
    rw [target] at h
    obtain ⟨ts, hts, h⟩ := bind_eq_ok.1 h
    obtain ⟨hlength, hall⟩ := tidy_targets true items hw ts hts
    split at h
    · cases h
      exact .inr (tidy_marked (hall _ (by simp)) (by decide))
    · next hone =>
      cases h
      by_cases hne : ts = []
      · obtain rfl := List.length_eq_zero_iff.1 (hlength ▸ List.length_eq_zero_iff.2 hne)
        exact .inl ⟨hne ▸ rfl, rfl⟩
      · exact .inr (tidy_names hall hne hone)
  | .const .. | .data .. | .list .. | .dict .. | .cond .. | .filter .. | .test .. | .call .. | .item ..
  | .attr .. | .slice .. | .concat .. | .compare .. | .binary .. | .unary .. | .safe .. | .context ..
  | .other .. => by cases h
termination_by structural e

theorem tidy_targets (slices : Bool) (es : List Expr) (hw : wordedAll IsIdentifier slices es) (ts : List String)
    (h : targets es = .ok ts) : ts.length = es.length ∧ ∀ t ∈ ts, t = "" ∨ Tidy t :=
  match es with
  | [] => by
    cases h
    simp
  | e :: es => by
    rw [targets] at h
    obtain ⟨t, ht, h⟩ := bind_eq_ok.1 h
    obtain ⟨us, hus, h⟩ := bind_eq_ok.1 h
    cases h
    obtain ⟨hlength, hall⟩ := tidy_targets slices es hw.2 us hus
    exact ⟨congrArg (· + 1) hlength,
      List.forall_mem_cons.2 ⟨(tidy_target slices e hw.1 t ht).imp_left And.left, hall⟩⟩
termination_by structural es

end

end Trees

/-! ### Assignments -/

end Stencil.Compile

namespace Stencil.Template
open Compile

mutual

/-- No assignment has the empty tuple as its target. -/
def Stmt.Filled : Stmt → Prop
  | .for_ _ _ _ body otherwise _ _ => filledBody body ∧ filledBody otherwise
  | .if_ _ _ body branches otherwise => filledBody body ∧ filledBranches branches ∧ filledBody otherwise
  | .with_ _ targets _ body => (∀ e ∈ targets, isEmptyTuple e = false) ∧ filledBody body
  | .assign _ target _ => isEmptyTuple target = false
  | .assignBlock _ target _ body => isEmptyTuple target = false ∧ filledBody body
  | .macro_ _ _ _ _ body | .callBlock _ _ _ _ body | .filterBlock _ body _ | .block _ _ body _ _ | .scope _ body
  | .scopedOptions _ _ body => filledBody body
  | .output .. | .extends_ .. | .include_ .. | .import_ .. | .fromImport .. | .exprStmt .. | .options ..
  | .continue_ _ | .break_ _ | .other .. => True
termination_by structural s => s

def filledBody : List Stmt → Prop
  | [] => True
  | s :: ss => s.Filled ∧ filledBody ss
termination_by structural ss => ss

def filledBranches : List Branch → Prop
  | [] => True
  | b :: bs => b.Filled ∧ filledBranches bs
termination_by structural bs => bs

def Branch.Filled : Branch → Prop
  | .mk _ _ body => filledBody body
termination_by structural b => b

end

end Stencil.Template

namespace Stencil.Compile
open Template Code Text

/-! ### Lines -/

variable {s t text : String} {block : Option String} {u : Setting} {scope : Scope} {line : Line} {ls body : Lines}
  {l : CodeLine Location} {filled : Prop} {P : Builder → Prop}

/-- A line of code that starts at its indentation. A blank in front of it is what is left of an assignment to the empty
tuple. -/
structure IsRow (filled : Prop) (l : CodeLine Location) : Prop where
  indent : 0 ≤ l.indent
  unbroken : Unbroken l.code
  nonempty : l.code ≠ ""
  begins : l.code.toList.head?.any (· != ' ') ∨ ¬ filled ∧ ∃ value, l.code = " = " ++ value

theorem Tidy.isRow (h : Tidy l.code) (hindent : 0 ≤ l.indent) : IsRow filled l := by
  refine ⟨hindent, h.unbroken, fun hempty => ?_, .inl h.begins⟩
  have hbegins := h.begins
  rw [hempty] at hbegins
  simp at hbegins

/-- The functions of the blocks are made of rows. -/
def Rowed (filled : Prop) (b : Builder) : Prop := ∀ d ∈ b.blocks, ∀ l ∈ d.2, IsRow filled l

/-- Lines go no further out than the function does, and names are those of templates or made up. -/
structure Scope.Sound (scope : Scope) : Prop where
  indent : 0 ≤ scope.indent
  buffer : Tidy scope.buffer
  block : ∀ n ∈ scope.block, IsIdentifier n

namespace Scope.Sound

theorem top : Scope.top.Sound := ⟨Int.le_refl 0, by decide, by simp [Scope.top]⟩

theorem nested (h : scope.Sound) : scope.nested.Sound := ⟨Int.le_add_one h.indent, h.buffer, h.block⟩

theorem function (h : scope.Sound) : scope.function.Sound :=
  ⟨Int.le_add_one h.indent, (by decide : Tidy outputBuffer), h.block⟩

theorem ofBlock {name : String} (h : IsIdentifier name) : (Scope.ofBlock name).Sound :=
  ⟨Int.one_nonneg, (by decide : Tidy outputBuffer), by simpa [Scope.ofBlock] using h⟩

theorem withBuffer (h : scope.Sound) {buffer : String} (hbuffer : Tidy buffer) : (scope.withBuffer buffer).Sound :=
  ⟨h.indent, hbuffer, h.block⟩

theorem emit (h : scope.Sound) (ht : Tidy text) : IsRow filled (emit u scope text line) := Tidy.isRow ht h.indent

theorem appended (h : scope.Sound) (ht : Tidy text) : IsRow filled (Compile.emit u scope (append scope.buffer text) line) :=
  h.emit (((h.buffer.append (by decide)).append ht.unbroken).append (by decide))

theorem suite (h : scope.Sound) (hls : ∀ l ∈ ls, IsRow filled l) : ∀ l ∈ suiteOf u scope ls line, IsRow filled l := by
  unfold suiteOf
  split
  · exact List.forall_mem_singleton.2 (h.emit (by decide))
  · exact hls

/-- An assignment without a target begins with a blank. -/
theorem assignment (h : scope.Sound) {value : String} (ht : text = "" ∧ ¬ filled ∨ Tidy text) (hv : Tidy value) :
    IsRow filled (Compile.emit u scope (text ++ " = " ++ value) line) := by
  obtain ⟨rfl, hfilled⟩ | ht := ht
  · have htext : "" ++ " = " ++ value = " = " ++ value := by rw [String.empty_append]
    refine ⟨h.indent, ?_, ?_, .inr ⟨hfilled, value, htext⟩⟩
    · exact ((by decide : Unbroken ("" ++ " = "))).append hv.unbroken
    · simp [Compile.emit, lineAt]
  · exact h.emit ((ht.append (by decide)).append hv.unbroken)

end Scope.Sound

/-! ### Statements -/

variable {n : Nat}

theorem tidy_bufferName (n : Nat) : Tidy (bufferName n) := tidy_of_isIdentifier (isMade_bufferName n).identifier

theorem tidy_joined {buffer : String} (h : Tidy buffer) : Tidy (joined buffer) :=
  ((by decide : Tidy "\"\".join(").append h.unbroken).append (by decide)

theorem tidy_shown (h : Tidy text) : Tidy (shown text) := ((by decide : Tidy "str(").append h.unbroken).append (by decide)

theorem tidy_importText (h : Tidy text) : Tidy (importText text) :=
  ((by decide : Tidy "_jt_rt.import_template(").append h.unbroken).append (by decide)

theorem unbroken_parameters {allowCaller : Bool} {params defaults used : List String} (hp : ∀ s ∈ params, IsIdentifier s)
    (hd : ∀ t ∈ defaults, Tidy t) : Unbroken (parameters allowCaller params defaults used) := by
  have hfixed : ∀ t ∈ ["*varargs: typing.Any", "*", "caller: _jt_rt.Caller = _jt_rt.no_caller", "**kwargs: typing.Any"],
      Unbroken t := by decide
  refine unbroken_commaSeparated fun t ht => ?_
  simp only [List.mem_append, List.mem_map] at ht
  obtain ((⟨p, hp', rfl⟩ | ht) | ht) | ht := ht
  · refine (((unbroken_declaration (tidy_of_isIdentifier (hp _ (List.of_mem_zip hp').1)).unbroken (by decide)).append
      (by decide)).append (unbroken_getD (t := "None") (fun t ht => ?_) (by decide)))
    have hmem := (List.of_mem_zip hp').2
    rw [Option.mem_def.1 ht] at hmem
    simp only [List.mem_append, List.mem_replicate, List.mem_map, reduceCtorEq, and_false, false_or,
      Option.some.injEq, exists_eq_right] at hmem
    exact hd t hmem
  · refine hfixed t ?_
    split at ht
    · simp [List.mem_singleton.1 ht]
    · split at ht
      · simp [List.mem_singleton.1 ht]
      · cases ht
  · refine hfixed t ?_
    split at ht
    · simp [List.mem_singleton.1 ht]
    · cases ht
  · refine hfixed t ?_
    split at ht
    · simp [List.mem_singleton.1 ht]
    · cases ht

theorem tidy_functionHeader {name params : String} (hp : Unbroken params) (hname : Unbroken name) :
    Tidy (functionHeader name params) :=
  ((((by decide : Tidy "def ").append hname).append (by decide)).append hp).append (by decide)

theorem rows_functionOf {indent : Int} {header : String} (hindent : 0 ≤ indent) (hheader : Tidy header)
    (hbody : ∀ l ∈ body, IsRow filled l) : ∀ l ∈ functionOf u indent header line body, IsRow filled l := by
  have hscaffold (code : String) (h : Tidy code) : IsRow filled (scaffold (indent + 1) code : CodeLine Location) :=
    Tidy.isRow h (Int.le_add_one hindent)
  refine List.forall_mem_append.2 ⟨List.forall_mem_cons.2 ⟨Tidy.isRow hheader hindent,
    List.forall_mem_cons.2 ⟨hscaffold _ (by decide), hbody⟩⟩, List.forall_mem_singleton.2 (hscaffold _ (by decide))⟩

theorem tidy_compiled (h : scope.Sound) {e : Expr} (hw : e.Worded IsIdentifier false) : Keeps P (compiled scope e) Tidy :=
  Keeps.ofResult fun s hs => tidy_expr h.block none (by simp [Given]) false e hw s hs

theorem target_assigned {slices : Bool} {e : Expr} (hw : e.Worded IsIdentifier slices)
    (hfilled : filled → isEmptyTuple e = false) : Keeps P (assigned e) fun t => t = "" ∧ ¬ filled ∨ Tidy t := by
  refine Keeps.ofResult fun s hs => (tidy_target slices e hw s hs).imp_left fun ⟨hempty, htuple⟩ => ⟨hempty, fun h => ?_⟩
  rw [hfilled h] at htuple
  cases htuple

theorem tidy_loopTarget {slices : Bool} {e : Expr} (hw : e.Worded IsIdentifier slices) : Keeps P (loopTarget e) Tidy := by
  refine (Keeps.ofResult fun s hs => tidy_target slices e hw s hs).bind fun s hs => ?_
  cases e
  case tuple =>
    have hnames : Unbroken s := unbroken_of_target (hs.imp_left And.left)
    exact Keeps.pure (((by decide : Tidy "(").append hnames).append (by decide))
  all_goals exact Keeps.pure (hs.resolve_left fun h => by simp [isEmptyTuple] at h)

theorem tidy_captured (h : scope.Sound) {buffer : String} (hbuffer : Tidy buffer) {filter : Option Expr}
    (hw : wordedOption IsIdentifier filter) : Keeps P (captured scope buffer filter) Tidy := by
  cases filter with
  | none => exact Keeps.pure (tidy_joined hbuffer)
  | some e =>
    exact Keeps.ofResult fun s hs =>
      tidy_expr h.block (some (joined buffer)) (by simpa [Given] using tidy_joined hbuffer) false e hw s hs

theorem tidy_defaults {defaults : List Expr} (hw : wordedAll IsIdentifier false defaults) :
    Keeps P (ofResult (defaultTexts defaults)) fun ts => ∀ t ∈ ts, Tidy t := by
  refine Keeps.ofResult fun ts hts => ?_
  induction defaults generalizing ts with
  | nil =>
    cases hts
    simp
  | cons e es ih =>
    rw [defaultTexts] at hts
    obtain ⟨t, ht, hts⟩ := bind_eq_ok.1 hts
    obtain ⟨us, hus, hts⟩ := bind_eq_ok.1 hts
    cases hts
    exact List.forall_mem_cons.2 ⟨tidy_expr (by simp) none (by simp [Given]) false e hw.1 t ht, ih hw.2 us hus⟩

theorem tidy_callWith (hb : ∀ n ∈ block, IsIdentifier n) {extra : List String} (hextra : ∀ t ∈ extra, Tidy t) {slices : Bool}
    {e : Expr} (hw : e.Worded IsIdentifier slices) (h : callWith block extra e = .ok s) : Tidy s := by
  cases e with
  | call line callee args named rest restNamed =>
    rw [callWith] at h
    split at h
    · exact tidy_superCall hb h
    · obtain ⟨f, hf, h⟩ := bind_eq_ok.1 h
      obtain ⟨as, has, h⟩ := bind_eq_ok.1 h
      obtain ⟨r, hr, h⟩ := bind_eq_ok.1 h
      obtain ⟨ns, hns, h⟩ := bind_eq_ok.1 h
      obtain ⟨rn, hrn, h⟩ := bind_eq_ok.1 h
      cases h
      obtain ⟨hwf, hwargs, hwnamed, hwrest, hwrestNamed⟩ := hw
      have hargs := tidy_argumentTexts (tidy_exprs hb false args hwargs as has) (tidy_option hb rest hwrest r hr)
        (tidy_named hb named hwnamed ns hns) (tidy_option hb restNamed hwrestNamed rn hrn)
      exact tidy_callText (tidy_expr hb none (by simp [Given]) false callee hwf f hf)
        (List.forall_mem_append.2 ⟨hargs, hextra⟩)
  | _ => cases h

theorem rows_outputLines (h : scope.Sound) {nodes : List Expr} (hw : wordedAll IsIdentifier false nodes) :
    Keeps P (outputLines u scope nodes) fun ls => ∀ l ∈ ls, IsRow filled l := by
  induction nodes with
  | nil => exact Keeps.pure (by simp)
  | cons e es ih =>
    have hvalue : Keeps P (compiled scope e >>= fun value =>
        pure [emit u scope (append scope.buffer (shown value)) e.line]) fun ls => ∀ l ∈ ls, IsRow filled l :=
      (tidy_compiled h hw.1).bind fun _ ht => Keeps.pure (List.forall_mem_singleton.2 (h.appended (tidy_shown ht)))
    have hline : Keeps P (outputLine u scope e) fun ls => ∀ l ∈ ls, IsRow filled l := by
      cases e
      case data line text =>
        exact Keeps.ite (fun _ => Keeps.pure (by simp)) fun _ =>
          Keeps.pure (List.forall_mem_singleton.2 (h.appended (tidy_quote text)))
      all_goals exact hvalue
    exact hline.bind fun _ hls => (ih hw.2).bind fun _ hms => Keeps.pure (List.forall_mem_append.2 ⟨hls, hms⟩)

theorem rows_loopTest (h : scope.Sound) {test : Option Expr} (hw : wordedOption IsIdentifier test) :
    Keeps P (loopTest u scope line test) fun ls => ∀ l ∈ ls, IsRow filled l := by
  cases test with
  | none => exact Keeps.pure (by simp)
  | some e =>
    refine (tidy_compiled h hw).bind fun t ht => Keeps.pure (List.forall_mem_cons.2 ⟨?_, List.forall_mem_singleton.2 ?_⟩)
    · exact h.emit (((by decide : Tidy "if not ").append ht.unbroken).append (by decide))
    · exact Tidy.isRow (by decide : Tidy "continue") (Int.le_add_one h.indent)

theorem rows_assignments (h : scope.Sound) {slices : Bool} {pairs : List (Expr × Expr)}
    (hw : ∀ e ∈ pairs, e.1.Worded IsIdentifier slices ∧ e.2.Worded IsIdentifier false)
    (hfilled : filled → ∀ e ∈ pairs, isEmptyTuple e.1 = false) :
    Keeps P (assignments u scope line pairs) fun ls => ∀ l ∈ ls, IsRow filled l := by
  induction pairs with
  | nil => exact Keeps.pure (by simp)
  | cons pair pairs ih =>
    obtain ⟨⟨htarget, hvalue⟩, hpairs⟩ := List.forall_mem_cons.1 hw
    refine (target_assigned htarget fun hf => hfilled hf _ List.mem_cons_self).bind fun _ ht =>
      (tidy_compiled h hvalue).bind fun _ hv => (ih hpairs fun hf e he => hfilled hf e (List.mem_cons_of_mem _ he)).bind
      fun _ hls => Keeps.pure (List.forall_mem_cons.2 ⟨h.assignment ht hv, hls⟩)

theorem rowed_extendsLine (h : scope.Sound) (template : Expr) :
    Keeps (Rowed filled) (extendsLine u scope template line) fun ls => ∀ l ∈ ls, IsRow filled l := by
  refine Keeps.ite (fun _ => Keeps.stops) fun _ => Keeps.get.bind fun b _ => Keeps.ite (fun _ => Keeps.stops) fun _ => ?_
  cases template.templateNames? with
  | none => exact Keeps.stopAt
  | some names =>
    refine (keeps_resolve (S := fun _ => True) fun _ _ _ _ => trivial).bind fun found _ => ?_
    cases found with
    | none => exact Keeps.stopAt
    | some parent =>
      have hcode : Tidy ("_jt_rt.extends(" ++ Text.quote parent.text ++ ")") :=
        ((by decide : Tidy "_jt_rt.extends(").append (tidy_quote _).unbroken).append (by decide)
      refine (Keeps.modify fun b hb => ?_).bind fun _ _ => Keeps.pure ?_
      · exact hb
      · exact List.forall_mem_singleton.2 (h.emit hcode)

theorem rowed_includeLine (h : scope.Sound) {template : Expr} (ignoreMissing : Bool)
    (hw : template.Worded IsIdentifier false) :
    Keeps (Rowed filled) (includeLine u scope template ignoreMissing line) fun ls => ∀ l ∈ ls, IsRow filled l := by
  unfold includeLine
  cases template.templateNames? with
  | none =>
    refine (tidy_compiled h hw).bind fun target ht => Keeps.pure (List.forall_mem_singleton.2 (h.appended ?_))
    exact ((by decide : Tidy "_jt_rt.include_dynamic(").append ht.unbroken).append (by decide)
  | some names =>
    refine (keeps_resolve (S := fun _ => True) fun _ _ _ _ => trivial).bind fun found _ => ?_
    cases found with
    | none => exact Keeps.pure (by simp)
    | some included =>
      have hcode : Tidy ("_jt_rt.include(" ++ Text.quote included.text ++ ")") :=
        ((by decide : Tidy "_jt_rt.include(").append (tidy_quote _).unbroken).append (by decide)
      refine (Keeps.modify fun b hb => ?_).bind fun _ _ => Keeps.pure ?_
      · exact hb
      · exact List.forall_mem_singleton.2 (h.appended hcode)

theorem rows_importLines (h : scope.Sound) {names : List (String × String)} (ht : Tidy text)
    (hw : ∀ m ∈ names, IsIdentifier m.1 ∧ IsIdentifier m.2) :
    ∀ l ∈ importLines u scope text line names, IsRow filled l := by
  refine List.forall_mem_map.2 fun m hm => ?_
  obtain ⟨hname, htarget⟩ := hw m hm
  exact h.emit (((((tidy_identifier htarget).append (by decide)).append (tidy_importText ht).unbroken).append
    (by decide)).append (tidy_of_isIdentifier hname).unbroken)

theorem rowed_freshNumber : Keeps (Rowed filled) freshNumber fun _ => True := by
  refine Keeps.get.bind fun b hb => Keeps.bind (Keeps.set ?_) fun _ _ => Keeps.pure trivial
  exact hb

theorem rowed_openBlock {name : String} : Keeps (Rowed filled) (openBlock name line) fun _ => True := by
  refine Keeps.get.bind fun b hb => Keeps.ite (fun _ => Keeps.stops) fun _ => Keeps.set ?_
  exact List.forall_mem_append.2 ⟨hb, by simp⟩

theorem rowed_closeBlock {name : String} (h : ∀ l ∈ body, IsRow filled l) :
    Keeps (Rowed filled) (closeBlock name body) fun _ => True := by
  refine Keeps.modify fun b hb d hd => ?_
  obtain ⟨e, he, rfl⟩ := List.mem_map.1 hd
  split
  · exact h
  · exact hb e he

mutual

/-- Each line of a statement is a row. -/
theorem rowed_statement (u : Setting) (scope : Scope) (h : scope.Sound) (s : Stmt) (hw : s.Worded IsIdentifier)
    (hf : filled → s.Filled) : Keeps (Rowed filled) (statement u scope s) fun ls => ∀ l ∈ ls, IsRow filled l := by
  cases s with
  | output line nodes => exact rows_outputLines h hw
  | extends_ line template => exact rowed_extendsLine h template
  | for_ line target source body otherwise test isRecursive =>
    obtain ⟨htarget, hsource, hwbody, hwotherwise, htest⟩ := hw
    have hskipped : Keeps (Rowed filled) (loopTest u scope.nested line test) fun ls => ∀ l ∈ ls, IsRow filled l :=
      rows_loopTest h.nested htest
    refine (tidy_compiled h hsource).bind fun s hs => (tidy_loopTarget htarget).bind fun t ht =>
      hskipped.bind fun test htest =>
      (rowed_statements u _ h.nested body hwbody fun hfilled => (hf hfilled).1).bind fun body hbody => ?_
    have hheader : Tidy (loopHeader t s) :=
      ((((by decide : Tidy "for loop, ").append ht.unbroken).append (by decide)).append hs.unbroken).append (by decide)
    have hhead : ∀ l ∈ emit u scope (loopHeader t s) line :: test ++ suiteOf u scope.nested body line, IsRow filled l :=
      List.forall_mem_append.2 ⟨List.forall_mem_cons.2 ⟨h.emit hheader, htest⟩, h.nested.suite hbody⟩
    refine Keeps.ite (fun _ => Keeps.pure hhead) fun _ => ?_
    refine (rowed_statements u _ h.nested otherwise hwotherwise fun hfilled => (hf hfilled).2).bind fun ls hls =>
      Keeps.pure (List.forall_mem_append.2 ⟨hhead, List.forall_mem_cons.2 ⟨h.emit ?_, h.nested.suite hls⟩⟩)
    exact ((by decide : Tidy "if _jt_rt.empty(").append hs.unbroken).append (by decide)
  | if_ line test body branches otherwise =>
    obtain ⟨htest, hwbody, hwbranches, hwotherwise⟩ := hw
    refine (tidy_compiled h htest).bind fun t ht =>
      (rowed_statements u _ h.nested body hwbody fun hfilled => (hf hfilled).1).bind fun body hbody =>
      (rowed_elifs u scope h branches hwbranches fun hfilled => (hf hfilled).2.1).bind fun ls hls =>
      (rowed_statements u _ h.nested otherwise hwotherwise fun hfilled => (hf hfilled).2.2).bind fun last hlast => ?_
    have hif : Tidy ("if " ++ t ++ ":") := ((by decide : Tidy "if ").append ht.unbroken).append (by decide)
    have hhead : ∀ l ∈ emit u scope ("if " ++ t ++ ":") line :: suiteOf u scope.nested body line ++ ls, IsRow filled l :=
      List.forall_mem_append.2 ⟨List.forall_mem_cons.2 ⟨h.emit hif, h.nested.suite hbody⟩, hls⟩
    cases otherwise with
    | nil => exact Keeps.pure hhead
    | cons first otherwise =>
      exact Keeps.pure (List.forall_mem_append.2
        ⟨hhead, List.forall_mem_cons.2 ⟨h.emit (by decide), h.nested.suite hlast⟩⟩)
  | macro_ line id params defaults body =>
    obtain ⟨hid, hparams, hdefaults, hwbody⟩ := hw
    exact (tidy_defaults hdefaults).bind fun values hvalues =>
      (rowed_statements u _ h.function body hwbody hf).bind fun ls hls => Keeps.pure (rows_functionOf h.indent
        (tidy_functionHeader (unbroken_parameters hparams hvalues) (tidy_identifier hid).unbroken) hls)
  | callBlock line call params defaults body =>
    obtain ⟨hcall, hparams, hdefaults, hwbody⟩ := hw
    refine rowed_freshNumber.bind fun m _ => (tidy_defaults hdefaults).bind fun values hvalues =>
      (rowed_statements u _ h.function body hwbody hf).bind fun ls hls => ?_
    have hcaller : Unbroken (callerName m) := (tidy_of_isIdentifier (isMade_callerName m).identifier).unbroken
    have hextra : ∀ t ∈ ["caller=" ++ callerName m], Tidy t :=
      List.forall_mem_singleton.2 ((by decide : Tidy "caller=").append hcaller)
    refine (Keeps.ofResult fun t ht => tidy_callWith h.block hextra hcall ht).bind fun t ht =>
      Keeps.pure (List.forall_mem_append.2 ⟨?_, List.forall_mem_singleton.2 (h.appended (tidy_shown ht))⟩)
    exact rows_functionOf h.indent (tidy_functionHeader (unbroken_parameters hparams hvalues) hcaller) hls
  | filterBlock line body filter =>
    obtain ⟨hwbody, hfilter⟩ := hw
    replace hfilter : wordedOption IsIdentifier (some filter) := hfilter
    have hbuffer := tidy_bufferName
    refine rowed_freshNumber.bind fun m _ => (tidy_captured h (hbuffer m) hfilter).bind fun t ht =>
      (rowed_statements u _ (h.withBuffer (hbuffer m)) body hwbody hf).bind fun ls hls => Keeps.pure ?_
    exact List.forall_mem_append.2 ⟨List.forall_mem_cons.2 ⟨h.emit ((hbuffer m).append (by decide)), hls⟩,
      List.forall_mem_singleton.2 (h.appended ht)⟩
  | with_ line targets values body =>
    obtain ⟨htargets, hvalues, hwbody⟩ := hw
    have hpairs : ∀ e ∈ targets.zip values, e.1.Worded IsIdentifier false ∧ e.2.Worded IsIdentifier false := fun e he =>
      ⟨wordedAll_iff.1 htargets _ (List.of_mem_zip he).1, wordedAll_iff.1 hvalues _ (List.of_mem_zip he).2⟩
    exact (rows_assignments h hpairs fun hfilled e he => (hf hfilled).1 _ (List.of_mem_zip he).1).bind fun ls hls =>
      (rowed_statements u scope h body hwbody fun hfilled => (hf hfilled).2).bind fun ms hms =>
      Keeps.pure (List.forall_mem_append.2 ⟨hls, hms⟩)
  | block line id body isScoped required =>
    obtain ⟨hid, hwbody⟩ := hw
    have hname := tidy_blockFunction hid 0
    refine rowed_openBlock.bind fun _ _ => (rowed_statements u _ (.ofBlock hid) body hwbody hf).bind fun ls hls => ?_
    have hheader : Tidy (functionHeader (blockFunction id 0) "") := tidy_functionHeader (by decide) hname.unbroken
    exact (rowed_closeBlock (rows_functionOf (Int.le_refl 0) hheader hls)).bind fun _ _ =>
      Keeps.pure (List.forall_mem_singleton.2 (h.appended (hname.append (by decide))))
  | include_ line template withContext ignoreMissing => exact rowed_includeLine h ignoreMissing hw
  | import_ line template target withContext =>
    exact (tidy_compiled h hw.1).bind fun t ht => Keeps.pure (List.forall_mem_singleton.2 (h.emit
      (((tidy_identifier hw.2).append (by decide)).append (tidy_importText ht).unbroken)))
  | fromImport line template names withContext =>
    exact (tidy_compiled h hw.1).bind fun t ht => Keeps.pure (rows_importLines h ht hw.2)
  | exprStmt line value =>
    exact (tidy_compiled h hw).bind fun t ht => Keeps.pure (List.forall_mem_singleton.2 (h.emit ht))
  | assign line target value =>
    exact rows_assignments h (List.forall_mem_singleton.2 hw) fun hfilled => List.forall_mem_singleton.2 (hf hfilled)
  | assignBlock line target filter body =>
    obtain ⟨htarget, hfilter, hwbody⟩ := hw
    have hbuffer := tidy_bufferName
    refine rowed_freshNumber.bind fun m _ => (tidy_captured h (hbuffer m) hfilter).bind fun v hv =>
      (target_assigned htarget fun hfilled => (hf hfilled).1).bind fun t ht =>
      (rowed_statements u _ (h.withBuffer (hbuffer m)) body hwbody fun hfilled => (hf hfilled).2).bind fun ls hls =>
      Keeps.pure ?_
    exact List.forall_mem_append.2 ⟨List.forall_mem_cons.2 ⟨h.emit ((hbuffer m).append (by decide)), hls⟩,
      List.forall_mem_singleton.2 (h.assignment ht hv)⟩
  | scope line body => exact rowed_statements u scope h body hw hf
  | scopedOptions line options body => exact rowed_statements u scope h body hw.2 hf
  | options => exact Keeps.pure (by simp)
  | continue_ => exact Keeps.pure (List.forall_mem_singleton.2 (h.emit (by decide)))
  | break_ => exact Keeps.pure (List.forall_mem_singleton.2 (h.emit (by decide)))
  | other line kind => exact Keeps.stopAt
termination_by structural s

theorem rowed_statements (u : Setting) (scope : Scope) (h : scope.Sound) (ss : List Stmt)
    (hw : wordedBody IsIdentifier ss) (hf : filled → filledBody ss) :
    Keeps (Rowed filled) (statements u scope ss) fun ls => ∀ l ∈ ls, IsRow filled l := by
  cases ss with
  | nil => exact Keeps.pure (by simp)
  | cons s ss =>
    exact (rowed_statement u scope h s hw.1 fun hfilled => (hf hfilled).1).bind fun _ hls =>
      (rowed_statements u scope h ss hw.2 fun hfilled => (hf hfilled).2).bind fun _ hms =>
      Keeps.pure (List.forall_mem_append.2 ⟨hls, hms⟩)
termination_by structural ss

theorem rowed_elifs (u : Setting) (scope : Scope) (h : scope.Sound) (bs : List Branch)
    (hw : wordedBranches IsIdentifier bs) (hf : filled → filledBranches bs) :
    Keeps (Rowed filled) (elifs u scope bs) fun ls => ∀ l ∈ ls, IsRow filled l := by
  cases bs with
  | nil => exact Keeps.pure (by simp)
  | cons b bs =>
    exact (rowed_elif u scope h b hw.1 fun hfilled => (hf hfilled).1).bind fun _ hls =>
      (rowed_elifs u scope h bs hw.2 fun hfilled => (hf hfilled).2).bind fun _ hms =>
      Keeps.pure (List.forall_mem_append.2 ⟨hls, hms⟩)
termination_by structural bs

theorem rowed_elif (u : Setting) (scope : Scope) (h : scope.Sound) (b : Branch) (hw : b.Worded IsIdentifier)
    (hf : filled → b.Filled) : Keeps (Rowed filled) (elif u scope b) fun ls => ∀ l ∈ ls, IsRow filled l := by
  cases b with
  | mk line test body =>
    refine (tidy_compiled h hw.1).bind fun t ht => (rowed_statements u _ h.nested body hw.2 hf).bind fun ls hls =>
      Keeps.pure (List.forall_mem_cons.2 ⟨h.emit ?_, h.nested.suite hls⟩)
    exact ((by decide : Tidy "elif ").append ht.unbroken).append (by decide)
termination_by structural b

end

/-! ### Modules -/

/-- What the module of a template is made of. -/
def moduleOf (template : Path) (d : Document) (body : Lines) (b : Builder) : Parts Location where
  title := titleOf template
  context := (contextVariables d).map (declaration · anyType)
  definitions := b.blocks.flatMap (·.2)
  body

section Modules

variable {dialect : Dialect} {source : String} {d : Document} {template directory : Path}
  {find : Text.Points → Except Miss Path} {unit : CompiledUnit} {b : Builder}

theorem rows_moduleOf (hw : wordedBody IsIdentifier d.body)
    (hrun : (statements ⟨template, find⟩ Scope.top d.body).run Builder.empty = .ok (body, b)) :
    ∀ l ∈ (moduleOf template d body b).statements, IsRow (filledBody d.body) l := by
  have hkeeps : Keeps (Rowed (filledBody d.body)) (statements ⟨template, find⟩ Scope.top d.body)
      fun ls => ∀ l ∈ ls, IsRow (filledBody d.body) l := rowed_statements _ _ .top d.body hw id
  obtain ⟨hblocks, hbody⟩ := hkeeps (by simp [Rowed, Builder.empty]) hrun
  have hscaffold (code : String) (h : Tidy code) : IsRow (filledBody d.body) (scaffold 0 code : CodeLine Location) :=
    Tidy.isRow h (Int.le_refl 0)
  exact List.forall_mem_append.2 ⟨List.forall_mem_append.2 ⟨List.forall_mem_flatMap.2 hblocks,
    List.forall_mem_cons.2 ⟨hscaffold _ (by decide), hbody⟩⟩, List.forall_mem_singleton.2 (hscaffold _ (by decide))⟩

theorem lines_moduleOf (hw : wordedBody IsIdentifier d.body) (htemplate : Unbroken template.text)
    (hrows : ∀ l ∈ (moduleOf template d body b).statements, Unbroken l.code) :
    Text.lines (moduleOf template d body b).source = (moduleOf template d body b).lines := by
  refine Parts.lines_source (Parts.unbroken_lines (unbroken_titleOf htemplate) ?_ hrows)
  refine List.forall_mem_map.2 fun v hv => unbroken_declaration ?_ (by decide)
  exact (tidy_of_isIdentifier (contextVariables_worded hw v hv)).unbroken

/-- Each statement is one line of code at its indentation; only what is left of an assignment to the empty tuple begins
with a blank. Where the path of the template stands in one line, the lines of the module are those that were written,
and its map names, from the top to the bottom, lines that came from the template. -/
theorem rows_physical (hparse : Document.parse dialect source = .ok d)
    (hunit : ofDocument template directory find d = .ok unit) :
    ∃ body b, (statements ⟨template, find⟩ Scope.top d.body).run Builder.empty = .ok (body, b) ∧
      unit = assemble template directory d body b ∧
      (∀ l ∈ (moduleOf template d body b).statements, IsRow (filledBody d.body) l) ∧
      (Unbroken template.text → Text.lines unit.source = (moduleOf template d body b).lines ∧
        unit.sourceMap.Pairwise (fun e f => e.1 < f.1) ∧
        ∀ e ∈ unit.sourceMap, ∃ l ∈ (moduleOf template d body b).statements, l.origin = some e.2 ∧ 1 ≤ e.1 ∧
          (Text.lines unit.source)[e.1 - 1]? = some l.text) := by
  unfold ofDocument at hunit
  split at hunit
  case h_2 | h_3 | h_4 => cases hunit
  case h_1 body b hrun =>
    cases hunit
    have hw := worded_of_parse hparse
    have hrows := rows_moduleOf hw hrun
    refine ⟨body, b, hrun, rfl, hrows, fun htemplate => ?_⟩
    have hlines : Text.lines (assemble template directory d body b).source = (moduleOf template d body b).lines :=
      lines_moduleOf hw htemplate fun l hl => (hrows l hl).unbroken
    refine ⟨hlines, Parts.pairwise_originsFrom _ _, fun e he => ?_⟩
    replace he : e ∈ (moduleOf template d body b).sourceMap := he
    obtain ⟨k, l, hk, hl, horigin⟩ := Parts.mem_originsFrom.1 he
    refine ⟨l, List.mem_of_getElem? hl, horigin, by omega, ?_⟩
    rw [hlines, Parts.lines, hk, Nat.add_right_comm, Nat.add_sub_cancel, List.getElem?_append_right (Nat.le_add_right _ _),
      Nat.add_sub_cancel_left, List.getElem?_map]
    exact congrArg (Option.map CodeLine.text) hl

end Modules

section Nothing

open Dependency

def somewhere : Path := Path.ofString "/t/page.html"

/-- The line of an assignment to nothing begins with a blank more than its indentation. -/
theorem rows_physical_emptyTuple : ∃ d unit body b, Document.parse ⟨false, false⟩ "\x7b% set () = x %\x7d" = .ok d ∧
    ofDocument somewhere somewhere (fun _ => .error .undecodable) d = .ok unit ∧
    unit = assemble somewhere somewhere d body b ∧ body.map (·.code) = [" = x"] ∧ ¬ filledBody d.body ∧
    (Text.lines unit.source)[16]? = some "     = x" := by
  have hrun : ((Document.parse ⟨false, false⟩ "\x7b% set () = x %\x7d").toOption.bind fun d =>
      ((statements ⟨somewhere, fun _ => .error .undecodable⟩ Scope.top d.body).run Builder.empty).toOption.map fun r =>
        (r.1.map (·.code), (moduleOf somewhere d r.1 r.2).lines[16]?)) = some ([" = x"], some "     = x") := by
    decide +kernel
  obtain ⟨d, hparsed, hbody⟩ := Option.bind_eq_some_iff.1 hrun
  obtain ⟨d', hparse, hd⟩ := of_toOption_map (f := id) ((congrFun Option.map_id _).trans hparsed)
  obtain rfl : d = d' := hd.symm
  obtain ⟨⟨body, b⟩, hbody, hcode⟩ := of_toOption_map hbody
  obtain ⟨hcode, hline⟩ := Prod.mk.inj hcode
  have hunit : ofDocument somewhere somewhere (fun _ => .error .undecodable) d = .ok (assemble somewhere somewhere d body b) := by
    simp only [ofDocument]
    rw [hbody]
  obtain ⟨body', b', hbody', hassemble, hrows, hphysical⟩ := rows_physical hparse hunit
  obtain ⟨rfl, rfl⟩ := Prod.mk.inj (Except.ok.inj (hbody.symm.trans hbody'))
  refine ⟨_, _, body, b, hparse, hunit, rfl, hcode, ?_, ?_⟩
  · obtain ⟨l, hl, hcode⟩ := List.mem_map.1 (hcode ▸ List.mem_singleton_self " = x")
    have hbegins := (hrows l (by simp [Parts.statements, moduleOf, hl])).begins
    rw [hcode] at hbegins
    exact (hbegins.resolve_left (by decide)).1
  · rw [(hphysical (by decide)).1]
    exact hline

end Nothing

end Stencil.Compile
