import Stencil.Proofs.Code.Grouping
import Stencil.Proofs.Compile.Reserved
import Stencil.Proofs.Template.Reads

/-!
The text of an expression is closed: whatever could group differently with what is around it is
inside brackets. What keeps a text from being closed stands at its front, in the name of a filter or
test.
-/
namespace Stencil.Compile
open Template Code Text Grouping

variable {s t f o g : String} {items args : List String} {k : Nat} {block input : Option String}
  {whole : Prop} {slices : Bool}

/-- Holds of filters and tests whose attributes are all written as names. -/
def Attributable (name : String) : Prop :=
  ∀ part ∈ Text.splitOnChar '.' (runtimeAttribute name), isOperator part.toList = false

instance (name : String) : Decidable (Attributable name) := inferInstanceAs (Decidable (∀ _ ∈ _, _))

/-- Holds of expressions with no operator at the front of their text: no filter or test there has an
operator in its name, and no constant has a sign. -/
def Whole : Expr → Prop
  | .const _ value => value.literal.toList.head? ≠ some '-'
  | .attrRef _ _ attr => isOperator attr.toList = false
  | .filter _ _ name .. => Attributable name
  | .test _ _ name .. => Attributable (testName name)
  | .call _ callee .. => isSuper callee ∨ Whole callee
  | .item _ owner _ => Whole owner
  | .attr _ owner attr => isSelf owner ∨ isKeyword attr ∨ Whole owner
  | .safe _ value => Whole value
  | _ => True
termination_by structural e => e

/-! ### Names -/

/-- A name as the parser gives it. -/
def IsIdentifier (s : String) : Prop := isIdentifier s.toList

theorem operators_keywords : operatorWords.all isKeyword := by decide

theorem isOperator_of_not_keyword (h : isKeyword s = false) : isOperator s.toList = false := by
  by_contra ho
  simp only [isOperator, String.ofList_toList, List.contains_eq_mem, Bool.not_eq_false, decide_eq_true_eq] at ho
  simpa [h] using List.all_eq_true.1 operators_keywords s ho

/-- A name as a variable. -/
theorem grouped_identifier (h : isIdentifier s.toList) : Grouped 0 (identifier s) := by
  unfold Code.identifier
  split
  · next hk =>
    have := List.all_eq_true.1 keywords_reserved s (by simpa [isKeyword] using hk)
    simp only [Bool.and_eq_true, Bool.not_eq_true'] at this
    exact grouped_name this.1.1 fun _ => isOperator_of_not_keyword this.1.2
  · next hk => exact grouped_name h fun _ => isOperator_of_not_keyword (by simpa using hk)

theorem grouped_runtime : Grouped 0 "_jt_rt" :=
  grouped_name (by decide) fun _ => by decide

theorem grouped_loadName (h : isIdentifier s.toList) : Grouped 0 (loadName s) := by
  unfold loadName
  split
  · next hs =>
    have hall : runtimeGlobals.all fun s => !isOperator s.toList := by decide
    have hs' := List.all_eq_true.1 hall s (by simpa using hs)
    exact grouped_runtime.member (grouped_name h fun _ => by simpa using hs')
  · exact grouped_identifier h

theorem grouped_blockFunction (h : isIdentifier s.toList) (n : Nat) : Grouped 0 (blockFunction s n) := by
  refine grouped_name (isIdentifier_blockFunction h n) fun _ => isOperator_of_underscore ?_
  obtain ⟨cs, hcs⟩ := blockStem_prefix s n
  rw [← hcs]
  rfl

/-! ### Parts put together -/

theorem grouped_intercalate (hg : Ended 1 g) (hd : Delimits g) (h : ∀ t ∈ items, Grouped 1 t) :
    Grouped 1 (g.intercalate items) := by
  induction items with
  | nil => exact ended_empty.grouped
  | cons t items ih =>
    cases items with
    | nil => simpa using h t (by simp)
    | cons u items =>
      rw [String.intercalate_cons_cons]
      exact (h t (by simp)).glue hg hd (ih fun v hv => h v (by simp [hv]))

theorem grouped_commaSeparated (h : ∀ t ∈ items, Grouped 1 t) : Grouped 1 (commaSeparated items) :=
  grouped_intercalate (ended_mark (by simp [marks])) (delimits_mark (by simp [marks])) h

theorem stands_call (h : Stands whole f) (ha : ∀ t ∈ args, Grouped 1 t) : Stands whole (callText f args) :=
  h.applied (by simp [bracketPairs]) (.inl rfl) (grouped_commaSeparated ha)

theorem grouped_call (h : Grouped 0 f) (ha : ∀ t ∈ args, Grouped 1 t) : Grouped 0 (callText f args) :=
  (stands_call (.of_grouped h trivial) ha).outside trivial

theorem grouped_parens (h : Grouped 1 s) : Grouped 0 ("(" ++ s ++ ")") :=
  (h.bracketed (by simp [bracketPairs])).grouped

theorem grouped_tuple (h : ∀ t ∈ items, Grouped 1 t) : Grouped 0 (tupleText items) := by
  unfold tupleText
  split
  · next item =>
    have hcomma : "," ∈ marks := by simp [marks]
    have := grouped_parens ((h item (by simp)).append (ended_mark hcomma).grouped (delimits_mark hcomma))
    rwa [← String.append_assoc, String.append_assoc] at this
  · exact grouped_parens (grouped_commaSeparated h)

theorem grouped_argumentTexts {rest restNamed : Option String} {named : List (String × String)}
    (ha : ∀ t ∈ args, Grouped 1 t) (hr : Given (Grouped 1) rest)
    (hn : ∀ n ∈ named, isIdentifier n.1.toList ∧ Grouped 1 n.2) (hrn : Given (Grouped 1) restNamed) :
    ∀ t ∈ argumentTexts args rest named restNamed, Grouped 1 t := by
  have hdict (unusual : List (String × String)) (hu : ∀ n ∈ unusual, Grouped 1 n.2) :
      Grouped 1 ("**\x7b" ++ commaSeparated (unusual.map fun n => Text.quote n.1 ++ ": " ++ n.2) ++ "\x7d") := by
    have hitems : ∀ t ∈ unusual.map fun n => Text.quote n.1 ++ ": " ++ n.2, Grouped 1 t := by
      simp only [List.mem_map, forall_exists_index, and_imp]
      rintro _ n hn rfl
      exact (ended_quote _).grouped.marked (by simp [marks]) (hu n hn)
    have := (grouped_commaSeparated hitems).bracketed (l := "\x7b") (r := "\x7d") (by simp [bracketPairs])
    have := (ended_sign (g := "**") (by simp)).append this.raise.grouped
    simpa only [String.append_assoc, show "**\x7b" = "**" ++ "\x7b" from rfl] using this
  simp only [argumentTexts]
  intro t ht
  simp only [List.mem_append, List.mem_map, List.mem_filter, Option.mem_toList] at ht
  obtain (((ht | ht) | ⟨n, ⟨hmem, -⟩, rfl⟩) | ht) | ht := ht
  · exact ha t ht
  · obtain ⟨u, hu, rfl⟩ := Option.map_eq_some_iff.1 ht
    exact (ended_sign (by simp)).append (hr u hu)
  · exact (grouped_name (k := 1) (hn n hmem).1 (by simp)).marked (by simp [marks]) (hn n hmem).2
  · split at ht
    · cases ht
    · obtain rfl := List.mem_singleton.1 ht
      exact hdict _ fun n hmem => (hn n (List.mem_filter.1 hmem).1).2
  · obtain ⟨u, hu, rfl⟩ := Option.map_eq_some_iff.1 ht
    exact (ended_sign (by simp)).append (hrn u hu)

theorem grouped_sliceText {start stop step : Option String} (hstart : Given (Grouped 1) start)
    (hstop : Given (Grouped 1) stop) (hstep : Given (Grouped 1) step) :
    Grouped 1 (sliceText start stop step) := by
  have hpart (u : Option String) (hu : Given (Grouped 1) u) : Grouped 1 (u.getD "") := by
    cases u with
    | none => exact ended_empty.grouped
    | some t => exact hu t rfl
  have hbounds := (hpart start hstart).marked (g := ":") (by simp [marks]) (hpart stop hstop)
  cases step with
  | none => exact hbounds
  | some u => exact hbounds.marked (by simp [marks]) (hstep u rfl)

theorem grouped_cond (hs : Grouped 1 s) (ht : Grouped 1 t) (ho : Grouped 1 o) :
    Grouped 0 ("(" ++ s ++ " if " ++ t ++ " else " ++ o ++ ")") := by
  have hif := hs.marked (g := " if ") (by simp [marks]) ht
  have := grouped_parens (hif.marked (g := " else ") (by simp [marks]) ho)
  simpa only [String.append_assoc] using this

theorem grouped_operator {op : String}
    (h : op ∈ ["+", "-", "*", "/", "//", "%", "**", "==", "!=", ">", ">=", "<", "<=", "and", "or", "in",
      "not in"]) :
    Grouped 1 op := by
  intro expected he
  obtain ⟨b, bs, rfl⟩ := List.exists_cons_of_length_pos he
  simp only [List.mem_cons, List.not_mem_nil, or_false] at h
  obtain rfl | rfl | rfl | rfl | rfl | rfl | rfl | rfl | rfl | rfl | rfl | rfl | rfl | rfl | rfl | rfl | rfl := h
  all_goals exact ⟨_, rfl, rfl⟩

theorem grouped_binaryOp (op : BinaryOp) : Grouped 1 op.text := by
  cases op <;> exact grouped_operator (by decide)

theorem grouped_compareOp (op : CompareOp) : Grouped 1 op.text := by
  cases op <;> exact grouped_operator (by decide)

theorem grouped_unary (op : UnaryOp) (h : Grouped 1 s) : Grouped 0 (unaryText op s) := by
  cases op
  case not =>
    have hnot : Ended 1 "not " := by
      intro expected he
      obtain ⟨b, bs, rfl⟩ := List.exists_cons_of_length_pos he
      rfl
    have := grouped_parens (hnot.append h)
    simpa only [unaryText, String.append_assoc, show "(not " = "(" ++ "not " from rfl] using this
  case neg =>
    have := grouped_parens ((ended_sign (g := "-") (by simp)).append h)
    simpa only [unaryText, String.append_assoc, show "(-" = "(" ++ "-" from rfl] using this
  case pos =>
    have := grouped_parens ((ended_sign (g := "+") (by simp)).append h)
    simpa only [unaryText, String.append_assoc, show "(+" = "(" ++ "+" from rfl] using this

theorem stands_attributeText (h : Stands whole o) (hs : isIdentifier s.toList) :
    Stands (isKeyword s ∨ whole) (attributeText o s) := by
  unfold attributeText
  split
  · next hk =>
    have hparts : ∀ t ∈ [o, Text.quote s], Grouped 1 t := by simpa using ⟨h.inside, (ended_quote _).grouped⟩
    have hcall := grouped_call (f := "getattr") (grouped_name (by decide) fun _ => by decide) hparts
    refine .of_grouped ?_ (.inl hk)
    simpa [callText, commaSeparated, String.intercalate_cons_cons, String.append_assoc] using hcall
  · next hk =>
    have hattr := grouped_name (k := 0) hs fun _ => isOperator_of_not_keyword (by simpa using hk)
    exact ⟨h.inside.member hattr.raise,
      fun hw => (h.outside (hw.resolve_left hk)).member hattr,
      fun hw => String.append_assoc .. ▸ (h.broken fun hn => hw (.inr hn)).append (delimits_dot.append s)⟩

/-! ### Filters and tests -/

theorem stands_parts {css : List (List Char)} (h : Stands whole o) (hcss : ∀ cs ∈ css, isIdentifier cs) :
    Stands (whole ∧ ∀ cs ∈ css, isOperator cs = false) (o ++ String.ofList (css.flatMap ('.' :: ·))) := by
  induction css generalizing o whole with
  | nil => simpa using h
  | cons cs css ih =>
    have hpart := h.part (s := String.ofList cs) (by simpa using hcss cs (by simp))
    have := ih hpart fun ds hds => hcss ds (by simp [hds])
    have htext : o ++ "." ++ String.ofList cs ++ String.ofList (css.flatMap ('.' :: ·)) =
        o ++ String.ofList ((cs :: css).flatMap ('.' :: ·)) := by
      rw [← String.toList_inj]
      simp
    rw [htext] at this
    simpa [and_assoc] using this

/-- A name with points in it, behind a text. -/
theorem stands_dotted (h : Stands whole o) (hs : Dotted (isIdentifier ·.toList) s) :
    Stands (whole ∧ ∀ part ∈ Text.splitOnChar '.' s, isOperator part.toList = false) (o ++ "." ++ s) := by
  have hparts : ∀ cs ∈ Text.splitAt (· == '.') s.toList, isIdentifier cs := fun cs hcs => by
    simpa using hs (String.ofList cs) (List.mem_map_of_mem hcs)
  have := stands_parts h hparts
  rw [← splitAt_append] at this
  have htext : o ++ String.ofList ('.' :: s.toList) = o ++ "." ++ s := by
    rw [← String.toList_inj]
    simp
  rw [htext] at this
  simpa [Text.splitOnChar] using this

/-- A filter or test of one of the runtime modules. -/
theorem stands_runtimeAttribute (ho : Grouped 0 o) (hs : Dotted (isIdentifier ·.toList) s) :
    Stands (Attributable s) (o ++ "." ++ runtimeAttribute s) := by
  have hdotted : Dotted (isIdentifier ·.toList) (runtimeAttribute s) := by
    unfold Code.runtimeAttribute
    split
    · exact underscore_dotted hs
    · exact hs
  simpa [Attributable] using stands_dotted (.of_grouped ho trivial) hdotted

theorem grouped_superCall {line : Line} (hb : ∀ n ∈ block, IsIdentifier n)
    (h : superCall block line = .ok s) : Grouped 0 s := by
  cases block with
  | none => cases h
  | some name =>
    cases h
    have := @grouped_call _ [] (grouped_blockFunction (hb name rfl) 1) (by simp)
    simpa [callText, commaSeparated, String.append_assoc] using this

/-! ### Expressions -/

/-- An expression by itself or, as a slice, inside an index. -/
structure Fits (slices : Bool) (e : Expr) (s : String) : Prop where
  inside : Grouped 1 s
  stands : slices = false → Stands (Whole e) s

theorem Fits.of_stands {e : Expr} (h : Stands (Whole e) s) : Fits slices e s :=
  ⟨h.inside, fun _ => h⟩

theorem Fits.of_grouped {e : Expr} (h : Grouped 0 s) (hw : Whole e) : Fits slices e s :=
  .of_stands (.of_grouped h hw)

section Trees

mutual

theorem fits_expr (hb : ∀ n ∈ block, IsIdentifier n) (input : Option String) (hi : Given (Grouped 1) input)
    (slices : Bool) (e : Expr) (hw : e.Worded IsIdentifier slices) (s : String)
    (h : expr block input e = .ok s) : Fits slices e s :=
  match e with
  | .name .. => by
    rw [expr] at h
    cases h
    exact .of_grouped (grouped_loadName hw) trivial
  | .attrRef _ space attr => by
    rw [expr] at h
    cases h
    have := (Stands.of_grouped (grouped_identifier hw.1) trivial).part hw.2
    exact .of_stands (by simpa [Whole] using this)
  | .const _ value => by
    rw [expr] at h
    cases h
    exact .of_stands (stands_literal value)
  | .data .. => by
    rw [expr] at h
    cases h
    exact .of_grouped (ended_quote _).grouped trivial
  | .tuple _ items => by
    rw [expr] at h
    obtain ⟨ts, hts, h⟩ := bind_eq_ok.1 h
    cases h
    exact .of_grouped (grouped_tuple (grouped_exprs hb true items hw ts hts)) trivial
  | .list _ items => by
    rw [expr] at h
    obtain ⟨ts, hts, h⟩ := bind_eq_ok.1 h
    cases h
    exact .of_grouped ((grouped_commaSeparated (grouped_exprs hb false items hw ts hts)).bracketed
      (by simp [bracketPairs])).grouped trivial
  | .dict _ items => by
    rw [expr] at h
    obtain ⟨ts, hts, h⟩ := bind_eq_ok.1 h
    cases h
    exact .of_grouped ((grouped_commaSeparated (grouped_pairs hb items hw ts hts)).bracketed
      (by simp [bracketPairs])).grouped trivial
  | .cond _ test body otherwise => by
    rw [expr] at h
    obtain ⟨o, ho, h⟩ := bind_eq_ok.1 h
    obtain ⟨b, hbody, h⟩ := bind_eq_ok.1 h
    obtain ⟨t, ht, h⟩ := bind_eq_ok.1 h
    cases h
    have hotherwise : Grouped 1 (o.getD "None") := by
      have := grouped_option hb otherwise hw.2.2 o ho
      cases o with
      | none => exact (stands_literal .none).inside
      | some t => exact this t rfl
    exact .of_grouped (grouped_cond (fits_expr hb none (by simp [Given]) false body hw.2.1 b hbody).inside
      (fits_expr hb none (by simp [Given]) false test hw.1 t ht).inside hotherwise) trivial
  | .filter line operand name args named rest restNamed => by
    rw [expr] at h
    obtain ⟨o, ho, h⟩ := bind_eq_ok.1 h
    obtain ⟨as, has, h⟩ := bind_eq_ok.1 h
    obtain ⟨r, hr, h⟩ := bind_eq_ok.1 h
    obtain ⟨ns, hns, h⟩ := bind_eq_ok.1 h
    obtain ⟨rn, hrn, h⟩ := bind_eq_ok.1 h
    cases h
    obtain ⟨hwo, hwname, hwargs, hwnamed, hwrest, hwrestNamed⟩ := hw
    have hoperand := grouped_filterOperand hb input hi line name operand hwo o ho
    have hargs := grouped_argumentTexts (grouped_exprs hb false args hwargs as has)
      (grouped_option hb rest hwrest r hr) (grouped_named hb named hwnamed ns hns)
      (grouped_option hb restNamed hwrestNamed rn hrn)
    have hfunction := stands_runtimeAttribute (o := "_jt_filters")
      (grouped_name (by decide) fun _ => by decide) hwname
    exact .of_stands (stands_call hfunction (List.forall_mem_cons.2 ⟨hoperand, hargs⟩))
  | .test _ operand name args named rest restNamed => by
    rw [expr] at h
    obtain ⟨o, ho, h⟩ := bind_eq_ok.1 h
    obtain ⟨as, has, h⟩ := bind_eq_ok.1 h
    obtain ⟨r, hr, h⟩ := bind_eq_ok.1 h
    obtain ⟨ns, hns, h⟩ := bind_eq_ok.1 h
    obtain ⟨rn, hrn, h⟩ := bind_eq_ok.1 h
    cases h
    obtain ⟨hwo, hwname, hwargs, hwnamed, hwrest, hwrestNamed⟩ := hw
    have hoperand := (fits_expr hb input hi false operand hwo o ho).inside
    have hargs := grouped_argumentTexts (grouped_exprs hb false args hwargs as has)
      (grouped_option hb rest hwrest r hr) (grouped_named hb named hwnamed ns hns)
      (grouped_option hb restNamed hwrestNamed rn hrn)
    have hfunction := stands_runtimeAttribute (o := "_jt_tests")
      (grouped_name (by decide) fun _ => by decide) (testName_dotted hwname)
    exact .of_stands (stands_call hfunction (List.forall_mem_cons.2 ⟨hoperand, hargs⟩))
  | .call line callee args named rest restNamed => by
    rw [expr] at h
    split at h
    · next hsuper => exact .of_grouped (grouped_superCall hb h) (.inl hsuper)
    · next hsuper =>
      obtain ⟨f, hf, h⟩ := bind_eq_ok.1 h
      obtain ⟨as, has, h⟩ := bind_eq_ok.1 h
      obtain ⟨r, hr, h⟩ := bind_eq_ok.1 h
      obtain ⟨ns, hns, h⟩ := bind_eq_ok.1 h
      obtain ⟨rn, hrn, h⟩ := bind_eq_ok.1 h
      cases h
      obtain ⟨hwf, hwargs, hwnamed, hwrest, hwrestNamed⟩ := hw
      have hargs := grouped_argumentTexts (grouped_exprs hb false args hwargs as has)
        (grouped_option hb rest hwrest r hr) (grouped_named hb named hwnamed ns hns)
        (grouped_option hb restNamed hwrestNamed rn hrn)
      have hcallee := (fits_expr hb none (by simp [Given]) false callee hwf f hf).stands rfl
      refine .of_stands ?_
      simpa only [Whole, hsuper, false_or, Bool.false_eq_true] using stands_call hcallee hargs
  | .item _ owner index => by
    rw [expr] at h
    obtain ⟨o, ho, h⟩ := bind_eq_ok.1 h
    obtain ⟨i, hindex, h⟩ := bind_eq_ok.1 h
    cases h
    have howner := (fits_expr hb none (by simp [Given]) false owner hw.1 o ho).stands rfl
    exact .of_stands (howner.applied (by simp [bracketPairs]) (.inr rfl)
      (fits_expr hb none (by simp [Given]) true index hw.2 i hindex).inside)
  | .attr _ owner attr => by
    rw [expr] at h
    split at h
    · next hself =>
      cases h
      exact .of_grouped (grouped_blockFunction hw.2 0) (.inl hself)
    · next hself =>
      obtain ⟨o, ho, h⟩ := bind_eq_ok.1 h
      cases h
      have howner := (fits_expr hb none (by simp [Given]) false owner hw.1 o ho).stands rfl
      refine .of_stands ?_
      simpa only [Whole, hself, false_or, Bool.false_eq_true] using stands_attributeText howner hw.2
  | .slice _ start stop stride => by
    rw [expr] at h
    obtain ⟨a, ha, h⟩ := bind_eq_ok.1 h
    obtain ⟨b, hb', h⟩ := bind_eq_ok.1 h
    obtain ⟨c, hc, h⟩ := bind_eq_ok.1 h
    cases h
    refine ⟨grouped_sliceText (grouped_option hb start hw.2.1 a ha) (grouped_option hb stop hw.2.2.1 b hb')
      (grouped_option hb stride hw.2.2.2 c hc), fun hs => ?_⟩
    exact absurd (hw.1.symm.trans hs) (by decide)
  | .concat _ items => by
    rw [expr] at h
    obtain ⟨ts, hts, h⟩ := bind_eq_ok.1 h
    cases h
    have hfunction := grouped_runtime.member (grouped_name (s := "concat") (by decide) fun _ => by decide)
    exact .of_grouped (grouped_call hfunction (grouped_exprs hb false items hw ts hts)) trivial
  | .compare _ first others => by
    rw [expr] at h
    obtain ⟨f, hf, h⟩ := bind_eq_ok.1 h
    obtain ⟨ts, hts, h⟩ := bind_eq_ok.1 h
    cases h
    have hfirst := (fits_expr hb none (by simp [Given]) false first hw.1 f hf).inside
    exact .of_grouped (grouped_parens (grouped_intercalate (ended_mark (by simp [marks]))
      (delimits_mark (by simp [marks]))
      (List.forall_mem_cons.2 ⟨hfirst, grouped_comparisons hb others hw.2 ts hts⟩))) trivial
  | .binary _ op left right => by
    rw [expr] at h
    obtain ⟨l, hl, h⟩ := bind_eq_ok.1 h
    obtain ⟨r, hr, h⟩ := bind_eq_ok.1 h
    cases h
    have hinside := ((fits_expr hb none (by simp [Given]) false left hw.1 l hl).inside.marked (g := " ")
      (by simp [marks]) (grouped_binaryOp op)).marked (g := " ") (by simp [marks])
      (fits_expr hb none (by simp [Given]) false right hw.2 r hr).inside
    have := grouped_parens hinside
    exact .of_grouped (by simpa only [String.append_assoc] using this) trivial
  | .unary _ op operand => by
    rw [expr] at h
    obtain ⟨o, ho, h⟩ := bind_eq_ok.1 h
    cases h
    have hoperand := (fits_expr hb none (by simp [Given]) false operand hw o ho).inside
    exact .of_grouped (grouped_unary op hoperand) trivial
  | .safe _ value => by
    rw [expr] at h
    exact .of_stands ((fits_expr hb none (by simp [Given]) false value hw s h).stands rfl)
  | .context _ => by
    rw [expr] at h
    cases h
    have hfunction := grouped_runtime.member (grouped_name (s := "context") (by decide) fun _ => by decide)
    exact .of_grouped (@grouped_call _ [] hfunction (by simp)) trivial
  | .other .. => by
    rw [expr] at h
    cases h
termination_by structural e

theorem grouped_filterOperand (hb : ∀ n ∈ block, IsIdentifier n) (input : Option String)
    (hi : Given (Grouped 1) input) (line : Line) (name : String) (e : Option Expr)
    (hw : wordedOption IsIdentifier e) (s : String) (h : filterOperand block input line name e = .ok s) : Grouped 1 s :=
  match e with
  | some e => (fits_expr hb input hi false e hw s h).inside
  | none => by
    cases input with
    | none => cases h
    | some t =>
      cases h
      exact hi _ rfl
termination_by structural e

theorem grouped_exprs (hb : ∀ n ∈ block, IsIdentifier n) (slices : Bool) (es : List Expr)
    (hw : wordedAll IsIdentifier slices es) (ts : List String) (h : exprs block es = .ok ts) : ∀ t ∈ ts, Grouped 1 t :=
  match es with
  | [] => by
    cases h
    simp
  | e :: es => by
    rw [exprs] at h
    obtain ⟨t, ht, h⟩ := bind_eq_ok.1 h
    obtain ⟨us, hus, h⟩ := bind_eq_ok.1 h
    cases h
    exact List.forall_mem_cons.2 ⟨(fits_expr hb none (by simp [Given]) slices e hw.1 t ht).inside,
      grouped_exprs hb slices es hw.2 us hus⟩
termination_by structural es

theorem grouped_option (hb : ∀ n ∈ block, IsIdentifier n) (e : Option Expr) (hw : wordedOption IsIdentifier e)
    (t : Option String) (h : option block e = .ok t) : Given (Grouped 1) t :=
  match e with
  | none => by
    cases h
    simp [Given]
  | some e => by
    rw [option] at h
    obtain ⟨u, hu, h⟩ := bind_eq_ok.1 h
    cases h
    simpa [Given] using (fits_expr hb none (by simp [Given]) false e hw u hu).inside
termination_by structural e

theorem grouped_pairs (hb : ∀ n ∈ block, IsIdentifier n) (es : List (Expr × Expr)) (hw : wordedPairs IsIdentifier es)
    (ts : List String) (h : pairs block es = .ok ts) : ∀ t ∈ ts, Grouped 1 t :=
  match es with
  | [] => by
    cases h
    simp
  | (key, value) :: es => by
    rw [pairs] at h
    obtain ⟨k, hk, h⟩ := bind_eq_ok.1 h
    obtain ⟨v, hv, h⟩ := bind_eq_ok.1 h
    obtain ⟨us, hus, h⟩ := bind_eq_ok.1 h
    cases h
    refine List.forall_mem_cons.2 ⟨?_, grouped_pairs hb es hw.2.2 us hus⟩
    exact (fits_expr hb none (by simp [Given]) false key hw.1 k hk).inside.marked (by simp [marks])
      (fits_expr hb none (by simp [Given]) false value hw.2.1 v hv).inside
termination_by structural es

theorem grouped_named (hb : ∀ n ∈ block, IsIdentifier n) (es : List (String × Expr)) (hw : wordedNamed IsIdentifier es)
    (ts : List (String × String)) (h : namedArguments block es = .ok ts) :
    ∀ t ∈ ts, isIdentifier t.1.toList ∧ Grouped 1 t.2 :=
  match es with
  | [] => by
    cases h
    simp
  | (name, e) :: es => by
    rw [namedArguments] at h
    obtain ⟨t, ht, h⟩ := bind_eq_ok.1 h
    obtain ⟨us, hus, h⟩ := bind_eq_ok.1 h
    cases h
    exact List.forall_mem_cons.2 ⟨⟨hw.1, (fits_expr hb none (by simp [Given]) false e hw.2.1 t ht).inside⟩,
      grouped_named hb es hw.2.2 us hus⟩
termination_by structural es

theorem grouped_comparisons (hb : ∀ n ∈ block, IsIdentifier n) (es : List (CompareOp × Expr))
    (hw : wordedOperands IsIdentifier es) (ts : List String) (h : comparisons block es = .ok ts) :
    ∀ t ∈ ts, Grouped 1 t :=
  match es with
  | [] => by
    cases h
    simp
  | (op, e) :: es => by
    rw [comparisons] at h
    obtain ⟨t, ht, h⟩ := bind_eq_ok.1 h
    obtain ⟨us, hus, h⟩ := bind_eq_ok.1 h
    cases h
    exact List.forall_mem_cons.2 ⟨grouped_compareOp op, List.forall_mem_cons.2
      ⟨(fits_expr hb none (by simp [Given]) false e hw.1 t ht).inside, grouped_comparisons hb es hw.2 us hus⟩⟩
termination_by structural es

end

end Trees

/-! ### Templates -/

theorem brought_isIdentifier : Parser.Brought IsIdentifier where
  autoescape := brought_isFree.autoescape.1
  counter := brought_isFree.counter.1
  gettext plural contextual := (brought_isFree.gettext plural contextual).1

theorem IsIdentifier.dotted (h : IsIdentifier s) : Dotted IsIdentifier s :=
  Dotted.single h fun hdot => absurd (continue_of_mem_identifier h _ hdot) (by decide)

/-- The names in a template are identifiers. -/
theorem worded_of_parse {dialect : Dialect} {source : String} {d : Document}
    (h : Document.parse dialect source = .ok d) : wordedBody IsIdentifier d.body :=
  Document.parse_worded (fun _ => IsIdentifier.dotted) brought_isIdentifier (TokenStream.named_ofSource source) h

/-- The text of an expression in a template is closed, so it groups in one way wherever it is put, unless
its front is an operator that the name of a filter or test brings there. -/
theorem isClosed_expr_iff {dialect : Dialect} {source : String} {d : Document} {i : Site}
    (hparse : Document.parse dialect source = .ok d) (hi : i ∈ d.sites) (hblock : ∀ n ∈ block, IsIdentifier n)
    (hinput : ∀ t ∈ input, isClosed t) (h : expr block input i.content = .ok s) :
    isClosed s ↔ Whole i.content := by
  have hworded : i.content.Worded IsIdentifier false := bodySites_worded d.body (worded_of_parse hparse) i hi
  have hstands := (fits_expr hblock input (fun t ht => (isClosed_iff_grouped.1 (hinput t ht)).raise) false
    i.content hworded s h).stands rfl
  refine ⟨fun hs => ?_, fun hwhole => isClosed_iff_grouped.2 (hstands.outside hwhole)⟩
  by_contra hbroken
  exact (hstands.broken hbroken).not_isClosed hs

theorem isClosed_expr_iff_dotted :
    (∃ d i, Document.parse ⟨false, false⟩ "\x7b\x7b x|foo.bar(a + 1, ')') \x7d\x7d" = .ok d ∧ i ∈ d.sites ∧
      expr none none i.content = .ok "_jt_filters.foo.bar(x, (a + 1), ')')" ∧ Whole i.content) ∧
    ∃ d i, Document.parse ⟨false, false⟩ "\x7b\x7b x|foo.in \x7d\x7d" = .ok d ∧ i ∈ d.sites ∧
      expr none none i.content = .ok "_jt_filters.foo.in(x)" ∧ ¬ Whole i.content := by
  have hsite (source text : String)
      (h : (Document.parse ⟨false, false⟩ source).toOption.map (fun d => d.sites.map fun i =>
        (expr none none i.content).toOption) = some [some text]) :
      ∃ d i, Document.parse ⟨false, false⟩ source = .ok d ∧ i ∈ d.sites ∧
        expr none none i.content = .ok text := by
    obtain ⟨d, hd, hsites⟩ := Option.map_eq_some_iff.1 h
    obtain ⟨i, hi, htext⟩ := List.mem_map.1 (hsites ▸ List.mem_singleton_self (some text))
    refine ⟨d, i, ?_, hi, ?_⟩
    · cases hp : Document.parse ⟨false, false⟩ source with
      | error e => simp [hp, Except.toOption] at hd
      | ok d' => simpa [hp, Except.toOption] using hd
    · cases he : expr none none i.content with
      | error e => simp [he, Except.toOption] at htext
      | ok t => simpa [he, Except.toOption] using htext
  obtain ⟨d, i, hd, hi, htext⟩ := hsite
    "\x7b\x7b x|foo.bar(a + 1, ')') \x7d\x7d" "_jt_filters.foo.bar(x, (a + 1), ')')" (by decide +kernel)
  obtain ⟨d', i', hd', hi', htext'⟩ := hsite
    "\x7b\x7b x|foo.in \x7d\x7d" "_jt_filters.foo.in(x)" (by decide +kernel)
  exact ⟨⟨d, i, hd, hi, htext, (isClosed_expr_iff hd hi (by simp) (by simp) htext).1 (by decide)⟩,
    d', i', hd', hi', htext', fun hwhole =>
      absurd ((isClosed_expr_iff hd' hi' (by simp) (by simp) htext').2 hwhole) (by decide)⟩

end Stencil.Compile
