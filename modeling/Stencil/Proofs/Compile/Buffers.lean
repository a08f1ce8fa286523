import Stencil.Compile.Statement
import Stencil.Proofs.Code.Occurs
import Stencil.Proofs.Compile.Grouped

/-!
The buffers in the text of an expression. Names of templates are no buffers, so an expression has none but
those of the text that its filters are applied to.
-/
namespace Stencil.Compile
open Template Code Text Token Grouping

variable {s t f o g w : String} {items args bs : List String} {block input : Option String} {slices : Bool}

/-- Holds of the names of buffers. -/
def isBuffer (w : String) : Bool :=
  w == outputBuffer || ("_jt_buf".toList.isPrefixOf w.toList && (w.toList.drop 7).all Char.isDigit)

theorem isBuffer_bufferName (n : Nat) : isBuffer (bufferName n) := by
  have htext : bufferName n = "_jt_buf" ++ toString n := rfl
  have hdigits : ∀ c ∈ (toString n).toList, c.isDigit := fun c hc => by
    rw [Nat.toString_eq_repr, Nat.toList_repr] at hc
    exact Nat.isDigit_of_mem_toDigits (by decide) le_rfl hc
  simp only [isBuffer, htext, String.toList_append, Bool.or_eq_true, Bool.and_eq_true, List.isPrefixOf_iff_prefix,
    List.all_eq_true]
  exact .inr ⟨List.prefix_append .., hdigits⟩

/-- Buffers have the prefix of generated names. -/
theorem reserved_of_isBuffer (h : isBuffer w) : "_jt_".toList <+: w.toList := by
  simp only [isBuffer, Bool.or_eq_true, Bool.and_eq_true, beq_iff_eq, List.isPrefixOf_iff_prefix] at h
  obtain rfl | ⟨h, -⟩ := h
  · decide
  · exact (by decide : "_jt_".toList <+: "_jt_buf".toList).trans h

theorem not_isBuffer_of_isFree (h : IsFree s) : isBuffer s = false :=
  Bool.eq_false_iff.2 fun hs => h.2 (reserved_of_isBuffer hs)

/-- A name that begins with neither the one nor the other, nor with a part of them. -/
theorem not_isBuffer_of_prefix {p : List Char}
    (hp : ¬ p <+: outputBuffer.toList ∧ ¬ p <+: "_jt_buf".toList ∧ ¬ "_jt_buf".toList <+: p) (h : p <+: w.toList) :
    isBuffer w = false := by
  refine Bool.eq_false_iff.2 fun hw => ?_
  simp only [isBuffer, Bool.or_eq_true, Bool.and_eq_true, beq_iff_eq, List.isPrefixOf_iff_prefix] at hw
  obtain rfl | ⟨hw, -⟩ := hw
  · exact hp.1 h
  · exact (List.prefix_or_prefix_of_prefix h hw).elim hp.2.1 hp.2.2

theorem not_isBuffer_blockFunction (s : String) (n : Nat) : isBuffer (blockFunction s n) = false :=
  not_isBuffer_of_prefix (p := blockStem.toList) (by decide) (by simp [blockFunction])

/-- All buffers in a text are among these. -/
def Covered (bs : List String) (s : String) : Prop := ∀ w ∈ wordsOf s, isBuffer w → w ∈ bs

/-- Text that can stand inside brackets, with no other buffers than these. -/
structure Uses (bs : List String) (s : String) : Prop where
  grouped : Grouped 1 s
  covered : Covered bs s

theorem covered_of_words (h : wordsOf s = []) : Covered bs s := by simp [Covered, h]

theorem Covered.append (hs : Covered bs s) (ht : Covered bs t) (h : wordsOf (s ++ t) = wordsOf s ++ wordsOf t) :
    Covered bs (s ++ t) := by
  rw [Covered, h]
  exact List.forall_mem_append.2 ⟨hs, ht⟩

theorem Covered.mono {bs' : List String} (h : Covered bs s) (hbs : bs ⊆ bs') : Covered bs' s :=
  fun w hw hb => hbs (h w hw hb)

namespace Uses

theorem append (hs : Uses bs s) (ht : Uses bs t) (hd : Delimits t) : Uses bs (s ++ t) :=
  ⟨hs.grouped.append ht.grouped hd, hs.covered.append ht.covered (words_append hs.grouped hd)⟩

/-- Something that begins no word in front of a text. -/
theorem after (hs : Ended 1 s) (hw : Covered bs s) (ht : Uses bs t) : Uses bs (s ++ t) :=
  ⟨hs.append ht.grouped, hw.append ht.covered (words_append_of_ended hs t)⟩

theorem name (h : isIdentifier s.toList) (hb : isBuffer s → s ∈ bs) : Uses bs s :=
  ⟨grouped_name h (by simp), by simpa [Covered, words_name h] using hb⟩

/-- A name of the language or of the modules that generated code imports. -/
theorem word (h : isIdentifier s.toList && !isBuffer s) : Uses bs s := by
  simp only [Bool.and_eq_true, Bool.not_eq_true'] at h
  exact name h.1 (by simp [h.2])

theorem quote (s : String) : Uses bs (Text.quote s) :=
  ⟨(ended_quote _).grouped, covered_of_words (words_quote s)⟩

theorem empty : Uses bs "" := ⟨ended_empty.grouped, covered_of_words rfl⟩

theorem mark_words : ∀ g ∈ "." :: marks, (wordsOf g).all fun w => !isBuffer w := by decide

theorem mark (bs : List String) (hg : g ∈ "." :: marks) : Ended 1 g ∧ Delimits g ∧ Covered bs g := by
  have hcovered : Covered bs g := fun w hw hb => by
    simpa [hb] using List.all_eq_true.1 (mark_words g hg) w hw
  obtain rfl | hg := List.mem_cons.1 hg
  · exact ⟨ended_dot, delimits_dot, hcovered⟩
  · exact ⟨ended_mark hg, delimits_mark hg, hcovered⟩

/-- Two texts with a point or a mark between them. -/
theorem glue (hs : Uses bs s) (ht : Uses bs t) (hg : g ∈ "." :: marks) : Uses bs (s ++ g ++ t) := by
  obtain ⟨hended, hdelimits, hcovered⟩ := mark bs hg
  rw [String.append_assoc]
  exact hs.append (after hended hcovered ht) (hdelimits.append t)

/-- A mark behind a text. -/
theorem marked (hs : Uses bs s) (hg : g ∈ "." :: marks) : Uses bs (s ++ g) := by
  obtain ⟨hended, hdelimits, hcovered⟩ := mark bs hg
  exact hs.append ⟨hended.grouped, hcovered⟩ hdelimits

theorem bracketed {l r : String} (hs : Uses bs s) (hb : (l, r) ∈ bracketPairs) : Uses bs (l ++ s ++ r) := by
  refine ⟨(hs.grouped.bracketed hb).raise.grouped, ?_⟩
  obtain ⟨hdelimits, hclose, hopen⟩ : Delimits r ∧ wordsOf r = [] ∧ ∀ t, wordsOf (l ++ t) = wordsOf t := by
    simp only [bracketPairs, List.mem_cons, Prod.mk.injEq, List.not_mem_nil, or_false] at hb
    obtain ⟨rfl, rfl⟩ | ⟨rfl, rfl⟩ | ⟨rfl, rfl⟩ := hb
    all_goals exact ⟨⟨_, [], rfl, by decide⟩, rfl, fun t => by rw [wordsOf, String.toList_append]; rfl⟩
  rw [Covered, String.append_assoc, hopen]
  exact hs.covered.append (covered_of_words hclose) (words_append hs.grouped hdelimits)

theorem parens (hs : Uses bs s) : Uses bs ("(" ++ s ++ ")") := hs.bracketed (by simp [bracketPairs])

/-- Arguments or an index behind a text. -/
theorem applied {l r : String} (hs : Uses bs s) (ht : Uses bs t) (hb : (l, r) ∈ bracketPairs) (hl : l = "(" ∨ l = "[") :
    Uses bs (s ++ l ++ t ++ r) := by
  have happlied := hs.append (ht.bracketed hb) (by
    rw [String.append_assoc]
    exact delimits_bracketed hl (t ++ r))
  simpa only [String.append_assoc] using happlied

theorem called (hs : Uses bs s) (ht : Uses bs t) : Uses bs (s ++ "(" ++ t ++ ")") :=
  hs.applied ht (by simp [bracketPairs]) (.inl rfl)

theorem intercalate (h : ∀ t ∈ items, Uses bs t) (hg : g ∈ "." :: marks) : Uses bs (g.intercalate items) := by
  induction items with
  | nil => exact empty
  | cons t items ih =>
    obtain ⟨ht, hitems⟩ := List.forall_mem_cons.1 h
    cases items with
    | nil => simpa using ht
    | cons u items =>
      rw [String.intercalate_cons_cons]
      exact ht.glue (ih hitems) hg

theorem commaSeparated (h : ∀ t ∈ items, Uses bs t) : Uses bs (Compile.commaSeparated items) :=
  intercalate h (by simp [marks])

theorem call (hf : Uses bs f) (h : ∀ t ∈ items, Uses bs t) : Uses bs (callText f items) :=
  hf.called (commaSeparated h)

end Uses

/-! ### Names and constants -/

theorem uses_identifier (h : IsFree s) : Uses bs (identifier s) :=
  .word (by simp [h.identifier.1.1, not_isBuffer_of_isFree h.identifier.1])

theorem IsFree.uses (h : IsFree s) : Uses bs s := .word (by simp [h.1, not_isBuffer_of_isFree h])

theorem uses_loadName (h : IsFree s) : Uses bs (loadName s) := by
  unfold loadName
  split
  · exact (Uses.word (s := "_jt_rt") (by decide)).glue h.uses List.mem_cons_self
  · exact uses_identifier h

theorem uses_blockFunction (h : isIdentifier s.toList) (n : Nat) : Uses bs (blockFunction s n) :=
  .word (by simp [isIdentifier_blockFunction h, not_isBuffer_blockFunction])

/-- No number has a sign that buffers have. -/
theorem underscore_write (l : Decimal.Layout) (p : Int) {ds : List Char} (h : ∀ c ∈ ds, c.isDigit) :
    '_' ∉ l.write ds p := by
  have hds : '_' ∉ ds := fun hmem => absurd (h _ hmem) (by decide)
  have hexponent (e : Int) : '_' ∉ Decimal.exponentText e := by
    have hdigits : '_' ∉ Nat.toDigits 10 e.natAbs := fun hmem => absurd (Decimal.isDigit_toDigits hmem) (by decide)
    simp only [Decimal.exponentText, List.mem_cons, not_or]
    constructor
    · split <;> decide
    · split
      · simp [hdigits]
      · exact hdigits
  unfold Decimal.Layout.write
  split
  · split
    · simp [hds]
    · dsimp only
      split
      · simp [hds]
      · simp only [List.mem_append, List.mem_cons, not_or]
        exact ⟨fun hmem => hds (List.mem_of_mem_take hmem), by decide, fun hmem => hds (List.mem_of_mem_drop hmem)⟩
  · cases ds with
    | nil => simp
    | cons d rest =>
      have hrest : '_' ∉ rest := fun hmem => hds (List.mem_cons_of_mem _ hmem)
      have hd : '_' ≠ d := fun he => hds (he ▸ List.mem_cons_self)
      dsimp only
      split <;> simp [hd, hrest, hexponent]

theorem underscore_literal {value : Const} (h : ∀ ps, value ≠ .str ps) : '_' ∉ value.literal.toList := by
  have hdigits (m : Nat) : '_' ∉ Nat.toDigits 10 m := fun hmem => absurd (Decimal.isDigit_toDigits hmem) (by decide)
  cases value with
  | none => decide
  | bool b => cases b <;> decide
  | int n =>
    cases n with
    | ofNat m => simp [Const.literal, Int.toString_eq_repr, Int.repr, Nat.toList_repr, hdigits]
    | negSucc m => simp [Const.literal, Int.toString_eq_repr, Int.repr, Nat.toList_repr, hdigits]
  | float x =>
    have hbody : '_' ∉ (if (Decimal.Fields.ofFloat x).exponent == 2047 then
          (if (Decimal.Fields.ofFloat x).fraction == 0 then "inf".toList else "nan".toList)
        else if (Decimal.Fields.ofFloat x).exponent == 0 && (Decimal.Fields.ofFloat x).fraction == 0 then "0.0".toList
        else
          let s := (Decimal.Binary.ofFields (Decimal.Fields.ofFloat x).exponent
            (Decimal.Fields.ofFloat x).fraction).shortest
          Decimal.plain.write (Decimal.significantDigits s.digits)
            ((Nat.toDigits 10 s.digits).length + s.exponent)) := by
      split
      · split <;> decide
      · split
        · decide
        · exact underscore_write _ _ fun c hc => Decimal.isDigit_significantDigits hc
    simp only [Const.literal, Decimal.floatText]
    split
    · rw [String.toList_ofList, List.mem_cons, not_or]
      exact ⟨by decide, hbody⟩
    · rwa [String.toList_ofList]
  | str ps => exact (h ps rfl).elim

theorem uses_literal (value : Const) : Uses bs value.literal := by
  refine ⟨(stands_literal value).inside, ?_⟩
  by_cases h : ∃ ps, value = .str ps
  · obtain ⟨ps, rfl⟩ := h
    exact covered_of_words (words_literal (literal_quotePoints ps).1)
  · intro w hw hb
    have hunderscore : '_' ∈ w.toList := (reserved_of_isBuffer hb).subset (by decide)
    exact absurd (mem_of_mem_words hw hunderscore) (underscore_literal fun ps hv => h ⟨ps, hv⟩)

/-! ### Parts put together -/

theorem uses_tuple (h : ∀ t ∈ items, Uses bs t) : Uses bs (tupleText items) := by
  unfold tupleText
  split
  · next item =>
    have hitem := ((h item (by simp)).marked (g := ",") (by simp [marks])).parens
    simpa only [String.append_assoc, show ",)" = "," ++ ")" from rfl] using hitem
  · exact (Uses.commaSeparated h).parens

theorem uses_signed (hs : Uses bs s) (hg : g ∈ ["*", "**", "-", "+"]) : Uses bs (g ++ s) := by
  refine .after (ended_sign hg) (covered_of_words ?_) hs
  simp only [List.mem_cons, List.not_mem_nil, or_false] at hg
  obtain rfl | rfl | rfl | rfl := hg <;> rfl

theorem uses_argumentTexts {rest restNamed : Option String} {named : List (String × String)}
    (ha : ∀ t ∈ args, Uses bs t) (hr : Given (Uses bs) rest) (hn : ∀ n ∈ named, Uses bs n.1 ∧ Uses bs n.2)
    (hrn : Given (Uses bs) restNamed) : ∀ t ∈ argumentTexts args rest named restNamed, Uses bs t := by
  intro t ht
  simp only [argumentTexts, List.mem_append, List.mem_map, List.mem_filter, Option.mem_toList] at ht
  obtain (((ht | ht) | ⟨n, ⟨hmem, -⟩, rfl⟩) | ht) | ht := ht
  · exact ha t ht
  · obtain ⟨u, hu, rfl⟩ := Option.map_eq_some_iff.1 ht
    exact uses_signed (hr u hu) (by simp)
  · exact (hn n hmem).1.glue (hn n hmem).2 (by simp [marks])
  · split at ht
    · cases ht
    · obtain rfl := List.mem_singleton.1 ht
      have hitems : ∀ t ∈ (named.filter fun n => isKeyword n.1).map fun n => Text.quote n.1 ++ ": " ++ n.2,
          Uses bs t := by
        simp only [List.mem_map, List.mem_filter, forall_exists_index, and_imp]
        rintro _ n hmem - rfl
        exact (Uses.quote n.1).glue (hn n hmem).2 (by simp [marks])
      have hdict := (Uses.commaSeparated hitems).bracketed (l := "\x7b") (r := "\x7d") (by simp [bracketPairs])
      have hspread := uses_signed (g := "**") hdict (by simp)
      simpa only [String.append_assoc, show "**\x7b" = "**" ++ "\x7b" from rfl] using hspread
  · obtain ⟨u, hu, rfl⟩ := Option.map_eq_some_iff.1 ht
    exact uses_signed (hrn u hu) (by simp)

theorem uses_getD (h : Given (Uses bs) input) (ht : Uses bs t) : Uses bs (input.getD t) := by
  cases input with
  | none => exact ht
  | some u => exact h u rfl

theorem uses_sliceText {start stop step : Option String} (hstart : Given (Uses bs) start)
    (hstop : Given (Uses bs) stop) (hstep : Given (Uses bs) step) : Uses bs (sliceText start stop step) := by
  have hbounds := (uses_getD hstart .empty).glue (uses_getD hstop .empty) (g := ":") (by simp [marks])
  cases step with
  | none => exact hbounds
  | some u => exact hbounds.glue (hstep u rfl) (by simp [marks])

theorem uses_operator {op : String}
    (h : op ∈ ["+", "-", "*", "/", "//", "%", "**", "==", "!=", ">", ">=", "<", "<=", "and", "or", "in",
      "not in"]) :
    Uses bs op := by
  refine ⟨grouped_operator h, fun w hw hb => ?_⟩
  have hall : ["+", "-", "*", "/", "//", "%", "**", "==", "!=", ">", ">=", "<", "<=", "and", "or", "in",
      "not in"].all fun op => (wordsOf op).all fun w => !isBuffer w := by decide
  simpa [hb] using List.all_eq_true.1 (List.all_eq_true.1 hall op h) w hw

theorem uses_binaryOp (op : BinaryOp) : Uses bs op.text := by
  cases op <;> exact uses_operator (by decide)

theorem uses_compareOp (op : CompareOp) : Uses bs op.text := by
  cases op <;> exact uses_operator (by decide)

theorem uses_unary (op : UnaryOp) (h : Uses bs s) : Uses bs (unaryText op s) := by
  cases op
  case not =>
    have hnot := ((Uses.word (s := "not") (by decide)).glue h (g := " ") (by simp [marks])).parens
    simpa only [unaryText, String.append_assoc, show "(not " = "(" ++ ("not" ++ " ") from rfl] using hnot
  case neg =>
    have hneg := (uses_signed (g := "-") h (by simp)).parens
    simpa only [unaryText, String.append_assoc, show "(-" = "(" ++ "-" from rfl] using hneg
  case pos =>
    have hpos := (uses_signed (g := "+") h (by simp)).parens
    simpa only [unaryText, String.append_assoc, show "(+" = "(" ++ "+" from rfl] using hpos

theorem uses_attributeText (ho : Uses bs o) (hs : IsFree s) : Uses bs (attributeText o s) := by
  unfold attributeText
  split
  · have hitems : ∀ t ∈ [o, Text.quote s], Uses bs t := by simpa using ⟨ho, .quote s⟩
    have hcall := Uses.call (Uses.word (s := "getattr") (by decide)) hitems
    simpa [callText, commaSeparated, String.intercalate_cons_cons, String.append_assoc] using hcall
  · exact ho.glue hs.uses List.mem_cons_self

/-! ### Filters and tests -/

theorem dotted_runtimeAttribute (h : Dotted IsFree s) : Dotted IsFree (runtimeAttribute s) := by
  unfold Code.runtimeAttribute
  split
  · next hs =>
    have hall : (keywords ++ builtinNames).all fun s =>
        isIdentifier (s ++ "_").toList && !"_jt_".toList.isPrefixOf (s ++ "_").toList := by decide +kernel
    have hname := List.all_eq_true.1 hall s (by simpa [Code.isReserved, isKeyword] using hs)
    simp only [Bool.and_eq_true, Bool.not_eq_true', ← Bool.not_eq_true, List.isPrefixOf_iff_prefix] at hname
    exact IsFree.dotted hname
  · exact h

theorem dotted_testName (h : Dotted IsFree s) : Dotted IsFree (testName s) := by
  have hall : ["eq", "ne", "lt", "le", "gt", "ge"].all fun s =>
      isIdentifier s.toList && !"_jt_".toList.isPrefixOf s.toList := by decide
  have hname (s : String) (hs : s ∈ ["eq", "ne", "lt", "le", "gt", "ge"]) : Dotted IsFree s := by
    have hname := List.all_eq_true.1 hall s hs
    simp only [Bool.and_eq_true, Bool.not_eq_true', ← Bool.not_eq_true, List.isPrefixOf_iff_prefix] at hname
    exact IsFree.dotted hname
  unfold testName
  split
  case h_7 => exact h
  all_goals exact hname _ (by simp)

theorem uses_parts (css : List (List Char)) (ho : Uses bs o) (h : ∀ cs ∈ css, IsFree (String.ofList cs)) :
    Uses bs (o ++ String.ofList (css.flatMap ('.' :: ·))) := by
  induction css generalizing o with
  | nil => simpa using ho
  | cons cs css ih =>
    obtain ⟨hcs, hcss⟩ := List.forall_mem_cons.1 h
    have hparts := ih (ho.glue hcs.uses (g := ".") List.mem_cons_self) hcss
    have htext : o ++ "." ++ String.ofList cs ++ String.ofList (css.flatMap ('.' :: ·)) =
        o ++ String.ofList ((cs :: css).flatMap ('.' :: ·)) := by
      rw [← String.toList_inj]
      simp
    rwa [htext] at hparts

/-- A name with points in it, behind a text. -/
theorem uses_dotted (ho : Uses bs o) (hs : Dotted IsFree s) : Uses bs (o ++ "." ++ s) := by
  have hparts := uses_parts (Text.splitAt (· == '.') s.toList) ho fun cs hcs =>
    hs _ (List.mem_map_of_mem hcs)
  rw [← splitAt_append] at hparts
  have htext : o ++ String.ofList ('.' :: s.toList) = o ++ "." ++ s := by
    rw [← String.toList_inj]
    simp
  rwa [htext] at hparts

theorem uses_superCall {line : Line} (hb : ∀ n ∈ block, IsFree n) (h : superCall block line = .ok s) : Uses bs s := by
  cases block with
  | none => cases h
  | some name =>
    cases h
    have hname : Uses bs (blockFunction name 1) := uses_blockFunction (hb name rfl).1 1
    have hcall := hname.called .empty
    simpa only [String.append_assoc, String.empty_append, show "(" ++ ")" = "()" from rfl] using hcall

/-! ### Expressions -/

section Trees

mutual

/-- An expression has no buffers but those of its input. -/
theorem uses_expr (hb : ∀ n ∈ block, IsFree n) (input : Option String) (hi : Given (Uses bs) input)
    (slices : Bool) (e : Expr) (hw : e.Worded IsFree slices) (s : String)
    (h : expr block input e = .ok s) : Uses bs s :=
  match e with
  | .name .. => by
    rw [expr] at h
    cases h
    exact uses_loadName hw
  | .attrRef .. => by
    rw [expr] at h
    cases h
    exact (uses_identifier hw.1).glue hw.2.uses List.mem_cons_self
  | .const _ value => by
    rw [expr] at h
    cases h
    exact uses_literal value
  | .data _ text => by
    rw [expr] at h
    cases h
    exact .quote text
  | .tuple _ items => by
    rw [expr] at h
    obtain ⟨ts, hts, h⟩ := bind_eq_ok.1 h
    cases h
    exact uses_tuple (uses_exprs hb true items hw ts hts)
  | .list _ items => by
    rw [expr] at h
    obtain ⟨ts, hts, h⟩ := bind_eq_ok.1 h
    cases h
    exact (Uses.commaSeparated (uses_exprs hb false items hw ts hts)).bracketed (by simp [bracketPairs])
  | .dict _ items => by
    rw [expr] at h
    obtain ⟨ts, hts, h⟩ := bind_eq_ok.1 h
    cases h
    exact (Uses.commaSeparated (uses_pairs hb items hw ts hts)).bracketed (by simp [bracketPairs])
  | .cond _ test body otherwise => by
    rw [expr] at h
    obtain ⟨o, ho, h⟩ := bind_eq_ok.1 h
    obtain ⟨b, hbody, h⟩ := bind_eq_ok.1 h
    obtain ⟨t, ht, h⟩ := bind_eq_ok.1 h
    cases h
    have hotherwise : Uses bs (o.getD "None") :=
      uses_getD (uses_option hb otherwise hw.2.2 o ho) (.word (by decide))
    have hif := (uses_expr hb none (by simp [Given]) false body hw.2.1 b hbody).glue (g := " if ")
      (uses_expr hb none (by simp [Given]) false test hw.1 t ht) (by simp [marks])
    have hcond := (hif.glue hotherwise (g := " else ") (by simp [marks])).parens
    simpa only [String.append_assoc] using hcond
  | .filter line operand name args named rest restNamed => by
    rw [expr] at h
    obtain ⟨o, ho, h⟩ := bind_eq_ok.1 h
    obtain ⟨as, has, h⟩ := bind_eq_ok.1 h
    obtain ⟨r, hr, h⟩ := bind_eq_ok.1 h
    obtain ⟨ns, hns, h⟩ := bind_eq_ok.1 h
    obtain ⟨rn, hrn, h⟩ := bind_eq_ok.1 h
    cases h
    obtain ⟨hwo, hwname, hwargs, hwnamed, hwrest, hwrestNamed⟩ := hw
    have hoperand := uses_filterOperand hb input hi line name operand hwo o ho
    have hargs := uses_argumentTexts (uses_exprs hb false args hwargs as has)
      (uses_option hb rest hwrest r hr) (uses_named hb named hwnamed ns hns)
      (uses_option hb restNamed hwrestNamed rn hrn)
    exact (uses_dotted (.word (s := "_jt_filters") (by decide)) (dotted_runtimeAttribute hwname)).call
      (List.forall_mem_cons.2 ⟨hoperand, hargs⟩)
  | .test _ operand name args named rest restNamed => by
    rw [expr] at h
    obtain ⟨o, ho, h⟩ := bind_eq_ok.1 h
    obtain ⟨as, has, h⟩ := bind_eq_ok.1 h
    obtain ⟨r, hr, h⟩ := bind_eq_ok.1 h
    obtain ⟨ns, hns, h⟩ := bind_eq_ok.1 h
    obtain ⟨rn, hrn, h⟩ := bind_eq_ok.1 h
    cases h
    obtain ⟨hwo, hwname, hwargs, hwnamed, hwrest, hwrestNamed⟩ := hw
    have hoperand := uses_expr hb input hi false operand hwo o ho
    have hargs := uses_argumentTexts (uses_exprs hb false args hwargs as has)
      (uses_option hb rest hwrest r hr) (uses_named hb named hwnamed ns hns)
      (uses_option hb restNamed hwrestNamed rn hrn)
    exact (uses_dotted (.word (s := "_jt_tests") (by decide))
      (dotted_runtimeAttribute (dotted_testName hwname))).call (List.forall_mem_cons.2 ⟨hoperand, hargs⟩)
  | .call line callee args named rest restNamed => by
    rw [expr] at h
    split at h
    · exact uses_superCall hb h
    · obtain ⟨f, hf, h⟩ := bind_eq_ok.1 h
      obtain ⟨as, has, h⟩ := bind_eq_ok.1 h
      obtain ⟨r, hr, h⟩ := bind_eq_ok.1 h
      obtain ⟨ns, hns, h⟩ := bind_eq_ok.1 h
      obtain ⟨rn, hrn, h⟩ := bind_eq_ok.1 h
      cases h
      obtain ⟨hwf, hwargs, hwnamed, hwrest, hwrestNamed⟩ := hw
      have hargs := uses_argumentTexts (uses_exprs hb false args hwargs as has)
        (uses_option hb rest hwrest r hr) (uses_named hb named hwnamed ns hns)
        (uses_option hb restNamed hwrestNamed rn hrn)
      exact (uses_expr hb none (by simp [Given]) false callee hwf f hf).call hargs
  | .item _ owner index => by
    rw [expr] at h
    obtain ⟨o, ho, h⟩ := bind_eq_ok.1 h
    obtain ⟨i, hindex, h⟩ := bind_eq_ok.1 h
    cases h
    exact (uses_expr hb none (by simp [Given]) false owner hw.1 o ho).applied
      (uses_expr hb none (by simp [Given]) true index hw.2 i hindex) (by simp [bracketPairs]) (.inr rfl)
  | .attr _ owner attr => by
    rw [expr] at h
    split at h
    · cases h
      exact uses_blockFunction hw.2.1 0
    · obtain ⟨o, ho, h⟩ := bind_eq_ok.1 h
      cases h
      exact uses_attributeText (uses_expr hb none (by simp [Given]) false owner hw.1 o ho) hw.2
  | .slice _ start stop stride => by
    rw [expr] at h
    obtain ⟨a, ha, h⟩ := bind_eq_ok.1 h
    obtain ⟨b, hb', h⟩ := bind_eq_ok.1 h
    obtain ⟨c, hc, h⟩ := bind_eq_ok.1 h
    cases h
    exact uses_sliceText (uses_option hb start hw.2.1 a ha) (uses_option hb stop hw.2.2.1 b hb')
      (uses_option hb stride hw.2.2.2 c hc)
  | .concat _ items => by
    rw [expr] at h
    obtain ⟨ts, hts, h⟩ := bind_eq_ok.1 h
    cases h
    exact ((Uses.word (s := "_jt_rt") (by decide)).glue (.word (s := "concat") (by decide)) (g := ".")
      List.mem_cons_self).call (uses_exprs hb false items hw ts hts)
  | .compare _ first others => by
    rw [expr] at h
    obtain ⟨f, hf, h⟩ := bind_eq_ok.1 h
    obtain ⟨ts, hts, h⟩ := bind_eq_ok.1 h
    cases h
    have hfirst := uses_expr hb none (by simp [Given]) false first hw.1 f hf
    exact (Uses.intercalate (List.forall_mem_cons.2 ⟨hfirst, uses_comparisons hb others hw.2 ts hts⟩)
      (by simp [marks])).parens
  | .binary _ op left right => by
    rw [expr] at h
    obtain ⟨l, hl, h⟩ := bind_eq_ok.1 h
    obtain ⟨r, hr, h⟩ := bind_eq_ok.1 h
    cases h
    have hspace : " " ∈ "." :: marks := by simp [marks]
    have hinside := ((uses_expr hb none (by simp [Given]) false left hw.1 l hl).glue (uses_binaryOp op) hspace).glue
      (uses_expr hb none (by simp [Given]) false right hw.2 r hr) hspace
    simpa only [String.append_assoc] using hinside.parens
  | .unary _ op operand => by
    rw [expr] at h
    obtain ⟨o, ho, h⟩ := bind_eq_ok.1 h
    cases h
    exact uses_unary op (uses_expr hb none (by simp [Given]) false operand hw o ho)
  | .safe _ value => by
    rw [expr] at h
    exact uses_expr hb none (by simp [Given]) false value hw s h
  | .context _ => by
    rw [expr] at h
    cases h
    have hfunction := (Uses.word (by decide) : Uses bs "_jt_rt").glue (.word (s := "context") (by decide))
      (g := ".") List.mem_cons_self
    exact hfunction.called .empty
  | .other .. => by
    rw [expr] at h
    cases h
termination_by structural e

theorem uses_filterOperand (hb : ∀ n ∈ block, IsFree n) (input : Option String) (hi : Given (Uses bs) input)
    (line : Line) (name : String) (e : Option Expr) (hw : wordedOption IsFree e) (s : String)
    (h : filterOperand block input line name e = .ok s) : Uses bs s :=
  match e with
  | some e => uses_expr hb input hi false e hw s h
  | none => by
    cases input with
    | none => cases h
    | some t =>
      cases h
      exact hi _ rfl
termination_by structural e

theorem uses_exprs (hb : ∀ n ∈ block, IsFree n) (slices : Bool) (es : List Expr) (hw : wordedAll IsFree slices es)
    (ts : List String) (h : exprs block es = .ok ts) : ∀ t ∈ ts, Uses bs t :=
  match es with
  | [] => by
    cases h
    simp
  | e :: es => by
    rw [exprs] at h
    obtain ⟨t, ht, h⟩ := bind_eq_ok.1 h
    obtain ⟨us, hus, h⟩ := bind_eq_ok.1 h
    cases h
    exact List.forall_mem_cons.2 ⟨uses_expr hb none (by simp [Given]) slices e hw.1 t ht,
      uses_exprs hb slices es hw.2 us hus⟩
termination_by structural es

theorem uses_option (hb : ∀ n ∈ block, IsFree n) (e : Option Expr) (hw : wordedOption IsFree e)
    (t : Option String) (h : option block e = .ok t) : Given (Uses bs) t :=
  match e with
  | none => by
    cases h
    simp [Given]
  | some e => by
    rw [option] at h
    obtain ⟨u, hu, h⟩ := bind_eq_ok.1 h
    cases h
    simpa [Given] using uses_expr hb none (by simp [Given]) false e hw u hu
termination_by structural e

theorem uses_pairs (hb : ∀ n ∈ block, IsFree n) (es : List (Expr × Expr)) (hw : wordedPairs IsFree es)
    (ts : List String) (h : pairs block es = .ok ts) : ∀ t ∈ ts, Uses bs t :=
  match es with
  | [] => by
    cases h
    simp
  | (key, value) :: es => by
    rw [pairs] at h
    obtain ⟨k, hk, h⟩ := bind_eq_ok.1 h
    obtain ⟨v, hv, h⟩ := bind_eq_ok.1 h
    obtain ⟨us, hus, h⟩ := bind_eq_ok.1 h
    cases h
    refine List.forall_mem_cons.2 ⟨?_, uses_pairs hb es hw.2.2 us hus⟩
    exact (uses_expr hb none (by simp [Given]) false key hw.1 k hk).glue
      (uses_expr hb none (by simp [Given]) false value hw.2.1 v hv) (by simp [marks])
termination_by structural es

theorem uses_named (hb : ∀ n ∈ block, IsFree n) (es : List (String × Expr)) (hw : wordedNamed IsFree es)
    (ts : List (String × String)) (h : namedArguments block es = .ok ts) :
    ∀ t ∈ ts, Uses bs t.1 ∧ Uses bs t.2 :=
  match es with
  | [] => by
    cases h
    simp
  | (name, e) :: es => by
    rw [namedArguments] at h
    obtain ⟨t, ht, h⟩ := bind_eq_ok.1 h
    obtain ⟨us, hus, h⟩ := bind_eq_ok.1 h
    cases h
    exact List.forall_mem_cons.2 ⟨⟨hw.1.uses, uses_expr hb none (by simp [Given]) false e hw.2.1 t ht⟩,
      uses_named hb es hw.2.2 us hus⟩
termination_by structural es

theorem uses_comparisons (hb : ∀ n ∈ block, IsFree n) (es : List (CompareOp × Expr)) (hw : wordedOperands IsFree es)
    (ts : List String) (h : comparisons block es = .ok ts) : ∀ t ∈ ts, Uses bs t :=
  match es with
  | [] => by
    cases h
    simp
  | (op, e) :: es => by
    rw [comparisons] at h
    obtain ⟨t, ht, h⟩ := bind_eq_ok.1 h
    obtain ⟨us, hus, h⟩ := bind_eq_ok.1 h
    cases h
    exact List.forall_mem_cons.2 ⟨uses_compareOp op, List.forall_mem_cons.2
      ⟨uses_expr hb none (by simp [Given]) false e hw.1 t ht, uses_comparisons hb es hw.2 us hus⟩⟩
termination_by structural es

end

/-- Arguments behind those of a call are all that a call has besides. -/
theorem uses_callWith (hb : ∀ n ∈ block, IsFree n) {extra : List String} (hextra : ∀ t ∈ extra, Uses bs t)
    (e : Expr) (hw : e.Worded IsFree false) (h : callWith block extra e = .ok s) : Uses bs s := by
  cases e
  case call line callee args named rest restNamed =>
    rw [callWith] at h
    split at h
    · exact uses_superCall hb h
    · obtain ⟨f, hf, h⟩ := bind_eq_ok.1 h
      obtain ⟨as, has, h⟩ := bind_eq_ok.1 h
      obtain ⟨r, hr, h⟩ := bind_eq_ok.1 h
      obtain ⟨ns, hns, h⟩ := bind_eq_ok.1 h
      obtain ⟨rn, hrn, h⟩ := bind_eq_ok.1 h
      cases h
      obtain ⟨hwf, hwargs, hwnamed, hwrest, hwrestNamed⟩ := hw
      have hgiven : ∀ t ∈ as, Uses bs t := uses_exprs hb false args hwargs as has
      have hargs := uses_argumentTexts hgiven (uses_option hb rest hwrest r hr) (uses_named hb named hwnamed ns hns)
        (uses_option hb restNamed hwrestNamed rn hrn)
      exact (uses_expr hb none (by simp [Given]) false callee hwf f hf).call (List.forall_mem_append.2 ⟨hargs, hextra⟩)
  all_goals cases h

mutual

theorem uses_target {slices : Bool} (e : Expr) (hw : e.Worded IsFree slices) (s : String)
    (h : target e = .ok s) : Uses bs s :=
  match e with
  | .name .. => by
    cases h
    exact uses_identifier hw
  | .attrRef .. => by
    cases h
    exact (uses_identifier hw.1).glue hw.2.uses List.mem_cons_self
  | .tuple _ items => by
    rw [target] at h
    obtain ⟨ts, hts, h⟩ := bind_eq_ok.1 h
    have hitems := uses_targets items hw ts hts
    split at h
    · next item =>
      cases h
      exact (hitems item (by simp)).marked (by simp [marks])
    · cases h
      exact .commaSeparated hitems
  | .const .. | .data .. | .list .. | .dict .. | .cond .. | .filter .. | .test .. | .call .. | .item .. | .attr ..
  | .slice .. | .concat .. | .compare .. | .binary .. | .unary .. | .safe .. | .context .. | .other .. => by
    cases h
termination_by structural e

theorem uses_targets {slices : Bool} (es : List Expr) (hw : wordedAll IsFree slices es) (ts : List String)
    (h : targets es = .ok ts) : ∀ t ∈ ts, Uses bs t :=
  match es with
  | [] => by
    cases h
    simp
  | e :: es => by
    rw [targets] at h
    obtain ⟨t, ht, h⟩ := bind_eq_ok.1 h
    obtain ⟨us, hus, h⟩ := bind_eq_ok.1 h
    cases h
    exact List.forall_mem_cons.2 ⟨uses_target e hw.1 t ht, uses_targets es hw.2 us hus⟩
termination_by structural es

end

end Trees

end Stencil.Compile
