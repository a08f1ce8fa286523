import Stencil.Compile.Statement
import Stencil.Proofs.Compile.Expression
import Stencil.Proofs.Flatten.Lined

/-! The lines that statements are written as, by their texts. -/
namespace Stencil.Compile
open Template Code Text Atom Flatten

variable {s t o v w : String} {items : List String} {n : Nat} {k : LineKind} {as bs : List Atom}

/-- The text of a line. Of an assignment without a target the blank in front is left. -/
def IsLine (k : LineKind) (s : String) : Prop :=
  ∃ shift as, Lined k as ∧ (shift = 0 ∨ shift = 1 ∧ as.head? = some (symbol "=")) ∧
    s.toList = List.replicate shift ' ' ++ spell as

/-- Text without a bracket or colon of its own outside of brackets. -/
def IsPart (s : String) : Prop := ∃ as, spell as = s.toList ∧ Piece 0 as

theorem IsPhrase.part (h : IsPhrase s) : IsPart s := by
  obtain ⟨as, hs, has⟩ := h
  exact ⟨as, hs, has.toPiece⟩

theorem IsPart.glued {g : String} {mid : List Atom} (hs : IsPart s) (ht : IsPart t) (hm : Glue 0 mid)
    (hg : spell mid = g.toList) : IsPart (s ++ g ++ t) := by
  obtain ⟨as, hspell, has⟩ := hs
  obtain ⟨bs, hspell', hbs⟩ := ht
  exact ⟨_, by simp [spell_append, hspell, hspell', hg], has.glue hm hbs⟩

theorem isLine_of_lined (h : Lined k as) (hs : spell as = s.toList) : IsLine k s :=
  ⟨0, as, h, .inl rfl, by rw [hs]; rfl⟩

/-! ### Statements -/

theorem balance_eq_zero (h : steps 0 as = some 0) : balance as = 0 := by
  have := steps_balance h
  omega

theorem ender_newline : isEnder '\n' := by decide

theorem lined_piece (h : Piece 0 as) (hword : ∀ x ∈ leading? as, x ∉ headers) : Lined .statement as := by
  have hlevel := h.level 0 (Nat.le_refl 0)
  refine .statement (sound_of_steps h.mild hlevel) (h.ends _ ender_newline) h.clear
    (balance_eq_zero hlevel) ?_ hword
  obtain ⟨c, cs, hspell, hsolid⟩ := h.begins
  cases as with
  | nil => cases hspell
  | cons a as =>
    refine ⟨a, rfl, ?_⟩
    rintro rfl
    obtain ⟨rfl, -⟩ := List.cons.inj hspell
    revert hsolid
    decide

theorem leading_of_phrase (h : Phrase as) : ∀ x ∈ leading? as, x ∉ headers := by
  intro x hx hheader
  obtain ⟨a, ha, ho⟩ := h.opens
  obtain ⟨cs, hcs, rfl⟩ := leading_eq_some hx
  obtain rfl : word cs = a := Option.some.inj (hcs.symm.trans ha)
  simp [isOperand, starters, hheader] at ho

theorem isLine_phrase (h : IsPhrase s) : IsLine .statement s := by
  obtain ⟨as, hs, has⟩ := h
  exact isLine_of_lined (lined_piece has.toPiece (leading_of_phrase has)) hs

/-- The target of an assignment. A tuple has no brackets around it, so it may be empty and may begin
with a comma. -/
def IsTarget (s : String) : Prop :=
  s = "" ∨ ∃ as, spell as = s.toList ∧ Piece 0 as ∧ ∀ x ∈ leading? as, x ∉ headers

/-- A symbol with blanks around it. -/
theorem glue_spaced (hs : isMark s) (hstep : ∀ d, Atom.step d (symbol s) = some d) :
    Glue 0 [blank, symbol s, blank] := by
  have hmark := mild_symbol hs
  refine ⟨by simpa using ⟨mild_blank, hmark, mild_blank⟩, fun d _ => by simp only [steps_cons, hstep]; rfl,
    clear_cons (by simp [runtime]) (clear_cons (by simp [runtime]) (clear_single (by simp [runtime]))),
    ⟨' ', _, rfl, by decide⟩, fun c _ => ⟨rfl, ?_, rfl, True.intro⟩⟩
  rw [first_cons (show blank.chars = [' '] from rfl)]
  simp [stops, (mark_facts hs).2.2.2 ' ' (by decide)]

theorem glue_equals : Glue 0 [blank, symbol "=", blank] := glue_spaced (by decide) fun _ => rfl

theorem isLine_assignment (ht : IsTarget t) (hv : IsPhrase v) : IsLine .statement (t ++ " = " ++ v) := by
  obtain ⟨bs, hbs, hphrase⟩ := hv
  obtain rfl | ⟨as, has, hpiece, hlead⟩ := ht
  · have hpiece := (piece_symbol (s := "=") (by decide) fun _ => rfl).glue glue_blank hphrase.toPiece
    refine ⟨1, _, lined_piece hpiece (by simp [leading?]), .inr ⟨rfl, rfl⟩, ?_⟩
    simp [spell_cons, chars, hbs]
  · refine isLine_of_lined (lined_piece (hpiece.glue glue_equals hphrase.toPiece) ?_) ?_
    · rwa [leading_append hpiece.ne_nil]
    · simp [spell_append, spell_cons, chars, has, hbs]

/-! ### Targets -/

theorem IsPhrase.target (h : IsPhrase s) : IsTarget s := by
  obtain ⟨as, hs, has⟩ := h
  exact .inr ⟨as, hs, has.toPiece, leading_of_phrase has⟩

theorem piece_comma (has : as = [] ∨ Piece 0 as) (hmild : ∀ b ∈ bs, b.Mild)
    (hlevel : ∀ d, steps d bs = some d) (hclear : Clear bs) (hends : ∀ c, isEnder c → Fit bs c) :
    Piece 0 (as ++ symbol "," :: bs) := by
  have hcomma := mild_symbol (s := ",") (by decide)
  have hfirst (c : Char) : first (symbol "," :: bs) c = ',' :=
    first_cons (show (symbol ",").chars = [','] from rfl) _ _
  refine ⟨mild_append (has.elim (fun h => by simp [h]) (·.mild)) (by simpa using ⟨hcomma, hmild⟩),
    fun d _ => ?_, (has.elim (fun h => h ▸ True.intro) (·.clear) : Clear as).append
      (clear_cons (by simp [runtime]) hclear), ?_, fun c hc => ?_⟩
  · have hsteps : steps d as = some d := has.elim (fun h => by simp [h]) (·.level d (Nat.zero_le d))
    simp [hsteps, Atom.step, hlevel]
  · obtain rfl | h := has
    · exact ⟨',', spell bs, by simp [spell_cons, chars], by decide⟩
    · exact h.begins_append _
  · rw [fit_append, hfirst]
    refine ⟨has.elim (fun h => h ▸ True.intro) (·.ends ',' (by decide)), ?_, hends c hc⟩
    simp [stops, joins_final (s := ",") (by decide)]

/-- A comma keeps a target a target. -/
theorem leading_comma (has : as = [] ∨ Piece 0 as ∧ ∀ x ∈ leading? as, x ∉ headers) :
    ∀ x ∈ leading? (as ++ symbol "," :: bs), x ∉ headers := by
  obtain rfl | ⟨hpiece, hlead⟩ := has
  · simp [leading?]
  · rwa [leading_append hpiece.ne_nil]

theorem isTarget_iff : IsTarget s ↔ ∃ as, spell as = s.toList ∧
    (as = [] ∨ Piece 0 as ∧ ∀ x ∈ leading? as, x ∉ headers) := by
  constructor
  · rintro (rfl | ⟨as, hs, h⟩)
    · exact ⟨[], rfl, .inl rfl⟩
    · exact ⟨as, hs, .inr h⟩
  · rintro ⟨as, hs, rfl | h⟩
    · exact .inl (String.toList_inj.1 hs.symm)
    · exact .inr ⟨as, hs, h⟩

theorem IsTarget.comma (hs : IsTarget s) (ht : IsTarget t) : IsTarget (s ++ ", " ++ t) := by
  obtain ⟨as, hspell, has⟩ := isTarget_iff.1 hs
  obtain ⟨bs, hspell', hbs⟩ := isTarget_iff.1 ht
  refine isTarget_iff.2 ⟨as ++ symbol "," :: blank :: bs, ?_, .inr ⟨?_, leading_comma has⟩⟩
  · simp [spell_append, spell_cons, chars, hspell, hspell']
  · refine piece_comma (has.imp_right (·.1)) ?_ (fun d => ?_) (clear_cons (by simp [runtime]) ?_)
      fun c hc => ⟨rfl, ?_⟩
    · simpa using ⟨mild_blank, (hbs.elim (fun h => by simp [h]) (·.1.mild) : ∀ b ∈ bs, b.Mild)⟩
    · exact hbs.elim (fun h => h ▸ rfl) (·.1.level d (Nat.zero_le d))
    · exact hbs.elim (fun h => h ▸ True.intro) (·.1.clear)
    · exact hbs.elim (fun h => h ▸ True.intro) (·.1.ends c hc)

theorem IsTarget.single (hs : IsTarget s) : IsTarget (s ++ ",") := by
  obtain ⟨as, hspell, has⟩ := isTarget_iff.1 hs
  refine isTarget_iff.2 ⟨as ++ [symbol ","], ?_, .inr ⟨?_, leading_comma has⟩⟩
  · simp [spell_append, chars, hspell]
  · exact piece_comma (has.imp_right (·.1)) (by simp) (fun _ => rfl) True.intro fun _ _ => True.intro

theorem isTarget_commaSeparated (h : ∀ t ∈ items, IsTarget t) : IsTarget (commaSeparated items) := by
  induction items with
  | nil => exact .inl rfl
  | cons t items ih =>
    obtain ⟨ht, hitems⟩ := List.forall_mem_cons.1 h
    cases items with
    | nil => simpa [commaSeparated] using ht
    | cons u items =>
      rw [commaSeparated, String.intercalate_cons_cons]
      exact ht.comma (ih hitems)

mutual

theorem isTarget_target (slices : Bool) (e : Expr) (hw : e.Worded IsFree slices) (s : String)
    (h : target e = .ok s) : IsTarget s :=
  match e with
  | .name .. => by
    cases h
    exact (isPhrase_identifier' hw).target
  | .attrRef .. => by
    cases h
    exact ((isPhrase_identifier' hw.1).member hw.2.1).target
  | .tuple _ items => by
    rw [target] at h
    obtain ⟨ts, hts, h⟩ := bind_eq_ok.1 h
    have hall := isTarget_targets true items hw ts hts
    split at h
    · cases h
      exact (hall _ (by simp)).single
    · cases h
      exact isTarget_commaSeparated hall
  | .const .. | .data .. | .list .. | .dict .. | .cond .. | .filter .. | .test .. | .call .. | .item ..
  | .attr .. | .slice .. | .concat .. | .compare .. | .binary .. | .unary .. | .safe .. | .context ..
  | .other .. => by cases h
termination_by structural e

theorem isTarget_targets (slices : Bool) (es : List Expr) (hw : wordedAll IsFree slices es)
    (ts : List String) (h : targets es = .ok ts) : ∀ t ∈ ts, IsTarget t :=
  match es with
  | [] => by
    cases h
    simp
  | e :: es => by
    rw [targets] at h
    obtain ⟨t, ht, h⟩ := bind_eq_ok.1 h
    obtain ⟨ts, hts, h⟩ := bind_eq_ok.1 h
    cases h
    exact List.forall_mem_cons.2 ⟨isTarget_target slices e hw.1 t ht, isTarget_targets slices es hw.2 ts hts⟩
termination_by structural es

end

/-- Targets as they are read in brackets. -/
theorem IsTarget.bracketed (h : IsTarget s) : IsPhrase ("(" ++ s ++ ")") := by
  refine isPhrase_bracketed parens ?_
  obtain h | ⟨as, hs, hpiece, -⟩ := h
  · exact .inl h
  · exact .inr ⟨as, hs, hpiece.raise (Nat.zero_le 1)⟩

/-- The target of a loop. -/
theorem isPhrase_looped (e : Expr) {slices : Bool} (hw : e.Worded IsFree slices) (h : target e = .ok s) :
    IsPhrase (match e with
      | .tuple .. => "(" ++ s ++ ")"
      | _ => s) := by
  cases e with
  | name =>
    cases h
    exact isPhrase_identifier' hw
  | attrRef =>
    cases h
    exact (isPhrase_identifier' hw.1).member hw.2.1
  | tuple => exact (isTarget_target slices _ hw _ h).bracketed
  | _ => cases h

/-! ### Headers -/

theorem lined_header {cs : List Char} (hcs : isIdentifier cs) (hw : String.ofList cs ∈ headers)
    (helse : String.ofList cs ≠ "else") (h : Piece 0 as) :
    Lined .header (word cs :: blank :: as ++ [symbol ":"]) := by
  have hlead : String.ofList cs ∉ leads := by
    have hall : headers.all fun x => !leads.contains x := by decide
    simpa using List.all_eq_true.1 hall _ hw
  have hruntime : word cs ≠ runtime := by
    intro he
    rw [runtime, Atom.word.injEq] at he
    rw [he] at hw
    revert hw
    decide
  have hmild : ∀ a ∈ word cs :: blank :: as, a.Mild := by
    simpa using ⟨mild_word hcs hlead, mild_blank, h.mild⟩
  have hlevel : steps 0 (word cs :: blank :: as) = some 0 := h.level 0 (Nat.le_refl 0)
  have hcolon (c : Char) : first [symbol ":"] c = ':' :=
    first_cons (show (symbol ":").chars = [':'] from rfl) _ _
  refine .header (sound_of_steps hmild hlevel) ?_ (clear_cons hruntime (clear_cons (by simp [runtime]) h.clear))
    hlevel ⟨_, rfl, hw⟩ fun hleading => (helse (Option.some.inj hleading)).elim
  refine (fit_append ..).2 ⟨⟨?_, rfl, ?_⟩, ?_, True.intro⟩
  · exact (by decide : Token.endsName ' ' = true)
  · rw [hcolon]
    exact h.ends ':' (by decide)
  · simp [stops, (mark_facts (s := ":") (by decide)).2.2.2 '\n' ender_newline]

theorem isLine_header (hw : w ∈ headers) (helse : w ≠ "else") (h : IsPart s) :
    IsLine .header (w ++ " " ++ s ++ ":") := by
  obtain ⟨as, hs, has⟩ := h
  have hall : headers.all fun x => isIdentifier x.toList := by decide
  have hlined : Lined .header (word w.toList :: blank :: as ++ [symbol ":"]) :=
    lined_header (List.all_eq_true.1 hall w hw) (by rwa [String.ofList_toList]) (by rwa [String.ofList_toList]) has
  exact isLine_of_lined hlined (by simp [spell_append, spell_cons, chars, hs])

theorem isLine_else : IsLine .header "else:" := by
  suffices hlined : Lined .header ([word "else".toList] ++ [symbol ":"]) from isLine_of_lined hlined rfl
  refine .header ?_ ⟨?_, ?_, True.intro⟩ (clear_single (by decide)) rfl ⟨_, rfl, by decide⟩ fun _ => rfl
  · have hmild : (word "else".toList).Mild := mild_word (by decide) (by decide)
    exact sound_of_steps (d := 0) (e := 0) (by simpa using hmild) rfl
  · exact (by decide : Token.endsName ':' = true)
  · simp [stops, (mark_facts (s := ":") (by decide)).2.2.2 '\n' ender_newline]

/-! ### Functions -/

/-- The name of a function or buffer of generated code. -/
structure IsMade (s : String) : Prop where
  identifier : isIdentifier s.toList
  reserved : Flatten.isReserved s
  notRuntime : s ≠ "_jt_rt"

theorem IsMade.isPhrase (h : IsMade s) : IsPhrase s := by
  refine isPhrase_identifier h.identifier ?_ h.notRuntime
  have hall : keywords.all fun k => !Flatten.isReserved k := by decide
  by_contra hk
  simp only [isKeyword, List.contains_eq_mem, Bool.not_eq_false, decide_eq_true_eq] at hk
  simpa [h.reserved] using List.all_eq_true.1 hall s hk

theorem isMade_outputBuffer : IsMade outputBuffer := ⟨by decide, by decide, by decide⟩

/-- A name with a number behind it. -/
theorem isMade_numbered (hs : isIdentifier s.toList) (hr : Flatten.isReserved s)
    (hl : ¬ s.toList <+: "_jt_rt".toList) (n : Nat) : IsMade (s ++ toString n) where
  identifier := by
    refine isIdentifier_append hs fun c hc => continue_of_isDigit ?_
    rw [Nat.toString_eq_repr, Nat.toList_repr] at hc
    exact Nat.isDigit_of_mem_toDigits (by decide) le_rfl hc
  reserved := by
    rw [Flatten.isReserved, List.isPrefixOf_iff_prefix] at hr ⊢
    rw [String.toList_append]
    exact hr.trans (List.prefix_append ..)
  notRuntime h := hl ⟨(toString n).toList, by rw [← String.toList_append, h]⟩

theorem isMade_bufferName (n : Nat) : IsMade (bufferName n) :=
  isMade_numbered (s := "_jt_buf") (by decide) (by decide) (by decide) n

theorem isMade_callerName (n : Nat) : IsMade (callerName n) :=
  isMade_numbered (s := "_jt_caller_") (by decide) (by decide) (by decide) n

theorem isPiece_annotated (hs : IsPiece s) (ht : IsPiece t) : IsPiece (s ++ ": " ++ t) :=
  hs.glued ht glue_colon rfl

theorem isPhrase_word {s : String} (h : (isIdentifier s.toList && !isKeyword s && s != "_jt_rt") = true) :
    IsPhrase s := by
  simp only [Bool.and_eq_true, Bool.not_eq_true', bne_iff_ne] at h
  exact isPhrase_identifier h.1.1 h.1.2 h.2

theorem isPhrase_anyType : IsPhrase anyType :=
  (isPhrase_word (s := "typing") (by decide)).member (t := "Any") (by decide)

theorem isPiece_declaration (h : IsFree s) : IsPiece (declaration s anyType) :=
  isPiece_annotated (isPhrase_identifier' h).piece isPhrase_anyType.piece

theorem isPhrase_none : IsPhrase "None" := phrase_literal .none

theorem isPiece_parameterText (h : IsFree s) {default : Option String} (hd : Given IsPhrase default) :
    IsPiece (parameterText s default) := by
  refine (isPiece_declaration h).glued ?_ (glue_raise glue_equals) rfl
  cases default with
  | none => exact isPhrase_none.piece
  | some t => exact (hd t rfl).piece

theorem isPiece_starred (o : String) (ho : o ∈ ["*", "**", "-", "+"]) (s : String)
    (h : (isIdentifier s.toList && !isKeyword s && s != "_jt_rt") = true) :
    IsPiece (o ++ s ++ ": " ++ anyType) :=
  isPiece_annotated ((isPhrase_word h).signed ho) isPhrase_anyType.piece

theorem isPiece_caller : IsPiece "caller: _jt_rt.Caller = _jt_rt.no_caller" := by
  have hname : IsPhrase "caller" := isPhrase_word (by decide)
  have htype : IsPhrase ("_jt_rt." ++ "Caller") := isPhrase_drawn (by decide) (by decide)
  have hvalue : IsPhrase ("_jt_rt." ++ "no_caller") := isPhrase_drawn (by decide) (by decide)
  have hpiece := (isPiece_annotated hname.piece htype.piece).glued (g := " = ") hvalue.piece
    (glue_raise glue_equals) rfl
  have htext : "caller: _jt_rt.Caller = _jt_rt.no_caller" =
      "caller" ++ ": " ++ ("_jt_rt." ++ "Caller") ++ " = " ++ ("_jt_rt." ++ "no_caller") := by decide
  rwa [htext]

theorem isPiece_parameters {params defaults used : List String} {allowCaller : Bool} (hp : ∀ s ∈ params, IsFree s)
    (hd : ∀ t ∈ defaults, IsPhrase t) : parameters allowCaller params defaults used = "" ∨
      IsPiece (parameters allowCaller params defaults used) := by
  refine isPiece_commaSeparated fun t ht => ?_
  simp only [List.mem_append, List.mem_map] at ht
  obtain ((⟨p, hp', rfl⟩ | ht) | ht) | ht := ht
  · refine isPiece_parameterText (hp _ (List.of_mem_zip hp').1) fun t ht => ?_
    have hmem := (List.of_mem_zip hp').2
    rw [Option.mem_def.1 ht] at hmem
    simp only [List.mem_append, List.mem_replicate, List.mem_map, reduceCtorEq, and_false, false_or,
      Option.some.injEq, exists_eq_right] at hmem
    exact hd t hmem
  · split at ht
    · obtain rfl := List.mem_singleton.1 ht
      exact isPiece_starred "*" (by simp) "varargs" (by decide)
    · split at ht
      · obtain rfl := List.mem_singleton.1 ht
        exact isPiece_symbol (by decide) fun _ => rfl
      · cases ht
  · split at ht
    · obtain rfl := List.mem_singleton.1 ht
      exact isPiece_caller
    · cases ht
  · split at ht
    · obtain rfl := List.mem_singleton.1 ht
      exact isPiece_starred "**" (by simp) "kwargs" (by decide)
    · cases ht

theorem glue_arrow : Glue 0 [blank, symbol "->", blank] := glue_spaced (by decide) fun _ => rfl

/-- The header of a function. -/
theorem isLine_functionHeader (h : IsPhrase s) (hp : t = "" ∨ IsPiece t) :
    IsLine .header (functionHeader s t) := by
  have hpart := (h.applied parens (.inl rfl) hp).part.glued (isPhrase_word (s := "str") (by decide)).part
    (g := " -> ") glue_arrow rfl
  have hline := isLine_header (w := "def") (by decide) (by decide) hpart
  have htext : functionHeader s t = "def" ++ " " ++ (s ++ "(" ++ t ++ ")" ++ " -> " ++ "str") ++ ":" := by
    simp [functionHeader, ← String.toList_inj]
  rwa [htext]

/-! ### Buffers -/

/-- The type and the value of a new buffer. -/
def bufferParts : List Atom :=
  [blank, word "list".toList, symbol "[", word "str".toList, symbol "]", blank, symbol "=", blank,
    symbol "[", symbol "]"]

theorem mild_bufferParts : ∀ a ∈ bufferParts, a.Mild := by
  have hlist : (word "list".toList).Mild := mild_word (by decide) (by decide)
  have hstr : (word "str".toList).Mild := mild_word (by decide) (by decide)
  have hopen : (symbol "[").Mild := mild_symbol (by decide)
  have hclose : (symbol "]").Mild := mild_symbol (by decide)
  have hequals : (symbol "=").Mild := mild_symbol (by decide)
  simpa [bufferParts] using ⟨mild_blank, hlist, hopen, hstr, hclose, mild_blank, hequals, mild_blank,
    hopen, hclose⟩

theorem fit_bufferParts : Fit bufferParts '\n' := by
  simp only [bufferParts, Fit]
  decide

theorem isLine_opened (h : IsMade s) : IsLine .statement (opened s) := by
  have hword : Sound (word s.toList) :=
    ⟨mild_word h.identifier (by rw [String.ofList_toList]; exact not_lead_of_isReserved h.reserved), by simp⟩
  have hcolon : Sound (symbol ":") := ⟨mild_symbol (by decide), by simp⟩
  have hrest : ∀ a ∈ bufferParts, Sound a := sound_of_steps (d := 0) (e := 0) mild_bufferParts rfl
  have hruntime : word s.toList ≠ runtime := fun he => h.notRuntime (by
    rw [runtime, Atom.word.injEq] at he
    exact String.toList_inj.1 he)
  have hspell : spell (word s.toList :: symbol ":" :: bufferParts) = (opened s).toList := by
    simp [opened, spell_cons, chars, bufferParts]
  refine isLine_of_lined (.statement ?_ ?_ ?_ rfl ⟨_, rfl, by simp⟩ fun x hx hheader => ?_) hspell
  · simpa using ⟨hword, hcolon, hrest⟩
  · exact ⟨(by decide : Token.endsName ':' = true), (rfl : (!Token.joins ":" ' ') = true), fit_bufferParts⟩
  · exact clear_cons hruntime (clear_cons (by simp [runtime]) (by simp [Clear, bufferParts, runtime]))
  · obtain rfl : s = x := by simpa [leading?] using hx
    have hall : headers.all fun x => !Flatten.isReserved x := by decide
    simpa [h.reserved] using List.all_eq_true.1 hall s hheader

theorem isPhrase_joined (h : IsMade s) : IsPhrase (joined s) := by
  have hbreak : isLineBreak '"' = false := by decide
  have hempty : IsPhrase "\"\"" :=
    ⟨_, spell_single (quoted ['"', '"']), phrase_quoted ⟨'"', [], by decide, rfl, .nil⟩ (by simp [hbreak])⟩
  have hjoin := (hempty.member (t := "join") (by decide)).applied parens (.inl rfl) (.inr h.isPhrase.piece)
  have htext : "\"\".join(" = "\"\"" ++ "." ++ "join" ++ "(" := rfl
  rwa [joined, htext]

theorem isLine_epilogue : IsLine .statement epilogue := by
  obtain ⟨as, hs, has⟩ := isPhrase_joined isMade_outputBuffer
  have hpiece : Piece 0 [word "return".toList] := piece_word (by decide) (by decide) (by decide)
  refine isLine_of_lined (lined_piece (hpiece.glue glue_blank has.toPiece) ?_) ?_
  · rw [leading_append (by simp)]
    decide
  · have hepilogue : epilogue = "return" ++ " " ++ joined outputBuffer := by decide
    rw [hepilogue, String.toList_append, String.toList_append, ← hs]
    simp [spell_cons, chars]

theorem isLine_append (h : IsMade s) (ht : IsPhrase t) : IsLine .statement (append s t) := by
  have happend := (h.isPhrase.member (t := "append") (by decide)).applied parens (.inl rfl)
    (.inr ht.piece)
  have htext : append s t = s ++ "." ++ "append" ++ "(" ++ t ++ ")" := by
    simp [append, ← String.toList_inj]
  exact htext ▸ isLine_phrase happend

/-! ### Directives -/

theorem isLine_directive {d : Directive} {path : String} (h : Settled d path)
    (hs : spell (directiveParts d.kind path) = s.toList) : IsLine (.directive d) s :=
  isLine_of_lined (.directive h) hs

theorem isLine_extends (path : String) :
    IsLine (.directive ⟨.extends_, Path.ofString path⟩) ("_jt_rt.extends(" ++ quote path ++ ")") := by
  refine isLine_directive ⟨rfl, by simp⟩ ?_
  simp [directiveParts, spell_cons, chars, runtime]

theorem isLine_include (path : String) (hb : IsMade s) :
    IsLine (.directive ⟨.include_ s, Path.ofString path⟩)
      (append s ("_jt_rt.include(" ++ quote path ++ ")")) := by
  refine isLine_directive ⟨rfl, fun b hb' => ?_⟩ ?_
  · obtain rfl : s = b := by simpa using hb'
    exact ⟨hb.identifier, hb.reserved, hb.notRuntime⟩
  · simp [directiveParts, spell_cons, chars, runtime, append]

/-! ### Loops, conditions and imports -/

/-- A keyword that may stand between values. -/
theorem isPart_keyword (h : isIdentifier s.toList) (hs : s ∉ leads) (hr : s ≠ "_jt_rt") : IsPart s := by
  refine ⟨_, spell_single (word s.toList), piece_word h (by rwa [String.ofList_toList]) fun he => hr ?_⟩
  rw [runtime, Atom.word.injEq] at he
  exact String.toList_inj.1 he

/-- A statement of one word. -/
theorem isLine_word {cs : List Char} (h : isIdentifier cs)
    (hs : String.ofList cs ∉ leads ∧ String.ofList cs ∉ headers) (hr : word cs ≠ runtime) :
    IsLine .statement (String.ofList cs) := by
  refine isLine_of_lined (lined_piece (piece_word h hs.1 hr) fun x hx => ?_) (by simp [chars])
  obtain rfl : String.ofList cs = x := by simpa [leading?] using hx
  exact hs.2

/-- A function of the runtime module with one argument. -/
theorem isPhrase_runtime (h : isIdentifier s.toList) (hs : s ≠ "extends" ∧ s ≠ "include") (ht : IsPhrase t) :
    IsPhrase ("_jt_rt." ++ s ++ "(" ++ t ++ ")") :=
  (isPhrase_drawn h hs).applied parens (.inl rfl) (.inr ht.piece)

theorem isLine_loopHeader (ht : IsPhrase t) (hs : IsPhrase s) : IsLine .header (loopHeader t s) := by
  have hloop : IsPart "loop" := isPart_keyword (by decide) (by decide) (by decide)
  have hin : IsPart "in" := isPart_keyword (by decide) (by decide) (by decide)
  have hsource := isPhrase_runtime (s := "loop") (by decide) (by decide) hs
  have hpart := ((hloop.glued (g := ", ") ht.part glue_comma rfl).glued (g := " ") hin glue_blank rfl).glued
    (g := " ") hsource.part glue_blank rfl
  have htext : loopHeader t s = "for" ++ " " ++ ("loop" ++ ", " ++ t ++ " " ++ "in" ++ " " ++
      ("_jt_rt." ++ "loop" ++ "(" ++ s ++ ")")) ++ ":" := by
    simp [loopHeader, ← String.toList_inj]
  rw [htext]
  exact isLine_header (by decide) (by decide) hpart

theorem isLine_condition (hw : w ∈ headers) (helse : w ≠ "else") (h : IsPhrase s) :
    IsLine .header (w ++ " " ++ s ++ ":") :=
  isLine_header hw helse h.part

theorem isLine_unless (h : IsPhrase s) : IsLine .header ("if not " ++ s ++ ":") := by
  have hnot : IsPart "not" := isPart_keyword (by decide) (by decide) (by decide)
  have htext : "if not " ++ s ++ ":" = "if" ++ " " ++ ("not" ++ " " ++ s) ++ ":" := by
    simp [← String.toList_inj]
  rw [htext]
  exact isLine_header (by decide) (by decide) (hnot.glued h.part glue_blank rfl)

theorem isLine_elseHeader (h : IsPhrase s) : IsLine .header (elseHeader s) := by
  have hempty := isPhrase_runtime (s := "empty") (by decide) (by decide) h
  have hstart : "if _jt_rt.empty(" = "if" ++ " " ++ ("_jt_rt." ++ "empty" ++ "(") := by decide
  have hend : "):" = ")" ++ ":" := by decide
  have htext : elseHeader s = "if" ++ " " ++ ("_jt_rt." ++ "empty" ++ "(" ++ s ++ ")") ++ ":" :=
    calc elseHeader s = "if" ++ " " ++ ("_jt_rt." ++ "empty" ++ "(") ++ s ++ (")" ++ ":") :=
          congrArg₂ (· ++ s ++ ·) hstart hend
      _ = _ := by simp only [String.append_assoc]
  rw [htext]
  exact isLine_condition (by decide) (by decide) hempty

theorem isPhrase_importText (h : IsPhrase s) : IsPhrase (importText s) := by
  have hcall := isPhrase_runtime (s := "import_template") (by decide) (by decide) h
  have htext : "_jt_rt." ++ "import_template" ++ "(" = "_jt_rt.import_template(" := by decide
  rwa [htext] at hcall

theorem isPhrase_shown (h : IsPhrase s) : IsPhrase (shown s) := by
  have hstr : IsPhrase "str" := isPhrase_word (by decide)
  have htext : shown s = "str" ++ "(" ++ s ++ ")" := by simp [shown]
  rw [htext]
  exact hstr.applied parens (.inl rfl) (.inr h.piece)

/-- A call without arguments. -/
theorem IsPhrase.called (h : IsPhrase s) : IsPhrase (s ++ "()") := by
  have hcall := h.applied parens (.inl rfl) (s := "") (.inl rfl)
  have htext : s ++ "(" ++ "" ++ ")" = s ++ "()" := by simp [← String.toList_inj]
  rwa [htext] at hcall

end Stencil.Compile
