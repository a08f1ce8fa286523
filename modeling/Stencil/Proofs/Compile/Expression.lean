import Stencil.Compile.Expression
import Stencil.Proofs.Compile.Constant
import Stencil.Proofs.Template.Worded

/-! Expressions are written as values, whatever is put into brackets or behind points. -/
namespace Stencil.Compile
open Template Code Text Atom

variable {s t o c f g : String} {items : List String} {n : Nat}

/-- A name that is not kept for generated code. -/
def IsFree (s : String) : Prop := isIdentifier s.toList ∧ ¬ "_jt_".toList <+: s.toList

/-- Text that can stand inside brackets. -/
def IsPiece (s : String) : Prop := ∃ as, spell as = s.toList ∧ Piece 1 as

/-- Text of a value. -/
def IsPhrase (s : String) : Prop := ∃ as, spell as = s.toList ∧ Phrase as

theorem IsPhrase.piece (h : IsPhrase s) : IsPiece s := by
  obtain ⟨as, hs, has⟩ := h
  exact ⟨as, hs, has.raise (Nat.zero_le 1)⟩

/-! ### Names -/

theorem keywords_reserved : keywords.all fun k => isIdentifier (k ++ "_").toList &&
    !isKeyword (k ++ "_") && !"_jt_".toList.isPrefixOf (k ++ "_").toList := by decide

theorem leads_keywords : (Flatten.leads ++ starters).all fun k => k == "@" || isKeyword k := by
  decide

theorem isPhrase_identifier (h : isIdentifier s.toList) (hk : isKeyword s = false) (hr : s ≠ "_jt_rt") :
    IsPhrase s := by
  have hne (l : String) (hl : l ∈ Flatten.leads ++ starters) : s ≠ l := by
    rintro rfl
    have := List.all_eq_true.1 leads_keywords s hl
    simp only [hk, Bool.or_false, beq_iff_eq] at this
    rw [this] at h
    revert h
    decide
  refine ⟨[word s.toList], by simp [chars], phrase_word h ?_ ?_ ?_⟩
  · rw [String.ofList_toList]
    exact fun hl => hne s (by simp [hl]) rfl
  · rw [String.ofList_toList]
    exact fun hl => hne s (by simp [hl]) rfl
  · intro he
    exact hr (String.toList_inj.1 (by simpa [runtime] using he))

theorem ne_runtime (h : ¬ "_jt_".toList <+: s.toList) : s ≠ "_jt_rt" := by
  rintro rfl
  exact h (by decide)

/-- A name as a variable. -/
theorem IsFree.identifier (h : IsFree s) : IsFree (identifier s) ∧ isKeyword (identifier s) = false := by
  unfold Code.identifier
  split
  · next hk =>
    have := List.all_eq_true.1 keywords_reserved s (by simpa [isKeyword] using hk)
    simp only [Bool.and_eq_true, Bool.not_eq_true'] at this
    refine ⟨⟨this.1.1, fun hp => ?_⟩, this.1.2⟩
    rw [← List.isPrefixOf_iff_prefix, this.2] at hp
    cases hp
  · next hk => exact ⟨h, by simpa using hk⟩

theorem IsFree.isPhrase (h : IsFree s) (hk : isKeyword s = false) : IsPhrase s :=
  isPhrase_identifier h.1 hk (ne_runtime h.2)

theorem isPhrase_identifier' (h : IsFree s) : IsPhrase (identifier s) :=
  h.identifier.1.isPhrase h.identifier.2

theorem isIdentifier_append (h : isIdentifier s.toList) (ht : ∀ c ∈ t.toList, isIdentifierContinue c) :
    isIdentifier (s ++ t).toList := by
  rw [String.toList_append]
  cases hs : s.toList with
  | nil => simp [hs, isIdentifier] at h
  | cons c cs =>
    simp only [hs, isIdentifier, Bool.and_eq_true, List.all_eq_true] at h
    simp only [List.cons_append, isIdentifier, Bool.and_eq_true, List.all_eq_true]
    exact ⟨h.1, List.forall_mem_append.2 ⟨h.2, ht⟩⟩

theorem superSuffixes_continue (n : Nat) : ∀ c ∈ (superSuffixes n).toList, isIdentifierContinue c := by
  have hsuffix : superSuffix.toList.all isIdentifierContinue := by decide
  induction n with
  | zero => simp [superSuffixes]
  | succ n ih =>
    rw [superSuffixes, String.toList_append]
    exact List.forall_mem_append.2 ⟨ih, List.all_eq_true.1 hsuffix⟩

/-- The name of a block's function. -/
theorem isIdentifier_blockFunction (h : isIdentifier s.toList) (n : Nat) :
    isIdentifier (blockFunction s n).toList := by
  have hs := continue_of_mem_identifier h
  exact isIdentifier_append (isIdentifier_append (s := blockStem) (by decide) hs) (superSuffixes_continue n)

theorem blockStem_prefix (s : String) (n : Nat) : "_jt_b".toList <+: (blockFunction s n).toList :=
  ⟨"lock_".toList ++ (s.toList ++ (superSuffixes n).toList), by
    simp only [blockFunction, String.toList_append, List.append_assoc]
    rfl⟩

theorem isPhrase_blockFunction (h : isIdentifier s.toList) (n : Nat) : IsPhrase (blockFunction s n) := by
  have hprefix := blockStem_prefix s n
  refine isPhrase_identifier (isIdentifier_blockFunction h n) ?_ ?_
  · have hall : keywords.all fun k => !"_jt_b".toList.isPrefixOf k.toList := by decide
    by_contra hk
    simp only [isKeyword, List.contains_eq_mem, Bool.not_eq_false, decide_eq_true_eq] at hk
    have := List.all_eq_true.1 hall _ hk
    rw [Bool.not_eq_true', ← Bool.not_eq_true, List.isPrefixOf_iff_prefix] at this
    exact this hprefix
  · intro he
    rw [he] at hprefix
    revert hprefix
    decide

theorem isPhrase_drawn (h : isIdentifier s.toList) (hs : s ≠ "extends" ∧ s ≠ "include") :
    IsPhrase ("_jt_rt." ++ s) := by
  refine ⟨[runtime, member s.toList], by simp [spell_cons, runtime, chars], phrase_drawn h ?_⟩
  simp only [isDrawn, Bool.and_eq_true, bne_iff_ne]
  exact ⟨fun he => hs.1 (String.toList_inj.1 he), fun he => hs.2 (String.toList_inj.1 he)⟩

/-- A name that is loaded. -/
theorem isPhrase_loadName (h : IsFree s) : IsPhrase (loadName s) := by
  unfold loadName
  split
  · next hs =>
    refine isPhrase_drawn h.1 ?_
    simp only [runtimeGlobals, List.contains_eq_mem, List.mem_cons, List.not_mem_nil, or_false,
      decide_eq_true_eq] at hs
    obtain rfl | rfl | rfl | rfl := hs <;> decide
  · exact isPhrase_identifier' h

/-! ### Parts put together -/

theorem IsPhrase.member (h : IsPhrase s) (ht : isIdentifier t.toList) : IsPhrase (s ++ "." ++ t) := by
  obtain ⟨as, hs, has⟩ := h
  obtain ⟨bs, hbs, hphrase⟩ := has.member ht
  exact ⟨bs, by rw [hbs, hs]; simp, hphrase⟩

theorem isPhrase_quote (ps : Points) : IsPhrase (quotePoints ps) := by
  obtain ⟨hliteral, hbreak⟩ := literal_quotePoints ps
  exact ⟨_, by simp [chars], phrase_quoted hliteral hbreak⟩

theorem isPhrase_bracketed (h : Brackets o c) (hs : s = "" ∨ IsPiece s) : IsPhrase (o ++ s ++ c) := by
  obtain rfl | ⟨as, hspell, has⟩ := hs
  · exact ⟨_, by simp [spell_cons, chars], h.phrase (.inl rfl)⟩
  · exact ⟨_, by simp [spell_cons, spell_append, chars, hspell], h.phrase (.inr has)⟩

theorem IsPhrase.applied (h : IsPhrase f) (hb : Brackets o c) (ho : o = "(" ∨ o = "[")
    (hs : s = "" ∨ IsPiece s) : IsPhrase (f ++ o ++ s ++ c) := by
  obtain ⟨fs, hf, hfs⟩ := h
  obtain rfl | ⟨as, hspell, has⟩ := hs
  · exact ⟨_, by simp [spell_cons, spell_append, chars, hf], hfs.applied hb ho (.inl rfl)⟩
  · exact ⟨_, by simp [spell_cons, spell_append, chars, hspell, hf], hfs.applied hb ho (.inr has)⟩

theorem IsPhrase.signed (h : IsPhrase s) (ho : o ∈ ["*", "**", "-", "+"]) : IsPiece (o ++ s) := by
  obtain ⟨as, hs, has⟩ := h
  exact ⟨_, by simp [spell_cons, chars, hs], (has.signed ho).raise (Nat.zero_le 1)⟩

theorem IsPiece.glued {mid : List Atom} (hs : IsPiece s) (ht : IsPiece t) (hm : Glue 1 mid)
    (hg : spell mid = g.toList) : IsPiece (s ++ g ++ t) := by
  obtain ⟨as, hspell, has⟩ := hs
  obtain ⟨bs, hspell', hbs⟩ := ht
  exact ⟨_, by simp [spell_append, hspell, hspell', hg], has.glue hm hbs⟩

theorem glue_raise {mid : List Atom} (h : Glue 0 mid) : Glue 1 mid :=
  { h with level := fun d _ => h.level d (Nat.zero_le d) }

/-- Parts with the same text between them. -/
theorem isPiece_intercalate {mid : List Atom} (hm : Glue 0 mid) (hg : spell mid = g.toList)
    (h : ∀ t ∈ items, IsPiece t) : g.intercalate items = "" ∨ IsPiece (g.intercalate items) := by
  induction items with
  | nil => exact .inl rfl
  | cons t items ih =>
    cases items with
    | nil => exact .inr (by simpa using h t (by simp))
    | cons u items =>
      refine .inr ?_
      rw [String.intercalate_cons_cons]
      refine (h t (by simp)).glued ?_ (glue_raise hm) hg
      obtain hempty | hpiece := ih fun v hv => h v (by simp [hv])
      · obtain ⟨as, hspell, has⟩ := h u (by simp)
        have hu : u = "" := by
          cases items with
          | nil => simpa using hempty
          | cons v items =>
            rw [String.intercalate_cons_cons] at hempty
            have := congrArg String.toList hempty
            simp only [String.toList_append, String.toList_empty, List.append_eq_nil_iff] at this
            exact String.toList_inj.1 this.1.1
        obtain ⟨c, cs, hc, -⟩ := has.begins
        simp [hspell, hu] at hc
      · exact hpiece

theorem isPiece_commaSeparated (h : ∀ t ∈ items, IsPiece t) :
    commaSeparated items = "" ∨ IsPiece (commaSeparated items) :=
  isPiece_intercalate glue_comma rfl h

theorem isPhrase_call {l : List String} (hf : IsPhrase f) (h : ∀ t ∈ l, IsPiece t) :
    IsPhrase (callText f l) :=
  hf.applied parens (.inl rfl) (isPiece_commaSeparated h)

theorem IsPiece.spaced (hs : IsPiece s) (ht : IsPiece t) : IsPiece (s ++ " " ++ t) :=
  hs.glued ht (glue_raise glue_blank) rfl

theorem isPhrase_tuple (h : ∀ t ∈ items, IsPiece t) : IsPhrase (tupleText items) := by
  unfold tupleText
  split
  · next item =>
    obtain ⟨as, hspell, has⟩ := h item (by simp)
    have hcomma := mild_symbol (s := ",") (by decide)
    have hpiece : Piece 1 (as ++ [symbol ","]) := by
      refine ⟨mild_append has.mild (by simpa using hcomma), fun d hd => ?_,
        has.clear.append (clear_single (by simp [runtime])), has.begins_append _, fun c hc => ?_⟩
      · simp [has.level d hd, Atom.step]
      · refine (fit_append ..).2 ⟨?_, fit_final (by decide) c⟩
        rw [first_cons (show (symbol ",").chars = [','] from rfl)]
        exact has.ends ',' (by decide)
    have := isPhrase_bracketed parens (s := item ++ ",") (.inr ⟨_, by simp [spell_append, hspell, chars], hpiece⟩)
    simpa [String.append_assoc] using this
  · exact isPhrase_bracketed parens (isPiece_commaSeparated h)

/-! ### Arguments, attributes and slices -/

theorem isPiece_named (hs : IsFree s) (hk : isKeyword s = false) (ht : IsPhrase t) :
    IsPiece (s ++ "=" ++ t) := by
  obtain ⟨as, hspell, has⟩ := ht
  have hlead : String.ofList s.toList ∉ Flatten.leads := by
    rw [String.ofList_toList]
    intro hl
    have := List.all_eq_true.1 leads_keywords s (List.mem_append_left _ hl)
    simp only [hk, Bool.or_false, beq_iff_eq] at this
    rw [this] at hs
    exact absurd hs.1 (by decide)
  refine ⟨_, by simp [spell_cons, chars, hspell], (has.named hs.1 hlead ?_).raise (Nat.zero_le 1)⟩
  intro he
  exact ne_runtime hs.2 (String.toList_inj.1 (by simpa [runtime] using he))

/-- Texts of optional parts. -/
def Given (p : String → Prop) (s : Option String) : Prop := ∀ t ∈ s, p t

theorem isPiece_argumentTexts {args : List String} {rest restNamed : Option String}
    {named : List (String × String)} (ha : ∀ t ∈ args, IsPiece t) (hr : Given IsPhrase rest)
    (hn : ∀ n ∈ named, IsFree n.1 ∧ IsPhrase n.2) (hrn : Given IsPhrase restNamed) :
    ∀ t ∈ argumentTexts args rest named restNamed, IsPiece t := by
  have hdict (unusual : List (String × String)) (hu : ∀ n ∈ unusual, IsPhrase n.2) :
      IsPiece ("**\x7b" ++ commaSeparated (unusual.map fun n => Text.quote n.1 ++ ": " ++ n.2) ++ "\x7d") := by
    have hitems : ∀ t ∈ unusual.map fun n => Text.quote n.1 ++ ": " ++ n.2, IsPiece t := by
      simp only [List.mem_map, forall_exists_index, and_imp]
      rintro _ n hn rfl
      exact (isPhrase_quote _).piece.glued (hu n hn).piece glue_colon rfl
    have := (isPhrase_bracketed braces (isPiece_commaSeparated hitems)).signed (o := "**") (by simp)
    simpa only [String.append_assoc, show "**\x7b" = "**" ++ "\x7b" from rfl] using this
  simp only [argumentTexts]
  intro t ht
  simp only [List.mem_append, List.mem_map, List.mem_filter, Option.mem_toList] at ht
  obtain (((ht | ht) | ⟨n, ⟨hmem, hk⟩, rfl⟩) | ht) | ht := ht
  · exact ha t ht
  · obtain ⟨u, hu, rfl⟩ := Option.map_eq_some_iff.1 ht
    exact (hr u hu).signed (by simp)
  · exact isPiece_named (hn n hmem).1 (by simpa using hk) (hn n hmem).2
  · split at ht
    · cases ht
    · obtain rfl := List.mem_singleton.1 ht
      exact hdict _ fun n hmem => (hn n (List.mem_filter.1 hmem).1).2
  · obtain ⟨u, hu, rfl⟩ := Option.map_eq_some_iff.1 ht
    exact (hrn u hu).signed (by simp)

theorem isPhrase_attributeText (h : IsPhrase o) (hs : isIdentifier s.toList) :
    IsPhrase (attributeText o s) := by
  unfold attributeText
  split
  · have hcall := isPhrase_call (f := "getattr") (l := [o, Text.quote s])
      (isPhrase_identifier (by decide) (by decide) (by decide)) (by
        simpa using ⟨h.piece, (isPhrase_quote _).piece⟩)
    simpa [callText, commaSeparated, String.intercalate_cons_cons, String.append_assoc] using hcall
  · exact h.member hs

theorem isPiece_sliceText {start stop step : Option String} (hstart : Given IsPhrase start)
    (hstop : Given IsPhrase stop) (hstep : Given IsPhrase step) : IsPiece (sliceText start stop step) := by
  have hpart (s : Option String) (hs : Given IsPhrase s) : ∃ as, spell as = (s.getD "").toList ∧
      (as = [] ∨ Piece 1 as) ∧ ∀ c, isEnder c → first as c ≠ '=' := by
    have hender : ∀ c, isEnder c → c ≠ '=' := by
      rintro c hc rfl
      revert hc
      decide
    cases s with
    | none => exact ⟨[], rfl, .inl rfl, hender⟩
    | some t =>
      obtain ⟨as, hspell, has⟩ := hs t rfl
      refine ⟨as, hspell, .inr (has.raise (Nat.zero_le 1)), fun c _ he => ?_⟩
      have := has.isOpener_first c
      rw [he] at this
      revert this
      decide
  obtain ⟨as, has, hpiece, -⟩ := hpart start hstart
  obtain ⟨bs, hbs, hpiece', hfirst'⟩ := hpart stop hstop
  unfold sliceText
  cases step with
  | none =>
    exact ⟨_, by simp [spell_append, spell_cons, chars, has, hbs], piece_colon hpiece hpiece' hfirst'⟩
  | some u =>
    obtain ⟨cs, hcs, hpiece'', hfirst''⟩ := hpart (some u) hstep
    have htail := piece_colon hpiece' hpiece'' hfirst''
    refine ⟨as ++ symbol ":" :: (bs ++ symbol ":" :: cs), ?_, piece_colon hpiece (.inr htail) fun c hc => ?_⟩
    · rw [Option.getD_some] at hcs
      simp [spell_append, spell_cons, chars, has, hbs, hcs]
    · rw [first_append]
      refine hfirst' _ ?_
      rw [first_cons (show (symbol ":").chars = [':'] from rfl)]
      decide

/-! ### Filters and tests -/

theorem splitAt_append (cs : List Char) :
    '.' :: cs = (Text.splitAt (· == '.') cs).flatMap ('.' :: ·) := by
  induction cs with
  | nil => rfl
  | cons c cs ih =>
    rw [Text.splitAt]
    split
    · next h => rw [List.flatMap_cons, ← ih, beq_iff_eq.1 h]; rfl
    · split
      · next h => simp [h] at ih
      · next h =>
        rw [h, List.flatMap_cons, List.cons_append, List.cons.injEq] at ih
        rw [List.flatMap_cons, List.cons_append, List.cons_append, ← ih.2]

/-- A name with points in it, behind a value. -/
theorem IsPhrase.dotted (h : IsPhrase o) (hs : Dotted (isIdentifier ·.toList) s) : IsPhrase (o ++ "." ++ s) := by
  have hparts (css : List (List Char)) (hcss : ∀ cs ∈ css, isIdentifier cs) (u : String) (hu : IsPhrase u) :
      IsPhrase (u ++ String.ofList (css.flatMap ('.' :: ·))) := by
    induction css generalizing u with
    | nil => simpa using hu
    | cons cs css ih =>
      have := ih (fun ds hds => hcss ds (by simp [hds])) _ (hu.member (t := String.ofList cs) (by
        simpa using hcss cs (by simp)))
      convert this using 1
      rw [← String.toList_inj]
      simp
  have := hparts (Text.splitAt (· == '.') s.toList) (fun cs hcs => by
    simpa using hs (String.ofList cs) (List.mem_map_of_mem hcs)) o h
  rw [← splitAt_append] at this
  convert this using 1
  rw [← String.toList_inj]
  simp

/-- What holds no separator lengthens the last part. -/
theorem splitAt_lengthened (cs ds : List Char) (h : ∀ d ∈ ds, d ≠ '.') :
    ∃ us u, Text.splitAt (· == '.') cs = us ++ [u] ∧ Text.splitAt (· == '.') (cs ++ ds) = us ++ [u ++ ds] := by
  induction cs with
  | nil =>
    refine ⟨[], [], rfl, ?_⟩
    induction ds with
    | nil => rfl
    | cons d ds ih =>
      have := ih fun e he => h e (by simp [he])
      simp only [List.nil_append] at this
      simp [Text.splitAt, h d (by simp), this]
  | cons c cs ih =>
    obtain ⟨us, u, hcs, hds⟩ := ih
    rw [List.cons_append, Text.splitAt, Text.splitAt]
    split
    · exact ⟨[] :: us, u, by rw [hcs, List.cons_append], by rw [hds, List.cons_append]⟩
    · cases us with
      | nil => exact ⟨[], c :: u, by rw [hcs]; rfl, by rw [hds]; rfl⟩
      | cons v us => exact ⟨(c :: v) :: us, u, by rw [hcs]; rfl, by rw [hds]; rfl⟩

theorem underscore_dotted (hs : Dotted (isIdentifier ·.toList) s) : Dotted (isIdentifier ·.toList) (s ++ "_") := by
  obtain ⟨us, u, hcs, hds⟩ := splitAt_lengthened s.toList "_".toList (by simp)
  intro t ht
  rw [splitOnChar, String.toList_append, hds] at ht
  have hpart (cs : List Char) (h : cs ∈ us ++ [u]) : isIdentifier cs := by
    simpa using hs (String.ofList cs) (by rw [splitOnChar, hcs]; exact List.mem_map_of_mem h)
  obtain ⟨cs, hcs, rfl⟩ := List.mem_map.1 ht
  rw [String.toList_ofList]
  obtain h | h := List.mem_append.1 hcs
  · exact hpart cs (by simp [h])
  · rw [List.mem_singleton.1 h]
    have hunder : isIdentifierContinue '_' := by decide
    have := isIdentifier_append (s := String.ofList u) (t := "_") (by simpa using hpart u (by simp))
      (by simpa using hunder)
    simpa using this

theorem IsPhrase.runtimeAttribute (h : IsPhrase o) (hs : Dotted (isIdentifier ·.toList) s) :
    IsPhrase (o ++ "." ++ runtimeAttribute s) := by
  unfold Code.runtimeAttribute
  split
  · exact h.dotted (underscore_dotted hs)
  · exact h.dotted hs

theorem testName_dotted (hs : Dotted (isIdentifier ·.toList) s) : Dotted (isIdentifier ·.toList) (testName s) := by
  have heach : ["eq", "ne", "lt", "le", "gt", "ge"].all fun t =>
      (Text.splitOnChar '.' t).all fun u => isIdentifier u.toList := by decide
  have (t : String) (ht : t ∈ ["eq", "ne", "lt", "le", "gt", "ge"]) : Dotted (isIdentifier ·.toList) t :=
    fun u hu => List.all_eq_true.1 (List.all_eq_true.1 heach t ht) u hu
  unfold testName
  split
  · exact this _ (by simp)
  · exact this _ (by simp)
  · exact this _ (by simp)
  · exact this _ (by simp)
  · exact this _ (by simp)
  · exact this _ (by simp)
  · exact hs

theorem isPhrase_module (hs : s ∈ ["_jt_filters", "_jt_tests"]) : IsPhrase s := by
  simp only [List.mem_cons, List.not_mem_nil, or_false] at hs
  obtain rfl | rfl := hs
  all_goals exact isPhrase_identifier (by decide) (by decide) (by decide)

/-! ### Expressions -/

theorem bind_eq_ok {ε α β : Type} {x : Except ε α} {k : α → Except ε β} {b : β} :
    x >>= k = .ok b ↔ ∃ a, x = .ok a ∧ k a = .ok b := by
  cases x with
  | error e => simp [bind, Except.bind]
  | ok a => simp [bind, Except.bind]

/-- A value as a part of something or by itself. -/
theorem IsPhrase.anywhere (h : IsPhrase s) {slices : Bool} :
    IsPiece s ∧ (slices = false → IsPhrase s) := ⟨h.piece, fun _ => h⟩

theorem isPhrase_superCall {block : Option String} {line : Line} (hb : ∀ n ∈ block, IsFree n)
    (h : superCall block line = .ok s) : IsPhrase s := by
  cases block with
  | none => cases h
  | some name =>
    cases h
    have := isPhrase_call (l := []) (isPhrase_blockFunction (hb name rfl).1 1) (by simp)
    simpa [callText, commaSeparated, String.append_assoc] using this

theorem isPiece_word (h : isIdentifier s.toList) (hs : s ∉ Flatten.leads) (hr : s ≠ "_jt_rt") : IsPiece s :=
  ⟨[word s.toList], by simp [chars],
    (piece_word h (by rwa [String.ofList_toList]) fun he =>
      hr (String.toList_inj.1 (by simpa [runtime] using he))).raise (Nat.zero_le 1)⟩

theorem isPiece_symbol (hs : isMark s) (hstep : ∀ d, Atom.step d (symbol s) = some d) : IsPiece s :=
  ⟨[symbol s], by simp [chars], (piece_symbol hs hstep).raise (Nat.zero_le 1)⟩

theorem isPiece_binaryOp (op : BinaryOp) : IsPiece op.text := by
  cases op
  case and | or => exact isPiece_word (by decide) (by decide) (by decide)
  all_goals exact isPiece_symbol (by decide) fun _ => rfl

theorem isPiece_compareOp (op : CompareOp) : IsPiece op.text := by
  have hword (s : String) (hs : s ∈ ["not", "in"]) : IsPiece s := by
    simp only [List.mem_cons, List.not_mem_nil, or_false] at hs
    obtain rfl | rfl := hs
    all_goals exact isPiece_word (by decide) (by decide) (by decide)
  cases op
  case in_ => exact hword "in" (by simp)
  case notIn => exact (hword "not" (by simp)).spaced (hword "in" (by simp))
  all_goals exact isPiece_symbol (by decide) fun _ => rfl

theorem isPhrase_unary (op : UnaryOp) (h : IsPhrase s) : IsPhrase (unaryText op s) := by
  cases op
  case not =>
    have hnot : IsPiece "not" := isPiece_word (by decide) (by decide) (by decide)
    have := isPhrase_bracketed parens (.inr (hnot.spaced h.piece))
    simpa only [unaryText, String.append_assoc, show "(not " = "(" ++ ("not" ++ " ") from rfl] using this
  case neg =>
    have := isPhrase_bracketed parens (.inr (h.signed (o := "-") (by simp)))
    simpa only [unaryText, String.append_assoc, show "(-" = "(" ++ "-" from rfl] using this
  case pos =>
    have := isPhrase_bracketed parens (.inr (h.signed (o := "+") (by simp)))
    simpa only [unaryText, String.append_assoc, show "(+" = "(" ++ "+" from rfl] using this

/-- A condition in brackets. -/
theorem isPhrase_cond (hs : IsPhrase s) (ht : IsPhrase t) (ho : IsPhrase o) :
    IsPhrase ("(" ++ s ++ " if " ++ t ++ " else " ++ o ++ ")") := by
  have hword (w : String) (hw : w ∈ ["if", "else"]) : IsPiece w := by
    simp only [List.mem_cons, List.not_mem_nil, or_false] at hw
    obtain rfl | rfl := hw
    all_goals exact isPiece_word (by decide) (by decide) (by decide)
  have hinside := (((hs.piece.spaced (hword "if" (by simp))).spaced ht.piece).spaced
    (hword "else" (by simp))).spaced ho.piece
  have := isPhrase_bracketed parens (.inr hinside)
  simpa only [String.append_assoc, show " if " = " " ++ ("if" ++ " ") from rfl,
    show " else " = " " ++ ("else" ++ " ") from rfl] using this

/-- Parts with blanks between them in brackets. -/
theorem isPhrase_spaced (h : ∀ t ∈ items, IsPiece t) : IsPhrase ("(" ++ " ".intercalate items ++ ")") :=
  isPhrase_bracketed parens (isPiece_intercalate glue_blank rfl h)

section Trees

variable {block input : Option String} {slices : Bool}

mutual

/-- An expression is a value; a slice is only part of an index. -/
theorem isPhrase_expr (hb : ∀ n ∈ block, IsFree n) (input : Option String) (hi : Given IsPhrase input)
    (slices : Bool) (e : Expr) (hw : e.Worded IsFree slices) (s : String)
    (h : expr block input e = .ok s) : IsPiece s ∧ (slices = false → IsPhrase s) :=
  match e with
  | .name .. => by
    rw [expr] at h
    cases h
    exact (isPhrase_loadName hw).anywhere
  | .attrRef .. => by
    rw [expr] at h
    cases h
    exact ((isPhrase_identifier' hw.1).member hw.2.1).anywhere
  | .const _ value => by
    rw [expr] at h
    cases h
    exact IsPhrase.anywhere (phrase_literal value)
  | .data .. => by
    rw [expr] at h
    cases h
    exact (isPhrase_quote _).anywhere
  | .tuple _ items => by
    rw [expr] at h
    obtain ⟨ts, hts, h⟩ := bind_eq_ok.1 h
    cases h
    exact (isPhrase_tuple fun t ht => (isPhrase_exprs hb true items hw ts hts t ht).1).anywhere
  | .list _ items => by
    rw [expr] at h
    obtain ⟨ts, hts, h⟩ := bind_eq_ok.1 h
    cases h
    exact (isPhrase_bracketed squares (isPiece_commaSeparated fun t ht =>
      (isPhrase_exprs hb false items hw ts hts t ht).1)).anywhere
  | .dict _ items => by
    rw [expr] at h
    obtain ⟨ts, hts, h⟩ := bind_eq_ok.1 h
    cases h
    exact (isPhrase_bracketed braces (isPiece_commaSeparated (isPiece_pairs hb items hw ts hts))).anywhere
  | .cond _ test body otherwise => by
    rw [expr] at h
    obtain ⟨o, ho, h⟩ := bind_eq_ok.1 h
    obtain ⟨b, hbody, h⟩ := bind_eq_ok.1 h
    obtain ⟨t, ht, h⟩ := bind_eq_ok.1 h
    cases h
    have hnone : IsPhrase "None" := phrase_literal .none
    have hotherwise : IsPhrase (o.getD "None") := by
      have := isPhrase_option hb otherwise hw.2.2 o ho
      cases o with
      | none => exact hnone
      | some t => exact this t rfl
    exact (isPhrase_cond ((isPhrase_expr hb none (by simp [Given]) false body hw.2.1 b hbody).2 rfl)
      ((isPhrase_expr hb none (by simp [Given]) false test hw.1 t ht).2 rfl) hotherwise).anywhere
  | .filter line operand name args named rest restNamed => by
    rw [expr] at h
    obtain ⟨o, ho, h⟩ := bind_eq_ok.1 h
    obtain ⟨as, has, h⟩ := bind_eq_ok.1 h
    obtain ⟨r, hr, h⟩ := bind_eq_ok.1 h
    obtain ⟨ns, hns, h⟩ := bind_eq_ok.1 h
    obtain ⟨rn, hrn, h⟩ := bind_eq_ok.1 h
    cases h
    obtain ⟨hwo, hwname, hwargs, hwnamed, hwrest, hwrestNamed⟩ := hw
    have hoperand := isPhrase_filterOperand hb input hi line name operand hwo o ho
    have hargs := isPiece_argumentTexts (fun t ht => (isPhrase_exprs hb false args hwargs as has t ht).1)
      (isPhrase_option hb rest hwrest r hr) (isPhrase_named hb named hwnamed ns hns)
      (isPhrase_option hb restNamed hwrestNamed rn hrn)
    have hfunction := (isPhrase_module (s := "_jt_filters") (by simp)).runtimeAttribute
      fun t ht => (hwname t ht).1
    exact (isPhrase_call hfunction (List.forall_mem_cons.2 ⟨hoperand.piece, hargs⟩)).anywhere
  | .test _ operand name args named rest restNamed => by
    rw [expr] at h
    obtain ⟨o, ho, h⟩ := bind_eq_ok.1 h
    obtain ⟨as, has, h⟩ := bind_eq_ok.1 h
    obtain ⟨r, hr, h⟩ := bind_eq_ok.1 h
    obtain ⟨ns, hns, h⟩ := bind_eq_ok.1 h
    obtain ⟨rn, hrn, h⟩ := bind_eq_ok.1 h
    cases h
    obtain ⟨hwo, hwname, hwargs, hwnamed, hwrest, hwrestNamed⟩ := hw
    have hoperand := isPhrase_expr hb input hi false operand hwo o ho
    have hargs := isPiece_argumentTexts (fun t ht => (isPhrase_exprs hb false args hwargs as has t ht).1)
      (isPhrase_option hb rest hwrest r hr) (isPhrase_named hb named hwnamed ns hns)
      (isPhrase_option hb restNamed hwrestNamed rn hrn)
    have hfunction := (isPhrase_module (s := "_jt_tests") (by simp)).runtimeAttribute
      (testName_dotted fun t ht => (hwname t ht).1)
    exact (isPhrase_call hfunction (List.forall_mem_cons.2 ⟨hoperand.1, hargs⟩)).anywhere
  | .call line callee args named rest restNamed => by
    rw [expr] at h
    split at h
    · exact (isPhrase_superCall hb h).anywhere
    · obtain ⟨f, hf, h⟩ := bind_eq_ok.1 h
      obtain ⟨as, has, h⟩ := bind_eq_ok.1 h
      obtain ⟨r, hr, h⟩ := bind_eq_ok.1 h
      obtain ⟨ns, hns, h⟩ := bind_eq_ok.1 h
      obtain ⟨rn, hrn, h⟩ := bind_eq_ok.1 h
      cases h
      obtain ⟨hwf, hwargs, hwnamed, hwrest, hwrestNamed⟩ := hw
      have hargs := isPiece_argumentTexts (fun t ht => (isPhrase_exprs hb false args hwargs as has t ht).1)
        (isPhrase_option hb rest hwrest r hr) (isPhrase_named hb named hwnamed ns hns)
        (isPhrase_option hb restNamed hwrestNamed rn hrn)
      exact (isPhrase_call ((isPhrase_expr hb none (by simp [Given]) false callee hwf f hf).2 rfl) hargs).anywhere
  | .item _ owner index => by
    rw [expr] at h
    obtain ⟨o, ho, h⟩ := bind_eq_ok.1 h
    obtain ⟨i, hindex, h⟩ := bind_eq_ok.1 h
    cases h
    exact (((isPhrase_expr hb none (by simp [Given]) false owner hw.1 o ho).2 rfl).applied squares (.inr rfl)
      (.inr (isPhrase_expr hb none (by simp [Given]) true index hw.2 i hindex).1)).anywhere
  | .attr _ owner attr => by
    rw [expr] at h
    split at h
    · cases h
      exact (isPhrase_blockFunction hw.2.1 0).anywhere
    · obtain ⟨o, ho, h⟩ := bind_eq_ok.1 h
      cases h
      exact (isPhrase_attributeText ((isPhrase_expr hb none (by simp [Given]) false owner hw.1 o ho).2 rfl)
        hw.2.1).anywhere
  | .slice _ start stop stride => by
    rw [expr] at h
    obtain ⟨a, ha, h⟩ := bind_eq_ok.1 h
    obtain ⟨b, hb', h⟩ := bind_eq_ok.1 h
    obtain ⟨c, hc, h⟩ := bind_eq_ok.1 h
    cases h
    refine ⟨isPiece_sliceText (isPhrase_option hb start hw.2.1 a ha) (isPhrase_option hb stop hw.2.2.1 b hb')
      (isPhrase_option hb stride hw.2.2.2 c hc), fun hs => ?_⟩
    exact absurd (hw.1.symm.trans hs) (by decide)
  | .concat _ items => by
    rw [expr] at h
    obtain ⟨ts, hts, h⟩ := bind_eq_ok.1 h
    cases h
    exact (isPhrase_call (isPhrase_drawn (s := "concat") (by decide) (by decide)) fun t ht =>
      (isPhrase_exprs hb false items hw ts hts t ht).1).anywhere
  | .compare _ first others => by
    rw [expr] at h
    obtain ⟨f, hf, h⟩ := bind_eq_ok.1 h
    obtain ⟨ts, hts, h⟩ := bind_eq_ok.1 h
    cases h
    exact (isPhrase_spaced (List.forall_mem_cons.2
      ⟨(isPhrase_expr hb none (by simp [Given]) false first hw.1 f hf).1,
        isPiece_comparisons hb others hw.2 ts hts⟩)).anywhere
  | .binary _ op left right => by
    rw [expr] at h
    obtain ⟨l, hl, h⟩ := bind_eq_ok.1 h
    obtain ⟨r, hr, h⟩ := bind_eq_ok.1 h
    cases h
    have hinside := ((isPhrase_expr hb none (by simp [Given]) false left hw.1 l hl).1.spaced
      (isPiece_binaryOp op)).spaced (isPhrase_expr hb none (by simp [Given]) false right hw.2 r hr).1
    have := isPhrase_bracketed parens (.inr hinside)
    exact IsPhrase.anywhere (by simpa only [String.append_assoc] using this)
  | .unary _ op operand => by
    rw [expr] at h
    obtain ⟨o, ho, h⟩ := bind_eq_ok.1 h
    cases h
    exact (isPhrase_unary op ((isPhrase_expr hb none (by simp [Given]) false operand hw o ho).2 rfl)).anywhere
  | .safe _ value => by
    rw [expr] at h
    exact ((isPhrase_expr hb none (by simp [Given]) false value hw s h).2 rfl).anywhere
  | .context _ => by
    rw [expr] at h
    cases h
    have := isPhrase_call (l := []) (isPhrase_drawn (s := "context") (by decide) (by decide)) (by simp)
    exact IsPhrase.anywhere (by simpa [callText, commaSeparated] using this)
  | .other .. => by
    rw [expr] at h
    cases h
termination_by structural e

theorem isPhrase_filterOperand (hb : ∀ n ∈ block, IsFree n) (input : Option String)
    (hi : Given IsPhrase input) (line : Line) (name : String) (e : Option Expr) (hw : wordedOption IsFree e)
    (s : String) (h : filterOperand block input line name e = .ok s) : IsPhrase s :=
  match e with
  | some e => (isPhrase_expr hb input hi false e hw s h).2 rfl
  | none => by
    cases input with
    | none => cases h
    | some t =>
      cases h
      exact hi _ rfl
termination_by structural e

theorem isPhrase_exprs (hb : ∀ n ∈ block, IsFree n) (slices : Bool) (es : List Expr)
    (hw : wordedAll IsFree slices es) (ts : List String) (h : exprs block es = .ok ts) :
    ∀ t ∈ ts, IsPiece t ∧ (slices = false → IsPhrase t) :=
  match es with
  | [] => by
    cases h
    simp
  | e :: es => by
    rw [exprs] at h
    obtain ⟨t, ht, h⟩ := bind_eq_ok.1 h
    obtain ⟨us, hus, h⟩ := bind_eq_ok.1 h
    cases h
    exact List.forall_mem_cons.2 ⟨isPhrase_expr hb none (by simp [Given]) slices e hw.1 t ht,
      isPhrase_exprs hb slices es hw.2 us hus⟩
termination_by structural es

theorem isPhrase_option (hb : ∀ n ∈ block, IsFree n) (e : Option Expr) (hw : wordedOption IsFree e)
    (t : Option String) (h : option block e = .ok t) : Given IsPhrase t :=
  match e with
  | none => by
    cases h
    simp [Given]
  | some e => by
    rw [option] at h
    obtain ⟨u, hu, h⟩ := bind_eq_ok.1 h
    cases h
    simpa [Given] using (isPhrase_expr hb none (by simp [Given]) false e hw u hu).2 rfl
termination_by structural e

theorem isPiece_pairs (hb : ∀ n ∈ block, IsFree n) (es : List (Expr × Expr)) (hw : wordedPairs IsFree es)
    (ts : List String) (h : pairs block es = .ok ts) : ∀ t ∈ ts, IsPiece t :=
  match es with
  | [] => by
    cases h
    simp
  | (key, value) :: es => by
    rw [pairs] at h
    obtain ⟨k, hk, h⟩ := bind_eq_ok.1 h
    obtain ⟨v, hv, h⟩ := bind_eq_ok.1 h
    obtain ⟨us, hus, h⟩ := bind_eq_ok.1 h
    cases h
    refine List.forall_mem_cons.2 ⟨?_, isPiece_pairs hb es hw.2.2 us hus⟩
    exact (isPhrase_expr hb none (by simp [Given]) false key hw.1 k hk).1.glued
      (isPhrase_expr hb none (by simp [Given]) false value hw.2.1 v hv).1 glue_colon rfl
termination_by structural es

theorem isPhrase_named (hb : ∀ n ∈ block, IsFree n) (es : List (String × Expr)) (hw : wordedNamed IsFree es)
    (ts : List (String × String)) (h : namedArguments block es = .ok ts) :
    ∀ t ∈ ts, IsFree t.1 ∧ IsPhrase t.2 :=
  match es with
  | [] => by
    cases h
    simp
  | (name, e) :: es => by
    rw [namedArguments] at h
    obtain ⟨t, ht, h⟩ := bind_eq_ok.1 h
    obtain ⟨us, hus, h⟩ := bind_eq_ok.1 h
    cases h
    exact List.forall_mem_cons.2 ⟨⟨hw.1, (isPhrase_expr hb none (by simp [Given]) false e hw.2.1 t ht).2 rfl⟩,
      isPhrase_named hb es hw.2.2 us hus⟩
termination_by structural es

theorem isPiece_comparisons (hb : ∀ n ∈ block, IsFree n) (es : List (CompareOp × Expr))
    (hw : wordedOperands IsFree es) (ts : List String) (h : comparisons block es = .ok ts) :
    ∀ t ∈ ts, IsPiece t :=
  match es with
  | [] => by
    cases h
    simp
  | (op, e) :: es => by
    rw [comparisons] at h
    obtain ⟨t, ht, h⟩ := bind_eq_ok.1 h
    obtain ⟨us, hus, h⟩ := bind_eq_ok.1 h
    cases h
    exact List.forall_mem_cons.2 ⟨isPiece_compareOp op, List.forall_mem_cons.2
      ⟨(isPhrase_expr hb none (by simp [Given]) false e hw.1 t ht).1, isPiece_comparisons hb es hw.2 us hus⟩⟩
termination_by structural es

end

/-- A call with more arguments behind its own. -/
theorem isPhrase_callWith (hb : ∀ n ∈ block, IsFree n) {extra : List String} (hextra : ∀ t ∈ extra, IsPiece t)
    {e : Expr} (hw : e.Worded IsFree slices) (h : callWith block extra e = .ok s) : IsPhrase s := by
  cases e with
  | call line callee args named rest restNamed =>
    rw [callWith] at h
    split at h
    · exact isPhrase_superCall hb h
    · obtain ⟨f, hf, h⟩ := bind_eq_ok.1 h
      obtain ⟨as, has, h⟩ := bind_eq_ok.1 h
      obtain ⟨r, hr, h⟩ := bind_eq_ok.1 h
      obtain ⟨ns, hns, h⟩ := bind_eq_ok.1 h
      obtain ⟨rn, hrn, h⟩ := bind_eq_ok.1 h
      cases h
      obtain ⟨hwf, hwargs, hwnamed, hwrest, hwrestNamed⟩ := hw
      have hargs := isPiece_argumentTexts (fun t ht => (isPhrase_exprs hb false args hwargs as has t ht).1)
        (isPhrase_option hb rest hwrest r hr) (isPhrase_named hb named hwnamed ns hns)
        (isPhrase_option hb restNamed hwrestNamed rn hrn)
      exact isPhrase_call ((isPhrase_expr hb none (by simp [Given]) false callee hwf f hf).2 rfl)
        (List.forall_mem_append.2 ⟨hargs, hextra⟩)
  | _ => cases h

end Trees

end Stencil.Compile
