import Stencil.Proofs.Code.Origin
import Stencil.Proofs.Compile.Line
import Stencil.Proofs.Flatten.Orderly

/-!
The texts of lines: what they begin and end with, and the buffers in them. What statements are written as is never the
first or the last line of a function that collects output. A value begins with no `return`, and no colon stands outside
of the brackets of a value or a target.
-/
namespace Stencil.Compile
open Template Code Text Atom Token Flatten

variable {s t v : String} {as bs : List Atom} {a : Atom} {c d : Char} {cs rest : List Char} {n : Nat}

/-! ### The first part of a text -/

/-- A name that a text begins with is its first part. -/
theorem word_of_spell (hmild : ∀ a ∈ as, a.Mild) (hfit : Fit as c) (h : spell as = cs ++ d :: rest)
    (hcs : isIdentifier cs) (hd : endsName d) : ∃ bs, as = word cs :: bs ∧ spell bs = d :: rest := by
  obtain ⟨x, xs, rfl⟩ : ∃ x xs, cs = x :: xs := List.exists_cons_of_ne_nil (by rintro rfl; cases hcs)
  have hstart : isIdentifierStart x := by
    simp only [isIdentifier, Bool.and_eq_true] at hcs
    exact hcs.1
  have hname (y : Char) (hy : endsName y) (hmem : isIdentifierContinue y) : False := by
    simp [endsName, hmem] at hy
  cases as with
  | nil => cases h
  | cons a bs =>
    rw [spell_cons] at h
    have hvalid := (hmild a (by simp)).valid
    have hhead (y : Char) (ys : List Char) (hy : a.chars = y :: ys) : y = x := by
      rw [hy] at h
      exact (List.cons.inj h).1
    cases a with
    | word ws =>
      obtain ⟨zs, hws, hbs⟩ | ⟨zs, hws, hbs⟩ := List.append_eq_append_iff.1 h
      · cases zs with
        | nil => exact ⟨bs, by rw [hws, List.append_nil]; rfl, hbs⟩
        | cons z zs =>
          have hz : z ∈ x :: xs := by
            rw [hws]
            exact List.mem_append_right _ List.mem_cons_self
          have hstop : endsName (first bs c) := hfit.1
          rw [first_of_spell hbs] at hstop
          exact (hname z hstop (continue_of_mem_identifier hcs z hz)).elim
      · cases zs with
        | nil =>
          obtain rfl : ws = x :: xs := by simpa [chars] using hws
          exact ⟨bs, rfl, hbs.symm⟩
        | cons z zs =>
          obtain ⟨rfl, -⟩ := List.cons.inj hbs
          have hmem : d ∈ ws := by rw [show ws = x :: xs ++ d :: zs from hws]; simp
          exact (hname d hd (continue_of_mem_identifier hvalid d hmem)).elim
    | number ws =>
      obtain ⟨y, hy, hdigit⟩ := (hmild _ List.mem_cons_self).digit ws rfl
      obtain rfl := hhead y ws.tail (List.cons_head?_tail hy).symm
      simp [isDigit_of_isIdentifierStart hstart] at hdigit
    | quoted ws =>
      obtain ⟨q, inside, hq, rfl, -⟩ := Literal.quoted hvalid
      obtain rfl := hhead q _ rfl
      simp [isQuote_of_continue (continue_of_start hstart)] at hq
    | symbol w =>
      obtain ⟨y, ys, hy, -, hcontinue, -⟩ := head_of_symbol w hvalid.1
      obtain rfl := hhead y ys hy
      simp [continue_of_start hstart] at hcontinue
    | member ws =>
      obtain rfl := hhead '.' ws rfl
      exact absurd hstart (by decide)
    | blank =>
      obtain rfl := hhead ' ' [] rfl
      exact absurd hstart (by decide)

/-- A colon that a text begins with is its first part. -/
theorem colon_of_spell (hmild : ∀ a ∈ as, a.Mild) (h : spell as = ':' :: ' ' :: rest) :
    ∃ bs, as = symbol ":" :: bs := by
  cases as with
  | nil => cases h
  | cons a bs =>
    rw [spell_cons] at h
    have hvalid := (hmild a (by simp)).valid
    have hhead (y : Char) (ys : List Char) (hy : a.chars = y :: ys) : y = ':' := by
      rw [hy] at h
      exact (List.cons.inj h).1
    cases a with
    | word ws =>
      cases ws with
      | nil => cases hvalid
      | cons w ws =>
        obtain rfl := hhead w ws rfl
        have := continue_of_mem_identifier hvalid ':' (by simp)
        exact absurd this (by decide)
    | number ws =>
      obtain ⟨y, hy, hdigit⟩ := (hmild _ List.mem_cons_self).digit ws rfl
      obtain rfl := hhead y ws.tail (List.cons_head?_tail hy).symm
      exact absurd hdigit (by decide)
    | quoted ws =>
      obtain ⟨q, inside, hq, rfl, -⟩ := Literal.quoted hvalid
      obtain rfl := hhead q _ rfl
      exact absurd hq (by decide)
    | symbol w =>
      have hsymbols : ∀ w ∈ symbols, w.toList.head? = some ':' → w = ":" ∨ w = ":=" := by decide
      obtain ⟨y, ys, hy, -⟩ := head_of_symbol w hvalid.1
      obtain rfl := hhead y ys hy
      obtain rfl | rfl := hsymbols w hvalid.1 (by rw [hy]; rfl)
      · exact ⟨bs, rfl⟩
      · exact absurd (congrArg (·[1]?) h) (by simp [chars])
    | member ws => exact absurd (hhead '.' ws rfl) (by decide)
    | blank => exact absurd (hhead ' ' [] rfl) (by decide)

/-! ### Statements -/

theorem IsLine.unbroken {k : LineKind} (h : IsLine k s) : Unbroken s := by
  obtain ⟨shift, as, hlined, -, hs⟩ := h
  unfold Unbroken
  rw [hs, List.forall_mem_append]
  constructor
  · intro c hc
    obtain rfl := List.eq_of_mem_replicate hc
    decide
  · intro c hc
    obtain ⟨a, ha, hc⟩ := List.mem_flatMap.1 hc
    exact (hlined.spec.sound a ha).unbroken c hc

/-- What does not begin with a blank is a bound as it stands. -/
theorem isBound_of_begins (h : s.toList = c :: cs) (hc : c ≠ ' ') (hs : IsBound s) :
    s.toList = prologue.toList ∨ s.toList = epilogue.toList := by
  rw [IsBound, h, List.dropWhile_cons_of_neg (by simpa using hc), ← h] at hs
  simpa using hs

/-- The first line of a function has a colon outside of brackets. -/
theorem ne_prologue (h : Piece 0 as) : spell as ≠ prologue.toList := by
  intro hs
  have hname : isIdentifier outputBuffer.toList := by decide
  obtain ⟨bs, rfl, hbs⟩ := word_of_spell h.mild (h.ends _ ender_newline) hs hname (by decide)
  obtain ⟨bs, rfl⟩ := colon_of_spell (fun a ha => h.mild a (by simp [ha])) hbs
  cases h.level 0 le_rfl

/-- The last line begins with a word that no value begins with. -/
theorem ne_epilogue (h : Phrase as) : spell as ≠ epilogue.toList := by
  intro hs
  have hname : isIdentifier "return".toList := by decide
  obtain ⟨bs, rfl, -⟩ := word_of_spell h.mild (h.ends _ ender_newline) hs hname (by decide)
  obtain ⟨a, ha, ho⟩ := h.opens
  obtain rfl := Option.some.inj ha
  exact absurd ho (by decide)

theorem ne_blank_of_solid (h : isSolid c) : c ≠ ' ' := by
  rintro rfl
  exact absurd h (by decide)

theorem own_phrase (h : IsPhrase s) : ¬ IsBound s := by
  obtain ⟨as, hs, has⟩ := h
  obtain ⟨c, cs, hc, hsolid⟩ := has.begins
  intro hbound
  obtain hp | he := isBound_of_begins (hs.symm.trans hc) (ne_blank_of_solid hsolid) hbound
  · exact ne_prologue has.toPiece (hs.trans hp)
  · exact ne_epilogue has (hs.trans he)

theorem own_assignment (ht : IsTarget t) (hv : IsPhrase v) : ¬ IsBound (t ++ " = " ++ v) := by
  intro hbound
  obtain ⟨bs, hbs, hphrase⟩ := hv
  obtain rfl | ⟨as, has, hpiece, -⟩ := ht
  · have hdrop : ("" ++ " = " ++ v).toList.dropWhile (· == ' ') = '=' :: ' ' :: v.toList := by simp
    rw [IsBound, hdrop] at hbound
    simp only [List.mem_cons, List.not_mem_nil, or_false] at hbound
    obtain h | h := hbound
    all_goals
      replace h := congrArg List.head? h
      rw [List.head?_cons] at h
      exact absurd h (by decide)
  · have hwhole := hpiece.glue glue_equals hphrase.toPiece
    have hspell : spell (as ++ ([blank, symbol "=", blank] ++ bs)) = (t ++ " = " ++ v).toList := by
      simp [spell_append, spell_cons, chars, has, hbs]
    obtain ⟨c, cs, hc, hsolid⟩ := hwhole.begins
    obtain hp | he := isBound_of_begins (hspell.symm.trans hc) (ne_blank_of_solid hsolid) hbound
    · exact ne_prologue hwhole (hspell.trans hp)
    · have hmem : '=' ∈ (t ++ " = " ++ v).toList := by simp
      rw [he] at hmem
      exact absurd hmem (by decide)

/-- Headers have a letter in their first word that is in neither of the bounds. -/
theorem own_header (h : 'f' ∈ s.toList) : ¬ IsBound s := not_isBound_of_mem h (by decide)

theorem own_loopHeader (target source : String) : ¬ IsBound (loopHeader target source) := by
  refine own_header ?_
  simp only [loopHeader, String.toList_append, List.mem_append]
  exact .inl (.inl (.inl (.inl (by decide))))

theorem own_elseHeader (source : String) : ¬ IsBound (elseHeader source) := by
  refine own_header ?_
  simp only [elseHeader, String.toList_append, List.mem_append]
  exact .inl (.inl (by decide))

theorem own_append (buffer value : String) : ¬ IsBound (append buffer value) :=
  not_isBound_of_mem (c := 'p') (by simp [append]) (by decide)

/-- A buffer within a function is none that the function opens itself. -/
theorem own_opened (n : Nat) : ¬ IsBound (opened (bufferName n)) := by
  have hname : bufferName n = "_jt_buf" ++ toString n := rfl
  exact not_isBound_of_mem (c := 'b') (by simp [opened, hname]) (by decide)

theorem own_extends (path : String) : ¬ IsBound ("_jt_rt.extends(" ++ quote path ++ ")") :=
  not_isBound_of_mem (c := 'x') (by simp) (by decide)

end Stencil.Compile

namespace Stencil.Compile
open Code Atom Token Text Flatten Grouping

variable {a : Atom} {as : List Atom} {s t v w g : String} {k : LineKind} {bs items params defaults used : List String}
  {c d : Char}

/-! ### First and last characters -/

/-- No part of a line ends with a colon that is none. -/
theorem colon_of_getLast (h : a.Valid) (hlast : a.chars.getLast? = some ':') : a = symbol ":" := by
  have hmem := List.mem_of_getLast? hlast
  cases a with
  | word cs => exact absurd (continue_of_mem_identifier h ':' hmem) (by decide)
  | number cs => exact absurd (h.1.chars ':' hmem) (by decide)
  | quoted cs =>
    obtain ⟨q, inside, hq, rfl, -⟩ := Literal.quoted h
    rw [chars, List.getLast?_concat] at hlast
    obtain rfl := Option.some.inj hlast
    exact absurd hq (by decide)
  | symbol x =>
    have hsymbols : ∀ x ∈ symbols, x.toList.getLast? = some ':' → x = ":" := by decide
    rw [hsymbols x h.1 hlast]
  | member cs =>
    cases cs with
    | nil => cases h
    | cons d ds =>
      rw [chars, List.getLast?_cons_cons] at hlast
      exact absurd (continue_of_mem_identifier h ':' (List.mem_of_getLast? hlast)) (by decide)
  | blank => exact absurd hlast (by decide)

theorem chars_ne_nil (h : a.Valid) : a.chars ≠ [] := by
  by_cases hb : a = blank
  · simp [hb, chars]
  · obtain ⟨d, ds, hd, -⟩ := h.solid hb
    simp [hd]

/-- What stands by itself does not end with a colon. -/
theorem getLast_piece (h : Piece 0 as) : (spell as).getLast? ≠ some ':' := by
  intro hlast
  obtain ⟨bs, b, rfl⟩ := (List.eq_nil_or_concat' as).resolve_left h.ne_nil
  have hvalid := (h.mild b (by simp)).valid
  rw [spell_append, spell_single, List.getLast?_append_of_ne_nil _ (chars_ne_nil hvalid)] at hlast
  obtain rfl := colon_of_getLast hvalid hlast
  -- outside of brackets there is no colon, and inside of brackets nothing ends
  have hlevel := h.level 0 le_rfl
  rw [steps_append] at hlevel
  cases hd : steps 0 bs with
  | none => simp [hd] at hlevel
  | some d => cases d <;> simp [hd, Atom.step] at hlevel

theorem opensBlock_concat (s : String) (h : t.toList.getLast? = some c) (hc : c ≠ ':') : opensBlock (s ++ t) = false := by
  rw [opensBlock, String.toList_append, List.getLast?_append, h, Option.some_or]
  simpa using hc

theorem opensBlock_of_phrase (s : String) (h : IsPhrase t) : opensBlock (s ++ t) = false := by
  obtain ⟨as, hs, has⟩ := h
  obtain ⟨c, cs, hc, -⟩ := has.begins
  obtain ⟨d, hd⟩ : ∃ d, t.toList.getLast? = some d := by
    rw [← hs, hc]
    exact ⟨_, List.getLast?_cons⟩
  exact opensBlock_concat s hd fun h => getLast_piece has.toPiece (by rw [hs, hd, h])

theorem IsLine.opensBlock (h : IsLine .header s) : opensBlock s := by
  obtain ⟨shift, as, hlined, -, hs⟩ := h
  cases hlined with
  | header => simp [Flatten.opensBlock, hs, spell_append, chars]

theorem continuesGroup_iff (s : String) :
    continuesGroup s ↔ "else:".toList <+: s.toList ∨ "elif ".toList <+: s.toList := by
  simp [continuesGroup, String.startsWith_string_iff]

/-- A name that the text of a line begins with is the word that the line begins with. -/
theorem leading_of_text {shift : Nat} {r : List Char} (hlined : Lined k as)
    (hs : s.toList = List.replicate shift ' ' ++ spell as) (hname : isIdentifier w.toList) (hd : endsName d)
    (htext : s.toList = w.toList ++ d :: r) : leading? as = some w := by
  obtain rfl : shift = 0 := by
    cases shift with
    | zero => rfl
    | succ shift =>
      obtain ⟨y, ys, hy⟩ : ∃ y ys, w.toList = y :: ys :=
        List.exists_cons_of_ne_nil (by rintro h; simp [h, isIdentifier] at hname)
      rw [hs, hy, List.replicate_succ] at htext
      have := continue_of_mem_identifier hname y (by simp [hy])
      obtain rfl : ' ' = y := (List.cons.inj htext).1
      exact absurd this (by decide)
  rw [hs] at htext
  obtain ⟨bs, rfl, -⟩ := word_of_spell (fun a ha => (hlined.spec.sound a ha).toMild) hlined.spec.fit htext hname hd
  simp [leading?]

/-- What goes on with a condition begins with one of two words. -/
theorem leading_of_continuesGroup {shift : Nat} (hlined : Lined k as)
    (hs : s.toList = List.replicate shift ' ' ++ spell as) (h : continuesGroup s) :
    leading? as = some "else" ∨ leading? as = some "elif" := by
  obtain ⟨r, hr⟩ | ⟨r, hr⟩ := (continuesGroup_iff s).1 h
  · exact .inl (leading_of_text (d := ':') (r := r) hlined hs (by decide) (by decide) hr.symm)
  · exact .inr (leading_of_text (d := ' ') (r := r) hlined hs (by decide) (by decide) hr.symm)

/-- Only headers go on with a condition. -/
theorem IsLine.continuesGroup (h : IsLine k s) (hk : k ≠ .header) : continuesGroup s = false := by
  refine Bool.eq_false_iff.2 fun hc => hk ?_
  obtain ⟨shift, as, hlined, -, hs⟩ := h
  obtain h | h := leading_of_continuesGroup hlined hs hc
  · exact hlined.isHeader_iff.2 ⟨_, h, by decide⟩
  · exact hlined.isHeader_iff.2 ⟨_, h, by decide⟩

theorem firstWord_of {r : List Char} (hs : s.toList = w.toList ++ c :: r) (hw : w.toList.all isIdentifierContinue)
    (hc : isIdentifierContinue c = false) : firstWord s = w.toList := by
  have hall := List.all_eq_true.1 hw
  rw [firstWord, hs, List.takeWhile_append_of_pos hall, List.takeWhile_cons_of_neg (by simp [hc]), List.append_nil]

theorem continuesGroup_firstWord (h : continuesGroup s) : firstWord s = "else".toList ∨ firstWord s = "elif".toList := by
  obtain ⟨rest, hrest⟩ | ⟨rest, hrest⟩ := (continuesGroup_iff s).1 h
  · exact .inl (firstWord_of (c := ':') (r := rest) hrest.symm (by decide) (by decide))
  · exact .inr (firstWord_of (c := ' ') (r := rest) hrest.symm (by decide) (by decide))

theorem firstWord_of_leading (hlined : Lined k as) (hs : s.toList = spell as) (h : leading? as = some w) :
    firstWord s = w.toList := by
  obtain ⟨cs, hcs, rfl⟩ := leading_eq_some h
  obtain ⟨as, rfl⟩ := List.head?_eq_some_iff.1 hcs
  have hname : isIdentifier cs := (hlined.spec.sound _ List.mem_cons_self).valid
  have hends : endsName (first as '\n') := hlined.spec.fit.1
  have hword := continue_of_mem_identifier hname
  rw [String.toList_ofList, firstWord, hs, spell_cons, show (word cs).chars = cs from rfl,
    List.takeWhile_append_of_pos hword]
  cases hspell : spell as with
  | nil => simp
  | cons c r =>
    rw [first_of_spell hspell] at hends
    have hstop : isIdentifierContinue c = false := by
      rw [endsName, Bool.and_eq_true, Bool.not_eq_true'] at hends
      exact hends.1
    rw [List.takeWhile_cons_of_neg (by simp [hstop]), List.append_nil]

theorem isBuffer_chars (h : isBuffer w) : ∀ c ∈ w.toList, isIdentifierContinue c := by
  simp only [isBuffer, Bool.or_eq_true, Bool.and_eq_true, beq_iff_eq, List.isPrefixOf_iff_prefix, List.all_eq_true] at h
  obtain rfl | ⟨⟨r, hr⟩, h⟩ := h
  · exact List.all_eq_true.1 (by decide : outputBuffer.toList.all isIdentifierContinue)
  · intro c hc
    rw [← hr] at h hc
    obtain hc | hc := List.mem_append.1 hc
    · exact List.all_eq_true.1 (by decide : "_jt_buf".toList.all isIdentifierContinue) c hc
    · exact continue_of_isDigit (h c (by simpa using hc))

/-- A line that opens a buffer begins with the buffer. -/
theorem firstWord_opened (h : isBuffer w) : firstWord (opened w) = w.toList :=
  firstWord_of (c := ':') (r := " list[str] = []".toList) (by simp [opened]) (List.all_eq_true.2 (isBuffer_chars h))
    (by decide)

/-- A line as it is read back. Blanks in front of its text are taken for indentation. -/
theorem corresponds_row {α β : Type} {l : CodeLine α} {m : CodeLine β} {shift : Nat} (hlined : Lined k as)
    (hshift : shift = 0 ∨ shift = 1 ∧ as.head? = some (symbol "="))
    (hs : l.code.toList = List.replicate shift ' ' ++ spell as)
    (hcode : m.code.toList = l.code.toList.dropWhile (· == ' ')) (hindent : m.indent = l.indent) : Corresponds 0 l m := by
  obtain ⟨a, ha, hblank⟩ := hlined.spec.begins
  obtain ⟨as, rfl⟩ := List.head?_eq_some_iff.1 ha
  obtain ⟨c, cs, hc, hsolid⟩ := (hlined.spec.sound a List.mem_cons_self).valid.solid hblank
  have hfirst : c ≠ ' ' := ne_blank_of_solid hsolid
  have hspell : spell (a :: as) = c :: (cs ++ spell as) := by rw [spell_cons, hc, List.cons_append]
  obtain rfl | ⟨rfl, heq⟩ := hshift
  · refine .of_code (by simp [hindent]) (String.toList_inj.1 ?_)
    rw [hcode, hs, hspell, List.replicate_zero, List.nil_append, List.dropWhile_cons_of_neg (by simpa using hfirst)]
  · -- what is left of an assignment without a target
    obtain rfl : a = symbol "=" := by simpa using heq
    obtain rfl : '=' = c := by simpa [chars] using congrArg List.head? hc
    have hm : m.code.toList = '=' :: (cs ++ spell as) := by
      rw [hcode, hs, hspell, List.replicate_one, List.singleton_append, List.dropWhile_cons_of_pos (by decide),
        List.dropWhile_cons_of_neg (by decide)]
    have hl : l.code = " " ++ m.code := by
      rw [← String.toList_inj, hs, hspell, String.toList_append, hm]
      rfl
    have hword : firstWord m.code = [] := by
      rw [firstWord, hm, List.takeWhile_cons_of_neg (by decide)]
    have hword' : firstWord l.code = [] := by
      rw [firstWord, hl, String.toList_append, show " ".toList = [' '] from rfl, List.singleton_append,
        List.takeWhile_cons_of_neg (by decide)]
    refine ⟨by simp [hindent], ?_, fun h => ?_, ?_, ?_, fun b hb hopened => ?_, fun bs h => ?_⟩
    · rw [hl, opensBlock, opensBlock, String.toList_append, List.getLast?_append_of_ne_nil _ (by simp [hm])]
    · obtain h | h := continuesGroup_firstWord h <;> simp [hword] at h
    · simp [isCondition, hword, hword']
    · simp [isFunction, hword, hword']
    · rw [hopened, firstWord_opened hb, String.toList_eq_nil_iff] at hword'
      subst hword'
      cases hb
    · rwa [Covered, hl, words_append_of_ended (ended_mark (by simp [marks])), show wordsOf " " = [] from rfl,
        List.nil_append] at h

/-! ### The buffers in lines -/

/-- A mark in front of a text. -/
theorem Uses.led (h : Uses bs t) (hg : g ∈ "." :: marks) : Uses bs (g ++ t) := by
  obtain ⟨hended, -, hcovered⟩ := Uses.mark bs hg
  exact .after hended hcovered h

theorem uses_equals (hs : Uses bs s) (ht : Uses bs t) : Uses bs (s ++ " = " ++ t) := by
  have hmarks {g : String} (hg : g ∈ marks) : g ∈ "." :: marks := List.mem_cons_of_mem _ hg
  have hvalue := (ht.led (hmarks (g := " ") (by simp [marks]))).led (hmarks (g := "=") (by simp [marks]))
  simpa only [String.append_assoc, show " = " = " " ++ ("=" ++ " ") from rfl] using
    hs.glue hvalue (hmarks (g := " ") (by simp [marks]))

theorem uses_append (hb : Uses bs w) (ht : Uses bs t) : Uses bs (append w t) := by
  have hcall := (hb.glue (Uses.word (s := "append") (by decide)) List.mem_cons_self).called ht
  simpa only [append, String.append_assoc, show ".append(" = "." ++ ("append" ++ "(") from rfl] using hcall

theorem uses_shown (h : Uses bs t) : Uses bs (shown t) := by
  have hcall := (Uses.word (s := "str") (by decide)).called h
  simpa only [shown, String.append_assoc, show "str(" = "str" ++ "(" from rfl] using hcall

theorem uses_joined (h : Uses bs w) : Uses bs (joined w) := by
  have hempty : Uses bs "\"\"" := by
    have hliteral : Literal "\"\"".toList := ⟨'"', [], by decide, rfl, .nil⟩
    exact ⟨(ended_literal hliteral).grouped, covered_of_words (words_literal hliteral)⟩
  have hcall := (hempty.glue (Uses.word (s := "join") (by decide)) List.mem_cons_self).called h
  simpa only [joined, String.append_assoc, show "\"\".join(" = "\"\"" ++ ("." ++ ("join" ++ "(")) from rfl] using hcall

/-- A function of the runtime module with one argument. -/
theorem uses_runtime (hs : isIdentifier s.toList && !isBuffer s) (h : Uses bs t) :
    Uses bs ("_jt_rt." ++ s ++ "(" ++ t ++ ")") := by
  have hcall := ((Uses.word (s := "_jt_rt") (by decide)).glue (Uses.word hs) List.mem_cons_self).called h
  simpa only [String.append_assoc, show "_jt_rt." = "_jt_rt" ++ "." from rfl] using hcall

theorem uses_importText (h : Uses bs t) : Uses bs (importText t) := by
  have hcall := uses_runtime (s := "import_template") (by decide) h
  have htext : "_jt_rt." ++ "import_template" ++ "(" = "_jt_rt.import_template(" := by decide
  rwa [htext] at hcall

theorem covered_extends (path : String) : Covered bs ("_jt_rt.extends(" ++ Text.quote path ++ ")") :=
  (uses_runtime (s := "extends") (by decide) (.quote path)).covered

theorem uses_callerName (n : Nat) : Uses bs (callerName n) := by
  have hname : callerName n = "_jt_caller_" ++ toString n := rfl
  have hbuffer : isBuffer (callerName n) = false :=
    not_isBuffer_of_prefix (p := "_jt_caller_".toList) (by decide) (by simp [hname])
  exact .word (by simp [hbuffer, (isMade_callerName n).identifier])

/-- A text with something fixed behind it. -/
theorem Uses.covered_append (h : Uses bs s) (hd : t.toList.head?.any isDelimiter)
    (ht : (wordsOf t).all fun w => !isBuffer w) : Covered bs (s ++ t) := by
  obtain ⟨c, hc, hdelimiter⟩ := (Option.any_eq_true _ _).1 hd
  obtain ⟨cs, hcs⟩ := List.head?_eq_some_iff.1 hc
  refine h.covered.append (fun w hw hb => ?_) (words_append h.grouped ⟨c, cs, hcs, hdelimiter⟩)
  simpa [hb] using List.all_eq_true.1 ht w hw

theorem covered_opened (h : isIdentifier w.toList) (hw : w ∈ bs) : Covered bs (opened w) :=
  (Uses.name h fun _ => hw).covered_append (by decide) (by decide)

/-- A word and a value between blanks. -/
theorem uses_keyword (hw : isIdentifier w.toList && !isBuffer w) (h : Uses bs t) : Uses bs (w ++ " " ++ t) :=
  (Uses.word hw).glue h (by simp [marks])

theorem covered_condition (hw : isIdentifier w.toList && !isBuffer w) (h : Uses bs t) :
    Covered bs (w ++ " " ++ t ++ ":") :=
  (uses_keyword hw h).covered_append (by decide) (by decide)

theorem covered_unless (h : Uses bs t) : Covered bs ("if not " ++ t ++ ":") := by
  have hnot := covered_condition (w := "if") (by decide) (uses_keyword (w := "not") (by decide) h)
  simpa only [String.append_assoc, show "if not " = "if" ++ (" " ++ ("not" ++ " ")) from rfl] using hnot

theorem covered_elseHeader (h : Uses bs s) : Covered bs (elseHeader s) := by
  have hcall := covered_condition (w := "if") (by decide) (uses_runtime (s := "empty") (by decide) h)
  simpa only [elseHeader, String.append_assoc, show "if _jt_rt.empty(" = "if" ++ (" " ++ ("_jt_rt." ++ ("empty" ++ "(")))
    from rfl, show "):" = ")" ++ ":" from rfl] using hcall

theorem covered_loopHeader (ht : Uses bs t) (hs : Uses bs s) : Covered bs (loopHeader t s) := by
  have hsource := uses_keyword (w := "in") (by decide) (uses_runtime (s := "loop") (by decide) hs)
  have htargets := (Uses.word (s := "loop") (by decide)).glue (ht.glue hsource (g := " ") (by simp [marks]))
    (g := ", ") (by simp [marks])
  have hloop := covered_condition (w := "for") (by decide) htargets
  simpa only [loopHeader, String.append_assoc, show "for loop, " = "for" ++ (" " ++ ("loop" ++ ", ")) from rfl,
    show " in _jt_rt.loop(" = " " ++ ("in" ++ (" " ++ ("_jt_rt." ++ ("loop" ++ "(")))) from rfl,
    show "):" = ")" ++ ":" from rfl] using hloop

theorem uses_declaration (h : IsFree s) : Uses bs (declaration s anyType) := by
  have htype := (Uses.word (s := "typing") (by decide)).glue (Uses.word (by decide) : Uses bs "Any")
    List.mem_cons_self
  exact (uses_identifier h).glue htype (by simp [marks])

theorem uses_parameterText {default : Option String} (h : IsFree s) (hd : Given (Uses bs) default) :
    Uses bs (parameterText s default) :=
  uses_equals (uses_declaration h) (uses_getD hd (.word (by decide)))

theorem uses_parameters {allowCaller : Bool} (hp : ∀ s ∈ params, IsFree s) (hd : ∀ t ∈ defaults, Uses bs t) :
    Uses bs (parameters allowCaller params defaults used) := by
  have hany := (Uses.word (s := "typing") (by decide)).glue (Uses.word (by decide) : Uses bs "Any")
    List.mem_cons_self
  have hrest {x : String} (hname : isIdentifier x.toList && !isBuffer x) : Uses bs (x ++ ": " ++ "typing.Any") :=
    (Uses.word hname).glue hany (by simp [marks])
  refine Uses.commaSeparated fun t ht => ?_
  simp only [List.mem_append, List.mem_map] at ht
  obtain ((⟨p, hp', rfl⟩ | ht) | ht) | ht := ht
  · refine uses_parameterText (hp _ (List.of_mem_zip hp').1) fun t ht => ?_
    have hmem := (List.of_mem_zip hp').2
    rw [ht] at hmem
    simp only [List.mem_append, List.mem_replicate, List.mem_map, reduceCtorEq, and_false, false_or,
      Option.some.injEq, exists_eq_right] at hmem
    exact hd t hmem
  · split at ht
    · obtain rfl := List.mem_singleton.1 ht
      exact uses_signed (g := "*") (hrest (x := "varargs") (by decide)) (by simp)
    · split at ht
      · obtain rfl := List.mem_singleton.1 ht
        exact uses_signed (g := "*") .empty (by simp)
      · cases ht
  · split at ht
    · obtain rfl := List.mem_singleton.1 ht
      have hmember {x : String} (hname : isIdentifier x.toList && !isBuffer x) : Uses bs ("_jt_rt" ++ "." ++ x) :=
        (Uses.word (by decide)).glue (.word hname) List.mem_cons_self
      exact uses_equals ((Uses.word (s := "caller") (by decide)).glue (hmember (x := "Caller") (by decide)) (g := ": ")
        (by simp [marks])) (hmember (x := "no_caller") (by decide))
    · cases ht
  · split at ht
    · obtain rfl := List.mem_singleton.1 ht
      exact uses_signed (g := "**") (hrest (x := "kwargs") (by decide)) (by simp)
    · cases ht

theorem covered_functionHeader (hs : Uses bs s) (ht : Uses bs t) : Covered bs (functionHeader s t) := by
  have hcall := (uses_keyword (w := "def") (by decide) hs).called ht
  have htext : functionHeader s t = "def" ++ " " ++ s ++ "(" ++ t ++ ")" ++ " -> str:" := by
    simp [functionHeader, ← String.toList_inj]
  rw [htext]
  exact hcall.covered_append (by decide) (by decide)

/-! ### Statements and headers -/

/-- A value with no other buffers than these. -/
structure IsValue (bs : List String) (s : String) : Prop where
  phrase : IsPhrase s
  uses : Uses bs s

/-- The text of a statement by itself. -/
structure IsPlain (bs : List String) (s : String) : Prop where
  line : IsLine .statement s
  own : ¬ IsBound s
  flat : opensBlock s = false
  covered : Covered bs s

/-- The text of a header, but of no function. With `c` it may go on with a condition. -/
structure IsHead (c : Bool) (bs : List String) (s : String) : Prop where
  line : IsLine .header s
  own : ¬ IsBound s
  clause : continuesGroup s → c
  function : isFunction s = false
  covered : Covered bs s

theorem isPlain_append (hw : IsMade w) (hb : w ∈ bs) (ht : IsValue bs t) : IsPlain bs (append w t) where
  line := isLine_append hw ht.phrase
  own := own_append w t
  flat := opensBlock_concat _ (c := ')') rfl (by decide)
  covered := (uses_append (.name hw.identifier fun _ => hb) ht.uses).covered

theorem isPlain_assignment (ht : IsTarget t) (hu : Uses bs t) (hv : IsValue bs v) : IsPlain bs (t ++ " = " ++ v) where
  line := isLine_assignment ht hv.phrase
  own := own_assignment ht hv.phrase
  flat := opensBlock_of_phrase _ hv.phrase
  covered := (uses_equals hu hv.uses).covered

theorem isPlain_value (h : IsValue bs s) : IsPlain bs s where
  line := isLine_phrase h.phrase
  own := own_phrase h.phrase
  flat := by simpa using opensBlock_of_phrase "" h.phrase
  covered := h.uses.covered

theorem isPlain_word (cs : List Char) (h : isIdentifier cs)
    (hs : String.ofList cs ∉ leads ∧ String.ofList cs ∉ headers) (hr : word cs ≠ runtime)
    (hown : ¬ IsBound (String.ofList cs)) (hb : isBuffer (String.ofList cs) = false)
    (hflat : opensBlock (String.ofList cs) = false) : IsPlain bs (String.ofList cs) :=
  ⟨isLine_word h hs hr, hown, hflat, (Uses.word (by simp [h, hb])).covered⟩

theorem isPlain_pass : IsPlain bs "pass" :=
  isPlain_word "pass".toList (by decide) (by decide) (by decide) (by decide) (by decide) (by decide)

theorem isPlain_continue : IsPlain bs "continue" :=
  isPlain_word "continue".toList (by decide) (by decide) (by decide) (by decide) (by decide) (by decide)

theorem isPlain_break : IsPlain bs "break" :=
  isPlain_word "break".toList (by decide) (by decide) (by decide) (by decide) (by decide) (by decide)

theorem isFunction_functionHeader (s t : String) : isFunction (functionHeader s t) := by
  have hword : firstWord (functionHeader s t) = "def".toList :=
    firstWord_of (c := ' ') (r := (s ++ "(" ++ t ++ ") -> str:").toList) (by simp [functionHeader]) (by decide) (by decide)
  simp [isFunction, hword]

theorem continuesGroup_functionHeader (s t : String) : continuesGroup (functionHeader s t) = false := by
  have hword := isFunction_functionHeader s t
  rw [isFunction, beq_iff_eq] at hword
  refine Bool.eq_false_iff.2 fun h => ?_
  obtain h | h := continuesGroup_firstWord h <;> exact absurd (hword.symm.trans h) (by decide)

/-- A header that begins with a word of its own. -/
theorem isHead_of {r : List Char} (hline : IsLine .header s) (hown : ¬ IsBound s) (hcovered : Covered bs s)
    (hs : s.toList = w.toList ++ ' ' :: r) (hw : w ∈ ["if", "for"]) (c : Bool) : IsHead c bs s := by
  have hall : ["if", "for"].all fun w => w.toList.all isIdentifierContinue && w.toList != "def".toList &&
      w.toList != "else".toList && w.toList != "elif".toList := by decide
  obtain ⟨⟨⟨hcontinue, hdef⟩, helse⟩, helif⟩ := by
    simpa only [Bool.and_eq_true, bne_iff_ne] using List.all_eq_true.1 hall w hw
  have hword := firstWord_of hs hcontinue (by decide)
  refine ⟨hline, hown, fun h => ?_, by simpa [isFunction, hword] using hdef, hcovered⟩
  obtain h | h := continuesGroup_firstWord h
  · exact absurd (hword.symm.trans h) helse
  · exact absurd (hword.symm.trans h) helif

theorem isHead_loop (ht : IsValue bs t) (hs : IsValue bs s) (c : Bool) : IsHead c bs (loopHeader t s) :=
  isHead_of (w := "for") (r := ("loop, " ++ t ++ " in _jt_rt.loop(" ++ s ++ "):").toList)
    (isLine_loopHeader ht.phrase hs.phrase) (own_loopHeader t s) (covered_loopHeader ht.uses hs.uses)
    (by simp [loopHeader]) (by simp) c

theorem isHead_empty (hs : IsValue bs s) (c : Bool) : IsHead c bs (elseHeader s) :=
  isHead_of (w := "if") (r := ("_jt_rt.empty(" ++ s ++ "):").toList) (isLine_elseHeader hs.phrase) (own_elseHeader s)
    (covered_elseHeader hs.uses) (by simp [elseHeader]) (by simp) c

theorem isHead_unless (hs : IsValue bs s) (c : Bool) : IsHead c bs ("if not " ++ s ++ ":") :=
  isHead_of (w := "if") (r := ("not " ++ s ++ ":").toList) (isLine_unless hs.phrase) (own_header (by simp))
    (covered_unless hs.uses) (by simp) (by simp) c

theorem isHead_if (hs : IsValue bs s) (c : Bool) : IsHead c bs ("if " ++ s ++ ":") :=
  isHead_of (w := "if") (r := (s ++ ":").toList) (isLine_condition (w := "if") (by decide) (by decide) hs.phrase)
    (own_header (by simp)) (covered_condition (w := "if") (by decide) hs.uses) (by simp) (by simp) c

theorem firstWord_elif (s : String) : firstWord ("elif " ++ s ++ ":") = "elif".toList :=
  firstWord_of (c := ' ') (r := (s ++ ":").toList) (by simp) (by decide) (by decide)

theorem isHead_elif (hs : IsValue bs s) : IsHead true bs ("elif " ++ s ++ ":") where
  line := isLine_condition (w := "elif") (by decide) (by decide) hs.phrase
  own := own_header (by simp)
  clause _ := rfl
  function := by simp [isFunction, firstWord_elif]
  covered := covered_condition (w := "elif") (by decide) hs.uses

theorem isHead_else : IsHead true bs "else:" where
  line := isLine_else
  own := by decide
  clause _ := rfl
  function := by decide
  covered := by simp [Covered, show wordsOf "else:" = ["else"] from rfl, show isBuffer "else" = false from rfl]

theorem isCondition_if (s : String) : isCondition ("if " ++ s ++ ":") := by
  have hword : firstWord ("if " ++ s ++ ":") = "if".toList :=
    firstWord_of (c := ' ') (r := (s ++ ":").toList) (by simp) (by decide) (by decide)
  simp [isCondition, hword]

theorem isCondition_elif (s : String) : isCondition ("elif " ++ s ++ ":") := by
  simp [isCondition, firstWord_elif]

end Stencil.Compile
