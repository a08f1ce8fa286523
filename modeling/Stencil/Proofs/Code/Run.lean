import Stencil.Proofs.Code.Number

/-!
A number may swallow the points and words behind it in more than one way. What it is read as is only
described.
-/
namespace Stencil.Code.Token
open Text

variable {c c' : Cursor} {d : Char} {cs rest : List Char} {g : Gap} {n k r : Nat} {i : Option Nat}
  {t : Token} {ts : List Token} {shape : Shape} {s : String}

theorem Cursor.advance_advance (c : Cursor) (j k : Nat) :
    (c.advance j).advance k = c.advance (j + k) := by
  simp only [Cursor.advance, List.take_add, List.drop_drop, List.length_append, Cursor.newlines,
    List.count_append, Nat.add_assoc]

theorem Cursor.row_advance (h : '\n' ∉ c.rest.take k) : (c.advance k).row = c.row := by
  simp [Cursor.advance, Cursor.newlines, List.count_eq_zero.2 h]

/-- A digit and what may be run together with it. -/
structure Run (cs : List Char) : Prop where
  chars : ∀ c ∈ cs, isRunChar c
  next : ∀ a c b, cs = a ++ c :: b → isIdentifierContinue c = false →
    ∃ d ∈ b.head?, isIdentifierContinue d ∧ (c = '.' ∨ d.isDigit)

theorem Run.drop (h : Run cs) (k : Nat) : Run (cs.drop k) where
  chars c hc := h.chars c (List.mem_of_mem_drop hc)
  next a c b he := h.next (cs.take k ++ a) c b (by rw [List.append_assoc, ← he, List.take_append_drop])

/-- What a piece of a run is. -/
inductive Scrap (cs : List Char) (t : Token) : Prop
  | number (hshape : t.shape = .number)
      (htext : ∃ c ∈ t.text.toList.head?, c.isDigit ∨ c = '.' ∧ t.text ≠ ".")
  | name (hshape : t.shape = .name) (htext : t.text.toList <:+: cs) (hname : isIdentifier t.text.toList)
  | symbol (hshape : t.shape = .symbol) (htext : t.text ∈ [".", "+", "-"])

theorem Scrap.mono {ds : List Char} (h : Scrap cs t) (hs : cs <:+: ds) : Scrap ds t := by
  cases h with
  | number hshape htext => exact .number hshape htext
  | name hshape htext hname => exact .name hshape (htext.trans hs) hname
  | symbol hshape htext => exact .symbol hshape htext

/-- A name stands behind a number or a point. -/
def Linked (t u : Token) : Prop := u.shape = .name → t.shape = .number ∨ t.text = "."

/-- The pieces that a run is read as. -/
structure Scraps (cs : List Char) (r : Nat) (g : Gap) (us : List Token) : Prop where
  head : ∃ t ts, us = t :: ts ∧ t.indent = g.indent ∧ t.comments = g.comments ∧
    (∀ u ∈ ts, u.indent = none ∧ u.comments = []) ∧
    (t.shape = .name → ∃ c ∈ cs.head?, isIdentifierStart c)
  rows : ∀ t ∈ us, t.row = r ∧ t.endRow = r
  scrap : ∀ t ∈ us, Scrap cs t
  linked : us.IsChain Linked
  last : ∀ t ∈ us.getLast?, t.shape ≠ .symbol

theorem not_continue_of_endsNumber (h : endsNumber d) : isIdentifierContinue d = false ∧ isQuote d = false ∧
    isRunChar d = false := by
  simp only [endsNumber, isRunChar, Bool.and_eq_true, Bool.not_eq_true', Bool.or_eq_false_iff] at h
  simp [isRunChar, h]

theorem runLength_append (hcs : ∀ c ∈ cs, isRunChar c) (hrest : ∀ c ∈ rest.head?, endsNumber c) :
    runLength (cs ++ rest) = cs.length := by
  have hstop : rest.takeWhile isRunChar = [] := by
    cases rest with
    | nil => rfl
    | cons d rest => simp [(not_continue_of_endsNumber (hrest d rfl)).2.2]
  rw [runLength, List.takeWhile_append_of_pos hcs, hstop, List.append_nil]

theorem isQuote_of_isRunChar (h : isRunChar d) : isQuote d = false := by
  simp only [isRunChar, Bool.or_eq_true, beq_iff_eq] at h
  obtain ((h | rfl) | rfl) | rfl := h
  · exact isQuote_of_continue h
  all_goals decide

theorem head_take {n : Nat} (hn : 0 < n) (cs : List Char) : d ∈ ((d :: cs).take n).head? := by
  obtain ⟨k, rfl⟩ := Nat.exists_eq_succ_of_ne_zero hn.ne'
  rfl

section Pieces

variable (hcs : Run (d :: cs)) (hrest : ∀ c ∈ rest.head?, endsNumber c)
include hcs hrest

/-- A number at the start of a run. -/
theorem scrap_number (hd : d.isDigit ∨ d = '.' ∧ ∃ e ∈ cs.head?, e.isDigit) :
    0 < numberLength (d :: cs ++ rest) ∧ numberLength (d :: cs ++ rest) ≤ cs.length + 1 ∧
      ∀ t : Token, t.shape = .number →
        t.text = String.ofList ((d :: cs).take (numberLength (d :: cs ++ rest))) →
          Scrap (d :: cs) t := by
  have hle := numberLength_le (d :: cs ++ rest)
  rw [runLength_append hcs.chars hrest] at hle
  obtain hd | ⟨rfl, e, he, hd⟩ := hd
  · have hpos : 0 < numberLength (d :: cs ++ rest) := numberLength_pos hd
    refine ⟨hpos, hle, fun t hshape htext => .number hshape ⟨d, ?_, .inl hd⟩⟩
    rw [htext, String.toList_ofList]
    exact head_take hpos cs
  · obtain ⟨cs, rfl⟩ : ∃ ds, cs = e :: ds := ⟨cs.tail, (List.cons_head?_tail he).symm⟩
    have hlt : 1 < numberLength ('.' :: e :: cs ++ rest) := numberLength_fraction hd
    have hpos := Nat.zero_lt_of_lt hlt
    refine ⟨hpos, hle, fun t hshape htext => .number hshape ⟨'.', ?_, .inr ⟨rfl, ?_⟩⟩⟩
    · rw [htext, String.toList_ofList]
      exact head_take hpos _
    · obtain ⟨k, hk⟩ := Nat.exists_eq_add_of_lt hlt
      rw [htext, hk, show 1 + k + 1 = k + 2 by omega]
      intro he
      simpa using congrArg String.toList he

omit hcs in
/-- A name at the start of a run. -/
theorem scrap_name (hd : isIdentifierStart d) :
    (cs ++ rest).takeWhile isIdentifierContinue = cs.takeWhile isIdentifierContinue ∧
      ∀ t : Token, t.shape = .name →
        t.text = String.ofList ((d :: cs).take ((cs.takeWhile isIdentifierContinue).length + 1)) →
          Scrap (d :: cs) t := by
  have hstop : rest.takeWhile isIdentifierContinue = [] := by
    cases rest with
    | nil => rfl
    | cons e rest => simp [(not_continue_of_endsNumber (hrest e rfl)).1]
  have htake := take_takeWhile isIdentifierContinue cs
  refine ⟨?_, fun t hshape htext => .name hshape ?_ ?_⟩
  · rw [List.takeWhile_append]
    split
    · next h => rw [hstop, List.append_nil, ← htake, h, List.take_length]
    · rfl
  · rw [htext, String.toList_ofList]
    exact (List.take_prefix _ _).isInfix
  · rw [htext, String.toList_ofList, List.take_succ_cons, htake]
    simp only [isIdentifier, hd, Bool.true_and]
    exact List.all_takeWhile

end Pieces

/-- The piece at the start of a run. -/
theorem scan_run (hcs : Run (d :: cs)) (hrest : ∀ c ∈ rest.head?, endsNumber c)
    (h : scan (d :: cs ++ rest) = some (shape, k)) :
    0 < k ∧ k ≤ cs.length + 1 ∧ shape ≠ .stop ∧
      (∀ t : Token, t.shape = shape → t.text = String.ofList ((d :: cs).take k) →
        Scrap (d :: cs) t) ∧
      (shape = .name → isIdentifierStart d ∧
        ∀ c ∈ ((d :: cs).drop k).head?, isIdentifierStart c = false) ∧
      (shape = .symbol → ∃ c ∈ ((d :: cs).drop k).head?,
        String.ofList ((d :: cs).take k) = "." ∨ isIdentifierStart c = false) := by
  have hquote : quotedLength? (d :: cs ++ rest) = none :=
    quotedLength_none_of_names (fun e he => isQuote_of_isRunChar (hcs.chars e he)) fun e he => by
      have := not_continue_of_endsNumber (hrest e he)
      simp [endsName, this]
  have hscan := h
  rw [scan.eq_def, hquote] at h
  simp only [List.cons_append] at h
  split at h
  · next hd =>
    obtain ⟨htake, hscrap⟩ := scrap_name hrest hd
    rw [htake] at h
    cases h
    have hle := (List.takeWhile_prefix isIdentifierContinue (l := cs)).length_le
    refine ⟨by omega, by omega, by simp, hscrap, fun _ => ⟨hd, fun c hc => ?_⟩, by simp⟩
    rw [List.drop_succ_cons, drop_takeWhile] at hc
    by_contra hstart
    have := List.head?_dropWhile_not isIdentifierContinue cs
    rw [Option.mem_def.1 hc] at this
    simp [continue_of_start (by simpa using hstart)] at this
  · next hd =>
    split at h
    · next hnumber =>
      cases h
      have hnumber : d.isDigit ∨ d = '.' ∧ ∃ e ∈ cs.head?, e.isDigit := by
        simp only [Bool.or_eq_true, Bool.and_eq_true, beq_iff_eq] at hnumber
        refine hnumber.imp_right fun h => ⟨h.1, ?_⟩
        obtain ⟨hpoint, he⟩ := h
        obtain ⟨e, he', -⟩ := hcs.next [] d cs rfl (by subst hpoint; decide)
        refine ⟨e, he', ?_⟩
        obtain ⟨cs, rfl⟩ : ∃ ds, cs = e :: ds := ⟨cs.tail, (List.cons_head?_tail he').symm⟩
        simpa using he
      obtain ⟨hpos, hle, hscrap⟩ := scrap_number hcs hrest hnumber
      exact ⟨hpos, hle, by simp, hscrap, by simp, by simp⟩
    · next hnumber =>
      have hcontinue : isIdentifierContinue d = false := by
        by_contra hc
        simp [symbolLength_none (by simpa using hc)] at h
      obtain ⟨e, he, hnext, hafter⟩ := hcs.next [] d cs rfl hcontinue
      obtain ⟨cs, rfl⟩ : ∃ ds, cs = e :: ds := ⟨cs.tail, (List.cons_head?_tail he).symm⟩
      have hd : d = '.' ∨ d = '+' ∨ d = '-' := by
        have := hcs.chars d (by simp)
        simpa [isRunChar, hcontinue, or_assoc] using this
      have hsymbol : (String.ofList [d]) ∈ symbols ∧ (String.ofList [d]) ∈ [".", "+", "-"] := by
        obtain rfl | rfl | rfl := hd <;> decide
      have hdot : String.ofList [d] = "." → e.isDigit = false := by
        intro hs
        obtain rfl : d = '.' := by simpa using congrArg String.toList hs
        simpa using hnumber
      have hhead : ∀ c ∈ (e :: cs ++ rest).head?, c = e := by simp
      have hsymbol' := scan_symbol hsymbol.1 (fun c hc => hhead c hc ▸ joins_continue hnext _)
        (fun hs c hc => hhead c hc ▸ hdot hs)
      rw [String.toList_ofList] at hsymbol'
      have hk := hscan.symm.trans hsymbol'
      simp only [Option.some.injEq, Prod.mk.injEq, String.length_ofList, List.length_singleton] at hk
      obtain ⟨rfl, rfl⟩ := hk
      refine ⟨Nat.one_pos, by omega, by simp, fun t hshape htext => .symbol hshape ?_, by simp,
        fun _ => ⟨e, rfl, ?_⟩⟩
      · rw [htext]
        exact hsymbol.2
      · refine hafter.imp (fun hd => ?_) fun he => ?_
        · simp [hd]
        · by_contra hs
          have := isDigit_of_isIdentifierStart (by simpa using hs)
          simp [he] at this

theorem Run.not_newline (h : Run cs) : '\n' ∉ cs := fun hn => by
  have := h.chars _ hn
  revert this
  decide

theorem Cursor.row_advance_append (h : c.rest = cs ++ rest) (hcs : '\n' ∉ cs) (hk : k ≤ cs.length) :
    (c.advance k).row = c.row := by
  refine row_advance ?_
  rw [h, List.take_append_of_le_length hk]
  exact fun hn => hcs (List.mem_of_mem_take hn)

theorem Cursor.rest_advance (h : c.rest = cs ++ rest) (hk : k ≤ cs.length) :
    (c.advance k).rest = cs.drop k ++ rest := by
  simp [advance, h, List.drop_append_of_le_length hk]

theorem isSolid_of_isRunChar (h : isRunChar d) : isSolid d := by
  simp only [isRunChar, Bool.or_eq_true, beq_iff_eq] at h
  obtain ((h | rfl) | rfl) | rfl := h
  · exact isSolid_of_continue h
  all_goals decide

/-- A run is read piece by piece. -/
theorem allFrom_run (hcs : Run cs) (hne : cs ≠ []) (hrest : ∀ c ∈ rest.head?, endsNumber c)
    (h : allFrom n i c = some ts) (hs : Skips ⟨i, []⟩ c g c') (hc' : c'.rest = cs ++ rest) :
    ∃ us ws m, ts = us ++ ws ∧ Scraps cs c'.row g us ∧
      allFrom m none (c'.advance cs.length) = some ws := by
  induction hl : cs.length using Nat.strong_induction_on generalizing cs c c' g n i ts with
  | _ l ih =>
    obtain ⟨d, cs, rfl⟩ := List.exists_cons_of_ne_nil hne
    obtain ⟨shape, k, hscan⟩ := exists_scan h hs
    rw [hc'] at hscan
    obtain ⟨hpos, hle, hshape, hscrap, hname, hsymbol⟩ := scan_run hcs hrest hscan
    obtain ⟨m, us, rfl, hus⟩ := allFrom_next h hs (by rwa [hc']) hshape
    have hle' : k ≤ (d :: cs).length := hle
    have hrow := Cursor.row_advance_append hc' hcs.not_newline hle'
    have htext : (tokenAt g c' shape k).text = String.ofList ((d :: cs).take k) := by
      simp only [tokenAt, hc', List.take_append_of_le_length hle']
    have hpiece := hscrap (tokenAt g c' shape k) rfl htext
    have hstart : (tokenAt g c' shape k).shape = .name → ∃ c ∈ (d :: cs).head?, isIdentifierStart c :=
      fun hn => ⟨d, rfl, (hname hn).1⟩
    have hrows : (tokenAt g c' shape k).row = c'.row ∧ (tokenAt g c' shape k).endRow = c'.row :=
      ⟨rfl, hrow⟩
    subst hl
    cases hdrop : (d :: cs).drop k with
    | nil =>
      have hk : k = (d :: cs).length := by
        have := congrArg List.length hdrop
        simp only [List.length_drop, List.length_nil] at this
        omega
      refine ⟨[tokenAt g c' shape k], us, m, rfl, ?_, hk ▸ hus⟩
      refine ⟨⟨_, [], rfl, rfl, rfl, by simp, hstart⟩, by simpa using hrows, by simpa using hpiece,
        .singleton _, fun t ht hsym => ?_⟩
      obtain rfl : tokenAt g c' shape k = t := by simpa using ht
      obtain ⟨e, he, -⟩ := hsymbol hsym
      simp [hdrop] at he
    | cons e es =>
      have hlength : (e :: es).length < (d :: cs).length := by
        rw [← hdrop, List.length_drop]
        omega
      have hrest' : (c'.advance k).rest = e :: es ++ rest := by
        rw [Cursor.rest_advance hc' hle', hdrop]
      have hrun : Run (e :: es) := hdrop ▸ hcs.drop k
      have hsolid : isSolid e := isSolid_of_isRunChar (hrun.chars e (by simp))
      obtain ⟨vs, ws, m', rfl, hscraps, hws⟩ := ih _ hlength hrun (by simp) hus
        (.here hrest' hsolid) hrest' rfl
      have hadvance : (c'.advance k).advance (e :: es).length = c'.advance (d :: cs).length := by
        rw [Cursor.advance_advance, ← hdrop, List.length_drop]
        congr 1
        omega
      rw [hadvance] at hws
      refine ⟨tokenAt g c' shape k :: vs, ws, m', rfl, ?_, hws⟩
      obtain ⟨u, vs, rfl, hindent, hcomments, hothers, hstart'⟩ := hscraps.head
      have hlinked : Linked (tokenAt g c' shape k) u := by
        intro hu
        obtain ⟨e', he', hstart⟩ := hstart' hu
        obtain rfl : e = e' := by simpa using he'
        cases hpiece with
        | number hnumber => exact .inl hnumber
        | name hn =>
          have := (hname hn).2 e (by simp [hdrop])
          simp [hstart] at this
        | symbol hsym =>
          obtain ⟨e', he', hafter⟩ := hsymbol hsym
          obtain rfl : e = e' := by simpa [hdrop] using he'
          exact .inr (htext.trans (hafter.resolve_right (by simp [hstart])))
      refine ⟨⟨_, u :: vs, rfl, rfl, rfl, ?_, hstart⟩, ?_, ?_,
        List.isChain_cons_cons.2 ⟨hlinked, hscraps.linked⟩, fun t ht => hscraps.last t (by simpa using ht)⟩
      · intro t ht
        obtain rfl | ht := List.mem_cons.1 ht
        · exact ⟨hindent, hcomments⟩
        · exact hothers t ht
      · intro t ht
        obtain rfl | ht := List.mem_cons.1 ht
        · exact hrows
        · exact hrow ▸ hscraps.rows t ht
      · intro t ht
        obtain rfl | ht := List.mem_cons.1 ht
        · exact hpiece
        · exact (hscraps.scrap t ht).mono (hdrop ▸ (List.drop_suffix ..).isInfix)

end Stencil.Code.Token
