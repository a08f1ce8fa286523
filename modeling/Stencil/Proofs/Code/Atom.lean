import Stencil.Proofs.Code.Scan

/-! What lines of code are put together from, and the token that each part is. -/
namespace Stencil.Code
open Text Token

variable {c d q : Char} {cs ds rest : List Char} {s t : String} {k : Nat}

inductive Atom
  | word (cs : List Char)
  /-- A number with the attributes behind it: a point may be read as part of the number. -/
  | number (cs : List Char)
  /-- A literal with its quotes. -/
  | quoted (cs : List Char)
  | symbol (s : String)
  /-- An attribute with the point in front of it. -/
  | member (cs : List Char)
  | blank
deriving DecidableEq, Repr

namespace Atom

def chars : Atom → List Char
  | word cs | number cs | quoted cs => cs
  | symbol s => s.toList
  | member cs => '.' :: cs
  | blank => [' ']

def spell (as : List Atom) : List Char := as.flatMap chars

end Atom

namespace Token

theorem quotedLength_none (h : ∀ q ∈ (cs.dropWhile isPrefixLetter).head?, isQuote q = false) :
    quotedLength? cs = none := by
  simp only [quotedLength?, drop_takeWhile]
  cases hr : cs.dropWhile isPrefixLetter with
  | nil => rfl
  | cons q ds => simp [h q (by simp [hr])]

/-- Behind the letters that a text begins with stands one of its characters or what follows. -/
theorem head_dropWhile_append {p : Char → Bool} (h : c ∈ ((cs ++ rest).dropWhile p).head?) :
    c ∈ cs ∨ c ∈ (rest.dropWhile p).head? := by
  induction cs with
  | nil => exact .inr h
  | cons d cs ih =>
    rw [List.cons_append, List.dropWhile_cons] at h
    split at h
    · exact (ih h).imp_left (List.mem_cons_of_mem _)
    · obtain rfl : d = c := by simpa using h
      simp

/-- Where no quote and no letter of a name stands, names end. -/
def endsName (c : Char) : Bool := !isIdentifierContinue c && !isQuote c

theorem isPrefixLetter_of_endsName (h : endsName c) : isPrefixLetter c = false := by
  by_contra hp
  simp [endsName, continue_of_isPrefixLetter (by simpa using hp)] at h

theorem quotedLength_none_of_names (hcs : ∀ c ∈ cs, isQuote c = false)
    (hrest : ∀ c ∈ rest.head?, endsName c) : quotedLength? (cs ++ rest) = none := by
  refine quotedLength_none fun q hq => ?_
  obtain hq | hq := head_dropWhile_append hq
  · exact hcs q hq
  · cases rest with
    | nil => simp at hq
    | cons c rest =>
      have hc := hrest c rfl
      rw [List.dropWhile_cons, isPrefixLetter_of_endsName hc] at hq
      obtain rfl : c = q := by simpa using hq
      simp [endsName] at hc
      exact hc.2

theorem scan_word (hcs : isIdentifier cs) (hrest : ∀ c ∈ rest.head?, endsName c) :
    scan (cs ++ rest) = some (.name, cs.length) := by
  cases cs with
  | nil => simp [isIdentifier] at hcs
  | cons c cs =>
    have hquote := quotedLength_none_of_names
      (fun d hd => isQuote_of_continue (continue_of_mem_identifier hcs d hd)) hrest
    simp only [isIdentifier, Bool.and_eq_true, List.all_eq_true] at hcs
    have hstop : rest.takeWhile isIdentifierContinue = [] := by
      cases rest with
      | nil => rfl
      | cons d rest =>
        have hd := hrest d rfl
        simp only [endsName, Bool.and_eq_true, Bool.not_eq_true'] at hd
        simp [hd.1]
    have htake : (cs ++ rest).takeWhile isIdentifierContinue = cs := by
      rw [List.takeWhile_append_of_pos hcs.2, hstop, List.append_nil]
    rw [scan.eq_def, hquote]
    simp only [List.cons_append, hcs.1, if_true, htake, List.length_cons]

/-- A literal's inside: characters other than the quote, and escapes. -/
inductive Inside (q : Char) : List Char → Prop
  | nil : Inside q []
  | plain {c : Char} {cs : List Char} (hc : c ≠ q ∧ c ≠ '\\' ∧ c ≠ '\n') (h : Inside q cs) :
      Inside q (c :: cs)
  | escape {c : Char} {cs : List Char} (hc : c ≠ '\n') (h : Inside q cs) : Inside q ('\\' :: c :: cs)

theorem Inside.append (h : Inside q cs) (h' : Inside q ds) : Inside q (cs ++ ds) := by
  induction h with
  | nil => exact h'
  | plain hc _ ih => exact .plain hc ih
  | escape hc _ ih => exact .escape hc ih

theorem Inside.quotedTail (h : Inside q cs) (hq : isQuote q) :
    quotedTail false q (cs ++ q :: rest) = some (cs.length + 1) := by
  have hne : q ≠ '\\' := by rintro rfl; revert hq; decide
  induction h with
  | nil =>
    rw [List.nil_append, Token.quotedTail.eq_def]
    split
    · simp_all
    · simp_all
    · next c cs _ he =>
      simp only [List.cons.injEq] at he
      simp [← he.1]
  | @plain c cs hc _ ih =>
    rw [List.cons_append, Token.quotedTail.eq_def]
    split
    · simp_all
    · simp_all
    · next c' cs' _ he =>
      obtain ⟨rfl, rfl⟩ := List.cons.inj he
      simp [hc.1, hc.2.2, ih]
  | escape _ _ ih =>
    simp [Token.quotedTail, ih]

/-- A literal in quotes. -/
structure Literal (cs : List Char) : Prop where
  quoted : ∃ q inside, isQuote q ∧ cs = q :: inside ++ [q] ∧ Inside q inside

theorem Inside.not_newline (h : Inside q cs) : '\n' ∉ cs := by
  induction h with
  | nil => simp
  | plain hc _ ih => simpa [hc.2.2.symm] using ih
  | escape hc _ ih => simpa [hc.symm] using ih

theorem Literal.not_newline (h : Literal cs) : '\n' ∉ cs := by
  obtain ⟨q, inside, hq, rfl, hinside⟩ := h
  have hne : '\n' ≠ q := by rintro rfl; revert hq; decide
  simpa [hne] using hinside.not_newline

theorem scan_quoted (h : Literal cs) (hrest : ∀ c ∈ rest.head?, isQuote c = false) :
    scan (cs ++ rest) = some (.quoted, cs.length) := by
  obtain ⟨q, inside, hq, rfl, hinside⟩ := h
  have hletter : isPrefixLetter q = false := by
    simp only [isQuote, Bool.or_eq_true, beq_iff_eq] at hq
    obtain rfl | rfl := hq <;> decide
  have hlong : [q, q].isPrefixOf (inside ++ q :: rest) = false := by
    cases hinside with
    | nil =>
      cases rest with
      | nil => simp [List.isPrefixOf]
      | cons d rest =>
        have hne : q ≠ d := by
          rintro rfl
          simp [hrest q rfl] at hq
        simp [List.isPrefixOf, hne]
    | plain hc => simp [List.isPrefixOf, hc.1.symm]
    | escape _ =>
      have hne : q ≠ '\\' := by rintro rfl; revert hq; decide
      simp [List.isPrefixOf, hne]
  have hlength : quotedLength? (q :: inside ++ [q] ++ rest) = some (some (inside.length + 2)) := by
    simp only [quotedLength?, List.cons_append, List.append_assoc, List.takeWhile_cons, hletter]
    simp [hq, hlong, hinside.quotedTail hq]
  rw [scan.eq_def, hlength]
  simp

/-- Holds if a symbol together with a character is more of a symbol. -/
def joins (s : String) (c : Char) : Bool := symbols.any fun t => (s.toList ++ [c]).isPrefixOf t.toList

theorem symbols_ordered : symbols.Pairwise fun t s => t.toList.isPrefixOf s.toList → t = s := by
  decide

theorem symbolLength_eq (hs : s ∈ symbols) (hrest : ∀ c ∈ rest.head?, joins s c = false) :
    symbolLength (s.toList ++ rest) = some s.length := by
  have hself : s.toList.isPrefixOf (s.toList ++ rest) := by simp
  cases hf : symbols.find? fun t => t.toList.isPrefixOf (s.toList ++ rest) with
  | none => exact absurd hself (List.find?_eq_none.1 hf s hs)
  | some t =>
    have hsame : t = s := by
      obtain ⟨ht, before, behind, hsymbols, hnot⟩ := List.find?_eq_some_iff_append.1 hf
      rw [List.isPrefixOf_iff_prefix] at ht
      have hlength : t.toList.length ≤ s.toList.length := by
        by_contra hlt
        obtain ⟨more, hmore⟩ := List.prefix_of_prefix_length_le (List.prefix_append s.toList rest) ht
          (by omega)
        cases more with
        | nil => simp [← hmore] at hlt
        | cons c more =>
          obtain ⟨tail, htail⟩ := ht
          rw [← hmore, List.append_assoc] at htail
          have hrest' : c :: more ++ tail = rest := List.append_cancel_left htail
          have hjoins : joins s c := by
            refine List.any_eq_true.2 ⟨t, by simp [hsymbols], ?_⟩
            rw [List.isPrefixOf_iff_prefix, ← hmore]
            exact ⟨more, by simp⟩
          simp [hrest c (by simp [← hrest'])] at hjoins
      have hprefix := List.prefix_of_prefix_length_le ht (List.prefix_append ..) hlength
      have hordered := symbols_ordered
      rw [hsymbols] at hs hordered
      obtain hs | hs := List.mem_append.1 hs
      · have := hnot s hs
        rw [hself] at this
        cases this
      · obtain rfl | hs := List.mem_cons.1 hs
        · rfl
        · refine (List.pairwise_cons.1 (List.pairwise_append.1 hordered).2.1).1 s hs ?_
          rwa [List.isPrefixOf_iff_prefix]
    simp [symbolLength, hf, hsame]

theorem head_of_symbol : ∀ s ∈ symbols, ∃ c cs, s.toList = c :: cs ∧ isSolid c ∧ isIdentifierContinue c = false ∧
    isQuote c = false ∧ ∀ d ∈ cs, d.isDigit = false := by
  have h : symbols.all fun s => (s.toList.head?.any fun c =>
      isSolid c && !isIdentifierContinue c && !isQuote c) && s.toList.tail.all fun d => !d.isDigit := by
    decide
  intro s hs
  have hs := List.all_eq_true.1 h s hs
  cases he : s.toList with
  | nil => simp [he] at hs
  | cons c cs =>
    simp only [he, List.head?_cons, Option.any_some, List.tail_cons, Bool.and_eq_true,
      Bool.not_eq_true', List.all_eq_true] at hs
    exact ⟨c, cs, rfl, hs.1.1.1, hs.1.1.2, hs.1.2, hs.2⟩

theorem symbol_chars : ∀ s ∈ symbols, ∀ c ∈ s.toList, isIdentifierContinue c = false := by
  have h : symbols.all fun s => s.toList.all fun c => !isIdentifierContinue c := by decide
  simpa using h

/-- No symbol goes on with a character of a name. -/
theorem joins_continue (hc : isIdentifierContinue c) (s : String) : joins s c = false := by
  by_contra h
  rw [Bool.not_eq_false, joins, List.any_eq_true] at h
  obtain ⟨t, ht, hprefix⟩ := h
  have hmem : c ∈ t.toList := (List.isPrefixOf_iff_prefix.1 hprefix).subset (by simp)
  simp [symbol_chars t ht c hmem] at hc

/-- Few characters make another symbol of a symbol. -/
theorem joins_tail (hs : s ∈ symbols) (hdot : s ≠ ".") (h : joins s c) : c ∈ ['=', '/', '*', '>', '<'] := by
  have hall : symbols.all fun t => t == "..." || t.toList.tail.all ['=', '/', '*', '>', '<'].contains := by
    decide
  obtain ⟨t, ht, hprefix⟩ := List.any_eq_true.1 h
  obtain ⟨d, ds, hchars, -⟩ := head_of_symbol s hs
  obtain ⟨more, hmore⟩ := List.isPrefixOf_iff_prefix.1 hprefix
  rw [hchars, List.append_assoc, List.cons_append] at hmore
  have ht := List.all_eq_true.1 hall t ht
  simp only [Bool.or_eq_true, beq_iff_eq, List.all_eq_true] at ht
  obtain rfl | ht := ht
  · -- the symbol is one or two points, and two are none
    exfalso
    have hdots : d :: (ds ++ ([c] ++ more)) = ['.', '.', '.'] := hmore
    simp only [List.cons.injEq, List.append_eq_cons_iff] at hdots
    obtain ⟨rfl, ⟨rfl, -⟩ | ⟨es, rfl, he⟩⟩ := hdots
    · exact hdot (String.toList_inj.1 hchars)
    · obtain rfl : es = [] := by
        cases es with
        | nil => rfl
        | cons e es => simp at he
      rw [show s = ".." from String.toList_inj.1 hchars] at hs
      exact absurd hs (by decide)
  · simpa using ht c (by simp [← hmore])

theorem symbolLength_none (hc : isIdentifierContinue c) : symbolLength (c :: cs) = none := by
  have h : symbols.find? (fun s => s.toList.isPrefixOf (c :: cs)) = none := by
    refine List.find?_eq_none.2 fun s hs hprefix => ?_
    obtain ⟨d, ds, htext, -⟩ := head_of_symbol s hs
    rw [htext, List.isPrefixOf_iff_prefix] at hprefix
    have hd := symbol_chars s hs d (by simp [htext])
    rw [(List.cons_prefix_cons.1 hprefix).1, hc] at hd
    cases hd
  simp [symbolLength, h]

theorem scan_symbol (hs : s ∈ symbols) (hrest : ∀ c ∈ rest.head?, joins s c = false)
    (hdot : s = "." → ∀ c ∈ rest.head?, c.isDigit = false) :
    scan (s.toList ++ rest) = some (.symbol, s.length) := by
  have hlength := symbolLength_eq hs hrest
  obtain ⟨c, cs, htext, -, hname, hquote, hdigits⟩ := head_of_symbol s hs
  have hletter : isPrefixLetter c = false := by
    by_contra hp
    simp [continue_of_isPrefixLetter (by simpa using hp)] at hname
  have hnone : quotedLength? (s.toList ++ rest) = none :=
    quotedLength_none fun q hq => by
      rw [htext, List.cons_append, List.dropWhile_cons, hletter] at hq
      obtain rfl : c = q := by simpa using hq
      exact hquote
  have hdigit : c.isDigit = false := by
    by_contra hd
    simp [continue_of_isDigit (by simpa using hd)] at hname
  have hfraction : (c == '.' && (cs ++ rest).head?.any Char.isDigit) = false := by
    simp only [Bool.and_eq_false_iff]
    by_cases hc : c = '.'
    · right
      cases cs with
      | nil =>
        have hs' : s = "." := String.toList_inj.1 (by simp [htext, hc])
        cases rest with
        | nil => rfl
        | cons d rest => simpa using hdot hs' d rfl
      | cons d cs => simpa using hdigits d (by simp)
    · simp [hc]
  have hstart : isIdentifierStart c = false := by
    by_contra hs
    simp [continue_of_start (by simpa using hs)] at hname
  rw [scan.eq_def, hnone]
  simp only [htext, List.cons_append, hstart, hdigit, hfraction, Bool.or_false] at hlength ⊢
  simp [hlength]

end Token

end Stencil.Code
