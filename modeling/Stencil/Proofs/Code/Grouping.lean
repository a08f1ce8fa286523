import Stencil.Code.Const
import Stencil.Proofs.Code.Quoted
import Stencil.Proofs.Decimal.Shortest

/-!
Texts that operators around them cannot reach into. A reader goes through a text character by
character; literals hide what is in them, and outside of brackets it refuses everything but words,
points and literals.
-/
namespace Stencil.Code.Grouping
open Text Token

/-- What the last character belongs to. -/
inductive Place
  | between
  | word (cs : List Char)
  | literal (quote : Char)
  /-- Behind a backslash in a literal. -/
  | escape (quote : Char)
deriving DecidableEq, Repr

/-- What is known behind a part of a text: the brackets that have to be closed, the innermost one
first, and the place. -/
structure Reader where
  expected : List Char
  place : Place
deriving DecidableEq, Repr

/-- Keywords that stand for operators. -/
def operatorWords : List String := ["lambda", "if", "else", "or", "and", "not", "in", "is", "await"]

def isOperator (cs : List Char) : Bool := operatorWords.contains (String.ofList cs)

def closing? : Char → Option Char
  | '(' => some ')'
  | '[' => some ']'
  | '{' => some '}'
  | _ => none

def isClosing (c : Char) : Bool := c == ')' || c == ']' || c == '}'

/-- Holds of digits with an `e` behind them. The sign of an exponent may follow. -/
def isMantissa (cs : List Char) : Bool :=
  cs.getLast? == some 'e' && !cs.dropLast.isEmpty && cs.dropLast.all Char.isDigit

def isSign (c : Char) : Bool := c == '+' || c == '-'

/-- Holds if a word goes on with a character. -/
def goesOn (cs : List Char) (c : Char) : Bool := isIdentifierContinue c || (isMantissa cs && isSign c)

/-- Holds if a character belongs to a word or a literal that is open or that it begins. -/
def Place.takes : Place → Char → Bool
  | .literal _, _ | .escape _, _ => true
  | .between, c => isIdentifierContinue c
  | .word cs, c => goesOn cs c

/-- The place behind one more character. -/
def Place.next : Place → Char → Place
  | .literal q, c => if c == '\\' then .escape q else if c == q then .between else .literal q
  | .escape q, _ => .literal q
  | .between, c => if isIdentifierContinue c then .word [c] else if isQuote c then .literal c else .between
  | .word cs, c => if goesOn cs c then .word (cs ++ [c]) else if isQuote c then .literal c else .between

/-- Holds where a word may end: operators stand inside brackets. -/
def Place.mayEnd (expected : List Char) : Place → Bool
  | .between => true
  | .word cs => !isOperator cs || !expected.isEmpty
  | .literal _ | .escape _ => false

/-- What has to be closed behind a character that belongs to no word and no literal. -/
def bracket (expected : List Char) (c : Char) : Option (List Char) :=
  match closing? c with
  | some d => some (d :: expected)
  | none =>
    if isClosing c then (if expected.head? = some c then some expected.tail else none)
    else if c == '.' || isQuote c || !expected.isEmpty then some expected
    else none

/-- Reads a character. There is no result where a bracket does not match or something that can be
grouped differently stands outside of brackets. -/
def next (r : Reader) (c : Char) : Option Reader :=
  if r.place.takes c then some ⟨r.expected, r.place.next c⟩
  else if r.place.mayEnd r.expected then (bracket r.expected c).map (⟨·, r.place.next c⟩)
  else none

def read (r : Reader) (cs : List Char) : Option Reader := cs.foldlM next r

/-- Behind the text no bracket is open and no operator has been left without operands. -/
def isClosed (s : String) : Bool :=
  (read ⟨[], .between⟩ s.toList).any fun r => r.expected.isEmpty && r.place.mayEnd []

example : isClosed "f(a + b)[1:2].c" ∧ isClosed "'a + b'" ∧ isClosed "1e+16" ∧ !isClosed "a + b" ∧
    !isClosed "a.in" ∧ !isClosed "(a]" := by decide

variable {r : Reader} {c : Char} {cs ds : List Char} {o : List Char} {s t g : String} {k : Nat} {whole : Prop}

@[simp] theorem read_nil (r : Reader) : read r [] = some r := rfl

@[simp] theorem read_cons (r : Reader) (c : Char) (cs : List Char) :
    read r (c :: cs) = (next r c).bind fun r => read r cs := rfl

theorem read_append (r : Reader) (cs ds : List Char) :
    read r (cs ++ ds) = (read r cs).bind fun r => read r ds := by
  simp [read, List.foldlM_append]

/-! ### Texts inside brackets -/

/-- Text that can stand inside `k` brackets: it leaves open what was open. -/
def Grouped (k : Nat) (s : String) : Prop :=
  ∀ expected, k ≤ expected.length →
    ∃ place, read ⟨expected, .between⟩ s.toList = some ⟨expected, place⟩ ∧ place.mayEnd expected

/-- Text inside `k` brackets behind which any other may follow. -/
def Ended (k : Nat) (s : String) : Prop :=
  ∀ expected, k ≤ expected.length → read ⟨expected, .between⟩ s.toList = some ⟨expected, .between⟩

/-- Holds of characters that end a word in front of them. -/
def isDelimiter (c : Char) : Bool := !isIdentifierContinue c && !isSign c

/-- Text that ends a word in front of it. -/
def Delimits (s : String) : Prop := ∃ c cs, s.toList = c :: cs ∧ isDelimiter c

theorem Delimits.append (h : Delimits s) (t : String) : Delimits (s ++ t) := by
  obtain ⟨c, cs, hs, hc⟩ := h
  exact ⟨c, cs ++ t.toList, by rw [String.toList_append, hs, List.cons_append], hc⟩

theorem Ended.grouped (h : Ended k s) : Grouped k s := fun o ho => ⟨.between, h o ho, rfl⟩

theorem Grouped.raise (h : Grouped 0 s) : Grouped k s := fun o _ => h o (Nat.zero_le _)

theorem Ended.raise (h : Ended 0 s) : Ended k s := fun o _ => h o (Nat.zero_le _)

theorem ended_empty : Ended k "" := fun _ _ => rfl

/-- A word may end in front of a delimiter. -/
theorem next_delimiter {p : Place} (hp : p.mayEnd o) (hc : isDelimiter c) :
    next ⟨o, p⟩ c = next ⟨o, .between⟩ c := by
  simp only [isDelimiter, Bool.and_eq_true, Bool.not_eq_true'] at hc
  cases p with
  | between => rfl
  | word cs =>
    have hbetween : Place.between.mayEnd o := rfl
    simp [next, Place.takes, Place.next, goesOn, hc.1, hc.2, hp, hbetween]
  | literal q | escape q => cases hp

theorem read_delimits {p : Place} (hp : p.mayEnd o) (h : Delimits s) :
    read ⟨o, p⟩ s.toList = read ⟨o, .between⟩ s.toList := by
  obtain ⟨c, cs, hs, hc⟩ := h
  rw [hs, read_cons, read_cons, next_delimiter hp hc]

theorem Grouped.append (h : Grouped k s) (ht : Grouped k t) (hd : Delimits t) : Grouped k (s ++ t) := by
  intro o ho
  obtain ⟨p, hp, hend⟩ := h o ho
  rw [String.toList_append, read_append, hp, Option.bind_some, read_delimits hend hd]
  exact ht o ho

theorem Ended.append (h : Ended k s) (ht : Grouped k t) : Grouped k (s ++ t) := by
  intro o ho
  rw [String.toList_append, read_append, h o ho]
  exact ht o ho

/-- Two texts with something between them. -/
theorem Grouped.glue (h : Grouped k s) (hg : Ended k g) (hd : Delimits g) (ht : Grouped k t) :
    Grouped k (s ++ g ++ t) := by
  rw [String.append_assoc]
  exact h.append (hg.append ht) (hd.append t)

def bracketPairs : List (String × String) := [("(", ")"), ("[", "]"), ("\x7b", "\x7d")]

/-- Text between brackets. -/
theorem Grouped.bracketed {l r : String} (h : Grouped 1 s) (hb : (l, r) ∈ bracketPairs) :
    Ended 0 (l ++ s ++ r) := by
  intro o _
  obtain ⟨c, d, hl, hr, hopen, hclose, hd⟩ : ∃ c d, l.toList = [c] ∧ r.toList = [d] ∧
      next ⟨o, .between⟩ c = some ⟨d :: o, .between⟩ ∧
      next ⟨d :: o, .between⟩ d = some ⟨o, .between⟩ ∧ isDelimiter d := by
    simp only [bracketPairs, List.mem_cons, Prod.mk.injEq, List.not_mem_nil, or_false] at hb
    obtain ⟨rfl, rfl⟩ | ⟨rfl, rfl⟩ | ⟨rfl, rfl⟩ := hb
    all_goals exact ⟨_, _, rfl, rfl, rfl, rfl, by decide⟩
  obtain ⟨p, hp, hend⟩ := h (d :: o) (by simp)
  simp only [String.toList_append, hl, hr, List.cons_append, List.nil_append, read_cons, read_append, hopen,
    Option.bind_some, hp, next_delimiter hend hd, hclose, read_nil]

/-! ### Words and literals -/

theorem read_word (hcs : ∀ c ∈ cs, isIdentifierContinue c) (ds : List Char) :
    read ⟨o, .word ds⟩ cs = some ⟨o, .word (ds ++ cs)⟩ := by
  induction cs generalizing ds with
  | nil => simp
  | cons c cs ih =>
    simp [next, Place.takes, Place.next, goesOn, hcs c (by simp), ih (fun d hd => hcs d (by simp [hd]))]

theorem read_words (hcs : ∀ c ∈ cs, isIdentifierContinue c) (hne : cs ≠ []) :
    read ⟨o, .between⟩ cs = some ⟨o, .word cs⟩ := by
  obtain ⟨c, cs, rfl⟩ := List.exists_cons_of_ne_nil hne
  simp [next, Place.takes, Place.next, hcs c (by simp), read_word fun d hd => hcs d (List.mem_cons_of_mem _ hd)]

/-- A word that is no operator may stand anywhere, an operator inside brackets. -/
theorem grouped_word (hs : ∀ c ∈ s.toList, isIdentifierContinue c) (h : k = 0 → isOperator s.toList = false) :
    Grouped k s := by
  intro o ho
  by_cases hne : s.toList = []
  · exact ⟨.between, by rw [hne, read_nil], rfl⟩
  refine ⟨.word s.toList, read_words hs hne, ?_⟩
  cases k with
  | zero => simp [Place.mayEnd, h rfl]
  | succ k =>
    obtain ⟨b, bs, rfl⟩ := List.exists_cons_of_length_pos (Nat.lt_of_lt_of_le (Nat.succ_pos k) ho)
    simp [Place.mayEnd]

theorem read_inside {q : Char} (h : Inside q cs) (hq : isQuote q) (ds : List Char) :
    read ⟨o, .literal q⟩ (cs ++ q :: ds) = read ⟨o, .between⟩ ds := by
  have hne : q ≠ '\\' := by
    rintro rfl
    exact absurd hq (by decide)
  induction h with
  | nil => simp [next, Place.takes, Place.next, hne]
  | plain hc _ ih => simpa [next, Place.takes, Place.next, hc.1, hc.2.1] using ih
  | escape _ _ ih => simpa [next, Place.takes, Place.next] using ih

theorem ended_literal (h : Literal s.toList) : Ended k s := by
  intro o _
  obtain ⟨q, inside, hq, hs, hinside⟩ := h.quoted
  have hstart : next ⟨o, .between⟩ q = some ⟨o, .literal q⟩ := by
    have hword : isIdentifierContinue q = false := by
      simp only [isQuote, Bool.or_eq_true, beq_iff_eq] at hq
      obtain rfl | rfl := hq <;> decide
    have hclosing : closing? q = none ∧ isClosing q = false := by
      simp only [isQuote, Bool.or_eq_true, beq_iff_eq] at hq
      obtain rfl | rfl := hq <;> decide
    simp [next, Place.takes, Place.next, Place.mayEnd, bracket, hword, hq, hclosing]
  rw [hs, List.cons_append, read_cons, hstart, Option.bind_some, read_inside hinside hq, read_nil]

theorem ended_quote (ps : Points) : Ended k (quotePoints ps) := ended_literal (literal_quotePoints ps).1

theorem ended_dot : Ended k "." := fun _ _ => rfl

theorem delimits_dot : Delimits "." := ⟨'.', [], rfl, by decide⟩

theorem Grouped.member (h : Grouped k s) (ht : Grouped k t) : Grouped k (s ++ "." ++ t) :=
  h.glue ended_dot delimits_dot ht

/-- Signs that may follow a text inside brackets. -/
def marks : List String := [", ", " ", ": ", ":", ",", "=", " if ", " else "]

theorem ended_mark (h : g ∈ marks) : Ended 1 g := by
  intro expected he
  obtain ⟨b, bs, rfl⟩ := List.exists_cons_of_length_pos he
  simp only [marks, List.mem_cons, List.not_mem_nil, or_false] at h
  obtain rfl | rfl | rfl | rfl | rfl | rfl | rfl | rfl := h <;> rfl

theorem delimits_mark (h : g ∈ marks) : Delimits g := by
  have hall : marks.all fun g => g.toList.head?.any isDelimiter := by decide
  have := List.all_eq_true.1 hall g h
  cases hg : g.toList with
  | nil => simp [hg] at this
  | cons c cs => exact ⟨c, cs, hg, by simpa [hg] using this⟩

theorem Grouped.marked (hs : Grouped 1 s) (hg : g ∈ marks) (ht : Grouped 1 t) : Grouped 1 (s ++ g ++ t) :=
  hs.glue (ended_mark hg) (delimits_mark hg) ht

/-! ### Texts that are not closed -/

/-- Text that is refused, by itself and in front of delimiters. -/
def Broken (s : String) : Prop :=
  ∀ r, read ⟨[], .between⟩ s.toList = some r → r.expected = [] ∧ ∃ cs, r.place = .word cs ∧ isOperator cs

theorem Broken.append (h : Broken s) (ht : Delimits t) : Broken (s ++ t) := by
  obtain ⟨c, cs, ht, hc⟩ := ht
  simp only [isDelimiter, Bool.and_eq_true, Bool.not_eq_true'] at hc
  intro r hr
  rw [String.toList_append, read_append, Option.bind_eq_some_iff] at hr
  obtain ⟨⟨o, p⟩, hp, hr⟩ := hr
  obtain ⟨rfl, ds, rfl, hds⟩ := h _ hp
  simp [ht, next, Place.takes, goesOn, hc.1, hc.2, Place.mayEnd, hds] at hr

/-- An operator behind a point has nothing to apply to. -/
theorem broken_member (h : Grouped 0 s) (hne : t.toList ≠ []) (ht : ∀ c ∈ t.toList, isIdentifierContinue c)
    (ho : isOperator t.toList) : Broken (s ++ "." ++ t) := by
  obtain ⟨p, hp, hend⟩ := h [] (Nat.zero_le _)
  intro r hr
  rw [String.append_assoc, String.toList_append, read_append, hp, Option.bind_some,
    read_delimits hend (delimits_dot.append t), String.toList_append, read_append, ended_dot [] (Nat.zero_le 0),
    Option.bind_some, read_words ht hne] at hr
  cases hr
  exact ⟨rfl, _, rfl, ho⟩

theorem isClosed_of_grouped (h : Grouped 0 s) : isClosed s := by
  obtain ⟨p, hp, hend⟩ := h [] (Nat.zero_le _)
  simp [isClosed, hp, hend]

/-- Brackets around a text change nothing in it. -/
theorem Place.mayEnd_frame {p : Place} (h : p.mayEnd o) (w : List Char) : p.mayEnd (o ++ w) := by
  cases p with
  | word cs =>
    simp only [mayEnd, Bool.or_eq_true] at h ⊢
    refine h.imp_right fun ho => ?_
    cases o with
    | nil => cases ho
    | cons _ _ => rfl
  | _ => exact h

theorem bracket_frame {o' : List Char} (h : bracket o c = some o') (w : List Char) :
    bracket (o ++ w) c = some (o' ++ w) := by
  unfold bracket at h ⊢
  split at h
  · cases h
    rfl
  · split at h
    · next hclosing =>
      split at h
      · next hhead =>
        cases h
        cases o with
        | nil => cases hhead
        | cons d ds => simp_all
      · cases h
    · next hclosing =>
      split at h
      · next hmark =>
        cases h
        have : c == '.' || isQuote c || !(o ++ w).isEmpty := by
          simp only [Bool.or_eq_true, Bool.not_eq_true', List.isEmpty_eq_false_iff] at hmark ⊢
          exact hmark.imp_right fun ho he => ho (List.append_eq_nil_iff.1 he).1
        simp [hclosing, this]
      · cases h

theorem next_frame {r' : Reader} (h : next r c = some r') (w : List Char) :
    next ⟨r.expected ++ w, r.place⟩ c = some ⟨r'.expected ++ w, r'.place⟩ := by
  unfold next at h ⊢
  split at h
  · next htakes =>
    cases h
    simp [htakes]
  · next htakes =>
    split at h
    · next hend =>
      obtain ⟨o', ho', rfl⟩ := Option.map_eq_some_iff.1 h
      simp [htakes, Place.mayEnd_frame hend w, bracket_frame ho' w]
    · cases h

theorem read_frame {r' : Reader} (h : read r cs = some r') (w : List Char) :
    read ⟨r.expected ++ w, r.place⟩ cs = some ⟨r'.expected ++ w, r'.place⟩ := by
  induction cs generalizing r with
  | nil =>
    cases h
    rfl
  | cons c cs ih =>
    obtain ⟨r₁, hnext, hread⟩ := Option.bind_eq_some_iff.1 h
    rw [read_cons, next_frame hnext w, Option.bind_some]
    exact ih hread

/-- A closed text can stand inside any brackets, and none of them is touched. -/
theorem isClosed_iff_grouped : isClosed s ↔ Grouped 0 s := by
  refine ⟨fun h => ?_, isClosed_of_grouped⟩
  obtain ⟨⟨o, p⟩, hr, hdone⟩ : ∃ r, read ⟨[], .between⟩ s.toList = some r ∧
      r.expected.isEmpty && r.place.mayEnd [] := by
    simpa [isClosed, Option.any_eq_true] using h
  simp only [Bool.and_eq_true, List.isEmpty_iff] at hdone
  obtain ⟨rfl, hend⟩ := hdone
  intro w _
  exact ⟨p, by simpa using read_frame hr w, by simpa using Place.mayEnd_frame hend w⟩

theorem Broken.not_isClosed (h : Broken s) : ¬ isClosed s := by
  intro hs
  simp only [isClosed, Option.any_eq_true_iff_get, Bool.and_eq_true] at hs
  obtain ⟨hsome, -, hend⟩ := hs
  obtain ⟨-, cs, hplace, hcs⟩ := h _ (Option.some_get hsome).symm
  simp [hplace, Place.mayEnd, hcs] at hend

theorem grouped_name (h : isIdentifier s.toList) (ho : k = 0 → isOperator s.toList = false) : Grouped k s :=
  grouped_word (continue_of_mem_identifier h) ho

theorem isOperator_of_underscore {cs : List Char} (h : cs.head? = some '_') : isOperator cs = false := by
  by_contra ho
  have hall : operatorWords.all fun w => w.toList.head? != some '_' := by decide
  simp only [isOperator, List.contains_eq_mem, Bool.not_eq_false, decide_eq_true_eq] at ho
  have := List.all_eq_true.1 hall _ ho
  simp [h] at this

/-! ### Constants -/

theorem broken_sign (h : s.toList.head? = some '-') : Broken s := by
  obtain ⟨cs, hs⟩ : ∃ cs, s.toList = '-' :: cs := by
    cases hs : s.toList with
    | nil => simp [hs] at h
    | cons c cs => exact ⟨cs, by simp_all⟩
  intro r hr
  rw [hs, read_cons, show next ⟨[], .between⟩ '-' = none from rfl] at hr
  cases hr

theorem ended_sign (h : g ∈ ["*", "**", "-", "+"]) : Ended 1 g := by
  intro expected he
  obtain ⟨b, bs, rfl⟩ := List.exists_cons_of_length_pos he
  simp only [List.mem_cons, List.not_mem_nil, or_false] at h
  obtain rfl | rfl | rfl | rfl := h <;> rfl

/-- Letters and digits that are no operator, by a first character that is a digit. -/
theorem isOperator_of_digit {c : Char} {cs : List Char} (h : c.isDigit) : isOperator (c :: cs) = false := by
  by_contra ho
  have hall : operatorWords.all fun w => w.toList.head?.all fun c => !c.isDigit := by decide
  simp only [isOperator, List.contains_eq_mem, Bool.not_eq_false, decide_eq_true_eq] at ho
  have := List.all_eq_true.1 hall _ ho
  simp [h] at this

theorem grouped_digits {cs : List Char} (h : ∀ c ∈ cs, c.isDigit) : Grouped 0 (String.ofList cs) := by
  refine grouped_word (fun c hc => continue_of_isDigit (h c (by simpa using hc))) fun _ => ?_
  rw [String.toList_ofList]
  cases cs with
  | nil => decide
  | cons c cs => exact isOperator_of_digit (h c (by simp))

/-- Digits with an exponent behind them. -/
theorem grouped_exponent {cs : List Char} (h : ∀ c ∈ cs, c.isDigit) (hne : cs ≠ []) (e : Int) :
    Grouped 0 (String.ofList (cs ++ 'e' :: Decimal.exponentText e)) := by
  obtain ⟨c, cs, rfl⟩ := List.exists_cons_of_ne_nil hne
  obtain ⟨sign, ds, hexponent, hsign, hds⟩ : ∃ sign ds, Decimal.exponentText e = sign :: ds ∧ isSign sign ∧
      ∀ d ∈ ds, isIdentifierContinue d := by
    have hdigits : ∀ d ∈ Nat.toDigits 10 e.natAbs, isIdentifierContinue d := fun d hd =>
      continue_of_isDigit (Decimal.isDigit_toDigits hd)
    refine ⟨_, _, rfl, by split <;> rfl, ?_⟩
    split
    · exact List.forall_mem_cons.2 ⟨by decide, hdigits⟩
    · exact hdigits
  have hword : ∀ d ∈ c :: cs ++ ['e'], isIdentifierContinue d :=
    List.forall_mem_append.2 ⟨fun d hd => continue_of_isDigit (h d hd), by simp; decide⟩
  have hmantissa : isMantissa (c :: cs ++ ['e']) := by
    simp only [isMantissa, List.getLast?_concat, List.dropLast_concat, List.isEmpty_cons, Bool.and_eq_true,
      List.all_eq_true]
    exact ⟨⟨by decide, rfl⟩, h⟩
  have hcontinue : isIdentifierContinue sign = false := by
    simp only [isSign, Bool.or_eq_true, beq_iff_eq] at hsign
    obtain rfl | rfl := hsign <;> decide
  intro expected _
  refine ⟨.word (c :: cs ++ ['e'] ++ [sign] ++ ds), ?_, ?_⟩
  · have hsplit : c :: cs ++ 'e' :: Decimal.exponentText e = (c :: cs ++ ['e']) ++ sign :: ds := by
      rw [hexponent, List.append_assoc]
      rfl
    rw [String.toList_ofList, hsplit, read_append, read_words hword (by simp), Option.bind_some, read_cons]
    simp only [next, Place.takes, Place.next, goesOn, hcontinue, hmantissa, hsign, Bool.and_self, Bool.or_true,
      if_true, Option.bind_some, read_word hds]
  · simp only [Place.mayEnd, List.cons_append, isOperator_of_digit (h c (by simp))]
    rfl

theorem grouped_write (n : Decimal.Layout) (p : Int) {cs : List Char} (h : ∀ c ∈ cs, c.isDigit)
    (hne : cs ≠ []) : Grouped 0 (String.ofList (n.write cs p)) := by
  have hpoint (cs ds : List Char) (hcs : Grouped 0 (String.ofList cs)) (hds : Grouped 0 (String.ofList ds)) :
      Grouped 0 (String.ofList (cs ++ '.' :: ds)) := by
    have := hcs.member hds
    rwa [show "." = String.ofList ['.'] from rfl, ← String.ofList_append, ← String.ofList_append,
      List.append_assoc] at this
  have hzeros (k : Nat) : ∀ c ∈ List.replicate k '0', c.isDigit := fun c hc => by
    rw [List.eq_of_mem_replicate hc]
    decide
  obtain ⟨c, cs, rfl⟩ := List.exists_cons_of_ne_nil hne
  unfold Decimal.Layout.write
  split
  · split
    · exact hpoint ['0'] _ (grouped_digits (by simp))
        (grouped_digits (List.forall_mem_append.2 ⟨hzeros _, h⟩))
    · simp only
      split
      · exact hpoint _ _ (grouped_digits (List.forall_mem_append.2 ⟨h, hzeros _⟩)) (grouped_digits (by simp))
      · exact hpoint _ _ (grouped_digits fun c hc => h c (List.mem_of_mem_take hc))
          (grouped_digits fun c hc => h c (List.mem_of_mem_drop hc))
  · simp only
    split
    · exact @grouped_exponent [c] (by simpa using h c (by simp)) (by simp) _
    · next hcs =>
      have := hpoint [c] _ (grouped_digits (by simpa using h c (by simp)))
        (grouped_exponent (fun d hd => h d (List.mem_cons_of_mem _ hd)) (by simpa using hcs) (p - 1))
      simpa using this

/-- What a number is written as without its sign. -/
theorem grouped_magnitude (e f : Nat) : Grouped 0 (String.ofList
    (if e == 2047 then (if f == 0 then "inf".toList else "nan".toList)
    else if e == 0 && f == 0 then "0.0".toList
    else
      let s := (Decimal.Binary.ofFields e f).shortest
      Decimal.plain.write (Decimal.significantDigits s.digits)
        ((Nat.toDigits 10 s.digits).length + s.exponent))) := by
  split
  · split
    · exact grouped_word (List.all_eq_true.1 (by decide : "inf".toList.all isIdentifierContinue)) fun _ => by decide
    · exact grouped_word (List.all_eq_true.1 (by decide : "nan".toList.all isIdentifierContinue)) fun _ => by decide
  split
  · exact Grouped.member (s := "0") (t := "0") (@grouped_digits ['0'] (by simp))
      (@grouped_digits ['0'] (by simp))
  · next hne =>
    have hdigits := Decimal.Binary.shortest_digits (Decimal.Binary.mantissa_ofFields hne)
    exact grouped_write _ _ (fun c hc => Decimal.isDigit_significantDigits hc)
      (Decimal.significantDigits_ne_nil hdigits)

/-- How a text stands among others: it can be inside brackets, and it can be outside if and only if it
is whole. -/
structure Stands (whole : Prop) (s : String) : Prop where
  inside : Grouped 1 s
  outside : whole → Grouped 0 s
  broken : ¬ whole → Broken s

theorem Stands.of_grouped (h : Grouped 0 s) (hw : whole) : Stands whole s :=
  ⟨h.raise, fun _ => h, fun hn => (hn hw).elim⟩

theorem delimits_bracketed {l : String} (h : l = "(" ∨ l = "[") (s : String) : Delimits (l ++ s) := by
  obtain rfl | rfl := h
  · exact Delimits.append ⟨'(', [], rfl, by decide⟩ s
  · exact Delimits.append ⟨'[', [], rfl, by decide⟩ s

/-- Arguments or an index behind a text. -/
theorem Stands.applied {f l r : String} (h : Stands whole f) (hb : (l, r) ∈ bracketPairs)
    (hl : l = "(" ∨ l = "[") (hs : Grouped 1 s) : Stands whole (f ++ l ++ s ++ r) := by
  have hinside := hs.bracketed hb
  have hdelimits := delimits_bracketed hl (s ++ r)
  have hsplit : f ++ l ++ s ++ r = f ++ (l ++ (s ++ r)) := by simp only [String.append_assoc]
  rw [String.append_assoc] at hinside
  rw [hsplit]
  exact ⟨h.inside.append hinside.raise.grouped hdelimits,
    fun hw => (h.outside hw).append hinside.grouped hdelimits,
    fun hw => (h.broken hw).append hdelimits⟩

theorem ne_nil_of_isIdentifier {cs : List Char} (h : isIdentifier cs) : cs ≠ [] := by
  rintro rfl
  cases h

/-- A name behind a point at the front of a text. -/
theorem Stands.part (h : Stands whole t) (hs : isIdentifier s.toList) :
    Stands (whole ∧ isOperator s.toList = false) (t ++ "." ++ s) := by
  refine ⟨h.inside.member (grouped_name hs (by simp)), fun hw => (h.outside hw.1).member
    (grouped_name hs fun _ => hw.2), fun hw => ?_⟩
  by_cases hwhole : whole
  · exact broken_member (h.outside hwhole) (ne_nil_of_isIdentifier hs) (continue_of_mem_identifier hs)
      (by simpa [hwhole] using hw)
  · exact String.append_assoc .. ▸ (h.broken hwhole).append (delimits_dot.append s)

/-- A number with a sign, or without one. -/
theorem stands_signed (h : Grouped 0 s) (hs : t = s ∨ t = "-" ++ s) :
    Stands (t.toList.head? ≠ some '-') t := by
  obtain rfl | rfl := hs
  · refine ⟨h.raise, fun _ => h, fun hn => broken_sign (by simpa using hn)⟩
  · have hhead : ("-" ++ s).toList.head? = some '-' := by simp
    exact ⟨(ended_sign (by simp)).append h.raise, fun hn => (hn hhead).elim, fun _ => broken_sign hhead⟩

theorem stands_literal (value : Template.Const) :
    Stands (value.literal.toList.head? ≠ some '-') value.literal := by
  have hword (w : String) (hw : w ∈ ["None", "True", "False"]) : Stands (w.toList.head? ≠ some '-') w := by
    have hall : ["None", "True", "False"].all fun w =>
        isIdentifier w.toList && !isOperator w.toList && w.toList.head? != some '-' := by decide
    have hw := List.all_eq_true.1 hall w hw
    simp only [Bool.and_eq_true, Bool.not_eq_true', bne_iff_ne] at hw
    exact .of_grouped (grouped_name hw.1.1 fun _ => hw.1.2) hw.2
  cases value with
  | none => exact hword _ (by simp [Template.Const.literal])
  | bool b => cases b <;> exact hword _ (by simp [Template.Const.literal])
  | int n =>
    have hdigits (m : Nat) : Grouped 0 (String.ofList (Nat.toDigits 10 m)) :=
      grouped_digits fun c hc => Decimal.isDigit_toDigits hc
    cases n with
    | ofNat m =>
      refine stands_signed (hdigits m) (.inl ?_)
      rw [← String.toList_inj]
      simp [Template.Const.literal, Int.toString_eq_repr, Int.repr, Nat.toList_repr]
    | negSucc m =>
      refine stands_signed (hdigits (m + 1)) (.inr ?_)
      rw [← String.toList_inj]
      simp [Template.Const.literal, Int.toString_eq_repr, Int.repr, Nat.toList_repr]
  | float x =>
    have hbody := grouped_magnitude (Decimal.Fields.ofFloat x).exponent (Decimal.Fields.ofFloat x).fraction
    refine stands_signed hbody ?_
    simp only [Template.Const.literal, Decimal.floatText]
    split
    · exact .inr (String.ofList_cons ..)
    · exact .inl rfl
  | str ps =>
    refine .of_grouped (ended_quote ps).grouped ?_
    obtain ⟨q, inside, hq, hs, -⟩ := (literal_quotePoints ps).1.quoted
    rw [Template.Const.literal, hs]
    rintro ⟨⟩
    exact absurd hq (by decide)

end Stencil.Code.Grouping
