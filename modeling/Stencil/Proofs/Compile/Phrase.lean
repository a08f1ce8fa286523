import Stencil.Proofs.Code.Written
import Stencil.Proofs.Flatten.Sheet

/-!
Parts of a line put together. A piece can stand inside brackets, a phrase wherever a value can. Both
keep their brackets balanced and end in front of what may stand behind them.
-/
namespace Stencil.Code.Atom
open Token Text

variable {a : Atom} {as bs cs mid : List Atom} {c d : Char} {k j : Nat} {s t : String}
  {xs ys : List Char}

/-! ### What parts are made of -/

/-- The name of the runtime module, which directives begin with. -/
def runtime : Atom := word "_jt_rt".toList

/-- Something of the runtime module that is no directive. -/
def isDrawn : Atom → Bool
  | member cs => cs != "extends".toList && cs != "include".toList
  | _ => false

/-- Words that values do not begin with. -/
def starters : List String := "return" :: Flatten.headers

/-- What a value may begin with. -/
def isOperand : Atom → Bool
  | word cs => !starters.contains (String.ofList cs)
  | number _ | quoted _ => true
  | symbol s => ["(", "[", "\x7b", "-"].contains s
  | member _ | blank => false

/-- The number of open brackets behind a part. Neither a bracket nor a colon stands by itself outside
of brackets. -/
def step (d : Nat) : Atom → Option Nat
  | symbol s =>
    if ["(", "[", "\x7b"].contains s then some (d + 1)
    else if [")", "]", "\x7d"].contains s then (if d = 0 then none else some (d - 1))
    else if s == ";" || s == "@" || (s == ":" && d == 0) then none
    else some d
  | _ => some d

/-- The number of open brackets behind some parts. -/
def steps (d : Nat) (as : List Atom) : Option Nat := as.foldlM step d

/-- A part on one line that begins no statement of its own. -/
structure Mild (a : Atom) : Prop where
  valid : a.Valid
  unbroken : ∀ c ∈ a.chars, isLineBreak c = false
  lead : ∀ cs, a = word cs → String.ofList cs ∉ Flatten.leads
  digit : ∀ cs, a = number cs → ∃ c ∈ cs.head?, c.isDigit

/-- Behind the runtime module stands what is taken from it. -/
def Clear : List Atom → Prop
  | [] => True
  | a :: as => (a = runtime → ∃ b ∈ as.head?, b.isDrawn) ∧ Clear as

/-- What may stand behind a value. -/
def isEnder (c : Char) : Bool :=
  [')', ']', '}', ',', ' ', ':', '\n', '(', '['].contains c

/-- What the text of a value may begin with. -/
def isOpener (c : Char) : Bool :=
  isIdentifierStart c || isRunChar c || isQuote c || ['(', '[', '{', '-'].contains c

@[simp] theorem steps_nil (d : Nat) : steps d [] = some d := rfl

@[simp] theorem steps_cons (d : Nat) (a : Atom) (as : List Atom) :
    steps d (a :: as) = (step d a).bind fun e => steps e as := rfl

@[simp] theorem steps_append (d : Nat) (as bs : List Atom) :
    steps d (as ++ bs) = (steps d as).bind fun e => steps e bs := by
  simp [steps, List.foldlM_append]

theorem Clear.append (h : Clear as) (h' : Clear bs) : Clear (as ++ bs) := by
  induction as with
  | nil => exact h'
  | cons a as ih =>
    refine ⟨fun ha => ?_, ih h.2⟩
    obtain ⟨b, hb, hdrawn⟩ := h.1 ha
    exact ⟨b, List.mem_head?_append_of_mem_head? hb, hdrawn⟩

theorem clear_cons (h : a ≠ runtime) (h' : Clear as) : Clear (a :: as) :=
  ⟨fun ha => (h ha).elim, h'⟩

theorem clear_single (h : a ≠ runtime) : Clear [a] := clear_cons h True.intro

theorem first_append (as bs : List Atom) (c : Char) : first (as ++ bs) c = first as (first bs c) := by
  rw [first, first, first, spell_append, List.head?_append]
  cases (spell as).head? <;> rfl

theorem fit_append (as bs : List Atom) (c : Char) :
    Fit (as ++ bs) c ↔ Fit as (first bs c) ∧ Fit bs c := by
  induction as with
  | nil => simp [Fit]
  | cons a as ih => simp [Fit, ih, first_append, and_assoc]

theorem first_of_spell {cs : List Char} (h : spell as = d :: cs) (c : Char) : first as c = d := by
  simp [first, h]

@[simp] theorem spell_nil : spell [] = [] := rfl

@[simp] theorem spell_single (a : Atom) : spell [a] = a.chars := List.flatMap_singleton ..

@[simp] theorem first_nil (c : Char) : first [] c = c := rfl

theorem first_cons (h : a.chars = d :: xs) (as : List Atom) (c : Char) : first (a :: as) c = d :=
  first_of_spell (by rw [spell_cons, h, List.cons_append]) c

/-- Nothing that a value begins with makes another symbol of one. -/
theorem joins_opener (hs : s ∈ symbols) (hdot : s ≠ ".") (h : isOpener c) : joins s c = false := by
  by_contra hj
  have hc := joins_tail hs hdot (by simpa using hj)
  simp only [List.mem_cons, List.not_mem_nil, or_false] at hc
  obtain rfl | rfl | rfl | rfl | rfl := hc
  all_goals exact absurd h (by decide)

/-- The text of an operand begins as a value does. -/
theorem opener_of_operand (h : a.Valid) (ho : a.isOperand) : ∃ c xs, a.chars = c :: xs ∧ isOpener c := by
  cases a with
  | word cs =>
    cases cs with
    | nil => simp [Valid, isIdentifier] at h
    | cons c cs =>
      simp only [Valid, isIdentifier, Bool.and_eq_true] at h
      exact ⟨c, cs, rfl, by simp [isOpener, h.1]⟩
  | number cs =>
    obtain ⟨c, cs, rfl⟩ := List.exists_cons_of_ne_nil h.2
    exact ⟨c, cs, rfl, by simp [isOpener, h.1.chars c (by simp)]⟩
  | quoted cs =>
    obtain ⟨q, inside, hq, rfl, -⟩ := Literal.quoted h
    exact ⟨q, inside ++ [q], rfl, by simp [isOpener, hq]⟩
  | symbol s =>
    simp only [isOperand, List.contains_eq_mem, List.mem_cons, List.not_mem_nil, or_false,
      decide_eq_true_eq] at ho
    obtain rfl | rfl | rfl | rfl := ho
    all_goals exact ⟨_, [], rfl, by decide⟩
  | member cs => cases ho
  | blank => cases ho

/-! ### Pieces -/

/-- Something that can stand inside `k` brackets. -/
structure Piece (k : Nat) (as : List Atom) : Prop where
  mild : ∀ a ∈ as, a.Mild
  level : ∀ d, k ≤ d → steps d as = some d
  clear : Clear as
  begins : ∃ c cs, spell as = c :: cs ∧ isSolid c
  ends : ∀ c, isEnder c → Fit as c

/-- A value: it can stand on its own, and attributes may be taken of it. -/
structure Phrase (as : List Atom) : Prop extends Piece 0 as where
  opens : ∃ a ∈ as.head?, a.isOperand
  dotted : Fit as '.' ∨ ∃ bs cs, as = bs ++ [number cs]

/-- What stands between two pieces: it opens and closes nothing and ends with a blank. -/
structure Glue (k : Nat) (as : List Atom) : Prop where
  mild : ∀ a ∈ as, a.Mild
  level : ∀ d, k ≤ d → steps d as = some d
  clear : Clear as
  begins : ∃ c cs, spell as = c :: cs ∧ isEnder c
  ends : ∀ c, isSolid c → Fit as c

theorem Piece.ne_nil (h : Piece k as) : as ≠ [] := by
  rintro rfl
  obtain ⟨c, cs, hc, -⟩ := h.begins
  cases hc

theorem Piece.raise (h : Piece k as) (hk : k ≤ j) : Piece j as :=
  { h with level := fun d hd => h.level d (hk.trans hd) }

theorem Piece.isSolid_first (h : Piece k as) (c : Char) : isSolid (first as c) := by
  obtain ⟨d, ds, hd, hsolid⟩ := h.begins
  rwa [first_of_spell hd]

theorem Phrase.isOpener_first (h : Phrase as) (c : Char) : isOpener (first as c) := by
  obtain ⟨a, ha, ho⟩ := h.opens
  obtain ⟨as, rfl⟩ : ∃ bs, as = a :: bs := ⟨as.tail, (List.cons_head?_tail ha).symm⟩
  obtain ⟨d, xs, hd, hopener⟩ := opener_of_operand (h.mild a (by simp)).valid ho
  rwa [first_cons hd]

theorem Glue.isEnder_first (h : Glue k as) (c : Char) : isEnder (first as c) := by
  obtain ⟨d, ds, hd, hender⟩ := h.begins
  rwa [first_of_spell hd]

theorem Piece.begins_append (h : Piece k as) (bs : List Atom) :
    ∃ c cs, spell (as ++ bs) = c :: cs ∧ isSolid c := by
  obtain ⟨d, ds, hd, hsolid⟩ := h.begins
  exact ⟨d, ds ++ spell bs, by rw [spell_append, hd, List.cons_append], hsolid⟩

theorem mild_append (h : ∀ a ∈ as, a.Mild) (h' : ∀ a ∈ bs, a.Mild) : ∀ a ∈ as ++ bs, a.Mild :=
  List.forall_mem_append.2 ⟨h, h'⟩

theorem Piece.glue (h : Piece k as) (hmid : Glue k mid) (h' : Piece k bs) :
    Piece k (as ++ (mid ++ bs)) where
  mild := mild_append h.mild (mild_append hmid.mild h'.mild)
  level d hd := by simp [h.level d hd, hmid.level d hd, h'.level d hd]
  clear := h.clear.append (hmid.clear.append h'.clear)
  begins := h.begins_append _
  ends c hc := by
    rw [fit_append, fit_append, first_append]
    exact ⟨h.ends _ (hmid.isEnder_first _), hmid.ends _ (h'.isSolid_first _), h'.ends c hc⟩

/-- A value with something behind it, such as its arguments. -/
theorem Phrase.append (h : Phrase as) (h' : Phrase bs) (hb : ∀ c, isEnder (first bs c)) :
    Phrase (as ++ bs) where
  mild := mild_append h.mild h'.mild
  level d hd := by simp [h.level d hd, h'.level d hd]
  clear := h.clear.append h'.clear
  begins := h.begins_append _
  ends c hc := by
    rw [fit_append]
    exact ⟨h.ends _ (hb _), h'.ends c hc⟩
  opens := by
    obtain ⟨a, ha, ho⟩ := h.opens
    exact ⟨a, List.mem_head?_append_of_mem_head? ha, ho⟩
  dotted := by
    obtain hd | ⟨cs, xs, rfl⟩ := h'.dotted
    · exact .inl ((fit_append ..).2 ⟨h.ends _ (hb _), hd⟩)
    · exact .inr ⟨as ++ cs, xs, by simp⟩

/-! ### Single parts -/

/-- Holds of the symbols that may stand by themselves. -/
def isMark (s : String) : Bool := symbols.contains s && s != "."

theorem isLineBreak_of_symbol (hs : s ∈ symbols) : ∀ c ∈ s.toList, isLineBreak c = false := by
  have hall : symbols.all fun s => s.toList.all fun c => !isLineBreak c := by decide
  simpa using List.all_eq_true.1 hall s hs

theorem mark_facts (h : isMark s) : s ∈ symbols ∧ s ≠ "." ∧ (∀ c ∈ s.toList, isLineBreak c = false) ∧
    ∀ c, isEnder c → joins s c = false := by
  simp only [isMark, Bool.and_eq_true, List.contains_eq_mem, decide_eq_true_eq, bne_iff_ne] at h
  refine ⟨h.1, h.2, isLineBreak_of_symbol h.1, fun c hc => ?_⟩
  by_contra hj
  have := joins_tail h.1 h.2 (by simpa using hj)
  simp only [List.mem_cons, List.not_mem_nil, or_false] at this
  obtain rfl | rfl | rfl | rfl | rfl := this
  all_goals exact absurd hc (by decide)

theorem mild_symbol (h : isMark s) : (symbol s).Mild :=
  have h := mark_facts h
  ⟨⟨h.1, h.2.1⟩, h.2.2.1, by simp, by simp⟩

theorem mild_blank : blank.Mild := ⟨True.intro, by simp [chars]; decide, by simp, by simp⟩

theorem mild_word (h : isIdentifier xs) (hx : String.ofList xs ∉ Flatten.leads) : (word xs).Mild :=
  ⟨h, fun c hc => isLineBreak_of_continue (continue_of_mem_identifier h c hc), by
    rintro cs ⟨⟩
    exact hx, by simp⟩

theorem mild_member (h : isIdentifier xs) : (member xs).Mild := by
  refine ⟨h, fun c hc => ?_, by simp, by simp⟩
  obtain rfl | hc := List.mem_cons.1 hc
  · decide
  · exact isLineBreak_of_continue (continue_of_mem_identifier h c hc)

theorem endsName_of_ender (h : isEnder c ∨ c = '.') : endsName c ∧ (isEnder c → endsNumber c) := by
  have hall : [')', ']', '}', ',', ' ', ':', '\n', '(', '['].all fun c => endsName c && endsNumber c := by
    decide
  obtain h | rfl := h
  · have := List.all_eq_true.1 hall c (by simpa only [isEnder, List.contains_eq_mem, decide_eq_true_eq] using h)
    simp_all
  · exact ⟨by decide, fun h => by revert h; decide⟩

theorem fit_name (h : isEnder c ∨ c = '.') : Fit [word xs] c ∧ Fit [member xs] c := by
  simp [Fit, stops, endsName_of_ender h]

theorem fit_quoted (h : isEnder c ∨ c = '.') : Fit [quoted xs] c := by
  have := (endsName_of_ender h).1
  simp only [endsName, Bool.and_eq_true] at this
  simpa [Fit, stops] using this.2

/-- A word by itself. -/
theorem piece_word (h : isIdentifier xs) (hx : String.ofList xs ∉ Flatten.leads)
    (hr : word xs ≠ runtime) : Piece 0 [word xs] where
  mild := by simpa using mild_word h hx
  level _ _ := rfl
  clear := clear_single hr
  begins := by
    obtain ⟨d, ds, hd, hsolid⟩ := Valid.solid (a := word xs) h (by simp)
    exact ⟨d, ds, by simp [spell, hd], hsolid⟩
  ends _ hc := (fit_name (.inl hc)).1

/-- A name, or a keyword that is a value. -/
theorem phrase_word (h : isIdentifier xs) (hx : String.ofList xs ∉ Flatten.leads)
    (hs : String.ofList xs ∉ starters) (hr : word xs ≠ runtime) : Phrase [word xs] where
  toPiece := piece_word h hx hr
  opens := ⟨_, rfl, by simpa [isOperand] using hs⟩
  dotted := .inl (fit_name (.inr rfl)).1

/-- An operator by itself. -/
theorem piece_symbol (hs : isMark s) (hstep : ∀ d, step d (symbol s) = some d) : Piece 0 [symbol s] := by
  obtain ⟨c, cs, hspell, hsolid⟩ := (mild_symbol hs).valid.solid (by simp)
  exact ⟨by simpa using mild_symbol hs, fun d _ => by simp [hstep], clear_single (by simp [runtime]),
    ⟨c, cs, by simp [hspell], hsolid⟩, fun c hc => by simp [Fit, stops, (mark_facts hs).2.2.2 c hc]⟩

theorem phrase_quoted (h : Literal xs) (hb : ∀ c ∈ xs, isLineBreak c = false) : Phrase [quoted xs] where
  mild := by simpa using ⟨h, hb, by simp, by simp⟩
  level _ _ := rfl
  clear := clear_single (by simp [runtime])
  begins := by
    obtain ⟨d, ds, hd, hsolid⟩ := Valid.solid (a := quoted xs) h (by simp)
    exact ⟨d, ds, by simp [spell, hd], hsolid⟩
  ends _ hc := fit_quoted (.inl hc)
  opens := ⟨_, rfl, rfl⟩
  dotted := .inl (fit_quoted (.inr rfl))

theorem isLineBreak_of_isRunChar (h : isRunChar c) : isLineBreak c = false := by
  simp only [isRunChar, Bool.or_eq_true, beq_iff_eq] at h
  obtain ((h | rfl) | rfl) | rfl := h
  · exact isLineBreak_of_continue h
  all_goals decide

theorem mild_number (h : Run xs) (hd : ∃ c ∈ xs.head?, c.isDigit) : (number xs).Mild :=
  ⟨⟨h, by rintro rfl; simp at hd⟩, fun c hc => isLineBreak_of_isRunChar (h.chars c hc), by simp, by
    rintro cs ⟨⟩
    exact hd⟩

theorem phrase_number (h : Run xs) (hd : ∃ c ∈ xs.head?, c.isDigit) : Phrase [number xs] where
  mild := by simpa using mild_number h hd
  level _ _ := rfl
  clear := clear_single (by simp [runtime])
  begins := by
    obtain ⟨d, ds, hd, hsolid⟩ := Valid.solid (mild_number h hd).valid (by simp)
    exact ⟨d, ds, by simp [spell, hd], hsolid⟩
  ends c hc := by simp [Fit, stops, (endsName_of_ender (.inl hc)).2 hc]
  opens := ⟨_, rfl, rfl⟩
  dotted := .inr ⟨[], xs, rfl⟩

/-- Something of the runtime module. -/
theorem phrase_drawn (h : isIdentifier xs) (hd : (member xs).isDrawn) : Phrase [runtime, member xs] where
  mild := by
    have : (word "_jt_rt".toList).Mild := mild_word (by decide) (by decide)
    simpa [runtime, mild_member h] using this
  level _ _ := rfl
  clear := ⟨fun _ => ⟨_, rfl, hd⟩, clear_single (by simp [runtime])⟩
  begins := ⟨'_', "jt_rt".toList ++ '.' :: xs, by simp [spell, runtime, chars], by decide⟩
  ends c hc := ⟨by simp [first_cons (show (member xs).chars = '.' :: xs from rfl), runtime, stops]; decide,
    (fit_name (.inl hc)).2⟩
  opens := ⟨_, rfl, by decide⟩
  dotted := .inl ⟨by simp [first_cons (show (member xs).chars = '.' :: xs from rfl), runtime, stops]; decide,
    (fit_name (.inr rfl)).2⟩

/-- A number with an attribute behind it. -/
theorem run_attribute (h : Run xs) (hy : isIdentifier ys) : Run (xs ++ '.' :: ys) := by
  have hcontinue := continue_of_mem_identifier hy
  refine ⟨fun c hc => ?_, fun as c bs he hc => ?_⟩
  · obtain hc | hc := List.mem_append.1 hc
    · exact h.chars c hc
    · obtain rfl | hc := List.mem_cons.1 hc
      · decide
      · simp [isRunChar, hcontinue c hc]
  · obtain ⟨zs, hzs, hbs⟩ | ⟨zs, hzs, hbs⟩ := List.append_eq_append_iff.1 he
    · cases zs with
      | nil =>
        obtain ⟨rfl, rfl⟩ : c = '.' ∧ bs = ys := by simpa [eq_comm] using hbs
        cases bs with
        | nil => simp [isIdentifier] at hy
        | cons d ds => exact ⟨d, rfl, hcontinue d (by simp), .inl rfl⟩
      | cons z zs =>
        obtain ⟨-, rfl⟩ : '.' = z ∧ ys = zs ++ c :: bs := by simpa using hbs
        exact absurd (hcontinue c (by simp)) (by simp [hc])
    · cases zs with
      | nil =>
        obtain ⟨rfl, rfl⟩ : c = '.' ∧ bs = ys := by simpa [eq_comm] using hbs
        cases bs with
        | nil => simp [isIdentifier] at hy
        | cons d ds => exact ⟨d, rfl, hcontinue d (by simp), .inl rfl⟩
      | cons z zs =>
        obtain ⟨rfl, rfl⟩ := List.cons.inj hbs
        obtain ⟨d, hd, hnext⟩ := h.next as c zs hzs hc
        exact ⟨d, List.mem_head?_append_of_mem_head? hd, hnext⟩

theorem clear_swap (h : Clear (bs ++ [number xs])) : Clear (bs ++ [number ys]) := by
  induction bs with
  | nil => exact clear_single (by simp [runtime])
  | cons b bs ih =>
    refine ⟨fun hb => ?_, ih h.2⟩
    obtain ⟨e, he, hdrawn⟩ := h.1 hb
    cases bs with
    | nil =>
      obtain rfl : number xs = e := by simpa using he
      cases hdrawn
    | cons b' bs => exact ⟨e, by simpa using he, hdrawn⟩

/-- A value that ends with a number, and more of the number. -/
theorem Phrase.longer (h : Phrase (bs ++ [number xs])) (hr : Run (xs ++ ys)) :
    Phrase (bs ++ [number (xs ++ ys)]) := by
  have hdigit := (h.mild (number xs) (by simp)).digit xs rfl
  obtain ⟨x, zs, rfl⟩ := List.exists_cons_of_ne_nil (h.mild (number xs) (by simp)).valid.2
  have hfirst (ws : List Char) (c : Char) : first [number (x :: ws)] c = x := first_cons rfl _ _
  refine ⟨⟨mild_append (fun a ha => h.mild a (by simp [ha])) ?_, fun d hd => ?_,
    clear_swap h.clear, ?_, fun c hc => ?_⟩, ?_, .inr ⟨bs, _, rfl⟩⟩
  · simpa using mild_number hr (by simpa using hdigit)
  · simpa [step, Option.bind_eq_some_iff] using h.level d hd
  · obtain ⟨c, cs, hc, hsolid⟩ := h.begins
    have hspell : spell (bs ++ [number (x :: zs ++ ys)]) = spell (bs ++ [number (x :: zs)]) ++ ys := by
      simp [spell_append, chars]
    exact ⟨c, cs ++ ys, by rw [hspell, hc, List.cons_append], hsolid⟩
  · have := (fit_append ..).1 (h.ends c hc)
    rw [hfirst] at this
    refine (fit_append ..).2 ⟨by rw [List.cons_append, hfirst]; exact this.1, ?_⟩
    simp [Fit, stops, (endsName_of_ender (.inl hc)).2 hc]
  · obtain ⟨a, ha, ho⟩ := h.opens
    cases bs with
    | nil => exact ⟨_, rfl, rfl⟩
    | cons b bs => exact ⟨a, by simpa using ha, ho⟩

/-- An attribute of a value. -/
theorem Phrase.member (h : Phrase as) (hx : isIdentifier xs) :
    ∃ bs, spell bs = spell as ++ '.' :: xs ∧ Phrase bs := by
  obtain hdot | ⟨bs, ys, rfl⟩ := h.dotted
  · refine ⟨as ++ [.member xs], by simp [spell_append, chars], ?_⟩
    have hfirst (c : Char) : first [Atom.member xs] c = '.' := first_cons rfl _ _
    refine ⟨⟨mild_append h.mild (by simpa using mild_member hx), fun d hd => ?_,
      h.clear.append (clear_single (by simp [runtime])), h.begins_append _, fun c hc => ?_⟩, ?_, ?_⟩
    · simp [h.level d hd, step]
    · exact (fit_append ..).2 ⟨by rwa [hfirst], (fit_name (.inl hc)).2⟩
    · obtain ⟨a, ha, ho⟩ := h.opens
      exact ⟨a, List.mem_head?_append_of_mem_head? ha, ho⟩
    · exact .inl ((fit_append ..).2 ⟨by rwa [hfirst], (fit_name (.inr rfl)).2⟩)
  · have hvalid := (h.mild (number ys) (by simp)).valid
    exact ⟨_, by simp [spell_append, chars], h.longer (run_attribute hvalid.1 hx)⟩

/-! ### Parts in brackets -/

/-- Holds of the symbols that no character makes another symbol of. -/
def isFinal (s : String) : Bool := symbols.all fun t => !s.toList.isPrefixOf t.toList || t == s

theorem joins_final (h : isFinal s) (c : Char) : joins s c = false := by
  by_contra hj
  rw [Bool.not_eq_false, joins, List.any_eq_true] at hj
  obtain ⟨t, ht, hprefix⟩ := hj
  rw [List.isPrefixOf_iff_prefix] at hprefix
  have hs := List.all_eq_true.1 h t ht
  have : s.toList.isPrefixOf t.toList := by
    rw [List.isPrefixOf_iff_prefix]
    exact (List.prefix_append ..).trans hprefix
  simp only [this, Bool.not_true, Bool.false_or, beq_iff_eq] at hs
  subst hs
  have hlength := hprefix.length_le
  rw [List.length_append, List.length_singleton] at hlength
  omega

/-- A bracket that opens and the one that closes it. -/
structure Brackets (o c : String) : Prop where
  opening : isMark o ∧ isFinal o ∧ (symbol o).isOperand ∧ ∀ d, step d (symbol o) = some (d + 1)
  closing : isMark c ∧ isFinal c ∧ (∀ d, step (d + 1) (symbol c) = some d) ∧
    ∃ e, c.toList = [e] ∧ isEnder e

theorem parens : Brackets "(" ")" :=
  ⟨⟨by decide, by decide, rfl, fun _ => rfl⟩, by decide, by decide,
    fun _ => rfl, ')', rfl, by decide⟩

theorem squares : Brackets "[" "]" :=
  ⟨⟨by decide, by decide, rfl, fun _ => rfl⟩, by decide, by decide,
    fun _ => rfl, ']', rfl, by decide⟩

theorem braces : Brackets "\x7b" "\x7d" :=
  ⟨⟨by decide, by decide, rfl, fun _ => rfl⟩, by decide, by decide,
    fun _ => rfl, '}', rfl, by decide⟩

theorem fit_final (h : isFinal s) (c : Char) : Fit [symbol s] c := by simp [Fit, stops, joins_final h]

/-- A piece in brackets, or brackets with nothing in them. -/
theorem Brackets.phrase (h : Brackets s t) (hp : as = [] ∨ Piece 1 as) :
    Phrase (symbol s :: (as ++ [symbol t])) := by
  obtain ⟨⟨hs, hfinal, hoperand, hstep⟩, ht, hfinal', hstep', e, hchars, hender⟩ := h
  have hmild : ∀ a ∈ as, a.Mild := hp.elim (fun h => by simp [h]) (·.mild)
  have hlevel (d : Nat) : steps (d + 1) as = some (d + 1) :=
    hp.elim (fun h => by simp [h]) (·.level _ (by omega))
  have hclear : Clear as := hp.elim (fun h => h ▸ True.intro) (·.clear)
  have hfirst (c : Char) : first [symbol t] c = e :=
    first_cons (show (symbol t).chars = [e] from hchars) _ _
  have hfit : Fit as e := hp.elim (fun h => h ▸ True.intro) (·.ends _ hender)
  have hall (c : Char) : Fit (symbol s :: (as ++ [symbol t])) c :=
    ⟨by simp [stops, joins_final hfinal], (fit_append ..).2 ⟨by rwa [hfirst], fit_final hfinal' c⟩⟩
  obtain ⟨c, cs, hspell, hsolid⟩ := (mild_symbol hs).valid.solid (by simp)
  exact {
    mild := by
      simp only [List.mem_cons, List.mem_append, List.not_mem_nil, or_false]
      rintro a (rfl | ha | rfl)
      · exact mild_symbol hs
      · exact hmild a ha
      · exact mild_symbol ht
    level := fun d _ => by simp [hstep, hlevel, hstep']
    clear := clear_cons (by simp [runtime]) (hclear.append (clear_single (by simp [runtime])))
    begins := ⟨c, cs ++ spell (as ++ [symbol t]), by rw [spell_cons, hspell, List.cons_append], hsolid⟩
    ends := fun c _ => hall c
    opens := ⟨_, rfl, hoperand⟩
    dotted := .inl (hall '.') }

/-- Arguments or an index behind a value. -/
theorem Phrase.applied (h : Phrase as) (hb : Brackets s t) (hs : s = "(" ∨ s = "[")
    (hp : bs = [] ∨ Piece 1 bs) : Phrase (as ++ symbol s :: (bs ++ [symbol t])) := by
  refine h.append (hb.phrase hp) fun c => ?_
  obtain rfl | rfl := hs
  · rw [first_cons (show (symbol "(").chars = ['('] from rfl)]
    decide
  · rw [first_cons (show (symbol "[").chars = ['['] from rfl)]
    decide

/-- A sign in front of a value. -/
theorem Phrase.signed (h : Phrase as) (hs : s ∈ ["*", "**", "-", "+"]) : Piece 0 (symbol s :: as) := by
  have hall : ["*", "**", "-", "+"].all fun s => isMark s && s.toList.all isSolid := by decide
  have hs' := List.all_eq_true.1 hall s hs
  simp only [Bool.and_eq_true] at hs'
  have hmark := mild_symbol hs'.1
  obtain ⟨c, cs, hspell, hsolid⟩ := hmark.valid.solid (by simp)
  refine ⟨by simpa using ⟨hmark, h.mild⟩, fun d hd => ?_, clear_cons (by simp [runtime]) h.clear,
    ⟨c, cs ++ spell as, by rw [spell_cons, hspell, List.cons_append], hsolid⟩, fun c hc => ⟨?_, h.ends c hc⟩⟩
  · have : step d (symbol s) = some d := by
      simp only [List.mem_cons, List.not_mem_nil, or_false] at hs
      obtain rfl | rfl | rfl | rfl := hs <;> rfl
    simp [this, h.level d hd]
  · simp [stops, joins_opener hmark.valid.1 hmark.valid.2 (h.isOpener_first c)]

/-- A negative number. -/
theorem Phrase.minus (h : Phrase as) : Phrase (symbol "-" :: as) where
  toPiece := h.signed (by simp)
  opens := ⟨_, rfl, rfl⟩
  dotted := by
    have hmark := mild_symbol (s := "-") (by decide)
    obtain hdot | ⟨bs, cs, rfl⟩ := h.dotted
    · exact .inl ⟨by
        simp [stops, joins_opener hmark.valid.1 hmark.valid.2 (h.isOpener_first '.')], hdot⟩
    · exact .inr ⟨symbol "-" :: bs, cs, rfl⟩

/-- A name in front of a value that it stands for. -/
theorem Phrase.named (h : Phrase as) (hx : isIdentifier xs) (hlead : String.ofList xs ∉ Flatten.leads)
    (hr : word xs ≠ runtime) : Piece 0 (word xs :: symbol "=" :: as) := by
  have hmark := mild_symbol (s := "=") (by decide)
  obtain ⟨c, cs, hspell, hsolid⟩ := Valid.solid (a := word xs) hx (by simp)
  refine ⟨by simpa using ⟨mild_word hx hlead, hmark, h.mild⟩, fun d hd => ?_,
    clear_cons hr (clear_cons (by simp [runtime]) h.clear),
    ⟨c, cs ++ spell (symbol "=" :: as), by rw [spell_cons, hspell, List.cons_append], hsolid⟩,
    fun c hc => ⟨?_, ?_, h.ends c hc⟩⟩
  · exact h.level d hd
  · rw [first_cons (show (symbol "=").chars = ['='] from rfl)]
    exact (show endsName '=' from by decide)
  · simp [stops, joins_opener hmark.valid.1 hmark.valid.2 (h.isOpener_first c)]

/-- The bounds of a slice with the colon between them. -/
theorem piece_colon (h : as = [] ∨ Piece 1 as) (h' : bs = [] ∨ Piece 1 bs)
    (hb : ∀ c, isEnder c → first bs c ≠ '=') : Piece 1 (as ++ symbol ":" :: bs) := by
  have hmark := mild_symbol (s := ":") (by decide)
  have hjoins (c : Char) (hc : c ≠ '=') : joins ":" c = false := by
    by_contra hj
    rw [Bool.not_eq_false, joins, List.any_eq_true] at hj
    obtain ⟨t, ht, hprefix⟩ := hj
    rw [List.isPrefixOf_iff_prefix] at hprefix
    have hall : symbols.all fun t => !(":".toList.isPrefixOf t.toList) || t == ":" || t == ":=" := by
      decide
    have ht := List.all_eq_true.1 hall t ht
    have hcolon : ":".toList.isPrefixOf t.toList := by
      rw [List.isPrefixOf_iff_prefix]
      exact (List.prefix_append ..).trans hprefix
    simp only [hcolon, Bool.not_true, Bool.false_or, Bool.or_eq_true, beq_iff_eq] at ht
    obtain rfl | rfl := ht
    · simpa using hprefix.length_le
    · exact hc (by simpa using hprefix)
  have hfirst (c : Char) : first (symbol ":" :: bs) c = ':' :=
    first_cons (show (symbol ":").chars = [':'] from rfl) _ _
  refine ⟨?_, fun d hd => ?_, ?_, ?_, fun c hc => ?_⟩
  · refine mild_append (h.elim (fun h => by simp [h]) (·.mild)) ?_
    simpa using ⟨hmark, h'.elim (fun h => by simp [h]) (·.mild)⟩
  · have hcolon : step d (symbol ":") = some d := by simp [step, show d ≠ 0 by omega]
    have has : steps d as = some d := h.elim (fun h => by simp [h]) (·.level d hd)
    have hbs : steps d bs = some d := h'.elim (fun h => by simp [h]) (·.level d hd)
    simp [has, hcolon, hbs]
  · exact (h.elim (fun h => h ▸ True.intro) (·.clear) : Clear as).append
      (clear_cons (by simp [runtime]) (h'.elim (fun h => h ▸ True.intro) (·.clear)))
  · obtain rfl | h := h
    · exact ⟨':', spell bs, by simp [spell_cons, chars], by decide⟩
    · exact h.begins_append _
  · rw [fit_append, hfirst]
    refine ⟨h.elim (fun h => h ▸ True.intro) (·.ends _ (by decide)), ?_,
      h'.elim (fun h => h ▸ True.intro) (·.ends c hc)⟩
    simp [stops, hjoins _ (hb c hc)]

/-! ### Parts with something between them -/

theorem glue_blank : Glue 0 [blank] :=
  ⟨by simpa using mild_blank, fun _ _ => rfl, clear_single (by simp [runtime]), ⟨' ', [], rfl, by decide⟩,
    fun c _ => by simp [Fit, stops]⟩

theorem glue_symbol (hs : isMark s) (hc : s.toList.head?.any isEnder) (hk : ∀ d, k ≤ d → step d (symbol s) = some d) :
    Glue k [symbol s, blank] := by
  obtain ⟨c, cs, hchars⟩ : ∃ c cs, s.toList = c :: cs := by
    cases h : s.toList with
    | nil => simp [h] at hc
    | cons c cs => exact ⟨c, cs, rfl⟩
  have hender : isEnder c := by simpa [hchars] using hc
  refine ⟨by simpa using ⟨mild_symbol hs, mild_blank⟩, fun d hd => ?_,
    clear_cons (by simp [runtime]) (clear_single (by simp [runtime])),
    ⟨c, cs ++ [' '], by simp [spell_cons, chars, hchars], hender⟩, fun c _ => ⟨?_, ?_⟩⟩
  · rw [steps_cons, hk d hd]
    rfl
  · rw [first_cons (show blank.chars = [' '] from rfl)]
    simp [stops, (mark_facts hs).2.2.2 ' ' (by decide)]
  · simp [Fit, stops]

theorem glue_comma : Glue 0 [symbol ",", blank] := glue_symbol (by decide) (by decide) fun _ _ => rfl

theorem glue_colon : Glue 1 [symbol ":", blank] :=
  glue_symbol (by decide) (by decide) fun d hd => by simp [step, show d ≠ 0 by omega]

end Stencil.Code.Atom
