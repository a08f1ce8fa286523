import Mathlib.Data.List.TakeWhile
import Mathlib.Data.Nat.Digits.Defs
import Stencil.Proofs.Lists
import Stencil.Text.Natural

/-!
Natural keys as they are compared: position by position, numbers at the odd positions and texts at the even ones. So no
number is compared with a text, and two texts have one key if they differ in nothing but the way in which their
numbers are written. A text with more digits in a row than can be read has no key and cannot be sorted.
-/
namespace Stencil.Text

variable {s t u : String} {as bs cs : List Char} {ps qs : List (List Char)}

/-! ### The order of keys -/

namespace NaturalKey
open Std

/-- A number and the text behind it. -/
def compareChunk : Nat × String → Nat × String → Ordering := compareLex (compareOn Prod.fst) (compareOn Prod.snd)

theorem compareRest_eq (as bs : List (Nat × String)) : compareRest as bs = List.compareLex compareChunk as bs := by
  induction as generalizing bs with
  | nil => cases bs <;> rfl
  | cons a as ih =>
    cases bs with
    | nil => rfl
    | cons b bs => rw [List.compareLex_cons_cons, ← ih, compareRest, ← Ordering.then_assoc]; rfl

instance : TransCmp compareChunk := inferInstanceAs (TransCmp (compareLex _ _))

instance : LawfulEqCmp compareChunk where
  eq_of_compare {a b} h := by
    rw [compareChunk, compareLex_eq_eq] at h
    exact Prod.ext (LawfulEqOrd.eq_of_compare h.1) (LawfulEqOrd.eq_of_compare h.2)

theorem compare_eq : compare = compareLex (compareOn lead) fun a b => List.compareLex compareChunk a.rest b.rest := by
  funext a b
  rw [compare, compareRest_eq]
  rfl

instance : TransCmp (fun a b : NaturalKey => List.compareLex compareChunk a.rest b.rest) where
  eq_swap := (inferInstance : TransCmp (List.compareLex compareChunk)).eq_swap
  isLE_trans := (inferInstance : TransCmp (List.compareLex compareChunk)).isLE_trans

instance : TransCmp compare := by
  rw [compare_eq]
  infer_instance

theorem compare_eq_eq_iff {a b : NaturalKey} : compare a b = .eq ↔ a = b := by
  rw [compare_eq, compareLex_eq_eq, NaturalKey.mk.injEq]
  exact and_congr LawfulEqOrd.compare_eq_iff_eq LawfulEqCmp.compare_eq_iff_eq

end NaturalKey

/-! ### Cutting at the runs of digits -/

/-- Texts without digits take turns with runs of digits, and no text between two runs is empty. -/
inductive Alternating : List (List Char) → Prop
  | text {text : List Char} (htext : ∀ c ∈ text, isDecimal c = false) : Alternating [text]
  | run {text run next : List Char} {parts : List (List Char)} (htext : ∀ c ∈ text, isDecimal c = false)
      (hne : run ≠ []) (hrun : ∀ c ∈ run, isDecimal c) (hnext : next = [] → parts = [])
      (hrest : Alternating (next :: parts)) : Alternating (text :: run :: next :: parts)

/-- The parts of a text that is cut in front of and behind each run of digits. -/
structure IsSplit (s : String) (parts : List (List Char)) : Prop where
  alternating : Alternating parts
  flatten : parts.flatten = s.toList

theorem takeWhile_stops {q : Char → Bool} (has : ∀ c ∈ as, q c) (hbs : ∀ c ∈ bs.head?, q c = false) :
    (as ++ bs).takeWhile q = as := by
  rw [List.takeWhile_append_of_pos has]
  cases bs <;> simp_all

theorem dropWhile_stops {q : Char → Bool} (has : ∀ c ∈ as, q c) (hbs : ∀ c ∈ bs.head?, q c = false) :
    (as ++ bs).dropWhile q = bs := by
  rw [List.dropWhile_append_of_pos has]
  cases bs <;> simp_all

namespace Alternating

variable {text : List Char} {parts : List (List Char)}

theorem head (h : Alternating (text :: parts)) : ∀ c ∈ text, isDecimal c = false := by
  cases h <;> assumption

/-- Digits follow the text that comes first. -/
theorem head?_tail (h : Alternating (text :: parts)) : ∀ c ∈ parts.flatten.head?, isDecimal c := by
  cases h with
  | text => simp
  | @run _ run next parts htext hne hrun hnext hrest =>
    obtain ⟨d, run, rfl⟩ := List.exists_cons_of_ne_nil hne
    simpa using hrun d List.mem_cons_self

/-- No digit follows a run. -/
theorem head?_rest {next : List Char} (hnext : next = [] → parts = []) (h : Alternating (next :: parts)) :
    ∀ c ∈ (next :: parts).flatten.head?, isDecimal c = false := by
  cases next with
  | nil => simp [hnext rfl]
  | cons d next => simpa using h.head d List.mem_cons_self

theorem takeWhile_text (h : Alternating (text :: parts)) :
    (text :: parts).flatten.takeWhile (!isDecimal ·) = text :=
  takeWhile_stops (by simpa using h.head) (by simpa using h.head?_tail)

theorem dropWhile_text (h : Alternating (text :: parts)) :
    (text :: parts).flatten.dropWhile (!isDecimal ·) = parts.flatten :=
  dropWhile_stops (by simpa using h.head) (by simpa using h.head?_tail)

theorem exists_cons (h : Alternating ps) : ∃ text parts, ps = text :: parts := by
  cases h <;> exact ⟨_, _, rfl⟩

/-- There is one way to cut a text. -/
theorem unique (h : Alternating ps) (h' : Alternating qs) (hflat : ps.flatten = qs.flatten) : ps = qs := by
  induction h generalizing qs with
  | @text text htext =>
    obtain ⟨text', parts', rfl⟩ := h'.exists_cons
    have hend : parts'.flatten = [] := by
      rw [← h'.dropWhile_text, ← hflat, (Alternating.text htext).dropWhile_text, List.flatten_nil]
    cases h' with
    | text => simpa using hflat
    | run _ hne => simp [hne] at hend
  | @run text run next parts htext hne hrun hnext hrest ih =>
    have h : Alternating (text :: run :: next :: parts) := .run htext hne hrun hnext hrest
    obtain ⟨text', parts', rfl⟩ := h'.exists_cons
    have htexts : text = text' := by rw [← h.takeWhile_text, hflat, h'.takeWhile_text]
    have htails : (run :: next :: parts).flatten = parts'.flatten := by
      rw [← h.dropWhile_text, hflat, h'.dropWhile_text]
    cases h' with
    | text => simp [hne] at htails
    | @run _ run' next' parts' htext' hne' hrun' hnext' hrest' =>
      rw [List.flatten_cons, List.flatten_cons (l := run')] at htails
      have hstop := head?_rest hnext hrest
      have hstop' := head?_rest hnext' hrest'
      have hruns : run = run' := by rw [← takeWhile_stops hrun hstop, htails, takeWhile_stops hrun' hstop']
      have hrests : (next :: parts).flatten = (next' :: parts').flatten := by
        rw [← dropWhile_stops hrun hstop, htails, dropWhile_stops hrun' hstop']
      rw [htexts, hruns, ih hrest' hrests]

/-- Every text can be cut: a character joins the part in front of which it stands if it is of its kind. -/
theorem exists_flatten (cs : List Char) : ∃ ps, Alternating ps ∧ ps.flatten = cs := by
  induction cs with
  | nil => exact ⟨[[]], .text (by simp), rfl⟩
  | cons c cs ih =>
    obtain ⟨ps, h, rfl⟩ := ih
    cases hc : isDecimal c with
    | false =>
      cases h with
      | @text text htext => exact ⟨[c :: text], .text (by simpa [hc] using htext), by simp⟩
      | @run text run next parts htext hne hrun hnext hrest =>
        exact ⟨(c :: text) :: run :: next :: parts, .run (by simpa [hc] using htext) hne hrun hnext hrest, by simp⟩
    | true =>
      cases h with
      | @text text htext =>
        exact ⟨[[], [c], text], .run (by simp) (by simp) (by simpa using hc) (fun _ => rfl) (.text htext), by simp⟩
      | @run text run next parts htext hne hrun hnext hrest =>
        obtain rfl | htextNe := eq_or_ne text []
        · refine ⟨[] :: (c :: run) :: next :: parts, .run (by simp) (by simp) ?_ hnext hrest, by simp⟩
          simpa [hc] using hrun
        · exact ⟨[] :: [c] :: text :: run :: next :: parts, .run (by simp) (by simp) (by simpa using hc)
            (fun h => absurd h htextNe) (.run htext hne hrun hnext hrest), by simp⟩

end Alternating

theorem existsUnique_isSplit (s : String) : ∃! ps, IsSplit s ps := by
  obtain ⟨ps, halternating, hflat⟩ := Alternating.exists_flatten s.toList
  refine ⟨ps, ⟨halternating, hflat⟩, fun qs hqs => ?_⟩
  exact hqs.alternating.unique halternating (hqs.flatten.trans hflat.symm)

/-! ### Keys position by position -/

/-- A part of a key. -/
inductive KeyPart
  | text (s : String)
  | number (n : Nat)
deriving DecidableEq, Repr

namespace KeyPart

/-- What stands in a key for the part of a text at a position. At the odd positions are the runs of digits. -/
def ofPart (i : Nat) (part : List Char) : KeyPart :=
  if i % 2 = 1 then .number (digitsValue part) else .text (String.ofList part)

/-- The order of two texts or of two numbers. A text and a number have none. -/
def compare? : KeyPart → KeyPart → Option Ordering
  | .text s, .text t => some (Ord.compare s t)
  | .number m, .number n => some (Ord.compare m n)
  | .text _, .number _ => none
  | .number _, .text _ => none

/-- The order at the first position at which two keys differ, if there is an order. A key that ends there is first. -/
def compareAll? : List KeyPart → List KeyPart → Option Ordering
  | [], [] => some .eq
  | [], _ :: _ => some .lt
  | _ :: _, [] => some .gt
  | a :: as, b :: bs =>
    match a.compare? b with
    | some .eq => compareAll? as bs
    | order => order

theorem ofPart_add_two (i : Nat) : ofPart (i + 2) = ofPart i := by
  funext part
  rw [ofPart, ofPart, Nat.add_mod_right]

end KeyPart

namespace NaturalKey

/-- The parts behind the leading text. -/
def partsOf (rest : List (Nat × String)) : List KeyPart := rest.flatMap fun r => [.number r.1, .text r.2]

def parts (k : NaturalKey) : List KeyPart := .text k.lead :: partsOf k.rest

theorem partsOf_chunks (h : Alternating ps) (fuel : Nat) (hfuel : ps.tail.flatten.length ≤ fuel) :
    partsOf (chunks fuel ps.tail.flatten) = ps.tail.mapIdx fun i part => KeyPart.ofPart (i + 1) part := by
  induction h generalizing fuel with
  | text => cases fuel <;> simp [chunks, partsOf]
  | @run text run next parts htext hne hrun hnext hrest ih =>
    have hrest' := Alternating.head?_rest hnext hrest
    simp only [List.tail_cons, List.flatten_cons, List.length_append] at hfuel ih ⊢
    -- the run takes a character, so the bound lasts for what is behind it
    have hpos : 0 < run.length := List.length_pos_iff.2 hne
    obtain ⟨fuel, rfl⟩ : ∃ n, fuel = n + 1 := ⟨fuel - 1, by omega⟩
    have hdigits : (run ++ (next ++ parts.flatten)).takeWhile isDecimal = run := takeWhile_stops hrun hrest'
    have hafter : (run ++ (next ++ parts.flatten)).dropWhile isDecimal = next ++ parts.flatten :=
      dropWhile_stops hrun hrest'
    have hstep : chunks (fuel + 1) (run ++ (next ++ parts.flatten)) =
        (digitsValue run, String.ofList next) :: chunks fuel parts.flatten := by
      have htake := hrest.takeWhile_text
      have hdrop := hrest.dropWhile_text
      rw [List.flatten_cons] at htake hdrop
      rw [chunks, hdigits, hafter, if_neg (by simpa using hne)]
      dsimp only
      rw [htake, hdrop]
    rw [hstep, partsOf, List.flatMap_cons, ← partsOf, ih fuel (by omega), List.mapIdx_cons, List.mapIdx_cons]
    simp only [Nat.add_assoc, KeyPart.ofPart_add_two]
    rfl

/-- A key has a number for each run of digits, and texts for what stands around them. -/
theorem parts_ofString (h : IsSplit s ps) : (ofString s).parts = ps.mapIdx KeyPart.ofPart := by
  obtain ⟨text, parts, rfl⟩ := h.alternating.exists_cons
  have htake := h.alternating.takeWhile_text
  have hdrop := h.alternating.dropWhile_text
  rw [h.flatten] at htake hdrop
  have hlength : parts.flatten.length ≤ s.toList.length := by
    rw [← h.flatten, List.flatten_cons, List.length_append]
    omega
  have hrest := partsOf_chunks h.alternating s.toList.length hlength
  rw [NaturalKey.parts, ofString, htake, hdrop, List.mapIdx_cons]
  exact congrArg (KeyPart.text (String.ofList text) :: ·) hrest

theorem partsOf_injective : Function.Injective partsOf := by
  intro as
  induction as with
  | nil =>
    intro bs h
    cases bs with
    | nil => rfl
    | cons => simp [partsOf] at h
  | cons a as ih =>
    intro bs h
    cases bs with
    | nil => simp [partsOf] at h
    | cons b bs =>
      obtain ⟨m, s⟩ := a
      obtain ⟨n, t⟩ := b
      simp only [partsOf, List.flatMap_cons, List.cons_append, List.nil_append, List.cons.injEq,
        KeyPart.number.injEq, KeyPart.text.injEq] at h
      obtain ⟨rfl, rfl, hrest⟩ := h
      rw [ih hrest]

theorem parts_injective : Function.Injective parts := by
  intro a b h
  obtain ⟨lead, rest⟩ := a
  obtain ⟨lead', rest'⟩ := b
  simp only [parts, List.cons.injEq, KeyPart.text.injEq] at h
  rw [h.1, partsOf_injective h.2]

end NaturalKey

/-! ### Comparing keys -/

namespace KeyPart

variable {i : Nat} {p q : List Char}

theorem isSome_compare?_ofPart (i : Nat) (p q : List Char) : ((ofPart i p).compare? (ofPart i q)).isSome := by
  unfold ofPart
  split <;> rfl

theorem compareAll?_cons {a b : KeyPart} {as bs : List KeyPart} {o o' : Ordering} (h : a.compare? b = some o)
    (hrest : compareAll? as bs = some o') : compareAll? (a :: as) (b :: bs) = some (o.then o') := by
  rw [compareAll?, h]
  cases o with
  | lt => rfl
  | eq => exact hrest
  | gt => rfl

end KeyPart

namespace NaturalKey

/-- No number of a key stands where another key has a text. -/
theorem isSome_compare? {i : Nat} {x y : KeyPart} (hx : (ofString s).parts[i]? = some x)
    (hy : (ofString t).parts[i]? = some y) : (x.compare? y).isSome := by
  obtain ⟨ps, hps, -⟩ := existsUnique_isSplit s
  obtain ⟨qs, hqs, -⟩ := existsUnique_isSplit t
  rw [parts_ofString hps, List.getElem?_mapIdx, Option.map_eq_some_iff] at hx
  rw [parts_ofString hqs, List.getElem?_mapIdx, Option.map_eq_some_iff] at hy
  obtain ⟨p, -, rfl⟩ := hx
  obtain ⟨q, -, rfl⟩ := hy
  exact KeyPart.isSome_compare?_ofPart i p q

theorem compareAll?_partsOf (as bs : List (Nat × String)) :
    KeyPart.compareAll? (partsOf as) (partsOf bs) = some (compareRest as bs) := by
  induction as generalizing bs with
  | nil => cases bs <;> rfl
  | cons a as ih =>
    cases bs with
    | nil => rfl
    | cons b bs => exact KeyPart.compareAll?_cons rfl (KeyPart.compareAll?_cons rfl (ih bs))

/-- Keys are compared position by position. -/
theorem compareAll?_parts (a b : NaturalKey) : KeyPart.compareAll? a.parts b.parts = some (a.compare b) :=
  KeyPart.compareAll?_cons rfl (compareAll?_partsOf a.rest b.rest)

end NaturalKey

theorem naturalLe_total (s t : String) : naturalLe s t ∨ naturalLe t s := by
  have hswap : NaturalKey.compare (.ofString t) (.ofString s) = (NaturalKey.compare (.ofString s) (.ofString t)).swap :=
    Std.OrientedCmp.eq_swap
  rw [naturalLe, naturalLe, hswap, Ordering.isLE_swap]
  cases NaturalKey.compare (.ofString s) (.ofString t) <;> simp

theorem naturalLe_trans (hst : naturalLe s t) (htu : naturalLe t u) : naturalLe s u := by
  rw [naturalLe] at *
  exact Std.TransCmp.isLE_trans hst htu

theorem naturalLe_antisymm_iff : naturalLe s t ∧ naturalLe t s ↔ NaturalKey.ofString s = NaturalKey.ofString t := by
  rw [← NaturalKey.compare_eq_eq_iff]
  refine ⟨fun h => Std.OrientedCmp.isLE_antisymm h.1 h.2, fun h => ?_⟩
  have hswap : NaturalKey.compare (.ofString t) (.ofString s) = .eq := Std.OrientedCmp.eq_comm.1 h
  simp [naturalLe, h, hswap]

/-! ### Texts with one key -/

/-- The digits of a run, the last one first. -/
def digitsOf (run : List Char) : List Nat := run.reverse.map fun c => (digitValue? c).getD 0

theorem digitsValue_eq (run : List Char) : digitsValue run = Nat.ofDigits 10 (digitsOf run) := by
  rw [digitsValue, digitsOf, Nat.ofDigits_eq_foldr, List.foldr_map, List.foldr_reverse]
  simp only [Nat.cast_id, Nat.add_comm]

/-- Parts of two texts that differ at most in the spelling of numbers. -/
structure Alike (ps qs : List (List Char)) : Prop where
  length_eq : ps.length = qs.length
  text : ∀ i p q, i % 2 = 0 → ps[i]? = some p → qs[i]? = some q → p = q
  run : ∀ i p q, i % 2 = 1 → ps[i]? = some p → qs[i]? = some q →
    Nat.ofDigits 10 (digitsOf p) = Nat.ofDigits 10 (digitsOf q)

theorem mapIdx_ofPart_eq_iff : ps.mapIdx KeyPart.ofPart = qs.mapIdx KeyPart.ofPart ↔ Alike ps qs := by
  constructor
  · intro h
    have hlength : ps.length = qs.length := by simpa using congrArg List.length h
    have hpart : ∀ i p q, ps[i]? = some p → qs[i]? = some q → KeyPart.ofPart i p = KeyPart.ofPart i q := by
      intro i p q hp hq
      have hi := congrArg (·[i]?) h
      simpa [hp, hq] using hi
    refine ⟨hlength, fun i p q hi hp hq => ?_, fun i p q hi hp hq => ?_⟩
    · simpa [KeyPart.ofPart, hi, String.ofList_inj] using hpart i p q hp hq
    · simpa [KeyPart.ofPart, hi, digitsValue_eq] using hpart i p q hp hq
  · rintro ⟨hlength, htext, hrun⟩
    refine List.ext_getElem? fun i => ?_
    rw [List.getElem?_mapIdx, List.getElem?_mapIdx]
    obtain hi | hi := Nat.lt_or_ge i ps.length
    · have hp := List.getElem?_eq_getElem hi
      have hq := List.getElem?_eq_getElem (hlength ▸ hi)
      rw [hp, hq, Option.map_some, Option.map_some, Option.some.injEq]
      obtain hodd | heven := (Nat.mod_two_eq_zero_or_one i).symm
      · simp [KeyPart.ofPart, hodd, digitsValue_eq, hrun i _ _ hodd hp hq]
      · simp [KeyPart.ofPart, heven, htext i _ _ heven hp hq]
    · rw [List.getElem?_eq_none hi, List.getElem?_eq_none (hlength ▸ hi)]

theorem parts_eq_iff : (NaturalKey.ofString s).parts = (NaturalKey.ofString t).parts ↔
    ∃ ps qs, IsSplit s ps ∧ IsSplit t qs ∧ Alike ps qs := by
  constructor
  · intro h
    obtain ⟨ps, hps, -⟩ := existsUnique_isSplit s
    obtain ⟨qs, hqs, -⟩ := existsUnique_isSplit t
    rw [NaturalKey.parts_ofString hps, NaturalKey.parts_ofString hqs] at h
    exact ⟨ps, qs, hps, hqs, mapIdx_ofPart_eq_iff.1 h⟩
  · rintro ⟨ps, qs, hps, hqs, halike⟩
    rw [NaturalKey.parts_ofString hps, NaturalKey.parts_ofString hqs, mapIdx_ofPart_eq_iff.2 halike]

/-- Zeros in front of a number and digits of other scripts do not show. -/
example : naturalLe "page007.py" "page\u0667.py" ∧ naturalLe "page\u0667.py" "page007.py" := by decide

/-! ### Sorting -/

/-- Holds of texts with more digits in a row than can be read. -/
def HasLongRun (s : String) : Prop :=
  ∃ run, run <:+: s.toList ∧ (∀ c ∈ run, isDecimal c) ∧ NaturalKey.maxDigits < run.length

theorem hasLongNumber_iff (cs : List Char) : NaturalKey.hasLongNumber cs = true ↔
    ∃ run, run <:+: cs ∧ (∀ c ∈ run, isDecimal c) ∧ NaturalKey.maxDigits < run.length := by
  induction cs with
  | nil =>
    refine iff_of_false nofun ?_
    rintro ⟨run, hrun, -, hlong⟩
    rw [List.infix_nil.1 hrun] at hlong
    exact absurd hlong (Nat.not_lt_zero _)
  | cons c cs ih =>
    rw [NaturalKey.hasLongNumber, Bool.or_eq_true, decide_eq_true_eq, ih]
    constructor
    · rintro (hlong | ⟨run, hrun, hdigits, hlong⟩)
      · exact ⟨_, (List.takeWhile_prefix _).isInfix, fun c hc => List.mem_takeWhile_imp hc, hlong⟩
      · exact ⟨run, List.infix_cons hrun, hdigits, hlong⟩
    · rintro ⟨run, hrun, hdigits, hlong⟩
      obtain ⟨rest, hrest⟩ | hrun := List.infix_cons_iff.1 hrun
      · refine .inl (hlong.trans_le ?_)
        rw [← hrest, List.takeWhile_append_of_pos hdigits, List.length_append]
        exact Nat.le_add_right _ _
      · exact .inr ⟨run, hrun, hdigits, hlong⟩

theorem naturalSort_eq_none_iff {items : List String} : naturalSort items = none ↔ ∃ s ∈ items, HasLongRun s := by
  rw [naturalSort]
  simp only [HasLongRun, ← hasLongNumber_iff, ← List.any_eq_true]
  split
  · next h => simp [h]
  · next h => simp [h]

theorem naturalSort_spec {items sorted : List String} (h : naturalSort items = some sorted) :
    sorted.Perm items ∧ sorted.Pairwise fun a b => naturalLe a b := by
  rw [naturalSort] at h
  split at h
  · cases h
  · cases h
    have htotal : ∀ a b, (naturalLe a b || naturalLe b a) = true := fun a b => by simpa using naturalLe_total a b
    have htrans : ∀ a b c, naturalLe a b = true → naturalLe b c = true → naturalLe a c = true :=
      fun _ _ _ hab hbc => naturalLe_trans hab hbc
    exact ⟨List.mergeSort_perm items naturalLe, List.pairwise_mergeSort htrans htotal items⟩

/-- The parts of a text that is cut at its runs of digits make up its natural key, in which each run counts as a number.
No number is compared with a text, whatever position two keys are compared at. So the order of keys is a total
preorder, in which two texts are alike if and only if they have the same parts but for the spelling of numbers, and
texts can be sorted unless one of them has more digits in a row than can be read. -/
theorem naturalKey_comparable (s t u : String) :
    (∃ ps, IsSplit s ps ∧ (∀ qs, IsSplit s qs → qs = ps) ∧
      (NaturalKey.ofString s).parts = ps.mapIdx KeyPart.ofPart) ∧
    (∀ (i : Nat) (x y : KeyPart), (NaturalKey.ofString s).parts[i]? = some x → (NaturalKey.ofString t).parts[i]? = some y →
      (x.compare? y).isSome) ∧
    (∃ order, KeyPart.compareAll? (NaturalKey.ofString s).parts (NaturalKey.ofString t).parts = some order ∧
      (naturalLe s t ↔ order ≠ .gt)) ∧
    (naturalLe s t ∨ naturalLe t s) ∧ (naturalLe s t → naturalLe t u → naturalLe s u) ∧
    (naturalLe s t ∧ naturalLe t s ↔ (NaturalKey.ofString s).parts = (NaturalKey.ofString t).parts) ∧
    ((NaturalKey.ofString s).parts = (NaturalKey.ofString t).parts ↔
      ∃ ps qs, IsSplit s ps ∧ IsSplit t qs ∧ Alike ps qs) ∧
    ∀ items, (naturalSort items = none ↔ ∃ s ∈ items, HasLongRun s) ∧
      ∀ sorted, naturalSort items = some sorted → sorted.Perm items ∧ sorted.Pairwise fun a b => naturalLe a b := by
  obtain ⟨ps, hps, hunique⟩ := existsUnique_isSplit s
  refine ⟨⟨ps, hps, hunique, NaturalKey.parts_ofString hps⟩, fun i x y => NaturalKey.isSome_compare?,
    ⟨_, NaturalKey.compareAll?_parts _ _, ?_⟩, naturalLe_total s t, naturalLe_trans, ?_, parts_eq_iff,
    fun items => ⟨naturalSort_eq_none_iff, fun sorted => naturalSort_spec⟩⟩
  · exact Ordering.isLE_iff_ne_gt
  · rw [naturalLe_antisymm_iff, NaturalKey.parts_injective.eq_iff]

/-- The second page is before the tenth, and this one before the eleventh, whose number is in other digits. -/
theorem naturalKey_comparable_pages :
    (NaturalKey.ofString "page2.py").parts = [.text "page", .number 2, .text ".py"] ∧
      naturalLe "page2.py" "page010.py" ∧ naturalLe "page010.py" "page\u0661\u0661.py" ∧
      naturalLe "page2.py" "page\u0661\u0661.py" ∧
      ∃ sorted, naturalSort ["page10.py", "page2.py"] = some sorted ∧ sorted.Perm ["page10.py", "page2.py"] := by
  have hletters : ∀ cs : List Char, cs.all (!isDecimal ·) = true → ∀ c ∈ cs, isDecimal c = false := by simp
  have hsplit : IsSplit "page2.py" [['p', 'a', 'g', 'e'], ['2'], ['.', 'p', 'y']] :=
    ⟨.run (hletters _ (by decide)) (by simp) (by simpa using (by decide : isDecimal '2' = true)) (by simp)
      (.text (hletters _ (by decide))), by decide⟩
  have hfirst : naturalLe "page2.py" "page010.py" := by decide
  have hsecond : naturalLe "page010.py" "page\u0661\u0661.py" := by decide
  have hsorted : ∃ sorted, naturalSort ["page10.py", "page2.py"] = some sorted := by
    rw [naturalSort, if_neg (by decide)]
    exact ⟨_, rfl⟩
  obtain ⟨⟨ps, -, hunique, hparts⟩, -, -, -, htrans, -, -, hsort⟩ :=
    naturalKey_comparable "page2.py" "page010.py" "page\u0661\u0661.py"
  obtain ⟨sorted, hsorted⟩ := hsorted
  refine ⟨?_, hfirst, hsecond, htrans hfirst hsecond, sorted, hsorted, ((hsort _).2 sorted hsorted).1⟩
  rw [hparts, ← hunique _ hsplit]
  decide

theorem digitsValue_zeros (n : Nat) (cs : List Char) :
    digitsValue (List.replicate n '0' ++ cs) = digitsValue cs := by
  have hzeros : (List.replicate n '0').foldl (fun n c => 10 * n + (digitValue? c).getD 0) 0 = 0 := by
    have hzero : digitValue? '0' = some 0 := by decide
    induction n with
    | zero => rfl
    | succ n ih => simpa [List.replicate_succ, hzero] using ih
  rw [digitsValue, List.foldl_append, hzeros, digitsValue]

/-- Zeros count as digits that are read, so there are texts for small numbers that cannot be sorted. -/
theorem naturalSort_longZeros :
    digitsValue (List.replicate NaturalKey.maxDigits '0' ++ ['1']) = 1 ∧
      naturalSort [String.ofList (List.replicate NaturalKey.maxDigits '0' ++ ['1'])] = none := by
  refine ⟨(digitsValue_zeros _ _).trans rfl, naturalSort_eq_none_iff.2 ⟨_, List.mem_singleton_self _, ?_⟩⟩
  refine ⟨List.replicate NaturalKey.maxDigits '0' ++ ['1'], ⟨[], [], by simp⟩, ?_, by simp⟩
  have hdigits : isDecimal '0' = true ∧ isDecimal '1' = true := by decide
  intro c hc
  obtain hc | hc := List.mem_append.1 hc
  · rw [List.eq_of_mem_replicate hc, hdigits.1]
  · rw [List.mem_singleton.1 hc, hdigits.2]

end Stencil.Text
