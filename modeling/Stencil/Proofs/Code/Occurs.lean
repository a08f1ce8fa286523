import Stencil.Proofs.Code.Grouping

/-!
Texts that stand in other texts as parts of their own: outside of literals and of longer words. The words of a text
are all that stands in it like that.
-/
namespace Stencil.Code.Grouping
open Text Token

variable {c : Char} {cs ds us vs ws : List Char} {s t u v g w : String} {p : Place} {r r' : Reader}
  {o : List Char} {items : List String}

/-- The place behind some characters. -/
def Place.behind (p : Place) (cs : List Char) : Place := cs.foldl Place.next p

/-- Holds of characters behind which any text may begin. No point is in front of it, so what begins there
is no attribute. -/
def IsClean (cs : List Char) : Prop := Place.between.behind cs = .between ∧ cs.getLast? ≠ some '.'

/-- Holds of characters that end a name in front of them. -/
def EndsNames (cs : List Char) : Prop := cs.head?.all endsName

instance : Decidable (IsClean cs) := inferInstanceAs (Decidable (_ ∧ _))

instance : Decidable (EndsNames cs) := inferInstanceAs (Decidable (_ = true))

/-- The text `t` stands in `s` as a part of its own. -/
def Occurs (t s : String) : Prop :=
  ∃ before behind, s.toList = before ++ t.toList ++ behind ∧ IsClean before ∧ EndsNames behind

theorem behind_append (p : Place) (cs ds : List Char) : p.behind (cs ++ ds) = (p.behind cs).behind ds :=
  List.foldl_append

theorem isClean_nil : IsClean [] := ⟨rfl, by simp⟩

theorem endsNames_nil : EndsNames [] := rfl

theorem Occurs.refl (s : String) : Occurs s s := ⟨[], [], by simp, isClean_nil, endsNames_nil⟩

theorem IsClean.append (h : IsClean cs) (h' : IsClean ds) : IsClean (cs ++ ds) := by
  refine ⟨by rw [behind_append, h.1, h'.1], ?_⟩
  cases ds with
  | nil => simpa using h.2
  | cons d ds => simpa [List.getLast?_append] using h'.2

theorem EndsNames.append (h : EndsNames cs) (h' : EndsNames ds) : EndsNames (cs ++ ds) := by
  cases cs with
  | nil => exact h'
  | cons c cs => exact h

theorem Occurs.trans (h : Occurs t s) (h' : Occurs s u) : Occurs t u := by
  obtain ⟨before, behind, hs, hbefore, hbehind⟩ := h
  obtain ⟨before', behind', hu, hbefore', hbehind'⟩ := h'
  exact ⟨before' ++ before, behind ++ behind', by simp [hu, hs], hbefore'.append hbefore, hbehind.append hbehind'⟩

theorem Occurs.within (hu : IsClean u.toList) (hv : EndsNames v.toList) : Occurs t (u ++ t ++ v) :=
  ⟨u.toList, v.toList, by simp, hu, hv⟩

theorem Occurs.at_end (hu : IsClean u.toList) : Occurs t (u ++ t) := by
  simpa using Occurs.within (v := "") hu endsNames_nil

theorem Occurs.at_front (hv : EndsNames v.toList) : Occurs t (t ++ v) := by
  simpa using Occurs.within (u := "") isClean_nil hv

/-- In front of a mark that ends names. -/
theorem Occurs.followed (hg : EndsNames g.toList) (hne : g.toList ≠ []) : Occurs t (t ++ (g ++ v)) := by
  refine .at_front ?_
  rw [String.toList_append]
  cases hcs : g.toList with
  | nil => exact (hne hcs).elim
  | cons c cs =>
    rw [hcs] at hg
    exact hg

/-! ### Behind texts that can stand inside brackets -/

theorem place_next (h : next r c = some r') : r'.place = r.place.next c := by
  unfold next at h
  split at h
  · cases h
    rfl
  · split at h
    · obtain ⟨o, -, rfl⟩ := Option.map_eq_some_iff.1 h
      rfl
    · cases h

theorem place_read (h : read r cs = some r') : r'.place = r.place.behind cs := by
  induction cs generalizing r with
  | nil =>
    cases h
    rfl
  | cons c cs ih =>
    obtain ⟨r₁, hnext, hread⟩ := Option.bind_eq_some_iff.1 h
    rw [ih hread, place_next hnext]
    rfl

theorem next_of_mayEnd (hp : p.mayEnd o) (hc : isDelimiter c) : p.next c = Place.between.next c := by
  simp only [isDelimiter, Bool.and_eq_true, Bool.not_eq_true'] at hc
  cases p with
  | between => rfl
  | word cs => simp [Place.next, goesOn, hc.1, hc.2]
  | literal q | escape q => cases hp

/-- Behind a text and something that ends it any text may begin. -/
theorem IsClean.group (hu : IsClean us) (h : Grouped 1 s) (hg : Delimits g) (hclean : IsClean g.toList) :
    IsClean (us ++ s.toList ++ g.toList) := by
  obtain ⟨p, hp, hend⟩ := h [')'] (by simp)
  obtain ⟨c, cs, hcs, hc⟩ := hg
  have hplace : p = Place.between.behind s.toList := place_read hp
  have hstart : p.behind g.toList = Place.between.behind g.toList := by
    rw [hcs, Place.behind, Place.behind, List.foldl_cons, List.foldl_cons, next_of_mayEnd hend hc]
  refine ⟨?_, ?_⟩
  · rw [behind_append, behind_append, hu.1, ← hplace, hstart, hclean.1]
  · rw [List.getLast?_append, hcs]
    simpa [hcs] using hclean.2

theorem isClean_glue (h : Grouped 1 s) (hg : Delimits g) (hclean : IsClean g.toList) :
    IsClean (s ++ g).toList := by
  simpa using isClean_nil.group h hg hclean

theorem mark_facts : ∀ g ∈ marks, IsClean g.toList ∧ EndsNames g.toList := by decide

/-- An item of several with something between them. -/
theorem Occurs.intercalate (h : t ∈ items) (hall : ∀ t ∈ items, Grouped 1 t) (hg : g ∈ marks) :
    Occurs t (g.intercalate items) := by
  induction items with
  | nil => cases h
  | cons s items ih =>
    cases items with
    | nil =>
      obtain rfl := List.mem_singleton.1 h
      simpa using Occurs.refl t
    | cons u items =>
      obtain ⟨hclean, hends⟩ := mark_facts g hg
      rw [String.intercalate_cons_cons, String.append_assoc]
      obtain rfl | h := List.mem_cons.1 h
      · obtain ⟨c, cs, hcs, -⟩ := delimits_mark hg
        exact .followed hends (by simp [hcs])
      · refine (ih h fun v hv => hall v (List.mem_cons_of_mem _ hv)).trans ?_
        rw [← String.append_assoc]
        exact .at_end (isClean_glue (hall s (by simp)) (delimits_mark hg) hclean)

end Stencil.Code.Grouping

namespace Stencil.Code.Grouping
open Text Token

variable {p q : Place} {c : Char} {cs ds : List Char} {s t g w : String} {o : List Char} {k : Nat} {items : List String}

/-- The word that a place is in. -/
def Place.word? : Place → Option (List Char)
  | .word cs => some cs
  | _ => none

/-- The words that end behind a place. -/
def wordsFrom : Place → List Char → List (List Char)
  | p, [] => p.word?.toList
  | p, c :: cs => (if p.takes c then [] else p.word?.toList) ++ wordsFrom (p.next c) cs

/-- The words of a text. -/
def wordsOf (s : String) : List String := (wordsFrom .between s.toList).map String.ofList

example : wordsOf "x.append('a b' + \"\".join(y))" = ["x", "append", "join", "y"] := by decide

/-- A word goes on or ends in front of a delimiter. -/
theorem wordsFrom_delimiter (hp : p.mayEnd o) (hc : isDelimiter c) :
    wordsFrom p (c :: cs) = p.word?.toList ++ wordsFrom .between (c :: cs) := by
  have hnext := next_of_mayEnd hp hc
  simp only [isDelimiter, Bool.and_eq_true, Bool.not_eq_true'] at hc
  cases p with
  | between => simp [Place.word?]
  | word ds => simp [wordsFrom, Place.takes, goesOn, hc.1, hc.2, Place.word?, hnext]
  | literal | escape => cases hp

/-- Text goes on with words of its own behind a place where none is open, or with a delimiter. -/
theorem wordsFrom_append (h : p.behind cs = .between ∨ (p.behind cs).mayEnd o ∧ ∃ d ∈ ds.head?, isDelimiter d) :
    wordsFrom p (cs ++ ds) = wordsFrom p cs ++ wordsFrom .between ds := by
  induction cs generalizing p with
  | nil =>
    obtain rfl | ⟨hp, d, hd, hdelimiter⟩ := h
    · rfl
    · obtain ⟨ds, rfl⟩ : ∃ es, ds = d :: es := ⟨_, (List.cons_head?_tail hd).symm⟩
      exact wordsFrom_delimiter hp hdelimiter
  | cons c cs ih =>
    rw [List.cons_append, wordsFrom, wordsFrom, ih h, List.append_assoc]

theorem Grouped.behind (h : Grouped k s) : ∃ o, (Place.between.behind s.toList).mayEnd o := by
  obtain ⟨p, hp, hend⟩ := h (List.replicate k ')') (by simp)
  have hplace : p = Place.between.behind s.toList := place_read hp
  exact ⟨_, hplace ▸ hend⟩

theorem words_append (h : Grouped k s) (ht : Delimits t) : wordsOf (s ++ t) = wordsOf s ++ wordsOf t := by
  obtain ⟨o, hend⟩ := h.behind
  obtain ⟨c, cs, hs, hc⟩ := ht
  rw [wordsOf, String.toList_append, wordsFrom_append (.inr ⟨hend, c, by simp [hs], hc⟩), List.map_append]
  rfl

theorem words_append_of_ended (h : Ended k s) (t : String) : wordsOf (s ++ t) = wordsOf s ++ wordsOf t := by
  have hplace := place_read (h (List.replicate k ')') (by simp))
  rw [wordsOf, String.toList_append, wordsFrom_append (o := []) (.inl hplace.symm), List.map_append]
  rfl

/-! ### Words and literals -/

theorem wordsFrom_word (h : ∀ c ∈ cs, isIdentifierContinue c) (ds : List Char) :
    wordsFrom (.word ds) cs = [ds ++ cs] := by
  induction cs generalizing ds with
  | nil => simp [wordsFrom, Place.word?]
  | cons c cs ih =>
    obtain ⟨hc, hcs⟩ := List.forall_mem_cons.1 h
    simp [wordsFrom, Place.takes, Place.next, goesOn, hc, ih hcs]

theorem words_word (h : ∀ c ∈ s.toList, isIdentifierContinue c) (hne : s ≠ "") : wordsOf s = [s] := by
  obtain ⟨c, cs, hs⟩ := List.exists_cons_of_ne_nil (show s.toList ≠ [] by simpa using hne)
  rw [hs] at h
  obtain ⟨hc, hcs⟩ := List.forall_mem_cons.1 h
  rw [wordsOf, hs]
  simp [wordsFrom, Place.takes, Place.next, hc, wordsFrom_word hcs, ← hs]

theorem words_name (h : isIdentifier s.toList) : wordsOf s = [s] :=
  words_word (continue_of_mem_identifier h) fun hs => ne_nil_of_isIdentifier h (by simp [hs])

theorem wordsFrom_literal (h : Inside c cs) (hc : isQuote c) : wordsFrom (.literal c) (cs ++ [c]) = [] := by
  have hne : c ≠ '\\' := by
    rintro rfl
    exact absurd hc (by decide)
  induction h with
  | nil => simp [wordsFrom, Place.takes, Place.next, Place.word?, hne]
  | plain hd _ ih => simpa [wordsFrom, Place.takes, Place.next, hd.1, hd.2.1] using ih
  | escape _ _ ih => simpa [wordsFrom, Place.takes, Place.next] using ih

theorem words_literal (h : Literal s.toList) : wordsOf s = [] := by
  obtain ⟨q, inside, hq, hs, hinside⟩ := h.quoted
  have hword : isIdentifierContinue q = false := by
    simp only [isQuote, Bool.or_eq_true, beq_iff_eq] at hq
    obtain rfl | rfl := hq <;> decide
  rw [wordsOf, hs, List.cons_append, wordsFrom]
  simp [Place.takes, Place.next, Place.word?, hword, hq, wordsFrom_literal hinside hq]

theorem words_quote (s : String) : wordsOf (Text.quote s) = [] := words_literal (literal_quotePoints _).1

theorem word_next (h : (p.next c).word? = some ds) : ds = p.word?.getD [] ++ [c] := by
  cases p with
  | escape q => cases h
  | _ =>
    simp only [Place.next] at h
    split at h
    · simp_all [Place.word?]
    · split at h <;> simp [Place.word?] at h

/-- A word consists of characters of its text. -/
theorem mem_of_mem_wordsFrom {ws : List Char} (h : ws ∈ wordsFrom p cs) (hc : c ∈ ws) :
    (∃ ds ∈ p.word?, c ∈ ds) ∨ c ∈ cs := by
  induction cs generalizing p with
  | nil => exact .inl ⟨ws, by simpa [wordsFrom] using h, hc⟩
  | cons d cs ih =>
    rw [wordsFrom, List.mem_append] at h
    obtain h | h := h
    · split at h
      · cases h
      · exact .inl ⟨ws, by simpa using h, hc⟩
    · obtain ⟨ds, hds, hmem⟩ | hmem := ih h
      · rw [word_next hds, List.mem_append, List.mem_singleton] at hmem
        obtain hmem | rfl := hmem
        · cases hword : p.word? with
          | none => simp [hword] at hmem
          | some es => exact .inl ⟨es, rfl, by simpa [hword] using hmem⟩
        · exact .inr List.mem_cons_self
      · exact .inr (List.mem_cons_of_mem _ hmem)

theorem mem_of_mem_words (h : w ∈ wordsOf s) (hc : c ∈ w.toList) : c ∈ s.toList := by
  obtain ⟨ws, hws, rfl⟩ := List.mem_map.1 h
  rw [String.toList_ofList] at hc
  obtain ⟨ds, hds, -⟩ | hmem := mem_of_mem_wordsFrom hws hc
  · cases hds
  · exact hmem

end Stencil.Code.Grouping
