import Mathlib.Data.List.Basic
import Mathlib.Data.List.DropRight
import Mathlib.Data.List.TakeWhile
import Stencil.Code.Layout
import Stencil.Text.Blank

/-!
Which lines of a module come from nowhere: those above its statements, and the first and the last line
of every function that collects output.
-/
namespace Stencil.Code
open Text

variable {α : Type} {l : CodeLine α} {ls : List (CodeLine α)} {s t : String} {c : Char} {cs rest : List Char}
  {n m k : Nat} {o : α}

/-! ### Lines -/

/-- The first or the last line of a function that collects output, however far it is indented. -/
def IsBound (s : String) : Prop := s.toList.dropWhile (· == ' ') ∈ [prologue.toList, epilogue.toList]

instance : Decidable (IsBound s) := inferInstanceAs (Decidable (_ ∈ _))

/-- A text without a character at which lines end. -/
def Unbroken (s : String) : Prop := ∀ c ∈ s.toList, isLineBreak c = false

instance : Decidable (Unbroken s) := List.decidableBAll _ _

theorem Unbroken.append (hs : Unbroken s) (ht : Unbroken t) : Unbroken (s ++ t) := by
  unfold Unbroken
  rw [String.toList_append]
  exact List.forall_mem_append.2 ⟨hs, ht⟩

theorem forall_mem_intercalate {p : Char → Prop} {items : List String} (h : ∀ s ∈ items, ∀ c ∈ s.toList, p c)
    (hs : ∀ c ∈ s.toList, p c) : ∀ c ∈ (s.intercalate items).toList, p c := by
  induction items with
  | nil => simp
  | cons t items ih =>
    obtain ⟨ht, hitems⟩ := List.forall_mem_cons.1 h
    cases items with
    | nil => simpa using ht
    | cons u items =>
      rw [String.intercalate_cons_cons, String.toList_append, String.toList_append]
      exact List.forall_mem_append.2 ⟨List.forall_mem_append.2 ⟨ht, hs⟩, ih hitems⟩

theorem Unbroken.join {items : List String} (h : ∀ s ∈ items, Unbroken s) (hs : Unbroken s) :
    Unbroken (s.intercalate items) := forall_mem_intercalate h hs

/-- Blanks in front make no difference. -/
theorem isBound_blanks (h : t.toList = List.replicate n ' ' ++ s.toList) : IsBound t ↔ IsBound s := by
  have hdrop : t.toList.dropWhile (· == ' ') = s.toList.dropWhile (· == ' ') := by
    rw [h, List.dropWhile_append_of_pos]
    simp +contextual [List.mem_replicate]
  rw [IsBound, hdrop, IsBound]

/-- The bounds have only these characters. -/
theorem not_isBound_of_mem (hc : c ∈ s.toList) (h : c ∉ ' ' :: (prologue.toList ++ epilogue.toList)) :
    ¬ IsBound s := by
  simp only [List.mem_cons, List.mem_append, not_or] at h
  have hmem : c ∈ s.toList.dropWhile (· == ' ') := by
    rw [← List.takeWhile_append_dropWhile (p := (· == ' ')) (l := s.toList), List.mem_append] at hc
    refine hc.resolve_left fun htake => h.1 ?_
    simpa using List.mem_takeWhile_imp htake
  intro hs
  simp only [IsBound, List.mem_cons, List.not_mem_nil, or_false] at hs
  obtain hs | hs := hs <;> rw [hs] at hmem
  · exact h.2.1 hmem
  · exact h.2.2 hmem

/-- A line that has an origin unless it bounds a function. -/
structure Sourced (l : CodeLine α) : Prop where
  origin : l.origin = none ↔ IsBound l.code
  unbroken : Unbroken l.code

theorem Sourced.of_origin (h : l.origin = some o) (hs : ¬ IsBound l.code) (hb : Unbroken l.code) : Sourced l :=
  ⟨iff_of_false (by simp [h]) hs, hb⟩

theorem sourced_bound (indent : Int) (h : s = prologue ∨ s = epilogue) : Sourced (scaffold indent s : CodeLine α) := by
  have hall : ∀ s ∈ [prologue, epilogue], IsBound s ∧ Unbroken s := by decide
  obtain ⟨hbound, hunbroken⟩ := hall s (by simpa using h)
  exact ⟨iff_of_true rfl hbound, hunbroken⟩

theorem CodeLine.toList_text (l : CodeLine α) :
    l.text.toList = List.replicate (4 * (l.indent + 1).toNat) ' ' ++ l.code.toList := by
  have hsteps (k : Nat) : (String.join (List.replicate k step)).toList = List.replicate (4 * k) ' ' := by
    induction k with
    | zero => rfl
    | succ k ih =>
      rw [List.replicate_succ, String.join_cons, String.toList_append, ih, Nat.mul_succ, Nat.add_comm,
        List.replicate_add]
      rfl
  rw [CodeLine.text, String.toList_append, hsteps]

theorem isBound_text : IsBound l.text ↔ IsBound l.code := isBound_blanks l.toList_text

theorem unbroken_text (h : Unbroken l.code) : Unbroken l.text := by
  unfold Unbroken
  rw [l.toList_text]
  refine List.forall_mem_append.2 ⟨fun c hc => ?_, h⟩
  obtain rfl := List.eq_of_mem_replicate hc
  decide

theorem linesOf_ne_nil {cs : List Char} (h : cs ≠ []) : linesOf cs ≠ [] := by
  induction cs using linesOf.induct with
  | case1 => exact absurd rfl h
  | case2 cs => simp [linesOf]
  | case3 c cs hpair hbreak =>
    rw [linesOf.eq_3 _ _ hpair, if_pos hbreak]
    simp
  | case4 c cs hpair hbreak hrest =>
    rw [linesOf.eq_3 _ _ hpair, if_neg hbreak, hrest]
    simp
  | case5 c cs hpair hbreak row rows hrest =>
    rw [linesOf.eq_3 _ _ hpair, if_neg hbreak, hrest]
    simp

/-- A line feed ends a row, whatever follows it. -/
theorem linesOf_append (cs ds : List Char) : linesOf (cs ++ '\n' :: ds) = linesOf (cs ++ ['\n']) ++ linesOf ds := by
  have hword (c : Char) (cs : List Char) (hbreak : ¬ isLineBreak c)
      (ih : linesOf (cs ++ '\n' :: ds) = linesOf (cs ++ ['\n']) ++ linesOf ds) :
      linesOf (c :: cs ++ '\n' :: ds) = linesOf (c :: cs ++ ['\n']) ++ linesOf ds := by
    have hpair (es : List Char) : ∀ rest, c = '\r' → es = '\n' :: rest → False := by
      rintro _ rfl
      exact absurd (by decide) hbreak
    obtain ⟨row, rows, hrow⟩ := List.exists_cons_of_ne_nil (linesOf_ne_nil (by simp : cs ++ ['\n'] ≠ []))
    rw [List.cons_append, List.cons_append, linesOf.eq_3 _ _ (hpair _), linesOf.eq_3 _ _ (hpair _), if_neg hbreak,
      if_neg hbreak, ih, hrow]
    rfl
  induction cs using linesOf.induct with
  | case1 => rfl
  | case2 cs ih => exact congrArg ([] :: ·) ih
  | case3 c cs hpair hbreak ih =>
    cases cs with
    | nil =>
      by_cases hreturn : c = '\r'
      · rw [hreturn]
        rfl
      · have hpair (es : List Char) : ∀ rest, c = '\r' → es = '\n' :: rest → False := fun _ he _ => hreturn he
        rw [List.singleton_append, List.singleton_append, linesOf.eq_3 _ _ (hpair _), linesOf.eq_3 _ _ (hpair _),
          if_pos hbreak, if_pos hbreak]
        rfl
    | cons d cs =>
      have hcons (es : List Char) : linesOf (c :: d :: cs ++ es) = [] :: linesOf (d :: cs ++ es) := by
        rw [← if_pos hbreak (t := [] :: linesOf (d :: cs ++ es))]
        exact linesOf.eq_3 _ _ fun _ hc heq => hpair cs hc (by rw [(List.cons.inj heq).1])
      rw [hcons, hcons, ih]
      rfl
  | case4 c cs _ hbreak _ ih => exact hword c cs hbreak ih
  | case5 c cs _ hbreak _ _ _ ih => exact hword c cs hbreak ih

/-- A text without breaks is the row that a line feed behind it ends. -/
theorem lines_row (h : Unbroken s) : Text.lines (s ++ "\n") = [s] := by
  have hrow (cs : List Char) (hcs : ∀ c ∈ cs, isLineBreak c = false) : linesOf (cs ++ ['\n']) = [cs] := by
    induction cs with
    | nil => rfl
    | cons c cs ih =>
      obtain ⟨hc, hcs⟩ := List.forall_mem_cons.1 hcs
      have hreturn : c ≠ '\r' := by
        rintro rfl
        revert hc
        decide
      rw [List.cons_append, linesOf.eq_3 _ _ fun _ he _ => hreturn he, hc, ih hcs]
      rfl
  have hfeed : (s ++ "\n").toList = s.toList ++ ['\n'] := by simp
  rw [Text.lines, hfeed, hrow s.toList h, List.map_singleton, String.ofList_toList]

/-- Breaks are not in lines. -/
theorem unbroken_of_mem_lines (h : s ∈ Text.lines t) : Unbroken s := by
  suffices hall : ∀ cs : List Char, ∀ row ∈ linesOf cs, ∀ c ∈ row, isLineBreak c = false by
    obtain ⟨row, hrow, rfl⟩ := List.mem_map.1 h
    simpa [Unbroken] using hall _ row hrow
  intro cs
  induction cs using linesOf.induct with
  | case1 => simp [linesOf]
  | case2 cs ih => simpa [linesOf] using ih
  | case3 c cs hcrlf hbreak ih =>
    rw [linesOf.eq_3 _ _ hcrlf, if_pos hbreak]
    simpa using ih
  | case4 c cs hcrlf hbreak hrest ih =>
    rw [linesOf.eq_3 _ _ hcrlf, if_neg hbreak, hrest]
    simpa using hbreak
  | case5 c cs hcrlf hbreak row rows hrest ih =>
    rw [linesOf.eq_3 _ _ hcrlf, if_neg hbreak, hrest]
    rw [hrest] at ih
    obtain ⟨hrow, hrows⟩ := List.forall_mem_cons.1 ih
    exact List.forall_mem_cons.2 ⟨List.forall_mem_cons.2 ⟨by simpa using hbreak, hrow⟩, hrows⟩

/-- What remains of a line without its blanks is a bound if the line is one. -/
theorem isBound_of_dropWhile (h : s.toList = t.toList.dropWhile (· == ' ')) : IsBound s ↔ IsBound t := by
  rw [IsBound, h, List.dropWhile_idempotent, IsBound]

/-! ### Modules -/

namespace Parts

variable {p : Parts α}

theorem intercalate_toList {ls : List String} (h : ls ≠ []) :
    ("\n".intercalate ls ++ "\n").toList = ls.flatMap fun l => l.toList ++ ['\n'] := by
  induction ls with
  | nil => exact absurd rfl h
  | cons l ls ih =>
    cases ls with
    | nil => simp
    | cons m ls =>
      rw [String.intercalate_cons_cons, List.flatMap_cons, ← ih (by simp)]
      simp

/-- What is read in a text of lines is what is read in each of them. -/
theorem lines_flatMap {ls : List String} (hne : ls ≠ []) :
    Text.lines ("\n".intercalate ls ++ "\n") = ls.flatMap fun l => Text.lines (l ++ "\n") := by
  rw [Text.lines, intercalate_toList hne]
  clear hne
  induction ls with
  | nil => rfl
  | cons l ls ih =>
    rw [List.flatMap_cons, List.append_assoc, List.singleton_append, linesOf_append, List.map_append, ih, List.flatMap_cons]
    simp [Text.lines]

/-- Lines are read back from the text that they make. -/
theorem lines_joined {ls : List String} (hne : ls ≠ []) (h : ∀ s ∈ ls, Unbroken s) :
    Text.lines ("\n".intercalate ls ++ "\n") = ls := by
  rw [lines_flatMap hne, List.flatMap_congr fun l hl => lines_row (h l hl), List.flatMap_singleton']

theorem toList_source (p : Parts α) : p.source.toList = p.lines.flatMap fun l => l.toList ++ ['\n'] :=
  intercalate_toList (by simp [lines, head])

theorem unbroken_lines (htitle : Unbroken p.title) (hcontext : ∀ s ∈ p.context, Unbroken s)
    (hstatements : ∀ l ∈ p.statements, Unbroken l.code) : ∀ s ∈ p.lines, Unbroken s := by
  have hmark : Unbroken "# " := by decide
  have himports : ∀ s ∈ headerImports, Unbroken s := by decide
  have hfixed : ∀ s ∈ [contextStart, contextEnd, "", "", "def " ++ renderFunction ++ "() -> str:"], Unbroken s := by
    decide
  simp only [List.forall_mem_cons] at hfixed
  obtain ⟨hstart, hend, hblank, -, hrender, -⟩ := hfixed
  simp only [lines, head, List.forall_mem_append, List.forall_mem_cons, List.forall_mem_map]
  exact ⟨⟨⟨⟨hmark.append htitle, himports⟩, hstart, hcontext⟩, hend, hblank, hblank, hrender, by simp⟩,
    fun l hl => unbroken_text (hstatements l hl)⟩

/-- A module whose lines have no line breaks inside has these lines. -/
theorem lines_source (h : ∀ s ∈ p.lines, Unbroken s) : Text.lines p.source = p.lines :=
  lines_joined (by simp [lines, head]) h

/-! ### Source maps -/

/-- What is in the map of some lines. -/
theorem mem_originsFrom : (m, o) ∈ originsFrom n ls ↔ ∃ k l, m = n + k ∧ ls[k]? = some l ∧ l.origin = some o := by
  induction ls generalizing n with
  | nil => simp [originsFrom]
  | cons l ls ih =>
    have hrest : (m, o) ∈ originsFrom (n + 1) ls ↔
        ∃ k l', m = n + (k + 1) ∧ (l :: ls)[k + 1]? = some l' ∧ l'.origin = some o := by
      rw [ih]
      simp [Nat.add_comm, Nat.add_left_comm]
    rw [originsFrom]
    cases horigin : l.origin with
    | none =>
      simp only [hrest]
      constructor
      · rintro ⟨k, h⟩
        exact ⟨k + 1, h⟩
      · rintro ⟨_ | k, l', hm, hl, ho⟩
        · obtain rfl : l = l' := by simpa using hl
          simp [horigin] at ho
        · exact ⟨k, l', hm, hl, ho⟩
    | some o' =>
      simp only [List.mem_cons, Prod.mk.injEq, hrest]
      constructor
      · rintro (⟨rfl, rfl⟩ | ⟨k, h⟩)
        · exact ⟨0, l, rfl, rfl, horigin⟩
        · exact ⟨k + 1, h⟩
      · rintro ⟨_ | k, l', hm, hl, ho⟩
        · obtain rfl : l = l' := by simpa using hl
          exact .inl ⟨hm, Option.some.inj (ho.symm.trans horigin)⟩
        · exact .inr ⟨k, l', hm, hl, ho⟩

/-- The map of some lines names them in their order. -/
theorem pairwise_originsFrom (n : Nat) (ls : List (CodeLine α)) : (originsFrom n ls).Pairwise fun e f => e.1 < f.1 := by
  induction ls generalizing n with
  | nil => exact .nil
  | cons l ls ih =>
    rw [originsFrom]
    cases l.origin with
    | none => exact ih (n + 1)
    | some o =>
      refine List.pairwise_cons.2 ⟨fun e he => ?_, ih (n + 1)⟩
      obtain ⟨k, _, hk, -⟩ := mem_originsFrom.1 he
      omega

theorem lookup_originsFrom (n k : Nat) (ls : List (CodeLine α)) :
    (originsFrom n ls).lookup (n + k) = ls[k]?.bind CodeLine.origin := by
  induction ls generalizing n k with
  | nil => simp [originsFrom]
  | cons l ls ih =>
    have hnext (k : Nat) : (originsFrom (n + 1) ls).lookup (n + (k + 1)) = ls[k]?.bind CodeLine.origin := by
      rw [← ih (n + 1) k, Nat.add_assoc, Nat.add_comm 1]
    have hfirst : (originsFrom (n + 1) ls).lookup n = none := by
      refine List.lookup_eq_none_iff.2 fun e he => ?_
      obtain ⟨k, -, hk, -⟩ := mem_originsFrom.1 he
      simp only [bne_iff_ne]
      omega
    rw [originsFrom]
    cases horigin : l.origin with
    | none =>
      cases k with
      | zero => simp [hfirst, horigin]
      | succ k => simp [hnext]
    | some o =>
      cases k with
      | zero => simp [horigin]
      | succ k =>
        have hne : (n + (k + 1) == n) = false := by simp
        rw [List.lookup_cons, hne, hnext]
        rfl

theorem sourced_statements (hdefinitions : ∀ l ∈ p.definitions, Sourced l) (hbody : ∀ l ∈ p.body, Sourced l) :
    ∀ l ∈ p.statements, Sourced l := by
  simp only [statements, List.forall_mem_append, List.forall_mem_cons]
  exact ⟨⟨hdefinitions, sourced_bound 0 (.inl rfl), hbody⟩, sourced_bound 0 (.inr rfl), by simp⟩

theorem mem_sourceMap {e : Nat × α} (h : e ∈ p.sourceMap) : 1 ≤ e.1 ∧ e.1 ≤ p.lines.length := by
  obtain ⟨k, l, hk, hl, -⟩ := mem_originsFrom.1 h
  obtain ⟨hlt, -⟩ := List.getElem?_eq_some_iff.1 hl
  rw [lines, List.length_append, List.length_map]
  omega

/-- The lines that are not in the map are those above the statements and the bounds of functions. -/
theorem lookup_sourceMap (h : ∀ l ∈ p.statements, Sourced l) (hline : p.lines[k]? = some s) :
    p.sourceMap.lookup (k + 1) = none ↔ k < p.head.length ∨ IsBound s := by
  by_cases hk : k < p.head.length
  · refine iff_of_true (List.lookup_eq_none_iff.2 fun e he => ?_) (.inl hk)
    obtain ⟨j, l, hj, -⟩ := mem_originsFrom.1 he
    rw [bne_iff_ne]
    omega
  · obtain ⟨j, rfl⟩ := Nat.exists_eq_add_of_le (not_lt.1 hk)
    rw [lines, List.getElem?_append_right (Nat.le_add_right _ _), Nat.add_sub_cancel_left, List.getElem?_map,
      Option.map_eq_some_iff] at hline
    obtain ⟨l, hl, rfl⟩ := hline
    have hlookup : p.sourceMap.lookup (p.head.length + j + 1) = l.origin := by
      rw [sourceMap, Nat.add_right_comm, lookup_originsFrom, hl]
      rfl
    rw [hlookup, (h l (List.mem_of_getElem? hl)).origin, isBound_text]
    exact (or_iff_right hk).symm

end Parts

end Stencil.Code
