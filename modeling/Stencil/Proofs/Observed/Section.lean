import Mathlib.Data.List.TakeDrop
import Stencil.Observed.Section
import Stencil.Proofs.Code.Origin

/-!
Replacing the context section of a text that has one. The lines around it stay as they are, and the map of line
numbers leads each of them to where it stands then; of several replacements only the last one shows. For a module it
gives the module that is made of the same parts with the other section.
-/
namespace Stencil.Observed
open Code Text

variable {α : Type} {p : Parts α} {context : List String} {ls : List (CodeLine α)} {n k a b : Nat}
  {lines section_ : List String} {s : Sections} {source : String} {as bs cs : List Nat} {i j : Nat}

/-! ### Cutting -/

theorem span_append {β : Type} {q : β → Bool} {pre : List β} {x : β} {rest : List β} (hpre : ∀ y ∈ pre, q y)
    (hx : q x = false) : (pre ++ x :: rest).span q = (pre, x :: rest) := by
  rw [List.span_eq_takeWhile_dropWhile, List.takeWhile_append_of_pos hpre, List.dropWhile_append_of_pos hpre,
    List.takeWhile_cons_of_neg (by simp [hx]), List.dropWhile_cons_of_neg (by simp [hx]), List.append_nil]

/-- What is above ends with the first start marker, and what is below begins with the first end marker behind it. -/
structure IsCut (lines : List String) (s : Sections) : Prop where
  lines : s.lines = lines
  above : ∃ before, s.above = before ++ [contextStart] ∧ contextStart ∉ before
  context : contextEnd ∉ s.context
  below : ∃ behind, s.below = contextEnd :: behind

theorem exists_isCut (h : [contextStart, contextEnd].Sublist lines) : ∃ s, IsCut lines s := by
  obtain ⟨front, back, rfl, hstart, hend⟩ := List.cons_sublist_iff.1 h
  obtain ⟨before, between, rfl, hbefore⟩ := List.eq_append_cons_of_mem hstart
  have hmem : contextEnd ∈ between ++ back := List.mem_append_right _ (List.singleton_sublist.1 hend)
  obtain ⟨context, behind, hrest, hcontext⟩ := List.eq_append_cons_of_mem hmem
  refine ⟨⟨before ++ [contextStart], context, contextEnd :: behind⟩, ?_, ⟨before, rfl, hbefore⟩, hcontext, behind, rfl⟩
  simp [Sections.lines, hrest]

theorem IsCut.ofLines (h : IsCut lines s) : Sections.ofLines? lines = some s := by
  obtain ⟨rfl, ⟨before, habove, hbefore⟩, hcontext, behind, hbelow⟩ := h
  have hlines : s.lines = before ++ contextStart :: (s.context ++ contextEnd :: behind) := by
    simp [Sections.lines, habove, hbelow]
  have hfront : ∀ l ∈ before, (l != contextStart) = true := fun l hl => bne_iff_ne.2 (ne_of_mem_of_not_mem hl hbefore)
  have hwithin : ∀ l ∈ s.context, (l != contextEnd) = true := fun l hl => bne_iff_ne.2 (ne_of_mem_of_not_mem hl hcontext)
  rw [hlines, Sections.ofLines?, span_append hfront (by simp)]
  dsimp only
  rw [span_append hwithin (by simp)]
  simp [← habove, ← hbelow]

/-- What is above is what stands in front of the first start marker, with this marker. -/
theorem IsCut.above_eq {before behind : List String} (h : IsCut (before ++ contextStart :: behind) s)
    (hbefore : contextStart ∉ before) : s.above = before ++ [contextStart] := by
  obtain ⟨front, habove, hfront⟩ := h.above
  have hlines : front ++ contextStart :: (s.context ++ s.below) = before ++ contextStart :: behind := by
    rw [← h.lines]
    simp [Sections.lines, habove]
  have hpos {xs : List String} (hxs : contextStart ∉ xs) : ∀ l ∈ xs, (l != contextStart) = true := fun l hl =>
    bne_iff_ne.2 (ne_of_mem_of_not_mem hl hxs)
  have hspan := congrArg (List.span (· != contextStart)) hlines
  rw [span_append (hpos hfront) (by simp), span_append (hpos hbefore) (by simp)] at hspan
  rw [habove, (Prod.mk.inj hspan).1]

/-- The markers are found again around another section, unless this holds an end marker itself. -/
theorem IsCut.withContext (h : IsCut lines s) (hsection : contextEnd ∉ section_) :
    IsCut (s.withContext section_).lines (s.withContext section_) :=
  ⟨rfl, h.above, hsection, h.below⟩

/-! ### Line numbers -/

theorem zip_range (a b n : Nat) :
    (List.range' a n).zip (List.range' b n) = (List.range n).map fun k => (a + k, b + k) := by
  rw [List.range'_eq_map_range, List.range'_eq_map_range, List.zip_map']

theorem mem_zip_range : (i, j) ∈ (List.range' a n).zip (List.range' b n) ↔ ∃ k < n, i = a + k ∧ j = b + k := by
  rw [zip_range]
  simp [eq_comm]

namespace Sections

/-- The number of a line outside of the context section when this has `n` lines. -/
def IsOuter (s : Sections) (n i : Nat) : Prop :=
  1 ≤ i ∧ i ≤ s.above.length ∨ s.above.length + n < i ∧ i ≤ s.above.length + n + s.below.length

/-- A map from the numbers of the lines outside of the context section to those they have with another section: it
keeps the order of the lines and leads each of them to itself. -/
structure IsLineMap (s : Sections) (context : List String) (m : List (Nat × Nat)) : Prop where
  domain : ∀ i, (∃ j, (i, j) ∈ m) ↔ s.IsOuter s.context.length i
  range : ∀ j, (∃ i, (i, j) ∈ m) ↔ s.IsOuter context.length j
  increasing : m.Pairwise fun e f => e.1 < f.1 ∧ e.2 < f.2
  lines : ∀ i j, (i, j) ∈ m → ∃ l, s.lines[i - 1]? = some l ∧ (s.withContext context).lines[j - 1]? = some l

theorem mem_lineMap : (i, j) ∈ s.lineMap section_ ↔ (∃ k < s.above.length, i = 1 + k ∧ j = 1 + k) ∨
    ∃ k < s.below.length, i = s.above.length + s.context.length + 1 + k ∧ j = s.above.length + section_.length + 1 + k := by
  rw [lineMap, outerLines, outerLines, List.zip_append (by simp), List.mem_append, mem_zip_range, mem_zip_range]

theorem lines_above (s : Sections) (h : n < s.above.length) : s.lines[n]? = s.above[n]? := by
  rw [lines, List.append_assoc, List.getElem?_append_left h]

theorem lines_below (s : Sections) (n : Nat) : s.lines[s.above.length + s.context.length + n]? = s.below[n]? := by
  rw [lines, List.getElem?_append_right (by simp), List.length_append, Nat.add_sub_cancel_left]

theorem pairwise_lineMap (s : Sections) (context : List String) :
    (s.lineMap context).Pairwise fun e f => e.1 < f.1 ∧ e.2 < f.2 := by
  have hrange (a b n : Nat) : ((List.range' a n).zip (List.range' b n)).Pairwise fun e f => e.1 < f.1 ∧ e.2 < f.2 := by
    rw [zip_range, List.pairwise_map]
    exact List.pairwise_lt_range.imp fun h => ⟨Nat.add_lt_add_left h _, Nat.add_lt_add_left h _⟩
  rw [lineMap, outerLines, outerLines, List.zip_append (by simp), List.pairwise_append]
  refine ⟨hrange .., hrange .., fun ⟨i, j⟩ he ⟨i', j'⟩ hf => ?_⟩
  obtain ⟨k, hk, rfl, rfl⟩ := mem_zip_range.1 he
  obtain ⟨k', -, rfl, rfl⟩ := mem_zip_range.1 hf
  constructor <;> dsimp only <;> omega

theorem isLineMap_lineMap (s : Sections) (context : List String) : s.IsLineMap context (s.lineMap context) where
  domain i := by
    simp only [mem_lineMap, IsOuter]
    constructor
    · rintro ⟨j, ⟨k, hk, rfl, -⟩ | ⟨k, hk, rfl, -⟩⟩ <;> omega
    · rintro (h | h)
      · exact ⟨i, .inl ⟨i - 1, by omega⟩⟩
      · exact ⟨_, .inr ⟨i - (s.above.length + s.context.length + 1), by omega, by omega, rfl⟩⟩
  range j := by
    simp only [mem_lineMap, IsOuter]
    constructor
    · rintro ⟨i, ⟨k, hk, -, rfl⟩ | ⟨k, hk, -, rfl⟩⟩ <;> omega
    · rintro (h | h)
      · exact ⟨j, .inl ⟨j - 1, by omega⟩⟩
      · exact ⟨_, .inr ⟨j - (s.above.length + context.length + 1), by omega, rfl, by omega⟩⟩
  increasing := s.pairwise_lineMap context
  lines i j h := by
    obtain ⟨k, hk, rfl, rfl⟩ | ⟨k, hk, rfl, rfl⟩ := mem_lineMap.1 h
    · refine ⟨s.above[k], ?_, ?_⟩ <;> rw [Nat.add_sub_cancel_left]
      · rw [s.lines_above hk, List.getElem?_eq_getElem hk]
      · exact ((s.withContext context).lines_above hk).trans (List.getElem?_eq_getElem hk)
    · refine ⟨s.below[k], ?_, ?_⟩ <;> rw [Nat.add_right_comm, Nat.add_sub_cancel]
      · rw [lines_below, List.getElem?_eq_getElem hk]
      · exact ((s.withContext context).lines_below k).trans (List.getElem?_eq_getElem hk)

end Sections

/-- One map of line numbers behind another. -/
def andThen (m m' : List (Nat × Nat)) : List (Nat × Nat) := m.filterMap fun e => (m'.lookup e.2).map (e.1, ·)

theorem andThen_zip (hbs : bs.Nodup) (hlength : bs.length = cs.length) : andThen (as.zip bs) (bs.zip cs) = as.zip cs := by
  induction as generalizing bs cs with
  | nil => rfl
  | cons a as ih =>
    cases bs with
    | nil =>
      obtain rfl := List.length_eq_zero_iff.1 hlength.symm
      rfl
    | cons b bs =>
      obtain ⟨c, cs, rfl⟩ := List.exists_cons_of_length_pos (l := cs) (by simp [← hlength])
      obtain ⟨hb, hbs⟩ := List.nodup_cons.1 hbs
      have hrest : andThen (as.zip bs) ((b, c) :: bs.zip cs) = andThen (as.zip bs) (bs.zip cs) := by
        refine List.filterMap_congr fun e he => ?_
        have hne : (e.2 == b) = false := beq_eq_false_iff_ne.2 (ne_of_mem_of_not_mem (List.of_mem_zip he).2 hb)
        rw [List.lookup_cons, hne]
      have hfirst : andThen ((a, b) :: as.zip bs) ((b, c) :: bs.zip cs) =
          (a, c) :: andThen (as.zip bs) ((b, c) :: bs.zip cs) := by
        simp [andThen]
      rw [List.zip_cons_cons, List.zip_cons_cons, hfirst, hrest, ih hbs (by simpa using hlength), List.zip_cons_cons]

theorem andThen_lineMap (s : Sections) (a b : List String) :
    andThen (s.lineMap a) ((s.withContext a).lineMap b) = s.lineMap b := by
  refine andThen_zip ?_ (by simp [Sections.outerLines, Sections.withContext])
  rw [Sections.outerLines, List.nodup_append]
  refine ⟨List.nodup_range', List.nodup_range', fun i hi j hj => ?_⟩
  have := List.mem_range'_1.1 hi
  have := List.mem_range'_1.1 hj
  omega

theorem lookup_zip_range (hk : k < n) : ((List.range' a n).zip (List.range' b n)).lookup (a + k) = some (b + k) := by
  induction n generalizing a b k with
  | zero => cases hk
  | succ n ih =>
    rw [List.range'_succ, List.range'_succ, List.zip_cons_cons]
    cases k with
    | zero => simp
    | succ k =>
      have hne : (a + (k + 1) == a) = false := by simp
      rw [List.lookup_cons, hne]
      have := ih (a := a + 1) (b := b + 1) (Nat.lt_of_succ_lt_succ hk)
      simpa [Nat.add_assoc, Nat.add_comm 1] using this

theorem lookup_lineMap (s : Sections) (context : List String) (hk : k < s.below.length) :
    (s.lineMap context).lookup (s.above.length + s.context.length + 1 + k) =
      some (s.above.length + context.length + 1 + k) := by
  have habove : ((List.range' 1 s.above.length).zip (List.range' 1 s.above.length)).lookup
      (s.above.length + s.context.length + 1 + k) = none := by
    rw [List.lookup_eq_none_iff]
    intro e he
    have := List.mem_range'_1.1 (List.of_mem_zip he).1
    rw [bne_iff_ne]
    omega
  rw [Sections.lineMap, Sections.outerLines, Sections.outerLines, List.zip_append (by simp), List.lookup_append, habove,
    lookup_zip_range hk]
  rfl

theorem originsFrom_moved {m : Nat → Option Nat} (h : ∀ k < ls.length, m (a + k) = some (b + k)) :
    ((Parts.originsFrom a ls).filterMap fun e => (m e.1).map fun n => (n, e.2)) = Parts.originsFrom b ls := by
  induction ls generalizing a b with
  | nil => rfl
  | cons l ls ih =>
    have hrest := ih (a := a + 1) (b := b + 1) fun k hk => by
      have := h (k + 1) (by simpa using hk)
      simpa [Nat.add_assoc, Nat.add_comm 1] using this
    have hfirst : m a = some b := h 0 (by simp)
    rw [Parts.originsFrom, Parts.originsFrom]
    cases l.origin with
    | none => exact hrest
    | some o => simp [hfirst, hrest]

/-! ### Texts -/

theorem replaceContext_eq (h : IsCut (Text.lines source) s) (section_ : List String) :
    replaceContext source section_ = some ((s.withContext section_).source, s.lineMap section_) := by
  rw [replaceContext, h.ofLines, Option.map_some]

theorem lines_withContext (h : IsCut (Text.lines source) s) (hsection : ∀ l ∈ section_, Unbroken l) :
    Text.lines (s.withContext section_).source = s.above ++ section_ ++ s.below := by
  have hold : ∀ l ∈ s.lines, Unbroken l := h.lines ▸ fun l hl => unbroken_of_mem_lines hl
  obtain ⟨before, habove, -⟩ := h.above
  refine Parts.lines_joined (by simp [Sections.lines, Sections.withContext, habove]) ?_
  simp only [Sections.lines, List.forall_mem_append] at hold
  simp only [Sections.lines, Sections.withContext, List.forall_mem_append]
  exact ⟨⟨hold.1.1, hsection⟩, hold.2⟩

/-- Where a start marker is followed by an end marker, what is between the first two is replaced and all other lines
are kept, with a map of their numbers. A replacement of what was put there is the replacement of what had been there, in
text and in line numbers. -/
theorem replaceContext_replaced (h : [contextStart, contextEnd].Sublist (Text.lines source)) :
    ∃ s, IsCut (Text.lines source) s ∧ ∀ a : List String, (∀ l ∈ a, Unbroken l) →
      ∃ text m, replaceContext source a = some (text, m) ∧ Text.lines text = s.above ++ a ++ s.below ∧ s.IsLineMap a m ∧
        (contextEnd ∉ a → ∀ b, ∃ text' m', replaceContext text b = some (text', m') ∧
          replaceContext source b = some (text', andThen m m')) := by
  obtain ⟨s, hs⟩ := exists_isCut h
  refine ⟨s, hs, fun a ha => ⟨_, _, replaceContext_eq hs a, lines_withContext hs ha, s.isLineMap_lineMap a, fun hend b => ?_⟩⟩
  have hagain : IsCut (Text.lines (s.withContext a).source) (s.withContext a) := lines_withContext hs ha ▸ hs.withContext hend
  refine ⟨_, _, replaceContext_eq hagain b, ?_⟩
  rw [andThen_lineMap]
  exact replaceContext_eq hs b

/-- A declaration between the markers of a module. -/
def declaredName : String := "# jinjastan: context\nname: typing.Any\n# jinjastan: end context\nname.upper()\n"

/-- A section that grows and then is emptied. -/
theorem replaceContext_replaced_declaredName : [contextStart, contextEnd].Sublist (Text.lines declaredName) ∧
    ∃ text m text' m', replaceContext declaredName ["import app", "name: app.Name"] = some (text, m) ∧
      m.lookup 4 = some 5 ∧ (Text.lines text)[4]? = some "name.upper()" ∧
      replaceContext text [] = some (text', m') ∧ replaceContext declaredName [] = some (text', andThen m m') := by
  have hmarked : [contextStart, contextEnd].Sublist (Text.lines declaredName) := by decide
  obtain ⟨s, -, hall⟩ := replaceContext_replaced hmarked
  obtain ⟨text, m, hfirst, -, -, hagain⟩ := hall ["import app", "name: app.Name"] (by decide)
  obtain ⟨text', m', hsecond, hboth⟩ := hagain (by decide) []
  have hlookup : (replaceContext declaredName ["import app", "name: app.Name"]).map
      (fun r => (r.2.lookup 4, (Text.lines r.1)[4]?)) = some (some 5, some "name.upper()") := by decide +kernel
  rw [hfirst, Option.map_some, Option.some.injEq, Prod.mk.injEq] at hlookup
  exact ⟨hmarked, text, m, text', m', hfirst, hlookup.1, hlookup.2, hsecond, hboth⟩

/-! ### Modules -/

/-- A module whose sections can be told apart: no line stands for a marker but the two. -/
structure Cuttable (p : Parts α) : Prop where
  title : "# " ++ p.title ≠ contextStart
  context : contextEnd ∉ p.context

/-- The lines of a module around its context section. -/
def sectionsOf (p : Parts α) : Sections where
  above := ("# " ++ p.title) :: headerImports ++ [contextStart]
  context := p.context
  below := contextEnd :: "" :: "" :: ("def " ++ renderFunction ++ "() -> str:") :: p.statements.map CodeLine.text

theorem lines_sectionsOf (p : Parts α) : (sectionsOf p).lines = p.lines := by
  simp [sectionsOf, Sections.lines, Parts.lines, Parts.head]

theorem isCut_sectionsOf (h : Cuttable p) : IsCut p.lines (sectionsOf p) where
  lines := lines_sectionsOf p
  above := by
    have himports : contextStart ∉ headerImports := by decide
    exact ⟨("# " ++ p.title) :: headerImports, rfl, by simpa [himports] using h.title.symm⟩
  context := h.context
  below := ⟨_, rfl⟩

theorem replaceContext_source (h : Cuttable p) (hlines : ∀ s ∈ p.lines, Unbroken s) (context : List String) :
    replaceContext p.source context = some ({ p with context }.source, (sectionsOf p).lineMap context) := by
  have hsource : ((sectionsOf p).withContext context).source = { p with context }.source := by
    rw [Sections.source, Parts.source, ← lines_sectionsOf]
    rfl
  rw [replaceContext_eq (Parts.lines_source hlines ▸ isCut_sectionsOf h), hsource]

/-- The statements keep their origins, wherever the context section moves them. -/
theorem sourceMap_moved (p : Parts α) (context : List String) :
    (p.sourceMap.filterMap fun e => (((sectionsOf p).lineMap context).lookup e.1).map fun n => (n, e.2)) =
      { p with context }.sourceMap := by
  refine originsFrom_moved (m := fun n => ((sectionsOf p).lineMap context).lookup n) fun k hk => ?_
  have hbelow : 4 + k < (sectionsOf p).below.length := by
    simp only [sectionsOf, List.length_cons, List.length_map]
    omega
  have hlength (context : List String) : { p with context }.head.length + 1 + k =
      (sectionsOf p).above.length + context.length + 1 + (4 + k) := by
    simp only [Parts.head, sectionsOf, List.length_append, List.length_cons, List.length_nil]
    omega
  rw [show p.head.length + 1 + k = _ from hlength p.context, hlength context]
  exact lookup_lineMap (sectionsOf p) context hbelow

end Stencil.Observed
