import Stencil.Diagnosis.RenderTable
import Stencil.Proofs.Text.Natural

/-!
Tables of the places that render templates. The points of a template are gathered in a set, so neither the order of the
calls nor their repetition matters, but for points that are alike in the order of the table: these stay in the order
of the set. Where a point has no line and another one of a file like its own has one, there is no table.
-/
namespace Stencil.Diagnosis
open Std Template Flatten Text

variable {p q : RenderPoint} {points sorted : List RenderPoint} {order order' : SetOrder} {lib : Library}
  {t : Files.Tree} {units : List FlattenedUnit} {c : RenderCall} {calls calls' : List RenderCall} {template : Path}
  {e : Path × List RenderPoint} {table : RenderTable}

/-! ### The order of points -/

namespace RenderPoint

instance : TransCmp (fun p q : RenderPoint => NaturalKey.compare p.naturalKey q.naturalKey) where
  eq_swap := (inferInstance : TransCmp NaturalKey.compare).eq_swap
  isLE_trans := (inferInstance : TransCmp NaturalKey.compare).isLE_trans

theorem compare_eq : RenderPoint.compare =
    compareLex (fun p q => NaturalKey.compare p.naturalKey q.naturalKey) (compareOn (·.location.line)) := rfl

instance : TransCmp RenderPoint.compare := by
  rw [compare_eq]
  infer_instance

theorem compare_eq_eq_iff :
    p.compare q = .eq ↔ p.naturalKey = q.naturalKey ∧ p.location.line = q.location.line := by
  rw [compare, Ordering.then_eq_eq, NaturalKey.compare_eq_eq_iff, LawfulEqOrd.compare_eq_iff_eq]

theorem clashes_iff : p.clashes q ↔
    p.naturalKey = q.naturalKey ∧ p.location.line.isSome ≠ q.location.line.isSome := by
  simp [clashes, NaturalKey.compare_eq_eq_iff]

end RenderPoint

/-! ### Sorting -/

/-- Points can be sorted if every number in the names of their files can be read, and no point without a line has a
file like that of a point with one. -/
structure Sortable (P : RenderPoint → Prop) : Prop where
  readable : ∀ p, P p → p.isUnreadable = false
  lined : ∀ p q, P p → P q → p.naturalKey = q.naturalKey → p.location.line.isSome = q.location.line.isSome

theorem SetOrder.mem_list : p ∈ order.list points ↔ p ∈ points := by
  rw [(order.perm_list points).mem_iff, List.mem_eraseDups]

theorem sortPoints_eq_ok_iff : sortPoints order points = .ok sorted ↔
    Sortable (· ∈ points) ∧ sorted = (order.list points).mergeSort fun p q => (p.compare q).isLE := by
  unfold sortPoints
  dsimp only
  split
  · next h =>
    obtain ⟨p, hp, hunreadable⟩ := List.any_eq_true.1 h
    refine ⟨nofun, fun ⟨hs, _⟩ => ?_⟩
    rw [hs.readable p (SetOrder.mem_list.1 hp)] at hunreadable
    cases hunreadable
  · next hread =>
    split
    · next h =>
      obtain ⟨p, hp, h⟩ := List.any_eq_true.1 h
      obtain ⟨q, hq, hclash⟩ := List.any_eq_true.1 h
      obtain ⟨hkey, hline⟩ := RenderPoint.clashes_iff.1 hclash
      exact ⟨nofun, fun ⟨hs, _⟩ => absurd (hs.lined p q (SetOrder.mem_list.1 hp) (SetOrder.mem_list.1 hq) hkey) hline⟩
    · next hlined =>
      rw [Except.ok.injEq, eq_comm]
      refine ⟨fun h => ⟨⟨fun p hp => ?_, fun p q hp hq hkey => ?_⟩, h⟩, fun h => h.2⟩
      · by_contra hunreadable
        exact hread (List.any_eq_true.2 ⟨p, SetOrder.mem_list.2 hp, by simpa using hunreadable⟩)
      · by_contra hline
        exact hlined (List.any_eq_true.2 ⟨p, SetOrder.mem_list.2 hp,
          List.any_eq_true.2 ⟨q, SetOrder.mem_list.2 hq, RenderPoint.clashes_iff.2 ⟨hkey, hline⟩⟩⟩)

/-! ### Points of calls -/

/-- The point of a call of a known template. -/
def RenderCall.Makes (lib : Library) (t : Files.Tree) (units : List FlattenedUnit) (c : RenderCall) (p : RenderPoint) :
    Prop :=
  lib.resolve t c.template = .ok p.template ∧ p.location = callSite units c

theorem pointOf_eq_some_iff : pointOf lib t units c = .ok (some p) ↔ c.Makes lib t units p := by
  unfold pointOf RenderCall.Makes
  split
  · next path h =>
    rw [h, Except.ok.injEq, Option.some.injEq, Except.ok.injEq]
    constructor
    · rintro rfl
      exact ⟨rfl, rfl⟩
    · rintro ⟨rfl, hsite⟩
      exact congrArg (RenderPoint.mk p.template) hsite.symm
  · next h => simp [h]
  · next h => simp [h]

theorem pointOf_eq_error_iff {m : Miss} : pointOf lib t units c = .error m ↔
    m = .undecodable ∧ lib.resolve t c.template = .error .undecodable := by
  unfold pointOf
  split
  · next h => simp [h]
  · next h => simp [h]
  · next h => simp [h, eq_comm]

/-- The points of all calls, if each of the files that are looked at is text. -/
theorem pointsOf_spec (lib : Library) (t : Files.Tree) (units : List FlattenedUnit) (calls : List RenderCall) :
    match calls.mapM (pointOf lib t units) with
    | .ok found => (∀ c ∈ calls, lib.resolve t c.template ≠ .error .undecodable) ∧
        ∀ p, p ∈ found.filterMap id ↔ ∃ c ∈ calls, c.Makes lib t units p
    | .error m => m = .undecodable ∧ ∃ c ∈ calls, lib.resolve t c.template = .error .undecodable := by
  have hspec := mapM_spec (pointOf lib t units) calls
  cases hfound : calls.mapM (pointOf lib t units) with
  | error m =>
    rw [hfound] at hspec
    obtain ⟨c, hc, hm⟩ := hspec
    obtain ⟨rfl, hmiss⟩ := pointOf_eq_error_iff.1 hm
    exact ⟨rfl, c, hc, hmiss⟩
  | ok found =>
    rw [hfound] at hspec
    refine ⟨fun c hc hmiss => ?_, fun p => ?_⟩
    · obtain ⟨o, -, ho⟩ := exists_of_each hspec.flip hc
      rw [pointOf_eq_error_iff.2 ⟨rfl, hmiss⟩] at ho
      cases ho
    · have hmem : p ∈ found.filterMap id ↔ some p ∈ found := by simp
      simp only [hmem, mem_iff_of_each hspec, pointOf_eq_some_iff]

/-- Nothing but a file that is no text keeps the points from being found. -/
theorem eq_undecodable_of_renderTableIn {m : Miss} (h : renderTableIn order lib t units calls = .error (.miss m)) :
    m = .undecodable := by
  have hspec := pointsOf_spec lib t units calls
  unfold renderTableIn at h
  split at h
  · next m' hfound =>
    rw [hfound] at hspec
    cases h
    exact hspec.1
  · next found hfound =>
    have heach := mapM_spec (entryOf order (found.filterMap id)) ((found.filterMap id).map (·.template)).eraseDups
    rw [h] at heach
    obtain ⟨template, -, he⟩ := heach
    unfold entryOf at he
    split at he <;> cases he

/-! ### Tables -/

/-- Holds of the points of calls of a template. -/
def PointOf (lib : Library) (t : Files.Tree) (units : List FlattenedUnit) (calls : List RenderCall) (template : Path)
    (p : RenderPoint) : Prop :=
  p.template = template ∧ ∃ c ∈ calls, c.Makes lib t units p

/-- An entry with all points of its template, each once, in their order. -/
structure Complete (P : Path → RenderPoint → Prop) (e : Path × List RenderPoint) : Prop where
  nodup : e.2.Nodup
  sorted : SortedBy RenderPoint.compare e.2
  mem_iff : ∀ p, p ∈ e.2 ↔ P e.1 p

/-- A table of calls: a complete entry for each template that is called, and no other. -/
structure Tabulates (lib : Library) (t : Files.Tree) (units : List FlattenedUnit) (calls : List RenderCall)
    (table : RenderTable) : Prop where
  nodup : (table.map Prod.fst).Nodup
  mem_iff : ∀ template, template ∈ table.map Prod.fst ↔ ∃ c ∈ calls, lib.resolve t c.template = .ok template
  complete : ∀ e ∈ table, Complete (PointOf lib t units calls) e

theorem entryOf_eq_ok_iff : entryOf order points template = .ok e ↔
    Sortable (fun p => p ∈ points ∧ p.template = template) ∧
      e = (template, (order.list (points.filter (·.template = template))).mergeSort fun p q => (p.compare q).isLE) := by
  have hmem : (· ∈ points.filter (·.template = template)) = fun p => p ∈ points ∧ p.template = template := by
    funext p
    simp
  unfold entryOf
  split
  · next sorted h =>
    obtain ⟨hs, rfl⟩ := sortPoints_eq_ok_iff.1 h
    rw [hmem] at hs
    rw [Except.ok.injEq, eq_comm]
    exact ⟨fun he => ⟨hs, he⟩, fun he => he.2⟩
  · next d h =>
    refine ⟨nofun, fun ⟨hs, _⟩ => ?_⟩
    rw [← hmem] at hs
    rw [sortPoints_eq_ok_iff.2 ⟨hs, rfl⟩] at h
    cases h

theorem complete_of_entryOf {P : Path → RenderPoint → Prop}
    (hP : ∀ template p, P template p ↔ p ∈ points ∧ p.template = template)
    (h : entryOf order points template = .ok e) : e.1 = template ∧ Complete P e := by
  obtain ⟨-, rfl⟩ := entryOf_eq_ok_iff.1 h
  have hperm := (List.mergeSort_perm (order.list (points.filter (·.template = template)))
    fun p q => (p.compare q).isLE).trans (order.perm_list _)
  refine ⟨rfl, hperm.nodup_iff.2 (nodup_eraseDups _), sortedBy_mergeSort _, fun p => ?_⟩
  rw [hperm.mem_iff, List.mem_eraseDups, hP]
  simp

/-- If all files that are looked at are text and the points of each template can be sorted, there is a table, and
not otherwise. -/
theorem renderTableIn_spec (order : SetOrder) (lib : Library) (t : Files.Tree) (units : List FlattenedUnit)
    (calls : List RenderCall) :
    ((∃ table, renderTableIn order lib t units calls = .ok table) ↔
      (∀ c ∈ calls, lib.resolve t c.template ≠ .error .undecodable) ∧
        ∀ template, Sortable (PointOf lib t units calls template)) ∧
    ∀ table, renderTableIn order lib t units calls = .ok table → Tabulates lib t units calls table := by
  have hspec := pointsOf_spec lib t units calls
  unfold renderTableIn
  split
  · next m hfound =>
    rw [hfound] at hspec
    obtain ⟨-, c, hc, hmiss⟩ := hspec
    exact ⟨iff_of_false nofun fun h => h.1 c hc hmiss, nofun⟩
  · next found hfound =>
    rw [hfound] at hspec
    obtain ⟨htext, hmem⟩ := hspec
    dsimp only
    generalize found.filterMap id = points at hmem
    have hpoint (template : Path) (p : RenderPoint) :
        PointOf lib t units calls template p ↔ p ∈ points ∧ p.template = template := by rw [PointOf, hmem, and_comm]
    have hsortable (template : Path) :
        PointOf lib t units calls template = fun p => p ∈ points ∧ p.template = template :=
      funext fun p => propext (hpoint template p)
    have htemplates (template : Path) : template ∈ (points.map (·.template)).eraseDups ↔
        ∃ c ∈ calls, lib.resolve t c.template = .ok template := by
      rw [List.mem_eraseDups, List.mem_map]
      constructor
      · rintro ⟨p, hp, rfl⟩
        obtain ⟨c, hc, hresolve, -⟩ := (hmem p).1 hp
        exact ⟨c, hc, hresolve⟩
      · rintro ⟨c, hc, hresolve⟩
        exact ⟨⟨template, callSite units c⟩, (hmem _).2 ⟨c, hc, hresolve, rfl⟩, rfl⟩
    refine ⟨⟨fun ⟨table, h⟩ => ⟨htext, fun template => ?_⟩, fun ⟨_, h⟩ => ?_⟩, fun table h => ?_⟩
    · have heach := mapM_spec (entryOf order points) (points.map (·.template)).eraseDups
      rw [h] at heach
      rw [hsortable]
      by_cases htemplate : template ∈ (points.map (·.template)).eraseDups
      · obtain ⟨e, -, he⟩ := exists_of_each heach.flip htemplate
        exact (entryOf_eq_ok_iff.1 he).1
      · -- No point is of this template.
        have hnone (p : RenderPoint) (hp : p ∈ points ∧ p.template = template) : False :=
          htemplate (List.mem_eraseDups.2 (List.mem_map.2 ⟨p, hp.1, hp.2⟩))
        exact ⟨fun p hp => (hnone p hp).elim, fun p _ hp => (hnone p hp).elim⟩
    · have heach : ∀ template ∈ (points.map (·.template)).eraseDups, ∃ e, entryOf order points template = .ok e :=
        fun template _ => ⟨_, entryOf_eq_ok_iff.2 ⟨hsortable template ▸ h template, rfl⟩⟩
      obtain ⟨table, htable, -⟩ := exists_mapM heach
      exact ⟨table, htable⟩
    · have heach := mapM_spec (entryOf order points) (points.map (·.template)).eraseDups
      rw [h] at heach
      have hkeys : table.map Prod.fst = (points.map (·.template)).eraseDups := by
        rw [← List.forall₂_eq_eq_eq, List.forall₂_map_left_iff]
        exact (heach.imp fun template e he => (complete_of_entryOf hpoint he).1).flip
      refine ⟨hkeys ▸ nodup_eraseDups _, fun template => hkeys ▸ htemplates template, fun e he => ?_⟩
      obtain ⟨template, -, hentry⟩ := exists_of_each heach he
      exact (complete_of_entryOf hpoint hentry).2

/-- The table of calls does not depend on their order, on how often each of them is made, nor on the order of sets:
there is always the same table or none, but for points of different files that are alike, which stay in the order of
their set. -/
theorem renderTable_callOrder (lib : Library) (t : Files.Tree) (units : List FlattenedUnit) (order order' : SetOrder)
    {calls calls' : List RenderCall} (hcalls : ∀ c, c ∈ calls' ↔ c ∈ calls) :
    ((∃ table, renderTableIn order lib t units calls = .ok table) ↔
      (∀ c ∈ calls, lib.resolve t c.template ≠ .error .undecodable) ∧
        ∀ template, Sortable (PointOf lib t units calls template)) ∧
    (∀ c u chain, unitIn units c.file = some u → chainAt u.sourceMap c.line = some chain →
      callSite units c = chain.last) ∧
    ∀ table, renderTableIn order lib t units calls = .ok table → Tabulates lib t units calls table ∧
      ∃ table', renderTableIn order' lib t units calls' = .ok table' ∧
        (∀ template, template ∈ table'.map Prod.fst ↔ template ∈ table.map Prod.fst) ∧
        ∀ e ∈ table, ∀ e' ∈ table', e'.1 = e.1 → e'.2.Perm e.2 ∧
          ((∀ p ∈ e.2, ∀ q ∈ e.2, p.naturalKey = q.naturalKey → p.location.line = q.location.line → p = q) →
            e'.2 = e.2) := by
  have hpoint (template : Path) : PointOf lib t units calls' template = PointOf lib t units calls template := by
    funext p
    simp only [PointOf, hcalls]
  obtain ⟨hexists, htabulates⟩ := renderTableIn_spec order lib t units calls
  obtain ⟨hexists', htabulates'⟩ := renderTableIn_spec order' lib t units calls'
  refine ⟨hexists, fun c u chain hunit hchain => by simp only [callSite, hunit, hchain], fun table htable => ?_⟩
  simp only [hcalls, hpoint] at hexists'
  obtain ⟨table', htable'⟩ := hexists'.2 (hexists.1 ⟨table, htable⟩)
  have htab := htabulates table htable
  have htab' := htabulates' table' htable'
  refine ⟨htab, table', htable', fun template => ?_, fun e he e' he' hkey => ?_⟩
  · rw [htab.mem_iff, htab'.mem_iff]
    simp only [hcalls]
  · have hcomplete := htab.complete e he
    have hcomplete' := htab'.complete e' he'
    have hperm : e'.2.Perm e.2 := (List.perm_ext_iff_of_nodup hcomplete'.nodup hcomplete.nodup).2 fun p => by
      rw [hcomplete.mem_iff, hcomplete'.mem_iff, hkey, hpoint]
    refine ⟨hperm, fun halike => (eq_of_sortedBy hperm.symm hcomplete.sorted hcomplete'.sorted ?_).symm⟩
    intro p hp q hq hpq
    obtain ⟨hnatural, hline⟩ := RenderPoint.compare_eq_eq_iff.1 hpq
    exact halike p hp q hq hnatural hline

/-- A library that knows one page. -/
def onePage : Library := ⟨.absent, [(Points.ofString "page.html", ⟨true, ["page.html"]⟩)]⟩

/-- Calls of the page on the first lines of files. -/
def callsIn (files : List String) : List RenderCall := files.map fun file => ⟨"page.html", ⟨true, [file]⟩, 1⟩

/-- The points of these calls. -/
def pointsIn (files : List String) : List RenderPoint :=
  files.map fun file => ⟨⟨true, ["page.html"]⟩, ⟨⟨true, [file]⟩, some 1⟩⟩

theorem sortable_pointsIn {files : List String} (h : ∀ p ∈ pointsIn files, p.isUnreadable = false) :
    Sortable (· ∈ pointsIn files) :=
  ⟨h, fun p q hp hq _ => by
    obtain ⟨_, -, rfl⟩ := List.mem_map.1 hp
    obtain ⟨_, -, rfl⟩ := List.mem_map.1 hq
    rfl⟩

/-- Points that came in their order are in the table as they came. -/
theorem renderTable_callsIn {a b : String} (hnodup : (pointsIn [a, b]).Nodup)
    (hreadable : ∀ p ∈ pointsIn [a, b], p.isUnreadable = false)
    (hsorted : (pointsIn [a, b]).Pairwise fun p q => (p.compare q).isLE) :
    renderTable onePage ⟨[]⟩ [] (callsIn [a, b]) = .ok [(⟨true, ["page.html"]⟩, pointsIn [a, b])] := by
  have hfound : (callsIn [a, b]).mapM (pointOf onePage ⟨[]⟩ []) = .ok ((pointsIn [a, b]).map some) := by
    simp [callsIn, pointsIn, pointOf, onePage, Library.resolve, Library.find, callSite, unitIn, bind, Except.bind,
      pure, Except.pure]
  have hid : ((pointsIn [a, b]).map some).filterMap id = pointsIn [a, b] := rfl
  have htemplates : ((pointsIn [a, b]).map (·.template)).eraseDups = [⟨true, ["page.html"]⟩] := rfl
  have hentry : entryOf .asPut (pointsIn [a, b]) ⟨true, ["page.html"]⟩ =
      .ok (⟨true, ["page.html"]⟩, pointsIn [a, b]) := by
    have hfilter : (pointsIn [a, b]).filter (·.template = ⟨true, ["page.html"]⟩) = pointsIn [a, b] := rfl
    have hlist : SetOrder.asPut.list (pointsIn [a, b]) = pointsIn [a, b] := eraseDups_of_nodup hnodup
    have hsort : sortPoints .asPut (pointsIn [a, b]) = .ok (pointsIn [a, b]) := by
      rw [sortPoints_eq_ok_iff, hlist, List.mergeSort_of_pairwise hsorted]
      exact ⟨sortable_pointsIn hreadable, rfl⟩
    rw [entryOf, hfilter, hsort]
  rw [renderTable, renderTableIn, hfound]
  dsimp only
  rw [hid, htemplates, List.mapM_cons, hentry]
  rfl

/-- Calls from the second and the tenth page have one table, in whatever order and how often they come. -/
theorem renderTable_callOrder_pages : ∃ table,
    renderTable onePage ⟨[]⟩ [] (callsIn ["page10.py", "page2.py", "page10.py"]) = .ok table ∧
      ∀ e ∈ table, e.1 = ⟨true, ["page.html"]⟩ → e.2 = pointsIn ["page2.py", "page10.py"] := by
  have hcalls : ∀ c, c ∈ callsIn ["page10.py", "page2.py", "page10.py"] ↔ c ∈ callsIn ["page2.py", "page10.py"] := by
    simp only [callsIn, List.map_cons, List.map_nil, List.mem_cons, List.not_mem_nil, or_false]
    tauto
  obtain ⟨-, table, htable, -, hsame⟩ := (renderTable_callOrder onePage ⟨[]⟩ [] .asPut .asPut hcalls).2.2 _
    (renderTable_callsIn (by decide) (by decide +kernel) (by decide +kernel))
  exact ⟨table, htable, fun e he hkey => (hsame _ List.mem_cons_self e he hkey).2 (by decide +kernel)⟩

/-- Files can be alike in the natural order. Then the order of the calls shows. -/
theorem renderTable_alike : (callsIn ["page01.py", "page1.py"]).Perm (callsIn ["page1.py", "page01.py"]) ∧
    renderTable onePage ⟨[]⟩ [] (callsIn ["page1.py", "page01.py"]) =
      .ok [(⟨true, ["page.html"]⟩, pointsIn ["page1.py", "page01.py"])] ∧
    renderTable onePage ⟨[]⟩ [] (callsIn ["page01.py", "page1.py"]) =
      .ok [(⟨true, ["page.html"]⟩, pointsIn ["page01.py", "page1.py"])] ∧
    pointsIn ["page1.py", "page01.py"] ≠ pointsIn ["page01.py", "page1.py"] :=
  ⟨.swap .., renderTable_callsIn (by decide) (by decide +kernel) (by decide +kernel),
    renderTable_callsIn (by decide) (by decide +kernel) (by decide +kernel), by decide⟩

end Stencil.Diagnosis
