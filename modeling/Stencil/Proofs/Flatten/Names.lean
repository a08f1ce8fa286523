import Stencil.Proofs.Compile.Reserved
import Stencil.Proofs.Lists
import Stencil.Proofs.Flatten.Chains

/-!
The names that a template reads with all that it needs. Each is counted once, in the place where it is seen first, and
they are the names of the templates that are reached from it, of all of them and of no others.
-/
namespace Stencil.Flatten
open Compile Template Relation

variable {sources : List Source} {P : Path → Composite → Prop} {names more : List String} {n : String} {p q : Progress}
  {t d : Path} {ls : Lines} {units : List CompiledUnit} {directory : Path}

theorem nodup_contextVariables (d : Document) : (contextVariables d).Nodup :=
  (List.mergeSort_perm _ _).nodup_iff.2 (nodup_eraseDups _)

theorem nodup_reads {dialect : Dialect} {library : Library} {tree : Files.Tree} {template directory : Path} {v : CompiledUnit}
    (h : compile dialect library tree template directory = .ok v) : v.reads.Nodup := by
  obtain ⟨document, -, hdocument⟩ := compile_eq_ok h
  unfold ofDocument at hdocument
  split at hdocument <;> cases hdocument
  exact nodup_contextVariables document

theorem addNames_append (names more rest : List String) :
    addNames names (more ++ rest) = addNames (addNames names more) rest := List.foldl_append

theorem addNames_eq (h : names.Nodup) : addNames names more = (names ++ more).eraseDups := by
  induction more using List.reverseRecOn with
  | nil => simpa [addNames] using (eraseDups_of_nodup h).symm
  | append_singleton more n ih =>
    rw [addNames_append, ih, ← List.append_assoc, eraseDups_concat]
    simp [addNames]

/-! ### The names of a template and of all that it needs -/

/-- The names of a template, each where it is seen first: its own, behind these those of the templates that it
includes, in the order of the definitions and then of the body, and those of its parent last. -/
inductive Gathers (sources : List Source) : Path → List String → Prop
  | intro {t : Path} {s : Source} {r : Reading} {names : Path → List String} (source : sourceOf sources t = some s)
      (reading : s.reading = .ok r) (needed : ∀ d ∈ r.needs, Gathers sources d (names d)) :
      Gathers sources t (s.context ++ r.needs.flatMap names).eraseDups

namespace Gathers

theorem unique (h : Gathers sources t names) (h' : Gathers sources t more) : names = more := by
  induction h generalizing more with
  | @intro t s r names hs hr _ ih =>
    obtain ⟨hs', hr', hneeded⟩ := h'
    obtain rfl := Option.some.inj (hs.symm.trans hs')
    obtain rfl := Except.ok.inj (hr.symm.trans hr')
    rw [List.flatMap_congr fun d hd => ih d hd (hneeded d hd)]

theorem inv (h : Gathers sources t names) : ∃ s r of, sourceOf sources t = some s ∧ s.reading = .ok r ∧
    (∀ d ∈ r.needs, Gathers sources d (of d)) ∧ names = (s.context ++ r.needs.flatMap of).eraseDups := by
  obtain ⟨hs, hr, hneeded⟩ := h
  exact ⟨_, _, _, hs, hr, hneeded, rfl⟩

theorem nodup (h : Gathers sources t names) : names.Nodup := by
  cases h
  exact nodup_eraseDups _

/-- Nothing behind the template is missing. -/
theorem compiled (h : Gathers sources t names) (hd : ReflTransGen (Needs sources) t d) : (sourceOf sources d).isSome := by
  induction h with
  | intro hs hr _ ih =>
    obtain rfl | ⟨c, ⟨s', r', hs', hr', hc⟩, hd⟩ := ReflTransGen.cases_head hd
    · simp [hs]
    · obtain rfl := Option.some.inj (hs.symm.trans hs')
      obtain rfl := Except.ok.inj (hr.symm.trans hr')
      exact ih c hc hd

/-- The names are those of all that the template needs, directly or through others. -/
theorem mem_iff (h : Gathers sources t names) :
    n ∈ names ↔ ∃ d s, ReflTransGen (Needs sources) t d ∧ sourceOf sources d = some s ∧ n ∈ s.context := by
  induction h with
  | @intro t s r names hs hr _ ih =>
    have hneeds : ∀ d ∈ r.needs, Needs sources t d := fun d hd => ⟨s, r, hs, hr, hd⟩
    rw [List.mem_eraseDups, List.mem_append, List.mem_flatMap]
    constructor
    · rintro (hn | ⟨c, hc, hn⟩)
      · exact ⟨t, s, .refl, hs, hn⟩
      · obtain ⟨d, s', hd, hrest⟩ := (ih c hc).1 hn
        exact ⟨d, s', .head (hneeds c hc) hd, hrest⟩
    · rintro ⟨d, s', hd, hs', hn⟩
      obtain rfl | ⟨c, ⟨s₁, r₁, hs₁, hr₁, hc⟩, hd⟩ := ReflTransGen.cases_head hd
      · exact .inl (Option.some.inj (hs.symm.trans hs') ▸ hn)
      · obtain rfl := Option.some.inj (hs.symm.trans hs₁)
        obtain rfl := Except.ok.inj (hr.symm.trans hr₁)
        exact .inr ⟨c, hc, (ih c hc).2 ⟨d, s', hd, hs', hn⟩⟩

end Gathers

/-! ### Composing -/

/-- Behind the names that were there stand those of the templates that were asked for. -/
structure Adds (sources : List Source) (of : Path → List String) (asked : List Path) (p q : Progress) : Prop where
  context : q.context = addNames p.context (asked.flatMap of)
  gathered : ∀ d ∈ asked, Gathers sources d (of d)

namespace Adds

variable {of : Path → List String} {asked asked' : List Path} {p' : Progress}

theorem nil (h : q.context = p.context) : Adds sources of [] p q := ⟨h, by simp⟩

theorem trans (h : Adds sources of asked p q) (h' : Adds sources of asked' q p') :
    Adds sources of (asked ++ asked') p p' where
  context := by rw [h'.context, h.context, List.flatMap_append, addNames_append]
  gathered := List.forall_mem_append.2 ⟨h.gathered, h'.gathered⟩

end Adds

section Expand

variable {of : Path → List String} {dependency : Path → Shared Composite} (hof : ∀ d l, Gathers sources d l → l = of d)
  (hdependency : ∀ d, Brings P (dependency d) fun c => Gathers sources d c.context)
include hof hdependency

theorem expandSegment_adds (ls : Lines) (p : Progress) (s : Segment) :
    Brings P (expandSegment dependency ls p s) fun r => Adds sources of ([s].filterMap Segment.included?) p r.2 := by
  unfold expandSegment
  split
  · next h =>
    rw [show [s].filterMap Segment.included? = [] by simp [Segment.included?, h]]
    exact .pure (.nil rfl)
  · next h =>
    rw [show [s].filterMap Segment.included? = [] by simp [Segment.included?, h]]
    exact .pure (.nil rfl)
  · next d h =>
    refine (hdependency d).bind fun c hc => .pure ?_
    rw [show [s].filterMap Segment.included? = [d] by simp [Segment.included?, h]]
    obtain heq := hof d _ hc
    exact ⟨by simp [heq], by simpa [← heq] using hc⟩

theorem expand_adds (ls : Lines) (p : Progress) (ss : List Segment) :
    Brings P (expand dependency ls p ss) fun r => Adds sources of (ss.filterMap Segment.included?) p r.2 := by
  induction ss generalizing ls p with
  | nil => exact .pure (.nil rfl)
  | cons s ss ih =>
    rw [show s :: ss = [s] ++ ss from rfl, List.filterMap_append]
    exact (expandSegment_adds hof hdependency ls p s).bind fun r hr => (ih r.1 r.2).imp fun _ => hr.trans

theorem expandDefinitions_adds (p : Progress) (ds : List (String × List Segment)) :
    Brings P (expandDefinitions dependency p ds) fun r =>
      Adds sources of ((ds.flatMap (·.2)).filterMap Segment.included?) p r.2 := by
  induction ds generalizing p with
  | nil => exact .pure (.nil rfl)
  | cons d ds ih =>
    rw [List.flatMap_cons, List.filterMap_append]
    exact (expand_adds hof hdependency [] p d.2).bind fun r hr => (ih r.2).bind fun _ hr' => .pure (hr.trans hr')

theorem compose_gathers {s : Source} {r : Reading} (hs : sourceOf sources t = some s) (hr : s.reading = .ok r)
    (hnodup : s.context.Nodup) : Brings P (compose dependency s.context r) fun c => Gathers sources t c.context := by
  refine ((expandDefinitions_adds hof hdependency ⟨0, s.context, none⟩ r.definitions).and
    ((Comparison.resulting dependency).expandDefinitions ⟨0, s.context, none⟩ r.definitions)).bind
    fun ⟨definitions, p⟩ ⟨hd, hfound⟩ => ?_
  refine ((expand_adds hof hdependency [] p r.body).and
    ((Comparison.resulting dependency).expand [] p r.body)).bind fun ⟨body, p'⟩ ⟨hb, hfound'⟩ => ?_
  have hincluded := hd.trans hb
  rw [← List.filterMap_append] at hincluded
  have hparent : p'.found = r.parent? := by
    rw [hfound', hfound, ← parentAfter_append]
    exact Option.or_none
  -- the parent comes behind all that is included
  have hall (asked : List Path) {context : List String} (hasked : asked = r.parent?.toList)
      (h : Adds sources of asked p' { p' with context }) : Gathers sources t context := by
    obtain ⟨hcontext, hgathered⟩ := hincluded.trans h
    rw [hasked] at hcontext hgathered
    rw [show context = _ from hcontext, addNames_eq hnodup]
    exact .intro hs hr hgathered
  dsimp only
  rw [Progress.found] at hparent
  split
  · next hnone => exact .pure (hall [] (by simp [← hparent, hnone]) (.nil rfl))
  · next parent place hsome =>
    refine (hdependency parent).bind fun ancestor ha => .pure (hall [parent] (by simp [← hparent, hsome]) ?_)
    obtain heq := hof parent _ ha
    exact ⟨by simp [heq], by simpa [← heq] using ha⟩

end Expand

/-- There is at most one way to gather the names of a template. -/
theorem exists_names (sources : List Source) : ∃ of : Path → List String, ∀ d l, Gathers sources d l → l = of d := by
  refine Classical.axiomOfChoice (r := fun d of => ∀ l, Gathers sources d l → l = of) fun d => ?_
  by_cases h : ∃ l, Gathers sources d l
  · obtain ⟨l, hl⟩ := h
    exact ⟨l, fun l' hl' => hl'.unique hl⟩
  · exact ⟨[], fun l hl => absurd ⟨l, hl⟩ h⟩

theorem composite_gathers (h : ∀ s ∈ sources, s.context.Nodup) (depth : Nat) (t : Path) :
    Brings (fun t c => Gathers sources t c.context) (Shared.composite sources depth t) fun c =>
      Gathers sources t c.context := by
  induction depth generalizing t with
  | zero => exact .throw _
  | succ depth ih =>
    refine .kept (P := fun t c => Gathers sources t c.context) ?_
    unfold composeAmong
    cases hsource : sourceOf sources t with
    | none => exact .throw _
    | some source =>
      cases hr : source.reading with
      | error f =>
        simp only [hr]
        split <;> exact .throw _
      | ok r =>
        simp only [hr]
        obtain ⟨of, hof⟩ := exists_names sources
        exact compose_gathers hof (fun d => (ih d).adapt _) hsource hr (h source (mem_of_sourceOf hsource).1)

/-- The names that a flattened unit reads, if the compiled units read none of theirs twice. -/
theorem flatten_gathers {u : FlattenedUnit} {outcomes : List (Except FlattenError FlattenedUnit)}
    (h : ∀ v ∈ units, v.reads.Nodup) (hflatten : Shared.flatten units directory = .ok outcomes) (hu : .ok u ∈ outcomes) :
    Gathers (sourcesOf units) u.template u.reads := by
  have hsources : ∀ s ∈ sourcesOf units, s.context.Nodup :=
    List.forall_mem_map.2 fun v hv => h v (mem_of_mem_latest hv)
  have hone (v : CompiledUnit) : Brings (fun t c => Gathers (sourcesOf units) t c.context)
      (Shared.flattenUnit (sourcesOf units) directory v.template) fun u => Gathers (sourcesOf units) u.template u.reads :=
    (composite_gathers hsources _ v.template).map fun _ hc => hc
  exact ((Brings.mapM fun v _ => (hone v).orError).ok (by simp) hflatten).2 _ hu u rfl

/-- The names are those of the units of all templates that a relation leads to. -/
def IsUnion (units : List CompiledUnit) (R : Path → Path → Prop) (t : Path) (names : List String) : Prop :=
  ∀ n, n ∈ names ↔ ∃ d w, ReflTransGen R t d ∧ unitFor? units d = some w ∧ n ∈ w.reads

/-- How the names that a flattened unit reads come from those of the compiled units: `v` is the unit of its template
and `r` what was read of it, and `of` gives the names of the templates that it needs. -/
structure Gathered (units : List CompiledUnit) (outcomes : List (Except FlattenError FlattenedUnit)) (u : FlattenedUnit)
    (v : CompiledUnit) (r : Reading) (of : Path → List String) : Prop where
  unit : unitFor? units u.template = some v
  reading : read v.file v.source v.sourceMap = .ok r
  nodup : u.reads.Nodup
  own : v.reads <+: u.reads
  compiled : ∀ d, ReflTransGen (Needs (sourcesOf units)) u.template d → (unitFor? units d).isSome
  union : IsUnion units (Needs (sourcesOf units)) u.template u.reads
  order : u.reads = (v.reads ++ (r.segments.filterMap Segment.included?).flatMap of ++
    r.parent?.toList.flatMap of).eraseDups
  needed : ∀ d ∈ r.needs, Gathers (sourcesOf units) d (of d)
  flattened : ∀ w, .ok w ∈ outcomes → w.template ∈ r.needs → w.reads = of w.template

/-- A flattened unit reads what its template and all that it needs read, and nothing else. Its own names come first,
then those of the templates that are included, in their order, and those of the parent last. -/
theorem reads_gathered {u : FlattenedUnit} {outcomes : List (Except FlattenError FlattenedUnit)}
    (hunits : ∀ v ∈ units, ∃ dialect library tree directory, compile dialect library tree v.template directory = .ok v)
    (h : Shared.flatten units directory = .ok outcomes) (hu : .ok u ∈ outcomes) :
    ∃ v r of, Gathered units outcomes u v r of := by
  have hnodup : ∀ v ∈ units, v.reads.Nodup := fun v hv => by
    obtain ⟨_, _, _, _, hcompile⟩ := hunits v hv
    exact nodup_reads hcompile
  have hall {w : FlattenedUnit} (hw : .ok w ∈ outcomes) : Gathers (sourcesOf units) w.template w.reads :=
    flatten_gathers hnodup h hw
  have hgathers := hall hu
  have hreads : IsUnion units (Needs (sourcesOf units)) u.template u.reads := by
    intro n
    rw [hgathers.mem_iff]
    refine exists_congr fun d => ⟨fun ⟨s, hd, hs, hn⟩ => ?_, fun ⟨w, hd, hw, hn⟩ => ?_⟩
    · rw [sourceOf_sourcesOf, Option.map_eq_some_iff] at hs
      obtain ⟨w, hw, rfl⟩ := hs
      exact ⟨w, hd, hw, hn⟩
    · exact ⟨.ofUnit w, hd, by rw [sourceOf_sourcesOf, hw, Option.map_some], hn⟩
  have hcompiled (d : Path) (hd : ReflTransGen (Needs (sourcesOf units)) u.template d) : (unitFor? units d).isSome := by
    simpa [sourceOf_sourcesOf] using hgathers.compiled hd
  obtain ⟨s, r, of, hs, hr, hneeded, hnames⟩ := hgathers.inv
  rw [sourceOf_sourcesOf, Option.map_eq_some_iff] at hs
  obtain ⟨v, hv, rfl⟩ := hs
  replace hnames : u.reads = (v.reads ++ r.needs.flatMap of).eraseDups := hnames
  have hown : v.reads.Nodup := hnodup v (mem_of_mem_latest (List.mem_of_find?_eq_some hv))
  refine ⟨v, r, of, hv, hr, hgathers.nodup, ?_, hcompiled, hreads, ?_, hneeded, fun w hw hmem => ?_⟩
  · rw [hnames, List.eraseDups_append, eraseDups_of_nodup hown]
    exact List.prefix_append _ _
  · rw [hnames, Reading.needs, List.flatMap_append, List.append_assoc]
  · exact (hall hw).unique (hneeded _ hmem)

section Site

open Dependency Code

def aside : Path := ⟨true, ["aside"]⟩

/-- Two templates and a page that calls the runtime module itself, behind the directive of its own. -/
def site : Files.Tree := ⟨[
  (page.parts, .file "\x7b% extends 'base' %\x7d\x7b\x7b _jt_rt.extends('/aside') \x7d\x7d".toUTF8),
  (base.parts, .file "\x7b\x7b z \x7d\x7d".toUTF8),
  (aside.parts, .file "\x7b\x7b x \x7d\x7d".toUTF8)]⟩

/-- A template with the lines that it was compiled to, the names that it reads, and the directives in the lines. -/
structure Sample where
  template : Path
  names : List String
  lines : List (String × Option Directive)

namespace Sample

variable (s : Sample)

/-- The module of a template whose statements are all on its first line. -/
def parts : Parts Location where
  title := Compile.titleOf s.template
  context := s.names.map (declaration · anyType)
  definitions := []
  body := s.lines.map fun l => ⟨0, l.1, some ⟨s.template, some 1⟩⟩

def reading : Reading := ⟨[], s.lines.map fun l => ⟨⟨0, l.1, some (.single ⟨s.template, some 1⟩)⟩, l.2⟩⟩

def source : Source := ⟨s.template, .ok s.reading, s.names⟩

end Sample

/-- The page has two directives to extend a template. -/
def pageSample : Sample := ⟨page, ["_jt_rt"], [("_jt_rt.extends('/base')", some ⟨.extends_, base⟩),
  ("_jt_out.append(str(_jt_rt.extends('/aside')))", some ⟨.extends_, aside⟩)]⟩

def baseSample : Sample := ⟨base, ["z"], [("_jt_out.append(str(z))", none)]⟩

def asideSample : Sample := ⟨aside, ["x"], [("_jt_out.append(str(x))", none)]⟩

/-- What is compiled of the site, and what it is flattened to: of the two directives of the page the last one counts. -/
theorem flatten_site : ∃ p units outcomes u, (∀ v ∈ units, ∃ dialect library tree directory,
    compile dialect library tree v.template directory = .ok v) ∧ compile noExtensions everywhere site page root = .ok p ∧
    unitFor? units page = some p ∧
    sourcesOf units = [pageSample.source, baseSample.source, asideSample.source] ∧
    Shared.flatten units root = .ok outcomes ∧ .ok u ∈ outcomes ∧ u.template = page ∧ u.reads = ["_jt_rt", "x"] := by
  obtain ⟨p, pcompiled, hpage, hp⟩ := exists_source site page pageSample.parts pageSample.names pageSample.reading
    (by decide +kernel) (by decide +kernel)
  obtain ⟨b, bcompiled, hbase, hb⟩ := exists_source site base baseSample.parts baseSample.names baseSample.reading
    (by decide +kernel) (by decide +kernel)
  obtain ⟨a, acompiled, haside, ha⟩ := exists_source site aside asideSample.parts asideSample.names asideSample.reading
    (by decide +kernel) (by decide +kernel)
  have hlatest : latest [p, b, a] = [p, b, a] := by simp [latest, hpage, hbase, haside, page, base, aside]
  have hsources : sourcesOf [p, b, a] = [pageSample.source, baseSample.source, asideSample.source] := by
    rw [sourcesOf, hlatest, List.map_cons, List.map_cons, List.map_singleton, hp, hb, ha]
    rfl
  have hflatten := flatten_templates [p, b, a] root
  rw [hsources] at hflatten
  obtain ⟨outcomes, houtcomes, hfirst⟩ : ∃ outcomes, Shared.flatten [p, b, a] root = .ok outcomes ∧
      (outcomes.head?.bind Except.toOption).map (fun u => (u.template, u.reads)) = some (page, ["_jt_rt", "x"]) := by
    rw [hflatten]
    refine of_toOption_map (f := fun outcomes : List (Except FlattenError FlattenedUnit) =>
      (outcomes.head?.bind Except.toOption).map fun u => (u.template, u.reads)) ?_
    decide +kernel
  obtain ⟨u, hu, htemplate, hreads⟩ := by simpa only [Option.map_eq_some_iff, Prod.mk.injEq] using hfirst
  obtain ⟨o, ho, hou⟩ := Option.bind_eq_some_iff.1 hu
  cases o with
  | error e => cases hou
  | ok u' =>
    cases hou
    refine ⟨p, [p, b, a], outcomes, u, ?_, pcompiled, ?_, hsources, houtcomes, List.mem_of_head? ho, htemplate, hreads⟩
    · simp only [List.forall_mem_cons]
      exact ⟨⟨_, _, _, _, hpage ▸ pcompiled⟩, ⟨_, _, _, _, hbase ▸ bcompiled⟩, ⟨_, _, _, _, haside ▸ acompiled⟩, by simp⟩
    · simp [unitFor?, hlatest, hpage]

theorem reads_gathered_site : ∃ units outcomes u, Shared.flatten units root = .ok outcomes ∧ .ok u ∈ outcomes ∧
    u.reads = ["_jt_rt", "x"] ∧ ∃ v r of, Gathered units outcomes u v r of := by
  obtain ⟨_, units, outcomes, u, hunits, -, -, -, hflatten, hu, -, hreads⟩ := flatten_site
  exact ⟨units, outcomes, u, hflatten, hu, hreads, reads_gathered hunits hflatten hu⟩

/-- What a template uses by its unit's account. -/
def Uses (units : List CompiledUnit) (a b : Path) : Prop :=
  ∃ v, unitFor? units a = some v ∧ (v.parent = some b ∨ b ∈ v.includes)

/-- The names of a parent are missing where another one counts: the directive that the page brings itself. -/
theorem site_not_union : ∃ units outcomes u, (∀ v ∈ units, ∃ dialect library tree directory,
    compile dialect library tree v.template directory = .ok v) ∧ Shared.flatten units root = .ok outcomes ∧
    .ok u ∈ outcomes ∧ ¬ IsUnion units (StandsFor (sourcesOf units)) u.template u.reads ∧
    ¬ IsUnion units (Uses units) u.template u.reads := by
  obtain ⟨p, units, outcomes, u, hunits, hcompile, hunit, hsources, hflatten, hu, htemplate, hreads⟩ := flatten_site
  have hz : "z" ∉ u.reads := by simp [hreads]
  have hbase : sourceOf (sourcesOf units) base = some baseSample.source := by
    rw [hsources]
    rfl
  obtain ⟨w, hw, hofUnit⟩ : ∃ w, unitFor? units base = some w ∧ Source.ofUnit w = baseSample.source := by
    rwa [sourceOf_sourcesOf, Option.map_eq_some_iff] at hbase
  have hmem : "z" ∈ w.reads := by
    have hreads : w.reads = baseSample.names := congrArg Source.context hofUnit
    simp [hreads, baseSample]
  have hnot {R : Path → Path → Prop} (hR : R page base) : ¬ IsUnion units R u.template u.reads := fun h =>
    hz ((h "z").2 ⟨base, w, htemplate ▸ .single hR, hw, hmem⟩)
  refine ⟨units, outcomes, u, hunits, hflatten, hu, hnot ?_, hnot ?_⟩
  · refine ⟨pageSample.source, pageSample.reading, ?_, rfl, _, List.mem_cons_self, _, rfl, rfl⟩
    rw [hsources]
    rfl
  · have hparent : (compile noExtensions everywhere site page root).toOption.map (·.parent) = some (some base) := by
      decide +kernel
    rw [hcompile] at hparent
    exact ⟨p, hunit, .inl (Option.some.inj hparent)⟩

end Site

end Stencil.Flatten
