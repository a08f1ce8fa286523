import Stencil.Proofs.Compile.Located
import Stencil.Proofs.Observed.Unmapped

/-!
The chains of flattened lines. A chain has the places of the inclusions that lead from the template to a line, the
outermost first, and behind them the place that the line was compiled from. What is extended adds no link.
-/
namespace Stencil.Flatten
open Code Compile Observed Relation

variable {units : List CompiledUnit} {directory t d : Path} {s : Segment} {loc : Location} {code : String} {c : Chain}
  {sites : List (Location × Path)}

/-! ### Ways through templates -/

/-- A line of a template's unit, as it was read there, with the place that it was compiled from. -/
structure CompiledFrom (units : List CompiledUnit) (t : Path) (s : Segment) (loc : Location) : Prop where
  segment : SegmentOf (sourcesOf units) t s
  row : ∃ v row text, unitFor? units t = some v ∧ (Text.lines v.source)[row]? = some text ∧
    s.line.code.toList = text.toList.dropWhile (· == ' ') ∧ v.sourceMap.lookup (row + 1) = some loc
  file : loc.file = t

/-- A way from a template to one whose lines become lines of it. Each inclusion on the way has its place and what is
included there. -/
inductive Route (units : List CompiledUnit) : Path → List (Location × Path) → Path → Prop
  | here (t : Path) : Route units t [] t
  | extends_ {t parent d : Path} {sites : List (Location × Path)} (extending : Extends (sourcesOf units) t parent)
      (rest : Route units parent sites d) : Route units t sites d
  | include_ {t target d : Path} {s : Segment} {site : Location} {buffer : String} {sites : List (Location × Path)}
      (place : CompiledFrom units t s site) (directive : s.directive = some ⟨.include_ buffer, target⟩)
      (rest : Route units target sites d) : Route units t ((site, target) :: sites) d

/-- What stands in a composite for a line: its code, or what calls an included template, where the functions of blocks
may have got other names. -/
inductive WrittenFor (s : Segment) : String → Prop
  | own (h : s.directive = none) : WrittenFor s s.line.code
  | header {buffer : String} {target : Path} (number : Nat) (h : s.directive = some ⟨.include_ buffer, target⟩) :
      WrittenFor s (functionHeader (includeFunction number) "")
  | call {buffer : String} {target : Path} (number : Nat) (h : s.directive = some ⟨.include_ buffer, target⟩) :
      WrittenFor s (append buffer (includeFunction number ++ "()"))
  | renameHeader {code : String} (block : String) (level : Nat) (h : WrittenFor s code) :
      WrittenFor s (Flatten.renameHeader block level code)
  | renameCalls {code : String} (block : String) (level : Nat) (h : WrittenFor s code) :
      WrittenFor s (Flatten.renameCalls block level code)

namespace Route

/-- The files that the links of a chain are in. -/
def files (sites : List (Location × Path)) (d : Path) : List Path := sites.map (·.1.file) ++ [d]

theorem first (h : Route units t sites d) :
    ∃ a rest, files sites d = a :: rest ∧ ReflTransGen (Needs (sourcesOf units)) t a := by
  induction h with
  | here t => exact ⟨t, [], rfl, .refl⟩
  | extends_ hparent _ ih =>
    obtain ⟨a, rest, hfiles, hreach⟩ := ih
    exact ⟨a, rest, hfiles, .head hparent.needs hreach⟩
  | include_ hplace _ _ _ => exact ⟨_, _, rfl, hplace.file ▸ .refl⟩

/-- What comes next after an inclusion is among what the included template needs. -/
theorem next (h : Route units t sites d) {i : Nat} {site : Location} {target : Path}
    (hsite : sites[i]? = some (site, target)) :
    ∃ a, (files sites d)[i + 1]? = some a ∧ ReflTransGen (Needs (sourcesOf units)) target a := by
  induction h generalizing i with
  | here => cases hsite
  | extends_ _ _ ih => exact ih hsite
  | include_ _ _ hrest ih =>
    cases i with
    | zero =>
      cases hsite
      obtain ⟨a, rest, hfiles, hreach⟩ := hrest.first
      exact ⟨a, by simp [files] at hfiles ⊢; simp [hfiles], hreach⟩
    | succ i => exact ih hsite

end Route

/-! ### Chains of lines -/

theorem exists_compiledFrom (hunits : ∀ v ∈ units, OfPlain v) (hs : SegmentOf (sourcesOf units) t s)
    (hc : s.line.origin = some c) : ∃ loc, c = .single loc ∧ CompiledFrom units t s loc := by
  obtain ⟨source, r, hsource, hr, hmem⟩ := id hs
  rw [sourceOf_sourcesOf, Option.map_eq_some_iff] at hsource
  obtain ⟨v, hv, rfl⟩ := hsource
  have hplain : OfPlain v := hunits v (mem_of_mem_latest (List.mem_of_find?_eq_some hv))
  have htemplate : v.template = t := by simpa using List.find?_some hv
  obtain ⟨hlines, p, es, hmodule⟩ := hplain.exists_module
  have hnewline : '\n' ∉ v.template.text.toList := fun hmem => absurd (hlines _ hmem) (by decide)
  have hrow : ∃ row text, (Text.lines v.source)[row]? = some text ∧
      s.line.code.toList = text.toList.dropWhile (· == ' ') ∧
      s.line.origin = (v.sourceMap.lookup (row + 1)).map Chain.single := by
    refine hmodule.segments (P := fun s => ∃ row text, (Text.lines v.source)[row]? = some text ∧
      s.line.code.toList = text.toList.dropWhile (· == ' ') ∧
      s.line.origin = (v.sourceMap.lookup (row + 1)).map Chain.single) hnewline hr
      (fun found _ k segs hsegs s hs => ?_) s hmem
    obtain ⟨text, htext, hcode, horigin, -⟩ := segment_spec hsegs hs
    exact ⟨_, text, by simpa using htext, hcode, horigin⟩
  obtain ⟨row, text, htext, hcode, horigin⟩ := hrow
  obtain ⟨loc, hloc, rfl⟩ := Option.map_eq_some_iff.1 (horigin.symm.trans hc)
  have hfile : loc.file = v.template := by
    obtain ⟨_, _, _, _, hcompile, -⟩ := hplain
    obtain ⟨document, -, hdocument⟩ := compile_eq_ok hcompile
    obtain ⟨_, _, hmap, -⟩ := List.lookup_eq_some_iff.1 hloc
    exact file_of_sourceMap hdocument (row + 1, loc) (by simp [hmap])
  exact ⟨loc, rfl, hs, ⟨v, row, text, hv, htext, hcode, hloc⟩, hfile.trans htemplate⟩

/-- The chain of a line leads over the inclusions of a way, to the place that the line was compiled from. -/
def Leads (units : List CompiledUnit) (t : Path) (code : String) (c : Chain) : Prop :=
  ∃ sites d s loc, Route units t sites d ∧ CompiledFrom units d s loc ∧ WrittenFor s code ∧
    c.toList = sites.map (·.1) ++ [loc]

/-- A line that has its origin in the template. -/
theorem leads_here (hunits : ∀ v ∈ units, OfPlain v) (hs : SegmentOf (sourcesOf units) t s)
    (hcode : WrittenFor s code) : ∀ c ∈ s.line.origin, Leads units t code c := by
  intro c hc
  obtain ⟨loc, rfl, hloc⟩ := exists_compiledFrom hunits hs hc
  exact ⟨[], t, s, loc, .here t, hloc, hcode, rfl⟩

/-- Chains lead where their lines come from, whatever is composed. -/
theorem composes_leads (hunits : ∀ v ∈ units, OfPlain v) :
    Composes (sourcesOf units) (fun t l => ∀ c ∈ l.origin, Leads units t l.code c) fun _ _ => True where
  own hs hd := leads_here hunits hs (.own hd)
  bound := by simp [scaffold]
  function hs hd number := ⟨leads_here hunits hs (.header number hd), leads_here hunits hs (.call number hd)⟩
  included {t s buffer target l} hs hd hl levels c hc := by
    obtain ⟨source, r, hsource, hr, hmem⟩ := id hs
    have hsourced : s.Sourced := by
      obtain ⟨v, hv, rfl⟩ := List.mem_map.1 (mem_of_sourceOf hsource).1
      exact (hunits v (mem_of_mem_latest hv)).sourced.segments r hr s hmem
    obtain ⟨outer, houter⟩ := Option.ne_none_iff_exists'.1 (hsourced.site _ hd)
    obtain ⟨site, rfl, hsite⟩ := exists_compiledFrom hunits hs houter
    obtain ⟨inner, hinner, rfl⟩ := Option.map_eq_some_iff.1 hc
    obtain ⟨sites, d, s', loc, hroute, hloc, hcode, hlinks⟩ := hl inner hinner
    refine ⟨(site, target) :: sites, d, s', loc, .include_ hsite hd hroute, hloc, hcode, ?_⟩
    simp [houter, hlinks]
  extended hextends hl c hc := by
    obtain ⟨sites, d, s, loc, hroute, hrest⟩ := hl c hc
    exact ⟨sites, d, s, loc, .extends_ hextends hroute, hrest⟩
  renamed hl block level := by
    constructor <;> intro c hc
    · obtain ⟨sites, d, s, loc, hroute, hloc, hcode, hlinks⟩ := hl c hc
      exact ⟨sites, d, s, loc, hroute, hloc, .renameHeader block level hcode, hlinks⟩
    · obtain ⟨sites, d, s, loc, hroute, hloc, hcode, hlinks⟩ := hl c hc
      exact ⟨sites, d, s, loc, hroute, hloc, .renameCalls block level hcode, hlinks⟩
  names _ _ _ := trivial
  needed _ _ := trivial

/-! ### Source maps -/

/-- A line of a flattened unit with its chain. -/
structure Traced (units : List CompiledUnit) (u : FlattenedUnit) (n : Nat) (c : Chain)
    (sites : List (Location × Path)) (d : Path) (s : Segment) (loc : Location) : Prop where
  route : Route units u.template sites d
  compiled : CompiledFrom units d s loc
  line : ∃ k text blanks code, n = k + 1 ∧ (Text.lines u.source)[k]? = some text ∧
    text.toList = List.replicate blanks ' ' ++ code.toList ∧ WrittenFor s code
  links : c.toList = sites.map (·.1) ++ [loc]
  depth : c.length = sites.length + 1
  inside : ∀ i site target, sites[i]? = some (site, target) →
    ∃ link, c.toList[i + 1]? = some link ∧ ReflTransGen (Needs (sourcesOf units)) target link.file

/-- Every chain of a flattened unit has the inclusions that lead to its line, and then the place that the line was
compiled from. Each link is in the included template or in what this one needs. -/
theorem sourceMap_traced {outcomes : List (Except FlattenError FlattenedUnit)} {u : FlattenedUnit} {n : Nat}
    (hunits : ∀ v ∈ units, OfPlain v) (h : Shared.flatten units directory = .ok outcomes) (hu : .ok u ∈ outcomes)
    (hc : (n, c) ∈ u.sourceMap) : ∃ sites d s loc, Traced units u n c sites d s loc := by
  have hsources : ∀ s ∈ sourcesOf units, s.Sourced :=
    List.forall_mem_map.2 fun v hv => (hunits v (mem_of_mem_latest hv)).sourced
  obtain ⟨v, hv, made, hmade, rfl⟩ := flatten_has ((composes_sourced hsources).and (composes_leads hunits)) h hu
  have hsourced : made.Sourced := ⟨fun d hd ls hls l hl => (hmade.definitions d hd ls hls l hl).1,
    fun l hl => (hmade.body l hl).1, fun v hv => (hmade.context v hv).1⟩
  have hlines : Text.lines (unitOf directory v.template made).source = _ :=
    Parts.lines_source (unbroken_lines_partsOf hsourced (hunits v hv).exists_module.1 (List.forall_mem_map.2 fun v hv =>
      unbroken_declaration (hsourced.context v hv) (by decide)))
  have hleads : ∀ l ∈ (partsOf v.template made (made.context.map (declaration · anyType))).statements,
      ∀ c ∈ l.origin, Leads units v.template l.code c := by
    have hbound (code : String) : ∀ c ∈ (scaffold 0 code : CodeLine Chain).origin, Leads units v.template code c := nofun
    have hrenamed {l : CodeLine Chain} := (composes_leads hunits).renamed (t := v.template) (l := l)
    simp only [Parts.statements, List.forall_mem_append, List.forall_mem_cons]
    exact ⟨⟨forall_mem_emitDefinitions hrenamed fun d hd ls hls l hl => (hmade.definitions d hd ls hls l hl).2,
      hbound _, fun l hl => (hmade.body l hl).2⟩, hbound _, by simp⟩
  obtain ⟨k, l, rfl, hl, horigin⟩ := Parts.mem_originsFrom.1 hc
  obtain ⟨sites, d, s, loc, hroute, hloc, hcode, hlinks⟩ := hleads l (List.mem_of_getElem? hl) c horigin
  have hfiles : c.toList.map (·.file) = Route.files sites d := by
    simp [hlinks, Route.files, hloc.file, Function.comp_def]
  refine ⟨sites, d, s, loc, hroute, hloc, ⟨_, l.text, _, l.code, Nat.add_right_comm _ 1 k, ?_, l.toList_text, hcode⟩,
    hlinks, ?_, fun i site target hsite => ?_⟩
  · rw [hlines, Parts.lines, List.getElem?_append_right (Nat.le_add_right _ _), Nat.add_sub_cancel_left,
      List.getElem?_map, hl]
    rfl
  · simpa [Chain.toList, Chain.length] using congrArg List.length hlinks
  · obtain ⟨file, hfile, hreach⟩ := hroute.next hsite
    rw [← hfiles, List.getElem?_map, Option.map_eq_some_iff] at hfile
    obtain ⟨link, hlink, rfl⟩ := hfile
    exact ⟨link, hlink, hreach⟩

section Home

open Dependency

def home : Path := ⟨true, ["home"]⟩

/-- A page in a third template. -/
def homeAroundPage : Files.Tree :=
  ⟨(home.parts, .file "\x7b% include 'page' %\x7d".toUTF8) :: pageOnBase.entries⟩

/-- The one line of the home template, as it is read. -/
def includesPage : Segment :=
  ⟨⟨0, "_jt_out.append(_jt_rt.include('/page'))", some (.single ⟨home, some 1⟩)⟩, some ⟨.include_ outputBuffer, page⟩⟩

/-- That of the page. -/
def extendsBase : Segment :=
  ⟨⟨0, "_jt_rt.extends('/base')", some (.single ⟨page, some 1⟩)⟩, some ⟨.extends_, base⟩⟩

/-- That of the base. -/
def writesX : Segment := ⟨⟨0, "_jt_out.append('x')", some (.single ⟨base, some 1⟩)⟩, none⟩

/-- A template without context that is read as one segment. -/
def asSource (t : Path) (s : Segment) : Source := ⟨t, .ok ⟨[], [s]⟩, []⟩

/-- A template as a source, from the lines of its unit. -/
theorem exists_source (tree : Files.Tree) (t : Path) (p : Parts Location) (names : List String) (r : Reading)
    (hunit : (compile noExtensions everywhere tree t root).toOption.map (fun v => (v.source, v.sourceMap, v.reads)) =
      some (p.source, p.sourceMap, names))
    (hread : (readChars root (p.lines.flatMap fun l => l.toList ++ ['\n']) p.sourceMap).toOption.map id = some r) :
    ∃ v, compile noExtensions everywhere tree t root = .ok v ∧ v.template = t ∧ Source.ofUnit v = ⟨t, .ok r, names⟩ := by
  obtain ⟨v, hv, hparts⟩ := of_toOption_map hunit
  have htemplate : v.template = t := template_of_compile hv
  refine ⟨v, hv, htemplate, ?_⟩
  simp only [Prod.mk.injEq] at hparts
  obtain ⟨hsource, hmap, hreads⟩ := hparts
  rw [← readChars_file v.file] at hread
  obtain ⟨r, hr, rfl⟩ := of_toOption_map hread
  rw [Source.ofUnit, read, hsource, hmap, p.toList_source, hr, htemplate, hreads]
  rfl

theorem exists_unit {p : Parts Location} (text : String)
    (hunit : (compile noExtensions everywhere homeAroundPage t root).toOption.map
      (fun v => (v.source, v.sourceMap, v.reads)) = some (p.source, p.sourceMap, []))
    (hread : (readChars root (p.lines.flatMap fun l => l.toList ++ ['\n']) p.sourceMap).toOption.map id =
      some ⟨[], [s]⟩)
    (hline : Unbroken t.text) (hsource : (homeAroundPage.readText t).toOption = some text) (hnames : Unreserved text) :
    ∃ v, v.template = t ∧ OfPlain v ∧ Source.ofUnit v = asSource t s := by
  obtain ⟨v, hv, htemplate, hofUnit⟩ := exists_source _ _ p [] _ hunit hread
  refine ⟨v, htemplate, ⟨_, _, _, _, htemplate ▸ hv, htemplate ▸ hline, fun source hfound => ?_⟩, hofUnit⟩
  rw [htemplate] at hfound
  rw [hfound] at hsource
  exact Option.some.inj hsource ▸ hnames

theorem flatten_templates (units : List CompiledUnit) (directory : Path) : Shared.flatten units directory =
    ((((sourcesOf units).map (·.template)).mapM fun t =>
      ExceptT.mk (orError <$> (Shared.flattenUnit (sourcesOf units) directory t).run)).run []).1 := by
  rw [sourcesOf, List.map_map, List.mapM_map]
  rfl

/-- The line `x` of the base stands in the page that extends it, and in what includes the page. -/
theorem flatten_home : ∃ units outcomes u, (∀ v ∈ units, OfPlain v) ∧ Shared.flatten units root = .ok outcomes ∧
    .ok u ∈ outcomes ∧ (18, ⟨⟨home, some 1⟩, [⟨base, some 1⟩]⟩) ∈ u.sourceMap := by
  obtain ⟨h, hhome, hplainHome, hh⟩ := exists_unit (t := home)
    (p := ⟨Compile.titleOf home, [], [], [⟨0, "_jt_out.append(_jt_rt.include('/page'))", some ⟨home, some 1⟩⟩]⟩)
    (s := includesPage) "\x7b% include 'page' %\x7d" (by decide +kernel) (by decide +kernel)
    (by decide +kernel) (by decide +kernel) (by decide +kernel)
  obtain ⟨p, hpage, hplainPage, hp⟩ := exists_unit (t := page)
    (p := ⟨Compile.titleOf page, [], [], [⟨0, "_jt_rt.extends('/base')", some ⟨page, some 1⟩⟩]⟩)
    (s := extendsBase) "\x7b% extends 'base' %\x7d" (by decide +kernel) (by decide +kernel)
    (by decide +kernel) (by decide +kernel) (by decide +kernel)
  obtain ⟨b, hbase, hplainBase, hb⟩ := exists_unit (t := base) (p := basePage) (s := writesX) "x"
    (by decide +kernel) (by decide +kernel) (by decide +kernel) (by decide +kernel) (by decide +kernel)
  have hsources : sourcesOf [h, p, b] = [asSource home includesPage, asSource page extendsBase, asSource base writesX] := by
    simp [sourcesOf, latest, hhome, hpage, hbase, hh, hp, hb, home, page, base]
  have hflatten := flatten_templates [h, p, b] root
  rw [hsources] at hflatten
  obtain ⟨outcomes, houtcomes, hfirst⟩ : ∃ outcomes, Shared.flatten [h, p, b] root = .ok outcomes ∧
      (outcomes.head?.bind Except.toOption).bind (·.sourceMap[1]?) =
        some (18, ⟨⟨home, some 1⟩, [⟨base, some 1⟩]⟩) := by
    rw [hflatten]
    refine of_toOption_map (f := fun outcomes : List (Except FlattenError FlattenedUnit) =>
      (outcomes.head?.bind Except.toOption).bind (·.sourceMap[1]?)) ?_
    decide +kernel
  obtain ⟨u, hu, hmem⟩ := Option.bind_eq_some_iff.1 hfirst
  obtain ⟨o, ho, hou⟩ := Option.bind_eq_some_iff.1 hu
  cases o with
  | error e => cases hou
  | ok u' =>
    cases hou
    exact ⟨[h, p, b], outcomes, u, by simp [hplainHome, hplainPage, hplainBase], houtcomes, List.mem_of_head? ho,
      List.mem_of_getElem? hmem⟩

theorem sourceMap_traced_home : ∃ units outcomes u c, Shared.flatten units root = .ok outcomes ∧ .ok u ∈ outcomes ∧
    (18, c) ∈ u.sourceMap ∧ c = ⟨⟨home, some 1⟩, [⟨base, some 1⟩]⟩ ∧
    ∃ sites d s loc, Traced units u 18 c sites d s loc := by
  obtain ⟨units, outcomes, u, hunits, hflatten, hu, hc⟩ := flatten_home
  exact ⟨units, outcomes, u, _, hflatten, hu, hc, rfl, sourceMap_traced hunits hflatten hu hc⟩

end Home

end Stencil.Flatten
