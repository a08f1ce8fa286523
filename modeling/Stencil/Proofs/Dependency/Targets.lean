import Stencil.Proofs.Compile.ReadBack
import Stencil.Proofs.Compile.Reserved
import Stencil.Proofs.Dependency.Closure
import Stencil.Proofs.Dependency.Order
import Stencil.Proofs.Flatten.Shared

/-!
The templates that compiled ones use. The compiler finds a parent and inclusions of its own; all of
them are dependencies in the graph. So if the graph can be put in order, they stand before the
template that uses them. The flattener finds directives in what the compiler wrote; these are the
compiler's unless a template brings some of its own, by a name that is kept for generated code or by a
path that breaks the comment it stands in.
-/
namespace Stencil.Dependency

open Template Compile Flatten Relation

variable {dialect : Dialect} {t : Files.Tree} {library : Library} {seed order : List Path}
  {d : Discovery} {a b directory : Path} {u : CompiledUnit} {document : Document}
  {units : List CompiledUnit}

/-- The units of those templates that can be compiled. -/
def unitsOf (dialect : Dialect) (library : Library) (t : Files.Tree) (directory : Path)
    (order : List Path) : List CompiledUnit :=
  order.filterMap fun a => (compile dialect library t a directory).toOption

/-- What a template's names lead to are its dependencies. -/
theorem mem_dependencies_of_find (h : Discovery.ofSeed dialect t library seed = .ok d)
    (ha : a ∈ d.graph.nodes) (hparse : parseFile dialect t a = .ok document) {name : Text.Points}
    (hname : name ∈ document.names) (hfind : d.library.find t name = .ok b) :
    b ∈ d.graph.dependencies a := by
  obtain ⟨hclosure, hlibrary⟩ := Discovery.ofSeed_worked h
  rw [hclosure.mem_dependencies ha]
  unfold Discovery.targets
  rw [hparse]
  refine List.mem_filterMap.2 ⟨name, hname, ?_⟩
  rw [← hlibrary, hfind]
  rfl

/-- The parent and the inclusions of a unit are dependencies of its template. -/
theorem mem_dependencies_of_unit (h : Discovery.ofSeed dialect t library seed = .ok d)
    (ha : a ∈ d.graph.nodes) (hu : compile dialect d.library t a directory = .ok u)
    (hb : u.parent = some b ∨ b ∈ u.includes) : b ∈ d.graph.dependencies a := by
  obtain ⟨document, hparse, hdocument⟩ := compile_eq_ok hu
  obtain ⟨name, hname, hfind⟩ := ofDocument_within hdocument b hb
  exact mem_dependencies_of_find h ha hparse hname hfind

theorem mem_nodes_of_mem_order (h : Discovery.ofSeed dialect t library seed = .ok d)
    (horder : d.graph.IsOrder seed order) (ha : a ∈ order) : a ∈ d.graph.nodes := by
  obtain ⟨hclosure, -⟩ := Discovery.ofSeed_worked h
  obtain hseed | hnode | ⟨c, hc⟩ := (horder.mem a).1 ha
  · rw [hclosure.nodes]
    simp [discovered, hseed]
  · exact hnode
  · exact hclosure.closed hc

/-! ### The composition of what was compiled -/

theorem template_of_compile (h : compile dialect library t a directory = .ok u) : u.template = a := by
  obtain ⟨document, -, hdocument⟩ := compile_eq_ok h
  unfold ofDocument at hdocument
  split at hdocument <;> cases hdocument
  rfl

/-- What the directives of compiled templates stand for comes from their units. -/
theorem standsFor_unitsOf (h : StandsFor (sourcesOf (unitsOf dialect library t directory order)) a b) :
    a ∈ order ∧ ∃ u r, compile dialect library t a directory = .ok u ∧
      read u.file u.source u.sourceMap = .ok r ∧
      ∃ segment ∈ r.segments, ∃ d, segment.directive = some d ∧ d.target = b := by
  obtain ⟨s, r, hs, hr, hsegment⟩ := h
  obtain ⟨hmem, rfl⟩ := mem_of_sourceOf hs
  obtain ⟨u, hu, rfl⟩ := List.mem_map.1 hmem
  obtain ⟨a, ha, hcompile⟩ := List.mem_filterMap.1 (mem_of_mem_latest hu)
  have hcompile : compile dialect library t a directory = .ok u := by
    cases hc : compile dialect library t a directory with
    | error e =>
      rw [hc] at hcompile
      cases hcompile
    | ok v =>
      rw [hc] at hcompile
      rw [Option.some.inj hcompile]
  have htemplate : (Source.ofUnit u).template = a := template_of_compile hcompile
  rw [htemplate]
  exact ⟨ha, u, r, hcompile, hr, hsegment⟩

/-- A template with a path that can stand in a line and no name that is kept for generated code. -/
structure Plain (t : Files.Tree) (a : Path) : Prop where
  path : Path.ofString a.text = a
  line : '\n' ∉ a.text.toList
  names : ∀ source, t.readText a = .ok source → Unreserved source

/-- What the directives of plain templates stand for are dependencies. -/
theorem mem_dependencies_of_standsFor (h : Discovery.ofSeed dialect t library seed = .ok d)
    (horder : d.graph.IsOrder seed order) (hplain : ∀ a ∈ order, Plain t a)
    (hstands : StandsFor (sourcesOf (unitsOf dialect d.library t directory order)) a b) :
    b ∈ d.graph.dependencies a := by
  obtain ⟨ha, u, r, hu, hread, segment, hsegment, directive, hdirective, rfl⟩ := standsFor_unitsOf hstands
  obtain ⟨document, hparse, hdocument⟩ := compile_eq_ok hu
  have hnode : a ∈ d.graph.nodes := mem_nodes_of_mem_order h horder ha
  have hdependency (p : Path) (hp : ∃ n ∈ document.names, d.library.find t n = .ok p) :
      p ∈ d.graph.dependencies a := by
    obtain ⟨n, hn, hfind⟩ := hp
    exact mem_dependencies_of_find h hnode hparse hn hfind
  refine hdependency _ (directive_of_ofDocument (hplain a ha).line (worded_of_parseFile (hplain a ha).names hparse)
    (fun p hp => ?_) hdocument hread hsegment hdirective)
  rwa [(hplain p ((horder.mem p).2 (.inr (.inr ⟨a, hdependency p hp⟩)))).path]

/-- Discovery covers what the compiler uses, and what the flattener uses of templates that are plain:
so their composition ends. -/
theorem ofSeed_covers (h : Discovery.ofSeed dialect t library seed = .ok d) (directory : Path) :
    (∀ a ∈ d.graph.nodes, ∀ u, compile dialect d.library t a directory = .ok u →
      ∀ b, u.parent = some b ∨ b ∈ u.includes → b ∈ d.graph.dependencies a) ∧
    ∀ order, d.graph.sort seed = .ok order →
      (∀ l a r u, order = l ++ a :: r → compile dialect d.library t a directory = .ok u →
        ∀ b, u.parent = some b ∨ b ∈ u.includes → b ∈ l) ∧
      ((∀ a ∈ order, Plain t a) →
        let units := unitsOf dialect d.library t directory order
        (∀ a b, StandsFor (sourcesOf units) a b → b ∈ d.graph.dependencies a) ∧
          (∀ a, ¬ TransGen (Needs (sourcesOf units)) a a) ∧ ∀ target, Ends units target) := by
  refine ⟨fun a ha u hu b hb => mem_dependencies_of_unit h ha hu hb, fun order hsort => ?_⟩
  have hcycles : d.graph.cycles = [] ∧ d.graph.order seed = order := by
    unfold Graph.sort at hsort
    split at hsort
    · next hnil => exact ⟨hnil, Except.ok.inj hsort⟩
    · cases hsort
  have hacyclic := Graph.cycles_eq_nil_iff.1 hcycles.1
  have horder : d.graph.IsOrder seed order := hcycles.2 ▸ Graph.isOrder_order hacyclic seed
  refine ⟨fun l a r u hl hu b hb => ?_, fun hplain => ?_⟩
  · have ha : a ∈ d.graph.nodes := mem_nodes_of_mem_order h horder (by simp [hl])
    exact horder.before l a r hl b (mem_dependencies_of_unit h ha hu hb)
  · intro units
    have hstands (a b : Path) (hab : StandsFor (sourcesOf units) a b) : b ∈ d.graph.dependencies a :=
      mem_dependencies_of_standsFor h horder hplain hab
    have hneeds (a : Path) (hcycle : TransGen (Needs (sourcesOf units)) a a) : False :=
      hacyclic a (TransGen.mono (fun _ _ hab => hstands _ _ (.of_needs hab)) a a hcycle)
    exact ⟨hstands, hneeds, fun target => ends_of_acyclic hneeds target⟩

/-! ### Graphs of one template and of two -/

theorem of_toOption_map {α β ε : Type} {x : Except ε α} {f : α → β} {y : β}
    (h : x.toOption.map f = some y) : ∃ r, x = .ok r ∧ f r = y := by
  cases x with
  | error e => cases h
  | ok r => exact ⟨r, rfl, Option.some.inj h⟩

theorem compile_congr {known : Library} (h : known.find t = library.find t) :
    compile dialect known t a directory = compile dialect library t a directory := by
  simp only [compile, h]

theorem followTemplate_of_references
    (h : (parseFile dialect t a).toOption.map (·.references.length) = some 0) :
    Discovery.followTemplate dialect t a d = .ok d := by
  obtain ⟨document, hparse, hreferences⟩ := of_toOption_map h
  rw [List.length_eq_zero_iff] at hreferences
  simp only [Discovery.followTemplate, hparse, hreferences]
  rfl

theorem ofSeed_single (h : (parseFile dialect t a).toOption.map (·.references.length) = some 0) :
    Discovery.ofSeed dialect t library [a] = .ok ⟨⟨[(a, [])]⟩, [], library, []⟩ := by
  change Discovery.run dialect t ⟨⟨[(a, [])]⟩, [], library, [a]⟩ = _
  rw [Discovery.run_cons rfl, followTemplate_of_references h]
  exact Discovery.run_nil rfl

/-- The search from a template that refers to none and one that refers to it. -/
theorem ofSeed_pair (hne : a ≠ b) (ha : (parseFile dialect t a).toOption.map (·.references.length) = some 0)
    (hb : (Discovery.followTemplate dialect t b ⟨⟨[(a, []), (b, [])]⟩, [], library, []⟩).toOption.map
      (fun d => (d.graph.entries, d.queue)) = some ([(a, []), (b, [a])], [])) :
    ∃ d, Discovery.ofSeed dialect t library [a, b] = .ok d ∧ d.graph = ⟨[(a, []), (b, [a])]⟩ := by
  obtain ⟨d, hd, h⟩ := of_toOption_map hb
  obtain ⟨hentries, hqueue⟩ := Prod.mk.inj h
  have hgraph : [a, b].foldl Graph.addNode (Graph.empty : Graph Path) = ⟨[(a, []), (b, [])]⟩ := by
    have : (b == a) = false := by simpa using hne.symm
    simp [Graph.addNode, Graph.hasNode, Graph.empty, List.lookup_cons, this]
  refine ⟨d, ?_, by rw [← hentries]⟩
  unfold Discovery.ofSeed
  rw [hgraph, Discovery.run_cons rfl, followTemplate_of_references ha]
  change Discovery.run dialect t ⟨⟨[(a, []), (b, [])]⟩, [], library, [b]⟩ = .ok d
  rw [Discovery.run_cons rfl, hd]
  exact Discovery.run_nil hqueue

theorem readChars_file (f g : Path) (cs : List Char) (origins : List (Nat × Location)) :
    (readChars f cs origins).toOption = (readChars g cs origins).toOption := by
  unfold readChars
  split <;> rfl

def root : Path := ⟨true, []⟩

/-- What a unit needs, read from the lines of its module. -/
theorem needs_ofUnit {p : Code.Parts Location} {bs : List Path} (hunit : (u.source, u.sourceMap) = (p.source, p.sourceMap))
    (h : (readChars root (p.lines.flatMap fun l => l.toList ++ ['\n']) p.sourceMap).toOption.map (·.needs) = some bs) :
    (Source.ofUnit u).needs? = some bs := by
  obtain ⟨hsource, hmap⟩ := Prod.mk.inj hunit
  have hlines : u.source.toList = p.lines.flatMap fun l => l.toList ++ ['\n'] := by
    rw [hsource, p.toList_source]
  rw [Source.needs?, Source.ofUnit, Flatten.read, hlines, hmap, readChars_file _ root]
  exact h

def noExtensions : Dialect := ⟨false, false⟩

def page : Path := ⟨true, ["page"]⟩

def base : Path := ⟨true, ["base"]⟩

/-- A page and the template that it extends. -/
def pageOnBase : Files.Tree :=
  ⟨[(base.parts, .file "x".toUTF8), (page.parts, .file "\x7b% extends 'base' %\x7d".toUTF8)]⟩

/-- Templates are all below the root. -/
def everywhere : Library := .ofLoader (.files ⟨[root], []⟩)

theorem plain_of_text {s : String} (hpath : Path.ofString a.text = a) (hline : '\n' ∉ a.text.toList)
    (hsource : (t.readText a).toOption.map id = some s) (h : Unreserved s) : Plain t a where
  path := hpath
  line := hline
  names := by
    intro found hfound
    obtain ⟨_, hread, rfl⟩ := of_toOption_map hsource
    rw [hread] at hfound
    cases hfound
    exact h

theorem plain_base : Plain pageOnBase base := by
  refine plain_of_text (s := "x") ?_ ?_ ?_ ?_ <;> decide +kernel

theorem plain_page : Plain pageOnBase page := by
  refine plain_of_text (s := "\x7b% extends 'base' %\x7d") ?_ ?_ ?_ ?_ <;> decide +kernel

theorem ofSeed_covers_pageOnBase : ∃ d, Discovery.ofSeed noExtensions pageOnBase everywhere [base, page] = .ok d ∧
    d.graph.sort [base, page] = .ok [base, page] ∧
    (∃ u, compile noExtensions d.library pageOnBase page root = .ok u ∧ u.parent = some base) ∧
    base ∈ d.graph.dependencies page ∧ Plain pageOnBase base ∧ Plain pageOnBase page ∧
    ∀ target, Ends (unitsOf noExtensions d.library pageOnBase root [base, page]) target := by
  obtain ⟨d, hd, hgraph⟩ : ∃ d, Discovery.ofSeed noExtensions pageOnBase everywhere [base, page] = .ok d ∧
      d.graph = ⟨[(base, []), (page, [base])]⟩ :=
    ofSeed_pair (by decide) (by decide +kernel) (by decide +kernel)
  obtain ⟨_, hsort, rfl⟩ : ∃ order, d.graph.sort [base, page] = .ok order ∧ order = [base, page] :=
    of_toOption_map (f := id) (by rw [hgraph]; decide +kernel)
  obtain ⟨u, hu, hparent⟩ : ∃ u, compile noExtensions d.library pageOnBase page root = .ok u ∧
      u.parent = some base := by
    refine of_toOption_map (f := CompiledUnit.parent) ?_
    rw [compile_congr (Discovery.ofSeed_worked hd).2]
    decide +kernel
  obtain ⟨hunits, hall⟩ := ofSeed_covers hd root
  obtain ⟨-, hplain⟩ := hall _ hsort
  refine ⟨d, hd, hsort, ⟨u, hu, hparent⟩, hunits page (by simp [hgraph, Graph.nodes]) u hu base (.inl hparent),
    plain_base, plain_page, (hplain ?_).2.2⟩
  simp only [List.forall_mem_cons, List.not_mem_nil, false_implies, implies_true, and_true]
  exact ⟨plain_base, plain_page⟩

/-! ### Names and paths that are not plain -/

/-- A template that extends itself by a name that is kept for generated code. -/
def selfExtending : Files.Tree := ⟨[(page.parts, .file "\x7b% do _jt_rt.extends('/page') %\x7d".toUTF8)]⟩

/-- A path that goes on with code of its own behind the comment that it stands in. -/
def codePath : Path := ⟨true, ["page\ndef _jt_render() -> str:\n    _jt_rt.extends('gone')\n#"]⟩

def underCodePath : Files.Tree := ⟨[(codePath.parts, .file ByteArray.empty)]⟩

/-- The graph of the one template `a` has an order, but `a` needs `b`, which is no dependency of it. -/
def Uncovered (t : Files.Tree) (a b : Path) : Prop :=
  ∃ d, Discovery.ofSeed noExtensions t (.ofLoader .absent) [a] = .ok d ∧ d.graph.sort [a] = .ok [a] ∧
    b ∉ d.graph.dependencies a ∧
    ∀ c, Needs (sourcesOf (unitsOf noExtensions d.library t root [a])) a c ↔ c = b

theorem uncovered {p : Code.Parts Location}
    (hparse : (parseFile noExtensions t a).toOption.map (·.references.length) = some 0)
    (hunit : (compile noExtensions (.ofLoader .absent) t a root).toOption.map
      (fun u => (u.source, u.sourceMap)) = some (p.source, p.sourceMap))
    (hneeds : (readChars root (p.lines.flatMap fun l => l.toList ++ ['\n']) p.sourceMap).toOption.map (·.needs) =
      some [b])
    (hsort : ((⟨[(a, [])]⟩ : Graph Path).sort [a]).toOption.map id = some [a]) : Uncovered t a b := by
  obtain ⟨u, hu, hparts⟩ := of_toOption_map hunit
  have hsource : sourceOf (sourcesOf (unitsOf noExtensions (.ofLoader .absent) t root [a])) a =
      some (.ofUnit u) := by
    have htemplate := template_of_compile hu
    simp [unitsOf, hu, Except.toOption, sourcesOf, latest, sourceOf, Source.ofUnit, htemplate]
  obtain ⟨_, hsort, rfl⟩ := of_toOption_map hsort
  refine ⟨_, ofSeed_single hparse, hsort, by simp [Graph.dependencies], fun c => ?_⟩
  rw [needs_iff hsource (needs_ofUnit hparts hneeds), List.mem_singleton]

theorem uncovered_selfExtending : Uncovered selfExtending page page := by
  refine uncovered (p := ⟨Compile.titleOf page, ["_jt_rt: typing.Any"], [],
    [⟨0, "_jt_rt.extends('/page')", some ⟨page, some 1⟩⟩]⟩) ?_ ?_ ?_ ?_ <;> decide +kernel

theorem uncovered_underCodePath : Uncovered underCodePath codePath ⟨false, ["gone"]⟩ := by
  refine uncovered (p := ⟨Compile.titleOf codePath, [], [], []⟩) ?_ ?_ ?_ ?_ <;> decide +kernel

/-- An order of the graph does not put an end to the composition of a template that names what is kept
for generated code. Nor do all templates that are needed stand in the graph if a path is not plain. -/
theorem endless_selfExtending :
    (∃ d, Discovery.ofSeed noExtensions selfExtending (.ofLoader .absent) [page] = .ok d ∧
      d.graph.sort [page] = .ok [page] ∧
      ∀ depth, composite (sourcesOf (unitsOf noExtensions d.library selfExtending root [page])) depth page =
        .error .endless) ∧
    ∃ b, Uncovered underCodePath codePath b := by
  obtain ⟨d, hd, hsort, -, hneeds⟩ := uncovered_selfExtending
  refine ⟨⟨d, hd, hsort, fun depth => ?_⟩, _, uncovered_underCodePath⟩
  refine composite_endless (p := (· = page)) (fun a ha => ?_) depth rfl
  subst ha
  exact ⟨⟨_, (hneeds _).2 rfl⟩, fun c hc => (hneeds c).1 hc⟩

end Stencil.Dependency
