import Stencil.Proofs.Compile.Lays
import Stencil.Proofs.Flatten.Module

/-!
Compiled units read back. The module of a unit consists of rows above a function and of that
function's lines, so what the directives in it stand for are templates that the unit's own template
refers to.
-/
namespace Stencil.Compile

open Template Code Flatten

variable {α : Type} {S : Path → Prop} {n : Nat} {l : CodeLine α} {ls ms : List (CodeLine α)}
  {es : List Entry} {s : String}

/-! ### The lines of the function -/

/-- An entry with the depth and the text of a line. -/
structure IsEntry (l : CodeLine α) (e : Entry) : Prop where
  indent : l.indent + 1 = e.depth
  code : l.code.toList = List.replicate e.shift ' ' ++ Atom.spell e.parts

theorem IsEntry.row {e : Entry} (h : IsEntry l e) : l.text.toList = e.row.chars := by
  have hdepth : (l.indent + 1).toNat = e.depth := by
    have := h.indent
    omega
  rw [l.toList_text, hdepth, h.code, Entry.row, Row.chars, List.replicate_add, List.append_assoc]

/-- The lines of a function, from depth `n` on, as entries of a page. -/
structure AreEntries (S : Path → Prop) (n : Nat) (ls : List (CodeLine α)) (es : List Entry) : Prop where
  lines : List.Forall₂ IsEntry ls es
  valid : ∀ e ∈ es, e.Valid
  marks : ∀ e ∈ es, ∀ d ∈ e.kind.mark?, S d.target ∧ (d.kind = .extends_ → e.depth = 1)
  depth : ∀ e ∈ es.head?, e.depth = n + 1
  nested : ∀ {rest : List Entry}, Nested rest → (∀ e ∈ rest.head?, e.depth ≤ n + 1) → Nested (es ++ rest)

theorem AreEntries.rows (h : AreEntries S n ls es) :
    ls.map (fun l => l.text.toList) = es.map fun e => e.row.chars := by
  have hlines := h.lines
  clear h
  induction hlines with
  | nil => rfl
  | cons hl _ ih => rw [List.map_cons, List.map_cons, ih, hl.row]

theorem AreEntries.head_append (h : AreEntries S n ls es) {rest : List Entry}
    (hrest : ∀ e ∈ rest.head?, e.depth ≤ n + 1) : ∀ e ∈ (es ++ rest).head?, e.depth ≤ n + 1 := by
  cases es with
  | nil => exact hrest
  | cons e es =>
    intro f hf
    exact (h.depth f hf).le

/-- A line is an entry. -/
theorem entry_of_isLine {k : LineKind} (hline : IsLine k l.code) (hindent : l.indent = n) :
    ∃ e : Entry, e.Valid ∧ e.kind = k ∧ e.depth = n + 1 ∧ IsEntry l e := by
  obtain ⟨shift, as, hlined, hshift, hcode⟩ := hline
  exact ⟨⟨n + 1, shift, k, as⟩, ⟨hlined, hshift⟩, rfl, rfl, by simp [hindent], hcode⟩

theorem Lays.entries (h : Lays S n ls) : ∃ es, AreEntries S n ls es := by
  induction h with
  | nil n => exact ⟨[], .nil, by simp, by simp, by simp, fun h _ => h⟩
  | @line n l ls k hline hk hmark hindent _ _ ih =>
    obtain ⟨es, hes⟩ := ih
    obtain ⟨e, hvalid, rfl, hdepth, hentry⟩ := entry_of_isLine hline hindent
    refine ⟨e :: es, .cons hentry hes.lines, List.forall_mem_cons.2 ⟨hvalid, hes.valid⟩,
      List.forall_mem_cons.2 ⟨fun d hd => ⟨(hmark d hd).1, fun hkind => ?_⟩, hes.marks⟩, by simpa using hdepth,
      fun hrest hhead => ⟨?_, hes.nested hrest hhead⟩⟩
    · rw [hdepth, (hmark d hd).2 hkind]
    · rw [if_neg hk, hdepth]
      exact hes.head_append hhead
  | @block n l body ls hline hindent _ _ hne _ ihbody ih =>
    obtain ⟨bs, hbs⟩ := ihbody
    obtain ⟨es, hes⟩ := ih
    obtain ⟨e, hvalid, hkind, hdepth, hentry⟩ := entry_of_isLine hline hindent
    have hmark : ∀ d ∈ e.kind.mark?, S d.target ∧ (d.kind = .extends_ → e.depth = 1) := by simp [hkind, LineKind.mark?]
    obtain ⟨b, bs, rfl⟩ : ∃ b bs', bs = b :: bs' := by
      refine List.exists_cons_of_ne_nil fun hnil => hne ?_
      have hlines := hbs.lines
      rw [hnil] at hlines
      exact List.forall₂_nil_right_iff.1 hlines
    refine ⟨e :: (b :: bs ++ es), .cons hentry (List.rel_append hbs.lines hes.lines), ?_, ?_, by simpa using hdepth,
      fun hrest hhead => ⟨?_, ?_⟩⟩
    · exact List.forall_mem_cons.2 ⟨hvalid, List.forall_mem_append.2 ⟨hbs.valid, hes.valid⟩⟩
    · exact List.forall_mem_cons.2 ⟨hmark, List.forall_mem_append.2 ⟨hbs.marks, hes.marks⟩⟩
    · rw [if_pos hkind, hdepth]
      exact ⟨b, rfl, hbs.depth b rfl⟩
    · have hnested := hbs.nested (hes.nested hrest hhead) fun f hf =>
        (hes.head_append hhead f hf).trans (Nat.le_succ _)
      rwa [← List.append_assoc] at hnested

theorem nested_of_areEntries (h : AreEntries S n ls es) : Nested es := by
  have hnested : Nested (es ++ []) := h.nested True.intro (by simp)
  rwa [List.append_nil] at hnested

/-! ### The rows above the function -/

/-- A line that is a comment, in the form of a row. -/
def commentRow (s : String) : Row := .comment (s.toList.drop 1)

def headerRows : List Row := [
  .code 0 (spaced ["from", "__future__", "import", "annotations"]),
  .blank,
  .code 0 (spaced ["import", "typing"]),
  .blank,
  .code 0 (spaced ["from", "jinjastan_runtime", "import", "filters", "as", "_jt_filters"]),
  .code 0 (spaced ["from", "jinjastan_runtime", "import", "runtime", "as", "_jt_rt"]),
  .code 0 (spaced ["from", "jinjastan_runtime", "import", "tests", "as", "_jt_tests"]),
  .blank]

/-- The rows above the function of a module. -/
def headRows (title : String) (context : List String) : List Row :=
  commentRow ("# " ++ title) :: headerRows ++ commentRow contextStart ::
    context.map (fun v => .code 0 (declarationParts (identifier v).toList)) ++
    [commentRow contextEnd, .blank, .blank]

theorem headRow_headerRows : ∀ row ∈ headerRows, HeadRow row := by
  have hfrom (m x y : String) (h : Text.isIdentifier m.toList ∧ Text.isIdentifier x.toList ∧
      Text.isIdentifier y.toList) (hm : m ≠ "." ∧ m ≠ "...") (hx : x ≠ "*" ∧ x ≠ "(") :
      HeadRow (.code 0 (spaced ["from", m, "import", x, "as", y])) :=
    .code (simpleRow_from_as ⟨h.1, hm⟩ ⟨h.2.1, hx⟩ h.2.2)
  simp only [headerRows, List.forall_mem_cons]
  refine ⟨.code (simpleRow_from (by decide) (by decide)), .blank, .code (simpleRow_import (by decide)), .blank,
    hfrom _ _ _ (by decide) (by decide) (by decide), hfrom _ _ _ (by decide) (by decide) (by decide),
    hfrom _ _ _ (by decide) (by decide) (by decide), .blank, by simp⟩

/-- A variable that a template reads is declared in a row of its own. -/
theorem headRow_declaration (h : IsFree s) : HeadRow (.code 0 (declarationParts (identifier s).toList)) := by
  obtain ⟨hfree, hkeyword⟩ := h.identifier
  have hword {xs : List String} (hxs : (xs.all fun x => isKeyword x || !Text.isIdentifier x.toList) = true) :
      identifier s ∉ xs := fun hmem => by
    have hx := List.all_eq_true.1 hxs _ hmem
    simp [hkeyword, hfree.1] at hx
  refine .code (simpleRow_declaration hfree.1 ?_ ?_)
  · rw [String.ofList_toList, Grammar.isHard, hkeyword, Bool.false_and, Bool.false_and]
  · rw [String.ofList_toList]
    exact ⟨hword (by decide), hword (by decide), hword (by decide)⟩

theorem headRow_headRows {title : String} {context : List String} (htitle : '\n' ∉ title.toList)
    (hcontext : ∀ v ∈ context, IsFree v) : ∀ row ∈ headRows title context, HeadRow row := by
  have htext : '\n' ∉ ("# " ++ title).toList.drop 1 := by simpa using htitle
  simp only [headRows, List.forall_mem_append, List.forall_mem_cons, List.forall_mem_map, List.cons_append]
  have hdeclarations := fun v hv => headRow_declaration (hcontext v hv)
  exact ⟨.comment htext, ⟨headRow_headerRows, .comment (by decide), hdeclarations⟩, .comment (by decide), .blank,
    .blank, by simp⟩

theorem toList_declaration (s : String) :
    (declaration s anyType).toList = (Row.code 0 (declarationParts (identifier s).toList)).chars := by
  simp [declaration, anyType, declarationParts, Row.chars, Atom.spell_cons, Atom.chars]

/-- The lines above the function and the line of the function as rows. -/
theorem head_toList {p : Parts α} {context : List String} (h : p.context = context.map (declaration · anyType)) :
    p.head.map String.toList = (headRows p.title context).map Row.chars ++ [(Row.code 0 renderParts).chars] := by
  have himports : headerRows.map Row.chars = headerImports.map String.toList := by decide
  have hcontext : p.context.map String.toList =
      (context.map fun v => Row.code 0 (declarationParts (identifier v).toList)).map Row.chars := by
    rw [h, List.map_map, List.map_map]
    exact List.map_congr_left fun v _ => toList_declaration v
  simp only [Parts.head, headRows, List.map_append, List.map_cons, List.map_nil, himports, hcontext]
  simp [commentRow, Row.chars, contextStart, contextEnd, renderParts, renderFunction, Atom.spell_cons, Atom.chars]

/-! ### The module -/

theorem toList_source {p : Parts α} {rows : List Row} (h : p.lines.map String.toList = rows.map Row.chars) :
    p.source.toList = Row.text rows := by
  rw [p.toList_source, Row.text]
  have hrows := congrArg (List.flatMap (· ++ ['\n'])) h
  rwa [List.flatMap_map, List.flatMap_map] at hrows

variable {u : Setting} {template directory : Path} {find : Text.Points → Except Miss Path} {d : Document}
  {b : Builder} {body : Lines} {unit : CompiledUnit}

/-- The names that a template reads are names of its source. -/
theorem contextVariables_worded {q : String → Prop} (hw : wordedBody q d.body) : ∀ v ∈ contextVariables d, q v := by
  intro v hv
  simp only [contextVariables, List.mem_mergeSort, List.mem_eraseDups, List.mem_filter, List.mem_filterMap,
    Option.ite_none_left_eq_some] at hv
  obtain ⟨⟨m, hm, -, hid⟩, -⟩ := hv
  rw [← Option.some.inj hid]
  exact bodyMentions_worded d.body hw m hm

theorem flush_append (h : Flush ls) (h' : Flush ms) : Flush (ls ++ ms) := by
  cases ls with
  | nil => exact h'
  | cons l ls => exact h

theorem arranged_flatMap {blocks : List (String × Lines)} (h : ∀ d ∈ blocks, Arranged S false [] 0 d.2 ∧ Flush d.2) :
    Arranged S false [] 0 (blocks.flatMap (·.2)) ∧ Flush (blocks.flatMap (·.2)) := by
  induction blocks with
  | nil => exact ⟨.nil .., by simp [Flush]⟩
  | cons d ds ih =>
    obtain ⟨hd, hds⟩ := List.forall_mem_cons.1 h
    obtain ⟨harranged, hflush⟩ := ih hds
    exact ⟨hd.1.append harranged, flush_append hd.2 hflush⟩

/-- The statements of a unit's function. -/
theorem arranged_statementsOf {p : Parts Location}
    (hdefinitions : Arranged S false [] 0 p.definitions ∧ Flush p.definitions)
    (hbody : Arranged S false [outputBuffer] 0 p.body) :
    Arranged S false [] 0 p.statements ∧ Flush p.statements ∧ p.statements ≠ [] := by
  refine ⟨?_, ?_, by simp [Parts.statements]⟩
  · have harranged := hdefinitions.1.append hbody.bounded
    simpa [Parts.statements] using harranged
  · have hflush : Flush (scaffold 0 prologue :: p.body ++ [scaffold 0 epilogue] : Lines) := by
      simp [Flush, scaffold, prologue, outputBuffer]
    have hall := flush_append hdefinitions.2 hflush
    simpa [Parts.statements] using hall

/-- A module as rows. -/
theorem source_toList {p : Parts α} {context : List String} (h : p.context = context.map (declaration · anyType))
    (hes : AreEntries S 0 p.statements es) :
    p.source.toList = Row.text (headRows p.title context ++ .code 0 renderParts :: es.map Entry.row) := by
  refine toList_source ?_
  have hstatements : (p.statements.map CodeLine.text).map String.toList = (es.map Entry.row).map Row.chars := by
    rw [List.map_map, List.map_map]
    exact hes.rows
  rw [Parts.lines, List.map_append, head_toList h, hstatements, List.map_append, List.map_cons, List.append_assoc,
    List.singleton_append]

/-- What stands at the start of a function is not shifted. -/
theorem AreEntries.first (h : AreEntries S n ls es) (hflush : Flush ls) (hne : ls ≠ []) :
    ∃ e ∈ es.head?, e.depth = n + 1 ∧ e.shift = 0 := by
  obtain ⟨l, ls, rfl⟩ := List.exists_cons_of_ne_nil hne
  cases es with
  | nil => cases h.lines
  | cons e es =>
    refine ⟨e, rfl, h.depth e rfl, ?_⟩
    have hcode := (List.forall₂_cons.1 h.lines).1.code
    cases hshift : e.shift with
    | zero => rfl
    | succ k =>
      rw [hshift, List.replicate_succ, List.cons_append] at hcode
      exact absurd (congrArg List.head? hcode) (hflush l rfl)

theorem newline_titleOf (h : '\n' ∉ template.text.toList) : '\n' ∉ (titleOf template).toList := by
  have htitle : titleOf template = "Generated by jinjastan from " ++ template.text ++ ". Do not edit." := rfl
  rw [htitle, String.toList_append, String.toList_append, List.mem_append, List.mem_append, not_or, not_or]
  exact ⟨⟨by decide, h⟩, by decide⟩

/-- A unit has this module, whose statements are these lines. -/
structure HasModule (S : Path → Prop) (unit : CompiledUnit) (p : Parts Location) (es : List Entry) : Prop where
  source : unit.source = p.source
  sourceMap : unit.sourceMap = p.sourceMap
  title : p.title = titleOf unit.template
  context : p.context = unit.reads.map (declaration · anyType)
  reads : ∀ v ∈ unit.reads, IsFree v
  lays : Lays S 0 p.statements
  orderly : Orderly false [] 0 p.statements
  entries : AreEntries S 0 p.statements es
  first : ∃ e ∈ es.head?, e.depth = 1 ∧ e.shift = 0

/-- The module of a unit is made of the rows of its lines. -/
theorem exists_module (hw : wordedBody IsFree d.body) (hreadable : Readable S)
    (hS : ∀ n ∈ d.names, ∀ p, find n = .ok p → S p) (h : ofDocument template directory find d = .ok unit) :
    unit.template = template ∧ ∃ p es, HasModule S unit p es := by
  unfold ofDocument at h
  split at h
  case h_2 | h_3 | h_4 => cases h
  case h_1 body b hrun =>
    obtain rfl := Except.ok.inj h
    obtain ⟨hlaid, hbody⟩ := arranged_statements hreadable ⟨template, find⟩ Scope.top _ 0 .outermost d.body hw
      (fun r hr n hn p hp => hS n (List.mem_flatMap.2 ⟨r, hr, hn⟩) p hp) (by simp [Laid, Builder.empty]) hrun
    let p : Parts Location := {
      title := titleOf template
      context := (contextVariables d).map (declaration · anyType)
      definitions := b.blocks.flatMap (·.2)
      body }
    obtain ⟨harranged, hflush, hne⟩ := arranged_statementsOf (p := p) (arranged_flatMap hlaid) hbody
    obtain ⟨es, hes⟩ := harranged.lays.entries
    exact ⟨rfl, p, es, rfl, rfl, rfl, rfl, contextVariables_worded hw, harranged.lays, harranged.orderly, hes,
      hes.first hflush hne⟩

namespace HasModule

variable {p : Parts Location} {file : Path} {r : Reading}

/-- What holds of the lines of a unit's function holds of all that is read in its module. -/
theorem segments {P : Segment → Prop} (h : HasModule S unit p es) (hlines : '\n' ∉ unit.template.text.toList)
    (hread : read file unit.source unit.sourceMap = .ok r)
    (hrow : ∀ found : Found,
      (∀ k d, found.lookup (p.head.length + k) = some d → ∃ e, es[k]? = some e ∧ e.kind.mark? = some d) →
      ∀ k segs, segment (Text.lines unit.source).toArray unit.sourceMap found (p.head.length + k) = .ok segs →
        ∀ s ∈ segs, P s) : ∀ s ∈ r.segments, P s := by
  have hhead : (headRows p.title unit.reads).length + 1 = p.head.length := by
    have := congrArg List.length (head_toList h.context)
    simpa using this.symm
  refine segments_of_read (h.source ▸ source_toList h.context h.entries)
    (headRow_headRows (h.title ▸ newline_titleOf hlines) h.reads) h.entries.valid (nested_of_areEntries h.entries)
    h.first hread ?_
  rw [hhead]
  exact hrow

end HasModule

/-- A directive in the module of a unit stands for a template that a name in the document leads to. -/
theorem directive_of_ofDocument {file : Path} {r : Reading} {segment : Segment} {directive : Directive}
    (hlines : '\n' ∉ template.text.toList) (hw : wordedBody IsFree d.body)
    (hreadable : Readable fun p => ∃ n ∈ d.names, find n = .ok p)
    (h : ofDocument template directory find d = .ok unit)
    (hread : read file unit.source unit.sourceMap = .ok r) (hsegment : segment ∈ r.segments)
    (hd : segment.directive = some directive) : ∃ n ∈ d.names, find n = .ok directive.target := by
  obtain ⟨rfl, p, es, hmodule⟩ := exists_module hw hreadable (fun n hn p hp => ⟨n, hn, hp⟩) h
  refine hmodule.segments (P := fun s => ∀ d', s.directive = some d' → ∃ n ∈ d.names, find n = .ok d'.target)
    hlines hread (fun found hfound k segs hsegs s hs d' hd' => ?_) segment hsegment directive hd
  obtain ⟨_, -, -, -, hdirective⟩ := segment_spec hsegs hs
  obtain ⟨e, he, hmark⟩ := hfound k d' (hdirective ▸ hd')
  exact (hmodule.entries.marks e (List.mem_of_getElem? he) d' hmark).1

end Stencil.Compile
