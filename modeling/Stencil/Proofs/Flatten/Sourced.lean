import Stencil.Proofs.Compile.LineText
import Stencil.Proofs.Compile.ReadBack
import Stencil.Proofs.Flatten.Invariant

/-!
Lines without an origin in composites. Moving and renaming leaves a line its origin, and what is written
for an inclusion has the origin of the directive, but for the two bounds of its function. What is read in the module
of a compiled unit has origins as the lines of the unit have them.
-/
namespace Stencil.Flatten
open Code Compile Text

variable {α : Type} {l site : CodeLine Chain} {ls : Lines} {name : String} {c : Composite} {sources : List Source}

/-! ### Lines -/

theorem sourced_mapCode {f : String → String} (h : Sourced l) (hbound : IsBound (f l.code) ↔ IsBound l.code)
    (hunbroken : Unbroken (f l.code)) : Sourced (mapCode f l) :=
  ⟨h.origin.trans hbound.symm, hunbroken⟩

theorem sourced_wrapLine (h : Sourced l) (site : Option Chain) (levels : Int) : Sourced (wrapLine site levels l) :=
  ⟨Option.map_eq_none_iff.trans h.origin, h.unbroken⟩

/-! ### Names of blocks -/

/-- Where nothing is replaced, all stays as it was. -/
theorem replaceAtWords_spec (old new : List Char) (fuel : Nat) (inWord : Bool) (cs : List Char) :
    replaceAtWords old new fuel inWord cs = cs ∨
      (∀ c ∈ old, c ∈ cs) ∧ (∀ c ∈ new, c ∈ replaceAtWords old new fuel inWord cs) ∧
        ∀ c ∈ replaceAtWords old new fuel inWord cs, c ∈ new ∨ c ∈ cs := by
  fun_induction replaceAtWords old new fuel inWord cs with
  | case1 => exact .inl rfl
  | case2 => exact .inl rfl
  | case3 inWord fuel c cs hreplace ih =>
    have hstarts : old <+: c :: cs := by simp_all
    refine .inr ⟨fun x hx => hstarts.subset hx, fun x hx => List.mem_append_left _ hx, fun x hx => ?_⟩
    obtain hx | hx := List.mem_append.1 hx
    · exact .inl hx
    · obtain heq | ⟨-, -, hresult⟩ := ih
      · exact .inr (List.mem_of_mem_drop (heq ▸ hx))
      · exact (hresult x hx).imp_right List.mem_of_mem_drop
  | case4 inWord fuel c cs hkeep ih =>
    obtain heq | ⟨hold, hnew, hresult⟩ := ih
    · exact .inl (by rw [heq])
    · refine .inr ⟨fun x hx => List.mem_cons_of_mem _ (hold x hx), fun x hx => List.mem_cons_of_mem _ (hnew x hx),
        List.forall_mem_cons.2 ⟨.inr List.mem_cons_self, fun x hx => ?_⟩⟩
      exact (hresult x hx).imp_right (List.mem_cons_of_mem _)

theorem mem_call (level : Nat) {c : Char} (h : c ∈ name.toList) : c ∈ call (blockFunction name level) := by
  simp [call, blockFunction, h]

/-- The names of a block's functions have a letter that is in neither of the bounds. -/
theorem stem_mem_call (name : String) (level : Nat) : 'k' ∈ call (blockFunction name level) := by
  simp [call, blockFunction, blockStem]

theorem unbroken_blockFunction (h : Unbroken name) (level : Nat) : Unbroken (blockFunction name level) := by
  have hsuffixes : Unbroken (superSuffixes level) := by
    induction level with
    | zero => exact (by decide : Unbroken "")
    | succ level ih => exact ih.append (by decide)
  exact ((by decide : Unbroken blockStem).append h).append hsuffixes

theorem unbroken_call (h : Unbroken name) (level : Nat) :
    ∀ c ∈ call (blockFunction name level), isLineBreak c = false :=
  (unbroken_blockFunction h level).append (by decide : Unbroken "(")

theorem sourced_renameHeader (h : Sourced l) (name : String) (level : Nat) :
    Sourced (mapCode (renameHeader name level) l) := by
  have hcode : renameHeader name level l.code = l.code ∨
      "def ".toList ++ call (blockFunction name 0) <+: l.code.toList ∧
        (renameHeader name level l.code).toList = "def ".toList ++ call (blockFunction name level) ++
          l.code.toList.drop ("def ".toList ++ call (blockFunction name 0)).length := by
    unfold renameHeader
    dsimp only
    split
    · next hstarts => exact .inr ⟨List.isPrefixOf_iff_prefix.1 hstarts, String.toList_ofList⟩
    · exact .inl rfl
  obtain hcode | ⟨hstarts, hcode⟩ := hcode
  · exact sourced_mapCode h (by rw [hcode]) (by rw [hcode]; exact h.unbroken)
  · have hname : Unbroken name := fun c hc =>
      h.unbroken c (hstarts.subset (List.mem_append_right _ (mem_call 0 hc)))
    refine sourced_mapCode h (iff_of_false (own_header ?_) (own_header (hstarts.subset (by simp)))) ?_
    · rw [hcode]
      simp
    · unfold Unbroken
      rw [hcode]
      simp only [List.forall_mem_append]
      exact ⟨⟨(by decide : Unbroken "def "), unbroken_call hname level⟩,
        fun c hc => h.unbroken c (List.mem_of_mem_drop hc)⟩

theorem sourced_renameCalls (h : Sourced l) (name : String) (level : Nat) :
    Sourced (mapCode (renameCalls name level) l) := by
  have hforeign : 'k' ∉ ' ' :: (prologue.toList ++ epilogue.toList) := by decide
  have htext : (renameCalls name level l.code).toList = replaceAtWords (call (blockFunction name 1))
      (call (blockFunction name (level + 1))) (l.code.length + 1) false l.code.toList := String.toList_ofList
  obtain heq | ⟨hold, hnew, hresult⟩ := replaceAtWords_spec (call (blockFunction name 1))
    (call (blockFunction name (level + 1))) (l.code.length + 1) false l.code.toList
  · have hcode : renameCalls name level l.code = l.code := String.toList_inj.1 (htext.trans heq)
    exact sourced_mapCode h (by rw [hcode]) (by rw [hcode]; exact h.unbroken)
  · rw [← htext] at hnew hresult
    have hname : Unbroken name := fun c hc => h.unbroken c (hold c (mem_call 1 hc))
    refine sourced_mapCode h (iff_of_false (not_isBound_of_mem (hnew 'k' (stem_mem_call _ _)) hforeign)
      (not_isBound_of_mem (hold 'k' (stem_mem_call _ _)) hforeign)) fun c hc => ?_
    exact (hresult c hc).elim (unbroken_call hname _ c) (h.unbroken c)

/-! ### Composites -/

/-- A segment has an origin unless it bounds a function, which no directive does. -/
structure Segment.Sourced (s : Segment) : Prop where
  line : Code.Sourced s.line
  site : ∀ d, s.directive = some d → s.line.origin ≠ none
  buffer : ∀ buffer p, s.directive = some ⟨.include_ buffer, p⟩ → Unbroken buffer

structure Source.Sourced (s : Source) : Prop where
  segments : ∀ r, s.reading = .ok r → ∀ segment ∈ r.segments, segment.Sourced
  context : ∀ v ∈ s.context, Unbroken v

/-- All lines of a composite have origins but those that bound a function. -/
structure Composite.Sourced (c : Composite) : Prop where
  definitions : ∀ d ∈ c.definitions, ∀ ls ∈ d.2, ∀ l ∈ ls, Code.Sourced l
  body : ∀ l ∈ c.body, Code.Sourced l
  context : ∀ v ∈ c.context, Unbroken v

theorem Composite.Sourced.emitted (h : c.Sourced) : ∀ l ∈ emitDefinitions c.definitions, Code.Sourced l :=
  forall_mem_emitDefinitions (fun hl block level => ⟨sourced_renameHeader hl block level, sourced_renameCalls hl block level⟩)
    h.definitions

theorem unbroken_includeFunction (n : Nat) : Unbroken (includeFunction n) := by
  have hmade := isMade_numbered (s := "_jt_include_") (by decide) (by decide) (by decide) n
  intro x hx
  exact isLineBreak_of_continue (continue_of_mem_identifier hmade.identifier x hx)

/-- That lines have origins unless they bound a function, and names stand in one line, is kept by composing. -/
theorem composes_sourced (hsources : ∀ s ∈ sources, s.Sourced) :
    Composes sources (fun _ => Code.Sourced) fun _ => Unbroken := by
  have hreads {t : Path} {s : Segment} (hs : SegmentOf sources t s) : s.Sourced := by
    obtain ⟨source, r, hsource, hr, hmem⟩ := hs
    exact (hsources source (mem_of_sourceOf hsource).1).segments r hr s hmem
  refine {
    own := fun hs _ => (hreads hs).line
    bound := fun _ _ _ => sourced_bound _
    function := fun {t s buffer d} hs hd number => ?_
    included := fun _ _ hl _ => sourced_wrapLine hl _ _
    extended := fun _ hl => hl
    renamed := fun hl block level => ⟨sourced_renameHeader hl block level, sourced_renameCalls hl block level⟩
    names := fun hsource => (hsources _ (mem_of_sourceOf hsource).1).context
    needed := fun _ hv => hv }
  obtain ⟨o, ho⟩ := Option.ne_none_iff_exists'.1 ((hreads hs).site _ hd)
  have hfunction := unbroken_includeFunction number
  have hheader : Unbroken (functionHeader (includeFunction number) "") :=
    ((((by decide : Unbroken "def ").append hfunction).append (by decide)).append (by decide)).append (by decide)
  have happend : Unbroken (Compile.append buffer (includeFunction number ++ "()")) :=
    ((((hreads hs).buffer buffer d hd).append (by decide)).append (hfunction.append (by decide))).append (by decide)
  exact ⟨.of_origin ho (own_header (by simp [functionHeader])) hheader, .of_origin ho (own_append _ _) happend⟩

/-- What is flattened is made of a sound composite of one of the units. -/
theorem flatten_sourced {units : List CompiledUnit} {directory : Path} {u : FlattenedUnit}
    {outcomes : List (Except FlattenError FlattenedUnit)} (hunits : ∀ u ∈ units, (Source.ofUnit u).Sourced)
    (h : Shared.flatten units directory = .ok outcomes) (hu : .ok u ∈ outcomes) :
    ∃ v ∈ units, ∃ c, c.Sourced ∧ u = unitOf directory v.template c := by
  have hsources : ∀ s ∈ sourcesOf units, s.Sourced :=
    List.forall_mem_map.2 fun v hv => hunits v (mem_of_mem_latest hv)
  obtain ⟨v, hv, c, hc, hmade⟩ := flatten_has (composes_sourced hsources) h hu
  exact ⟨v, hv, c, ⟨hc.definitions, hc.body, hc.context⟩, hmade⟩

end Stencil.Flatten

namespace Stencil.Compile
open Template Code Flatten Text Atom

variable {unit : CompiledUnit} {p : Parts Location} {es : List Entry} {S : Path → Prop} {k : Nat} {d : Directive}
  {template : Path} {s v : String}
  {l : CodeLine Location} {e : Entry}

theorem unbroken_of_isFree (h : IsFree v) : Unbroken v := fun c hc =>
  isLineBreak_of_continue (continue_of_mem_identifier h.1 c hc)

theorem unbroken_declaration {type : String} (hv : Unbroken v) (htype : Unbroken type) :
    Unbroken (declaration v type) := by
  have hidentifier : Unbroken (identifier v) := by
    unfold identifier
    split
    · exact hv.append (by decide)
    · exact hv
  exact (hidentifier.append (by decide)).append htype

theorem unbroken_titleOf (h : Unbroken template.text) : Unbroken (titleOf template) :=
  ((by decide : Unbroken "Generated by jinjastan from ").append h).append (by decide)

/-- The line of a directive has a letter that is in neither of the bounds. -/
theorem own_directive (he : e.Valid) (hmark : e.kind.mark? = some d) (hs : s.toList = e.row.chars) : ¬ IsBound s := by
  obtain ⟨depth, shift, kind, parts⟩ := e
  have hlined := he.lined
  have hcall (name : String) (c : Char) (hc : c ∈ name.toList) (as : List Atom) (hname : member name.toList ∈ as)
      (hparts : parts = as) : c ∈ s.toList := by
    rw [hs, Entry.row, Row.chars, hparts]
    exact List.mem_append_right _ (List.mem_flatMap.2 ⟨_, hname, List.mem_cons_of_mem _ hc⟩)
  cases hlined with
  | statement | header => cases hmark
  | @directive d path hd =>
    obtain ⟨kind, target⟩ := d
    cases kind with
    | extends_ => exact not_isBound_of_mem (hcall "extends" 'x' (by decide) _ (by simp) rfl) (by decide)
    | include_ => exact not_isBound_of_mem (hcall "include" 'c' (by decide) _ (by simp) rfl) (by decide)

/-- The buffer of an inclusion is a name. -/
theorem unbroken_buffer {buffer : String} {target : Path} (he : e.Valid)
    (hmark : e.kind.mark? = some ⟨.include_ buffer, target⟩) : Unbroken buffer := by
  obtain ⟨depth, shift, kind, parts⟩ := e
  have hlined := he.lined
  cases hlined with
  | statement | header => cases hmark
  | @directive d path hd =>
    obtain ⟨hidentifier, -⟩ := hd.buffer buffer (congrArg Directive.kind (Option.some.inj hmark))
    exact fun c hc => isLineBreak_of_continue (continue_of_mem_identifier hidentifier c hc)

/-- A row of the function, without its indentation, has an origin unless it bounds a function. -/
theorem sourced_row {line : CodeLine Chain} (hl : Sourced l) (hcode : line.code.toList = l.text.toList.dropWhile (· == ' '))
    (horigin : line.origin = l.origin.map Chain.single) : Sourced line := by
  refine ⟨?_, fun c hc => unbroken_text hl.unbroken c ?_⟩
  · rw [horigin, Option.map_eq_none_iff, hl.origin, isBound_of_dropWhile hcode, isBound_text]
  · exact (List.dropWhile_sublist _).subset (hcode ▸ hc)

theorem HasModule.sourced (h : HasModule S unit p es) (hlines : Unbroken unit.template.text) :
    (Source.ofUnit unit).Sourced := by
  have hstatements := h.lays.sourced
  have hunbroken : ∀ s ∈ p.lines, Unbroken s := by
    refine Parts.unbroken_lines (h.title ▸ unbroken_titleOf hlines) ?_ fun l hl => (hstatements l hl).unbroken
    rw [h.context]
    exact List.forall_mem_map.2 fun v hv => unbroken_declaration (unbroken_of_isFree (h.reads v hv)) (by decide)
  have hnewline : '\n' ∉ unit.template.text.toList := fun hmem => absurd (hlines _ hmem) (by decide)
  refine ⟨fun r hr => h.segments hnewline hr fun found hfound k segs hsegs segment hsegment => ?_, fun v hv =>
    unbroken_of_isFree (h.reads v hv)⟩
  obtain ⟨text, htext, hcode, horigin, hdirective⟩ := segment_spec hsegs hsegment
  -- the row is the line with the same number
  rw [h.source, Parts.lines_source hunbroken, List.getElem?_toArray, Parts.lines,
    List.getElem?_append_right (Nat.le_add_right _ _), Nat.add_sub_cancel_left, List.getElem?_map,
    Option.map_eq_some_iff] at htext
  obtain ⟨l, hl, rfl⟩ := htext
  have hlookup : unit.sourceMap.lookup (p.head.length + k + 1) = l.origin := by
    rw [h.sourceMap, Parts.sourceMap, Nat.add_right_comm, Parts.lookup_originsFrom, hl]
    rfl
  have hline : Sourced segment.line :=
    sourced_row (hstatements l (List.mem_of_getElem? hl)) hcode (by rw [horigin, hlookup])
  -- a line with a directive is an entry of the page that is marked
  have hmarked (d : Directive) (hd : segment.directive = some d) :
      ∃ e : Entry, e.Valid ∧ e.kind.mark? = some d ∧ l.text.toList = e.row.chars := by
    obtain ⟨e, he, hmark⟩ := hfound k d (hdirective ▸ hd)
    have hrow := congrArg (·[k]?) h.entries.rows
    simp only [List.getElem?_map, hl, he, Option.map_some, Option.some.injEq] at hrow
    exact ⟨e, h.entries.valid e (List.mem_of_getElem? he), hmark, hrow⟩
  refine ⟨hline, fun d hd hnone => ?_, fun buffer target hd => ?_⟩
  · obtain ⟨e, he, hmark, htext⟩ := hmarked d hd
    exact own_directive he hmark htext ((isBound_of_dropWhile hcode).1 (hline.origin.1 hnone))
  · obtain ⟨e, he, hmark, -⟩ := hmarked _ hd
    exact unbroken_buffer he hmark

end Stencil.Compile
