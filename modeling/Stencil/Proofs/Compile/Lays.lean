import Stencil.Proofs.Compile.Keeps
import Stencil.Proofs.Compile.LineText
import Stencil.Proofs.Flatten.Entries

/-!
Statements become lines in blocks: every header has a block below it that is one step deeper. The
directives among the lines are those of the templates that the references lead to. Output goes to a buffer that
the function of the line has opened.
-/
namespace Stencil.Compile

open Template Code Flatten

variable {α : Type} {S : Path → Prop} {n : Nat} {l : CodeLine α} {ls ms : List (CodeLine α)}
  {k : LineKind} {bs cs : List String}

/-- Lines at depth `n`, with blocks below those that are headers. What directives stand for satisfies
`S`, and what a template extends stands at the outermost level. Lines without an origin are the first and the last lines of functions. -/
inductive Lays (S : Path → Prop) : Nat → List (CodeLine α) → Prop
  | nil (n : Nat) : Lays S n []
  | line {n : Nat} {l : CodeLine α} {ls : List (CodeLine α)} (k : LineKind) (hline : IsLine k l.code)
      (hk : k ≠ .header) (hmark : ∀ d ∈ k.mark?, S d.target ∧ (d.kind = .extends_ → n = 0)) (hindent : l.indent = n)
      (horigin : l.origin = none ↔ IsBound l.code) (hls : Lays S n ls) : Lays S n (l :: ls)
  | block {n : Nat} {l : CodeLine α} {body ls : List (CodeLine α)} (hline : IsLine .header l.code)
      (hindent : l.indent = n) (horigin : l.origin = none ↔ IsBound l.code) (hbody : Lays S (n + 1) body)
      (hne : body ≠ []) (hls : Lays S n ls) : Lays S n (l :: (body ++ ls))

namespace Lays

theorem append (h : Lays S n ls) (h' : Lays S n ms) : Lays S n (ls ++ ms) := by
  induction h with
  | nil => exact h'
  | line k hline hk hmark hindent horigin hls ih => exact .line k hline hk hmark hindent horigin (ih h')
  | block hline hindent horigin hbody hne hls ihbody ih =>
    rw [List.cons_append, List.append_assoc]
    exact .block hline hindent horigin hbody hne (ih h')

/-- Every line is one line of text. -/
theorem sourced (h : Lays S n ls) : ∀ l ∈ ls, Sourced l := by
  induction h with
  | nil => simp
  | line k hline _ _ _ horigin _ ih => exact List.forall_mem_cons.2 ⟨⟨horigin, hline.unbroken⟩, ih⟩
  | block hline _ horigin _ _ _ ihbody ih =>
    exact List.forall_mem_cons.2 ⟨⟨horigin, hline.unbroken⟩, List.forall_mem_append.2 ⟨ihbody, ih⟩⟩

end Lays

/-! ### What is emitted -/

/-- Lines that are laid out at depth `n` and in order, with the buffers `bs` in reach. -/
structure Arranged (S : Path → Prop) (c : Bool) (bs : List String) (n : Nat) (ls : List (CodeLine α)) : Prop where
  lays : Lays S n ls
  orderly : Orderly c bs n ls

namespace Arranged

variable {c : Bool}

theorem nil (c : Bool) (bs : List String) (n : Nat) : Arranged S c bs n ([] : List (CodeLine α)) := ⟨.nil n, .nil c bs n⟩

theorem append (h : Arranged S c bs n ls) (h' : Arranged S false bs n ms) : Arranged S c bs n (ls ++ ms) :=
  ⟨h.lays.append h'.lays, h.orderly.append h'.orderly⟩

theorem line (os : List String) (hline : IsLine k l.code) (hk : k ≠ .header)
    (hmark : ∀ d ∈ k.mark?, S d.target ∧ (d.kind = .extends_ → n = 0)) (hindent : l.indent = n)
    (horigin : l.origin = none ↔ IsBound l.code) (hflat : opensBlock l.code = false)
    (hopens : ∀ b ∈ os, isBuffer b ∧ l.code = opened b) (hcovered : Covered (os ++ bs) l.code)
    (hls : Arranged S false (os ++ bs) n ls) : Arranged S c bs n (l :: ls) :=
  ⟨.line k hline hk hmark hindent horigin hls.lays,
    .line os hindent ⟨hflat, hline.continuesGroup hk⟩ hopens hcovered hls.orderly⟩

theorem block {body : List (CodeLine α)} (hline : IsLine .header l.code) (hindent : l.indent = n)
    (horigin : l.origin = none ↔ IsBound l.code) (hclause : continuesGroup l.code → c)
    (hcovered : Covered (inner l.code bs) l.code) (hbody : Arranged S false (inner l.code bs) (n + 1) body)
    (hne : body ≠ []) (hls : Arranged S (isCondition l.code) bs n ls) : Arranged S c bs n (l :: (body ++ ls)) :=
  ⟨.block hline hindent horigin hbody.lays hne hls.lays,
    .block hindent hline.opensBlock hclause hcovered hbody.orderly hne hls.orderly⟩

theorem statement (hline : IsLine .statement l.code) (hindent : l.indent = n) (horigin : l.origin = none ↔ IsBound l.code)
    (hflat : opensBlock l.code = false) (hcovered : Covered bs l.code) : Arranged S c bs n [l] :=
  line [] hline (by simp) (by simp [LineKind.mark?]) hindent horigin hflat (by simp) hcovered (.nil ..)

end Arranged

/-- A scope at depth `n` whose buffer is in reach. Its buffer and its block can be written as names. -/
structure Scope.At (scope : Scope) (bs : List String) (n : Nat) : Prop where
  indent : scope.indent = n
  buffer : IsMade scope.buffer
  reach : scope.buffer ∈ bs
  block : ∀ name ∈ scope.block, IsFree name
  top : scope.topLevel → n = 0

/-- The first line is not shifted. -/
def Flush (ls : List (CodeLine α)) : Prop := ∀ l ∈ ls.head?, l.code.toList.head? ≠ some ' '

/-- The functions of the blocks are laid out at the outermost level. They use buffers of their own. -/
def Laid (S : Path → Prop) (b : Builder) : Prop := ∀ d ∈ b.blocks, Arranged S false [] 0 d.2 ∧ Flush d.2

variable {u : Setting} {scope : Scope} {line : Line} {text : String} {body : Lines} {c : Bool}

/-- A line that a node of the template gives rise to has an origin. -/
theorem origin_lineAt {indent : Int} (h : ¬ IsBound text) :
    (lineAt u indent text line).origin = none ↔ IsBound (lineAt u indent text line).code :=
  iff_of_false (by simp [lineAt]) h

namespace Scope.At

theorem nested (h : scope.At bs n) : scope.nested.At bs (n + 1) where
  indent := by simp [Scope.nested, h.indent]
  buffer := h.buffer
  reach := h.reach
  block := h.block
  top := by simp [Scope.nested]

theorem function (h : scope.At bs n) : scope.function.At [outputBuffer] (n + 1) where
  indent := by simp [Scope.function, h.indent]
  buffer := isMade_outputBuffer
  reach := List.mem_singleton.2 rfl
  block := h.block
  top := by simp [Scope.function]

theorem withBuffer (h : scope.At bs n) {buffer : String} (hbuffer : IsMade buffer) :
    (scope.withBuffer buffer).At (buffer :: bs) n where
  indent := h.indent
  buffer := hbuffer
  reach := List.mem_cons_self
  block := h.block
  top := h.top

theorem ofBlock {name : String} (h : IsFree name) : (Scope.ofBlock name).At [outputBuffer] 1 where
  indent := rfl
  buffer := isMade_outputBuffer
  reach := List.mem_singleton.2 rfl
  block := by simpa [Scope.ofBlock] using h
  top := by simp [Scope.ofBlock]

theorem outermost : Scope.top.At [outputBuffer] 0 where
  indent := rfl
  buffer := isMade_outputBuffer
  reach := List.mem_singleton.2 rfl
  block := by simp [Scope.top]
  top _ := rfl

/-- More buffers may be in reach. -/
theorem wider (h : scope.At bs n) {buffer : String} : scope.At (buffer :: bs) n :=
  { h with reach := List.mem_cons_of_mem _ h.reach }

theorem emit (h : scope.At bs n) (ht : IsPlain bs text) : Arranged S c bs n [emit u scope text line] :=
  .statement ht.line h.indent (origin_lineAt ht.own) ht.flat ht.covered

/-- A header with its block, in front of other lines. -/
theorem inFront (h : scope.At bs n) (ht : IsHead c bs text) (hbody : Arranged S false bs (n + 1) body) (hne : body ≠ [])
    {ls : Lines} (hls : Arranged S (isCondition text) bs n ls) :
    Arranged S c bs n (Compile.emit u scope text line :: (body ++ ls)) := by
  have hinner : inner (Compile.emit u scope text line).code bs = bs := by simp [Flatten.inner, Compile.emit, lineAt, ht.function]
  exact .block ht.line h.indent (origin_lineAt ht.own) ht.clause (hinner.symm ▸ ht.covered) (hinner.symm ▸ hbody) hne hls

theorem header (h : scope.At bs n) (ht : IsHead c bs text) (hbody : Arranged S false bs (n + 1) body) (hne : body ≠ []) :
    Arranged S c bs n (Compile.emit u scope text line :: body) := by
  have : Arranged S c bs n (Compile.emit u scope text line :: (body ++ [])) := h.inFront ht hbody hne (.nil ..)
  rwa [List.append_nil] at this

/-- The output of a value. -/
theorem append (h : scope.At bs n) (ht : IsValue bs text) :
    Arranged S c bs n [Compile.emit u scope (Compile.append scope.buffer text) line] :=
  h.emit (isPlain_append h.buffer h.reach ht)

/-- A part of the body with a buffer of its own. -/
theorem opened (h : scope.At bs n) {m : Nat} {ls : Lines} (hls : Arranged S false (bufferName m :: bs) n ls) :
    Arranged S c bs n (Compile.emit u scope (opened (bufferName m)) line :: ls) :=
  .line [bufferName m] (isLine_opened (isMade_bufferName m)) (by simp) (by simp [LineKind.mark?]) h.indent
    (origin_lineAt (own_opened m)) (opensBlock_concat _ (c := ']') rfl (by decide)) (by simp [Compile.emit, lineAt, isBuffer_bufferName])
    (covered_opened (isMade_bufferName m).identifier (by simp)) hls

theorem suite (h : scope.At bs n) (u : Setting) (line : Line) (hbody : Arranged S false bs n body) :
    Arranged S false bs n (suiteOf u scope body line) ∧ suiteOf u scope body line ≠ [] := by
  unfold suiteOf
  split
  · exact ⟨h.emit isPlain_pass, by simp⟩
  · next hne => exact ⟨hbody, by simpa using hne⟩

end Scope.At

/-- The first line of a function, its body, and its last line. -/
theorem Arranged.bounded (h : Arranged S false [outputBuffer] n ls) :
    Arranged S false [] n (scaffold n prologue :: ls ++ [scaffold n epilogue] : List (CodeLine α)) := by
  have hname : Text.isIdentifier outputBuffer.toList := isMade_outputBuffer.identifier
  have hclose : Arranged S false [outputBuffer] n [(scaffold n epilogue : CodeLine α)] := by
    refine .statement isLine_epilogue rfl (sourced_bound _ (.inr rfl)).origin (by decide : opensBlock epilogue = false) ?_
    have hreturn := uses_keyword (w := "return") (by decide) (uses_joined (.name hname fun _ => List.mem_singleton.2 rfl : Uses [outputBuffer] outputBuffer))
    have htext : epilogue = "return" ++ " " ++ joined outputBuffer := by decide
    exact htext ▸ hreturn.covered
  exact .line [outputBuffer] (isLine_opened isMade_outputBuffer) (by simp) (by simp [LineKind.mark?]) rfl
    (sourced_bound _ (.inl rfl)).origin (by decide : opensBlock prologue = false) (by simp [scaffold, prologue, opened, isBuffer])
    (covered_opened hname (by simp)) (h.append hclose)

theorem arranged_functionOf (bs : List String) (u : Setting) (line : Line) {name params : String}
    (hheader : IsLine .header (functionHeader name params)) (hcovered : Covered [] (functionHeader name params))
    (hbody : Arranged S false [outputBuffer] (n + 1) body) :
    Arranged S false bs n (functionOf u n (functionHeader name params) line body) := by
  have hinner : inner (lineAt u n (functionHeader name params) line).code bs = [] := by
    simp [Flatten.inner, lineAt, isFunction_functionHeader]
  have hclause : ¬ continuesGroup (functionHeader name params) := by simp [continuesGroup_functionHeader]
  have hfunction : Arranged S false bs n (_ :: (_ ++ [])) := .block hheader rfl
    (origin_lineAt (own_header (by simp))) (fun h => (hclause h).elim) (hinner.symm ▸ hcovered)
    (hinner.symm ▸ hbody.bounded) (by simp) (.nil ..)
  rwa [List.append_nil] at hfunction

/-! ### Statements -/

theorem laid_freshNumber : Keeps (Laid S) freshNumber fun _ => True := by
  refine Keeps.get.bind fun b hb => Keeps.bind (Keeps.set ?_) fun _ _ => Keeps.pure trivial
  exact hb

theorem laid_openBlock {name : String} : Keeps (Laid S) (openBlock name line) fun _ => True := by
  refine Keeps.get.bind fun b hb => Keeps.ite (fun _ => Keeps.stops) fun _ => Keeps.set ?_
  exact List.forall_mem_append.2 ⟨hb, by simpa [Flush] using Arranged.nil false [] 0⟩

theorem laid_closeBlock {name : String} (h : Arranged S false [] 0 body ∧ Flush body) :
    Keeps (Laid S) (closeBlock name body) fun _ => True := by
  refine Keeps.modify fun b hb d hd => ?_
  obtain ⟨e, he, rfl⟩ := List.mem_map.1 hd
  split
  · exact h
  · exact hb e he

variable {P : Builder → Prop}

theorem isValue_compiled (h : scope.At bs n) {e : Expr} (hw : e.Worded IsFree false) :
    Keeps P (compiled scope e) (IsValue bs) :=
  Keeps.ofResult fun s hs => ⟨(isPhrase_expr h.block none (by simp [Given]) false e hw s hs).2 rfl,
    uses_expr h.block none (by simp [Given]) false e hw s hs⟩

theorem isTarget_assigned (bs : List String) {slices : Bool} {e : Expr} (hw : e.Worded IsFree slices) :
    Keeps P (assigned e) fun t => IsTarget t ∧ Uses bs t :=
  Keeps.ofResult fun s hs => ⟨isTarget_target slices e hw s hs, uses_target e hw s hs⟩

theorem isValue_loopTarget (bs : List String) {slices : Bool} {e : Expr} (hw : e.Worded IsFree slices) :
    Keeps P (loopTarget e) (IsValue bs) := by
  refine (Keeps.ofResult (R := fun s => target e = .ok s) fun s hs => hs).bind fun s hs => ?_
  have hphrase := isPhrase_looped e hw hs
  have huses : Uses bs s := uses_target e hw s hs
  cases e
  case tuple => exact Keeps.pure ⟨hphrase, huses.parens⟩
  all_goals exact Keeps.pure ⟨hphrase, huses⟩

theorem isValue_joined {buffer : String} (hbuffer : IsMade buffer) (hb : buffer ∈ bs) : IsValue bs (joined buffer) :=
  ⟨isPhrase_joined hbuffer, uses_joined (.name hbuffer.identifier fun _ => hb)⟩

theorem isValue_captured (cs : List String) (h : scope.At bs n) {buffer : String} (hbuffer : IsMade buffer) (hb : buffer ∈ cs)
    {filter : Option Expr} (hw : wordedOption IsFree filter) : Keeps P (captured scope buffer filter) (IsValue cs) := by
  have hjoined := isValue_joined hbuffer hb
  cases filter with
  | none => exact Keeps.pure hjoined
  | some e =>
    refine Keeps.ofResult fun s hs => ⟨?_, ?_⟩
    · exact (isPhrase_expr h.block (some (joined buffer)) (by simpa [Given] using hjoined.phrase) false e hw s hs).2 rfl
    · exact uses_expr h.block (some (joined buffer)) (by simpa [Given] using hjoined.uses) false e hw s hs

theorem isValue_defaults (bs : List String) {defaults : List Expr} (hw : wordedAll IsFree false defaults) :
    Keeps P (ofResult (defaultTexts defaults)) fun ts => ∀ t ∈ ts, IsValue bs t := by
  refine Keeps.ofResult fun ts hts => ?_
  induction defaults generalizing ts with
  | nil =>
    cases hts
    simp
  | cons e es ih =>
    rw [defaultTexts] at hts
    obtain ⟨t, ht, hts⟩ := bind_eq_ok.1 hts
    obtain ⟨us, hus, hts⟩ := bind_eq_ok.1 hts
    cases hts
    have hphrase := (isPhrase_expr (by simp) none (by simp [Given]) false e hw.1 t ht).2 rfl
    have huses : Uses bs t := uses_expr (by simp) none (by simp [Given]) false e hw.1 t ht
    exact List.forall_mem_cons.2 ⟨⟨hphrase, huses⟩, ih hw.2 us hus⟩

theorem isValue_shown (h : IsValue bs text) : IsValue bs (shown text) := ⟨isPhrase_shown h.phrase, uses_shown h.uses⟩

theorem isValue_importText (h : IsValue bs text) : IsValue bs (importText text) :=
  ⟨isPhrase_importText h.phrase, uses_importText h.uses⟩

theorem arranged_outputLines (h : scope.At bs n) {nodes : List Expr} (hw : wordedAll IsFree false nodes) :
    Keeps P (outputLines u scope nodes) (Arranged S false bs n) := by
  induction nodes with
  | nil => exact Keeps.pure (.nil ..)
  | cons e es ih =>
    have hvalue : Keeps P (compiled scope e >>= fun value =>
        pure [emit u scope (append scope.buffer (shown value)) e.line]) (Arranged S false bs n) :=
      (isValue_compiled h hw.1).bind fun _ ht => Keeps.pure (h.append (isValue_shown ht))
    have hline : Keeps P (outputLine u scope e) (Arranged S false bs n) := by
      cases e
      case data line text =>
        exact Keeps.ite (fun _ => Keeps.pure (.nil ..)) fun _ =>
          Keeps.pure (h.append ⟨isPhrase_quote _, .quote text⟩)
      all_goals exact hvalue
    exact hline.bind fun _ hls => (ih hw.2).bind fun _ hms => Keeps.pure (hls.append hms)

theorem arranged_loopTest (h : scope.At bs n) {test : Option Expr} (hw : wordedOption IsFree test) :
    Keeps P (loopTest u scope line test) (Arranged S false bs n) := by
  cases test with
  | none => exact Keeps.pure (.nil ..)
  | some e =>
    refine (isValue_compiled h hw).bind fun t ht => Keeps.pure ?_
    have hcontinue : IsPlain bs "continue" := isPlain_continue
    refine h.header (isHead_unless ht false)
      (.statement hcontinue.line ?_ (origin_lineAt hcontinue.own) hcontinue.flat hcontinue.covered) (by simp)
    simp [lineAt, h.indent]

theorem arranged_assignments (h : scope.At bs n) {slices : Bool} {pairs : List (Expr × Expr)}
    (hw : ∀ e ∈ pairs, e.1.Worded IsFree slices ∧ e.2.Worded IsFree false) :
    Keeps P (assignments u scope line pairs) (Arranged S false bs n) := by
  induction pairs with
  | nil => exact Keeps.pure (.nil ..)
  | cons pair pairs ih =>
    obtain ⟨⟨htarget, hvalue⟩, hpairs⟩ := List.forall_mem_cons.1 hw
    exact (isTarget_assigned bs htarget).bind fun _ ht => (isValue_compiled h hvalue).bind fun _ hv =>
      (ih hpairs).bind fun _ hls => Keeps.pure ((h.emit (isPlain_assignment ht.1 ht.2 hv)).append hls)

/-- What the texts of paths that satisfy `S` are read as satisfies `S` too. -/
def Readable (S : Path → Prop) : Prop := ∀ p, S p → S (Path.ofString p.text)

theorem arranged_extendsLine (h : scope.At bs n) (hS : Readable S) {template : Expr}
    (hfind : LeadInto u.find S [⟨.extends_, line, template.templateNames?, false⟩]) :
    Keeps (Laid S) (extendsLine u scope template line) (Arranged S false bs n) := by
  refine Keeps.ite (fun _ => Keeps.stops) fun htop => Keeps.get.bind fun b _ =>
    Keeps.ite (fun _ => Keeps.stops) fun _ => ?_
  cases hnames : template.templateNames? with
  | none => exact Keeps.stopAt
  | some names =>
    refine (keeps_resolve (hfind.single hnames)).bind fun found hfound => ?_
    cases found with
    | none => exact Keeps.stopAt
    | some parent =>
      have hparent : S parent := hfound parent rfl
      refine (Keeps.modify fun b hb => ?_).bind fun _ _ => Keeps.pure ?_
      · exact hb
      have hmark : ∀ d ∈ (LineKind.directive ⟨.extends_, Path.ofString parent.text⟩).mark?,
          S d.target ∧ (d.kind = .extends_ → n = 0) := by
        simpa [LineKind.mark?] using ⟨hS parent hparent, h.top (by simpa using htop)⟩
      exact .line [] (isLine_extends parent.text) (by simp) hmark h.indent (origin_lineAt (own_extends _))
        (opensBlock_concat _ (c := ')') rfl (by decide)) (by simp) (covered_extends parent.text) (.nil ..)

theorem arranged_includeLine (h : scope.At bs n) (hS : Readable S) {template : Expr} {ignoreMissing : Bool}
    (hw : template.Worded IsFree false)
    (hfind : LeadInto u.find S [⟨.include_, line, template.templateNames?, ignoreMissing⟩]) :
    Keeps (Laid S) (includeLine u scope template ignoreMissing line) (Arranged S false bs n) := by
  unfold includeLine
  cases hnames : template.templateNames? with
  | none =>
    refine (isValue_compiled h hw).bind fun target ht => Keeps.pure (h.append ⟨?_, ?_⟩)
    · exact isPhrase_runtime (s := "include_dynamic") (by decide) (by decide) ht.phrase
    · exact uses_runtime (s := "include_dynamic") (by decide) ht.uses
  | some names =>
    refine (keeps_resolve (hfind.single hnames)).bind fun found hfound => ?_
    cases found with
    | none => exact Keeps.pure (.nil ..)
    | some included =>
      have hincluded : S included := hfound included rfl
      refine (Keeps.modify fun b hb => ?_).bind fun _ _ => Keeps.pure ?_
      · exact hb
      have hmark : ∀ d ∈ (LineKind.directive ⟨.include_ scope.buffer, Path.ofString included.text⟩).mark?,
          S d.target ∧ (d.kind = .extends_ → n = 0) := by
        simpa [LineKind.mark?] using hS included hincluded
      have hcall : Uses bs ("_jt_rt.include(" ++ Text.quote included.text ++ ")") :=
        uses_runtime (s := "include") (by decide) (.quote _)
      exact .line [] (isLine_include included.text h.buffer) (by simp) hmark h.indent
        (origin_lineAt (own_append _ _)) (opensBlock_concat _ (c := ')') rfl (by decide)) (by simp)
        (uses_append (.name h.buffer.identifier fun _ => h.reach) hcall).covered (.nil ..)

theorem arranged_importLines (h : scope.At bs n) {names : List (String × String)} (ht : IsValue bs text)
    (hw : ∀ m ∈ names, IsFree m.1 ∧ IsFree m.2) : Arranged S false bs n (importLines u scope text line names) := by
  induction names with
  | nil => exact .nil ..
  | cons m names ih =>
    obtain ⟨⟨hname, htarget⟩, hnames⟩ := List.forall_mem_cons.1 hw
    have hvalue : IsValue bs (importText text ++ "." ++ m.1) :=
      ⟨(isPhrase_importText ht.phrase).member hname.1, (uses_importText ht.uses).glue hname.uses List.mem_cons_self⟩
    have hplain := isPlain_assignment (isPhrase_identifier' htarget).target (uses_identifier htarget) hvalue
    rw [importLines, List.map_cons]
    rw [← String.append_assoc, ← String.append_assoc] at hplain
    exact (h.emit hplain).append (ih hnames)

mutual

/-- A statement is laid out at the depth of its scope. -/
theorem arranged_statement (hS : Readable S) (u : Setting) (scope : Scope) (bs : List String) (n : Nat) (h : scope.At bs n)
    (s : Stmt) (hw : s.Worded IsFree) (hfind : LeadInto u.find S s.references) :
    Keeps (Laid S) (statement u scope s) (Arranged S false bs n) := by
  cases s with
  | output line nodes => exact arranged_outputLines h hw
  | extends_ line template => exact arranged_extendsLine h hS hfind
  | for_ line target source body otherwise test isRecursive =>
    obtain ⟨htarget, hsource, hwbody, hwotherwise, htest⟩ := hw
    obtain ⟨hbody, hotherwise⟩ := LeadInto.append.1 hfind
    refine (isValue_compiled h hsource).bind fun s hs => (isValue_loopTarget bs htarget).bind fun t ht =>
      (arranged_loopTest (S := S) h.nested htest).bind fun test htest =>
      (arranged_statements hS u _ _ _ h.nested body hwbody hbody).bind fun body hbody => ?_
    obtain ⟨hsuite, hne⟩ := h.nested.suite u line hbody
    have hhead : Arranged S false bs n
        (emit u scope (loopHeader t s) line :: test ++ suiteOf u scope.nested body line) :=
      h.header (isHead_loop ht hs false) (htest.append hsuite) (by simp [hne])
    refine Keeps.ite (fun _ => Keeps.pure hhead) fun _ => ?_
    refine (arranged_statements hS u _ _ _ h.nested otherwise hwotherwise hotherwise).bind fun ls hls => Keeps.pure ?_
    obtain ⟨hsuite, hne⟩ := h.nested.suite u line hls
    exact hhead.append (h.header (isHead_empty hs false) hsuite hne)
  | if_ line test body branches otherwise =>
    obtain ⟨htest, hwbody, hwbranches, hwotherwise⟩ := hw
    obtain ⟨hfirst, hotherwise⟩ := LeadInto.append.1 hfind
    obtain ⟨hbody, hbranches⟩ := LeadInto.append.1 hfirst
    refine (isValue_compiled h htest).bind fun t ht =>
      (arranged_statements hS u _ _ _ h.nested body hwbody hbody).bind fun body hbody =>
      (arranged_elifs hS u scope bs n h branches hwbranches hbranches).bind fun ls hls =>
      (arranged_statements hS u _ _ _ h.nested otherwise hwotherwise hotherwise).bind fun last hlast => ?_
    obtain ⟨hsuite, hne⟩ := h.nested.suite u line hbody
    have hif {rest : Lines} (hrest : Arranged S true bs n rest) : Arranged S false bs n
        (emit u scope ("if " ++ t ++ ":") line :: suiteOf u scope.nested body line ++ rest) :=
      h.inFront (isHead_if ht false) hsuite hne (by rwa [isCondition_if])
    cases otherwise with
    | nil =>
      have hhead := hif (hls [] (.nil ..))
      rw [List.append_nil] at hhead
      exact Keeps.pure hhead
    | cons first otherwise =>
      obtain ⟨hlast, hne⟩ := h.nested.suite u line hlast
      have helse : Arranged S true bs n (emit u scope "else:" first.line :: suiteOf u scope.nested last line) :=
        h.header isHead_else hlast hne
      have hhead := hif (hls _ helse)
      rw [← List.append_assoc] at hhead
      exact Keeps.pure hhead
  | macro_ line id params defaults body =>
    obtain ⟨hid, hparams, hdefaults, hwbody⟩ := hw
    refine (isValue_defaults [] hdefaults).bind fun values hvalues =>
      (arranged_statements hS u _ _ _ h.function body hwbody hfind).bind fun ls hls => Keeps.pure ?_
    rw [h.indent]
    exact arranged_functionOf bs u line
      (isLine_functionHeader (isPhrase_identifier' hid) (isPiece_parameters hparams fun t ht => (hvalues t ht).phrase))
      (covered_functionHeader (uses_identifier hid) (uses_parameters hparams fun t ht => (hvalues t ht).uses)) hls
  | callBlock line call params defaults body =>
    obtain ⟨hcall, hparams, hdefaults, hwbody⟩ := hw
    refine laid_freshNumber.bind fun m _ => (isValue_defaults [] hdefaults).bind fun values hvalues =>
      (arranged_statements hS u _ _ _ h.function body hwbody hfind).bind fun ls hls => ?_
    have hcaller := (isMade_callerName m).isPhrase
    have hargument : IsPiece ("caller" ++ "=" ++ callerName m) :=
      isPiece_named ⟨by decide, by decide⟩ (by decide) hcaller
    have hextra : ∀ t ∈ ["caller=" ++ callerName m], IsPiece t := by simpa using hargument
    have hname (cs : List String) : Uses cs (callerName m) := uses_callerName m
    have hextraUses : ∀ t ∈ ["caller=" ++ callerName m], Uses bs t := by
      simpa using (Uses.word (s := "caller") (by decide)).glue (hname bs) (g := "=") (by simp [Grouping.marks])
    refine (Keeps.ofResult (R := IsValue bs) fun t ht => ⟨isPhrase_callWith h.block hextra hcall ht,
      uses_callWith h.block hextraUses call hcall ht⟩).bind fun t ht => Keeps.pure ?_
    rw [h.indent]
    exact (arranged_functionOf bs u line
      (isLine_functionHeader hcaller (isPiece_parameters hparams fun t ht => (hvalues t ht).phrase))
      (covered_functionHeader (hname []) (uses_parameters hparams fun t ht => (hvalues t ht).uses)) hls).append
      (h.append (isValue_shown ht))
  | filterBlock line body filter =>
    obtain ⟨hwbody, hfilter⟩ := hw
    replace hfilter : wordedOption IsFree (some filter) := hfilter
    refine laid_freshNumber.bind fun m _ =>
      (isValue_captured (bufferName m :: bs) h (isMade_bufferName m) List.mem_cons_self hfilter).bind fun t ht =>
      (arranged_statements hS u _ _ _ (h.withBuffer (isMade_bufferName m)) body hwbody hfind).bind fun ls hls =>
      Keeps.pure ?_
    exact h.opened (hls.append (h.wider.append ht))
  | with_ line targets values body =>
    obtain ⟨htargets, hvalues, hwbody⟩ := hw
    have hpairs : ∀ e ∈ targets.zip values, e.1.Worded IsFree false ∧ e.2.Worded IsFree false := fun e he =>
      ⟨wordedAll_iff.1 htargets _ (List.of_mem_zip he).1, wordedAll_iff.1 hvalues _ (List.of_mem_zip he).2⟩
    exact (arranged_assignments h hpairs).bind fun ls hls =>
      (arranged_statements hS u scope bs n h body hwbody hfind).bind fun ms hms => Keeps.pure (hls.append hms)
  | block line id body isScoped required =>
    obtain ⟨hid, hwbody⟩ := hw
    refine laid_openBlock.bind fun _ _ =>
      (arranged_statements hS u _ _ _ (.ofBlock hid) body hwbody hfind).bind fun ls hls => ?_
    have hname := isPhrase_blockFunction hid.1 0
    have hfunction := arranged_functionOf [] u line (isLine_functionHeader hname (.inl rfl))
      (covered_functionHeader (uses_blockFunction hid.1 0) .empty) hls
    have hflush : Flush (functionOf u 0 (functionHeader (blockFunction id 0) "") line ls) := by
      simp [Flush, functionOf, functionHeader, lineAt]
    refine (laid_closeBlock ⟨hfunction, hflush⟩).bind fun _ _ => Keeps.pure ?_
    have hcall : Uses bs (blockFunction id 0 ++ "()") := by
      simpa only [String.append_assoc, show "(" ++ ("" ++ ")") = "()" from rfl] using
        (uses_blockFunction hid.1 0).called .empty
    exact h.append ⟨hname.called, hcall⟩
  | include_ line template withContext ignoreMissing => exact arranged_includeLine h hS hw hfind
  | import_ line template target withContext =>
    have htarget := (isPhrase_identifier' hw.2).target
    exact (isValue_compiled h hw.1).bind fun t ht =>
      Keeps.pure (h.emit (isPlain_assignment htarget (uses_identifier hw.2) (isValue_importText ht)))
  | fromImport line template names withContext =>
    exact (isValue_compiled h hw.1).bind fun t ht => Keeps.pure (arranged_importLines h ht hw.2)
  | exprStmt line value => exact (isValue_compiled h hw).bind fun t ht => Keeps.pure (h.emit (isPlain_value ht))
  | assign line target value => exact arranged_assignments h (List.forall_mem_singleton.2 hw)
  | assignBlock line target filter body =>
    obtain ⟨htarget, hfilter, hwbody⟩ := hw
    refine laid_freshNumber.bind fun m _ =>
      (isValue_captured (bufferName m :: bs) h (isMade_bufferName m) List.mem_cons_self hfilter).bind fun v hv =>
      (isTarget_assigned (bufferName m :: bs) htarget).bind fun t ht =>
      (arranged_statements hS u _ _ _ (h.withBuffer (isMade_bufferName m)) body hwbody hfind).bind fun ls hls =>
      Keeps.pure ?_
    exact h.opened (hls.append (h.wider.emit (isPlain_assignment ht.1 ht.2 hv)))
  | scope line body => exact arranged_statements hS u scope bs n h body hw hfind
  | scopedOptions line options body => exact arranged_statements hS u scope bs n h body hw.2 hfind
  | options => exact Keeps.pure (.nil ..)
  | continue_ => exact Keeps.pure (h.emit isPlain_continue)
  | break_ => exact Keeps.pure (h.emit isPlain_break)
  | other line kind => exact Keeps.stopAt
termination_by structural s

theorem arranged_statements (hS : Readable S) (u : Setting) (scope : Scope) (bs : List String) (n : Nat)
    (h : scope.At bs n) (ss : List Stmt) (hw : wordedBody IsFree ss) (hfind : LeadInto u.find S (referencesAll ss)) :
    Keeps (Laid S) (statements u scope ss) (Arranged S false bs n) := by
  cases ss with
  | nil => exact Keeps.pure (.nil ..)
  | cons s ss =>
    obtain ⟨hs, hss⟩ := LeadInto.append.1 hfind
    exact (arranged_statement hS u scope bs n h s hw.1 hs).bind fun _ hls =>
      (arranged_statements hS u scope bs n h ss hw.2 hss).bind fun _ hms => Keeps.pure (hls.append hms)
termination_by structural ss

/-- The branches of a condition stand in front of others, or of what else goes on with it. -/
theorem arranged_elifs (hS : Readable S) (u : Setting) (scope : Scope) (bs : List String) (n : Nat) (h : scope.At bs n)
    (es : List Branch) (hw : wordedBranches IsFree es) (hfind : LeadInto u.find S (branchReferences es)) :
    Keeps (Laid S) (elifs u scope es) fun ls => ∀ rest, Arranged S true bs n rest → Arranged S true bs n (ls ++ rest) := by
  cases es with
  | nil => exact Keeps.pure fun rest hrest => hrest
  | cons e es =>
    obtain ⟨he, hes⟩ := LeadInto.append.1 hfind
    refine (arranged_elif hS u scope bs n h e hw.1 he).bind fun _ hls =>
      (arranged_elifs hS u scope bs n h es hw.2 hes).bind fun _ hms => Keeps.pure fun rest hrest => ?_
    rw [List.append_assoc]
    exact hls _ (hms rest hrest)
termination_by structural es

theorem arranged_elif (hS : Readable S) (u : Setting) (scope : Scope) (bs : List String) (n : Nat) (h : scope.At bs n)
    (e : Branch) (hw : e.Worded IsFree) (hfind : LeadInto u.find S e.references) :
    Keeps (Laid S) (elif u scope e) fun ls => ∀ rest, Arranged S true bs n rest → Arranged S true bs n (ls ++ rest) := by
  cases e with
  | mk line test body =>
    refine (isValue_compiled h hw.1).bind fun t ht =>
      (arranged_statements hS u _ _ _ h.nested body hw.2 hfind).bind fun ls hls => Keeps.pure fun rest hrest => ?_
    obtain ⟨hsuite, hne⟩ := h.nested.suite u line hls
    exact h.inFront (isHead_elif ht) hsuite hne (by rwa [isCondition_elif])
termination_by structural e

end

end Stencil.Compile
