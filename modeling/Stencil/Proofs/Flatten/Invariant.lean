import Stencil.Flatten.Shared
import Stencil.Proofs.Ensures
import Stencil.Proofs.Flatten.Failure

/-!
Properties of the lines and the names in composites. What holds of all that was read, and is kept where lines are
moved, renamed and called from elsewhere, holds of all composites, be they made anew or taken from the table.
-/
namespace Stencil.Flatten
open Code Compile

variable {α : Type} {sources : List Source} {line : Path → CodeLine Chain → Prop} {name : Path → String → Prop}
  {P : Path → Composite → Prop} {ls : Lines} {l : CodeLine Chain} {t : Path}

/-! ### Properties -/

/-- The segment is one of what was read of the template. -/
def SegmentOf (sources : List Source) (t : Path) (s : Segment) : Prop :=
  ∃ source r, sourceOf sources t = some source ∧ source.reading = .ok r ∧ s ∈ r.segments

/-- The template extends the other one. -/
def Extends (sources : List Source) (t parent : Path) : Prop :=
  ∃ source r, sourceOf sources t = some source ∧ source.reading = .ok r ∧ r.parent? = some parent

theorem Extends.needs {parent : Path} (h : Extends sources t parent) : Needs sources t parent := by
  obtain ⟨source, r, hsource, hr, hparent⟩ := h
  exact ⟨source, r, hsource, hr, List.mem_append_right _ (by simp [hparent])⟩

theorem SegmentOf.needs {s : Segment} {buffer : String} {d : Path} (h : SegmentOf sources t s)
    (hd : s.directive = some ⟨.include_ buffer, d⟩) : Needs sources t d := by
  obtain ⟨source, r, hsource, hr, hmem⟩ := h
  exact ⟨source, r, hsource, hr, List.mem_append_left _
    (List.mem_filterMap.2 ⟨s, hmem, by simp [Segment.included?, hd]⟩)⟩

/-- What composing keeps of the lines and the names that the templates have. -/
structure Composes (sources : List Source) (line : Path → CodeLine Chain → Prop) (name : Path → String → Prop) :
    Prop where
  own : ∀ {t s}, SegmentOf sources t s → s.directive = none → line t s.line
  bound : ∀ t indent code, code = prologue ∨ code = epilogue → line t (scaffold indent code)
  function : ∀ {t s buffer d}, SegmentOf sources t s → s.directive = some ⟨.include_ buffer, d⟩ → ∀ number,
    line t ⟨s.line.indent, functionHeader (includeFunction number) "", s.line.origin⟩ ∧
      line t ⟨s.line.indent, append buffer (includeFunction number ++ "()"), s.line.origin⟩
  included : ∀ {t s buffer d l}, SegmentOf sources t s → s.directive = some ⟨.include_ buffer, d⟩ → line d l →
    ∀ levels, line t (wrapLine s.line.origin levels l)
  extended : ∀ {t d l}, Extends sources t d → line d l → line t l
  renamed : ∀ {t l}, line t l → ∀ block level, line t (mapCode (renameHeader block level) l) ∧
    line t (mapCode (renameCalls block level) l)
  names : ∀ {t source}, sourceOf sources t = some source → ∀ v ∈ source.context, name t v
  needed : ∀ {t d v}, Needs sources t d → name d v → name t v

theorem Composes.and {line' : Path → CodeLine Chain → Prop} {name' : Path → String → Prop}
    (h : Composes sources line name) (h' : Composes sources line' name') :
    Composes sources (fun t l => line t l ∧ line' t l) fun t v => name t v ∧ name' t v where
  own hs hd := ⟨h.own hs hd, h'.own hs hd⟩
  bound t indent code hcode := ⟨h.bound t indent code hcode, h'.bound t indent code hcode⟩
  function hs hd number := ⟨⟨(h.function hs hd number).1, (h'.function hs hd number).1⟩,
    (h.function hs hd number).2, (h'.function hs hd number).2⟩
  included hs hd hl levels := ⟨h.included hs hd hl.1 levels, h'.included hs hd hl.2 levels⟩
  extended hextends hl := ⟨h.extended hextends hl.1, h'.extended hextends hl.2⟩
  renamed hl block level := ⟨⟨(h.renamed hl.1 block level).1, (h'.renamed hl.2 block level).1⟩,
    (h.renamed hl.1 block level).2, (h'.renamed hl.2 block level).2⟩
  names hsource v hv := ⟨h.names hsource v hv, h'.names hsource v hv⟩
  needed hneeds hv := ⟨h.needed hneeds hv.1, h'.needed hneeds hv.2⟩

/-- All lines and names of a composite have these properties. -/
structure Composite.Has (c : Composite) (line : CodeLine Chain → Prop) (name : String → Prop) : Prop where
  definitions : ∀ d ∈ c.definitions, ∀ ls ∈ d.2, ∀ l ∈ ls, line l
  body : ∀ l ∈ c.body, line l
  context : ∀ v ∈ c.context, name v

/-! ### Lines -/

theorem mem_groups {g : Lines} (hg : g ∈ groups ls) (hl : l ∈ g) : l ∈ ls := by
  induction ls generalizing g with
  | nil => cases hg
  | cons m ls ih =>
    rw [groups] at hg
    have hsingle (h : g = [m]) : l ∈ m :: ls := by
      rw [h, List.mem_singleton] at hl
      exact hl ▸ List.mem_cons_self
    split at hg
    · exact hsingle (List.mem_singleton.1 hg)
    · next g' gs hgroups =>
      have hrest (g : Lines) (hg : g ∈ g' :: gs) (hl : l ∈ g) : l ∈ m :: ls :=
        List.mem_cons_of_mem _ (ih (hgroups ▸ hg) hl)
      split at hg
      · split at hg
        · obtain h | h := List.mem_cons.1 hg
          · exact hsingle h
          · exact hrest g h hl
        · obtain rfl | h := List.mem_cons.1 hg
          · obtain rfl | hl := List.mem_cons.1 hl
            · exact List.mem_cons_self
            · exact hrest g' List.mem_cons_self hl
          · exact hrest g (List.mem_cons_of_mem _ h) hl
      · obtain h | h := List.mem_cons.1 hg
        · exact hsingle h
        · exact hrest g (List.mem_cons_of_mem _ h) hl

/-- A child keeps no other lines than its own. -/
theorem mem_childBody {place : Nat} (h : l ∈ childBody ls place) : l ∈ ls := by
  obtain h | h := List.mem_append.1 h
  · exact List.mem_of_mem_take h
  · obtain ⟨g, hg, hl⟩ := List.mem_flatten.1 h
    exact List.mem_of_mem_drop (mem_groups (List.mem_filter.1 hg).1 hl)

theorem mem_addNames {names more : List String} {v : String} (h : v ∈ addNames names more) : v ∈ names ∨ v ∈ more := by
  induction more generalizing names with
  | nil => exact .inl h
  | cons n more ih =>
    obtain h | h := ih h
    · dsimp only at h
      split at h
      · exact .inl h
      · exact (List.mem_append.1 h).imp_right fun h => List.mem_cons.2 (.inl (List.mem_singleton.1 h))
    · exact .inr (List.mem_cons_of_mem _ h)

theorem mem_mergeDefinitions {own inherited : List (String × List Lines)} {d : String × List Lines}
    (hd : d ∈ mergeDefinitions own inherited) (hls : ls ∈ d.2) :
    (∃ e ∈ own, ls ∈ e.2) ∨ ∃ e ∈ inherited, ls ∈ e.2 := by
  obtain hd | hd := List.mem_append.1 hd
  · obtain ⟨e, he, rfl⟩ := List.mem_map.1 hd
    obtain hls | hls := List.mem_append.1 hls
    · cases hlookup : own.lookup e.1 with
      | none => simp [hlookup] at hls
      | some chain =>
        obtain ⟨_, _, hown, -⟩ := List.lookup_eq_some_iff.1 hlookup
        exact .inl ⟨(e.1, chain), by simp [hown], by simpa [hlookup] using hls⟩
    · exact .inr ⟨e, he, hls⟩
  · exact .inl ⟨d, (List.mem_filter.1 hd).1, hls⟩

theorem forall_mem_emitChain {p : CodeLine Chain → Prop}
    (hp : ∀ {l}, p l → ∀ block level, p (mapCode (renameHeader block level) l) ∧ p (mapCode (renameCalls block level) l))
    (block : String) {level : Nat} {chain : List Lines} (h : ∀ ls ∈ chain, ∀ l ∈ ls, p l) :
    ∀ l ∈ emitChain block level chain, p l := by
  induction chain generalizing level with
  | nil => simp [emitChain]
  | cons ls chain ih =>
    obtain ⟨hls, hchain⟩ := List.forall_mem_cons.1 h
    refine List.forall_mem_append.2 ⟨?_, ih hchain⟩
    cases level with
    | zero => exact hls
    | succ level =>
      cases ls with
      | nil => simp [renameDefinition]
      | cons header ls =>
        obtain ⟨hheader, hls⟩ := List.forall_mem_cons.1 hls
        exact List.forall_mem_cons.2
          ⟨(hp hheader block _).1, List.forall_mem_map.2 fun l hl => (hp (hls l hl) block _).2⟩

theorem forall_mem_emitDefinitions {p : CodeLine Chain → Prop}
    (hp : ∀ {l}, p l → ∀ block level, p (mapCode (renameHeader block level) l) ∧ p (mapCode (renameCalls block level) l))
    {definitions : List (String × List Lines)} (h : ∀ d ∈ definitions, ∀ ls ∈ d.2, ∀ l ∈ ls, p l) :
    ∀ l ∈ emitDefinitions definitions, p l := by
  intro l hl
  obtain ⟨d, hd, hl⟩ := List.mem_flatMap.1 hl
  exact forall_mem_emitChain hp d.1 (h d hd) l hl

namespace Composes

variable (h : Composes sources line name) {c : Composite} {s : Segment} {d : Path} {buffer : String}
include h

theorem inlined (hs : SegmentOf sources t s) (hd : s.directive = some ⟨.include_ buffer, d⟩) (hc : c.Has (line d) (name d))
    (number : Nat) : ∀ l ∈ inline c s.line buffer number, line t l := by
  obtain ⟨hheader, hcall⟩ := h.function hs hd number
  have hwrap {ls : Lines} (hls : ∀ l ∈ ls, line d l) (levels : Int) : ∀ l ∈ wrap s.line.origin levels ls, line t l :=
    List.forall_mem_map.2 fun l hl => h.included hs hd (hls l hl) levels
  simp only [inline, List.forall_mem_append, List.forall_mem_singleton]
  exact ⟨⟨⟨⟨⟨hheader, hwrap (forall_mem_emitDefinitions h.renamed hc.definitions) _⟩, h.bound t _ _ (.inl rfl)⟩, hwrap hc.body _⟩, h.bound t _ _ (.inr rfl)⟩, hcall⟩

end Composes

/-! ### Composing with a table -/

/-- With composites in the table that satisfy `P`, the work leaves such ones, and its result satisfies `Q`. -/
def Brings (P : Path → Composite → Prop) (x : Shared α) (Q : α → Prop) : Prop :=
  Ensures (fun made => ∀ e ∈ made, P e.1 e.2) x (fun a made => (∀ e ∈ made, P e.1 e.2) ∧ Q a)
    fun _ made => ∀ e ∈ made, P e.1 e.2

namespace Brings

variable {β : Type} {x : Shared α} {Q Q' : α → Prop} {R : β → Prop}

theorem pure {a : α} (h : Q a) : Brings P (pure a) Q := Ensures.pure fun _ hmade => ⟨hmade, h⟩

theorem throw (f : Failure) : Brings P (throw f : Shared α) Q := Ensures.throw fun _ => id

theorem bind {f : α → Shared β} (hx : Brings P x Q) (hf : ∀ a, Q a → Brings P (f a) R) : Brings P (x >>= f) R := by
  refine Ensures.bind hx fun a made hmade => ?_
  exact hf a hmade.2 made hmade.1

theorem adapt (hx : Brings P x Q) (e : Failure → Failure) : Brings P (x.adapt e) Q := Ensures.adapt hx

theorem map {f : α → β} (hx : Brings P x Q) (h : ∀ a, Q a → R (f a)) : Brings P (f <$> x) R := by
  rw [map_eq_pure_bind]
  exact hx.bind fun a ha => pure (h a ha)

theorem imp (hx : Brings P x Q) (h : ∀ a, Q a → Q' a) : Brings P x Q' :=
  Ensures.mono hx (fun _ => id) (fun a _ hmade => ⟨hmade.1, h a hmade.2⟩) fun _ _ => id

theorem and (hx : Brings P x Q) (h : Ensures (fun _ => True) x (fun a _ => Q' a) fun _ _ => True) :
    Brings P x fun a => Q a ∧ Q' a := by
  intro made hmade
  have hx := hx made hmade
  have h := h made trivial
  split at hx <;> simp_all

theorem mapM {as : List β} {f : β → Shared α} (h : ∀ b ∈ as, Brings P (f b) Q) :
    Brings P (as.mapM f) fun results => ∀ a ∈ results, Q a := by
  induction as with
  | nil => exact pure (by simp)
  | cons b as ih =>
    obtain ⟨hb, has⟩ := List.forall_mem_cons.1 h
    rw [List.mapM_cons]
    exact hb.bind fun a ha => (ih has).bind fun results hresults => pure (List.forall_mem_cons.2 ⟨ha, hresults⟩)

/-- An error that is made a result brings nothing. -/
theorem orError {x : Shared FlattenedUnit} {Q : FlattenedUnit → Prop} (hx : Brings P x Q) :
    Brings P (ExceptT.mk (Flatten.orError <$> x.run)) fun outcome => ∀ u, outcome = .ok u → Q u := by
  intro made hmade
  have hx := hx made hmade
  have hrun : (ExceptT.mk (Flatten.orError <$> x.run)).run made = (Flatten.orError (x.run made).1, (x.run made).2) := rfl
  rw [hrun]
  split at hx
  · next heq =>
    rw [heq]
    exact ⟨hx.1, fun u hu => Except.ok.inj hu ▸ hx.2⟩
  · next f _ heq =>
    rw [heq]
    cases f with
    | error e => exact ⟨hx, nofun⟩
    | fault | endless => exact hx

theorem kept {make : Shared Composite} {template : Path} (hmake : Brings P make (P template)) :
    Brings P (Shared.kept template make) (P template) := by
  refine Ensures.bind (Ensures.get (Q := fun found made => found = made ∧ ∀ e ∈ made, P e.1 e.2)
    fun made hmade => ⟨rfl, hmade⟩) fun found => ?_
  cases hlookup : found.lookup template with
  | some c =>
    refine Ensures.pure fun made hmade => ⟨hmade.2, ?_⟩
    obtain ⟨_, _, hfound, -⟩ := List.lookup_eq_some_iff.1 hlookup
    exact hmade.2 (template, c) (by rw [← hmade.1, hfound]; simp)
  | none =>
    refine (hmake.mono (fun _ hmade => hmade.2) (fun _ _ => id) fun _ _ => id).bind fun c => ?_
    refine Ensures.bind (Ensures.modify (Q := fun _ made => (∀ e ∈ made, P e.1 e.2) ∧ P template c) fun made hmade => ?_)
      fun _ => Ensures.pure fun _ => id
    exact ⟨List.forall_mem_cons.2 ⟨hmade.2, hmade.1⟩, hmade.2⟩

end Brings

/-- The results of work, whatever is in the table. -/
def Comparison.resulting (dependency : Path → Shared Composite) : Comparison dependency dependency where
  rel _ x _ P := Ensures (fun _ => True) x (fun a _ => P a) fun _ _ => True
  pure ha := Ensures.pure fun _ _ => ha
  bind hx hf := Ensures.bind hx fun a made ha => hf a ha made trivial
  ask _ := Ensures.trivial _

section Expand

variable (h : Composes sources line name) {dependency : Path → Shared Composite}
  (hdependency : ∀ d, Brings P (dependency d) fun c => c.Has (line d) (name d))
include h hdependency

theorem expandSegment_brings {p : Progress} {s : Segment} (hls : ∀ l ∈ ls, line t l) (hp : ∀ v ∈ p.context, name t v)
    (hs : SegmentOf sources t s) : Brings P (expandSegment dependency ls p s) fun r =>
      (∀ l ∈ r.1, line t l) ∧ ∀ v ∈ r.2.context, name t v := by
  unfold expandSegment
  split
  · next hd => exact .pure ⟨List.forall_mem_append.2 ⟨hls, by simpa using h.own hs hd⟩, hp⟩
  · exact .pure ⟨hls, hp⟩
  · next buffer d hd =>
    refine (hdependency d).bind fun c hc => .pure ⟨List.forall_mem_append.2 ⟨hls, h.inlined hs hd hc _⟩, fun v hv => ?_⟩
    exact (mem_addNames hv).elim (hp v) fun hv => h.needed (hs.needs hd) (hc.context v hv)

theorem expand_brings {p : Progress} {ss : List Segment} (hls : ∀ l ∈ ls, line t l) (hp : ∀ v ∈ p.context, name t v)
    (hss : ∀ s ∈ ss, SegmentOf sources t s) : Brings P (expand dependency ls p ss) fun r =>
      (∀ l ∈ r.1, line t l) ∧ ∀ v ∈ r.2.context, name t v := by
  induction ss generalizing ls p with
  | nil => exact .pure ⟨hls, hp⟩
  | cons s ss ih =>
    obtain ⟨hs, hss⟩ := List.forall_mem_cons.1 hss
    exact (expandSegment_brings h hdependency hls hp hs).bind fun r hr => ih hr.1 hr.2 hss

theorem expandDefinitions_brings {p : Progress} {ds : List (String × List Segment)} (hp : ∀ v ∈ p.context, name t v)
    (hds : ∀ s ∈ ds.flatMap (·.2), SegmentOf sources t s) : Brings P (expandDefinitions dependency p ds) fun r =>
      (∀ d ∈ r.1, ∀ ls ∈ d.2, ∀ l ∈ ls, line t l) ∧ ∀ v ∈ r.2.context, name t v := by
  induction ds generalizing p with
  | nil => exact .pure ⟨by simp, hp⟩
  | cons d ds ih =>
    rw [List.flatMap_cons] at hds
    obtain ⟨hd, hds⟩ := List.forall_mem_append.1 hds
    refine (expand_brings h hdependency (by simp) hp hd).bind fun r hr => ?_
    refine (ih hr.2 hds).bind fun r' hr' => .pure ⟨List.forall_mem_cons.2 ⟨?_, hr'.1⟩, hr'.2⟩
    simpa using hr.1

theorem compose_brings {source : Source} {r : Reading} (hsource : sourceOf sources t = some source)
    (hr : source.reading = .ok r) :
    Brings P (compose dependency source.context r) fun c => c.Has (line t) (name t) := by
  have hreads : ∀ s ∈ r.segments, SegmentOf sources t s := fun s hs => ⟨source, r, hsource, hr, hs⟩
  obtain ⟨hdefinitions, hbody⟩ := List.forall_mem_append.1 hreads
  refine ((expandDefinitions_brings h hdependency (h.names hsource) hdefinitions).and
    ((Comparison.resulting dependency).expandDefinitions ⟨0, source.context, none⟩ r.definitions)).bind
    fun ⟨definitions, p⟩ ⟨hd, hfound⟩ => ?_
  refine ((expand_brings h hdependency (by simp) hd.2 hbody).and
    ((Comparison.resulting dependency).expand [] p r.body)).bind fun ⟨body, p'⟩ ⟨hb, hfound'⟩ => ?_
  dsimp only at hb hfound hfound' ⊢
  split
  · exact .pure ⟨hd.1, hb.1, hb.2⟩
  · next parent place hparent =>
    have hextends : Extends sources t parent := by
      refine ⟨source, r, hsource, hr, ?_⟩
      rw [hfound, ← parentAfter_append, Progress.found, hparent] at hfound'
      exact (hfound'.trans Option.or_none).symm
    refine (hdependency parent).bind fun ancestor ha => .pure ⟨fun d hmem ls hls l hl => ?_,
      List.forall_mem_append.2 ⟨fun l hl => hb.1 l (mem_childBody hl), fun l hl => h.extended hextends (ha.body l hl)⟩,
      fun v hv => (mem_addNames hv).elim (hb.2 v) fun hv => h.needed hextends.needs (ha.context v hv)⟩
    obtain ⟨e, he, hls⟩ | ⟨e, he, hls⟩ := mem_mergeDefinitions hmem hls
    · exact hd.1 e he ls hls l hl
    · exact h.extended hextends (ha.definitions e he ls hls l hl)

end Expand

/-- All composites have what composing keeps. -/
theorem composite_brings (h : Composes sources line name) (depth : Nat) (t : Path) :
    Brings (fun t c => c.Has (line t) (name t)) (Shared.composite sources depth t) fun c =>
      c.Has (line t) (name t) := by
  induction depth generalizing t with
  | zero => exact .throw _
  | succ depth ih =>
    refine .kept (P := fun t c => c.Has (line t) (name t)) ?_
    unfold composeAmong
    cases hsource : sourceOf sources t with
    | none => exact .throw _
    | some source =>
      cases hr : source.reading with
      | error f =>
        simp only [hr]
        split <;> exact .throw _
      | ok r =>
        simp only [hr]
        exact compose_brings h (fun d => (ih d).adapt _) hsource hr

/-- What is flattened is made of a composite that has what composing keeps. -/
theorem flatten_has {units : List CompiledUnit} {directory : Path} {u : FlattenedUnit}
    {outcomes : List (Except FlattenError FlattenedUnit)} (h : Composes (sourcesOf units) line name)
    (hflatten : Shared.flatten units directory = .ok outcomes) (hu : .ok u ∈ outcomes) :
    ∃ v ∈ units, ∃ c : Composite, c.Has (line v.template) (name v.template) ∧ u = unitOf directory v.template c := by
  have hone (v : CompiledUnit) (hv : v ∈ latest units) : Brings (fun t c => c.Has (line t) (name t))
      (Shared.flattenUnit (sourcesOf units) directory v.template) fun u =>
        ∃ v ∈ units, ∃ c : Composite, c.Has (line v.template) (name v.template) ∧ u = unitOf directory v.template c :=
    (composite_brings h _ v.template).map fun c hc => ⟨v, mem_of_mem_latest hv, c, hc, rfl⟩
  exact ((Brings.mapM fun v hv => (hone v hv).orError).ok (by simp) hflatten).2 _ hu u rfl

end Stencil.Flatten
