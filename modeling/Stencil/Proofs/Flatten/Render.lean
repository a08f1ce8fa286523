import Stencil.Proofs.Flatten.Blocks
import Stencil.Proofs.Flatten.Entries

/-!
The statements of a function that has functions of its own, a buffer, a body and a `return`: where
each node begins and ends, and the rows it is made of.
-/
namespace Stencil.Flatten
open Code Grammar

variable {g : Page} {f : Frame} {s s' s₁ : State} {base w : Nat} {ns ms : List Node} {n : Node}
  {t u : Token} {ts us seg : List Token} {statement : Read (List Node)}

/-- A node reaches from the first token to the last one. -/
def Covers (n : Node) (seg : List Token) : Prop :=
  ∃ t u, seg.head? = some t ∧ seg.getLast? = some u ∧ n.extent = ⟨t.start, u.stop, t.row, u.endRow⟩

/-- The nodes of statements that stand one after the other on the level `w`. -/
inductive Laid (g : Page) (w : Nat) : List Token → List Node → List Token → Prop
  | done (ts : List Token) : Laid g w ts [] ts
  | next {n : Node} {ns : List Node} {seg ts us : List Token}
      (line : ∀ t ∈ seg.head?, t.indent = some w) (covers : Covers n seg)
      (accounts : Accounts g.source [n] (expected g seg)) (kind : n.kind = kindOf (seg ++ ts))
      (rest : Laid g w ts ns us) : Laid g w (seg ++ ts) (n :: ns) us

/-- The tokens a statement is made of. -/
theorem Makes.took (h : Makes g f n s) : ∃ seg, f.start.rest = seg ++ s.rest ∧ Covers n seg ∧
    Accounts g.source [n] (expected g seg) ∧ (∀ t ∈ seg, ∀ i ∈ t.indent, f.base ≤ i) ∧
    ∀ t ∈ seg, t.text = "return" → ∀ i ∈ t.indent, f.base < i := by
  obtain ⟨seg, hm, hc⟩ := h.amid.moves
  refine ⟨seg, hm.rest, ?_, hm.accounts, hm.above, hm.inner⟩
  obtain ⟨t, ts, rfl⟩ := List.exists_cons_of_ne_nil (hc rfl)
  obtain ⟨u, hu⟩ : ∃ u, (t :: ts).getLast? = some u :=
    Option.isSome_iff_exists.1 (by simp [List.getLast?_isSome])
  obtain ⟨hstart, hrow⟩ := h.spans.start t (by simp [hm.rest])
  refine ⟨t, u, rfl, hu, ?_⟩
  have hstop : n.extent.stop = u.stop := by rw [h.spans.stop, hm.stop, hu]; rfl
  have hend : n.extent.endRow = u.endRow := by rw [h.spans.endRow, hm.endRow, hu]; rfl
  rw [← hstart, ← hrow, ← hstop, ← hend]

/-- A statement of a block that is made of these tokens. Below the first line of a function all lines are indented
more. -/
structure Took (w : Nat) (n : Node) (seg : List Token) : Prop where
  line : ∀ t ∈ seg.head?, t.indent = some w
  covers : Covers n seg
  lead : ∀ t ∈ seg.head?, ¬ IsStuck t
  above : ∀ t ∈ seg, t.indent ≠ some 0
  function : ∀ name, n.kind = .function name → ∀ t ts, seg = t :: ts →
    t.text = "def" ∧ ∀ u ∈ ts, ∀ i ∈ u.indent, w + 2 < i

theorem kindOf_function {name : String} (h : kindOf (t :: ts) = .function name) : t.text = "def" := by
  cases ts with
  | nil => cases h
  | cons u us =>
    rw [kindOf] at h
    split at h
    · assumption
    · cases h

namespace Rounds

/-- The statements of a block take its tokens one after the other. -/
theorem took (h : Rounds g statement w s ns s') (hr : LineByLine g statement) (hw : 1 < w) :
    ∃ segs, List.Forall₂ (Took w) ns segs ∧ s.rest = segs.flatten ++ s'.rest := by
  induction h with
  | done => exact ⟨[], .nil, rfl⟩
  | @next s₀ s₁ s n ns read line makes _ _ ih =>
    obtain ⟨segs, hsegs, hrest⟩ := ih
    have hmakes := makes 1 hw.le fun _ _ _ => hw
    obtain ⟨seg, htook, hcovers, -, habove, -⟩ := hmakes.took
    replace htook : s₀.rest = seg ++ s₁.rest := htook
    have hhead : ∀ t ∈ seg.head?, s₀.rest.head? = some t := by
      intro t ht
      rw [htook, List.head?_append, Option.mem_def.1 ht]
      rfl
    refine ⟨seg :: segs, .cons ⟨fun t ht => line t (hhead t ht), hcovers, fun t ht hstuck => ?_,
      fun t ht hzero => Nat.not_succ_le_zero 0 (habove t ht 0 hzero), fun name hname t ts hseg => ?_⟩ hsegs,
      by rw [htook, hrest, List.flatten_cons, List.append_assoc]⟩
    · rw [hr.refuses s₀ t (hhead t ht) hstuck] at read
      cases read
    · subst hseg
      have hkind : kindOf (t :: (ts ++ s₁.rest)) = .function name := by
        rw [← hname, hmakes.kind]
        exact congrArg kindOf htook.symm
      have hdef := kindOf_function hkind
      obtain ⟨seg', hdeep, hinner⟩ := hmakes.deep t (ts ++ s₁.rest) htook hdef
      have hsame : ts ++ s₁.rest = seg' ++ s₁.rest := by simpa [after, htook] using hdeep
      obtain rfl := List.append_cancel_right hsame
      exact ⟨hdef, hinner⟩

/-- A function at the start of a block takes its lines and no more. -/
theorem definition (h : Rounds g statement w s ns s') (hl : Leaves w s')
    (hrest : s.rest = t :: ts ++ us) (ht : t.text = "def" ∧ t.shape ≠ .stop ∧ t.indent = some w)
    (hts : ∀ u ∈ ts, ∀ i ∈ u.indent, w < i) (hus : ∀ u ∈ us.head?, ∃ i ∈ u.indent, i ≤ w) :
    ∃ n ms s₁, ns = n :: ms ∧ Covers n (t :: ts) ∧
      Accounts g.source [n] (expected g (t :: ts)) ∧ n.kind = kindOf (t :: ts ++ us) ∧
      s₁.rest = us ∧ Rounds g statement w s₁ ms s' := by
  cases h with
  | done => exact absurd (hl t (by simp [hrest]) ht.2.1 w ht.2.2) (lt_irrefl w)
  | @next _ s₁ _ n ns _ line makes onward rounds =>
    have hmakes := makes w le_rfl fun u hu hx => by
      obtain rfl : t = u := by simpa [hrest] using hu
      simp [ht.1] at hx
    obtain ⟨seg', hdeep, hinner⟩ := hmakes.deep t (ts ++ us) hrest ht.1
    replace hdeep : ts ++ us = seg' ++ s₁.rest := by simpa [after, hrest] using hdeep
    obtain ⟨seg, htook, hcovers, haccounts, -⟩ := hmakes.took
    have hseg : seg = t :: seg' := by
      refine List.append_cancel_right (htook.symm.trans ?_)
      rw [hrest, List.cons_append, hdeep, List.cons_append]
    have hsame : seg' = ts ∧ s₁.rest = us := by
      obtain ⟨c, hseg', hus'⟩ | ⟨c, hts', hs₁⟩ := List.append_eq_append_iff.1 hdeep
      · cases c with
        | nil => simp_all
        | cons v c =>
          obtain ⟨i, hi, hle⟩ := hus v (by simp [hus'])
          have : w + 2 < i := hinner v (by simp [hseg']) i hi
          omega
      · cases c with
        | nil => simp_all
        | cons v c =>
          obtain ⟨hsome, hle⟩ := onward v (by simp [hs₁])
          obtain ⟨i, hi⟩ := Option.isSome_iff_exists.1 hsome
          have hinside := hts v (by simp [hts']) i hi
          by_cases hv : v.text = "="
          · cases rounds with
            | done =>
              have hshape := (hmakes.amid.fits (t := v) (by simp [hs₁])).equals hv
              have := hl v (by simp [hs₁]) (by simp [hshape]) i hi
              omega
            | next _ line _ _ _ =>
              obtain rfl := Option.some.inj ((line v (by simp [hs₁])).symm.trans hi)
              omega
          · have := hle hv i hi
            omega
    obtain ⟨rfl, hrest'⟩ := hsame
    exact ⟨n, ns, s₁, rfl, hseg ▸ hcovers, hseg ▸ haccounts, hrest ▸ hmakes.kind, hrest', rounds⟩

/-- Statements in front of a `return` on their level end there. -/
theorem upToReturn (h : Rounds g statement w s ns s') (hl : Leaves w s') (ho : Onward w s)
    (hrest : s.rest = ts ++ u :: us)
    (hts : ∀ t ∈ ts, t.shape ≠ .stop ∧ ∀ i ∈ t.indent, w ≤ i ∧ (t.text = "return" → w < i))
    (hu : u.text = "return" ∧ u.indent = some w) :
    ∃ ms ns' s₁, ns = ms ++ ns' ∧ Laid g w s.rest ms (u :: us) ∧ s₁.rest = u :: us ∧
      Rounds g statement w s₁ ns' s' := by
  induction h generalizing ts with
  | done s =>
    cases ts with
    | nil => exact ⟨[], [], s, rfl, hrest ▸ .done _, hrest, .done s⟩
    | cons t ts =>
      obtain ⟨i, hi⟩ := Option.isSome_iff_exists.1 (ho t (by simp [hrest])).1
      obtain ⟨hshape, hindent⟩ := hts t (by simp)
      have := hl t (by simp [hrest]) hshape i hi
      have := (hindent i hi).1
      omega
  | @next s₀ s₁ s n ns read line makes onward rounds ih =>
    cases ts with
    | nil => exact ⟨[], n :: ns, s₀, rfl, hrest ▸ .done _, hrest, .next read line makes onward rounds⟩
    | cons t ts =>
      have ht := line t (by simp [hrest])
      have hmakes := makes w le_rfl fun v hv hx => by
        obtain rfl : t = v := by simpa [hrest] using hv
        exact ((hts t (by simp)).2 w ht).2 hx
      obtain ⟨seg, htook, hcovers, haccounts, -, hreturn⟩ := hmakes.took
      replace htook : s₀.rest = seg ++ s₁.rest := htook
      have hline : ∀ v ∈ seg.head?, v.indent = some w := by
        intro v hv
        refine line v ?_
        rw [htook, List.head?_append, Option.mem_def.1 hv]
        rfl
      obtain ⟨c, hseg, hus⟩ | ⟨c, hts', hs₁⟩ := List.append_eq_append_iff.1 (hrest.symm.trans htook)
      · cases c with
        | nil =>
          obtain rfl : seg = t :: ts := by simpa using hseg
          refine ⟨[n], ns, s₁, rfl, ?_, by simpa using hus.symm, rounds⟩
          rw [hrest]
          exact .next hline hcovers haccounts (hrest ▸ hmakes.kind) (.done _)
        | cons v c =>
          obtain rfl : u = v := by simpa using congrArg List.head? hus
          have := hreturn u (by simp [hseg]) hu.1 w hu.2
          simp at this
      · obtain ⟨ms, ns', s₂, rfl, hlaid, hs₂, hrounds⟩ := ih hl onward hs₁
          (fun v hv => hts v (by rw [hts']; exact List.mem_append_right _ hv))
        refine ⟨n :: ms, ns', s₂, rfl, ?_, hs₂, hrounds⟩
        rw [htook]
        exact .next hline hcovers haccounts (htook ▸ hmakes.kind) hlaid

/-- The `return` itself is the last statement. -/
theorem last (h : Rounds g statement (w + 1) s ns s') (hl : Leaves (w + 1) s')
    (hrest : s.rest = t :: ts ++ [u]) (ht : t.shape ≠ .stop ∧ t.indent = some (w + 1))
    (hts : ∀ v ∈ ts, v.indent = none) (hu : u.indent = some 0) (hw : 0 < w) :
    ∃ n, ns = [n] ∧ Covers n (t :: ts) ∧ Accounts g.source [n] (expected g (t :: ts)) ∧
      n.kind = kindOf (t :: ts ++ [u]) ∧ s'.rest = [u] := by
  cases h with
  | done => exact absurd (hl t (by simp [hrest]) ht.1 _ ht.2) (lt_irrefl _)
  | @next _ s₁ _ n ns _ line makes onward rounds =>
    have hmakes := makes w (by omega) fun _ _ _ => by omega
    obtain ⟨seg, htook, hcovers, haccounts, habove, -⟩ := hmakes.took
    replace htook : t :: ts ++ [u] = seg ++ s₁.rest := hrest.symm.trans htook
    have hsame : seg = t :: ts ∧ s₁.rest = [u] := by
      obtain ⟨c, hseg, hus⟩ | ⟨c, hts', hs₁⟩ := List.append_eq_append_iff.1 htook
      · cases c with
        | nil => simp_all
        | cons v c =>
          obtain rfl : u = v := by simpa using congrArg List.head? hus
          have := habove u (by simp [hseg]) 0 hu
          simp only at this
          omega
      · cases c with
        | nil => simp_all
        | cons v c =>
          have hsome := (onward v (by simp [hs₁])).1
          cases seg with
          | nil =>
            obtain ⟨_, _, hhead, -⟩ := hcovers
            simp at hhead
          | cons v' seg =>
            have hmem : v ∈ ts := by
              have := congrArg List.tail hts'
              simp only [List.tail_cons, List.cons_append] at this
              rw [this]
              simp
            simp [hts v hmem] at hsome
    obtain ⟨rfl, hrest'⟩ := hsame
    have hend : ns = [] ∧ s₁ = s' := by
      cases rounds with
      | done => exact ⟨rfl, rfl⟩
      | next _ line _ _ _ =>
        have := line u (by simp [hrest'])
        simp [hu] at this
    obtain ⟨rfl, rfl⟩ := hend
    exact ⟨n, rfl, hcovers, haccounts, hrest ▸ hmakes.kind, hrest'⟩

end Rounds

/-! ### The rows of nodes -/

section Rows

open Atom Token

variable {r o : Nat} {e : Entry} {es : List Entry} {source : List Char}

/-- The tokens of some rows. -/
inductive Rowed : Nat → List Entry → List Token → Prop
  | nil (r : Nat) : Rowed r [] []
  | cons {r o : Nat} {e : Entry} {es : List Entry} {us ts : List Token}
      (hrow : Written r ⟨some (4 * e.depth + e.shift), []⟩ o e.parts us) (h : Rowed (r + 1) es ts) :
      Rowed r (e :: es) (us ++ ts)

/-- What ends in front of a row is made of the rows before. -/
theorem rowed_of_append (h : OfRows r o [] (es.map Entry.row) (seg ++ ts)) (hvalid : ∀ e ∈ es, e.Valid)
    (hseg : ∀ t ∈ seg, t.indent ≠ some 0) (hts : ∃ t ∈ ts.head?, t.indent.isSome) :
    ∃ es₁ es₂ o', es = es₁ ++ es₂ ∧ Rowed r es₁ seg ∧ OfRows (r + es₁.length) o' [] (es₂.map Entry.row) ts := by
  induction es generalizing r o seg with
  | nil =>
    obtain ⟨v, hv, -⟩ := hts
    obtain ⟨ts, rfl⟩ := List.head?_eq_some_iff.1 hv
    generalize hall : seg ++ v :: ts = all at h
    cases h with
    | stop =>
      cases seg with
      | nil => exact ⟨[], [], o, rfl, .nil r, by rw [← List.nil_append (v :: ts), hall]; exact .stop ..⟩
      | cons t seg =>
        have := congrArg List.length hall
        simp at this
  | cons e es ih =>
    cases seg with
    | nil => exact ⟨[], e :: es, o, rfl, .nil r, h⟩
    | cons t seg =>
      obtain ⟨he, hes⟩ := List.forall_mem_cons.1 hvalid
      generalize hall : t :: seg ++ ts = all at h
      cases h with
      | @code _ _ _ _ _ _ us vs hrow hrows =>
        obtain ⟨-, htail⟩ := written_gaps hrow he.lined.spec.sound
        have hne : us ≠ [] := by
          rintro rfl
          obtain ⟨_, hhead, -⟩ := written_leading hrow he.lined.spec.sound he.lined.spec.begins
          cases hhead
        obtain ⟨c, hseg', rfl⟩ | ⟨c, rfl, rfl⟩ := List.append_eq_append_iff.1 hall.symm
        · obtain ⟨es₁, es₂, o', rfl, hrowed, hrest⟩ := ih hrows hes
            (fun u hu => hseg u (by rw [hseg']; exact List.mem_append_right _ hu))
          refine ⟨e :: es₁, es₂, o', rfl, hseg' ▸ .cons hrow hrowed, ?_⟩
          rw [List.length_cons, show r + (es₁.length + 1) = r + 1 + es₁.length by omega]
          exact hrest
        · cases c with
          | nil =>
            refine ⟨[e], es, _, rfl, ?_, hrows⟩
            have := Rowed.cons hrow (.nil (r + 1))
            simpa using this
          | cons v c =>
            obtain ⟨u, hu, hsome⟩ := hts
            obtain rfl : v = u := by simpa using hu
            have := (htail v (by simp)).1
            simp [this] at hsome

/-- The first token of each row. -/
theorem Rowed.leading (h : Rowed r es seg) (hvalid : ∀ e ∈ es, e.Valid) (he : e ∈ es) :
    ∃ t ∈ seg, t.indent = some (4 * e.depth + e.shift) ∧ ∀ x ∈ leading? e.parts, t.text = x := by
  induction h with
  | nil => cases he
  | @cons r o f fs us ts hrow _ ih =>
    obtain ⟨hf, hfs⟩ := List.forall_mem_cons.1 hvalid
    obtain rfl | he := List.mem_cons.1 he
    · obtain ⟨t, ht, -, hleading, -⟩ := written_leading hrow hf.lined.spec.sound hf.lined.spec.begins
      obtain ⟨hhead, -⟩ := written_gaps hrow hf.lined.spec.sound
      exact ⟨t, List.mem_append_left _ (List.mem_of_mem_head? ht), (hhead t ht).1, hleading⟩
    · obtain ⟨t, ht, hrest⟩ := ih hfs he
      exact ⟨t, List.mem_append_right _ ht, hrest⟩

/-- The rows that the tokens begin and end in. -/
theorem Rowed.rows (h : Rowed r es seg) (hvalid : ∀ e ∈ es, e.Valid) (hes : es ≠ []) :
    (∀ t ∈ seg.head?, t.row = r) ∧ ∀ t ∈ seg.getLast?, t.endRow + 1 = r + es.length := by
  induction h with
  | nil => exact (hes rfl).elim
  | @cons r o f fs us ts hrow hrest ih =>
    obtain ⟨hf, hfs⟩ := List.forall_mem_cons.1 hvalid
    have htokens := written_tokens hrow hf.lined.spec.sound
    obtain ⟨t, ht, -⟩ := written_leading hrow hf.lined.spec.sound hf.lined.spec.begins
    obtain ⟨us, rfl⟩ := List.head?_eq_some_iff.1 ht
    refine ⟨fun u hu => ?_, fun u hu => ?_⟩
    · obtain rfl : t = u := by simpa using hu
      exact (htokens t (by simp)).2.1
    · by_cases hfs' : fs = []
      · subst hfs'
        cases hrest
        rw [List.append_nil] at hu
        rw [(htokens u (List.mem_of_mem_getLast? hu)).2.2]
        rfl
      · have hlast := (ih hfs hfs').2
        have hts : ts ≠ [] := by
          rintro rfl
          obtain ⟨e, he⟩ := List.exists_mem_of_ne_nil _ hfs'
          obtain ⟨_, hmem, -⟩ := hrest.leading hfs he
          cases hmem
        rw [List.getLast?_append_of_ne_nil _ hts] at hu
        rw [hlast u hu, List.length_cons]
        omega

/-- A statement of a block is made of these rows, the first of which is on the outermost level. -/
structure IsPiece (source : List Char) (r : Nat) (n : Node) (es : List Entry) : Prop where
  row : n.extent.row = r
  endRow : n.extent.endRow + 1 = r + es.length
  head : ∃ e ∈ es.head?, e.depth = 1 ∧ e.shift = 0 ∧ ∀ x ∈ leading? e.parts, x ≠ "elif" ∧ x ≠ "else"
  function : ∀ name, n.kind = .function name → ∃ e fs, es = e :: fs ∧ leading? e.parts = some "def" ∧
    ∀ f ∈ fs, 2 ≤ f.depth
  within : ∀ e ∈ es, ∀ x ∈ leading? e.parts, x.toList <:+: (n.text source).toList

/-- The text of a token stands in that of a node around it. -/
theorem text_infix (h : Covers n seg) (hplace : InPlace source seg) (ht : t ∈ seg) :
    t.text.toList <:+: (n.text source).toList := by
  obtain ⟨a, b, ha, hb, hextent⟩ := h
  have hbounds : a.start ≤ t.start ∧ t.start ≤ t.stop ∧ t.stop ≤ b.stop := by
    have hle (u : Token) (hu : u ∈ seg) : u.start ≤ u.stop := (hplace.placed u hu).stop ▸ Nat.le_add_right ..
    obtain ⟨us, hus⟩ := List.head?_eq_some_iff.1 ha
    obtain ⟨vs, hvs⟩ := List.getLast?_eq_some_iff.1 hb
    have hfirst : t = a ∨ a.stop ≤ t.start := by
      rw [hus] at ht
      exact (List.mem_cons.1 ht).imp_right ((List.pairwise_cons.1 (hus ▸ hplace.ordered)).1 t)
    have hlast : t = b ∨ t.stop ≤ b.start := by
      rw [hvs] at ht
      obtain ht | ht := List.mem_append.1 ht
      · exact .inr ((List.pairwise_append.1 (hvs ▸ hplace.ordered)).2.2 t ht b (by simp))
      · exact .inl (List.mem_singleton.1 ht)
    have ha' := hle a (List.mem_of_mem_head? ha)
    have hb' := hle b (List.mem_of_mem_getLast? hb)
    have ht' := hle t ht
    refine ⟨?_, ht', ?_⟩
    · obtain rfl | h := hfirst
      · exact le_rfl
      · omega
    · obtain rfl | h := hlast
      · exact le_rfl
      · omega
  have htext : n.text source = slice source a.start b.stop := by simp [Node.text, hextent, slice]
  rw [htext, ← slice_append hbounds.1 (hbounds.2.1.trans hbounds.2.2), ← slice_append hbounds.2.1 hbounds.2.2,
    slice_placed (hplace.placed t ht)]
  exact ⟨(slice source a.start t.start).toList, (slice source t.stop b.stop).toList, by simp⟩

theorem Took.piece (h : Took 4 n seg) (hrowed : Rowed r es seg) (hvalid : ∀ e ∈ es, e.Valid)
    (hdepth : ∀ e ∈ es, 1 ≤ e.depth) (hplace : InPlace source seg) : IsPiece source r n es := by
  cases hrowed with
  | nil =>
    obtain ⟨_, _, ht, -⟩ := h.covers
    cases ht
  | @cons _ o e fs us vs hrow hrest =>
    have hrowed : Rowed r (e :: fs) (us ++ vs) := .cons hrow hrest
    obtain ⟨he, hfs⟩ := List.forall_mem_cons.1 hvalid
    obtain ⟨hrows, hlast⟩ := hrowed.rows hvalid (by simp)
    have hshift : ∀ f ∈ e :: fs, f.shift ≤ 1 := fun f hf => by
      obtain h | h := (hvalid f hf).shift <;> omega
    obtain ⟨t, ht, hname, hleading, -⟩ := written_leading hrow he.lined.spec.sound he.lined.spec.begins
    have hmem : t ∈ us := List.mem_of_mem_head? ht
    have hshaped := (written_tokens hrow he.lined.spec.sound t hmem).1
    have hindent := ((written_gaps hrow he.lined.spec.sound).1 t ht).1
    have hhead : (us ++ vs).head? = some t := List.mem_head?_append_of_mem_head? ht
    have hfour : 4 * e.depth + e.shift = 4 := Option.some.inj (hindent.symm.trans (h.line t hhead))
    have hdepth' := hdepth e (by simp)
    obtain ⟨a, b, ha, hb, hextent⟩ := h.covers
    refine ⟨by rw [hextent, hrows a ha], by rw [hextent, hlast b hb], ⟨e, rfl, by omega, by omega, fun x hx => ?_⟩,
      fun name hk => ?_, fun f hf x hx => ?_⟩
    · -- no statement begins with what goes on with a condition
      have htext := hleading x hx
      have hkeyword : t.text ≠ "elif" ∧ t.text ≠ "else" := by
        refine ⟨fun hx => h.lead t hhead (.inr ⟨hshaped.of_isWordy (by rw [hx]; decide), .inl hx⟩), fun hx =>
          h.lead t hhead (.inr ⟨hshaped.of_isWordy (by rw [hx]; decide), .inr hx⟩)⟩
      rwa [htext] at hkeyword
    · obtain ⟨us, rfl⟩ := List.head?_eq_some_iff.1 ht
      obtain ⟨hdef, hdeep⟩ := h.function name hk t (us ++ vs) rfl
      have hlead := hname (hshaped.of_isWordy (by rw [hdef]; decide))
      refine ⟨e, fs, rfl, hdef ▸ hlead, fun f hf => ?_⟩
      obtain ⟨v, hv, hv', -⟩ := hrest.leading hfs hf
      have := hdeep v (List.mem_append_right _ hv) _ hv'
      have := hshift f (List.mem_cons_of_mem _ hf)
      omega
    · obtain ⟨v, hv, -, htext⟩ := hrowed.leading hvalid hf
      rw [← htext x hx]
      exact text_infix h.covers hplace hv

/-- Nodes that stand one after the other from row `r` on, with their rows. -/
inductive Pieces (source : List Char) : Nat → List Node → List (List Entry) → Prop
  | nil (r : Nat) : Pieces source r [] []
  | cons {r : Nat} {n : Node} {es : List Entry} {ns : List Node} {ess : List (List Entry)} (h : IsPiece source r n es)
      (rest : Pieces source (r + es.length) ns ess) : Pieces source r (n :: ns) (es :: ess)

/-- The statements of a block that is all that is left of a text take all its rows. -/
theorem pieces_of_took {segs : List (List Token)} (h : List.Forall₂ (Took 4) ns segs)
    (hrows : OfRows r o [] (es.map Entry.row) (segs.flatten ++ ts)) (hvalid : ∀ e ∈ es, e.Valid)
    (hdepth : ∀ e ∈ es, 1 ≤ e.depth) (hplace : InPlace source (segs.flatten ++ ts))
    (hts : ∃ t ∈ ts.head?, t.indent.isSome ∧ (t.shape ≠ .stop → ∀ j ∈ t.indent, j < 4)) :
    ∃ ess, es = ess.flatten ∧ Pieces source r ns ess := by
  induction h generalizing r o es with
  | nil =>
    cases es with
    | nil => exact ⟨[], rfl, .nil r⟩
    | cons e es =>
      -- the next row would be one of the block
      obtain ⟨he, -⟩ := List.forall_mem_cons.1 hvalid
      generalize hall : [].flatten ++ ts = all at hrows
      cases hrows with
      | @code _ _ _ _ _ _ us vs hrow _ =>
        obtain ⟨t, ht, -⟩ := written_leading hrow he.lined.spec.sound he.lined.spec.begins
        have hshaped := (written_tokens hrow he.lined.spec.sound t (List.mem_of_mem_head? ht)).1
        have hindent := ((written_gaps hrow he.lined.spec.sound).1 t ht).1
        obtain ⟨v, hv, -, hleaves⟩ := hts
        have hsame : ts = us ++ vs := hall
        rw [hsame, List.mem_head?_append_of_mem_head? ht] at hv
        obtain rfl := Option.some.inj hv
        have := hleaves hshaped.not_stop _ hindent
        have := hdepth e (by simp)
        omega
  | @cons n seg ns segs hn hsegs ih =>
    have hnext : ∃ t ∈ (segs.flatten ++ ts).head?, t.indent.isSome := by
      cases hsegs with
      | nil =>
        obtain ⟨t, ht, hsome, -⟩ := hts
        exact ⟨t, ht, hsome⟩
      | cons hm _ =>
        obtain ⟨t, _, ht, -⟩ := hm.covers
        refine ⟨t, ?_, by simp [hm.line t ht]⟩
        rw [List.flatten_cons, List.append_assoc]
        exact List.mem_head?_append_of_mem_head? ht
    rw [List.flatten_cons, List.append_assoc] at hrows hplace
    obtain ⟨es₁, es₂, o', rfl, hrowed, hrest⟩ := rowed_of_append hrows hvalid hn.above hnext
    obtain ⟨hvalid₁, hvalid₂⟩ := List.forall_mem_append.1 hvalid
    obtain ⟨hdepth₁, hdepth₂⟩ := List.forall_mem_append.1 hdepth
    obtain ⟨ess, rfl, hpieces⟩ := ih hrest hvalid₂ hdepth₂ hplace.of_append
    exact ⟨es₁ :: ess, rfl, .cons (hn.piece hrowed hvalid₁ hdepth₁ hplace.front) hpieces⟩

end Rows

end Stencil.Flatten
