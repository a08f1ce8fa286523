import Mathlib.Data.List.Induction
import Stencil.Proofs.Files.Walk
import Stencil.Proofs.Path

/-!
Resolving paths. The bound on the steps is never what ends it, so what a path resolves to does not
depend on the way to the directory it starts from, nor on a file that is put meanwhile.
-/
namespace Stencil.Files.Tree

variable {t t' : Tree} {p q here rest w : Place} {name : String} {target : Path} {fuel fuel' links : Nat}
  {b : ByteArray} {r : Resolved} {seen seen' : List (Place × Option Place)}

/-! ### One step -/

theorem resolveFrom_nil (fuel : Nat) (here : Place) (seen : List (Place × Option Place)) :
    t.resolveFrom false (fuel + 1) here [] seen = .ok ⟨here, none, seen⟩ := rfl

/-- A step looks at the tree only for the link that it could follow. -/
theorem resolveFrom_cons (fuel : Nat) (here : Place) (name : String) (rest : Place)
    (seen : List (Place × Option Place)) :
    t.resolveFrom false (fuel + 1) here (name :: rest) seen =
      if name == ".." then t.resolveFrom false fuel here.dropLast rest seen
      else
        match t.linkAt (here ++ [name]) with
        | none => t.resolveFrom false fuel (here ++ [name]) rest seen
        | some target =>
          match seen.lookup (here ++ [name]) with
          | some (some known) => t.resolveFrom false fuel known rest seen
          | some none => .ok ⟨here ++ [name], some rest, seen⟩
          | none =>
            (t.resolveFrom false fuel (if target.absolute then [] else here) target.parts
                ((here ++ [name], none) :: seen)).bind fun r =>
              match r.left with
              | some left => .ok ⟨r.reached ++ left, some rest, r.seen⟩
              | none => t.resolveFrom false fuel r.reached rest ((here ++ [name], some r.reached) :: r.seen) := by
  rw [resolveFrom]
  split
  · rfl
  dsimp only
  unfold linkAt linkOf
  cases t.locate (here ++ [name]) with
  | error => rfl
  | ok q =>
    dsimp only
    cases t.entry? q with
    | none => rfl
    | some e =>
      cases e with
      | link target => rfl
      | _ => rfl

/-- Trees with the same links resolve alike. -/
theorem resolveFrom_congr (h : ∀ p, t.linkAt p = t'.linkAt p) (fuel : Nat) (here rest : Place)
    (seen : List (Place × Option Place)) :
    t.resolveFrom false fuel here rest seen = t'.resolveFrom false fuel here rest seen := by
  induction fuel generalizing here rest seen with
  | zero => rfl
  | succ fuel ih =>
    cases rest with
    | nil => rfl
    | cons name rest => simp only [resolveFrom_cons, h, ih]

/-! ### Places without links -/

/-- Holds of places with no link above or at them. -/
def Clear (t : Tree) (p : Place) : Prop :=
  ∀ above name, above ++ [name] <+: p → name ≠ ".." ∧ t.linkAt (above ++ [name]) = none

theorem Clear.nil : t.Clear [] := by
  intro above name h
  simp at h

theorem Clear.of_prefix (h : t.Clear q) (hp : p <+: q) : t.Clear p :=
  fun above name habove => h above name (habove.trans hp)

theorem Clear.concat (h : t.Clear p) (hname : name ≠ "..") (hlink : t.linkAt (p ++ [name]) = none) :
    t.Clear (p ++ [name]) := by
  intro above name' habove
  obtain heq | hprefix := List.prefix_concat_iff.1 habove
  · obtain ⟨rfl, hlast⟩ := List.append_inj' heq rfl
    cases hlast
    exact ⟨hname, hlink⟩
  · exact h above name' hprefix

/-- Behind directories a link is found where it is named. -/
theorem linkAt_of_route (h : t.IsRoute here) (hname : name ≠ "..") (hentry : t.entry? (here ++ [name]) = some (.link target)) :
    t.linkAt (here ++ [name]) = some target := by
  have hwalk : t.locate (here ++ [name]) = .ok (here ++ [name]) := by
    rw [locate, walkBound, List.length_append, Nat.add_assoc, Nat.add_assoc, walk_route_append h, List.nil_append,
      List.length_singleton, Nat.add_comm, walk, if_neg (by simpa using hname), hentry]
    rfl
  rw [linkAt, hwalk, linkOf, hentry]

/-- A walk to a name behind a clear place ends there. -/
theorem walk_clear (h : t.IsRoute here) (hclear : t.Clear (here ++ rest)) (hname : name ≠ "..")
    (hwalk : t.walk false fuel links here (rest ++ [name]) = .ok q) : q = here ++ rest ++ [name] := by
  induction rest generalizing here fuel with
  | nil =>
    obtain _ | fuel := fuel
    · cases hwalk
    rw [List.nil_append, walk, if_neg (by simpa using hname)] at hwalk
    rw [List.append_nil]
    cases hentry : t.entry? (here ++ [name]) with
    | none => simp [hentry] at hwalk
    | some e =>
      rw [hentry] at hwalk
      cases e with
      | dir =>
        obtain _ | fuel := fuel
        · cases hwalk
        · cases hwalk
          rfl
      | file => cases hwalk; rfl
      | link => cases hwalk; rfl
  | cons next rest ih =>
    obtain ⟨hnext, hlink⟩ := hclear here next ⟨rest, by simp⟩
    obtain _ | fuel := fuel
    · cases hwalk
    rw [List.cons_append, walk, if_neg (by simpa using hnext)] at hwalk
    cases hentry : t.entry? (here ++ [next]) with
    | none => simp [hentry] at hwalk
    | some e =>
      rw [hentry] at hwalk
      cases e with
      | dir =>
        rw [List.append_cons] at hclear
        exact (ih (h.concat hnext hentry) hclear hwalk).trans (by simp)
      | file => simp at hwalk
      | link target =>
        rw [linkAt_of_route h hnext hentry] at hlink
        cases hlink

/-- The link that is named behind a clear place is there. -/
theorem entry?_of_linkAt (h : t.Clear here) (hname : name ≠ "..") (hlink : t.linkAt (here ++ [name]) = some target) :
    t.entry? (here ++ [name]) = some (.link target) := by
  unfold linkAt linkOf at hlink
  cases hlocate : t.locate (here ++ [name]) with
  | error => simp [hlocate] at hlink
  | ok q =>
    obtain rfl : q = here ++ [name] := walk_clear .nil h hname hlocate
    rw [hlocate] at hlink
    dsimp only at hlink
    split at hlink
    · next hentry => rw [hentry, Option.some.inj hlink]
    · cases hlink

theorem clear_of_route (h : t.IsRoute p) : t.Clear p := by
  intro above name habove
  obtain ⟨hname, hdir⟩ := h above name habove
  refine ⟨hname, ?_⟩
  have hroute : t.IsRoute (above ++ [name]) := h.of_prefix habove
  have hlocate : t.locate (above ++ [name]) = .ok (above ++ [name]) :=
    walk_of_route hroute (by rw [walkBound]; omega)
  rw [linkAt, hlocate, linkOf, hdir]

/-! ### The cost of what is not yet seen -/

/-- The steps that entering the links that were not seen can add. -/
def unseenCost (t : Tree) (seen : List (Place × Option Place)) : Nat :=
  costOf (t.entries.filter fun e => (seen.lookup e.1).isNone)

theorem unseenCost_nil (t : Tree) : t.unseenCost [] = t.linkCost := by simp [unseenCost, linkCost]

/-- What was seen stays seen. -/
def Sees (seen seen' : List (Place × Option Place)) : Prop :=
  ∀ p, seen'.lookup p = none → seen.lookup p = none

theorem Sees.refl : Sees seen seen := fun _ => id

theorem Sees.trans {seen'' : List (Place × Option Place)} (h : Sees seen seen') (h' : Sees seen' seen'') :
    Sees seen seen'' := fun p hp => h p (h' p hp)

theorem sees_cons (seen : List (Place × Option Place)) (x : Place × Option Place) : Sees seen (x :: seen) := by
  intro p hp
  rw [List.lookup_cons] at hp
  split at hp
  · cases hp
  · exact hp

theorem costOf_cons (e : Place × Entry) (l : List (Place × Entry)) :
    costOf (e :: l) = e.2.cost + costOf l := rfl

theorem costOf_append (l l' : List (Place × Entry)) :
    costOf (l ++ l') = costOf l + costOf l' := by
  simp [costOf_eq_sum]

theorem costOf_filter_le (l : List (Place × Entry)) (h : Sees seen seen') :
    costOf (l.filter fun e => (seen'.lookup e.1).isNone) ≤
      costOf (l.filter fun e => (seen.lookup e.1).isNone) := by
  have hsub : (l.filter fun e => (seen'.lookup e.1).isNone).Sublist (l.filter fun e => (seen.lookup e.1).isNone) :=
    List.monotone_filter_right l fun e he => by simpa using h e.1 (by simpa using he)
  rw [costOf_eq_sum, costOf_eq_sum]
  exact (hsub.map _).sum_le_sum fun _ _ => Nat.zero_le _

theorem unseenCost_le (h : Sees seen seen') : t.unseenCost seen' ≤ t.unseenCost seen := costOf_filter_le _ h

/-- Entering a link takes its cost off. -/
theorem unseenCost_cons (hentry : t.entry? p = some (.link target)) (hnew : seen.lookup p = none) (x : Option Place) :
    t.unseenCost ((p, x) :: seen) + (target.parts.length + 1) ≤ t.unseenCost seen := by
  obtain ⟨front, back, hentries⟩ := List.append_of_mem (mem_entries hentry (by simp))
  have hfront := costOf_filter_le front (sees_cons seen (p, x))
  have hback := costOf_filter_le back (sees_cons seen (p, x))
  rw [unseenCost, unseenCost, hentries, List.filter_append, List.filter_append, List.filter_cons_of_neg (by simp),
    List.filter_cons_of_pos (by simp [hnew]), costOf_append, costOf_append, costOf_cons, Entry.cost]
  omega

/-! ### Whole runs -/

/-- Holds of what is known of links if the known places are clear. -/
def Known (t : Tree) (seen : List (Place × Option Place)) : Prop :=
  ∀ p known, seen.lookup p = some (some known) → t.Clear known

theorem Known.nil : t.Known [] := by
  intro p known h
  cases h

theorem Known.cons (h : t.Known seen) (p : Place) {x : Option Place} (hx : ∀ known, x = some known → t.Clear known) :
    t.Known ((p, x) :: seen) := by
  intro q known hq
  rw [List.lookup_cons] at hq
  split at hq
  · exact hx known (Option.some.inj hq)
  · exact h q known hq

/-- What was seen stays seen, and only clear places are reached. -/
theorem resolveFrom_spec (h : t.Clear here) (hseen : t.Known seen)
    (hr : t.resolveFrom false fuel here rest seen = .ok r) :
    Sees seen r.seen ∧ t.Known r.seen ∧ (r.left = none → t.Clear r.reached) := by
  induction fuel generalizing here rest seen r with
  | zero =>
    cases hr
    exact ⟨.refl, hseen, fun h => by cases h⟩
  | succ fuel ih =>
    cases rest with
    | nil =>
      cases hr
      exact ⟨.refl, hseen, fun _ => h⟩
    | cons name rest =>
      rw [resolveFrom_cons] at hr
      split at hr
      · exact ih (h.of_prefix (List.dropLast_prefix here)) hseen hr
      next hname =>
      cases hlink : t.linkAt (here ++ [name]) with
      | none =>
        rw [hlink] at hr
        exact ih (h.concat (by simpa using hname) hlink) hseen hr
      | some target =>
        rw [hlink] at hr
        dsimp only at hr
        split at hr
        · next known hknown => exact ih (hseen _ _ hknown) hseen hr
        · cases hr
          exact ⟨.refl, hseen, fun h => by cases h⟩
        · have hstart : t.Clear (if target.absolute then [] else here) := by
            split
            · exact .nil
            · exact h
          cases hinner : t.resolveFrom false fuel (if target.absolute then [] else here) target.parts
              ((here ++ [name], none) :: seen) with
          | error e => simp [hinner, Except.bind] at hr
          | ok inner =>
            obtain ⟨hsees, hknown, hreached⟩ := ih hstart (hseen.cons _ (by simp)) hinner
            rw [hinner] at hr
            change (match inner.left with
              | some left => _
              | none => _) = _ at hr
            cases hleft : inner.left with
            | some left =>
              rw [hleft] at hr
              cases hr
              exact ⟨(sees_cons _ _).trans hsees, hknown, fun h => by cases h⟩
            | none =>
              rw [hleft] at hr
              obtain ⟨hsees', hknown', hreached'⟩ := ih (hreached hleft)
                (hknown.cons _ fun known h => by cases h; exact hreached hleft) hr
              exact ⟨(sees_cons _ _).trans (hsees.trans ((sees_cons _ _).trans hsees')), hknown', hreached'⟩

/-- With enough fuel it makes no difference how much there is. -/
theorem resolveFrom_fuel (h : t.Clear here) (hseen : t.Known seen) (hfuel : rest.length + t.unseenCost seen < fuel)
    (hfuel' : rest.length + t.unseenCost seen < fuel') :
    t.resolveFrom false fuel here rest seen = t.resolveFrom false fuel' here rest seen := by
  induction fuel generalizing fuel' here rest seen with
  | zero => omega
  | succ fuel ih =>
    obtain _ | fuel' := fuel'
    · omega
    cases rest with
    | nil => rfl
    | cons name rest =>
      rw [List.length_cons] at hfuel hfuel'
      rw [resolveFrom_cons, resolveFrom_cons]
      split
      · exact ih (h.of_prefix (List.dropLast_prefix here)) hseen (by omega) (by omega)
      next hname =>
      have hname : name ≠ ".." := by simpa using hname
      cases hlink : t.linkAt (here ++ [name]) with
      | none => exact ih (h.concat hname hlink) hseen (by omega) (by omega)
      | some target =>
        dsimp only
        split
        · next known hknown => exact ih (hseen _ _ hknown) hseen (by omega) (by omega)
        · rfl
        next hnew =>
        have hcost := unseenCost_cons (entry?_of_linkAt h hname hlink) hnew none
        have hstart : t.Clear (if target.absolute then [] else here) := by
          split
          · exact .nil
          · exact h
        have hinner : t.resolveFrom false fuel (if target.absolute then [] else here) target.parts
            ((here ++ [name], none) :: seen) = t.resolveFrom false fuel' (if target.absolute then [] else here)
              target.parts ((here ++ [name], none) :: seen) :=
          ih hstart (hseen.cons _ (by simp)) (by omega) (by omega)
        rw [← hinner]
        cases hr : t.resolveFrom false fuel (if target.absolute then [] else here) target.parts
            ((here ++ [name], none) :: seen) with
        | error e => rfl
        | ok r =>
          change (match r.left with
            | some left => _
            | none => _) = (match r.left with
            | some left => _
            | none => _)
          cases hleft : r.left with
          | some left => rfl
          | none =>
            obtain ⟨hsees, hknown, hreached⟩ := resolveFrom_spec hstart (hseen.cons _ (by simp)) hr
            have hmore := unseenCost_le (t := t) (hsees.trans (sees_cons _ (here ++ [name], some r.reached)))
            exact ih (hreached hleft) (hknown.cons _ fun known h => by cases h; exact hreached hleft) (by omega)
              (by omega)

/-! ### The way from a directory -/

theorem resolveFrom_route (h : t.IsRoute (here ++ rest)) (fuel : Nat) (more : Place)
    (seen : List (Place × Option Place)) :
    t.resolveFrom false (rest.length + fuel) here (rest ++ more) seen =
      t.resolveFrom false fuel (here ++ rest) more seen := by
  induction rest generalizing here with
  | nil => simp
  | cons name rest ih =>
    obtain ⟨hname, hlink⟩ := clear_of_route h here name ⟨rest, by simp⟩
    rw [List.append_cons] at h
    rw [List.length_cons, Nat.succ_add, List.cons_append, resolveFrom_cons, if_neg (by simpa using hname), hlink]
    exact (ih h).trans (by simp)

theorem resolveFrom_up (fuel : Nat) (common up more : Place) (seen : List (Place × Option Place)) :
    t.resolveFrom false (up.length + fuel) (common ++ up) (List.replicate up.length ".." ++ more) seen =
      t.resolveFrom false fuel common more seen := by
  induction up using List.reverseRecOn with
  | nil => simp
  | append_singleton up name ih =>
    rw [List.length_append, List.length_singleton, Nat.add_right_comm, List.replicate_succ, List.cons_append,
      resolveFrom_cons, if_pos (beq_self_eq_true ".."), ← List.append_assoc, List.dropLast_concat]
    exact ih

/-- The way to a path from a directory comes to the directory above both with nothing seen. -/
theorem resolveFrom_way {common up : Place} (h : t.IsRoute (common ++ up)) (down : Place) :
    t.resolveFrom false (t.resolveBound (common ++ up ++ (List.replicate up.length ".." ++ down))) []
      (common ++ up ++ (List.replicate up.length ".." ++ down)) [] =
        t.resolveFrom false (down.length + t.linkCost + 1) common down [] := by
  have hroute : t.IsRoute ([] ++ (common ++ up)) := h
  have hlength : t.resolveBound (common ++ up ++ (List.replicate up.length ".." ++ down)) =
      (common ++ up).length + (up.length + (down.length + t.linkCost + 1)) := by
    simp only [resolveBound, List.length_append, List.length_replicate]
    omega
  rw [hlength, resolveFrom_route hroute, List.nil_append, resolveFrom_up]

theorem resolve_eq_ok : t.resolve false p = .ok q ↔
    ∃ r, t.resolveFrom false (t.resolveBound p) [] p [] = .ok r ∧
      (Path.normalized ⟨true, r.reached ++ r.left.getD []⟩).parts = q ∧ t.follow q ≠ .error .linkLoop := by
  rw [resolve]
  cases t.resolveFrom false (t.resolveBound p) [] p [] with
  | error f => simp
  | ok r =>
    simp only [Bool.false_eq_true, if_false, Except.ok.injEq, exists_eq_left']
    split
    · next hloop =>
      simp only [reduceCtorEq, false_iff, not_and]
      rintro rfl
      exact not_not.2 hloop
    · next hends =>
      rw [Except.ok.injEq]
      refine ⟨?_, And.left⟩
      rintro rfl
      exact ⟨rfl, hends⟩

/-- What a path resolves to has no part that leads upwards. -/
theorem up_not_mem_of_resolve (h : t.resolve false p = .ok q) : ".." ∉ q := by
  obtain ⟨r, -, rfl, -⟩ := resolve_eq_ok.1 h
  exact Path.up_not_mem_normalized _

theorem isRoute_set (h : t.IsRoute p) (hw : t.Free w) : (t.set w (.file b)).IsRoute p := by
  intro above name habove
  obtain ⟨hname, hdir⟩ := h above name habove
  refine ⟨hname, ?_⟩
  rw [entry?_set hw.1, if_neg, hdir]
  rintro rfl
  obtain hnone | ⟨bytes, hfile⟩ := hw.2
  · rw [hnone] at hdir
    cases hdir
  · rw [hfile] at hdir
    cases hdir

/-- What resolves to itself is what the way to it from a directory resolves to, also if a file was put
meanwhile. -/
theorem resolve_way {common up down : Place} (hbase : t.IsRoute (common ++ up)) (hw : t.Free w)
    (hq : t.resolve false (common ++ down) = .ok (common ++ down)) :
    (t.set w (.file b)).resolve false (common ++ up ++ (List.replicate up.length ".." ++ down)) =
      .ok (common ++ down) := by
  obtain ⟨r, hr, hreached, hends⟩ := resolve_eq_ok.1 hq
  refine resolve_eq_ok.2 ⟨r, ?_, hreached, (follow_set_loop hw _).not.2 hends⟩
  obtain ⟨t', ht'⟩ : ∃ t', t' = t.set w (.file b) := ⟨_, rfl⟩
  have hroute : t.IsRoute common := hbase.of_prefix (List.prefix_append _ _)
  have hroute' : t'.IsRoute common := ht' ▸ isRoute_set hroute hw
  have hdown : t.resolveFrom false (down.length + t.linkCost + 1) common down [] = .ok r := by
    have hroute : t.IsRoute (common ++ []) := by simpa using hroute
    simpa [hr] using (resolveFrom_way hroute down).symm
  have hfuel (t : Tree) {fuel : Nat} (h : t.IsRoute common) (hle : down.length + t.linkCost + 1 ≤ fuel) :
      t.resolveFrom false (down.length + t.linkCost + 1) common down [] = t.resolveFrom false fuel common down [] := by
    have := unseenCost_nil t
    exact resolveFrom_fuel (clear_of_route h) .nil (by omega) (by omega)
  have hcongr := resolveFrom_congr (fun p => ht' ▸ linkAt_set (b := b) hw p : ∀ p, t'.linkAt p = t.linkAt p)
  rw [← ht', resolveFrom_way (ht' ▸ isRoute_set hbase hw), hfuel t' hroute' (le_max_left _ (down.length + t.linkCost + 1)), hcongr,
    ← hfuel t hroute (le_max_right _ _), hdown]

end Stencil.Files.Tree
