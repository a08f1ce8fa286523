import Mathlib.Algebra.GroupWithZero.Nat
import Mathlib.Algebra.Order.BigOperators.Group.List
import Mathlib.Algebra.Order.Group.Nat
import Stencil.Files.Tree

/-!
Following paths. The bound on the steps is never what ends a walk, and putting a file where one was or
could be changes no walk but those that end there.
-/
namespace Stencil.Files.Tree

variable {t : Tree} {p q here rest w : Place} {name : String} {target : Path} {fuel fuel' links n : Nat}
  {last : Bool} {b : ByteArray} {e : Entry}

/-! ### Entries -/

/-- Holds of places where a file is or could be put. -/
def Free (t : Tree) (w : Place) : Prop :=
  w ≠ [] ∧ (t.entry? w = none ∨ ∃ bytes, t.entry? w = some (.file bytes))

theorem lookup_replace_self {l : List (Place × Entry)} (h : l.any (·.1 == w)) (e : Entry) :
    (l.map fun x => if x.1 == w then (w, e) else x).lookup w = some e := by
  induction l with
  | nil => cases h
  | cons x l ih =>
    by_cases hx : x.1 = w
    · simp [hx]
    · have hany : l.any (·.1 == w) := by simpa [hx] using h
      have hne : (w == x.1) = false := by simpa using Ne.symm hx
      rw [List.map_cons, if_neg (by simpa using hx), List.lookup_cons, hne]
      exact ih hany

theorem lookup_replace_of_ne (l : List (Place × Entry)) (hp : p ≠ w) (e : Entry) :
    (l.map fun x => if x.1 == w then (w, e) else x).lookup p = l.lookup p := by
  induction l with
  | nil => rfl
  | cons x l ih =>
    rw [List.map_cons]
    by_cases hx : x.1 = w
    · have hne : (p == w) = false := by simpa using hp
      rw [if_pos (by simpa using hx), List.lookup_cons, List.lookup_cons, hx, hne]
      exact ih
    · rw [if_neg (by simpa using hx), List.lookup_cons, List.lookup_cons, ih]

/-- Setting an entry changes only what is at its place. -/
theorem entry?_set (hw : w ≠ []) (e : Entry) (p : Place) :
    entry? (t.set w e) p = if p = w then some e else t.entry? p := by
  by_cases hempty : p = []
  · simp [hempty, entry?, Ne.symm hw]
  rw [ entry?, if_neg (by simpa using hempty), set]
  split
  · next hany =>
    split
    · next hp => rw [hp, lookup_replace_self hany]
    · next hp => rw [lookup_replace_of_ne _ hp, entry?, if_neg (by simpa using hempty)]
  · next hany =>
    have hnone : t.entries.lookup w = none := by
      rw [List.lookup_eq_none_iff]
      intro x hx
      rw [bne_iff_ne]
      rintro rfl
      exact hany (List.any_eq_true.2 ⟨x, hx, by simp⟩)
    rw [List.lookup_append]
    split
    · next hp => simp [hp, hnone]
    · next hp =>
      have hne : (p == w) = false := by simpa using hp
      simp [ entry?, hempty, List.lookup_cons, hne]

theorem entry?_set_self (hw : w ≠ []) (e : Entry) : entry? (t.set w e) w = some e := by
  rw [entry?_set hw, if_pos rfl]

/-! ### Bounds -/

theorem mem_entries (h : t.entry? p = some e) (he : e ≠ .dir) : (p, e) ∈ t.entries := by
  rw [ entry?] at h
  split at h
  · exact absurd (Option.some.inj h).symm he
  · rw [List.lookup_eq_some_iff] at h
    obtain ⟨front, back, hentries, -⟩ := h
    simp [hentries]

theorem costOf_eq_sum (l : List (Place × Entry)) : costOf l = (l.map (·.2.cost)).sum := by
  rw [List.sum_eq_foldr, List.foldr_map, costOf]

theorem length_lt_linkCost (h : t.entry? p = some (.link target)) : target.parts.length < t.linkCost := by
  rw [linkCost, costOf_eq_sum]
  have hmem : target.parts.length + 1 ∈ t.entries.map (·.2.cost) :=
    List.mem_map.2 ⟨_, mem_entries h (by simp), rfl⟩
  exact List.single_le_sum (by simp) _ hmem

/-- With enough fuel it makes no difference how much there is. -/
theorem walk_fuel (h : rest.length + links * t.linkCost < fuel) (h' : rest.length + links * t.linkCost < fuel') :
    t.walk last fuel links here rest = t.walk last fuel' links here rest := by
  induction fuel generalizing fuel' links here rest with
  | zero => omega
  | succ fuel ih =>
    obtain _ | fuel' := fuel'
    · omega
    cases rest with
    | nil => rfl
    | cons name rest =>
      rw [List.length_cons] at h h'
      rw [walk, walk]
      split
      · exact ih (by omega) (by omega)
      · cases hentry : t.entry? (here ++ [name]) with
        | none => rfl
        | some e =>
          cases e with
          | dir => exact ih (by omega) (by omega)
          | file => rfl
          | link target =>
            have hcost := length_lt_linkCost hentry
            dsimp only
            split
            · rfl
            split
            · rfl
            next hlinks =>
            obtain ⟨links, rfl⟩ : ∃ m, links = m + 1 := ⟨links - 1, by omega⟩
            rw [Nat.add_mul] at h h'
            exact ih (by rw [List.length_append, Nat.add_sub_cancel]; omega)
              (by rw [List.length_append, Nat.add_sub_cancel]; omega)

/-! ### Places -/

/-- Holds of places that lie in directories all the way down. -/
def IsRoute (t : Tree) (p : Place) : Prop :=
  ∀ above name, above ++ [name] <+: p → name ≠ ".." ∧ t.entry? (above ++ [name]) = some .dir

theorem IsRoute.nil : t.IsRoute [] := by
  intro above name h
  simp at h

theorem IsRoute.of_prefix (h : t.IsRoute q) (hp : p <+: q) : t.IsRoute p :=
  fun above name habove => h above name (habove.trans hp)

theorem IsRoute.concat (h : t.IsRoute p) (hname : name ≠ "..") (hdir : t.entry? (p ++ [name]) = some .dir) :
    t.IsRoute (p ++ [name]) := by
  intro above name' habove
  obtain heq | hprefix := List.prefix_concat_iff.1 habove
  · obtain ⟨rfl, hlast⟩ := List.append_inj' heq rfl
    cases hlast
    exact ⟨hname, hdir⟩
  · exact h above name' hprefix

theorem IsRoute.up_not_mem (h : t.IsRoute p) : ".." ∉ p := by
  intro hup
  obtain ⟨front, back, rfl⟩ := List.append_of_mem hup
  exact (h front ".." ⟨back, by simp⟩).1 rfl

/-- A way that ends at a directory was in directories all along. -/
theorem walk_route (h : t.IsRoute here) (hwalk : t.walk last fuel links here rest = .ok q)
    (hdir : t.entry? q = some .dir) : t.IsRoute q := by
  induction fuel generalizing links here rest with
  | zero => cases hwalk
  | succ fuel ih =>
    cases rest with
    | nil =>
      cases hwalk
      exact h
    | cons name rest =>
      rw [walk] at hwalk
      split at hwalk
      · exact ih (h.of_prefix (List.dropLast_prefix here)) hwalk
      next hname =>
      have hname : name ≠ ".." := by simpa using hname
      cases hentry : t.entry? (here ++ [name]) with
      | none => simp [hentry] at hwalk
      | some e =>
        rw [hentry] at hwalk
        cases e with
        | dir => exact ih (h.concat hname hentry) hwalk
        | file bytes =>
          dsimp only at hwalk
          split at hwalk
          · cases hwalk
            rw [hentry] at hdir
            cases hdir
          · cases hwalk
        | link target =>
          dsimp only at hwalk
          split at hwalk
          · cases hwalk
            rw [hentry] at hdir
            cases hdir
          split at hwalk
          · cases hwalk
          split at hwalk
          · exact ih .nil hwalk
          · exact ih h hwalk

theorem walk_route_append (h : t.IsRoute (here ++ rest)) (fuel : Nat) (more : Place) :
    t.walk last (rest.length + fuel) links here (rest ++ more) = t.walk last fuel links (here ++ rest) more := by
  induction rest generalizing here with
  | nil => simp
  | cons name rest ih =>
    obtain ⟨hname, hdir⟩ := h here name ⟨rest, by simp⟩
    rw [List.append_cons] at h
    rw [List.length_cons, Nat.succ_add, List.cons_append, walk, if_neg (by simpa using hname), hdir]
    exact (ih h).trans (by simp)

/-- A route leads where it says. -/
theorem walk_of_route (h : t.IsRoute p) (hfuel : p.length < fuel) : t.walk last fuel links [] p = .ok p := by
  obtain ⟨more, rfl⟩ : ∃ more, fuel = p.length + (more + 1) := ⟨fuel - p.length - 1, by omega⟩
  have hwalk : t.walk last (p.length + (more + 1)) links [] (p ++ []) = t.walk last (more + 1) links ([] ++ p) [] :=
    walk_route_append h (more + 1) []
  rwa [List.append_nil, List.nil_append] at hwalk

theorem follow_of_route (h : t.IsRoute p) : t.follow p = .ok p :=
  walk_of_route h (by rw [walkBound]; omega)

theorem entry?_of_route (h : t.IsRoute p) : t.entry? p = some .dir := by
  obtain rfl | ⟨above, name, rfl⟩ := List.eq_nil_or_concat p
  · rfl
  · rw [List.concat_eq_append] at h ⊢
    exact (h above name List.prefix_rfl).2

theorem isDir_of_route (h : t.IsRoute p) : t.isDir p := by
  simp [isDir, target?, follow_of_route h, entry?_of_route h]

/-- Nothing is made where a directory is. -/
theorem makeDirs_of_route (h : t.IsRoute p) : t.makeDirs p = .ok t := by
  obtain rfl | ⟨above, name, rfl⟩ := List.eq_nil_or_concat p
  · rfl
  · rw [List.concat_eq_append] at h ⊢
    have habove : t.follow above = .ok above := follow_of_route (h.of_prefix (List.prefix_append _ _))
    obtain ⟨hname, hdir⟩ := h above name List.prefix_rfl
    have hmake : t.makeDir (above ++ [name]) = .error .exists_ := by
      simp [makeDir, habove, entry?_of_route (h.of_prefix (List.prefix_append _ _)), hdir]
    rw [makeDirs, List.reverse_append, List.reverse_singleton, List.singleton_append, makeDirsUp]
    simp [hmake, isDir_of_route h]

/-! ### Putting a file -/

/-- Where a file can be put nothing else is. -/
theorem free_of_walkNew (h : t.walkNew fuel links here rest = .ok w) : t.Free w := by
  induction fuel generalizing links here rest with
  | zero => cases h
  | succ fuel ih =>
    cases rest with
    | nil => cases h
    | cons name rest =>
      rw [walkNew] at h
      split at h
      · exact ih h
      cases hentry : t.entry? (here ++ [name]) with
      | none =>
        rw [hentry] at h
        dsimp only at h
        split at h
        · cases h
          exact ⟨by simp, .inl hentry⟩
        · cases h
      | some e =>
        rw [hentry] at h
        cases e with
        | dir => exact ih h
        | file bytes =>
          dsimp only at h
          split at h
          · cases h
            exact ⟨by simp, .inr ⟨bytes, hentry⟩⟩
          · cases h
        | link target =>
          dsimp only at h
          split at h
          · cases h
          · exact ih h

/-- The place where a file was put is where the path leads then. -/
theorem walk_set_of_walkNew (h : t.walkNew fuel links here rest = .ok w)
    (hfuel : rest.length + links * (t.set w (.file b)).linkCost < fuel') :
    (t.set w (.file b)).walk true fuel' links here rest = .ok w := by
  obtain ⟨hne, hfree⟩ := free_of_walkNew h
  induction fuel generalizing fuel' links here rest with
  | zero => cases h
  | succ fuel ih =>
    obtain _ | fuel' := fuel'
    · omega
    cases rest with
    | nil => cases h
    | cons name rest =>
      rw [List.length_cons] at hfuel
      rw [walkNew] at h
      rw [walk]
      split at h
      · next hup =>
        rw [if_pos hup]
        exact ih h (by omega)
      next hup =>
      rw [if_neg hup, entry?_set hne]
      by_cases hplace : here ++ [name] = w
      · have hlast : rest.isEmpty := by
          obtain hnone | ⟨bytes, hfile⟩ := hfree
          · rw [hplace, hnone] at h
            dsimp only at h
            split at h
            · assumption
            · cases h
          · rw [hplace, hfile] at h
            dsimp only at h
            split at h
            · assumption
            · cases h
        rw [if_pos hplace]
        dsimp only
        rw [if_pos hlast, hplace]
      · rw [if_neg hplace]
        cases hentry : t.entry? (here ++ [name]) with
        | none =>
          rw [hentry] at h
          dsimp only at h
          split at h
          · cases h
            exact absurd rfl hplace
          · cases h
        | some e =>
          rw [hentry] at h
          cases e with
          | dir => exact ih h (by omega)
          | file bytes => exact h
          | link target =>
            have hcost : target.parts.length < (t.set w (.file b)).linkCost :=
              length_lt_linkCost (p := here ++ [name]) (by rw [entry?_set hne, if_neg hplace, hentry])
            dsimp only at h ⊢
            rw [Bool.not_true, Bool.and_false, if_neg (by simp)]
            split at h
            · cases h
            next hlinks =>
            obtain ⟨links, rfl⟩ : ∃ m, links = m + 1 := ⟨links - 1, by omega⟩
            rw [if_neg hlinks]
            rw [Nat.add_mul] at hfuel
            exact ih h (by rw [List.length_append, Nat.add_sub_cancel]; omega)

/-- What was put at a place that writing to a path leads to is what the path leads to. -/
theorem follow_set (h : t.writePlace p = .ok w) : (t.set w (.file b)).follow p = .ok w :=
  walk_set_of_walkNew h (by rw [walkBound]; omega)

/-- Walks that end at a place, or just before it. -/
def EndsAt (w : Place) (r : Except Trouble Place) : Prop :=
  r = .ok w ∨ r = .error .missing ∨ r = .error .notDirectory

/-- A walk is the same as before a file was put, or it ended and ends at the file. -/
theorem walk_set (h : t.Free w) (last : Bool) (fuel links : Nat) (here rest : Place) :
    (t.set w (.file b)).walk last fuel links here rest = t.walk last fuel links here rest ∨
      EndsAt w ((t.set w (.file b)).walk last fuel links here rest) ∧
        EndsAt w (t.walk last fuel links here rest) := by
  induction fuel generalizing links here rest with
  | zero => exact .inl rfl
  | succ fuel ih =>
    cases rest with
    | nil => exact .inl rfl
    | cons name rest =>
      rw [walk, walk]
      split
      · exact ih links here.dropLast rest
      rw [entry?_set h.1]
      by_cases hplace : here ++ [name] = w
      · refine .inr ⟨?_, ?_⟩
        · rw [if_pos hplace]
          dsimp only
          split
          · exact .inl (by rw [hplace])
          · exact .inr (.inr rfl)
        · obtain hnone | ⟨bytes, hfile⟩ := h.2
          · rw [hplace, hnone]
            exact .inr (.inl rfl)
          · rw [hplace, hfile]
            dsimp only
            split
            · exact .inl rfl
            · exact .inr (.inr rfl)
      · rw [if_neg hplace]
        cases t.entry? (here ++ [name]) with
        | none => exact .inl rfl
        | some e =>
          cases e with
          | dir => exact ih links (here ++ [name]) rest
          | file bytes => exact .inl rfl
          | link target =>
            dsimp only
            split
            · exact .inl rfl
            split
            · exact .inl rfl
            · exact ih (links - 1) _ (target.parts ++ rest)

/-- The same for ways that are followed to their ends. -/
theorem walk_bound_set (h : t.Free w) (last : Bool) (p : Place) :
    (t.set w (.file b)).walk last ((t.set w (.file b)).walkBound p) maxLinks [] p =
        t.walk last (t.walkBound p) maxLinks [] p ∨
      EndsAt w ((t.set w (.file b)).walk last ((t.set w (.file b)).walkBound p) maxLinks [] p) ∧
        EndsAt w (t.walk last (t.walkBound p) maxLinks [] p) := by
  have hbound (t : Tree) {fuel : Nat} (hfuel : t.walkBound p ≤ fuel) :
      t.walk last (t.walkBound p) maxLinks [] p = t.walk last fuel maxLinks [] p := by
    rw [walkBound] at hfuel ⊢
    exact walk_fuel (by omega) (by omega)
  rw [hbound _ (le_max_left _ (t.walkBound p)), hbound t (le_max_right ((t.set w (.file b)).walkBound p) _)]
  exact walk_set h last _ maxLinks [] p

theorem follow_set_loop (h : t.Free w) (p : Place) :
    (t.set w (.file b)).follow p = .error .linkLoop ↔ t.follow p = .error .linkLoop := by
  obtain heq | ⟨hset, hends⟩ := walk_bound_set (b := b) h true p
  · rw [follow, heq, follow]
  · have hne {r : Except Trouble Place} (hr : EndsAt w r) : r ≠ .error .linkLoop := by
      obtain rfl | rfl | rfl := hr <;> simp
    exact iff_of_false (hne hset) (hne hends)

/-- The target of the link that a walk ends at. -/
def linkOf (t : Tree) : Except Trouble Place → Option Path
  | .ok q =>
    match t.entry? q with
    | some (.link target) => some target
    | _ => none
  | .error _ => none

/-- The target of the link that a path names. -/
def linkAt (t : Tree) (p : Place) : Option Path := t.linkOf (t.locate p)

theorem Free.ne_link (h : t.Free w) : t.entry? w ≠ some (.link target) := by
  obtain hnone | ⟨bytes, hfile⟩ := h.2
  · simp [hnone]
  · simp [hfile]

theorem linkOf_ends {r : Except Trouble Place} (hlink : ∀ target, t.entry? w ≠ some (.link target))
    (hr : EndsAt w r) : t.linkOf r = none := by
  obtain rfl | rfl | rfl := hr
  · unfold linkOf
    dsimp only
    split
    · next h => exact absurd h (hlink _)
    · rfl
  · rfl
  · rfl

/-- Links stay when a file is put. -/
theorem linkAt_set (h : t.Free w) (p : Place) : (t.set w (.file b)).linkAt p = t.linkAt p := by
  have hself : ∀ target, entry? (t.set w (.file b)) w ≠ some (.link target) := by
    simp [entry?_set_self h.1]
  rw [linkAt, linkAt, locate, locate]
  obtain heq | ⟨hset, hends⟩ := walk_bound_set (b := b) h false p
  · rw [heq]
    cases t.walk false (t.walkBound p) maxLinks [] p with
    | error => rfl
    | ok q =>
      by_cases hq : q = w
      · subst hq
        rw [linkOf_ends hself (.inl rfl), linkOf_ends (fun _ => h.ne_link) (.inl rfl)]
      · rw [linkOf, entry?_set h.1, if_neg hq, linkOf]
  · rw [linkOf_ends hself hset, linkOf_ends (fun _ => h.ne_link) hends]

end Stencil.Files.Tree
