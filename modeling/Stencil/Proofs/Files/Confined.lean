import Stencil.Files.Text
import Stencil.Proofs.Files.Resolve

/-!
What is done at a place changes nothing elsewhere. Where no link leads away, a path names the place that it spells,
so directories that are made, removed or written to are where they seem to be.
-/
namespace Stencil.Files.Tree

variable {t t' t'' : Tree} {p q w here rest above place place' : Place} {name : String} {target : Path}
  {fuel links : Nat} {last : Bool} {inside inside' : Place → Prop} {e : Entry} {b : ByteArray}

/-! ### Well-formed trees -/

/-- Every place above an entry is a directory, and no entry is called as what leads upwards. -/
def Rooted (t : Tree) : Prop :=
  ∀ above name, (t.entry? (above ++ [name])).isSome → name ≠ ".." ∧ t.entry? above = some .dir

theorem entry?_nil (t : Tree) : t.entry? [] = some .dir := rfl

theorem rooted_of_entries (h : ∀ e ∈ t.entries, e.1.getLast? ≠ some ".." ∧ t.entry? e.1.dropLast = some .dir) :
    t.Rooted := by
  intro above name hsome
  rw [ entry?, if_neg (by simp)] at hsome
  obtain ⟨e, he⟩ := Option.isSome_iff_exists.1 hsome
  obtain ⟨front, back, hentries, -⟩ := List.lookup_eq_some_iff.1 he
  have hmem := h (above ++ [name], e) (by simp [hentries])
  rw [List.getLast?_concat, List.dropLast_concat] at hmem
  exact ⟨fun hname => hmem.1 (congrArg some hname), hmem.2⟩

/-- A directory lies in directories. -/
theorem Rooted.route (ht : t.Rooted) (h : t.entry? p = some .dir) : t.IsRoute p := by
  induction p using List.reverseRecOn with
  | nil => exact .nil
  | append_singleton p name ih =>
    obtain ⟨hname, hdir⟩ := ht p name (by simp [h])
    exact (ih hdir).concat hname h

theorem Rooted.dropLast (ht : t.Rooted) (h : t.entry? p = some .dir) : t.entry? p.dropLast = some .dir :=
  have hroute := ht.route h
  entry?_of_route (hroute.of_prefix (List.dropLast_prefix p))

/-- Nothing lies below what is no directory. -/
theorem Rooted.below (ht : t.Rooted) (h : t.entry? p ≠ some .dir) (hq : p <+: q) (hne : q ≠ p) : t.entry? q = none := by
  obtain ⟨more, rfl⟩ := hq
  induction more using List.reverseRecOn with
  | nil => exact absurd (by simp) hne
  | append_singleton more name ih =>
    rw [← List.append_assoc, ← Option.not_isSome_iff_eq_none]
    intro hsome
    obtain ⟨-, hdir⟩ := ht _ name hsome
    by_cases hmore : more = []
    · subst hmore
      rw [List.append_nil] at hdir
      exact h hdir
    · rw [ih (by simpa using hmore)] at hdir
      cases hdir

/-! ### Straight places -/

/-- Holds of places with no link above or at them and no part that leads upwards. -/
def Straight (t : Tree) (p : Place) : Prop :=
  ∀ above name, above ++ [name] <+: p → name ≠ ".." ∧ ∀ target, t.entry? (above ++ [name]) ≠ some (.link target)

theorem Straight.of_prefix (h : t.Straight q) (hp : p <+: q) : t.Straight p :=
  fun above name habove => h above name (habove.trans hp)

theorem Straight.concat (h : t.Straight p) (hname : name ≠ "..")
    (hlink : ∀ target, t.entry? (p ++ [name]) ≠ some (.link target)) : t.Straight (p ++ [name]) := by
  intro above name' habove
  obtain heq | hbelow := List.prefix_concat_iff.1 habove
  · obtain ⟨rfl, hlast⟩ := List.append_inj' heq rfl
    cases hlast
    exact ⟨hname, hlink⟩
  · exact h above name' hbelow

/-- Where no link is named there is none. -/
theorem Clear.straight (h : t.Clear p) (ht : t.Rooted) : t.Straight p := by
  intro above name habove
  obtain ⟨hname, hlink⟩ := h above name habove
  refine ⟨hname, fun target hentry => ?_⟩
  obtain ⟨-, hdir⟩ := ht above name (by simp [hentry])
  rw [linkAt_of_route (ht.route hdir) hname hentry] at hlink
  cases hlink

/-- A walk goes along a straight place as it is spelled. -/
theorem walk_straight {more : Place} (h : t.Straight (here ++ rest))
    (hwalk : t.walk last fuel links here (rest ++ more) = .ok q) :
    ∃ fuel, t.walk last fuel links (here ++ rest) more = .ok q := by
  induction rest generalizing here fuel with
  | nil => exact ⟨fuel, by simpa using hwalk⟩
  | cons name rest ih =>
    obtain ⟨hname, hlink⟩ := h here name ⟨rest, by simp⟩
    obtain _ | fuel := fuel
    · cases hwalk
    rw [List.cons_append, walk, if_neg (by simpa using hname)] at hwalk
    rw [List.append_cons] at h ⊢
    cases hentry : t.entry? (here ++ [name]) with
    | none => simp [hentry] at hwalk
    | some e =>
      rw [hentry] at hwalk
      cases e with
      | dir => exact ih h hwalk
      | file bytes =>
        dsimp only at hwalk
        split at hwalk
        · next hend =>
          obtain ⟨rfl, rfl⟩ := List.append_eq_nil_iff.1 (List.isEmpty_iff.1 hend)
          exact ⟨fuel + 1, by simpa [walk] using hwalk⟩
        · cases hwalk
      | link target => exact absurd hentry (hlink target)

theorem follow_straight (h : t.Straight p) (hq : t.follow p = .ok q) : q = p := by
  have hwalk : t.walk true (t.walkBound p) maxLinks [] (p ++ []) = .ok q := by rwa [List.append_nil]
  obtain ⟨fuel, hend⟩ := walk_straight (by rwa [List.nil_append]) hwalk
  cases fuel <;> cases hend
  rfl

/-- What is at the end of a path may be a link. -/
theorem locate_straight (h : t.Straight p) (hname : name ≠ "..") (hq : t.locate (p ++ [name]) = .ok q) :
    q = p ++ [name] := by
  obtain ⟨fuel, hend⟩ := walk_straight (by rwa [List.nil_append]) hq
  obtain _ | fuel := fuel
  · cases hend
  rw [List.nil_append, walk, if_neg (by simpa using hname)] at hend
  cases hentry : t.entry? (p ++ [name]) with
  | none => simp [hentry] at hend
  | some e =>
    rw [hentry] at hend
    cases e with
    | dir => cases fuel <;> cases hend; rfl
    | file | link => cases hend; rfl

theorem walkNew_straight (h : t.Straight (here ++ rest)) (hwalk : t.walkNew fuel links here rest = .ok q) :
    q = here ++ rest := by
  induction rest generalizing here fuel with
  | nil => cases fuel <;> cases hwalk
  | cons name rest ih =>
    obtain ⟨hname, hlink⟩ := h here name ⟨rest, by simp⟩
    obtain _ | fuel := fuel
    · cases hwalk
    rw [walkNew, if_neg (by simpa using hname)] at hwalk
    have hlast (hend : rest.isEmpty) : here ++ [name] = here ++ name :: rest := by rw [List.isEmpty_iff.1 hend]
    cases hentry : t.entry? (here ++ [name]) with
    | none =>
      rw [hentry] at hwalk
      dsimp only at hwalk
      split at hwalk
      · next hend =>
        cases hwalk
        exact hlast hend
      · cases hwalk
    | some e =>
      rw [hentry] at hwalk
      cases e with
      | dir =>
        rw [List.append_cons] at h ⊢
        exact ih h hwalk
      | file bytes =>
        dsimp only at hwalk
        split at hwalk
        · next hend =>
          cases hwalk
          exact hlast hend
        · cases hwalk
      | link target => exact absurd hentry (hlink target)

/-- A file is put into a directory. -/
theorem walkNew_above (ht : t.Rooted) (hhere : t.entry? here = some .dir)
    (hwalk : t.walkNew fuel links here rest = .ok q) :
    ∃ above name, q = above ++ [name] ∧ name ≠ ".." ∧ t.entry? above = some .dir := by
  induction fuel generalizing links here rest with
  | zero => cases hwalk
  | succ fuel ih =>
    cases rest with
    | nil => cases hwalk
    | cons name rest =>
      rw [walkNew] at hwalk
      split at hwalk
      · exact ih (ht.dropLast hhere) hwalk
      next hname =>
      have hplace : ∃ above name', here ++ [name] = above ++ [name'] ∧ name' ≠ ".." ∧ t.entry? above = some .dir :=
        ⟨here, name, rfl, by simpa using hname, hhere⟩
      cases hentry : t.entry? (here ++ [name]) with
      | none =>
        rw [hentry] at hwalk
        dsimp only at hwalk
        split at hwalk <;> cases hwalk
        exact hplace
      | some e =>
        rw [hentry] at hwalk
        cases e with
        | dir => exact ih hentry hwalk
        | file bytes =>
          dsimp only at hwalk
          split at hwalk <;> cases hwalk
          exact hplace
        | link target =>
          dsimp only at hwalk
          split at hwalk
          · cases hwalk
          · refine ih ?_ hwalk
            split
            · rfl
            · exact hhere

/-! ### Changes -/

/-- From one tree to the other, entries were changed only where `inside` holds and directories were made on the way
to a place, and no link was made. -/
structure Confined (inside : Place → Prop) (place : Place) (t t' : Tree) : Prop where
  outside : ∀ p, inside p ∨ t'.entry? p = t.entry? p ∨ p <+: place ∧ t.entry? p = none ∧ t'.entry? p = some .dir
  links : ∀ p target, t'.entry? p = some (.link target) → t.entry? p = some (.link target)
  rooted : t.Rooted → t'.Rooted

namespace Confined

theorem refl : Confined inside place t t := ⟨fun _ => .inr (.inl rfl), fun _ _ => id, id⟩

theorem trans (h : Confined inside place t t') (h' : Confined inside place t' t'') : Confined inside place t t'' := by
  refine ⟨fun p => ?_, fun p target hp => h.links p target (h'.links p target hp), fun ht => h'.rooted (h.rooted ht)⟩
  obtain hin | heq | ⟨hp, hnone, hdir⟩ := h.outside p
  · exact .inl hin
  · rw [← heq]
    exact h'.outside p
  · -- what was made is not made again, since it is there
    obtain hin | heq' | ⟨-, hnone', -⟩ := h'.outside p
    · exact .inl hin
    · exact .inr (.inr ⟨hp, hnone, heq'.trans hdir⟩)
    · rw [hdir] at hnone'
      cases hnone'

theorem mono (h : Confined inside place t t') (hinside : ∀ p, inside p → inside' p) (hplace : place <+: place') :
    Confined inside' place' t t' :=
  ⟨fun p => (h.outside p).imp (hinside p) (.imp_right fun hp => ⟨hp.1.trans hplace, hp.2⟩), h.links, h.rooted⟩

/-- A directory that is made below a place is inside of it. -/
theorem of_child (h : Confined (fun _ => False) (place ++ [name]) t t') : Confined (place <+: ·) place t t' := by
  refine ⟨fun p => ?_, h.links, h.rooted⟩
  obtain hin | heq | ⟨hp, hmade⟩ := h.outside p
  · exact hin.elim
  · exact .inr (.inl heq)
  · obtain rfl | hp := List.prefix_concat_iff.1 hp
    · exact .inl (List.prefix_append _ _)
    · exact .inr (.inr ⟨hp, hmade⟩)

theorem straight (h : Confined inside place t t') (hp : t.Straight p) : t'.Straight p := by
  intro above name habove
  obtain ⟨hname, hlink⟩ := hp above name habove
  exact ⟨hname, fun target hentry => hlink target (h.links _ target hentry)⟩

end Confined

theorem Rooted.set (ht : t.Rooted) (habove : t.entry? above = some .dir) (hname : name ≠ "..")
    (he : e = .dir ∨ t.entry? (above ++ [name]) ≠ some .dir) : (t.set (above ++ [name]) e).Rooted := by
  have hne : above ++ [name] ≠ [] := by simp
  intro above' name' hsome
  rw [entry?_set hne] at hsome
  have hold : name' ≠ ".." ∧ t.entry? above' = some .dir := by
    split at hsome
    · next heq =>
      obtain ⟨rfl, hlast⟩ := List.append_inj' heq rfl
      cases hlast
      exact ⟨hname, habove⟩
    · exact ht above' name' hsome
  refine ⟨hold.1, ?_⟩
  rw [entry?_set hne]
  split
  · next heq =>
    obtain rfl | hnot := he
    · rfl
    · exact absurd (heq ▸ hold.2) hnot
  · exact hold.2

/-- A directory is made where nothing is. -/
theorem confined_set_dir (habove : t.entry? above = some .dir) (hname : name ≠ "..")
    (hnone : t.entry? (above ++ [name]) = none) :
    Confined (fun _ => False) (above ++ [name]) t (t.set (above ++ [name]) .dir) := by
  have hne : above ++ [name] ≠ [] := by simp
  refine ⟨fun p => .inr ?_, fun p target hp => ?_, fun ht => ht.set habove hname (.inl rfl)⟩
  · rw [entry?_set hne]
    split
    · next heq => exact .inr ⟨heq ▸ List.prefix_rfl, heq ▸ hnone, rfl⟩
    · exact .inl rfl
  · rw [entry?_set hne] at hp
    split at hp
    · cases hp
    · exact hp

/-- A file is put where a path leads that is straight. -/
theorem confined_write (ht : t.Rooted) (h : t.Straight p) (hwrite : t.write p b = .ok t') :
    Confined (· = p) place t t' := by
  rw [write] at hwrite
  cases hplace : t.writePlace p with
  | error e => simp [hplace, Except.map] at hwrite
  | ok q =>
    rw [hplace] at hwrite
    cases hwrite
    obtain rfl : q = p := walkNew_straight (by rwa [List.nil_append]) hplace
    obtain ⟨above, name, rfl, hname, habove⟩ := walkNew_above ht (entry?_nil t) hplace
    have hfree := free_of_walkNew hplace
    refine ⟨fun p => ?_, fun p target hp => ?_, fun ht => ht.set habove hname (.inr ?_)⟩
    · rw [entry?_set hfree.1]
      split
      · next heq => exact .inl heq
      · exact .inr (.inl rfl)
    · rw [entry?_set hfree.1] at hp
      split at hp
      · cases hp
      · exact hp
    · obtain hnone | ⟨bytes, hfile⟩ := hfree.2
      · simp [hnone]
      · simp [hfile]

theorem lookup_filter (l : List (Place × Entry)) (keep : Place → Bool) (p : Place) :
    (l.filter fun e => keep e.1).lookup p = if keep p then l.lookup p else none := by
  induction l with
  | nil => simp
  | cons x l ih =>
    obtain ⟨k, e⟩ := x
    obtain rfl | hk := eq_or_ne p k
    · cases hkeep : keep p <;> simp [hkeep, ih]
    · have hne : (p == k) = false := by simpa using hk
      cases hkeep : keep k <;> simp [hkeep, List.lookup_cons, hne, ih]

/-- Erasing changes only what is at a place and below it. -/
theorem entry?_erase (hq : q ≠ []) (p : Place) : Tree.entry? (t.erase q) p = if q <+: p then none else t.entry? p := by
  obtain rfl | hp := eq_or_ne p []
  · simp [ entry?, hq]
  rw [ entry?, entry?, if_neg (by simpa using hp), erase, lookup_filter t.entries fun p => !q.isPrefixOf p]
  by_cases hbelow : q <+: p <;> simp [hbelow, hp]

theorem confined_erase (hq : q ≠ []) : Confined (q <+: ·) place t (t.erase q) := by
  refine ⟨fun p => ?_, fun p target hp => ?_, fun ht above name hsome => ?_⟩
  · by_cases hbelow : q <+: p
    · exact .inl hbelow
    · exact .inr (.inl (by rw [entry?_erase hq, if_neg hbelow]))
  · rw [entry?_erase hq] at hp
    split at hp
    · cases hp
    · exact hp
  · rw [entry?_erase hq] at hsome
    split at hsome
    · cases hsome
    next hbelow =>
    obtain ⟨hname, hdir⟩ := ht above name hsome
    refine ⟨hname, ?_⟩
    rwa [entry?_erase hq, if_neg fun h => hbelow (h.trans (List.prefix_append _ _))]

/-! ### Directories -/

/-- A directory is made below a straight place, where nothing was. -/
theorem makeDir_straight (h : t.Straight p) (hmake : t.makeDir (p ++ [name]) = .ok t') :
    Confined (fun _ => False) (p ++ [name]) t t' ∧ name ≠ ".." ∧ t.entry? (p ++ [name]) = none ∧
      t'.entry? (p ++ [name]) = some .dir := by
  rw [makeDir, List.dropLast_concat, List.getLast?_concat] at hmake
  cases hfollow : t.follow p with
  | error e => simp [hfollow] at hmake
  | ok q =>
    rw [hfollow] at hmake
    obtain rfl : q = p := follow_straight h hfollow
    dsimp only at hmake
    split at hmake
    · next name' hdir hlast =>
      cases hlast
      split at hmake
      · cases hmake
      next hfree =>
      rw [Bool.or_eq_true, not_or, Option.not_isSome_iff_eq_none] at hfree
      obtain ⟨hname, hnone⟩ := hfree
      have hname : name ≠ ".." := by simpa using hname
      cases hmake
      exact ⟨confined_set_dir hdir hname hnone, hname, hnone, entry?_set_self (by simp) _⟩
    · next hlast => cases hlast
    · cases hmake

/-- Directories are made on the way to a straight place, and nothing else is. -/
theorem makeDirsUp_straight {names : List String} (h : t.Straight names.reverse) (hmake : t.makeDirsUp names = .ok t') :
    Confined (fun _ => False) names.reverse t t' := by
  induction names generalizing t t' with
  | nil =>
    cases hmake
    exact .refl
  | cons name names ih =>
    rw [List.reverse_cons] at h ⊢
    have habove : names.reverse <+: names.reverse ++ [name] := List.prefix_append _ _
    rw [makeDirsUp, List.reverse_cons] at hmake
    split at hmake
    · next hfirst =>
      cases hmake
      exact (makeDir_straight (h.of_prefix habove) hfirst).1
    · cases hup : t.makeDirsUp names with
      | error e => simp [hup, bind, Except.bind] at hmake
      | ok above =>
        have hrest : Confined (fun _ => False) (names.reverse ++ [name]) t above :=
          (ih (h.of_prefix habove) hup).mono (fun _ => id) habove
        simp only [hup, bind, Except.bind] at hmake
        split at hmake
        · next hlast =>
          cases hmake
          exact hrest.trans (makeDir_straight (hrest.straight (h.of_prefix habove)) hlast).1
        · split at hmake <;> cases hmake
          exact hrest
    · split at hmake <;> cases hmake
      exact .refl

theorem makeDirs_straight (h : t.Straight p) (hmake : t.makeDirs p = .ok t') : Confined (fun _ => False) p t t' := by
  rw [← List.reverse_reverse p] at h ⊢
  exact makeDirsUp_straight h hmake

/-- Holds of places with no link above, at or below them. -/
structure Plain (t : Tree) (p : Place) : Prop where
  straight : t.Straight p
  below : ∀ q target, p <+: q → t.entry? q ≠ some (.link target)

theorem Plain.of_confined (h : t.Plain p) (hc : Confined inside place t t') : t'.Plain p :=
  ⟨hc.straight h.straight, fun q target hq hentry => h.below q target hq (hc.links q target hentry)⟩

theorem Plain.child (h : t.Plain p) (hname : name ≠ "..") : t.Straight (p ++ [name]) :=
  h.straight.concat hname fun target => h.below _ target (List.prefix_append p [name])

/-- There is no link below a directory that was not there. -/
theorem makeDir_plain (ht : t.Rooted) (h : t.Straight p) (hmake : t.makeDir (p ++ [name]) = .ok t') :
    t'.Plain (p ++ [name]) := by
  obtain ⟨hconfined, hname, hnone, hdir⟩ := makeDir_straight h hmake
  refine ⟨(hconfined.straight h).concat hname (by simp [hdir]), fun q target hq hentry => ?_⟩
  -- a link below would have been there before, where nothing was
  have hlink := hconfined.links q target hentry
  obtain rfl | hqp := eq_or_ne q (p ++ [name])
  · rw [hdir] at hentry
    cases hentry
  · rw [ht.below (by simp [hnone]) hq hqp] at hlink
    cases hlink

theorem makeNewDir_plain (ht : t.Rooted) (h : t.Straight p) (hmake : t.makeNewDir (p ++ [name]) = .ok t') :
    Confined (fun _ => False) (p ++ [name]) t t' ∧ t'.Plain (p ++ [name]) := by
  rw [makeNewDir] at hmake
  split at hmake
  · rw [List.dropLast_concat] at hmake
    cases hup : t.makeDirs p with
    | error e => simp [hup, bind, Except.bind] at hmake
    | ok above =>
      simp only [hup, bind, Except.bind] at hmake
      have habove := makeDirs_straight h hup
      exact ⟨(habove.mono (fun _ => id) (List.prefix_append p [name])).trans (makeDir_straight (habove.straight h) hmake).1,
        makeDir_plain (habove.rooted ht) (habove.straight h) hmake⟩
  · exact ⟨(makeDir_straight h hmake).1, makeDir_plain ht h hmake⟩

/-- What is removed is the directory that is named, also if there is a link in its place. -/
theorem removeDir_straight (h : t.Straight p) (hname : name ≠ "..") :
    Confined (p ++ [name] <+: ·) place t (t.removeDir (p ++ [name])) := by
  rw [removeDir]
  split
  · exact .refl
  · next q hlocate =>
    obtain rfl : q = p ++ [name] := locate_straight h hname hlocate
    split
    · exact confined_erase (by simp)
    · exact .refl

/-! ### Resolved places -/

/-- Resolving the path runs into no loop of links. -/
def Loopless (t : Tree) (p : Place) : Prop :=
  ∀ r, t.resolveFrom false (t.resolveBound p) [] p [] = .ok r → r.left = none

instance : Decidable (t.Loopless p) :=
  decidable_of_iff ((t.resolveFrom false (t.resolveBound p) [] p []).toOption.all (·.left.isNone)) <| by
    cases h : t.resolveFrom false (t.resolveBound p) [] p [] <;> simp [Loopless, h, Except.toOption]

/-- What a path resolves to has no links. -/
theorem Loopless.clear (h : t.Loopless p) (hq : t.resolve false p = .ok q) : t.Clear q := by
  obtain ⟨r, hr, rfl, -⟩ := resolve_eq_ok.1 hq
  have hleft := h r hr
  have hclear := (resolveFrom_spec .nil .nil hr).2.2 hleft
  have hup : ".." ∉ r.reached := by
    intro hmem
    obtain ⟨front, back, heq⟩ := List.append_of_mem hmem
    exact (hclear front ".." ⟨back, by simp [heq]⟩).1 rfl
  rw [hleft, Option.getD_none, List.append_nil, Path.normalized_eq rfl hup]
  exact hclear

theorem resolveFrom_clear (h : t.Clear (here ++ rest)) (hfuel : rest.length < fuel) (seen : List (Place × Option Place)) :
    t.resolveFrom false fuel here rest seen = .ok ⟨here ++ rest, none, seen⟩ := by
  induction rest generalizing here fuel with
  | nil =>
    obtain ⟨fuel, rfl⟩ : ∃ m, fuel = m + 1 := ⟨fuel - 1, by simp at hfuel; omega⟩
    rw [resolveFrom_nil, List.append_nil]
  | cons name rest ih =>
    rw [List.length_cons] at hfuel
    obtain ⟨fuel, rfl⟩ : ∃ m, fuel = m + 1 := ⟨fuel - 1, by omega⟩
    obtain ⟨hname, hlink⟩ := h here name ⟨rest, by simp⟩
    rw [List.append_cons] at h ⊢
    rw [resolveFrom_cons, if_neg (by simpa using hname), hlink]
    exact ih h (by omega)

/-- What was resolved stays as it is. -/
theorem resolve_resolved (h : t.Loopless p) (hq : t.resolve false p = .ok q) : t.resolve false q = .ok q := by
  have hclear : t.Clear ([] ++ q) := h.clear hq
  obtain ⟨-, -, -, hends⟩ := resolve_eq_ok.1 hq
  refine resolve_eq_ok.2 ⟨_, resolveFrom_clear hclear (by rw [resolveBound]; omega) [], ?_, hends⟩
  rw [Option.getD_none, List.append_nil, Path.normalized_eq rfl (up_not_mem_of_resolve hq), List.nil_append]

end Stencil.Files.Tree
