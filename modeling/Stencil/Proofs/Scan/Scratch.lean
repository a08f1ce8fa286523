import Stencil.Proofs.Lists
import Stencil.Scan.Files
import Stencil.Settings.Scratch

/-!
Generated files are left out of a scan if the scratch directory is where its name stands. Other spellings of
it are not recognized.
-/
namespace Stencil.Scan

variable {t : Files.Tree} {root directory place p : Path} {s : Selection} {ignores : List IgnoreFile}

theorem resolveScratch_spec {dir : String} (h : Settings.resolveScratch t root dir = .ok place) :
    dir ≠ "" ∧ place.absolute ∧ ∃ base, t.resolve false root.parts = .ok base ∧ base <+: place.parts := by
  rw [Settings.resolveScratch] at h
  split at h
  · cases h
  next hempty =>
  split at h
  · cases h
  split at h
  · cases h
  next base hbase =>
  split at h
  · cases h
  next found _ =>
  split at h
  · cases h
  next hprefix =>
  split at h
  · cases h
  cases h
  exact ⟨by simpa using hempty, rfl, base, hbase, List.isPrefixOf_iff_prefix.1 (by simpa using hprefix)⟩

/-- A file that counts is not below a directory of the name of the scratch directory. -/
theorem head_of_accepts (hdir : s.scratchDir ≠ "") (h : accepts t root s ignores p = .ok true) :
    (p.partsBelow root).head? ≠ some s.scratchDir := by
  intro hhead
  rw [accepts] at h
  split at h
  · cases h
  · rw [if_pos (by simp [hdir, hhead])] at h
    cases h

theorem accepts_of_findFiles {found : List Path} (h : findFiles t root s directory = .ok found) (hp : p ∈ found) :
    ∃ ignores, accepts t root s ignores p = .ok true := by
  rw [findFiles] at h
  split at h
  · cases h
    cases hp
  cases hignores : (ignoreFiles t root s).mapM (readIgnoreFile t) with
  | error e =>
    rw [hignores] at h
    cases h
  | ok ignores =>
    rw [hignores] at h
    change ((filesBelow t directory).filterM (accepts t root s ignores) >>= fun found =>
      pure (sortByPath root found)) = _ at h
    cases hkept : (filesBelow t directory).filterM (accepts t root s ignores) with
    | error e =>
      rw [hkept] at h
      cases h
    | ok kept =>
      rw [hkept] at h
      cases h
      have hmem : p ∈ kept := (List.mergeSort_perm _ _).mem_iff.1 hp
      exact ⟨ignores, (of_mem_filterM hkept hmem).2⟩

/-- If the scratch directory is a directory at the root and named as it is spelled, no file that is found lies in
it. -/
theorem findFiles_outside_scratch (t : Files.Tree) (root directory place : Path) (s : Selection)
    (hroot : t.resolve false root.parts = .ok root.parts)
    (hplace : Settings.resolveScratch t root s.scratchDir = .ok place)
    (hspelled : (place.partsBelow root).head? = some s.scratchDir) :
    match findFiles t root s directory with
    | .ok found => ∀ p ∈ found, p.isWithin place = false
    | .error _ => True := by
  obtain ⟨hdir, habsolute, base, hbase, hprefix⟩ := resolveScratch_spec hplace
  rw [hroot, Except.ok.injEq] at hbase
  subst hbase
  split
  · next found hfound =>
    intro p hp
    by_contra hwithin
    rw [Bool.not_eq_false, Path.isWithin, Bool.and_eq_true] at hwithin
    obtain ⟨more, hmore⟩ := List.isPrefixOf_iff_prefix.1 hwithin.2
    obtain ⟨rest, hrest⟩ := hprefix
    obtain ⟨ignores, haccepts⟩ := accepts_of_findFiles hfound hp
    refine head_of_accepts hdir haccepts ?_
    rw [Path.partsBelow, ← hrest, List.drop_left] at hspelled
    rw [Path.partsBelow, ← hmore, ← hrest, List.append_assoc, List.drop_left, List.head?_append, hspelled]
    rfl
  · trivial

/-- A project with a file in its scratch directory. -/
def withScratch : Files.Tree :=
  ⟨[([".scratch"], .dir), ([".scratch", "page.py"], .file ⟨#[]⟩), (["app.py"], .file ⟨#[]⟩)]⟩

def pythonFiles : Selection := ⟨[".py"], ".scratch", [], [], false⟩

theorem findFiles_withScratch :
    match findFiles withScratch ⟨true, []⟩ pythonFiles ⟨true, []⟩ with
    | .ok found => ∀ p ∈ found, p.isWithin ⟨true, [".scratch"]⟩ = false
    | .error _ => True := by
  have hplace : Settings.resolveScratch withScratch ⟨true, []⟩ pythonFiles.scratchDir = .ok ⟨true, [".scratch"]⟩ := by
    have hhome : (".scratch".startsWith "~") = false := by decide +kernel
    have hpath : Path.ofString ".scratch" = ⟨false, [".scratch"]⟩ := by decide +kernel
    rw [Settings.resolveScratch, if_neg (by decide), pythonFiles, hhome, hpath]
    rfl
  exact findFiles_outside_scratch withScratch ⟨true, []⟩ ⟨true, []⟩ ⟨true, [".scratch"]⟩ pythonFiles rfl hplace rfl

end Stencil.Scan
