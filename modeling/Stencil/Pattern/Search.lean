import Stencil.Pattern.Basic
import Stencil.Text.Case
import Stencil.Text.Blank
import Stencil.Text.Word

/-!
Searching for a pattern. The alternatives of a pattern are tried in order, and what follows a part
decides whether its way of matching stands.
-/
namespace Stencil.Pattern

/-- A place in a text and the texts of the groups so far. -/
structure Place where
  position : Nat
  /-- The characters in front, the nearest first. -/
  before : List Char
  rest : List Char
  groups : List (Nat × List Char)

/-- Characters that are one when case does not count, beyond those with one lower case. -/
def sameCase : List (List Nat) := [
  [105, 305], [115, 383], [181, 956], [837, 953, 8126], [912, 8147], [944, 8163], [946, 976],
  [949, 1013], [952, 977], [954, 1008], [960, 982], [961, 1009], [962, 963], [966, 981],
  [1074, 7296], [1076, 7297], [1086, 7298], [1089, 7299], [1090, 7300, 7301], [1098, 7302],
  [1123, 7303], [7304, 42571], [7777, 7835], [64261, 64262]]

def asciiLower (n : Nat) : Nat := if 65 ≤ n && n ≤ 90 then n + 32 else n

/-- The lower case characters that count as the same as `n`. -/
def lowerForms (mode : Mode) (n : Nat) : List Nat :=
  if mode.ascii then [asciiLower n]
  else
    let l := Text.simpleLower n
    (sameCase.find? (·.contains l)).getD [l]

/-- Every character that counts as the same as `n`, as far as sets ask for it. -/
def caseForms (mode : Mode) (n : Nat) : List Nat :=
  if mode.ascii then
    let l := asciiLower n
    [n, l] ++ (if 97 ≤ l && l ≤ 122 then [l - 32] else [])
  else
    let ls := lowerForms mode n
    n :: ls ++ ls.map Text.simpleUpper

def samePoint (mode : Mode) (m n : Nat) : Bool :=
  m == n || (mode.ignoreCase && (lowerForms mode m).contains
    (if mode.ascii then asciiLower n else Text.simpleLower n))

def inClass (mode : Mode) (c : Class) (ch : Char) : Bool :=
  let allowed := !mode.ascii || ch.toNat < 128
  allowed && match c with
    | .digit => Text.isDecimal ch
    | .space => Text.isBlank ch && !(mode.ascii && 28 ≤ ch.toNat && ch.toNat ≤ 31)
    | .word => Text.isWord ch

def Member.holds (mode : Mode) (n : Nat) : Member → Bool
  | .point m => m == n
  | .range low high => low ≤ n && n ≤ high
  | .cls c negated => inClass mode c (Char.ofNat n) != negated

def inSet (mode : Mode) (members : List Member) (ch : Char) : Bool :=
  let forms := if mode.ignoreCase then caseForms mode ch.toNat else [ch.toNat]
  forms.any fun n => members.any (·.holds mode n)

def isBoundary (mode : Mode) (p : Place) : Bool :=
  let word := fun (cs : List Char) => match cs with
    | [] => false
    | c :: _ => inClass mode .word c
  word p.before != word p.rest

def Anchor.holds (mode : Mode) (p : Place) : Anchor → Bool
  | .start => p.before.isEmpty || (mode.multiline && p.before.head? == some '\n')
  | .stop =>
    p.rest.isEmpty || p.rest == ['\n'] || (mode.multiline && p.rest.head? == some '\n')
  | .textStart => p.before.isEmpty
  | .textStop => p.rest.isEmpty
  | .boundary => isBoundary mode p
  | .noBoundary => !isBoundary mode p

/-- Takes a character that satisfies `f`. -/
def Place.take? (p : Place) (f : Char → Bool) : Option Place :=
  match p.rest with
  | [] => none
  | c :: rest =>
    if f c then some { p with position := p.position + 1, before := c :: p.before, rest } else none

/-- Goes back by `n` characters. -/
def Place.back? (p : Place) (n : Nat) : Option Place :=
  let taken := p.before.take n
  if taken.length < n then none
  else
    some { p with
      position := p.position - n, before := p.before.drop n, rest := taken.reverse ++ p.rest }

/-- Takes the characters of `text`. -/
def Place.takeText? (mode : Mode) : List Char → Place → Option Place
  | [], p => some p
  | c :: cs, p =>
    match p.take? fun d => samePoint mode c.toNat d.toNat with
    | none => none
    | some p => Place.takeText? mode cs p

/-- A way to match, given what has to follow. -/
abbrev Matcher := (Place → Option Place) → Place → Option Place

/-- Repeats `body`. A round that takes no text is the last one. -/
def repeatMatch (low : Nat) (high : Option Nat) (greed : Greed) (body : Matcher) :
    Nat → Nat → Matcher
  | 0, _, k, p => k p
  | fuel + 1, count, k, p =>
    let more := fun (_ : Unit) =>
      if high.any (· ≤ count) then none
      else
        body
          (fun q =>
            if q.position == p.position && low ≤ count + 1 then k q
            else repeatMatch low high greed body fuel (count + 1) k q)
          p
    if count < low then more ()
    else
      match greed with
      | .lazy => (k p).or (more ())
      | _ => (more ()).or (k p)

mutual

/-- How a pattern matches. -/
def Regex.matcher : Regex → Matcher
  | .point mode n, k, p => (p.take? fun c => samePoint mode n c.toNat).bind k
  | .any mode, k, p => (p.take? fun c => mode.dotAll || c != '\n').bind k
  | .set mode negated members, k, p => (p.take? fun c => inSet mode members c != negated).bind k
  | .anchor mode a, k, p => if a.holds mode p then k p else none
  | .seq parts, k, p => matchAll parts k p
  | .alt parts, k, p => matchAny parts k p
  | .repeated low high greed part, k, p =>
    let fuel := low + p.rest.length + 2
    match greed with
    | .possessive => (repeatMatch low high greed part.matcher fuel 0 some p).bind k
    | _ => repeatMatch low high greed part.matcher fuel 0 k p
  | .group none part, k, p => part.matcher k p
  | .group (some i) part, k, p =>
    part.matcher
      (fun q => k { q with groups := (i, p.rest.take (q.position - p.position)) :: q.groups }) p
  | .atomic part, k, p => (part.matcher some p).bind k
  | .ahead negated part, k, p =>
    match part.matcher some p with
    | some q => if negated then none else k { p with groups := q.groups }
    | none => if negated then k p else none
  | .behind negated width part, k, p =>
    match (p.back? width).bind (part.matcher some) with
    | some q => if negated then none else k { p with groups := q.groups }
    | none => if negated then k p else none
  | .backref mode i, k, p =>
    match p.groups.lookup i with
    | none => none
    | some text => (Place.takeText? mode text p).bind k
  | .cond i yes no, k, p =>
    match p.groups.lookup i with
    | some _ => yes.matcher k p
    | none => no.matcher k p

def matchAll : List Regex → Matcher
  | [], k, p => k p
  | r :: rs, k, p => r.matcher (matchAll rs k) p

def matchAny : List Regex → Matcher
  | [], _, _ => none
  | r :: rs, k, p => (r.matcher k p).or (matchAny rs k p)

end

/-- The end of the match that starts at a place. -/
def Regex.matchAt (r : Regex) (p : Place) : Option Place := r.matcher some p

/-- Tries every place from here on. -/
def searchFrom (r : Regex) (before : List Char) : List Char → Option Place
  | [] => r.matchAt ⟨before.length, before, [], []⟩
  | c :: cs =>
    match r.matchAt ⟨before.length, before, c :: cs, []⟩ with
    | some p => some p
    | none => searchFrom r (c :: before) cs

/-- Holds if the pattern matches somewhere in the text. -/
def Regex.occursIn (r : Regex) (s : String) : Bool := (searchFrom r [] s.toList).isSome

/-- Holds if the pattern matches the whole text. -/
def Regex.covers (r : Regex) (s : String) : Bool :=
  (r.matcher (fun p => if p.rest.isEmpty then some p else none) ⟨0, [], s.toList, []⟩).isSome

end Stencil.Pattern
