import JsonnetLens.Text.Basic
/-!
# POSIX paths

A path is the number of slashes it begins with and its segments.  Two leading slashes are a root of
their own, three or more are as good as one.  `ofText` drops what never means anything, the empty
segments and the single dots; `normal` also resolves the double dots, without asking the file
system.
-/
namespace JsonnetLens

structure Path where
  slashes : Nat
  segments : List Text
  deriving DecidableEq, Repr, Inhabited

namespace Path

def isSegment (t : Text) : Bool := !t.isEmpty && t ≠ ['.']

/-- The slashes that count, of those a text begins with. -/
def rootSlashes : Text → Nat
  | '/' :: '/' :: '/' :: _ => 1
  | '/' :: '/' :: _ => 2
  | '/' :: _ => 1
  | _ => 0

def ofText (t : Text) : Path := ⟨rootSlashes t, (t.splitOn '/').filter isSegment⟩

/-- The empty relative path is written as a dot. -/
def toText (p : Path) : Text :=
  if p.slashes = 0 ∧ p.segments = [] then ['.']
  else List.replicate p.slashes '/' ++ Text.join ['/'] p.segments

def isAbsolute (p : Path) : Bool := p.slashes ≠ 0

def dots : Text := ['.', '.']

/-- Takes one more segment; `kept` holds the segments so far, the last one first. -/
def resolveSegment (absolute : Bool) (kept : List Text) (segment : Text) : List Text :=
  if segment ≠ dots then segment :: kept
  else
    match kept with
    | [] => if absolute then [] else [dots]
    | last :: rest => if last = dots then dots :: last :: rest else rest

/-- Resolves the double dots; those above a root vanish, those at the front of a relative path
stay. -/
def normal (p : Path) : Path :=
  ⟨p.slashes, (p.segments.foldl (resolveSegment p.isAbsolute) []).reverse⟩

/-- `q` as seen from `p`. -/
def append (p q : Path) : Path := if q.isAbsolute then q else ⟨p.slashes, p.segments ++ q.segments⟩

instance : Append Path := ⟨append⟩

/-- The directory that holds the path; a root holds itself. -/
def parent (p : Path) : Path := ⟨p.slashes, p.segments.dropLast⟩

/-- The path itself and its parents up to the root. -/
def ancestors (p : Path) : List Path :=
  (List.range (p.segments.length + 1)).map fun n =>
    ⟨p.slashes, p.segments.take (p.segments.length - n)⟩

/-- The last segment, if there is one. -/
def name (p : Path) : Text := p.segments.getLast?.getD []

/-- A file name before and after its last dot.  A dot at either end of the name does not count. -/
def splitSuffix (name : Text) : Text × Text :=
  match Text.cutLast? '.' name with
  | some (stem, suffix) => if stem.isEmpty || suffix.isEmpty then (name, []) else (stem, suffix)
  | none => (name, [])

/-- The name without its last suffix. -/
def stem (p : Path) : Text := (splitSuffix p.name).1

/-- What follows `base` in `p`, segment by segment. -/
def segmentsBelow? : (base p : List Text) → Option (List Text)
  | [], rest => some rest
  | _ :: _, [] => none
  | b :: base, s :: rest => if b = s then segmentsBelow? base rest else none

/-- The relative path that leads from `base` to `p`, if `p` lies at or below `base`. -/
def relativeTo? (p base : Path) : Option Path :=
  if p.slashes = base.slashes then (segmentsBelow? base.segments p.segments).map (⟨0, ·⟩) else none

end Path

/-- The normal form of a path that is written as text. -/
def normalizePath (t : Text) : Text := (Path.ofText t).normal.toText

end JsonnetLens
