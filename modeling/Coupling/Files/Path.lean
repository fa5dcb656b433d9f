import Coupling.Text.Split

/-!
# Paths

A path is a row of components after a number of slashes; a path without slashes in front is relative. Slashes divide the
components, so no component holds one. Reading a path drops what does not change where it leads: repeated slashes,
components that are a single dot, and slashes at the end. Two dots stay, since where they lead depends on the files.
Exactly two slashes in front stay two, more become one.

Paths are ordered by their components, first difference first, so `p1/A` comes before `p1-x/A`.
-/

namespace Coupling

/-- A path. -/
structure Path where
  /-- How many slashes stand in front. -/
  slashes : Nat := 0
  /-- The components. -/
  parts : List Text := []
  /-- A slash is part of no component. -/
  divided : ∀ part ∈ parts, ('/' : CodePoint) ∉ part := by decide
  deriving DecidableEq

namespace Path

/-- The path of the root directory. -/
def root : Path := { slashes := 1 }

/-- The slashes that are kept in front of a path. -/
def kept (slashes : Nat) : Nat := if slashes = 0 then 0 else if slashes = 2 then 2 else 1

/-- A component that says something. -/
def isPart (part : Text) : Bool := part ≠ [] && part ≠ ("." : Text)

/-- Reads a path. -/
def ofText (t : Text) : Path where
  slashes := kept (t.takeWhile (· = ('/' : CodePoint))).length
  parts := (Text.split ('/' : CodePoint) t).filter isPart
  divided _ h := Text.not_mem_of_mem_split (List.mem_filter.1 h).1

instance : Coe String Path := ⟨fun s => ofText s⟩

/-- A path as text; the empty relative path is a dot. -/
def toText (p : Path) : Text :=
  match List.replicate p.slashes ('/' : CodePoint) ++ Text.join "/" p.parts with
  | [] => "."
  | t => t

/-- Whether a path does not depend on the working directory. -/
def isAbsolute (p : Path) : Bool := p.slashes ≠ 0

/-- The path that goes on from another one. -/
def append (p : Path) (rest : List Text) (h : ∀ part ∈ rest, ('/' : CodePoint) ∉ part) : Path where
  slashes := p.slashes
  parts := p.parts ++ rest
  divided _ hpart := (List.mem_append.1 hpart).elim (p.divided _) (h _)

/-- The path that names lead to from another one. No path leads to a name with a slash in it. -/
def descend? (p : Path) (names : List Text) : Option Path :=
  if h : ∀ name ∈ names, ('/' : CodePoint) ∉ name then some (p.append names h) else none

/-- The path `q` as seen from `p`. -/
def join (p q : Path) : Path := if q.isAbsolute then q else p.append q.parts q.divided

instance : HDiv Path Path Path := ⟨join⟩

/-- The last component; nothing if there is none. -/
def name (p : Path) : Text := p.parts.getLast?.getD []

/-- The path without its last component. -/
def parent (p : Path) : Path where
  slashes := p.slashes
  parts := p.parts.dropLast
  divided _ h := p.divided _ (List.dropLast_subset p.parts h)

/-- What paths are ordered by. -/
def key (p : Path) : List Text :=
  if p.isAbsolute then List.replicate p.slashes ('/' : CodePoint) :: p.parts else p.parts

/-- The order of paths. -/
def le (p q : Path) : Bool := p.key ≤ q.key

/-! ### Two dots -/

/-- Goes on by one component; two dots leave the last one again, and at the top they mean nothing. -/
def advance (done : List Text) (part : Text) : List Text := if part = (".." : Text) then done.dropLast else done ++ [part]

/-- Goes on by some components. -/
def collapse (parts : List Text) : List Text := parts.foldl advance []

theorem mem_of_mem_foldl_advance {parts done : List Text} {part : Text} (h : part ∈ parts.foldl advance done) :
    part ∈ done ∨ part ∈ parts := by
  induction parts generalizing done with
  | nil => exact .inl h
  | cons first parts ih =>
    rcases ih h with hdone | hparts
    · unfold advance at hdone
      split at hdone
      · exact .inl (List.dropLast_subset done hdone)
      · rcases List.mem_append.1 hdone with hdone | hfirst
        · exact .inl hdone
        · exact .inr (List.mem_singleton.1 hfirst ▸ List.mem_cons_self)
    · exact .inr (List.mem_cons_of_mem first hparts)

/-- The absolute path without two dots, from a working directory. -/
def resolve (working p : Path) : Path where
  slashes := 1
  parts := collapse (working / p).parts
  divided _ h := (working / p).divided _ ((mem_of_mem_foldl_advance h).resolve_left List.not_mem_nil)

/-! ### Paths in the system -/

/-- Whether the system can have a code point in a name. Bytes that are no characters stand as the second halves of surrogate
pairs from `DC80` to `DCFF`. -/
def isNameable (c : CodePoint) : Bool := c.val ≠ 0 && (c.toChar?.isSome || (0xDC80 ≤ c.val && c.val ≤ 0xDCFF))

/-- Whether the system can look for a path. -/
def isEncodable (p : Path) : Bool := p.parts.all fun part => part.all isNameable

/-- The number of bytes of a code point in a name. -/
def pointSize (c : CodePoint) : Nat :=
  if c.val < 0x80 || (0xDC80 ≤ c.val && c.val ≤ 0xDCFF) then 1
  else if c.val < 0x800 then 2
  else if c.val < 0x10000 then 3
  else 4

/-- The number of bytes of a name. -/
def nameSize : Text → Nat
  | [] => 0
  | c :: t => pointSize c + nameSize t

/-- The number of bytes of components, each with the slash or the end after it. -/
def partsSize : List Text → Nat
  | [] => 0
  | part :: parts => nameSize part + 1 + partsSize parts

/-- The number of bytes that a path takes. -/
def size (p : Path) : Nat := p.slashes + partsSize p.parts

end Path

end Coupling
