import Coupling.Files.Path
import Coupling.Text.Quoted

/-!
# Trees of files

The files that an analysis works on are a value: a tree of directories with byte strings at its leaves, and a working
directory. Looking a path up walks down from the root, or from the working directory; two dots go back to the directory
above, and every component on the way has to be there. Names and paths may be too long to be looked up, and a file that
is there may be one that the system does not open. Writing gives a new tree.
-/

namespace Coupling

/-- What stands at a place in a tree of files. -/
inductive Entry where
  /-- A file with its bytes. -/
  | file (bytes : List UInt8)
  /-- A directory with its entries, by name. -/
  | directory (entries : List (Text × Entry))

/-- Whether a file stands there. -/
def Entry.isFile : Entry → Bool
  | file _ => true
  | directory _ => false

/-- Whether a directory stands there. -/
def Entry.isDirectory : Entry → Bool
  | file _ => false
  | directory _ => true

/-- Why a path cannot be used. -/
inductive FileFault where
  /-- Nothing is there. -/
  | notFound
  /-- A file is there, where a new entry is wanted. -/
  | alreadyExists
  /-- The path leads on from a file. -/
  | notDirectory
  /-- A directory is there, where a file is wanted. -/
  | isDirectory
  /-- The system has another reason, by its number and its words: a lack of permission, for instance. -/
  | other (number : Nat) (message : String)
  deriving DecidableEq

namespace FileFault

/-- A name or a path is longer than the system takes it. -/
def nameTooLong : FileFault := other 36 "File name too long"

/-- The number that stands for a fault. -/
def number : FileFault → Nat
  | notFound => 2
  | alreadyExists => 17
  | notDirectory => 20
  | isDirectory => 21
  | other number _ => number

/-- The words for a fault. -/
def message : FileFault → String
  | notFound => "No such file or directory"
  | alreadyExists => "File exists"
  | notDirectory => "Not a directory"
  | isDirectory => "Is a directory"
  | other _ message => message

/-- Whether a fault says no more than that nothing is there. Two other faults do: a handle that is closed, and links that
lead in a circle. -/
def meansAbsent : FileFault → Bool
  | notFound | notDirectory => true
  | other number _ => number = 9 || number = 40
  | alreadyExists | isDirectory => false

/-- The account of a fault at a path. -/
def account (f : FileFault) (p : Path) : Text := s!"[Errno {f.number}] {f.message}: {Quoted.text p.toText}"

end FileFault

/-- The entries of a directory. -/
abbrev Directory := List (Text × Entry)

namespace Directory

/-- The entry that names lead to, from a directory down. -/
def find? (entries : Directory) : List Text → Option Entry
  | [] => some (.directory entries)
  | name :: names =>
    match entries.lookup name with
    | some (.directory inner) => find? inner names
    | some (.file bytes) => if names = [] then some (.file bytes) else none
    | none => none

/-- Replaces the entry under a name, or adds one. -/
def put (name : Text) (e : Entry) : Directory → Directory
  | [] => [(name, e)]
  | (n, old) :: rest => if n = name then (n, e) :: rest else (n, old) :: put name e rest

/-- Puts an entry where names lead, with new directories on the way where there are none. -/
def putAt (e : Entry) : List Text → Directory → Directory
  | [], entries => entries
  | [name], entries => entries.put name e
  | name :: names, entries =>
    let inner := match entries.lookup name with
      | some (.directory inner) => inner
      | _ => []
    entries.put name (.directory (putAt e names inner))

end Directory

mutual

/-- Everything below an entry, by the names that lead to it; a directory comes before what is in it. -/
def Entry.contents : Entry → List (List Text × Entry)
  | .file _ => []
  | .directory entries => contentsOf entries

/-- Everything in a directory, by the names that lead to it. -/
def contentsOf : List (Text × Entry) → List (List Text × Entry)
  | [] => []
  | (name, e) :: rest => ([name], e) :: (e.contents.map fun (names, e) => (name :: names, e)) ++ contentsOf rest

end

/-- A tree of files, seen from a working directory. -/
structure FileTree where
  /-- The entries of the root directory. -/
  entries : Directory := []
  /-- The working directory. -/
  working : Path := .root
  /-- The files that the system does not open, by the names that lead to them, with the reasons. -/
  sealed : List Text → Option FileFault := fun _ => none

namespace FileTree

/-- The most bytes of a name. -/
def nameLimit : Nat := 255

/-- The most bytes of a path, with the one that ends it. -/
def pathLimit : Nat := 4096

/-- The names that lead to an entry without going back, when names with two dots among them lead there from a place. -/
def locateFrom (t : FileTree) : (place : List Text) → List Text → Except FileFault (List Text)
  | place, [] => .ok place
  | place, name :: names =>
    match t.entries.find? place with
    | some (.directory inner) =>
      if name = (".." : Text) then t.locateFrom place.dropLast names
      else if nameLimit < Path.nameSize name then .error .nameTooLong
      else if (inner.lookup name).isSome then t.locateFrom (place ++ [name]) names
      else .error .notFound
    | _ => .error .notDirectory

/-- The names that lead to what stands at a path. -/
def locate (t : FileTree) (p : Path) : Except FileFault (List Text) :=
  if !p.isEncodable then .error .notFound
  else if pathLimit < p.size then .error .nameTooLong
  else t.locateFrom (if p.isAbsolute then [] else t.working.parts) p.parts

/-- What stands at a path. -/
def entry (t : FileTree) (p : Path) : Except FileFault Entry := do
  match t.entries.find? (← t.locate p) with
  | some e => .ok e
  | none => .error .notFound

/-! ### Looking -/

/-- Whether what stands at a path is of a kind. If nothing is there it is not; any other fault remains one. -/
def test (t : FileTree) (isKind : Entry → Bool) (p : Path) : Except FileFault Bool :=
  match t.entry p with
  | .ok e => .ok (isKind e)
  | .error f => if f.meansAbsent then .ok false else .error f

/-- Whether a path leads to a file. -/
def isFile (t : FileTree) (p : Path) : Except FileFault Bool := t.test Entry.isFile p

/-- Whether a path leads to a directory. -/
def isDirectory (t : FileTree) (p : Path) : Except FileFault Bool := t.test Entry.isDirectory p

/-- The bytes of a file. -/
def read (t : FileTree) (p : Path) : Except FileFault (List UInt8) := do
  let place ← t.locate p
  match t.entries.find? place with
  | some (.file bytes) =>
    match t.sealed place with
    | some f => .error f
    | none => .ok bytes
  | some (.directory _) => .error .isDirectory
  | none => .error .notFound

/-- Everything below a directory: the names that lead to it from there, and the entry. -/
def below (t : FileTree) (p : Path) : List (List Text × Entry) :=
  match t.entry p with
  | .ok e => e.contents
  | .error _ => []

/-- Whether the last of some names has an ending. -/
def hasEnding (ending : Text) (names : List Text) : Bool :=
  (names.getLast?.getD []).reverse.take ending.length = ending.reverse

/-- The paths below a directory whose last component has an ending, in order, with what stands there. -/
def withEnding (t : FileTree) (ending : Text) (p : Path) : List (Path × Entry) :=
  let found := (t.below p).filter fun (names, _) => hasEnding ending names
  (found.filterMap fun (names, e) => (p.descend? names).map (·, e)).mergeSort fun a b => a.1.le b.1

/-- The path itself, every directory below it, and everything else there that is wanted by its names. -/
def pathsBelow (t : FileTree) (isWanted : List Text → Bool) (p : Path) : List Path :=
  let wanted := (t.below p).filter fun (names, e) => e.isDirectory || isWanted names
  p :: wanted.filterMap fun (names, _) => p.descend? names

/-- Looks at paths one after the other. The first one that cannot be looked at is a fault. -/
def lookAt (t : FileTree) : List Path → Except (Path × FileFault) Unit
  | [] => .ok ()
  | p :: rest =>
    match t.isDirectory p with
    | .ok _ => t.lookAt rest
    | .error f => .error (p, f)

/-! ### Writing -/

/-- Puts an entry at a place. -/
def putAt (t : FileTree) (e : Entry) (place : List Text) : FileTree := { t with entries := t.entries.putAt e place }

/-- Where a file is to be written: at its place, or at a new one in a directory that is there. -/
def writePlace (t : FileTree) (p : Path) : Except FileFault (List Text) :=
  match t.entry p with
  | .ok (.directory _) => .error .isDirectory
  | .ok (.file _) => t.locate p
  | .error .notFound => if p.parts = [] then .error .notFound else do .ok ((← t.locate p.parent) ++ [p.name])
  | .error f => .error f

/-- Writes a file. -/
def write (t : FileTree) (p : Path) (bytes : List UInt8) : Except FileFault FileTree := do
  let place ← t.writePlace p
  match t.sealed place with
  | some f => .error f
  | none => .ok (t.putAt (.file bytes) place)

/-- Adds an empty directory to one that is there, unless a directory is there already. -/
def addDirectory (t : FileTree) (p : Path) : Except FileFault FileTree :=
  match t.entry p with
  | .ok (.directory _) => .ok t
  | .ok (.file _) => .error .alreadyExists
  | .error .notFound => do
    let place ← t.locate p.parent
    .ok (t.putAt (.directory []) (place ++ [p.name]))
  | .error f => .error f

/-- Makes sure that a directory is there, with those above it. The tree afterwards comes with the first directory that cannot
be made; those above it stay. The number says how many components may have to be made. -/
def makeDirectories (t : FileTree) (p : Path) : Nat → FileTree × Option (Path × FileFault)
  | 0 => (t, none)
  | n + 1 =>
    let added (t : FileTree) : FileTree × Option (Path × FileFault) :=
      match t.addDirectory p with
      | .ok t => (t, none)
      | .error f => (t, some (p, f))
    match t.entry p with
    | .error .notFound =>
      match t.makeDirectories p.parent n with
      | (t, none) => added t
      | failed => failed
    | _ => added t

/-- Makes sure that a directory is there, with those above it. -/
def makeDirectory (t : FileTree) (p : Path) : FileTree × Option (Path × FileFault) :=
  t.makeDirectories p p.parts.length

end FileTree

end Coupling
