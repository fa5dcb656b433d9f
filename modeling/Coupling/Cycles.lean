import Std.Data.HashMap
import Std.Data.HashSet
import Coupling.Text.CodePoint

/-!
# Dependency cycles

Two packages depend on each other in a cycle when each can be reached from the other. The cycles of a graph are the
classes of this relation that have at least two members, each in increasing order, and the classes in increasing order
too. Only dependencies between packages that the graph lists as sources count.

All classes are found by one depth-first search. It numbers the packages as it meets them and keeps each on a stack until
its class is complete. A search from a package tells the lowest number that it came upon on the stack. If this is the
number of the package itself, nothing below it on the stack can be reached, and its class is what lies above.
-/

namespace Coupling

/-- How far a search has come. -/
structure Search where
  /-- How many packages were met. -/
  count : Nat := 0
  /-- The packages that were met, numbered one after the other. -/
  numbers : Std.HashMap Text Nat := ∅
  /-- The packages whose class is not complete, the latest first. -/
  stack : List Text := []
  /-- The complete classes of two or more packages. -/
  classes : List (List Text) := []

namespace Search

/-- Meets a package. -/
def meet (s : Search) (v : Text) : Search :=
  { s with count := s.count + 1, numbers := s.numbers.insert v s.count, stack := v :: s.stack }

/-- Completes the class of a package: takes the package off the stack, and all that lies above it. -/
def complete (s : Search) (v : Text) : Search :=
  let members := s.stack.takeWhile (· ≠ v) ++ [v]
  { s with
    stack := s.stack.drop members.length
    classes := if 2 ≤ members.length then s.classes ++ [members.mergeSort] else s.classes }

/-- Goes through the packages next to one, where `low` is the lowest number found so far. A package that was not met yet
is visited. -/
def follow (visit : Text → Search → Nat × Search) : List Text → (low : Nat) → Search → Nat × Search
  | [], low, s => (low, s)
  | w :: ws, low, s =>
    match s.numbers[w]? with
    | none =>
      let (lowest, s) := visit w s
      follow visit ws (min low lowest) s
    | some number => follow visit ws (if w ∈ s.stack then min low number else low) s

/-- Searches from a package that was not met yet, where `next` gives the packages one step away. The result is the lowest
number found. The search goes no deeper than a number of packages. -/
def visit (next : Text → List Text) : (depth : Nat) → Text → Search → Nat × Search
  | 0, _, s => (s.count, s)
  | depth + 1, v, s =>
    let (low, s') := follow (visit next depth) (next v) s.count (s.meet v)
    (low, if low = s.count then s'.complete v else s')

/-- Searches from a package, unless it was met already. -/
def enter (next : Text → List Text) (depth : Nat) (s : Search) (v : Text) : Search :=
  if v ∈ s.numbers then s else (visit next depth v s).2

/-- Searches from all packages of a list in turn. There is nothing else to meet, so its length bounds the depth. -/
def run (next : Text → List Text) (sources : List Text) : Search := sources.foldl (enter next sources.length) {}

end Search

/-- Dependencies: for each source the packages it depends on. -/
abbrev Adjacency := List (Text × List Text)

namespace Adjacency

/-- The sources. -/
def keys (edges : Adjacency) : List Text := edges.map Prod.fst

/-- An index of the sources that each source depends on, in order. -/
def index (edges : Adjacency) : Std.HashMap Text (List Text) :=
  let sources := Std.HashSet.ofList edges.keys
  .ofList (edges.map fun (v, ws) => (v, (ws.filter sources.contains).mergeSort))

/-- The cycles. -/
def cycles (edges : Adjacency) : List (List Text) :=
  let index := edges.index
  (Search.run (index.getD · []) edges.keys.mergeSort).classes.mergeSort

end Adjacency

end Coupling
