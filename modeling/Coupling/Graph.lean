import Coupling.References

/-!
# The graph of package dependencies

For each package the graph holds the packages it depends on, the packages that depend on it, and how many classes, and
how many abstract classes and interfaces, it owns. A graph is either restricted, and then keeps a dependency of a
recorded class only if it leads to a target package, or keeps all of them.

Recording a class falls into sections, one at the owner's package and then one at each package that the class depends
on. Each section touches a single package, so sections of different classes may interleave.
-/

namespace Coupling

/-- What the graph holds for one package. -/
structure Node where
  /-- The packages it depends on. -/
  outgoing : SortedSet Text := ∅
  /-- The packages that depend on it. -/
  incoming : SortedSet Text := ∅
  /-- The number of its classes. -/
  total : Nat := 0
  /-- The number of its abstract classes and interfaces. -/
  abstract : Nat := 0
  deriving DecidableEq

/-- A graph of package dependencies. -/
structure Graph where
  /-- Whether dependencies that leave the target packages are dropped. -/
  restricted : Bool := true
  /-- What is held for each package that was touched. -/
  nodes : List (Text × Node) := []

/-- A package counts if it owns a class or depends on something. -/
def Node.isActive (n : Node) : Bool := n.total ≠ 0 || !n.outgoing.toList.isEmpty

namespace Graph

/-- What the graph holds for a package; nothing if it was never touched. -/
def node (g : Graph) (package : Text) : Node := (g.nodes.lookup package).getD {}

/-- The packages that a package depends on. -/
def outgoing (g : Graph) (package : Text) : SortedSet Text := (g.node package).outgoing

/-- The packages that depend on a package. -/
def incoming (g : Graph) (package : Text) : SortedSet Text := (g.node package).incoming

/-- Changes the entry of a package, or adds one. -/
def updateNodes (package : Text) (f : Node → Node) : List (Text × Node) → List (Text × Node)
  | [] => [(package, f {})]
  | (p, n) :: rest => if p = package then (p, f n) :: rest else (p, n) :: updateNodes package f rest

/-- Changes what the graph holds for one package. -/
def update (g : Graph) (package : Text) (f : Node → Node) : Graph :=
  { g with nodes := updateNodes package f g.nodes }

/-! ### Recording -/

/-- A step that touches a single package. -/
inductive Section where
  /-- Counts a class at its package, and adds what the class depends on. -/
  | owner (package : Text) (isAbstract : Bool) (destinations : SortedSet Text)
  /-- Adds a package to those that depend on another. -/
  | incoming (package dependent : Text)

/-- Runs a section. -/
def runSection (g : Graph) : Section → Graph
  | .owner package isAbstract destinations => g.update package fun n =>
    { n with
      outgoing := destinations.union n.outgoing
      total := n.total + 1
      abstract := n.abstract + if isAbstract then 1 else 0 }
  | .incoming package dependent => g.update package fun n => { n with incoming := n.incoming.insert dependent }

/-- The packages that a class of the package `owner` depends on, by the types it refers to. -/
def destinations (g : Graph) (owner : Text) (references targets : List Text) : SortedSet Text :=
  (SortedSet.ofList (references.map TypeName.package)).filter fun q =>
    q ≠ owner && (!g.restricted || targets.contains q)

/-- The sections of recording a class. -/
def sections (g : Graph) (c : ClassSummary) (references targets : List Text) : List Section :=
  let destinations := g.destinations c.package references targets
  .owner c.package c.isAbstract destinations :: destinations.toList.map (.incoming · c.package)

/-- Adds a class and the types it refers to, if its package is a target. Also tells whether it is. -/
def record (g : Graph) (c : ClassSummary) (references targets : List Text) : Bool × Graph :=
  if targets.contains c.package then (true, (g.sections c references targets).foldl runSection g) else (false, g)

/-- Adds a single dependency; a package never depends on itself. -/
def addEdge (g : Graph) (source target : Text) : Graph :=
  if source = target then g
  else
    (g.update source fun n => { n with outgoing := n.outgoing.insert target }).update target fun n =>
      { n with incoming := n.incoming.insert source }

/-! ### The graph as a whole -/

/-- The packages that own a class or depend on something, in order. -/
def packages (g : Graph) : List Text :=
  (SortedSet.ofList ((g.nodes.filter fun (_, n) => n.isActive).map Prod.fst)).toList

/-- For each of these packages, what it depends on, in order. -/
def edges (g : Graph) : List (Text × List Text) := g.packages.map fun p => (p, (g.outgoing p).toList)

/-- Adds the counts and the dependencies that another graph holds for a package. -/
def mergeNode (g other : Graph) (package : Text) : Graph :=
  let n := other.node package
  let counted := g.update package fun m => { m with total := m.total + n.total, abstract := m.abstract + n.abstract }
  n.outgoing.toList.foldl (fun g target => g.addEdge package target) counted

/-- Adds everything that another graph holds. -/
def merge (g other : Graph) : Graph := other.packages.foldl (fun g p => g.mergeNode other p) g

end Graph

end Coupling
