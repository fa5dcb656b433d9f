import Coupling.SortedSet
import Coupling.Text.CodePoint

/-!
# What is kept of a class

Of a compiled class only its name, its access flags, its format version and the types that each of its methods mentions
are kept.
-/

namespace Coupling

/-- The types that one method mentions. -/
structure MethodSummary where
  /-- The name of the method. -/
  name : Text := []
  /-- Its descriptor. -/
  descriptor : Text := []
  /-- The type of its result. -/
  result : Text := "void"
  /-- The types of its parameters. -/
  parameters : List Text := []
  /-- The exceptions it declares. -/
  exceptions : SortedSet Text := ∅
  /-- The classes that its instructions name. -/
  operands : List Text := []
  /-- The types of its local variables. -/
  locals : List Text := []
  deriving DecidableEq

/-- What is kept of a class. -/
structure ClassSummary where
  /-- The full name of the class. -/
  name : Text
  /-- Its access flags. -/
  flags : Int
  /-- Its methods, in order. -/
  methods : List MethodSummary := []
  /-- The major version of the format. -/
  major : Nat := 0
  /-- The minor version of the format. -/
  minor : Nat := 0
  deriving DecidableEq

/-- All types that a method mentions, repeats included: result, parameters, exceptions in order, instruction operands
and local variables. -/
def MethodSummary.types (m : MethodSummary) : List Text :=
  m.result :: (m.parameters ++ m.exceptions.toList ++ m.operands ++ m.locals)

/-- An abstract class or an interface: one of the two bits from `0200` on is set. -/
def ClassSummary.isAbstract (c : ClassSummary) : Bool := c.flags / 0x200 % 4 ≠ 0

end Coupling
