import Coupling.Text.CodePoint

/-!
# Type names

A type name is the full name of a class, with dots between its segments, or the keyword of a primitive type, followed by
one `[]` for each array dimension.
-/

namespace Coupling.TypeName

/-- Drops pairs of brackets from the front of a reversed name. -/
def dropBrackets : Text → Text
  | [] => []
  | [c] => [c]
  | c :: d :: t => if c = ']' ∧ d = '[' then dropBrackets t else c :: d :: t

/-- The element type of an array type, and any other type itself. -/
def element (name : Text) : Text := (dropBrackets name.reverse).reverse

/-- The package of a type: what stands before the last dot, and nothing if there is no dot. -/
def package (name : Text) : Text :=
  (((element name).reverse.dropWhile (· ≠ ('.' : CodePoint))).drop 1).reverse

end Coupling.TypeName
