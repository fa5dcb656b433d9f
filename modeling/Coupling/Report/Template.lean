import Coupling.Text.CodePoint

/-!
# Templates

A template is a text with placeholders: a dollar sign before a name, which may stand between braces. Filling a template
replaces every placeholder that has a value, in a single pass from left to right, so nothing inside a value is looked
at. A doubled dollar sign stands for one. Everything else stays as it is.
-/

namespace Coupling.Template

/-- May begin the name of a placeholder. -/
def startsName (c : CodePoint) : Bool :=
  c = ('_' : CodePoint) || (0x41 ≤ c.val && c.val ≤ 0x5A) || (0x61 ≤ c.val && c.val ≤ 0x7A)

/-- May stand inside the name of a placeholder. -/
def continuesName (c : CodePoint) : Bool := startsName c || (0x30 ≤ c.val && c.val ≤ 0x39)

/-- The name at the front of a text; nothing if none begins there. -/
def name (t : Text) : Text := if t.head?.any startsName then t.takeWhile continuesName else []

/-- What stands after a dollar sign: the text it is replaced by, and how many code points of the template that takes. -/
def replacement? (values : List (Text × Text)) (t : Text) : Option (Text × Nat) :=
  match t with
  | [] => none
  | c :: rest =>
    if c = '$' then some ("$", 1)
    else if c = '\x7b' then
      let inner := name rest
      if rest[inner.length]? = some ('\x7d' : CodePoint) then (values.lookup inner).map (·, inner.length + 2) else none
    else
      let plain := name t
      (values.lookup plain).map (·, plain.length)

/-- Fills a template. The number says how many code points of it belong to a placeholder that is already replaced. -/
def fillFrom (values : List (Text × Text)) : Nat → Text → Text
  | _, [] => []
  | skip + 1, _ :: t => fillFrom values skip t
  | 0, c :: t =>
    if c = '$' then
      match replacement? values t with
      | some (value, length) => value ++ fillFrom values length t
      | none => c :: fillFrom values 0 t
    else c :: fillFrom values 0 t

/-- Fills a template. -/
def fill (values : List (Text × Text)) (template : Text) : Text := fillFrom values 0 template

end Coupling.Template
