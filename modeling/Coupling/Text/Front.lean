/-!
# The front of a text

Readers of formats take the characters that are left and give what they read and what follows it.
-/

namespace Coupling

/-- Characters left to read. -/
abbrev Chars := List Char

/-- What follows a given word at the front. -/
def dropWord? (word : String) (s : Chars) : Option Chars :=
  if word.toList.isPrefixOf s then some (s.drop word.length) else none

/-- What stands before a word, and what follows it. -/
def splitAt? (word : String) : Chars → Option (Chars × Chars)
  | [] => none
  | c :: rest =>
    match dropWord? word (c :: rest) with
    | some after => some ([], after)
    | none => (splitAt? word rest).map fun (before, after) => (c :: before, after)

end Coupling
