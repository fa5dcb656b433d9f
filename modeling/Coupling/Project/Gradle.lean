import Coupling.Text.CharClass
import Coupling.Text.Split

/-!
# Modules in Gradle settings

A line of a settings file whose first word is `include` names projects, each between quotes and with colons between its
segments. The project `:core:api` is in the directory `core/api`, so a colon in front is dropped and every other one
becomes a slash.
-/

namespace Coupling.Gradle

/-- Either kind of quote. -/
def isQuote (c : Char) : Bool := c = '"' || c = '\''

/-- The word that leads in the projects. -/
def includeWord : List Char := "include".toList

/-- What follows the word `include` on a line that begins with it, perhaps after blanks. A longer word is another one. -/
def arguments? (line : List Char) : Option (List Char) :=
  let start := line.dropWhile fun c : Char => CodePoint.isBlank c
  let rest := start.drop includeWord.length
  if includeWord.isPrefixOf start ∧ !(rest.head?.any fun c : Char => CodePoint.isWord c) then some rest else none

/-- A project without the colon in front, unless it is nothing but a colon. -/
def dropColon : List Char → List Char
  | ':' :: c :: rest => c :: rest
  | s => s

/-- The projects between quotes. An opening quote takes the next quote of either kind, and between the two there is
something. -/
def quoted : List Char → List (List Char)
  | [] => []
  | c :: rest =>
    if isQuote c then
      match _ : rest.dropWhile fun c => !isQuote c with
      | [] => []
      | _ :: after =>
        match rest.takeWhile fun c => !isQuote c with
        | [] => quoted rest
        | project => dropColon project :: quoted after
    else quoted rest
termination_by s => s.length
decreasing_by
  · exact Nat.lt_succ_self _
  · next h =>
    have := (List.dropWhile_suffix (fun c => !isQuote c) : _ <:+ rest).length_le
    rw [h, List.length_cons] at this
    rw [List.length_cons]
    omega
  · exact Nat.lt_succ_self _

/-- The directory of a project. -/
def directory (project : List Char) : Text := project.map fun c => if c = ':' then ('/' : CodePoint) else c

/-- The directories of all projects that a settings file includes, in order. -/
def directories (settings : List Char) : List Text :=
  ((Text.split '\n' settings).filterMap arguments?).flatMap fun arguments => (quoted arguments).map directory

end Coupling.Gradle
