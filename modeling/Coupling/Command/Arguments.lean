import Coupling.Files.Path
import Coupling.Number.Numeral
import Coupling.Text.Quoted

/-!
# Arguments of the command line

The command takes the directory of a project and options. An option has a long name, which may be cut short as long as
it stays the only one that fits, and some have a letter too. A value follows as the next argument, after an equals sign,
or right after a letter; letters without a value may stand together behind one hyphen. After two hyphens every argument
is a plain one, and so is every argument that looks like a negative number.

Arguments are first told apart, one by one, and then taken in order.
-/

namespace Coupling.Command

/-! ### Options -/

/-- The forms of a report. -/
inductive Format where
  | text
  | json
  | html
  deriving DecidableEq

/-- The name of a form. -/
def Format.name : Format → String
  | .text => "text"
  | .json => "json"
  | .html => "html"

/-- All forms. -/
def Format.all : List Format := [.text, .json, .html]

/-- The options. -/
inductive Switch where
  | help
  | package
  | classesDir
  | workers
  | sequential
  | allEdges
  | format
  | output
  | verbose
  deriving DecidableEq

namespace Switch

/-- All options. -/
def all : List Switch := [help, package, classesDir, workers, sequential, allEdges, format, output, verbose]

/-- The ways to write an option. -/
def spellings : Switch → List String
  | help => ["-h", "--help"]
  | package => ["-p", "--package"]
  | classesDir => ["--classes-dir"]
  | workers => ["-j", "--workers"]
  | sequential => ["--sequential"]
  | allEdges => ["--all-edges"]
  | format => ["--format"]
  | output => ["-o", "--output"]
  | verbose => ["-v", "--verbose"]

/-- Whether an option has a value. -/
def takesValue : Switch → Bool
  | package | classesDir | workers | format | output => true
  | help | sequential | allEdges | verbose => false

/-- Every way to write an option, with the option. -/
def table : List (Text × Switch) := all.flatMap fun s => s.spellings.map fun spelling : String => (spelling, s)

end Switch

/-! ### Faults -/

/-- What is wrong with the arguments. -/
inductive UsageFault where
  /-- No project is given. -/
  | missingProject
  /-- Some arguments have no meaning. -/
  | unrecognized (arguments : List Text)
  /-- A name is cut so short that several options fit. -/
  | ambiguous (argument : Text) (spellings : List Text)
  /-- An option lacks its value. -/
  | missingValue (switch : Switch)
  /-- An option has a value and takes none. -/
  | unwantedValue (switch : Switch) (value : Text)
  /-- The number of workers is not an integer. -/
  | badNumber (value : Text)
  /-- There is no such form of a report. -/
  | badFormat (value : Text)
  deriving DecidableEq

/-- The words for a fault of one option. -/
def optionMessage (s : Switch) (problem : Text) : Text :=
  let spelled : String := "/".intercalate s.spellings
  s!"argument {spelled}: " ++ problem

/-- The words for a fault. -/
def UsageFault.message : UsageFault → Text
  | .missingProject => "the following arguments are required: project_dir"
  | .unrecognized arguments => "unrecognized arguments: " ++ Text.join " " arguments
  | .ambiguous argument spellings =>
    "ambiguous option: " ++ argument ++ " could match " ++ Text.join ", " spellings
  | .missingValue s => optionMessage s "expected one argument"
  | .unwantedValue s value => optionMessage s s!"ignored explicit argument {Quoted.text value}"
  | .badNumber value => optionMessage .workers s!"invalid int value: {Quoted.text value}"
  | .badFormat value =>
    let choices := ", ".intercalate (Format.all.map fun f => Quoted.text f.name)
    optionMessage .format s!"invalid choice: {Quoted.text value} (choose from {choices})"

/-- Why the arguments do not lead to an analysis. -/
inductive Stop where
  /-- Help is asked for. -/
  | help
  /-- The arguments are wrong. -/
  | fault (f : UsageFault)

/-! ### Telling arguments apart -/

/-- An argument. -/
inductive Argument where
  /-- The first two hyphens on their own. -/
  | divider
  /-- A plain argument. -/
  | plain (t : Text)
  /-- An option, as it is written, with the value attached to it if there is one. -/
  | option (s : Switch) (spelling : Text) (attached : Option Text)
  /-- Something that looks like an option and is none. -/
  | unknown (t : Text)

/-- The text before the first equals sign, and the text after it if there is one. -/
def splitEquals (t : Text) : Text × Option Text :=
  let name := t.takeWhile (· ≠ ('=' : CodePoint))
  (name, if name.length < t.length then some (t.drop (name.length + 1)) else none)

/-- The options that an argument may stand for, by a name cut short or by a letter with something after it. -/
def candidates (t : Text) : List (Switch × Text × Option Text) :=
  let (name, attached) := splitEquals t
  if ("--" : Text).isPrefixOf t then
    (Switch.table.filter fun (spelling, _) => name.isPrefixOf spelling).map fun (spelling, s) => (s, spelling, attached)
  else
    (Switch.table.filter fun (spelling, _) => spelling = t.take 2).map fun (spelling, s) =>
      (s, spelling, some (t.drop 2))

/-- A decimal digit. -/
def isDigit (c : CodePoint) : Bool := c.decimalValue?.isSome

/-- Whether an argument looks like a negative number: digits, or a point with digits after it. -/
def isNegativeNumber (t : Text) : Bool :=
  let digits := t.drop 1
  let rest := digits.dropWhile isDigit
  t.head? = some ('-' : CodePoint) &&
    ((rest = [] && digits ≠ []) ||
      (rest.head? = some ('.' : CodePoint) && rest.drop 1 ≠ [] && (rest.drop 1).all isDigit))

/-- What an argument is, unless it is two hyphens. -/
def tellApart (t : Text) : Except UsageFault Argument :=
  let (name, attached) := splitEquals t
  if t.head? ≠ some ('-' : CodePoint) then .ok (.plain t)
  else
    match Switch.table.lookup t with
    | some s => .ok (.option s t none)
    | none =>
      if t.length = 1 then .ok (.plain t)
      else
        match attached.bind fun v => (Switch.table.lookup name).map fun s => (s, v) with
        | some (s, v) => .ok (.option s name (some v))
        | none =>
          match candidates t with
          | [(s, spelling, attached)] => .ok (.option s spelling attached)
          | [] =>
            if isNegativeNumber t || t.contains (' ' : CodePoint) then .ok (.plain t) else .ok (.unknown t)
          | several => .error (.ambiguous t (several.map (·.2.1)))

/-- What each of some arguments is. -/
def tellAllApart : List Text → Except UsageFault (List Argument)
  | [] => .ok []
  | t :: ts =>
    if t = ("--" : Text) then .ok (.divider :: ts.map .plain)
    else do
      let a ← tellApart t
      pure (a :: (← tellAllApart ts))

/-! ### Taking arguments in order -/

/-- What the command is asked to do. -/
structure Invocation where
  /-- The directory of the project. -/
  project : Path
  /-- The packages to analyze, if any are given. -/
  packages : Option (List Text) := none
  /-- The directory of compiled classes, if one is given. -/
  classesDirectory : Option Path := none
  /-- The number of workers, if one is given. -/
  workers : Option Int := none
  /-- Whether class files are decoded one after the other. -/
  sequential : Bool := false
  /-- Whether dependencies that leave the analyzed packages count too. -/
  allEdges : Bool := false
  /-- The form of the report. -/
  format : Format := .text
  /-- The file that the report goes to, if one is given. -/
  output : Option Path := none
  /-- Whether every log line is shown. -/
  verbose : Bool := false

/-- Arguments that were taken. -/
structure Taken where
  /-- The project, once it was given. -/
  project : Option Text := none
  /-- What the options say. -/
  options : Invocation := { project := "." }
  /-- The arguments without a meaning. -/
  extra : List Text := []

namespace Taken

/-- Takes an option that has no value. -/
def flag (taken : Taken) : Switch → Except Stop Taken
  | .help => .error .help
  | .sequential => .ok { taken with options.sequential := true }
  | .allEdges => .ok { taken with options.allEdges := true }
  | .verbose => .ok { taken with options.verbose := true }
  | .package | .classesDir | .workers | .format | .output => .ok taken

/-- Takes an option with its value. -/
def value (taken : Taken) (s : Switch) (v : Text) : Except Stop Taken :=
  match s with
  | .package => .ok { taken with options.packages := some (taken.options.packages.getD [] ++ [v]) }
  | .classesDir => .ok { taken with options.classesDirectory := some (Path.ofText v) }
  | .output => .ok { taken with options.output := some (Path.ofText v) }
  | .workers =>
    match Numeral.int? v with
    | some n => .ok { taken with options.workers := some n }
    | none => .error (.fault (.badNumber v))
  | .format =>
    match Format.all.find? fun f => v = (f.name : Text) with
    | some f => .ok { taken with options.format := f }
    | none => .error (.fault (.badFormat v))
  | .help | .sequential | .allEdges | .verbose => .ok taken

/-- Takes an option whose value, if it has one, is the next argument. -/
def next (taken : Taken) (s : Switch) (rest : List Argument) : Except Stop (Taken × List Argument) :=
  if s.takesValue then
    match rest with
    | .plain v :: rest => do pure (← taken.value s v, rest)
    | _ => .error (.fault (.missingValue s))
  else do pure (← taken.flag s, rest)

/-- Takes an option with a text attached to it: its value, or more letters. -/
def attached (taken : Taken) (s : Switch) (isLetter : Bool) (t : Text) (rest : List Argument) :
    Except Stop (Taken × List Argument) :=
  if s.takesValue then do pure (← taken.value s t, rest)
  else
    match isLetter, t with
    | true, c :: more =>
      match Switch.table.lookup [('-' : CodePoint), c] with
      | none => .error (.fault (.unwantedValue s t))
      | some s' => do
        let taken ← taken.flag s
        if more = [] then taken.next s' rest else taken.attached s' true more rest
    | _, _ => .error (.fault (.unwantedValue s t))

/-- The text of an argument that has no meaning. -/
def textOf : Argument → Text
  | .divider => "--"
  | .plain t => t
  | .option _ spelling _ => spelling
  | .unknown t => t

/-- Takes arguments in order, in at most a number of steps. The first plain argument is the project, with the divider
next to it. -/
def all : Nat → Taken → List Argument → Except Stop Taken
  | 0, taken, _ => .ok taken
  | _, taken, [] => .ok taken
  | n + 1, taken, a :: rest =>
    let extra : Taken := { taken with extra := taken.extra ++ [textOf a] }
    match a, taken.project with
    | .option s _ none, _ => do
      let (taken, rest) ← taken.next s rest
      all n taken rest
    | .option s spelling (some t), _ => do
      let (taken, rest) ← taken.attached s (!("--" : Text).isPrefixOf spelling) t rest
      all n taken rest
    | .plain t, none =>
      match rest with
      | .divider :: rest => all n { taken with project := some t } rest
      | _ => all n { taken with project := some t } rest
    | .divider, none =>
      match rest with
      | .plain t :: rest => all n { taken with project := some t } rest
      | _ => all n extra rest
    | .plain _, some _ => all n extra rest
    | .divider, some _ => all n extra rest
    | .unknown _, _ => all n extra rest

end Taken

/-- What the arguments ask for. -/
def parse (arguments : List Text) : Except Stop Invocation := do
  let told ← (tellAllApart arguments).mapError .fault
  let taken ← Taken.all told.length {} told
  match taken.project, taken.extra with
  | none, _ => throw (.fault .missingProject)
  | some project, [] => pure { taken.options with project := Path.ofText project }
  | some _, extra => throw (.fault (.unrecognized extra))

end Coupling.Command
