/-!
# Values of configuration files
-/

namespace Coupling.Toml

/-- A value of a configuration file. Of floating-point numbers and of dates and times only the kind is kept. -/
inductive Value where
  /-- No value. Documents hold none; it stands for one that a caller leaves open. -/
  | absent
  /-- A truth value. -/
  | bool (b : Bool)
  /-- An integer. -/
  | int (n : Int)
  /-- A floating-point number. -/
  | float
  /-- A date, a time, or both. -/
  | moment
  /-- A text. -/
  | string (s : String)
  /-- A list of values. -/
  | list (items : List Value)
  /-- Values under names, in the order in which they were given. -/
  | table (entries : List (String × Value))
  deriving Inhabited

/-- The entries of a table. -/
abbrev Entries := List (String × Value)

/-- The value under a name, if it is there and is given. -/
def Entries.value? (entries : Entries) (name : String) : Option Value :=
  match entries.lookup name with
  | none | some .absent => none
  | some v => some v

/-- Replaces the value under a name, or adds it at the end. -/
def Entries.put (name : String) (v : Value) : Entries → Entries
  | [] => [(name, v)]
  | (n, old) :: rest => if n = name then (n, v) :: rest else (n, old) :: Entries.put name v rest

end Coupling.Toml
