import TaskTags.Decimal.Binary64

/-!
TOML values, and the tables that the lines of a document build up.

A table knows how it was written, because that decides which lines may still add to it: a header
opens a table once, keys with dots only add to tables that such keys made, and nothing adds to a
table in braces.
-/

namespace TaskTags.Toml

inductive TableForm where
  /-- Under a header of its own. -/
  | headed
  /-- Only named on the path of a header. -/
  | implied
  /-- Made by a key with dots. -/
  | dotted
  | braced
deriving DecidableEq, Inhabited

inductive Value where
  | str (value : String)
  | int (value : Int)
  | float (value : Binary64)
  | bool (value : Bool)
  /-- A date, a time of day or both, as written. -/
  | moment (text : String)
  | array (items : List Value)
  | table (form : TableForm) (entries : List (String × Value))
  /-- The tables under headers of one name in double brackets. -/
  | tables (all : List (List (String × Value)))
deriving Inhabited

abbrev Entries := List (String × Value)

/-- A key by its parts: those that lead to a table, and the name in that table. -/
structure Key where
  path : List String
  name : String
deriving DecidableEq, Inhabited

namespace Entries

def replace (entries : Entries) (name : String) (value : Value) : Entries :=
  entries.map fun (k, v) => if k = name then (k, value) else (k, v)

/-- Adds a value under a name that is not in use. -/
def add? (entries : Entries) (name : String) (value : Value) : Option Entries :=
  if (entries.lookup name).isNone then some (entries ++ [(name, value)]) else none

/-- Adds a value under a key with dots. The table that gets the value must be made by such keys. -/
def assign? (name : String) (value : Value) : List String → Entries → Option Entries
  | [], entries => entries.add? name value
  | part :: path, entries =>
    match entries.lookup part with
    | none => do
      let inner ← assign? name value path []
      return entries ++ [(part, .table .dotted inner)]
    | some (.table form inner) =>
      if form = .dotted || (form = .implied && !path.isEmpty) then do
        let inner ← assign? name value path inner
        return entries.replace part (.table form inner)
      else none
    | some (.tables all) =>
      match path, all.reverse with
      | _ :: _, last :: earlier => do
        let last ← assign? name value path last
        return entries.replace part (.tables (last :: earlier).reverse)
      | _, _ => none
    | some _ => none

/-- Changes the table at a path of headers, where of several tables the last one counts. -/
def change? (f : Entries → Option Entries) : List String → Entries → Option Entries
  | [], entries => f entries
  | part :: path, entries =>
    match entries.lookup part with
    | none => do
      let inner ← change? f path []
      return entries ++ [(part, .table .implied inner)]
    | some (.table form inner) =>
      if form = .braced then none
      else do
        let inner ← change? f path inner
        return entries.replace part (.table form inner)
    | some (.tables all) =>
      match all.reverse with
      | last :: earlier => do
        let last ← change? f path last
        return entries.replace part (.tables (last :: earlier).reverse)
      | [] => none
    | some _ => none

def openTable? (name : String) (entries : Entries) : Option Entries :=
  match entries.lookup name with
  | none => some (entries ++ [(name, .table .headed [])])
  | some (.table .implied inner) => some (entries.replace name (.table .headed inner))
  | some _ => none

def openItem? (name : String) (entries : Entries) : Option Entries :=
  match entries.lookup name with
  | none => some (entries ++ [(name, .tables [[]])])
  | some (.tables all) => some (entries.replace name (.tables (all ++ [[]])))
  | some _ => none

end Entries
end TaskTags.Toml
