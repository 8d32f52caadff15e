import MountControl.Number.Binary64

namespace MountControl.Toml

/-- A single value; dates and times are kept as their text. -/
inductive Scalar
  | text (s : String)
  | integer (n : Int)
  | float (x : Binary64)
  | boolean (b : Bool)
  deriving DecidableEq

/-- How a table was made: by a header of its own, in passing by the header of another table, or by
a dotted key. -/
inductive Form
  | defined
  | implicit
  | dotted
  deriving DecidableEq

/-- What stands under a key. An inline table is complete once it is written; an array of tables
grows by headers. -/
inductive Item
  | scalar (s : Scalar)
  | array (items : List Item)
  | inline (entries : List (String × Item))
  | table (form : Form) (entries : List (String × Item))
  | tables (elements : List (List (String × Item)))

abbrev Entries := List (String × Item)

namespace Entries

def put (key : String) (item : Item) : Entries → Entries
  | [] => [(key, item)]
  | (k, old) :: rest => if k = key then (key, item) :: rest else (k, old) :: put key item rest

/-- Applies a change to the table at the end of a path, making the tables that are missing on the
way. A dotted path does not pass through tables that have a header, and an array of tables stands
for its last element. -/
def change (dotted : Bool) (f : Form → Entries → Option Entries) :
    List String → Form → Entries → Option Entries
  | [], form, entries => f form entries
  | key :: path, _, entries =>
    match entries.lookup key with
    | none => do
      let form := if dotted then .dotted else .implicit
      return entries.put key (.table form (← change dotted f path form []))
    | some (.table form inner) =>
      if dotted && form = .defined then none
      else do return entries.put key (.table form (← change dotted f path form inner))
    | some (.tables elements) => do
      let last ← elements.getLast?
      return entries.put key
        (.tables (elements.dropLast ++ [← change dotted f path .defined last]))
    | some _ => none

/-- Adds an item under a dotted key. The key must be free, and a table reached through dots must
have been made by dots. -/
def assign (path : List String) (key : String) (item : Item) (entries : Entries) :
    Option Entries :=
  let place (form : Form) (entries : Entries) : Option Entries :=
    if !path.isEmpty && form ≠ .dotted then none
    else match entries.lookup key with
      | none => some (entries ++ [(key, item)])
      | some _ => none
  change true place path .defined entries

def openTable (path : List String) (key : String) (entries : Entries) : Option Entries :=
  let place (_ : Form) (entries : Entries) : Option Entries :=
    match entries.lookup key with
    | none => some (entries ++ [(key, .table .defined [])])
    | some (.table .implicit inner) => some (entries.put key (.table .defined inner))
    | some _ => none
  change false place path .defined entries

def openElement (path : List String) (key : String) (entries : Entries) : Option Entries :=
  let place (_ : Form) (entries : Entries) : Option Entries :=
    match entries.lookup key with
    | none => some (entries ++ [(key, .tables [[]])])
    | some (.tables elements) => some (entries.put key (.tables (elements ++ [[]])))
    | some _ => none
  change false place path .defined entries

end Entries

end MountControl.Toml
