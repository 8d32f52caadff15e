import MountControl.Text.LowerCase
import MountControl.Toml.Item

/-!
Settings before they are read as anything definite: a tree of values, each of which knows where it
was written. Tables have no place of their own, since several sources may add to them.
-/

namespace MountControl

inductive SettingValue
  | nil
  | scalar (s : Toml.Scalar) (origin : String)
  | list (items : List SettingValue) (origin : Option String)
  | table (entries : List (String × SettingValue))

namespace SettingValue

abbrev Entries := List (String × SettingValue)

def put (key : String) (value : SettingValue) : Entries → Entries
  | [] => [(key, value)]
  | (k, old) :: rest => if k = key then (key, value) :: rest else (k, old) :: put key value rest

/-- The entries of a table; any other value has none. -/
def entries : SettingValue → Entries
  | table es => es
  | _ => []

mutual

def ofItem (origin : String) : Toml.Item → SettingValue
  | .scalar s => .scalar s origin
  | .array items => .list (ofItems origin items) (some origin)
  | .inline es => .table (ofEntries origin es)
  | .table _ es => .table (ofEntries origin es)
  | .tables elements => .list (ofTables origin elements) (some origin)

def ofItems (origin : String) : List Toml.Item → List SettingValue
  | [] => []
  | item :: rest => ofItem origin item :: ofItems origin rest

def ofEntries (origin : String) : List (String × Toml.Item) → Entries
  | [] => []
  | (key, item) :: rest => (key, ofItem origin item) :: ofEntries origin rest

def ofTables (origin : String) : List (List (String × Toml.Item)) → List SettingValue
  | [] => []
  | es :: rest => .table (ofEntries origin es) :: ofTables origin rest

end

mutual

/-- Sets a key, in lower case, in a value that is made a table if it is none. A table that comes
in is merged into the one that is there, key by key. -/
def insert (key : String) (value : SettingValue) (root : SettingValue) : SettingValue :=
  let es := root.entries
  match value with
  | .table incoming =>
    let target := (es.lookup (lower key)).getD (.table [])
    .table (put (lower key) (merge incoming target) es)
  | value => .table (put (lower key) value es)

def merge : List (String × SettingValue) → SettingValue → SettingValue
  | [], root => root
  | (key, value) :: rest, root => merge rest (insert key value root)

end

end SettingValue

end MountControl
