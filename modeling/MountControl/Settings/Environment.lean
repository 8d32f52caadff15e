import MountControl.Settings.Value
import MountControl.Text.Utf8

/-!
Settings from environment variables whose names begin with the program's prefix. All variables are
read as text on the way, so a single one that is no text breaks the loading off, whatever its name.
-/

namespace MountControl

abbrev Environment := List (String × String)

abbrev SystemEnvironment := List (Bytes × Bytes)

namespace Environment

def encoded (env : Environment) : SystemEnvironment :=
  env.map fun (name, text) => (Utf8.encode name, Utf8.encode text)

instance : Coe Environment SystemEnvironment :=
  ⟨encoded⟩

def settingMark : String := "ifuse_ctl_"

def origin : String := "the environment"

def settingKey? (name : String) : Option String :=
  let cs := (lower name).toList
  if settingMark.toList.isPrefixOf cs then some (String.ofList (cs.drop settingMark.length))
  else none

def readValue (text : String) : Toml.Scalar :=
  let small := lower text
  if small = "true" then .boolean true
  else if small = "false" then .boolean false
  else match readInt64 text with
    | .ok n => .integer n
    | .error _ => match Binary64.read? text with
      | some x => .float x
      | none => .text text

/-- The settings in an environment; of equal keys the later one counts. -/
def settings (env : Environment) : SettingValue.Entries :=
  env.foldl (fun es (name, text) =>
    match settingKey? name with
    | some key => SettingValue.put key (.scalar (readValue text) origin) es
    | none => es) []

end Environment

namespace SystemEnvironment

def text? (var : Bytes × Bytes) : Option (String × String) := do
  return (← Utf8.decode? var.1, ← Utf8.decode? var.2)

def texts? (env : SystemEnvironment) : Option Environment :=
  env.mapM text?

end SystemEnvironment

end MountControl
