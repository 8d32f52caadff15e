import MountControl.Files.Tree
import MountControl.Settings.Basic
import MountControl.Settings.Environment
import MountControl.Settings.HashOrder
import MountControl.Settings.KeyPath
import MountControl.Settings.Typed
import MountControl.Toml.Document

namespace MountControl

inductive SettingsFault
  | noFile (name : Path)
  | notText
  | notToml
  | invalid (fault : TypeFault)
  | underflow (fault : IndexUnderflow)
  | variableNotText

namespace SettingsFault

def chain : SettingsFault → String
  | noFile name =>
    s!"failed to read configuration: configuration file \"{name.display}\" not found"
  | notText => "failed to read configuration: stream did not contain valid UTF-8"
  | notToml => "failed to read configuration: TOML parse error"
  | invalid fault => "invalid configuration: " ++ fault.message
  | underflow fault => fault.message
  | variableNotText =>
    "called " ++ "\x60" ++ "Result::unwrap()" ++ "\x60" ++ " on an " ++ "\x60" ++ "Err" ++ "\x60" ++
      " value"

end SettingsFault

namespace Settings

def fileExtension : Bytes :=
  Utf8.encode ".toml"

/-- The path and content of the settings file of a name: the file itself, or the one with the
extension added to its last component. Nothing is added to a parent directory, nor to a name with
an extension that is written as a directory, with something after its last component. -/
def findFile? (tree : FileTree) (cwd name : Path) : Option (Path × Bytes) :=
  let place := Path.components cwd
  let path := Path.join cwd name
  match tree.fileContent? place path with
  | some content => some (path, content)
  | none =>
    let longer := path.trimEnd ++ fileExtension
    if path.components.getLast? = some Path.dotDot then none
    else if path.hasExtension && path.trimEnd ≠ path then none
    else (tree.fileContent? place longer).map (longer, ·)

def readFile (tree : FileTree) (cwd name : Path) :
    Except SettingsFault SettingValue.Entries :=
  match findFile? tree cwd name with
  | none => .error (.noFile name)
  | some (path, content) =>
    match Utf8.decode? content with
    | none => .error .notText
    | some text =>
      match Toml.read? text with
      | none => .error .notToml
      | some entries => .ok (SettingValue.ofEntries (Path.display (Path.relative cwd path)) entries)

/-- Writes settings under the paths that their keys spell, in the order in which they are handed
out: of keys that lead to the same place the last one counts. -/
def overlay (entries : SettingValue.Entries) (root : SettingValue) :
    Except SettingsFault SettingValue :=
  match entries with
  | [] => .ok root
  | (key, value) :: rest =>
    match (KeyPath.ofText key).assign value root with
    | .ok root => overlay rest root
    | .error fault => .error (.underflow fault)

def readAssignment (key : String) (v : SettingValue) : Except TypeFault (Option Assignment) :=
  match SettingName.byText.lookup key with
  | some .timeoutMs => (v.toOptional (SettingValue.toWord64 key)).map (some ∘ .timeoutMs)
  | some .json => (v.toBool key).map (some ∘ .json)
  | some .logLevel =>
    (v.toOptional (SettingValue.toChoice "CliLogLevel" Severity.byName)).map (some ∘ .logLevel)
  | some .logFormat =>
    (v.toOptional (SettingValue.toChoice "LogFormat" LogFormat.byName)).map (some ∘ .logFormat)
  | none => .ok none

/-- Reads the settings among the entries of a table; entries of other names are left alone. -/
def ofEntries (s : Settings) : SettingValue.Entries → Except TypeFault Settings
  | [] => .ok s
  | (key, v) :: rest => do
    match ← readAssignment key v with
    | some a => ofEntries (s.assign a) rest
    | none => ofEntries s rest

def fileEntries (tree : FileTree) (cwd : Path) :
    Option Path → Except SettingsFault SettingValue.Entries
  | some name => readFile tree cwd name
  | none => .ok []

/-- The settings in an environment, all variables of which have to be text. -/
def variableEntries (env : SystemEnvironment) : Except SettingsFault SettingValue.Entries :=
  match env.texts? with
  | some texts => .ok texts.settings
  | none => .error .variableNotText

/-- The table that an optional file and the environment make up. The variables are only looked at
when the file is written. -/
def collect (tree : FileTree) (cwd : Path) (file : Option Path) (env : SystemEnvironment)
    (order : HashOrder) : Except SettingsFault SettingValue := do
  let fromFile ← overlay (order.arrange (← fileEntries tree cwd file)) (.table [])
  overlay (order.environment (← variableEntries env)) fromFile

/-- Loads the settings of an optional file and the environment. What both have written is written
once more into an empty table, so that a key of the file that is no path, but is one in lower case,
leads somewhere else in the end. -/
def load (tree : FileTree) (cwd : Path) (file : Option Path) (env : SystemEnvironment)
    (order : HashOrder := .asListed) : Except SettingsFault Settings := do
  let root ← collect tree cwd file env order
  let copy ← overlay (order.copying.arrange root.entries) (.table [])
  (ofEntries initial (order.settings copy.entries)).mapError .invalid

end Settings

end MountControl
