import MountControl.Number.Numeral
import MountControl.Settings.Value

namespace MountControl

inductive KeyPath
  | key (name : String)
  | entry (parent : KeyPath) (name : String)
  | element (parent : KeyPath) (index : Int)
  deriving DecidableEq

structure IndexUnderflow where
  index : Int
  length : Nat

namespace IndexUnderflow

def message (_ : IndexUnderflow) : String :=
  "attempt to subtract with overflow"

end IndexUnderflow

namespace KeyPath

def isNameChar (c : Char) : Bool :=
  c.isAlphanum || c = ' ' || c = '_' || c = '-'

def isSpace (c : Char) : Bool :=
  c = ' ' || c = '\t'

def readIndex (cs : List Char) : Option (Int × List Char) :=
  let cs := cs.dropWhile isSpace
  let (negative, cs) := match cs with
    | '-' :: rest => (true, rest)
    | rest => (false, rest)
  let digits := cs.takeWhile Char.isDigit
  let n : Int := if negative then -(decimalValue digits : Int) else decimalValue digits
  match (cs.dropWhile Char.isDigit).dropWhile isSpace with
  | ']' :: rest =>
    if digits.isEmpty ∨ n < -0x8000000000000000 ∨ 0x8000000000000000 ≤ n then none
    else some (n, rest)
  | _ => none

/-- Reads the steps that follow a path; `fuel` bounds their number. -/
def readSteps : (fuel : Nat) → KeyPath → List Char → Option KeyPath
  | _, path, [] => some path
  | fuel + 1, path, '.' :: rest =>
    let name := rest.takeWhile isNameChar
    if name.isEmpty then none
    else readSteps fuel (.entry path (String.ofList name)) (rest.dropWhile isNameChar)
  | fuel + 1, path, '[' :: rest =>
    (readIndex rest).bind fun (index, rest) => readSteps fuel (.element path index) rest
  | _, _, _ => none

/-- Reads a path; a text that is none is a single key as it stands. -/
def ofText (text : String) : KeyPath :=
  let cs := text.toList
  let name := cs.takeWhile isNameChar
  if name.isEmpty then .key text
  else (readSteps cs.length (.key (String.ofList name)) (cs.dropWhile isNameChar)).getD (.key text)

/-- The place of an index in a list; a negative one counts from the end. -/
def place (index : Int) (length : Nat) : Except IndexUnderflow Nat :=
  if 0 ≤ index then .ok index.toNat
  else if index.natAbs ≤ length then .ok (length - index.natAbs)
  else .error ⟨index, length⟩

def changeEntry (name : String) (f : SettingValue → Except IndexUnderflow SettingValue)
    (parent : SettingValue) : Except IndexUnderflow SettingValue := do
  let old := (parent.entries.lookup (lower name)).getD .nil
  return .table (SettingValue.put (lower name) (← f old) parent.entries)

def changeElement (index : Int) (f : SettingValue → Except IndexUnderflow SettingValue)
    (parent : SettingValue) : Except IndexUnderflow SettingValue := do
  let (items, origin) := match parent with
    | .list items origin => (items, origin)
    | _ => ([], none)
  let i ← place index items.length
  let padded := items ++ List.replicate (i + 1 - items.length) .nil
  return .list (padded.set i (← f (padded.getD i .nil))) origin

def change : KeyPath → (SettingValue → Except IndexUnderflow SettingValue) → SettingValue →
    Except IndexUnderflow SettingValue
  | .key name, f => changeEntry name f
  | .entry parent name, f => parent.change (changeEntry name f)
  | .element parent index, f => parent.change (changeElement index f)

/-- Writes a value where a path leads; a table is merged into the one that is there. -/
def assign (path : KeyPath) (value root : SettingValue) : Except IndexUnderflow SettingValue :=
  match path with
  | .key name => .ok (SettingValue.insert name value root)
  | .entry parent name => parent.change (fun v => .ok (SettingValue.insert name value v)) root
  | .element parent index => parent.change (changeElement index fun _ => .ok value) root

end KeyPath

end MountControl
