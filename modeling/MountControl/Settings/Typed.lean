import MountControl.Log.Format
import MountControl.Settings.Value
import MountControl.Text.Quoted

namespace MountControl

inductive TypeFault
  | wrongType (found expected key : String) (origin : Option String)
  | noChoice (kind name : String)
  | notAName (kind : String)
  deriving DecidableEq

namespace TypeFault

def message : TypeFault → String
  | wrongType found expected key origin =>
    s!"invalid type: {found}, expected {expected} for key " ++ "\x60" ++ key ++ "\x60" ++
      match origin with
      | some place => " in " ++ place
      | none => ""
  | noChoice kind name => s!"enum {kind} does not have variant constructor {name}"
  | notAName kind =>
    s!"value of enum {kind} should be represented by either string or table with exactly one key"

end TypeFault

namespace SettingValue

def describeShape : SettingValue → String × Option String
  | nil => ("unit value", none)
  | scalar _ origin => ("value", some origin)
  | list _ origin => ("sequence", origin)
  | table _ => ("map", none)

def truthWord? (word : String) : Option Bool :=
  if word ∈ ["true", "on", "yes"] then some true
  else if word ∈ ["false", "off", "no"] then some false
  else none

/-- Reads a 64-bit word. Fractions are rounded, a half away from zero, and kept within the range. -/
def toWord64 (key : String) (v : SettingValue) : Except TypeFault UInt64 :=
  match v with
  | scalar (.boolean b) _ => .ok (if b then 1 else 0)
  | scalar (.integer n) origin =>
    if n < 0 then
      .error (.wrongType ("64-bit integer " ++ "\x60" ++ toString n ++ "\x60")
        "an unsigned 64 bit or less integer" key (some origin))
    else .ok (.ofNat n.toNat)
  | scalar (.float x) _ => .ok (.ofNat (x.roundToNat 0xFFFFFFFFFFFFFFFF))
  | scalar (.text s) origin =>
    match truthWord? (lower s) with
    | some b => .ok (if b then 1 else 0)
    | none => match readWord64 s with
      | .ok n => .ok n
      | .error _ =>
        .error (.wrongType ("string " ++ Quoted.encode s) "an integer" key (some origin))
  | other =>
    let (found, origin) := other.describeShape
    .error (.wrongType found "an integer" key origin)

/-- Reads a truth value. Every number but zero is true. -/
def toBool (key : String) (v : SettingValue) : Except TypeFault Bool :=
  match v with
  | scalar (.boolean b) _ => .ok b
  | scalar (.integer n) _ => .ok (n != 0)
  | scalar (.float x) _ => .ok !x.isZero
  | scalar (.text s) origin =>
    let word := lower s
    if word = "1" then .ok true
    else if word = "0" then .ok false
    else match truthWord? word with
      | some b => .ok b
      | none => .error (.wrongType ("string " ++ Quoted.encode word) "a boolean" key (some origin))
  | other =>
    let (found, origin) := other.describeShape
    .error (.wrongType found "a boolean" key origin)

def toChoice {α : Type} (kind : String) (choices : List (String × α)) (v : SettingValue) :
    Except TypeFault α :=
  let find (name : String) : Except TypeFault α :=
    match choices.lookup (lower name) with
    | some value => .ok value
    | none => .error (.noChoice kind name)
  match v with
  | scalar (.text s) _ => find s
  | table [(name, _)] => find name
  | _ => .error (.notAName kind)

def toOptional {α : Type} (read : SettingValue → Except TypeFault α) (v : SettingValue) :
    Except TypeFault (Option α) :=
  match v with
  | nil => .ok none
  | v => (read v).map some

end SettingValue

end MountControl
