import MountControl.Log.Note
import MountControl.Number.Binary64
import MountControl.Text.Alphanumeric
import MountControl.Text.Blank

namespace MountControl

/-- The level up to which notes are wanted; `none` wants none at all. -/
abbrev LogLevel := Option Severity

namespace LogLevel

def rank (level : LogLevel) : Nat :=
  (level.map Severity.rank).getD 0

def admits (level : LogLevel) (s : Severity) : Bool :=
  s.rank ≤ rank level

def ofRank? : Nat → Option LogLevel
  | 0 => some none
  | 1 => some (some .error)
  | 2 => some (some .warn)
  | 3 => some (some .info)
  | 4 => some (some .debug)
  | 5 => some (some .trace)
  | _ => none

/-- Reads a level by its number or its name, in any case; an empty text means errors only. -/
def ofText? (text : String) : Option LogLevel :=
  match readWord64 text with
  | .ok n => ofRank? n.toNat
  | .error _ =>
    let word := String.ofList (text.toList.map Char.toLower)
    if word = "" then some (some .error)
    else if word = "off" then some none
    else (Severity.all.find? fun s => s.name == word).map some

end LogLevel

structure FieldTest where
  name : String
  value : Option String
  deriving DecidableEq

namespace FieldTest

def isNumeric (text : String) : Bool :=
  text = "true" || text = "false" || (Binary64.read? text).isSome

def accepts (wanted : String) : FieldValue → Bool
  | .text s => !isNumeric wanted && s = wanted
  | .number n => match readInt64 wanted with
    | .ok m => m = n
    | .error _ => false

def ofText (cs : List Char) : FieldTest :=
  let name := cs.takeWhile (· ≠ '=')
  match cs.dropWhile (· ≠ '=') with
  | [] => ⟨String.ofList name, none⟩
  | _ :: rest => ⟨String.ofList name, some (String.ofList (rest.takeWhile (· ≠ '=')))⟩

end FieldTest

structure Directive where
  level : LogLevel
  target : Option String
  span : Option String
  fields : List FieldTest
  deriving DecidableEq

inductive DirectiveFault
  | shape
  | level
  deriving DecidableEq

namespace DirectiveFault

def message : DirectiveFault → String
  | shape => "invalid filter directive"
  | level => "error parsing level filter: expected one of \"off\", \"error\", \"warn\", " ++
      "\"info\", \"debug\", \"trace\", or a number 0-5"

end DirectiveFault

namespace Directive

/-- Where a reader stands in a directive; a part that was begun knows its position. -/
inductive Place
  | start
  | levelOrTarget (start : Nat)
  | span (start : Nat)
  | field (start : Nat)
  | fields
  | target
  | level (start : Nat)

def slice (cs : List Char) (first last : Nat) : List Char :=
  (cs.drop first).take (last - first)

def levelOf (cs : List Char) : Except DirectiveFault LogLevel :=
  if cs.isEmpty then .ok (some .trace)
  else match LogLevel.ofText? (String.ofList cs) with
    | some level => .ok level
    | none => .error .level

def step (source : List Char) (i : Nat) (c : Char) (d : Directive) :
    Place → Except DirectiveFault (Directive × Place)
  | .start =>
    if c = '[' then .ok (d, .span (i + 1))
    else if c = '-' ∨ c = ':' ∨ c = '_' ∨ isAlphanumeric c then .ok (d, .levelOrTarget i)
    else .error .shape
  | .levelOrTarget first =>
    let target := String.ofList (slice source first i)
    if c = '=' then .ok ({ d with target := some target }, .level (i + 1))
    else if c = '[' then .ok ({ d with target := some target }, .span (i + 1))
    else .ok (d, .levelOrTarget first)
  | .target => if c = '=' then .ok (d, .level (i + 1)) else .error .shape
  | .span first =>
    let name := String.ofList (slice source first i)
    if c = ']' then .ok ({ d with span := some name }, .target)
    else if c = '\x7b' then
      .ok ({ d with span := if name.isEmpty then none else some name }, .field (i + 1))
    else .ok (d, .span first)
  | .field first =>
    if c = '\x7d' then
      let field := slice source first i
      if field.isEmpty then .error .shape
      else .ok ({ d with fields := d.fields ++ [FieldTest.ofText field] }, .fields)
    else .ok (d, .field first)
  | .fields => if c = ']' then .ok (d, .target) else .error .shape
  | .level first => .ok (d, .level first)

def scan (source : List Char) : (i : Nat) → List Char → Directive → Place →
    Except DirectiveFault (Directive × Place)
  | _, [], d, place => .ok (d, place)
  | i, c :: rest, d, place => do
    let (d, place) ← step source i c d place
    scan source (i + 1) rest d place

/-- Reads a directive. Positions are counted without the white space around the text, but parts are
cut from the text as given; so white space never helps. It is characters that are counted here,
where the program counts bytes: behind white space, a part that is not ASCII is cut elsewhere there,
or breaks the reading off where a cut falls into a character. -/
def ofText (text : String) : Except DirectiveFault Directive := do
  let source := text.toList
  let (d, place) ← scan source 0 (trim source) ⟨some .trace, none, none, []⟩ .start
  match place with
  | .levelOrTarget first =>
    let part := source.drop first
    match LogLevel.ofText? (String.ofList part) with
    | some level => .ok { d with level := level }
    | none => .ok { d with target := some (String.ofList part) }
  | .level first => do
    let level ← levelOf (source.drop first)
    .ok { d with level := level }
  | .target => .ok d
  | _ => .error .shape

def isDynamic (d : Directive) : Bool :=
  d.span.isSome || !d.fields.isEmpty

def isStatic (d : Directive) : Bool :=
  d.span.isNone && d.fields.all (·.value.isNone)

def covers (d : Directive) (target : String) : Bool :=
  match d.target with
  | none => true
  | some t => t.toList.isPrefixOf target.toList

end Directive

end MountControl
