import MountControl.Number.Binary64

/-!
Reading JSON texts from left to right. A reader takes a value off the front of a text and hands
back the rest; the first fault it meets decides the outcome.
-/

namespace MountControl.Json

/-- Why a text cannot be read: it is not JSON, it is JSON of another kind than wanted, or it ends
before the value does. -/
inductive Fault
  | malformed
  | mismatched
  | truncated
  deriving DecidableEq

abbrev Reader (α : Type) := List Char → Except Fault (α × List Char)

def isSpace (c : Char) : Bool :=
  c = ' ' || c = '\n' || c = '\t' || c = '\r'

def skipSpace (cs : List Char) : List Char :=
  cs.dropWhile isSpace

def unexpected : List Char → Fault
  | [] => .truncated
  | _ :: _ => .malformed

def skipWord : List Char → List Char → Except Fault (List Char)
  | [], cs => .ok cs
  | _ :: _, [] => .error .truncated
  | w :: word, c :: cs => if c = w then skipWord word cs else .error .malformed

/-! ## Strings -/

/-- Where a reader stands inside a string: between characters, after a backslash, inside the four
digits of a numbered escape, or after the first half of a surrogate pair. -/
inductive StringPlace
  | plain
  | escape (high : Option Nat)
  | digits (high : Option Nat) (count value : Nat)
  | afterHigh (high : Nat)

def shortEscape? (c : Char) : Option Char :=
  if c = '"' then some '"'
  else if c = '\\' then some '\\'
  else if c = '/' then some '/'
  else if c = 'b' then some '\x08'
  else if c = 'f' then some '\x0c'
  else if c = 'n' then some '\n'
  else if c = 'r' then some '\r'
  else if c = 't' then some '\t'
  else none

/-- The meaning of a numbered escape after an optional first half: a character, a first half to be
completed, or nothing. -/
def pairUnit (high : Option Nat) (unit : Nat) : Option (Char ⊕ Nat) :=
  match high with
  | some h =>
    if 0xDC00 ≤ unit ∧ unit ≤ 0xDFFF then
      some (.inl (Char.ofNat (0x10000 + (h - 0xD800) * 0x400 + (unit - 0xDC00))))
    else none
  | none =>
    if 0xDC00 ≤ unit ∧ unit ≤ 0xDFFF then none
    else if 0xD800 ≤ unit ∧ unit ≤ 0xDBFF then some (.inr unit)
    else some (.inl (Char.ofNat unit))

def pushChar (c : Char) (r : Except Fault (List Char × List Char)) :
    Except Fault (List Char × List Char) :=
  r.map fun (s, rest) => (c :: s, rest)

def byteSize (cs : List Char) : Nat :=
  cs.foldl (fun n c => n + c.utf8Size) 0

/-- Reads a string to its closing quote. A numbered escape cut off by the end of the text, counted
in bytes, is truncated rather than malformed. Unless `paired`, halves of surrogate pairs may stand
alone. -/
def readStringAt (paired : Bool) : StringPlace → Reader (List Char)
  | _, [] => .error .truncated
  | .plain, c :: rest =>
    if c = '"' then .ok ([], rest)
    else if c = '\\' then readStringAt paired (.escape none) rest
    else if c < ' ' then .error .malformed
    else pushChar c (readStringAt paired .plain rest)
  | .afterHigh high, c :: rest =>
    if c = '\\' then readStringAt paired (.escape (some high)) rest else .error .malformed
  | .escape high, c :: rest =>
    if c = 'u' then readStringAt paired (.digits high 0 0) rest
    else match high, shortEscape? c with
      | none, some d => pushChar d (readStringAt paired .plain rest)
      | _, _ => .error .malformed
  | .digits high count value, c :: rest =>
    match hexValue? c with
    | none => .error (if count + byteSize ((c :: rest).take 4) < 4 then .truncated else .malformed)
    | some d =>
      let value := value * 16 + d
      if count < 3 then readStringAt paired (.digits high (count + 1) value) rest
      else if paired then
        match pairUnit high value with
        | some (.inl ch) => pushChar ch (readStringAt paired .plain rest)
        | some (.inr half) => readStringAt paired (.afterHigh half) rest
        | none => .error .malformed
      else pushChar (Char.ofNat value) (readStringAt paired .plain rest)

def readStringBody : Reader String := fun cs =>
  (readStringAt true .plain cs).map fun (s, rest) => (String.ofList s, rest)

def skipStringBody (cs : List Char) : Except Fault (List Char) :=
  (readStringAt false .plain cs).map (·.2)

/-! ## Numbers -/

inductive Number
  | natural (n : Nat)
  | negative (n : Nat)
  | other
  deriving DecidableEq

/-- Appends digits to a significand as long as it stays a 64-bit word; returns what is left. -/
def absorb (n : Nat) : List Char → Nat × List Char
  | [] => (n, [])
  | c :: rest =>
    let next := n * 10 + digitValue c
    if next < 0x10000000000000000 then absorb next rest else (n, c :: rest)

def outOfRange (significand : Nat) (exponent : Int) : Bool :=
  if significand = 0 ∨ exponent < 0 then false
  else if 308 < exponent then true
  else
    let value := Binary64.ofDecimal false significand (decimal significand).length 0
    match value.mul (.ofDecimal false 1 1 exponent) with
    | .infinite _ => true
    | _ => false

def realNumber (significand : Nat) (exponent : Int) : Except Fault Number :=
  if outOfRange significand exponent then .error .malformed else .ok .other

def readExponent (significand : Nat) (base : Int) : Reader Number := fun cs =>
  let (negative, cs) := match cs with
    | '-' :: rest => (true, rest)
    | '+' :: rest => (false, rest)
    | rest => (false, rest)
  let (digits, rest) := Binary64.takeDigits cs
  if digits.isEmpty then .error (unexpected rest)
  else
    let e := decimalValue digits
    if 0x80000000 ≤ e then
      if significand ≠ 0 && !negative then .error .malformed else .ok (.other, rest)
    else (realNumber significand (if negative then base - e else base + e)).map (·, rest)

def readScale (significand : Nat) (base : Int) : Reader Number
  | c :: rest =>
    if c = 'e' ∨ c = 'E' then readExponent significand base rest
    else (realNumber significand base).map (·, c :: rest)
  | [] => (realNumber significand base).map (·, [])

/-- Reads what may follow the whole part of a number; `extra` digits of it did not fit the
significand. -/
def readFraction (negative : Bool) (significand extra : Nat) : Reader Number
  | '.' :: rest =>
    let (digits, rest) := Binary64.takeDigits rest
    if digits.isEmpty then .error (unexpected rest)
    else
      let (significand, left) := absorb significand digits
      readScale significand ((extra : Int) - (digits.length - left.length : Nat)) rest
  | cs =>
    if extra ≠ 0 || cs.head? = some 'e' || cs.head? = some 'E' then readScale significand extra cs
    else if !negative then .ok (.natural significand, cs)
    else if 0 < significand && significand ≤ 0x8000000000000000 then .ok (.negative significand, cs)
    else .ok (.other, cs)

def readNumber (negative : Bool) : Reader Number
  | [] => .error .truncated
  | c :: rest =>
    if c = '0' then
      if (rest.head?.map Char.isDigit).getD false then .error .malformed
      else readFraction negative 0 0 rest
    else if c.isDigit then
      let (digits, rest) := Binary64.takeDigits (c :: rest)
      let (significand, left) := absorb 0 digits
      readFraction negative significand left.length rest
    else .error .malformed

def skipDigits (cs : List Char) : Except Fault (List Char) :=
  if (cs.head?.map Char.isDigit).getD false then .ok (cs.dropWhile Char.isDigit)
  else .error .malformed

def skipScale : List Char → Except Fault (List Char)
  | c :: rest =>
    if c = 'e' ∨ c = 'E' then
      match rest with
      | '+' :: rest => skipDigits rest
      | '-' :: rest => skipDigits rest
      | rest => skipDigits rest
    else .ok (c :: rest)
  | [] => .ok []

def skipNumber (cs : List Char) : Except Fault (List Char) := do
  let rest ← match cs with
    | '0' :: rest =>
      if (rest.head?.map Char.isDigit).getD false then .error .malformed else .ok rest
    | cs => skipDigits cs
  match rest with
  | '.' :: rest => skipScale (← skipDigits rest)
  | rest => skipScale rest

/-! ## Values that are not wanted -/

mutual

def skipValueIn : Nat → List Char → Except Fault (List Char)
  | 0, _ => .error .truncated
  | fuel + 1, cs =>
    match skipSpace cs with
    | [] => .error .truncated
    | c :: rest =>
      if c = 'n' then skipWord ['u', 'l', 'l'] rest
      else if c = 't' then skipWord ['r', 'u', 'e'] rest
      else if c = 'f' then skipWord ['a', 'l', 's', 'e'] rest
      else if c = '-' then skipNumber rest
      else if c.isDigit then skipNumber (c :: rest)
      else if c = '"' then skipStringBody rest
      else if c = '[' then
        match skipSpace rest with
        | ']' :: rest => .ok rest
        | [] => .error .truncated
        | rest => skipElementsIn fuel rest
      else if c = '\x7b' then
        match skipSpace rest with
        | '\x7d' :: rest => .ok rest
        | [] => .error .truncated
        | rest => skipMembersIn fuel rest
      else .error .malformed

def skipElementsIn : Nat → List Char → Except Fault (List Char)
  | 0, _ => .error .truncated
  | fuel + 1, cs => do
    match skipSpace (← skipValueIn fuel cs) with
    | ',' :: rest => skipElementsIn fuel rest
    | ']' :: rest => .ok rest
    | rest => .error (unexpected rest)

def skipMembersIn : Nat → List Char → Except Fault (List Char)
  | 0, _ => .error .truncated
  | fuel + 1, cs => do
    match skipSpace cs with
    | '"' :: rest =>
      match skipSpace (← skipStringBody rest) with
      | ':' :: rest =>
        match skipSpace (← skipValueIn fuel rest) with
        | ',' :: rest => skipMembersIn fuel rest
        | '\x7d' :: rest => .ok rest
        | rest => .error (unexpected rest)
      | rest => .error (unexpected rest)
    | rest => .error (unexpected rest)

end

/-- Passes over a value of any kind; every part of it takes at least one character. -/
def skipValue (cs : List Char) : Except Fault (List Char) :=
  skipValueIn (2 * cs.length + 1) cs

def mismatch : List Char → Fault
  | [] => .truncated
  | c :: rest =>
    let after {α : Type} : Except Fault α → Fault
      | .ok _ => .mismatched
      | .error e => e
    if c = 'n' then after (skipWord ['u', 'l', 'l'] rest)
    else if c = 't' then after (skipWord ['r', 'u', 'e'] rest)
    else if c = 'f' then after (skipWord ['a', 'l', 's', 'e'] rest)
    else if c = '-' then after (readNumber true rest)
    else if c.isDigit then after (readNumber false (c :: rest))
    else if c = '"' then after (readStringBody rest)
    else if c = '[' ∨ c = '\x7b' then .mismatched
    else .malformed

end MountControl.Json
