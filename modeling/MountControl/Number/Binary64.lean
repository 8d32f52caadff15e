import MountControl.Number.Numeral

namespace MountControl

/-- A 64-bit floating-point number; the finite ones are `±mantissa · 2 ^ exponent`. -/
inductive Binary64
  | nan
  | infinite (negative : Bool)
  | finite (negative : Bool) (mantissa : Nat) (exponent : Int)
  deriving DecidableEq

namespace Binary64

def leastExponent : Int := -1074

def roundDiv (num den : Nat) : Nat :=
  let q := num / den
  let r := num % den
  if 2 * r < den ∨ (2 * r = den ∧ q % 2 = 0) then q else q + 1

def scaled (num den : Nat) (e : Int) : Nat × Nat :=
  if e < 0 then (num <<< (-e).toNat, den) else (num, den <<< e.toNat)

def exponentFor (num den : Nat) : Int :=
  let guess : Int := (Nat.log2 num : Int) - Nat.log2 den - 53
  let (n, d) := scaled num den guess
  max leastExponent (if n / d < 0x20000000000000 then guess else guess + 1)

def exceeds (m : Nat) (e : Int) : Bool :=
  m ≠ 0 && 1024 ≤ (Nat.log2 m : Int) + e

def ofFraction (negative : Bool) (num den : Nat) : Binary64 :=
  if num = 0 then finite negative 0 0
  else
    let e := exponentFor num den
    let (n, d) := scaled num den e
    let m := roundDiv n d
    if exceeds m e then infinite negative else finite negative m e

/-- The nearest number to `digits · 10 ^ exponent`, where `digits` has `length` decimal digits.
Values far outside the range are settled by their magnitude alone. -/
def ofDecimal (negative : Bool) (digits length : Nat) (exponent : Int) : Binary64 :=
  if digits = 0 then finite negative 0 0
  else if 400 < length + exponent then infinite negative
  else if length + exponent < -400 then finite negative 0 0
  else if exponent < 0 then ofFraction negative digits (Nat.pow 10 (-exponent).toNat)
  else ofFraction negative (digits * Nat.pow 10 exponent.toNat) 1

def isZero : Binary64 → Bool
  | finite _ m _ => m == 0
  | _ => false

def roundToNat (limit : Nat) : Binary64 → Nat
  | nan => 0
  | infinite negative => if negative then 0 else limit
  | finite true _ _ => 0
  | finite false m e =>
    if e < 0 then min limit ((m + (1 <<< ((-e).toNat - 1))) >>> (-e).toNat)
    else min limit (m <<< e.toNat)

def mul : Binary64 → Binary64 → Binary64
  | finite s m e, finite t n f =>
    let p := e + f
    if p < 0 then ofFraction (s != t) (m * n) (1 <<< (-p).toNat)
    else ofFraction (s != t) ((m * n) <<< p.toNat) 1
  | nan, _ | _, nan => nan
  | infinite s, infinite t => infinite (s != t)
  | infinite s, finite t n _ => if n = 0 then nan else infinite (s != t)
  | finite s m _, infinite t => if m = 0 then nan else infinite (s != t)

def takeDigits (cs : List Char) : List Char × List Char :=
  (cs.takeWhile Char.isDigit, cs.dropWhile Char.isDigit)

def readExponent (cs : List Char) : Option Int :=
  let (negative, digits) := match cs with
    | '-' :: rest => (true, rest)
    | '+' :: rest => (false, rest)
    | rest => (false, rest)
  if digits.isEmpty || digits.any (!·.isDigit) then none
  else some (if negative then -(decimalValue digits : Int) else decimalValue digits)

/-- Reads digits with an optional point and exponent; at least one digit must be there. -/
def readMagnitude (negative : Bool) (cs : List Char) : Option Binary64 :=
  let (whole, rest) := takeDigits cs
  let (fraction, rest) := match rest with
    | '.' :: rest => takeDigits rest
    | rest => ([], rest)
  let digits := whole ++ fraction
  if digits.isEmpty then none
  else
    let value (e : Int) :=
      ofDecimal negative (decimalValue digits) (digits.dropWhile (· == '0')).length
        (e - fraction.length)
    match rest with
    | [] => some (value 0)
    | c :: rest => if c = 'e' ∨ c = 'E' then (readExponent rest).map value else none

def read? (s : String) : Option Binary64 :=
  let (negative, cs) := match s.toList with
    | '-' :: rest => (true, rest)
    | '+' :: rest => (false, rest)
    | rest => (false, rest)
  let word := String.ofList (cs.map Char.toLower)
  if word = "inf" ∨ word = "infinity" then some (infinite negative)
  else if word = "nan" then some nan
  else readMagnitude negative cs

end Binary64

end MountControl
