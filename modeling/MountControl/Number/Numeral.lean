namespace MountControl

def decimal (n : Nat) : List Char :=
  Nat.toDigits 10 n

def hexadecimal (n : Nat) : List Char :=
  Nat.toDigits 16 n

def zeroPadded (width : Nat) (digits : List Char) : List Char :=
  List.replicate (width - digits.length) '0' ++ digits

def digitValue (c : Char) : Nat :=
  c.toNat - '0'.toNat

def decimalValue (digits : List Char) : Nat :=
  digits.foldl (fun n c => n * 10 + digitValue c) 0

def hexValue? (c : Char) : Option Nat :=
  if c.isDigit then some (digitValue c)
  else if 'a' ≤ c ∧ c ≤ 'f' then some (c.toNat - 'a'.toNat + 10)
  else if 'A' ≤ c ∧ c ≤ 'F' then some (c.toNat - 'A'.toNat + 10)
  else none

inductive NumeralFault
  | empty
  | badDigit
  | tooLarge
  | tooSmall
  deriving DecidableEq

namespace NumeralFault

def message : NumeralFault → String
  | empty => "cannot parse integer from empty string"
  | badDigit => "invalid digit found in string"
  | tooLarge => "number too large to fit in target type"
  | tooSmall => "number too small to fit in target type"

end NumeralFault

/-- Reads digits onto `n`; `beyond` is the fault of a number above the limit. -/
def readDigits (limit : Nat) (beyond : NumeralFault) (n : Nat) :
    List Char → Except NumeralFault Nat
  | [] => .ok n
  | c :: rest =>
    if c.isDigit then
      let next := n * 10 + digitValue c
      if next ≤ limit then readDigits limit beyond next rest else .error beyond
    else .error .badDigit

/-- Reads a number up to `limit`; a plus sign may stand before it. -/
def readUnsigned (limit : Nat) : List Char → Except NumeralFault Nat
  | [] => .error .empty
  | ['+'] => .error .badDigit
  | '+' :: rest => readDigits limit .tooLarge 0 rest
  | cs => readDigits limit .tooLarge 0 cs

def readSigned (limit : Nat) : List Char → Except NumeralFault Int
  | ['-'] => .error .badDigit
  | '-' :: rest => (readDigits (limit + 1) .tooSmall 0 rest).map (fun n => -(n : Int))
  | cs => (readUnsigned limit cs).map Int.ofNat

def readWord64 (s : String) : Except NumeralFault UInt64 :=
  (readUnsigned 0xFFFFFFFFFFFFFFFF s.toList).map UInt64.ofNat

def readInt64 (s : String) : Except NumeralFault Int :=
  readSigned 0x7FFFFFFFFFFFFFFF s.toList

end MountControl
