/-!
Raw bytes and the Unicode text they encode. Decoding reads a byte string as a list of pieces, each
one character or one maximal run of bytes that begins a character and does not finish it.
-/

namespace MountControl

abbrev Bytes := List UInt8

namespace Utf8

def encode (s : String) : Bytes :=
  s.toList.flatMap String.utf8EncodeChar

/-- A character whose lead byte was read: its bits so far, the range of the next byte, and the
number of bytes still missing after that one. -/
structure Pending where
  value : Nat
  low : UInt8
  high : UInt8
  missing : Nat
  deriving DecidableEq

/-- What a byte at the start of a character means: a whole character, the beginning of a longer
one, or nothing. Overlong forms, surrogates and values above U+10FFFF are ruled out by the range
of the second byte. -/
def lead (b : UInt8) : List (Option Char) × Option Pending :=
  if b < 0x80 then ([some (Char.ofNat b.toNat)], none)
  else if b < 0xC2 then ([none], none)
  else if b < 0xE0 then ([], some ⟨b.toNat - 0xC0, 0x80, 0xBF, 0⟩)
  else if b = 0xE0 then ([], some ⟨0, 0xA0, 0xBF, 1⟩)
  else if b = 0xED then ([], some ⟨0xD, 0x80, 0x9F, 1⟩)
  else if b < 0xF0 then ([], some ⟨b.toNat - 0xE0, 0x80, 0xBF, 1⟩)
  else if b = 0xF0 then ([], some ⟨0, 0x90, 0xBF, 2⟩)
  else if b < 0xF4 then ([], some ⟨b.toNat - 0xF0, 0x80, 0xBF, 2⟩)
  else if b = 0xF4 then ([], some ⟨4, 0x80, 0x8F, 2⟩)
  else ([none], none)

/-- Reads one byte: the pieces it completes and the character it leaves unfinished. A byte that
cannot continue the pending character ends it as a bad piece and starts afresh. -/
def step (pending : Option Pending) (b : UInt8) : List (Option Char) × Option Pending :=
  match pending with
  | none => lead b
  | some p =>
    if p.low ≤ b ∧ b ≤ p.high then
      let value := p.value * 64 + (b.toNat - 0x80)
      match p.missing with
      | 0 => ([some (Char.ofNat value)], none)
      | n + 1 => ([], some ⟨value, 0x80, 0xBF, n⟩)
    else
      let (out, next) := lead b
      (none :: out, next)

def piecesFrom (pending : Option Pending) : Bytes → List (Option Char)
  | [] => if pending.isSome then [none] else []
  | b :: rest => (step pending b).1 ++ piecesFrom (step pending b).2 rest

def pieces (bytes : Bytes) : List (Option Char) :=
  piecesFrom none bytes

def decode? (bytes : Bytes) : Option String :=
  ((pieces bytes).mapM id).map String.ofList

def lossy (bytes : Bytes) : String :=
  String.ofList ((pieces bytes).map (·.getD '\uFFFD'))

end Utf8

end MountControl
