import MountControl.Text.Utf8

namespace MountControl

/-- An argument by its shape: the mark after which everything is positional, a long option with an
optional attached value, short options, or anything else. -/
inductive Token
  | endOfOptions
  | long (name : Bytes) (value : Option Bytes)
  | short (letters : Bytes)
  | plain (bytes : Bytes)
  deriving DecidableEq

namespace Token

def dash : UInt8 := 0x2D

def equals : UInt8 := 0x3D

/-- The shape of an argument. A single dash is a plain argument. -/
def ofBytes (arg : Bytes) : Token :=
  match arg with
  | a :: b :: rest =>
    if a = dash ∧ b = dash then
      if rest = [] then .endOfOptions
      else match rest.dropWhile (· ≠ equals) with
        | [] => .long rest none
        | _ :: value => .long (rest.takeWhile (· ≠ equals)) (some value)
    else if a = dash then .short (b :: rest)
    else .plain arg
  | _ => .plain arg

end Token

end MountControl
