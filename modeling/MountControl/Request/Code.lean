import MountControl.Request.Direction
import MountControl.Request.Fault

namespace MountControl

structure RequestCode where
  raw : UInt32
  deriving DecidableEq

inductive CodeField
  | number
  | type
  | size
  | direction
  deriving DecidableEq

namespace CodeField

def all : List CodeField :=
  [number, type, size, direction]

def bits : CodeField → UInt32
  | number => 8
  | type => 8
  | size => 14
  | direction => 2

def mask (f : CodeField) : UInt32 :=
  (1 <<< f.bits) - 1

/-- The place of a field's lowest bit: each field begins where the one below it ends. -/
def shift : CodeField → UInt32
  | number => 0
  | type => number.bits
  | size => number.bits + type.bits
  | direction => number.bits + type.bits + size.bits

end CodeField

structure WideField where
  field : SizedField
  deriving DecidableEq

namespace WideField

def message (w : WideField) : String :=
  match w.field with
  | .type => "ioctl type does not fit in 8 bits"
  | .number => "ioctl number does not fit in 8 bits"
  | .size => "ioctl size does not fit in 14 bits"

end WideField

namespace RequestCode

def field (code : RequestCode) (f : CodeField) : UInt32 :=
  (code.raw >>> f.shift) &&& f.mask

def number (code : RequestCode) : UInt32 := code.field .number

def type (code : RequestCode) : UInt32 := code.field .type

def size (code : RequestCode) : UInt32 := code.field .size

def direction (code : RequestCode) : Direction :=
  .ofBits (code.raw >>> CodeField.direction.shift)

def assemble (direction : Direction) (type number size : UInt32) : RequestCode where
  raw := (direction.bits <<< CodeField.direction.shift) ||| (type <<< CodeField.type.shift) |||
    (number <<< CodeField.number.shift) ||| (size <<< CodeField.size.shift)

/-- Packs fields that are known to fit; a field above its mask is a fault of the program. -/
def pack (direction : Direction) (type number size : UInt32) : Except WideField RequestCode :=
  if CodeField.type.mask < type then .error ⟨.type⟩
  else if CodeField.number.mask < number then .error ⟨.number⟩
  else if CodeField.size.mask < size then .error ⟨.size⟩
  else .ok (assemble direction type number size)

def checkField (field : SizedField) (value : UInt32) (place : CodeField) :
    Except ProtocolFault Unit :=
  if value >>> place.bits = 0 then .ok ()
  else .error (.fieldOverflow field value place.bits.toNat)

def pack? (direction : Direction) (type number size : UInt32) :
    Except ProtocolFault RequestCode := do
  checkField .type type .type
  checkField .number number .number
  checkField .size size .size
  -- the fields are checked once more here, which finds nothing that the first checks let through
  (pack direction type number size).mapError fun w => .fieldOverflow w.field 0 0

def io (type number : UInt32) : Except WideField RequestCode :=
  pack .none type number 0

def ior (type number size : UInt32) : Except WideField RequestCode :=
  pack .read type number size

def iow (type number size : UInt32) : Except WideField RequestCode :=
  pack .write type number size

def iowr (type number size : UInt32) : Except WideField RequestCode :=
  pack .readWrite type number size

def text (code : RequestCode) : String :=
  String.ofList ('0' :: 'x' :: zeroPadded 8 (hexadecimal code.raw.toNat))

def fromJson : Json.Reader RequestCode := fun cs =>
  (Json.readWord 0xFFFFFFFF cs).map fun (n, rest) => (⟨.ofNat n⟩, rest)

def toJson (code : RequestCode) : String :=
  toString code.raw.toNat

end RequestCode

end MountControl
