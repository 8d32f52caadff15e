import MountControl.Number.Numeral

namespace MountControl

inductive SizedField
  | type
  | number
  | size
  deriving DecidableEq

namespace SizedField

def name : SizedField → String
  | type => "type"
  | number => "number"
  | size => "size"

end SizedField

inductive ProtocolFault
  | fieldOverflow (field : SizedField) (value : UInt32) (bits : Nat)
  | unknownOperation (text : String)
  | replySize (expected actual : Nat)
  deriving DecidableEq

namespace ProtocolFault

def message : ProtocolFault → String
  | fieldOverflow field value bits =>
    s!"ioctl {field.name} field value 0x{String.ofList (hexadecimal value.toNat)} " ++
      s!"does not fit in {bits} bits"
  | unknownOperation text => s!"unrecognized command: {text}"
  | replySize expected actual => s!"reply is {actual} bytes, expected {expected}"

end ProtocolFault

end MountControl
