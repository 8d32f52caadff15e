import MountControl.Control.Transport

namespace MountControl

/-- How a device-control call comes back from the system: with a value, an error number that counts
only beside the value -1, and the data put at the start of the buffer; or never. -/
inductive DeviceReturn
  | value (v : Int32) (errno : Errno) (data : Bytes)
  | never
  deriving DecidableEq

namespace DeviceReturn

/-- What the call comes to for the caller: the value -1 is a refusal of the system, any other one is
the driver's status. -/
def answer : DeviceReturn → Answer
  | value v errno data => if v = -1 then .refuse (.errno errno) else .reply v data
  | never => .silence

end DeviceReturn

end MountControl
