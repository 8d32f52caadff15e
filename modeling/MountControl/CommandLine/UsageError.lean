import MountControl.CommandLine.Parameter
import MountControl.Number.Numeral

namespace MountControl

inductive UsageError
  | unexpectedArgument (shown : String)
  | unexpectedValue (shown value : String)
  | valueRequired (parameter : Parameter)
  | repeated (parameter : Parameter)
  | badNumber (parameter : Parameter) (value : String) (fault : NumeralFault)
  | noChoice (parameter : Parameter) (value : String)
  | notText
  | missing (parameters : List Parameter)
  deriving DecidableEq

namespace UsageError

def choiceLine (p : Parameter) : String :=
  match p.choices with
  | [] => ""
  | choices => "\n  [possible values: " ++ String.intercalate ", " (choices.map (·.1)) ++ "]"

def valueRequiredMessage (p : Parameter) : String :=
  "a value is required for '" ++ p.shown ++ "' but none was supplied" ++ choiceLine p

def message : UsageError → String
  | unexpectedArgument shown => "unexpected argument '" ++ shown ++ "' found"
  | unexpectedValue shown value =>
    "unexpected value '" ++ value ++ "' for '" ++ shown ++ "' found; no more were expected"
  | valueRequired p => valueRequiredMessage p
  | repeated p => "the argument '" ++ p.shown ++ "' cannot be used multiple times"
  | badNumber p value fault =>
    "invalid value '" ++ value ++ "' for '" ++ p.shown ++ "': " ++ fault.message
  | noChoice p value =>
    if value = "" then valueRequiredMessage p
    else "invalid value '" ++ value ++ "' for '" ++ p.shown ++ "'" ++ choiceLine p
  | notText => "invalid UTF-8 was detected in one or more arguments"
  | missing parameters => "the following required arguments were not provided:" ++
      String.join (parameters.map fun p => "\n  " ++ p.shown)

end UsageError

end MountControl
