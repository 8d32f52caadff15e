import MountControl.Number.Numeral

namespace MountControl.Json

def escapeChar (c : Char) : List Char :=
  if c = '"' then ['\\', '"']
  else if c = '\\' then ['\\', '\\']
  else if c = '\x08' then ['\\', 'b']
  else if c = '\t' then ['\\', 't']
  else if c = '\n' then ['\\', 'n']
  else if c = '\x0c' then ['\\', 'f']
  else if c = '\r' then ['\\', 'r']
  else if c < ' ' then ['\\', 'u', '0', '0'] ++ zeroPadded 2 (hexadecimal c.toNat)
  else [c]

def quote (s : String) : String :=
  String.ofList ('"' :: s.toList.flatMap escapeChar ++ ['"'])

def object (members : List (String × String)) : String :=
  "\x7b" ++ String.intercalate "," (members.map fun (name, value) => quote name ++ ":" ++ value)
    ++ "\x7d"

end MountControl.Json
