import MountControl.Number.Numeral
import MountControl.Text.Printable

namespace MountControl

namespace Quoted

def encodeChar (c : Char) : List Char :=
  match c with
  | '\x00' => ['\\', '0']
  | '\t' => ['\\', 't']
  | '\n' => ['\\', 'n']
  | '\r' => ['\\', 'r']
  | '"' => ['\\', '"']
  | '\\' => ['\\', '\\']
  | c => if isPrintable c then [c] else ['\\', 'u', '\x7b'] ++ hexadecimal c.toNat ++ ['\x7d']

def encode (s : String) : String :=
  String.ofList ('"' :: s.toList.flatMap encodeChar ++ ['"'])

def encodeList (texts : List String) : String :=
  "[" ++ String.intercalate ", " (texts.map encode) ++ "]"

end Quoted

end MountControl
