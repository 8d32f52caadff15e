import MountControl.Number.Binary64

namespace MountControl.Toml

abbrev Reader (α : Type) := List Char → Option (α × List Char)

def unifyLines : List Char → List Char
  | '\r' :: '\n' :: rest => '\n' :: unifyLines rest
  | c :: rest => c :: unifyLines rest
  | [] => []

def isSpace (c : Char) : Bool :=
  c = ' ' || c = '\t'

def skipSpace (cs : List Char) : List Char :=
  cs.dropWhile isSpace

def isPlain (c : Char) : Bool :=
  c = '\t' || (' ' ≤ c && c ≠ '\x7f')

def skipComment : List Char → List Char
  | '#' :: rest => rest.dropWhile isPlain
  | cs => cs

def skipLineEnd (cs : List Char) : Option (List Char) :=
  match skipComment (skipSpace cs) with
  | [] => some []
  | '\n' :: rest => some rest
  | _ => none

def skipGap : Nat → List Char → List Char
  | 0, cs => cs
  | fuel + 1, cs =>
    match skipComment (skipSpace cs) with
    | '\n' :: rest => skipGap fuel rest
    | rest => rest

/-! ## Strings -/

def prepend (front : List Char) (r : Option (List Char × List Char)) :
    Option (List Char × List Char) :=
  r.map fun (body, rest) => (front ++ body, rest)

def closeString (quote : Char) (escapes : Bool) : Reader (List Char)
  | [] => none
  | c :: rest =>
    if c = quote then some ([], rest)
    else if escapes && c = '\\' then
      match rest with
      | [] => none
      | d :: rest => prepend [c, d] (closeString quote escapes rest)
    else prepend [c] (closeString quote escapes rest)

/-- Splits a text at the three quotes that close a string of several lines. Up to two quotes before
them belong to the string. -/
def closeLongString (quote : Char) (escapes : Bool) : Reader (List Char)
  | [] => none
  | c :: rest =>
    if c = quote && rest.take 2 = [quote, quote] then
      let after := rest.drop 2
      let extra := (after.takeWhile (· = quote)).take 2
      some (extra, after.drop extra.length)
    else if escapes && c = '\\' then
      match rest with
      | [] => none
      | d :: rest => prepend [c, d] (closeLongString quote escapes rest)
    else prepend [c] (closeLongString quote escapes rest)

/-- Where a reader stands inside a string with escapes: between characters, after a backslash,
inside the digits of a code point, or in the blanks that a backslash at a line's end removes. -/
inductive EscapePlace
  | plain
  | escape
  | digits (left value : Nat)
  | fold (ended : Bool)

def shortEscape? (c : Char) : Option Char :=
  if c = 'b' then some '\x08'
  else if c = 't' then some '\t'
  else if c = 'n' then some '\n'
  else if c = 'f' then some '\x0c'
  else if c = 'r' then some '\r'
  else if c = '"' then some '"'
  else if c = '\\' then some '\\'
  else none

def charOf? (n : Nat) : Option Char :=
  if n < 0xD800 ∨ (0xDFFF < n ∧ n < 0x110000) then some (Char.ofNat n) else none

def unescape (long : Bool) : EscapePlace → List Char → Option (List Char)
  | .plain, [] => some []
  | .fold true, [] => some []
  | _, [] => none
  | .escape, c :: rest =>
    if c = 'u' then unescape long (.digits 4 0) rest
    else if c = 'U' then unescape long (.digits 8 0) rest
    else if long && isSpace c then unescape long (.fold false) rest
    else if long && c = '\n' then unescape long (.fold true) rest
    else (shortEscape? c).bind fun d => (unescape long .plain rest).map (d :: ·)
  | .digits left value, c :: rest =>
    (hexValue? c).bind fun d =>
      let value := value * 16 + d
      if left ≤ 1 then (charOf? value).bind fun ch => (unescape long .plain rest).map (ch :: ·)
      else unescape long (.digits (left - 1) value) rest
  | .fold ended, c :: rest =>
    if isSpace c then unescape long (.fold ended) rest
    else if c = '\n' then unescape long (.fold true) rest
    else if !ended then none
    else if c = '\\' then unescape long .escape rest
    else if isPlain c then (unescape long .plain rest).map (c :: ·)
    else none
  | .plain, c :: rest =>
    if c = '\\' then unescape long .escape rest
    else if isPlain c || (long && c = '\n') then (unescape long .plain rest).map (c :: ·)
    else none

def literal (long : Bool) (cs : List Char) : Option (List Char) :=
  if cs.all fun c => isPlain c || (long && c = '\n') then some cs else none

def dropFirstLineEnd : List Char → List Char
  | '\n' :: rest => rest
  | cs => cs

def readShortString (quote : Char) : Reader String := fun cs => do
  let escapes := quote = '"'
  let (body, rest) ← closeString quote escapes cs
  let text ← if escapes then unescape false .plain body else literal false body
  return (String.ofList text, rest)

def readLongString (quote : Char) : Reader String := fun cs => do
  let escapes := quote = '"'
  let (body, rest) ← closeLongString quote escapes (dropFirstLineEnd cs)
  let text ← if escapes then unescape true .plain body else literal true body
  return (String.ofList text, rest)

def readString : Reader String
  | '"' :: '"' :: '"' :: rest => readLongString '"' rest
  | '\'' :: '\'' :: '\'' :: rest => readLongString '\'' rest
  | '"' :: rest => readShortString '"' rest
  | '\'' :: rest => readShortString '\'' rest
  | _ => none

/-! ## Keys -/

def isBareKeyChar (c : Char) : Bool :=
  c.isAlphanum || c = '-' || c = '_'

def readSimpleKey : Reader String
  | '"' :: rest => readShortString '"' rest
  | '\'' :: rest => readShortString '\'' rest
  | cs =>
    let name := cs.takeWhile isBareKeyChar
    if name.isEmpty then none else some (String.ofList name, cs.dropWhile isBareKeyChar)

def keyPartLimit : Nat := 79

def readKeyParts : (limit : Nat) → Reader (List String)
  | 0, _ => none
  | limit + 1, cs => do
    let (name, rest) ← readSimpleKey (skipSpace cs)
    match skipSpace rest with
    | '.' :: rest =>
      let (names, rest) ← readKeyParts limit rest
      return (name :: names, rest)
    | rest => return ([name], rest)

def readKey : Reader (List String × String) := fun cs => do
  let (names, rest) ← readKeyParts keyPartLimit cs
  let last ← names.getLast?
  return ((names.dropLast, last), rest)

/-! ## Numbers -/

def digitRun (isDigit : Char → Bool) : List Char → List Char × List Char
  | '_' :: c :: rest =>
    if isDigit c then
      let (digits, rest) := digitRun isDigit rest
      (c :: digits, rest)
    else ([], '_' :: c :: rest)
  | c :: rest =>
    if isDigit c then
      let (digits, rest) := digitRun isDigit rest
      (c :: digits, rest)
    else ([], c :: rest)
  | [] => ([], [])

def readDigitRun (isDigit : Char → Bool) : Reader (List Char)
  | c :: rest => if isDigit c then some (digitRun isDigit (c :: rest)) else none
  | [] => none

/-- The digits of a whole number; none follow a zero. -/
def readWhole : Reader (List Char)
  | '0' :: rest => some (['0'], rest)
  | cs => readDigitRun Char.isDigit cs

def inRange (n : Int) : Bool :=
  -0x8000000000000000 ≤ n && n < 0x8000000000000000

def readBased (base : Nat) (isDigit : Char → Bool) : Reader (Int ⊕ Binary64) := fun cs => do
  let (digits, rest) ← readDigitRun isDigit cs
  let n : Nat := digits.foldl (fun n c => n * base + (hexValue? c).getD 0) 0
  if inRange n then some (.inl n, rest) else none

def readScale : Reader (List Char)
  | '-' :: rest => prepend ['e', '-'] (readDigitRun Char.isDigit rest)
  | '+' :: rest => prepend ['e'] (readDigitRun Char.isDigit rest)
  | rest => prepend ['e'] (readDigitRun Char.isDigit rest)

/-- A decimal fraction; those too large for the positive numbers are refused. -/
def floatOf (negative : Bool) (text : List Char) : Option Binary64 :=
  match Binary64.readMagnitude negative text with
  | some (.infinite false) => none
  | x => x

def readScaled (negative : Bool) (digits : List Char) : Reader Binary64
  | c :: rest =>
    if c = 'e' ∨ c = 'E' then do
      let (scale, rest) ← readScale rest
      return (← floatOf negative (digits ++ scale), rest)
    else (floatOf negative digits).map (·, c :: rest)
  | [] => (floatOf negative digits).map (·, [])

def readDecimal (negative : Bool) : Reader (Int ⊕ Binary64) := fun cs => do
  let (whole, rest) ← readWhole cs
  match rest with
  | '.' :: rest =>
    let (fraction, rest) ← readDigitRun Char.isDigit rest
    let (x, rest) ← readScaled negative (whole ++ '.' :: fraction) rest
    return (.inr x, rest)
  | c :: _ =>
    if c = 'e' ∨ c = 'E' then
      let (x, rest) ← readScaled negative whole rest
      return (.inr x, rest)
    else integer whole rest
  | [] => integer whole rest
where
  integer (whole rest : List Char) : Option ((Int ⊕ Binary64) × List Char) :=
    let n : Int := if negative then -(decimalValue whole : Int) else decimalValue whole
    if inRange n then some (.inl n, rest) else none

def readSigned (negative : Bool) : Reader (Int ⊕ Binary64)
  | 'i' :: 'n' :: 'f' :: rest => some (.inr (.infinite negative), rest)
  | 'n' :: 'a' :: 'n' :: rest => some (.inr .nan, rest)
  | cs => readDecimal negative cs

def readNumber : Reader (Int ⊕ Binary64)
  | '+' :: rest => readSigned false rest
  | '-' :: rest => readSigned true rest
  | '0' :: 'x' :: rest => readBased 16 (fun c => (hexValue? c).isSome) rest
  | '0' :: 'o' :: rest => readBased 8 (fun c => '0' ≤ c && c ≤ '7') rest
  | '0' :: 'b' :: rest => readBased 2 (fun c => c = '0' || c = '1') rest
  | cs => readSigned false cs

/-! ## Dates and times -/

def readFixed (width : Nat) : Reader Nat := fun cs =>
  let digits := cs.take width
  if digits.length = width ∧ digits.all Char.isDigit then
    some (decimalValue digits, cs.drop width)
  else none

def skipChar (c : Char) : List Char → Option (List Char)
  | d :: rest => if d = c then some rest else none
  | [] => none

def isLeapYear (year : Nat) : Bool :=
  year % 4 == 0 && (year % 100 != 0 || year % 400 == 0)

def daysInMonth (year month : Nat) : Nat :=
  if month = 2 then (if isLeapYear year then 29 else 28)
  else if month ∈ [4, 6, 9, 11] then 30
  else 31

def readDate : Reader (List Char) := fun cs => do
  let (year, rest) ← readFixed 4 cs
  let (month, rest) ← readFixed 2 (← skipChar '-' rest)
  let (day, rest) ← readFixed 2 (← skipChar '-' rest)
  if 1 ≤ month ∧ month ≤ 12 ∧ 1 ≤ day ∧ day ≤ daysInMonth year month then
    some (cs.take 10, rest)
  else none

def fractionText (digits : List Char) : List Char :=
  match ((digits.take 9).reverse.dropWhile (· == '0')).reverse with
  | [] => []
  | kept => '.' :: kept

def readTime : Reader (List Char) := fun cs => do
  let (hour, rest) ← readFixed 2 cs
  let (minute, rest) ← readFixed 2 (← skipChar ':' rest)
  let (second, rest) ← readFixed 2 (← skipChar ':' rest)
  if 23 < hour ∨ 59 < minute ∨ 60 < second then none
  else match rest with
    | '.' :: rest =>
      let (digits, rest) := Binary64.takeDigits rest
      if digits.isEmpty then none else some (cs.take 8 ++ fractionText digits, rest)
    | rest => some (cs.take 8, rest)

def readOffset (sign : Char) : Reader (List Char) := fun cs => do
  let (hour, rest) ← readFixed 2 cs
  let (minute, rest) ← readFixed 2 (← skipChar ':' rest)
  if 23 < hour ∨ 59 < minute then none
  else
    let sign := if hour = 0 ∧ minute = 0 then '+' else sign
    some (sign :: cs.take 5, rest)

def readZone : Reader (List Char)
  | '+' :: rest => readOffset '+' rest
  | '-' :: rest => readOffset '-' rest
  | c :: rest => if c = 'Z' ∨ c = 'z' then some (['Z'], rest) else some ([], c :: rest)
  | [] => some ([], [])

def readMoment : Reader String := fun cs =>
  match readDate cs with
  | none => (readTime cs).map fun (text, rest) => (String.ofList text, rest)
  | some (date, rest) =>
    let timed : Option (List Char × List Char) := match rest with
      | c :: after =>
        if c = 'T' ∨ c = 't' ∨ c = ' ' then do
          let (time, rest) ← readTime after
          let (zone, rest) ← readZone rest
          return ('T' :: time ++ zone, rest)
        else none
      | [] => none
    match timed with
    | some (time, rest) => some (String.ofList (date ++ time), rest)
    | none => some (String.ofList date, rest)

end MountControl.Toml
