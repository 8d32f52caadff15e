import MountControl.Json.Reader

namespace MountControl.Json

def readWord (limit : Nat) : Reader Nat := fun cs =>
  let within : Number × List Char → Except Fault (Nat × List Char)
    | (.natural n, rest) => if n ≤ limit then .ok (n, rest) else .error .mismatched
    | _ => .error .mismatched
  match skipSpace cs with
  | [] => .error .truncated
  | c :: rest =>
    if c = '-' then readNumber true rest >>= within
    else if c.isDigit then readNumber false (c :: rest) >>= within
    else .error (mismatch (c :: rest))

def readBool : Reader Bool := fun cs =>
  match skipSpace cs with
  | [] => .error .truncated
  | c :: rest =>
    if c = 't' then (skipWord ['r', 'u', 'e'] rest).map (true, ·)
    else if c = 'f' then (skipWord ['a', 'l', 's', 'e'] rest).map (false, ·)
    else .error (mismatch (c :: rest))

def readString : Reader String := fun cs =>
  match skipSpace cs with
  | '"' :: rest => readStringBody rest
  | rest => .error (mismatch rest)

def readOptional {α : Type} (read : Reader α) : Reader (Option α) := fun cs =>
  match skipSpace cs with
  | 'n' :: rest => (skipWord ['u', 'l', 'l'] rest).map (none, ·)
  | rest => (read rest).map fun (value, rest) => (some value, rest)

def skipSign (sign : Char) (cs : List Char) : Except Fault (List Char) :=
  match skipSpace cs with
  | [] => .error .truncated
  | c :: rest => if c = sign then .ok rest else .error .malformed

def skipNull (cs : List Char) : Except Fault (List Char) :=
  match skipSpace cs with
  | 'n' :: rest => skipWord ['u', 'l', 'l'] rest
  | rest => .error (mismatch rest)

def readName {α : Type} (names : List (String × α)) : Reader α := fun cs =>
  let known : String × List Char → Except Fault (α × List Char)
    | (s, rest) => match names.lookup s with
      | some value => .ok (value, rest)
      | none => .error .mismatched
  match skipSpace cs with
  | '"' :: rest => readStringBody rest >>= known
  | '\x7b' :: rest => do
    let (value, rest) ← readString rest >>= known
    let rest ← skipSign '\x7d' (← skipNull (← skipSign ':' rest))
    .ok (value, rest)
  | rest => .error (unexpected rest)

section Record

variable {κ ν : Type} [DecidableEq κ]

def skipComma (first : Bool) (cs : List Char) : Except Fault (List Char) :=
  if first then .ok cs else skipSign ',' cs

/-- Reads the elements of an array as the values of `order`, up to the closing bracket. Fewer
elements are allowed, more are not. -/
def readElements (read : κ → Reader ν) : List κ → (first : Bool) → Reader (List (κ × ν))
  | [], _, cs =>
    match skipSpace cs with
    | ']' :: rest => .ok ([], rest)
    | rest => .error (unexpected rest)
  | key :: order, first, cs =>
    match skipSpace cs with
    | ']' :: rest => .ok ([], rest)
    | [] => .error .truncated
    | c :: rest => do
      let rest ← skipComma first (c :: rest)
      match skipSpace rest with
      | [] => .error .truncated
      | ']' :: _ => .error .malformed
      | rest =>
        let (value, rest) ← read key rest
        let (values, rest) ← readElements read order false rest
        .ok ((key, value) :: values, rest)

/-- Reads the members of an object up to the closing brace. Members of other names are passed
over; a name that occurs again is a fault. -/
def readMembers (names : List (String × κ)) (read : κ → Reader ν) :
    (fuel : Nat) → (seen : List κ) → (first : Bool) → Reader (List (κ × ν))
  | 0, _, _, _ => .error .truncated
  | fuel + 1, seen, first, cs =>
    match skipSpace cs with
    | '\x7d' :: rest => .ok ([], rest)
    | [] => .error .truncated
    | c :: rest => do
      let rest ← skipComma first (c :: rest)
      match skipSpace rest with
      | '"' :: rest =>
        let (name, rest) ← readStringBody rest
        match names.lookup name with
        | some key =>
          if key ∈ seen then .error .mismatched
          else
            let (value, rest) ← read key (← skipSign ':' rest)
            let (values, rest) ← readMembers names read fuel (key :: seen) false rest
            .ok ((key, value) :: values, rest)
        | none =>
          let rest ← skipValue (← skipSign ':' rest)
          readMembers names read fuel seen false rest
      | rest => .error (unexpected rest)

def readRecord (names : List (String × κ)) (read : κ → Reader ν) : Reader (List (κ × ν)) :=
  fun cs =>
    match skipSpace cs with
    | '[' :: rest => readElements read (names.map (·.2)) true rest
    | '\x7b' :: rest => readMembers names read rest.length [] true rest
    | rest => .error (mismatch rest)

end Record

def readText {α : Type} (read : Reader α) (text : String) : Except Fault α := do
  let (value, rest) ← read text.toList
  if (skipSpace rest).isEmpty then .ok value else .error .malformed

end MountControl.Json
