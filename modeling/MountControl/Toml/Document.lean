import MountControl.Toml.Item
import MountControl.Toml.Token

/-!
Reading TOML documents: values, headers and lines.
-/

namespace MountControl.Toml

def depthLimit : Nat := 80

mutual

/-- Reads a value; `fuel` bounds the number of its parts and `depth` counts what it stands in. -/
def readValue : (fuel depth : Nat) → Reader Item
  | 0, _, _ => none
  | fuel + 1, depth, cs =>
    match cs with
    | [] => none
    | c :: rest =>
      if c = '"' ∨ c = '\'' then (readString cs).map fun (s, rest) => (.scalar (.text s), rest)
      else if c = '[' then
        if depthLimit ≤ depth then none
        else (readElements fuel (depth + 1) rest).map fun (items, rest) => (.array items, rest)
      else if c = '\x7b' then
        if depthLimit ≤ depth then none
        else match skipSpace rest with
          | '\x7d' :: rest => some (.inline [], rest)
          | rest => (readPairs fuel (depth + 1) [] rest).map fun (es, rest) => (.inline es, rest)
      else if c = 't' then
        if ['r', 'u', 'e'].isPrefixOf rest then some (.scalar (.boolean true), rest.drop 3)
        else none
      else if c = 'f' then
        if ['a', 'l', 's', 'e'].isPrefixOf rest then some (.scalar (.boolean false), rest.drop 4)
        else none
      else match readMoment cs with
        | some (text, rest) => some (.scalar (.text text), rest)
        | none => (readNumber cs).map fun
          | (.inl n, rest) => (.scalar (.integer n), rest)
          | (.inr x, rest) => (.scalar (.float x), rest)

def readElements : (fuel depth : Nat) → Reader (List Item)
  | 0, _, _ => none
  | fuel + 1, depth, cs =>
    match skipGap cs.length cs with
    | ']' :: rest => some ([], rest)
    | cs => do
      let (item, rest) ← readValue fuel depth cs
      match skipGap rest.length rest with
      | ',' :: rest =>
        let (items, rest) ← readElements fuel depth rest
        return (item :: items, rest)
      | ']' :: rest => return ([item], rest)
      | _ => none

def readPairs : (fuel depth : Nat) → Entries → Reader Entries
  | 0, _, _, _ => none
  | fuel + 1, depth, entries, cs => do
    let ((path, key), rest) ← readKey cs
    let (item, rest) ← readValue fuel depth (skipSpace (← skipChar '=' rest))
    let entries ← entries.assign path key item
    match skipSpace rest with
    | ',' :: rest => readPairs fuel depth entries rest
    | '\x7d' :: rest => return (entries, rest)
    | _ => none

end

structure Draft where
  entries : Entries
  place : List String

namespace Draft

def assign (d : Draft) (path : List String) (key : String) (item : Item) : Option Draft := do
  let entries ← d.entries.change false (fun _ es => es.assign path key item) d.place .defined
  return { d with entries }

end Draft

def readLine (d : Draft) : List Char → Option (Draft × List Char)
  | '[' :: '[' :: rest => do
    let ((path, key), rest) ← readKey rest
    let rest ← skipLineEnd (← skipChar ']' (← skipChar ']' rest))
    return (⟨← d.entries.openElement path key, path ++ [key]⟩, rest)
  | '[' :: rest => do
    let ((path, key), rest) ← readKey rest
    let rest ← skipLineEnd (← skipChar ']' rest)
    return (⟨← d.entries.openTable path key, path ++ [key]⟩, rest)
  | cs => do
    let ((path, key), rest) ← readKey cs
    let rest := skipSpace (← skipChar '=' rest)
    let (item, rest) ← readValue (2 * rest.length + 1) 0 rest
    let rest ← skipLineEnd rest
    return (← d.assign path key item, rest)

def readLines : (fuel : Nat) → Draft → List Char → Option Entries
  | 0, _, _ => none
  | fuel + 1, d, cs =>
    match skipGap cs.length cs with
    | [] => some d.entries
    | cs => do
      let (d, rest) ← readLine d cs
      readLines fuel d rest

/-- Reads a document; a byte order mark may stand before it. -/
def read? (text : String) : Option Entries :=
  let cs := match text.toList with
    | '\uFEFF' :: rest => rest
    | cs => cs
  readLines (cs.length + 1) ⟨[], []⟩ (unifyLines cs)

end MountControl.Toml
