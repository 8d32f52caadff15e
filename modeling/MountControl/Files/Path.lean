import MountControl.Text.Pieces
import MountControl.Text.Utf8

namespace MountControl

abbrev Path := Bytes

namespace Path

def slash : UInt8 := 0x2F

def dot : Bytes := [0x2E]

def dotDot : Bytes := [0x2E, 0x2E]

def display (p : Path) : String :=
  Utf8.lossy p

def components (p : Path) : List Bytes :=
  (pieces slash p).filter fun c => c ≠ [] ∧ c ≠ dot

def isAbsolute (p : Path) : Bool :=
  p.head? == some slash

def endsInSlash (p : Path) : Bool :=
  p.getLast? == some slash

def push (p : Path) (component : Bytes) : Path :=
  if p.endsInSlash then p ++ component else p ++ slash :: component

def hasDoubleRoot (p : Path) : Bool :=
  [slash, slash].isPrefixOf p && !([slash, slash, slash].isPrefixOf p)

def base (cwd p : Path) : Path :=
  if p.isAbsolute then (if p.hasDoubleRoot then [slash, slash] else [slash]) else cwd

/-- The absolute form of a path. A slash at its end is kept; an empty path has no such form. -/
def absolute? (cwd p : Path) : Option Path :=
  if p = [] then none
  else
    let full := p.components.foldl push (base cwd p)
    some (if p.endsInSlash && !full.endsInSlash then full ++ [slash] else full)

/-- A path as seen from a directory; an absolute one stays as it is. -/
def join (dir p : Path) : Path :=
  if p.isAbsolute then p else push dir p

def trimEnd (p : Path) : Path :=
  let rec go : Path → Path
    | b :: rest =>
      if b = slash then (if rest = [] then [slash] else go rest)
      else if [b] = dot then
        match rest with
        | c :: _ => if c = slash then go rest else b :: rest
        | [] => b :: rest
      else b :: rest
    | [] => []
  (go p.reverse).reverse

def hasExtension (p : Path) : Bool :=
  match p.components.getLast? with
  | some name => name ≠ dotDot && (name.drop 1).contains 0x2E
  | none => false

def parent? (p : Path) : Option Path :=
  let p := trimEnd p
  if p = [] ∨ p = [slash] then none
  else some (trimEnd ((p.reverse.dropWhile (· ≠ slash)).reverse))

def relative (dir p : Path) : Path :=
  let rec shared : List Bytes → List Bytes → List Bytes × List Bytes
    | a :: as, b :: bs => if a = b then shared as bs else (a :: as, b :: bs)
    | as, bs => (as, bs)
  let (up, down) := shared dir.components p.components
  match up.map (fun _ => dotDot) ++ down with
  | [] => []
  | first :: more => more.foldl push first

end Path

end MountControl
