import MountControl.Files.Path
import MountControl.Files.SystemError

/-!
A tree of directories, files and symbolic links, and how the system walks a path through it.
-/

namespace MountControl

abbrev Location := List Bytes

inductive FileNode
  | directory
  | file (content : Bytes)
  | link (target : Path)
  deriving DecidableEq

/-- The entries of a file system, by place. The root is always there. -/
structure FileTree where
  entries : List (Location × FileNode)

namespace FileTree

def get? (t : FileTree) (loc : Location) : Option FileNode :=
  if loc = [] then some .directory else t.entries.lookup loc

def insert (t : FileTree) (loc : Location) (node : FileNode) : FileTree where
  entries := (loc, node) :: t.entries.filter (·.1 ≠ loc)

def nameLimit : Nat := 255

def pathLimit : Nat := 4095

def linkLimit : Nat := 40

inductive Target
  | found (loc : Location) (node : FileNode)
  | vacant (loc : Location)
  deriving DecidableEq

def stepsOf (p : Path) : List Bytes :=
  (pieces Path.slash p).filter (· ≠ [])

/-- How far a walk gets without passing a link: to its end, or to a link with what is left to walk
from which directory. -/
inductive Stage
  | ended (target : Target)
  | link (dir : Location) (steps : List Bytes)

/-- Walks from a directory along components up to the first link that has to be passed. The last
component's link is passed only if `follow`. -/
def walkToLink (t : FileTree) (follow : Bool) (dir : Location) : List Bytes → Except Errno Stage
  | [] => .ok (.ended (.found dir ((t.get? dir).getD .directory)))
  | name :: rest =>
    if name = Path.dot then walkToLink t follow dir rest
    else if name = Path.dotDot then walkToLink t follow dir.dropLast rest
    else if nameLimit < name.length then .error .nameTooLong
    else
      let loc := dir ++ [name]
      match t.get? loc with
      | none => if rest.isEmpty then .ok (.ended (.vacant loc)) else .error .notFound
      | some .directory => walkToLink t follow loc rest
      | some (.file content) =>
        if rest.isEmpty then .ok (.ended (.found loc (.file content))) else .error .notDirectory
      | some (.link target) =>
        if rest.isEmpty && !follow then .ok (.ended (.found loc (.link target)))
        else .ok (.link (if target.isAbsolute then [] else dir) (stepsOf target ++ rest))

/-- Walks from a directory along components. A link is passed by walking its target, and uses up
one of `links`. -/
def walk (t : FileTree) (follow : Bool) (links : Nat) (dir : Location) (steps : List Bytes) :
    Except Errno Target :=
  match t.walkToLink follow dir steps, links with
  | .error e, _ => .error e
  | .ok (.ended target), _ => .ok target
  | .ok (.link _ _), 0 => .error .tooManyLinks
  | .ok (.link dir steps), links + 1 => walk t follow links dir steps

/-- Walks a path as the system does; a path that ends in a slash has to lead to a directory. -/
def locate (t : FileTree) (cwd : Location) (follow : Bool) (p : Path) : Except Errno Target :=
  if p = [] then .error .notFound
  else if pathLimit < p.length then .error .nameTooLong
  else
    let start := if p.isAbsolute then [] else cwd
    match walk t (follow || p.endsInSlash) linkLimit start (stepsOf p) with
    | .ok (.found loc (.file content)) =>
      if p.endsInSlash then .error .notDirectory else .ok (.found loc (.file content))
    | other => other

def isDirectory (t : FileTree) (cwd : Location) (p : Path) : Bool :=
  match t.locate cwd true p with
  | .ok (.found _ .directory) => true
  | _ => false

def fileContent? (t : FileTree) (cwd : Location) (p : Path) : Option Bytes :=
  match p.contains 0, t.locate cwd true p with
  | false, .ok (.found _ (.file content)) => some content
  | _, _ => none

def openDirectory (t : FileTree) (cwd : Location) (p : Path) : Option SystemError :=
  if p.contains 0 then some .zeroByte
  else match t.locate cwd true p with
    | .ok (.found _ .directory) => none
    | .ok (.found _ _) => some (.errno .notDirectory)
    | .ok (.vacant _) => some (.errno .notFound)
    | .error e => some (.errno e)

def makeDirectory (t : FileTree) (cwd : Location) (p : Path) : Except SystemError FileTree :=
  if p.contains 0 then .error .zeroByte
  else match t.locate cwd false p.trimEnd with
    | .ok (.vacant loc) => .ok (t.insert loc .directory)
    | .ok (.found _ _) => .error (.errno .alreadyThere)
    | .error e => .error (.errno e)

def ensureDirectory (t : FileTree) (cwd : Location) (p : Path) :
    FileTree × Except SystemError Unit :=
  match t.makeDirectory cwd p with
  | .ok made => (made, .ok ())
  | .error e => (t, if t.isDirectory cwd p then .ok () else .error e)

/-- Makes a directory and, first, those above it that are missing. What is there already as a
directory is no failure; what was made before a failure stays. -/
def makeDirectories (t : FileTree) (cwd : Location) : (fuel : Nat) → Path →
    FileTree × Except SystemError Unit
  | 0, _ => (t, .ok ())
  | fuel + 1, p =>
    if p = [] then (t, .ok ())
    else match t.makeDirectory cwd p with
      | .error e =>
        if e.errno? = some .notFound then
          match p.parent? with
          | some above => match t.makeDirectories cwd fuel above with
            | (made, .ok ()) => made.ensureDirectory cwd p
            | (made, .error e) => (made, .error e)
          | none => (t, .ok ())
        else t.ensureDirectory cwd p
      | .ok _ => t.ensureDirectory cwd p

/-- Opens a file for appending, making it if the name is free; returns its place. A path that ends
in a slash can only name a directory, which cannot be appended to. -/
def openForAppending (t : FileTree) (cwd : Location) (p : Path) :
    Except SystemError (FileTree × Location) :=
  if p.contains 0 then .error .zeroByte
  else if p.endsInSlash then
    match t.locate cwd true ((stepsOf p).dropLast.foldl Path.push (Path.base Path.dot p)) with
    | .ok (.found _ .directory) => .error (.errno .isDirectory)
    | .ok (.found _ _) => .error (.errno .notDirectory)
    | .ok (.vacant _) => .error (.errno .notFound)
    | .error e => .error (.errno e)
  else match t.locate cwd true p with
    | .ok (.vacant loc) => .ok (t.insert loc (.file []), loc)
    | .ok (.found loc (.file _)) => .ok (t, loc)
    | .ok (.found _ _) => .error (.errno .isDirectory)
    | .error e => .error (.errno e)

end FileTree

end MountControl
