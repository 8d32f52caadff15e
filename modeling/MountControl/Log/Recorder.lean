import MountControl.Files.Tree
import MountControl.Log.Filter
import MountControl.Log.Line

namespace MountControl

inductive LogDestination
  | standardError
  | file (loc : Location)
  deriving DecidableEq

structure Recorder where
  filter : LogFilter
  format : LogFormat
  destination : LogDestination

structure LogOptions where
  level : Option Severity
  format : Option LogFormat
  file : Option Path
  deriving DecidableEq

namespace LogOptions

/-- The choices with those that are missing filled in; the file stays as it is. -/
def orElse (o : LogOptions) (level : Option Severity) (format : Option LogFormat) : LogOptions :=
  ⟨o.level <|> level, o.format <|> format, o.file⟩

/-- The level to record at; warnings and errors if nothing is chosen. -/
def effectiveLevel (o : LogOptions) : Severity :=
  o.level.getD .warn

def effectiveFormat (o : LogOptions) : LogFormat :=
  o.format.getD .plaintext

end LogOptions

inductive LogFault
  | system (e : SystemError)
  | alreadySet
  deriving DecidableEq

namespace LogFault

def message : LogFault → String
  | system e => e.message
  | alreadySet => "a global default trace dispatcher has already been set"

end LogFault

/-- What a process has to do with its log: the files, the log as set up, the lines written so far
with their destinations, and what the setup complained of on standard error. -/
structure LogState where
  files : FileTree
  recorder : Option Recorder
  lines : List (LogDestination × LogLine)
  complaints : List String

namespace LogState

def initial (files : FileTree) : LogState :=
  ⟨files, none, [], []⟩

def filterVariable : String := "RUST_LOG"

/-- The filter for a level: the level for every note, and again for those of the component. -/
def defaultFilterText (component : String) (level : Severity) : String :=
  let target := String.ofList (component.toList.map fun c => if c = '-' then '_' else c)
  level.label ++ "," ++ target ++ "=" ++ level.label

def chooseFilter (filterText : Option String) (component : String) (level : Severity) :
    LogFilter × List String :=
  match filterText.map LogFilter.ofText with
  | some (.ok filter) => (filter, [])
  | _ =>
    let (filter, faults) := LogFilter.ofTextLossy (defaultFilterText component level)
    (filter, faults.map fun (part, fault) =>
      "ignoring " ++ "\x60" ++ part ++ "\x60" ++ ": " ++ fault.message)

def makeParents (files : FileTree) (cwd : Location) (path : Path) :
    FileTree × Except SystemError Unit :=
  match path.parent? with
  | some above => files.makeDirectories cwd (above.length + 1) above
  | none => (files, .ok ())

/-- Opens the file of a log, with the directories above it. Those that were made stay, also if the
file cannot be opened. -/
def openFile (files : FileTree) (cwd : Location) (path : Path) :
    FileTree × Except SystemError Location :=
  match makeParents files cwd path with
  | (made, .error e) => (made, .error e)
  | (made, .ok ()) => match made.openForAppending cwd path with
    | .ok (opened, loc) => (opened, .ok loc)
    | .error e => (made, .error e)

def chooseDestination (files : FileTree) (cwd : Location) (file : Option Path) :
    FileTree × Except SystemError LogDestination :=
  match file with
  | none => (files, .ok .standardError)
  | some path =>
    let (files, opened) := openFile files cwd path
    (files, opened.map .file)

/-- Sets up the log. The file is opened even if the log turns out to be set up already. -/
def setUp (s : LogState) (cwd : Location) (filterText : Option String) (component : String)
    (o : LogOptions) : LogState × Except LogFault Unit :=
  let (files, destination) := chooseDestination s.files cwd o.file
  match destination with
  | .error e => ({ s with files }, .error (.system e))
  | .ok destination =>
    let (filter, complaints) := chooseFilter filterText component o.effectiveLevel
    let s := { s with files, complaints := s.complaints ++ complaints }
    match s.recorder with
    | some _ => (s, .error .alreadySet)
    | none => ({ s with recorder := some ⟨filter, o.effectiveFormat, destination⟩ }, .ok ())

def record (s : LogState) (n : Note) : LogState :=
  match s.recorder with
  | none => s
  | some r =>
    if r.filter.admits n then
      let shown := { n with span := n.span.filter r.filter.keepsSpan }
      let coloured := r.destination = .standardError
      { s with lines := s.lines ++ [(r.destination, shown.render r.format coloured)] }
    else s

def recordAll (s : LogState) (notes : List Note) : LogState :=
  notes.foldl record s

def linesAt (s : LogState) (d : LogDestination) : List LogLine :=
  (s.lines.filter (·.1 = d)).map (·.2)

end LogState

end MountControl
