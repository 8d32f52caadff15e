import MountControl.Log.Directive
import MountControl.Text.Pieces

namespace MountControl

structure LogFilter where
  directives : List Directive

namespace Directive

def weight (d : Directive) : Nat × Nat :=
  ((d.target.map fun t => t.utf8ByteSize + 1).getD 0, d.fields.length)

def fieldNames (d : Directive) : List String :=
  d.fields.map (·.name)

/-- Whether two directives are about the same notes; the later one then replaces the earlier. -/
def sameScope (d e : Directive) : Bool :=
  d.target = e.target && d.fieldNames = e.fieldNames

/-- Whether a directive is more specific than another; among equals the greater text wins. -/
def precedes (d e : Directive) : Bool :=
  let (a, b) := d.weight
  let (a', b') := e.weight
  a > a' || (a = a' && (b > b' || (b = b' &&
    (d.target.getD "" > e.target.getD "" ||
      (d.target = e.target && d.fieldNames > e.fieldNames)))))

def insertSorted (d : Directive) : List Directive → List Directive
  | [] => [d]
  | e :: rest =>
    if d.sameScope e then d :: rest
    else if d.precedes e then d :: e :: rest
    else e :: insertSorted d rest

end Directive

namespace LogFilter

def silent : LogFilter := ⟨[]⟩

def parts (text : String) : List String :=
  ((pieces ',' text.toList).filter (· ≠ [])).map String.ofList

def ofText (text : String) : Except DirectiveFault LogFilter :=
  ((parts text).mapM Directive.ofText).map (⟨·⟩)

/-- Reads a filter, leaving out the parts that are no directives; those are returned with their
faults. -/
def ofTextLossy (text : String) : LogFilter × List (String × DirectiveFault) :=
  (parts text).foldr (fun part (filter, faults) =>
    match Directive.ofText part with
    | .ok d => (⟨d :: filter.directives⟩, faults)
    | .error fault => (filter, (part, fault) :: faults)) (silent, [])

def statics (f : LogFilter) : List Directive :=
  let plain := f.directives.filter fun d => !d.isDynamic
  let byField := f.directives.filter fun d => d.isDynamic && d.isStatic
  (plain ++ byField).foldl (fun sorted d => d.insertSorted sorted) []

def dynamics (f : LogFilter) : List Directive :=
  f.directives.filter (·.isDynamic)

def ceiling (f : LogFilter) : LogLevel :=
  if f.dynamics.any fun d => d.fields.any (·.value.isSome) then some .trace
  else f.directives.foldl (fun top d => if top.rank < d.level.rank then d.level else top) none

def admitsFirst (directives : List Directive) (s : Severity) : Bool :=
  match directives with
  | d :: _ => d.level.admits s
  | [] => false

def spanDirectives (f : LogFilter) (span : Span) : List Directive :=
  f.dynamics.filter fun d =>
    d.covers span.target && d.span.all (· == span.name) &&
      d.fieldNames.all fun name => (span.fields.lookup name).isSome

def keepsSpan (f : LogFilter) (span : Span) : Bool :=
  f.ceiling.admits span.severity &&
    (!(f.spanDirectives span).isEmpty ||
      admitsFirst (f.statics.filter (·.covers span.target)) span.severity)

def levelInside (f : LogFilter) (span : Span) : LogLevel :=
  let matching := (f.spanDirectives span).filter fun d =>
    d.fields.all fun test => test.value.all fun wanted =>
      ((span.fields.lookup test.name).map (FieldTest.accepts wanted)).getD false
  matching.foldl (fun top d => if top.rank < d.level.rank then d.level else top) none

def admits (f : LogFilter) (n : Note) : Bool :=
  let inside := match n.span with
    | some span => f.keepsSpan span && (f.levelInside span).admits n.severity
    | none => false
  let hasFields (d : Directive) : Bool :=
    d.fieldNames.all fun name => name == "message" || (n.fields.lookup name).isSome
  inside || admitsFirst (f.statics.filter fun d => d.covers n.target && hasFields d) n.severity

end LogFilter

end MountControl
