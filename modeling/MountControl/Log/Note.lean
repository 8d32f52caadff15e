namespace MountControl

inductive Severity
  | error
  | warn
  | info
  | debug
  | trace
  deriving DecidableEq

namespace Severity

def all : List Severity :=
  [error, warn, info, debug, trace]

def name : Severity → String
  | error => "error"
  | warn => "warn"
  | info => "info"
  | debug => "debug"
  | trace => "trace"

def label : Severity → String
  | error => "ERROR"
  | warn => "WARN"
  | info => "INFO"
  | debug => "DEBUG"
  | trace => "TRACE"

/-- The place in the order, from 1 for errors; a larger one is less severe. -/
def rank : Severity → Nat
  | error => 1
  | warn => 2
  | info => 3
  | debug => 4
  | trace => 5

def within (s level : Severity) : Bool :=
  s.rank ≤ level.rank

end Severity

inductive FieldValue
  | text (s : String)
  | number (n : Int)
  deriving DecidableEq

structure Span where
  name : String
  severity : Severity
  target : String
  fields : List (String × FieldValue)
  deriving DecidableEq

structure Note where
  severity : Severity
  target : String
  message : String
  fields : List (String × FieldValue)
  span : Option Span
  deriving DecidableEq

end MountControl
