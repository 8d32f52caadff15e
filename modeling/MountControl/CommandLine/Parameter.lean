import MountControl.Log.Format
import MountControl.Text.Utf8

namespace MountControl

inductive Parameter
  | command
  | mount
  | extra
  | timeoutMs
  | json
  | config
  | logLevel
  | logFormat
  | logFile
  deriving DecidableEq

namespace Parameter

def options : List Parameter :=
  [timeoutMs, json, config, logLevel, logFormat, logFile]

/-- The name after the dashes; positional parameters have none. -/
def longName : Parameter → String
  | timeoutMs => "timeout-ms"
  | json => "json"
  | config => "config"
  | logLevel => "log-level"
  | logFormat => "log-format"
  | logFile => "log-file"
  | command | mount | extra => ""

/-- What stands for the value; the switch has none. -/
def placeholder : Parameter → String
  | command => "<COMMAND>"
  | mount => "<MOUNT>"
  | extra => "[EXTRA]..."
  | timeoutMs => "<MS>"
  | json => ""
  | config => "<CONFIG>"
  | logLevel => "<LOG_LEVEL>"
  | logFormat => "<LOG_FORMAT>"
  | logFile => "<LOG_FILE>"

def shown (p : Parameter) : String :=
  if p.longName = "" then p.placeholder
  else if p.placeholder = "" then "--" ++ p.longName
  else "--" ++ p.longName ++ " " ++ p.placeholder

def help : Parameter → String
  | command => "Control command to run (case-insensitive)"
  | mount => "Path to the mounted filesystem (e.g. /mnt/irods)"
  | extra => "Accepted for compatibility and ignored"
  | timeoutMs => "Give up on the driver after this many milliseconds (0 waits forever)"
  | json => "Print the report as JSON"
  | config => "TOML file with default settings"
  | logLevel => "Log verbosity level (default: warn)"
  | logFormat => "Log output format (default: plaintext)"
  | logFile => "Append logs to this file instead of stderr"

def levelHelp : Severity → String
  | .error => "Only error conditions"
  | .warn => "Errors and warnings"
  | .info => "Errors, warnings, and informational messages"
  | .debug => "All above plus debug information"
  | .trace => "All above plus detailed tracing"

def formatHelp : LogFormat → String
  | .plaintext => "Human-readable plaintext format"
  | .json => "Structured JSON format"

def choices : Parameter → List (String × String)
  | logLevel => Severity.all.map fun s => (s.name, levelHelp s)
  | logFormat => LogFormat.all.map fun f => (f.name, formatHelp f)
  | _ => []

def ofLongName? (name : String) : Option Parameter :=
  options.find? fun p => p.longName == name

end Parameter

def configVariable : String := "IFUSE_CTL_CONFIG"

end MountControl
