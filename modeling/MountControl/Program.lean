import MountControl.CommandLine.Help
import MountControl.CommandLine.Invocation
import MountControl.Control.Device
import MountControl.Control.Dispatch
import MountControl.Report.Basic
import MountControl.Settings.Load

/-!
A whole run of the program: the command line is read, then the settings, then the log is set up,
then the command is carried out and reported. The first stage that fails decides the exit status.
-/

namespace MountControl

/-- Everything that a run depends on. Standard output is open: where it is not (EBADF), the standard
library takes what is written as written, and where it only interrupts (EINTR), the run does not
end. Standard error takes everything. -/
structure Launch where
  arguments : List Bytes
  environment : SystemEnvironment
  cwd : Path
  files : FileTree
  answer : RequestCode → Option Bytes → Answer
  output : Sink
  order : HashOrder := .asListed

/-- Everything that a run leaves behind: the exit status, standard output, what it said on standard
error besides log lines, the log, and what the driver saw. -/
structure Run where
  exitCode : UInt8
  output : Bytes
  complaint : String
  log : LogState
  events : List Event

inductive RunFault
  | settings (fault : SettingsFault)
  | log (fault : LogFault)
  | control (e : ControlError)
  | output (fault : WriteFault)
  | broken (message : String)

namespace RunFault

def brokenExitCode : UInt8 := 101

def exitCode : RunFault → UInt8
  | control e => e.exitCode
  | settings (.underflow _) | settings .variableNotText | broken _ => brokenExitCode
  | settings _ | log _ | output _ => 1

def breaksOff : RunFault → Bool
  | settings (.underflow _) | settings .variableNotText | broken _ => true
  | _ => false

def chain : RunFault → String
  | settings fault => fault.chain
  | log fault => fault.message
  | control e => e.chain
  | output fault => "failed to write report: " ++ fault.message
  | broken message => message

end RunFault

namespace Launch

def noteTarget : String := "irodsfs_ctl"

def component : String := "ifuse-ctl"

def note (message : String) (fields : List (String × FieldValue)) : Note :=
  ⟨.debug, noteTarget, message, fields, none⟩

def noteExtras (extras : List String) : List Note :=
  if extras = [] then []
  else [note "ignoring extra arguments" [("extra", .text (Quoted.encodeList extras))]]

def noteFailure (exitCode : UInt8) : Note :=
  note "command failed" [("exit_code", .number exitCode.toNat)]

def environmentValue? (l : Launch) (name : String) : Option Bytes :=
  l.environment.lookup (Utf8.encode name)

def onDevice (l : Launch) (device : RequestCode → Option Bytes → DeviceReturn) : Launch where
  arguments := l.arguments
  environment := l.environment
  cwd := l.cwd
  files := l.files
  answer code buffer := (device code buffer).answer
  output := l.output
  order := l.order

def driver (l : Launch) (files : FileTree) : Driver where
  opening := files.openDirectory (Path.components l.cwd)
  answer := l.answer

/-- Writes a report. A line is held back until it is complete, so a mount that is no text is
noticed before the sink is. -/
def writeReport (l : Launch) (report : Report) (format : ReportFormat) : Written :=
  let rendering := report.render format
  let written := l.output.write none (rendering.pieces.map Utf8.encode)
  match rendering.fault with
  | some fault => ⟨written.accepted, some fault⟩
  | none => written

def fail (log : LogState) (output : Bytes) (events : List Event) (fault : RunFault) : Run where
  exitCode := fault.exitCode
  output := output
  complaint := String.join (log.complaints.map (· ++ "\n")) ++
    (if fault.breaksOff then "" else "error: ") ++ fault.chain ++ "\n"
  log := if fault.breaksOff then log else log.record (noteFailure fault.exitCode)
  events := events

def command (l : Launch) (i : Invocation) (settings : Settings) (log : LogState) : Run :=
  let transport : Transport := ⟨l.cwd, settings.timeout?.map .ofMilliseconds⟩
  let exchange := transport.execute (l.driver log.files) i.command i.mount
  let log := log.recordAll (noteExtras i.extras ++ exchange.notes)
  match exchange.result, resolveMount l.cwd i.mount with
  | .error (.failure e), _ => fail log [] exchange.events (.control e)
  | .error (.aborted message), _ => fail log [] exchange.events (.broken message)
  | .ok _, .error e => fail log [] exchange.events (.control e)
  | .ok outcome, .ok mount =>
    let format := if settings.json then ReportFormat.json else .text
    let written := l.writeReport (Report.ofOutcome outcome mount) format
    match written.fault with
    | some fault => fail log written.accepted exchange.events (.output fault)
    | none =>
      ⟨0, written.accepted, String.join (log.complaints.map (· ++ "\n")), log, exchange.events⟩

def perform (l : Launch) (i : Invocation) : Run :=
  let log := LogState.initial l.files
  match Settings.load l.files l.cwd i.config l.environment l.order with
  | .error fault => fail log [] [] (.settings fault)
  | .ok loaded =>
    let settings := loaded.withOverrides i.timeoutMs i.json
    let options := i.logging.orElse settings.logLevel settings.logFormat
    let filterText := (l.environmentValue? LogState.filterVariable).bind Utf8.decode?
    match log.setUp (Path.components l.cwd) filterText component options with
    | (log, .error fault) => fail log [] [] (.log fault)
    | (log, .ok ()) => l.command i settings log

def endEarly (l : Launch) (exitCode : UInt8) (output complaint : String) : Run where
  exitCode := exitCode
  output := (l.output.write none [Utf8.encode output]).accepted
  complaint := complaint
  log := LogState.initial l.files
  events := []

/-- What is said of an error in the use of the command line. Where an argument is missing, the
commands are listed. -/
def usageComplaint (e : UsageError) : String :=
  "error: " ++ e.message ++ "\n\n" ++ Help.usage ++ "\n\nFor more information, try '--help'.\n" ++
    match e with
    | .missing _ => "\n" ++ Help.commands ++ "\n"
    | _ => ""

def run (l : Launch) : Run :=
  let config := l.environmentValue? configVariable
  let shown := Utf8.lossy (config.getD [])
  match CommandLine.ofArguments l.arguments config with
  | .error e => l.endEarly 2 "" (usageComplaint e)
  | .ok .nothing => l.endEarly 2 "" (Help.short shown)
  | .ok (.help long) => l.endEarly 0 (if long then Help.long shown else Help.short shown) ""
  | .ok .version => l.endEarly 0 Help.version ""
  | .ok (.run i) => l.perform i

end Launch

end MountControl
