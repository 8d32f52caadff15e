import MountControl.CommandLine.Token
import MountControl.CommandLine.UsageError
import MountControl.Files.Path
import MountControl.Log.Recorder

namespace MountControl

structure Invocation where
  command : String
  mount : Path
  extras : List String
  timeoutMs : Option UInt64
  json : Bool
  config : Option Path
  logging : LogOptions
  deriving DecidableEq

inductive CommandLine
  | run (i : Invocation)
  | help (long : Bool)
  | version
  | nothing
  deriving DecidableEq

inductive EarlyStop
  | help (long : Bool)
  | version
  | usage (e : UsageError)
  deriving DecidableEq

/-- A command line read so far: the values given, the parameters that were given one, the values
still to be settled, the number of positional arguments, and whether only those may follow. -/
structure Reading where
  command : Option String
  mount : Option Path
  extras : List String
  timeoutMs : Option UInt64
  json : Bool
  config : Option Path
  logging : LogOptions
  given : List Parameter
  pending : Option (Parameter × List Bytes)
  positionals : Nat
  onlyPositionals : Bool

namespace Reading

def initial : Reading :=
  ⟨none, none, [], none, false, none, ⟨none, none, none⟩, [], none, 0, false⟩

def readText (bytes : Bytes) : Except UsageError String :=
  match Utf8.decode? bytes with
  | some s => .ok s
  | none => .error .notText

def readPath (p : Parameter) (bytes : Bytes) : Except UsageError Path :=
  if bytes = [] then .error (.valueRequired p) else .ok bytes

def readChoice {α : Type} (p : Parameter) (choices : List (String × α)) (bytes : Bytes) :
    Except UsageError α :=
  match (Utf8.decode? bytes).bind (findChoice choices false) with
  | some value => .ok value
  | none => .error (.noChoice p (Utf8.lossy bytes))

def store (r : Reading) (p : Parameter) (bytes : Bytes) : Except UsageError Reading :=
  match p with
  | .command => do return { r with command := some (← readText bytes) }
  | .mount => do return { r with mount := some (← readPath p bytes) }
  | .extra => do return { r with extras := r.extras ++ [← readText bytes] }
  | .timeoutMs => do
    let text ← readText bytes
    match readWord64 text with
    | .ok n => return { r with timeoutMs := some n }
    | .error fault => throw (.badNumber p text fault)
  | .json => return { r with json := true }
  | .config => do return { r with config := some (← readPath p bytes) }
  | .logLevel => do
    let level ← readChoice p Severity.byName bytes
    return { r with logging := { r.logging with level := some level } }
  | .logFormat => do
    let format ← readChoice p LogFormat.byName bytes
    return { r with logging := { r.logging with format := some format } }
  | .logFile => do
    let path ← readPath p bytes
    return { r with logging := { r.logging with file := some path } }

/-- Gives a parameter its values. An option needs a value and may be given once. -/
def give (r : Reading) (p : Parameter) (values : List Bytes) : Except UsageError Reading :=
  if values = [] then .error (.valueRequired p)
  else if p ≠ .extra ∧ p ∈ r.given then .error (.repeated p)
  else values.foldlM (fun r v => r.store p v) { r with given := p :: r.given }

def settle (r : Reading) : Except UsageError Reading :=
  match r.pending with
  | none => .ok r
  | some (p, values) => ({ r with pending := none } : Reading).give p values

def awaitsValue (r : Reading) : Bool :=
  match r.pending with
  | some (p, values) => p ∈ Parameter.options && values.isEmpty
  | none => false

def nextPositional (r : Reading) : Parameter :=
  match r.positionals with
  | 0 => .command
  | 1 => .mount
  | _ => .extra

/-- Takes a positional argument; further ones after the mount are collected together. -/
def takePositional (r : Reading) (bytes : Bytes) : Except UsageError Reading :=
  match r.nextPositional, r.pending with
  | .extra, some (.extra, values) =>
    .ok { r with pending := some (.extra, values ++ [bytes]) }
  | p, _ => do
    let r ← r.settle
    return { r with pending := some (p, [bytes]), positionals := r.positionals + 1 }

def takePlain (r : Reading) (bytes : Bytes) : Except UsageError Reading :=
  match r.pending, r.awaitsValue && !r.onlyPositionals with
  | some (p, _), true => .ok { r with pending := some (p, [bytes]) }
  | _, _ => r.takePositional bytes

/-- Takes a long option. An unknown one, and a value attached to the switch, are reported before
anything that is still to be settled. -/
def takeLong (r : Reading) (name : Bytes) (value : Option Bytes) : Except EarlyStop Reading :=
  let settled : Except EarlyStop Reading := r.settle.mapError .usage
  match (Utf8.decode? name).map fun s => (s, Parameter.ofLongName? s), value with
  | some ("help", _), none => settled >>= fun _ => .error (.help true)
  | some ("version", _), none => settled >>= fun _ => .error .version
  | some ("help", _), some v => .error (.usage (.unexpectedValue "--help" (Utf8.lossy v)))
  | some ("version", _), some v => .error (.usage (.unexpectedValue "--version" (Utf8.lossy v)))
  | some (_, some .json), some v => .error (.usage (.unexpectedValue "--json" (Utf8.lossy v)))
  | some (_, some .json), none =>
    settled >>= fun r => (r.give .json [[]]).mapError .usage
  | some (_, some p), some v => settled >>= fun r => (r.give p [v]).mapError .usage
  | some (_, some p), none => settled.map fun r => { r with pending := some (p, []) }
  | _, _ => .error (.usage (.unexpectedArgument ("--" ++ Utf8.lossy name)))

def takeShort (r : Reading) (letters : Bytes) : Except EarlyStop Reading :=
  match Utf8.pieces letters with
  | some 'h' :: _ => r.settle.mapError .usage >>= fun _ => .error (.help false)
  | some 'V' :: _ => r.settle.mapError .usage >>= fun _ => .error .version
  | some c :: _ => .error (.usage (.unexpectedArgument (String.ofList ['-', c])))
  | _ => .error (.usage (.unexpectedArgument ("-" ++ Utf8.lossy letters)))

def take (r : Reading) (arg : Bytes) : Except EarlyStop Reading :=
  if r.onlyPositionals then (r.takePositional arg).mapError .usage
  else match Token.ofBytes arg with
    | .endOfOptions => .ok { r with onlyPositionals := true }
    | .long name value => r.takeLong name value
    | .short letters => r.takeShort letters
    | .plain bytes => (r.takePlain bytes).mapError .usage

def fillConfig (r : Reading) (config : Option Bytes) : Except UsageError Reading :=
  match config, r.config with
  | some value, none => r.give .config [value]
  | _, _ => .ok r

def finish (r : Reading) : Except UsageError CommandLine :=
  match r.command, r.mount with
  | some command, some mount =>
    .ok (.run ⟨command, mount, r.extras, r.timeoutMs, r.json, r.config, r.logging⟩)
  | some _, none => .error (.missing [.mount])
  | none, _ => if r.given = [] then .ok .nothing else .error (.missing [.command, .mount])

end Reading

namespace CommandLine

def ofArguments (args : List Bytes) (config : Option Bytes) : Except UsageError CommandLine :=
  match args.foldlM Reading.take Reading.initial with
  | .error (.help long) => .ok (.help long)
  | .error .version => .ok .version
  | .error (.usage e) => .error e
  | .ok r => do (← (← r.settle).fillConfig config).finish

end CommandLine

end MountControl
