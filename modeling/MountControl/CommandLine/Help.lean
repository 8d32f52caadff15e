import MountControl.CommandLine.Parameter
import MountControl.Request.Operation

namespace MountControl.Help

def version : String := "irodsfs-ctl 0.1.0\n"

def about : String := "Send control requests to a mounted iRODS FUSE filesystem"

def usage : String := "Usage: irodsfs-ctl [OPTIONS] <COMMAND> <MOUNT>"

def padTo (width : Nat) (s : String) : String :=
  s ++ String.ofList (List.replicate (width - s.length) ' ')

def commands : String :=
  "Available commands:\n" ++
    String.join (Operation.all.map fun op =>
      "  " ++ padTo 18 op.name ++ op.description ++ "\n")

def indented (width : Nat) (s : String) : String :=
  String.ofList (s.toList.flatMap fun c =>
    if c = '\n' then c :: List.replicate width ' ' else [c])

def variableNote (p : Parameter) (config : String) : Option String :=
  if p = .config then some ("[env: " ++ configVariable ++ "=" ++ config ++ "]") else none

def standardOptions (long : Bool) : List (String × String) :=
  [("-h, --help", if long then "Print help (see a summary with '-h')"
      else "Print help (see more with '--help')"),
    ("-V, --version", "Print version")]

def optionHead (p : Parameter) : String :=
  "    " ++ p.shown

def shortEntry (width : Nat) (head body : String) : String :=
  "  " ++ padTo width head ++ "  " ++ indented (width + 4) body ++ "\n"

def shortBody (config : String) (p : Parameter) : String :=
  let values := match p.choices with
    | [] => []
    | choices => ["[possible values: " ++ String.intercalate ", " (choices.map (·.1)) ++ "]"]
  String.intercalate " " ([p.help] ++ (variableNote p config).toList ++ values)

def short (config : String) : String :=
  let positional := [Parameter.command, .mount].map fun p => (p.shown, p.help)
  let options := Parameter.options.map (fun p => (optionHead p, shortBody config p)) ++
    standardOptions false
  let widest (entries : List (String × String)) : Nat :=
    entries.foldl (fun n e => max n e.1.length) 0
  let block (entries : List (String × String)) : String :=
    String.join (entries.map fun (head, body) => shortEntry (widest entries) head body)
  about ++ "\n\n" ++ usage ++ "\n\nArguments:\n" ++ block positional ++ "\nOptions:\n" ++
    block options ++ "\n" ++ commands

def paragraph (s : String) : String :=
  "          " ++ indented 10 s ++ "\n"

def choiceList (p : Parameter) : String :=
  let width := p.choices.foldl (fun n c => max n c.1.length) 0
  match p.choices with
  | [] => ""
  | choices => "\n          Possible values:\n" ++
      String.join (choices.map fun (name, meaning) =>
        "          - " ++ padTo (width + 1) (name ++ ":") ++ " " ++ meaning ++ "\n")

def longEntry (config : String) (head : String) (p : Parameter) : String :=
  let note := match variableNote p config with
    | none => ""
    | some note => "          \n" ++ paragraph note
  "  " ++ head ++ "\n" ++ paragraph p.help ++ note ++ choiceList p

def long (config : String) : String :=
  let positional := [Parameter.command, .mount].map fun p => longEntry config p.shown p
  let options := Parameter.options.map (fun p => longEntry config (optionHead p) p) ++
    (standardOptions true).map fun (head, body) => "  " ++ head ++ "\n" ++ paragraph body
  about ++ "\n\n" ++ usage ++ "\n\nArguments:\n" ++ String.intercalate "\n" positional ++
    "\nOptions:\n" ++ String.intercalate "\n" options ++ "\n" ++ commands

end MountControl.Help
