import MountControl.Program

/-!
The program itself: it looks at the files that the command line and the environment name, runs on
what it found, and writes out what the run leaves behind. No driver is attached, so a call is
refused the way a plain directory refuses it.
-/

namespace MountControl.Main

def zeroEnded (bytes : Bytes) : List Bytes :=
  (pieces 0 bytes).dropLast

def variableOf (bytes : Bytes) : Bytes × Bytes :=
  (bytes.takeWhile (· ≠ Token.equals), (bytes.dropWhile (· ≠ Token.equals)).drop 1)

def readBytes (name : String) : IO Bytes := do
  return (← IO.FS.readBinFile name).toList

def nameOf (loc : Location) : Option String :=
  Utf8.decode? (loc.foldl Path.push [Path.slash])

def lookAt (tree : FileTree) (loc : Location) : IO FileTree := do
  let some name := nameOf loc | return tree
  match ← (IO.FS.realPath name).toBaseIO with
  | .error _ => return tree
  | .ok real =>
    let target := Utf8.encode real.toString
    if Path.components target ≠ loc then return tree.insert loc (.link target)
    match ← (readBytes name).toBaseIO with
    | .ok content => return tree.insert loc (.file content)
    | .error _ => return tree.insert loc .directory

def lookAlong (cwd : Path) (tree : FileTree) (path : Path) : IO FileTree := do
  let some full := Path.absolute? cwd path | return tree
  let steps := Path.components full
  let mut tree := tree
  for n in List.range steps.length do
    let loc := steps.take (n + 1)
    tree ← lookAt tree loc
    if let some (.link real) := tree.get? loc then
      for m in List.range real.length do
        tree ← lookAt tree ((Path.components real).take (m + 1))
  return tree

def writeLine (line : LogDestination × LogLine) : IO Unit := do
  let text := line.2.text
  match line.1 with
  | .standardError => IO.eprintln text
  | .file loc =>
    if let some name := nameOf loc then
      let handle ← IO.FS.Handle.mk name .append
      handle.putStrLn text

def writeNew (old new : FileTree) : IO Unit := do
  for (loc, node) in new.entries.reverse do
    if (old.get? loc).isNone then
      if let some name := nameOf loc then
        match node with
        | .directory => IO.FS.createDirAll name
        | .file _ => discard (IO.FS.Handle.mk name .append)
        | .link _ => pure ()

def start : IO UInt32 := do
  let arguments := (zeroEnded (← readBytes "/proc/self/cmdline")).drop 1
  let environment := (zeroEnded (← readBytes "/proc/self/environ")).map variableOf
  let cwd := Utf8.encode (← IO.currentDir).toString
  let named := arguments ++ arguments.map (fun a => (a.dropWhile (· ≠ Token.equals)).drop 1) ++
    (environment.lookup (Utf8.encode configVariable)).toList
  let mut files : FileTree := ⟨[]⟩
  for path in cwd :: named do
    files ← lookAlong cwd files path
    files ← lookAlong cwd files (Path.trimEnd path ++ Settings.fileExtension)
  let run := Launch.run
    ⟨arguments, environment, cwd, files, fun _ _ => (DeviceReturn.value (-1) .noTerminal []).answer,
      .unbounded, .asListed⟩
  writeNew files run.log.files
  run.log.lines.forM writeLine
  (← IO.getStdout).write ⟨run.output.toArray⟩
  IO.eprint run.complaint
  return run.exitCode.toUInt32

end MountControl.Main

def main : IO UInt32 :=
  MountControl.Main.start
