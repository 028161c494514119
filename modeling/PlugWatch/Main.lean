import PlugWatch.Program

/-! # The executable

  Takes the arguments, the environment and the files that the program may read from the machine,
  runs the program, and hands back what it printed and saved. No USB layer is linked in, so the bus
  is empty and reports nothing.
-/

namespace PlugWatch

/-- Copies a file of the machine into a tree, if it can be read. -/
def copyIn (t : FileTree) (path : String) : IO FileTree := do
  try
    return t.place path (← IO.FS.readBinFile path)
  catch _ =>
    return t

/-- The environment on this machine. -/
def machineEnvironment : IO Environment := do
  return { home := (← IO.getEnv "HOME").getD "/"
           configHome := ← IO.getEnv "XDG_CONFIG_HOME"
           logFilter := ← IO.getEnv "PLUGWATCH_LOG" }

/-- The files that the program may read. -/
def machineFiles (env : Environment) (arguments : List String) : IO FileTree := do
  let working := (← IO.currentDir).toString
  let t := (({} : FileTree).makeDirectories working).2
  let t := { t with working := (t.locate working).toOption.getD [] }
  let asked := ((CommandLine.parse arguments).toOption.bind (·.config)).toList
  (asked.map (Path.expandHome env.home) ++ [Config.userPath env, Config.systemPath]).foldlM copyIn t

/-- Writes the user's configuration back if it changed. -/
def copyOut (env : Environment) (before after : FileTree) : IO Unit := do
  let path := Config.userPath env
  match after.read path with
  | .error _ => return ()
  | .ok content =>
    unless (before.read path).toOption == some content do
      if let some directory := Path.parent? path then IO.FS.createDirAll directory
      IO.FS.writeBinFile path content

end PlugWatch

open PlugWatch in
/-- Runs the program on this machine. -/
def main (arguments : List String) : IO UInt32 := do
  let env ← machineEnvironment
  let files ← machineFiles env arguments
  let outcome := Program.run { environment := env, files, bus := {} } arguments
  copyOut env files outcome.files
  IO.print (outcome.output "")
  if let some report := outcome.report then
    IO.eprintln s!"Error: {report.message}"
  return UInt32.ofNat outcome.code
