import Courier.CommandLine

/-!
# The program

Gives the command line what it needs of its surroundings, and writes what comes
of it.
-/

open Courier

namespace Main

def environment : IO (List (String × String)) := do
  let names := CommandLine.filterVariable :: Config.Setting.all.map Config.Setting.environmentName
  let found ← names.mapM fun name => do
    return (← IO.getEnv name).map fun value => (name, value)
  return found.filterMap id

def reasonOf : IO.Error → String
  | .noFileOrDirectory _ _ _ => "No such file or directory (os error 2)"
  | .permissionDenied _ _ _ => "Permission denied (os error 13)"
  | .inappropriateType _ _ _ => "Is a directory (os error 21)"
  | e => toString e

def readFile (path : String) : IO (Except String Text.Bytes) := do
  try
    return .ok (← IO.FS.readBinFile path).toList
  catch e => return .error (reasonOf e)

def fileOf : CommandLine.Request → IO Config.Files
  | .serve o =>
    match o.configFile with
    | some path => do
      let content ← readFile path
      return fun _ => content
    | none => return fun path => .error path
  | _ => return fun path => .error path

def openLog (f : Config.LogFile) : IO Bool := do
  try
    match f.directories.getLast? with
    | some above => IO.FS.createDirAll above
    | none => pure ()
    let _ ← IO.FS.Handle.mk f.path .append
    return true
  catch _ => return false

def run (args : List String) : IO UInt32 := do
  let environment ← environment
  let files ← fileOf (CommandLine.requestOf args environment)
  let ending := CommandLine.run { files, environment } args
  let opened ← (ending.logFile.map openLog).getD (pure true)
  if !opened then return UInt32.ofNat CommandLine.crashCode
  (← IO.getStdout).putStr ending.output
  match ending.error with
  | some e => (← IO.getStderr).putStrLn ("Error: " ++ e.message)
  | none => pure ()
  return UInt32.ofNat ending.exitCode

end Main

def main (args : List String) : IO UInt32 := Main.run args
