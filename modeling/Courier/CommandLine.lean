import Courier.Config.Load
import Courier.Config.LogFile
import Courier.Config.LogFilter

/-!
# The command line

One command runs the service. What it comes to is told by the exit code and by
what is written.
-/

namespace Courier

open Config (Overrides Files UsageError)

namespace CommandLine

def programName : String := "imp-providers-service"

def version : String := "0.1.0"

def versionText : String := programName ++ " " ++ version ++ "\n"

def serverNames : List String := ["server", "s"]

def helpText : String :=
  let optionLine (s : Config.Setting) :=
    "  --" ++ s.option ++ " [env: " ++ s.environmentName ++ "]\n"
  "Usage: " ++ programName ++ " server [OPTIONS]\n\nOptions:\n" ++
    String.join (Config.Setting.all.map optionLine)

inductive Request where
  | help
  | version
  | misuse
  | serve (o : Overrides)
deriving Repr, Inhabited

def requestOfLetter (c : Char) : Request :=
  if c = 'h' then .help else if c = 'V' then .version else .misuse

def requestOfHelp (names : List String) : Request :=
  match names with
  | [] => .help
  | [name] => if name = "help" ∨ name ∈ serverNames then .help else .misuse
  | _ => .misuse

def requestOf (args : List String) (env : List (String × String)) : Request :=
  match args with
  | [] => .misuse
  | first :: rest =>
    match Overrides.Argument.ofString first with
    | .long "help" none => .help
    | .long "version" none => .version
    | .short letter => requestOfLetter letter
    | .word name =>
      if name ∈ serverNames then
        match Overrides.ofArguments rest env with
        | .ok o => .serve o
        | .error .helpAsked => .help
        | .error _ => .misuse
      else if name = "help" then requestOfHelp rest
      else .misuse
    | _ => .misuse

inductive StartError where
  | config (e : Config.Error)
  | logLevel (level : String)
  | logFile (path : String)
  | broker (url : String)
deriving DecidableEq, Repr

def StartError.message : StartError → String
  | .config e => e.message
  | .logLevel level => "invalid log level `" ++ level ++ "`"
  | .logFile path => "log file `" ++ path ++ "` has no file name"
  | .broker url => "connecting to " ++ url

def filterVariable : String := "RUST_LOG"

inductive Stop where
  | error (e : StartError)
  | crash
deriving DecidableEq, Repr

structure Surroundings where
  files : Files
  environment : List (String × String)
  entries : Config.Entries := fun _ => none

/-- Reads the filter of the log: that of the environment, or else the configured one. -/
def readFilter (environment : List (String × String)) (level : String) : Except Stop Unit :=
  let configured : Except Stop Unit :=
    match Config.LogFilter.read level with
    | .ok () => .ok ()
    | .error .malformed => .error (.error (.logLevel level))
    | .error .torn => .error .crash
  match (environment.lookup filterVariable).map Config.LogFilter.read with
  | none | some (.error .malformed) => configured
  | some (.ok ()) => .ok ()
  | some (.error .torn) => .error .crash

def logFileOf (entries : Config.Entries) (c : Config) : Except Stop (Option Config.LogFile) :=
  match c.log.file with
  | none => .ok none
  | some path =>
    match Config.LogFile.ofPath? path with
    | none => .error (.error (.logFile path))
    | some file => if file.canOpen entries then .ok (some file) else .error .crash

def prepare (s : Surroundings) (o : Overrides) : Except Stop (Config × Option Config.LogFile) := do
  let c ← (Config.load s.files o).mapError fun e => .error (.config e)
  readFilter s.environment c.log.level
  return (c, ← logFileOf s.entries c)

structure Ending where
  exitCode : Nat
  output : String := ""
  error : Option StartError := none
  logFile : Option Config.LogFile := none
deriving Repr

def crashCode : Nat := 101

def run (s : Surroundings) (args : List String) : Ending :=
  match requestOf args s.environment with
  | .help => { exitCode := 0, output := helpText }
  | .version => { exitCode := 0, output := versionText }
  | .misuse => { exitCode := 2 }
  | .serve o =>
    match prepare s o with
    | .error (.error e) => { exitCode := 1, error := some e }
    | .error .crash => { exitCode := crashCode }
    | .ok (c, logFile) =>
      { exitCode := 1, error := some (.broker c.bus.brokerUrl), logFile := logFile }

end CommandLine
end Courier
