import PortableQuery.CommandLine.Run

/-!
# Program

Reads what a command may need, runs it and writes its answer.
-/

namespace PortableQuery.CommandLine

def textOf (bytes : ByteArray) : Except FileFault String :=
  match String.fromUTF8? bytes with
  | some text => .ok text
  | none => .error .notText

def faultOf : IO.Error → FileFault
  | .inappropriateType _ code _ => if code = 21 then .isDirectory else .notDirectory
  | .invalidArgument .. => .nameTooLong
  | .permissionDenied .. => .denied
  | _ => .missing

def readText (path : String) : IO (Except FileFault String) :=
  tryCatch (textOf <$> IO.FS.readBinFile path) fun cause => pure (.error (faultOf cause))

/-- The directory of the user's configuration files. -/
def configDirectory : IO (Option String) := do
  let home := (← IO.getEnv "HOME").map (· ++ "/.config")
  match ← IO.getEnv "XDG_CONFIG_HOME" with
  | some path => pure (if path.startsWith "/" then some path else home)
  | none => pure home

end PortableQuery.CommandLine

open PortableQuery PortableQuery.CommandLine in
/-- Runs the command that the arguments name. -/
def main (args : List String) : IO UInt32 := do
  let request := parse (← IO.getEnv "QIR_CONFIG") args
  let userConfig := (← configDirectory).map (· ++ "/qir/config.toml")
  let files ← (filesOf userConfig request).mapM fun path => return (path, ← readText path)
  let standardInput ←
    if readsStandardInput request then textOf <$> (← IO.getStdin).readBinToEnd else pure (.ok "")
  let read (path : String) := (files.lookup path).getD (.error .missing)
  let outcome := run { read, standardInput, userConfig } request
  IO.print outcome.output
  unless outcome.errors.isEmpty do
    IO.eprintln outcome.errors
  return outcome.code.toUInt32
