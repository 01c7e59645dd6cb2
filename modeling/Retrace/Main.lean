import Retrace.Command.Result
/-!
The program: it reads the file and the environment, and prints what the command leaves. It starts no
other programs, so that it traces a file only without running it.
-/
namespace Retrace

/-- What a run finds where no compiler can be started. -/
def Host.withoutCompiler : Host where
  parent := .ok []
  path := ""
  name := Workspace.namePrefix
  hindrance _ := none
  launch _ f := (.unstarted .notFound, f)
  compile _ _ := .error .notFound

def FileError.ofError : IO.Error → FileError
  | .noFileOrDirectory .. => .notFound
  | .inappropriateType _ code _ => if code = 21 then .isFolder else .notFolder
  | .invalidArgument .. => .nameTooLong
  | e => .other (toString e)

def readFile (path : String) : IO (Except FileError String) := do
  match ← (IO.FS.readBinFile path).toBaseIO with
  | .ok bytes =>
    return match Text.text? bytes.toList with
      | some cs => .ok (String.ofList cs)
      | none => .error .noText
  | .error e => return .error (.ofError e)

/-- The options of a run that the environment asks for. -/
def readOptions : IO RunOptions := do
  let found ← RunOptions.variableNames.mapM fun name => return (name, ← IO.getEnv name)
  return .ofLookup fun name => (found.lookup name).join

end Retrace

/-- Runs the command that the arguments give. -/
def main (args : List String) : IO UInt32 := do
  let text ← match (Retrace.Command.read? args).bind Retrace.Command.file? with
    | some file => Retrace.readFile file
    | none => pure (.error .notFound)
  let options ← Retrace.readOptions
  let result := Retrace.Command.runArguments .withoutCompiler options (fun _ => text) args
  (← IO.getStdout).putStr result.stdout
  (← IO.getStderr).putStr result.stderr
  return result.code.toUInt32
