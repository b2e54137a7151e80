import FrontEnd.CommandLine.Report

/-!
# The program

Reads the files that the command line names, and leaves everything else to `runCommandLine`.
-/

namespace FrontEnd

/-- The words of the system about a file that cannot be read. -/
def fileErrorOf : IO.Error → FileError
  | .noFileOrDirectory .. => .missing
  | .inappropriateType _ code details => .other (details ++ " (os error " ++ toString code ++ ")")
  | .permissionDenied _ code details => .other (details ++ " (os error " ++ toString code ++ ")")
  | error => .other (toString error)

/-- Read the file under a path. -/
def readPath (path : String) : IO (Except FileError String) := do
  try
    return decodeFile (← IO.FS.readBinFile path)
  catch error =>
    return .error (fileErrorOf error)

/-- Read the files of a command line that makes sense. -/
def readPaths (arguments : List String) : IO (List (String × Except FileError String)) :=
  match Command.ofArguments arguments with
  | .ok command => command.paths.mapM fun path => return (path, ← readPath path)
  | .error _ => return []

end FrontEnd

/-- Run the command line. -/
def main (arguments : List String) : IO UInt32 := do
  let known ← FrontEnd.readPaths arguments
  let report :=
    FrontEnd.runCommandLine (fun path => (known.lookup path).getD (.error .missing)) arguments
  (← IO.getStdout).putStr report.stdout
  (← IO.getStderr).putStr report.stderr
  return report.code.toUInt32
