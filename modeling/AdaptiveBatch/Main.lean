import AdaptiveBatch.CommandLine.Output

/-! # The program

Reads the files that its arguments name and carries the command out. -/

open AdaptiveBatch

/-- Why a file cannot be read, from the error of the system. -/
def readError : IO.Error → ReadError
  | .noFileOrDirectory .. => .missing
  | .permissionDenied .. => .denied
  | .inappropriateType _ code _ => if code = 20 then .notDirectory else .isDirectory
  | .invalidArgument _ code reason => if code = 36 then .nameTooLong else .other reason
  | e => .other (toString e)

/-- The content of a file, or why it cannot be read. -/
def readContent (path : String) : IO (Except ReadError String) := do
  try
    return (String.fromUTF8? (← IO.FS.readBinFile path)).elim (.error .notText) .ok
  catch e => return .error (readError e)

/-- The files a command names, with their contents. -/
def readAll (paths : List String) : IO FileReader := do
  let contents ← paths.mapM fun path => do return (path, ← readContent path)
  return fun path => (contents.lookup path).getD (.error .missing)

/-- Carries out the command that the arguments name. -/
def main (arguments : List String) : IO UInt32 := do
  let paths := match Command.parse arguments with
    | .ok c => c.paths
    | .error _ => []
  let output := Output.ofArguments (← readAll paths) arguments
  (← IO.getStdout).putStr output.text
  if let some message := output.error then (← IO.getStderr).putStrLn s!"Error: {message}"
  if output.code = 2 then (← IO.getStderr).putStr Output.usage
  return output.code.toUInt32
