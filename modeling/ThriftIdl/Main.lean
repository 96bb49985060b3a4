import ThriftIdl.Command.Result

/-!
# The command line program

The program around the command: it takes the arguments and the filter text from its caller, reads
the file, writes the two texts and ends with the exit code.
-/

namespace ThriftIdl.Command

/-- Why the system could not read a file. -/
def FileError.ofSystem : IO.Error → FileError
  | .noFileOrDirectory .. => .missing
  | .inappropriateType _ code _ => if code = 21 then .isDirectory else .notDirectory
  | .permissionDenied .. => .denied
  | error => .other (toString error)

/-- The content of a file, or why it is not available. -/
def readContent (file : String) : IO (Except FileError ByteArray) := do
  try
    return .ok (← IO.FS.readBinFile file)
  catch error =>
    return .error (.ofSystem error)

/-- The environment variable that holds the filter text. -/
def filterVariable : String := "RUST_LOG"

end ThriftIdl.Command

open ThriftIdl.Command in
/-- Run the command on the arguments of the program. -/
def main (arguments : List String) : IO UInt32 := do
  let request := Request.ofCommandLine arguments
  let filterText ← IO.getEnv filterVariable
  let content ←
    match request with
    | .run invocation => readContent invocation.file
    | _ => pure (.error .missing)
  let result := request.result filterText fun _ => content
  (← IO.getStdout).putStr result.out
  (← IO.getStderr).putStr result.err
  return result.code.toUInt32
