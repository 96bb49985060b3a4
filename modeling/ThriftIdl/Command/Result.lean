import ThriftIdl.Command.Help
import ThriftIdl.Interchange
import ThriftIdl.Log.Filter

/-!
# What the command does

Given what it is asked for and the content of the file, or why there is none, the command has an
exit code and writes two texts. Reading files and writing texts is left to the program around it.
-/

namespace ThriftIdl.Command

/-- Why the content of a file is not available. -/
inductive FileError
  | missing
  | isDirectory
  | notDirectory
  | denied
  | notText
  /-- Any other reason, in the words of the system. -/
  | other (reason : String)
deriving DecidableEq

/-- A file error in words. -/
def FileError.text : FileError → String
  | missing => "No such file or directory (os error 2)"
  | isDirectory => "Is a directory (os error 21)"
  | notDirectory => "Not a directory (os error 20)"
  | denied => "Permission denied (os error 13)"
  | notText => "stream did not contain valid UTF-8"
  | other reason => reason

/-- What the command leaves behind: its exit code and the texts that it writes. -/
structure Result where
  code : Nat
  /-- The text on standard output. -/
  out : String := ""
  /-- The text on standard error. -/
  err : String := ""
deriving DecidableEq

/-- A text with the end of its last line. -/
def withNewline (text : String) : String :=
  text ++ "\n"

/-- The first line of a text. A carriage return before a line feed belongs to the line break. -/
def firstLine (text : String) : String :=
  let chars := text.toList
  let line := chars.takeWhile (· != '\n')
  String.ofList <|
    if chars.contains '\n' && line.getLast? = some '\r' then line.dropLast else line

/-- The filter of an invocation: debugging when it is verbose, else what the caller's filter text
says; without one, or if it is malformed, only warnings. -/
def Invocation.filter (invocation : Invocation) (filterText : Option String) : Log.Filter :=
  if invocation.verbose then .upTo .debug
  else ((filterText.bind Log.Filter.ofText?).getD (.upTo .warn))

/-- The options with which the file of an invocation is read. -/
def Invocation.options (invocation : Invocation) : Options where
  duplicates := if invocation.keepDuplicates then .keep else .reject

/-- The event that tells which file is read. -/
def fileEvent (file : String) : Log.Event where
  level := .debug
  topic := "thrift_ast"
  message := "parsing"
  fields := [("file", .plain file)]

/-- The lines of the events that a filter admits. -/
def logText (filter : Log.Filter) (events : List Log.Event) : String :=
  String.join ((events.filter filter.admits).map fun event => withNewline event.line)

/-- The report of a file that is not available. -/
def Invocation.fileReport (invocation : Invocation) (error : FileError) : String :=
  let message := "error reading file '" ++ invocation.file ++ "': " ++ error.text
  match invocation.output with
  | .json => withNewline (Json.obj [("error", .str message)]).text
  | .text => if invocation.quiet then "" else withNewline message

/-- The report of a file that cannot be read to its end. -/
def Invocation.errorReport (invocation : Invocation) (error : SyntaxError) : String :=
  match invocation.output with
  | .json => withNewline error.json.pretty
  | .text =>
    if invocation.quiet then ""
    else
      withNewline (invocation.file ++ ":" ++ error.lineText ++ ": " ++ error.message) ++
        withNewline ("  | " ++ firstLine error.context)

/-- An include in the list of includes. -/
def includeJson (entry : Include) : Json :=
  .obj [("module", .str entry.moduleName), ("path", .str entry.path)]

/-- What is written about a document. -/
def Invocation.answer (invocation : Invocation) (document : Document) : String :=
  match invocation.action with
  | .parse => withNewline document.json.pretty
  | .check =>
    match invocation.output with
    | .json =>
      withNewline (Json.obj [("ok", .bool true), ("declarations", .int document.size)]).text
    | .text =>
      if invocation.quiet then ""
      else
        withNewline
          ("ok: " ++ String.ofList (Number.decimalDigits document.size) ++ " declarations")
  | .includes =>
    match invocation.output with
    | .json => withNewline (Json.arr (document.includes.map includeJson)).pretty
    | .text =>
      String.join (document.includes.map fun entry =>
        withNewline (entry.moduleName ++ "\t" ++ entry.path))

/-- What the command does with the text of its file. -/
def Invocation.resultOn (invocation : Invocation) (filterText : Option String) (source : String) :
    Result :=
  let reading := Reading.ofSource invocation.options source
  let log := logText (invocation.filter filterText)
    (fileEvent invocation.file :: Log.eventsOf source reading)
  match reading.document with
  | .ok document => { code := 0, out := invocation.answer document, err := log }
  | .error error => { code := 1, err := log ++ invocation.errorReport error }

/-- What the command does with its file. -/
def Invocation.result (invocation : Invocation) (filterText : Option String)
    (content : Except FileError ByteArray) : Result :=
  let source := content.bind fun bytes =>
    match String.fromUTF8? bytes with
    | some source => .ok source
    | none => .error .notText
  match source with
  | .ok source => invocation.resultOn filterText source
  | .error error => { code := 1, err := invocation.fileReport error }

/-- What the command does, given the content of the file that it asks for. -/
def Request.result (request : Request) (filterText : Option String)
    (content : Invocation → Except FileError ByteArray) : Result :=
  match request with
  | .version => { code := 0, out := withNewline versionText }
  | .help topic => { code := 0, out := withNewline topic.text }
  | .misuse => { code := 2, err := withNewline misuseText }
  | .run invocation => invocation.result filterText (content invocation)

end ThriftIdl.Command
