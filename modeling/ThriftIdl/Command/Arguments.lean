/-!
# The arguments of the command

The command is called with options, one of three actions, and a file. Options may stand before and
after the action, each at most once on either side; the word after `--` is a file whatever it looks
like. Help can be asked for instead, on either side of the action or by the word `help` in its
place.
-/

namespace ThriftIdl.Command

/-- In which form results and errors are written. -/
inductive Format
  | text
  | json
deriving DecidableEq

/-- The form with a name. -/
def Format.ofWord? : String → Option Format
  | "text" => some text
  | "json" => some json
  | _ => none

/-- What is done with a file. -/
inductive Action
  /-- Write the document of the file. -/
  | parse
  /-- Say whether the file can be read. -/
  | check
  /-- List the files that the file includes. -/
  | includes
deriving DecidableEq

/-- The action with a name. -/
def Action.ofWord? : String → Option Action
  | "parse" => some parse
  | "check" => some check
  | "includes" => some includes
  | _ => none

/-- The options on one side of the action. -/
structure Flags where
  output : Option Format := none
  /-- Errors and summaries are not written as text. -/
  quiet : Bool := false
  /-- What the reading reports is written. -/
  verbose : Bool := false
  /-- Fields with the same number are kept. -/
  keepDuplicates : Bool := false
deriving DecidableEq

/-- What the command is asked to do with a file. -/
structure Invocation where
  action : Action
  file : String
  output : Format
  quiet : Bool
  verbose : Bool
  keepDuplicates : Bool
deriving DecidableEq

/-- What help is asked about. -/
inductive HelpTopic
  | command
  | action (action : Action)
  /-- The word that asks for help. -/
  | help
deriving DecidableEq

/-- The word in the place of an action that asks for help. -/
def helpWord : String := "help"

/-- The topic with a name. -/
def HelpTopic.ofWord? (text : String) : Option HelpTopic :=
  if text = helpWord then some help else (Action.ofWord? text).map action

/-- What the arguments of the command ask for. -/
inductive Request
  /-- The name and the version of the command. -/
  | version
  | help (topic : HelpTopic)
  /-- Nothing that the command can do. -/
  | misuse
  | run (invocation : Invocation)
deriving DecidableEq

/-- One argument, or an option with its value. -/
inductive Argument
  | output (value : String)
  | quiet
  | verbose
  | allowDuplicateIds
  | version
  | help
  /-- The mark after which there are no options. -/
  | endOfOptions
  | unknown
  | word (text : String)
deriving DecidableEq

namespace Argument

/-- The value of an option that is written with an equals sign. -/
def valueOf? (option : String) (text : String) : Option String :=
  let start := option.toList ++ ['=']
  if start.isPrefixOf text.toList then some (String.ofList (text.toList.drop start.length))
  else none

/-- An argument that is complete in itself. A hyphen alone is a word. -/
def ofText (text : String) : Argument :=
  match text with
  | "--quiet" => quiet
  | "--verbose" => verbose
  | "--allow-duplicate-ids" => allowDuplicateIds
  | "--version" => version
  | "--help" => help
  | "-" => word text
  | _ =>
    match valueOf? "--output" text with
    | some value => output value
    | none =>
      match text.toList with
      | '-' :: 'V' :: _ => version
      | '-' :: 'h' :: _ => help
      | '-' :: _ => unknown
      | _ => word text

/-- The arguments of a command line. -/
def list : List String → List Argument
  | [] => []
  | ["--output"] => [unknown]
  | "--output" :: value :: rest => output value :: list rest
  | "--" :: rest => endOfOptions :: rest.map word
  | text :: rest => ofText text :: list rest

end Argument

/-- Take note of an option. An option that comes again on the same side, or whose value has no
meaning, is a misuse, and so is what is no option. -/
def Flags.add? (flags : Flags) : Argument → Option Flags
  | .output value =>
    match flags.output, Format.ofWord? value with
    | none, some format => some { flags with output := some format }
    | _, _ => none
  | .quiet => if flags.quiet then none else some { flags with quiet := true }
  | .verbose => if flags.verbose then none else some { flags with verbose := true }
  | .allowDuplicateIds =>
    if flags.keepDuplicates then none else some { flags with keepDuplicates := true }
  | _ => none

/-- The invocation of an action with the options before and after it. An output form after the
action replaces one before it; without any, output is text. -/
def Invocation.ofFlags (action : Action) (file : String) (before after : Flags) : Invocation where
  action := action
  file := file
  output := (after.output <|> before.output).getD .text
  quiet := before.quiet || after.quiet
  verbose := before.verbose || after.verbose
  keepDuplicates := before.keepDuplicates || after.keepDuplicates

/-- The request of the arguments after the action, given the options and the file so far. There has
to be exactly one file, and its name must not be empty. Help is given wherever it is asked for, if
nothing before it was a misuse. -/
def Request.ofTail (action : Action) (before after : Flags) (file : Option String) :
    List Argument → Request
  | [] =>
    match file with
    | some file => .run (.ofFlags action file before after)
    | none => .misuse
  | .word text :: rest =>
    if file.isSome || text.isEmpty then .misuse
    else Request.ofTail action before after (some text) rest
  | .help :: _ => .help (.action action)
  | .endOfOptions :: rest => Request.ofTail action before after file rest
  | option :: rest =>
    match after.add? option with
    | some flags => Request.ofTail action before flags file rest
    | none => .misuse

/-- The request of the arguments after the word that asks for help: at most one topic. -/
def Request.ofHelp : List Argument → Request
  | [] => .help .command
  | [.word text] =>
    match HelpTopic.ofWord? text with
    | some topic => .help topic
    | none => .misuse
  | _ => .misuse

/-- The request of all arguments, given the options so far. -/
def Request.ofArguments (flags : Flags) : List Argument → Request
  | [] => .misuse
  | .version :: _ => .version
  | .help :: _ => .help .command
  | .word text :: rest =>
    if text = helpWord then Request.ofHelp rest
    else
      match Action.ofWord? text with
      | some action => Request.ofTail action flags {} none rest
      | none => .misuse
  | option :: rest =>
    match flags.add? option with
    | some flags => Request.ofArguments flags rest
    | none => .misuse

/-- The request of a command line. -/
def Request.ofCommandLine (arguments : List String) : Request :=
  Request.ofArguments {} (Argument.list arguments)

end ThriftIdl.Command
