import ThriftIdl.Command.Arguments

/-!
# What the command says about itself

The help of the command and of each action, and the lines that go with a misuse. Names and their
explanations stand in two columns.
-/

namespace ThriftIdl.Command

/-- The name of the command. -/
def commandName : String := "thrift-ast"

/-- The name of the command with its version. -/
def versionText : String := commandName ++ " 0.1.0"

/-- The name of an action. -/
def Action.word : Action → String
  | parse => "parse"
  | check => "check"
  | includes => "includes"

/-- Every action is found by its name. -/
theorem Action.ofWord?_word (action : Action) : ofWord? action.word = some action := by
  cases action <;> rfl

/-- The name of a topic as it stands in the arguments. -/
def HelpTopic.words : HelpTopic → List String
  | command => []
  | action act => [act.word]
  | help => [helpWord]

/-- What a topic is about. -/
def HelpTopic.explanation : HelpTopic → String
  | command => "Thrift IDL to AST parser"
  | action .parse => "Parse a .thrift file and print its AST as JSON"
  | action .check => "Check that a .thrift file parses"
  | action .includes => "List the includes of a .thrift file with their module names"
  | help => "Print this message or the help of the given subcommand(s)"

/-- The arguments that go with a topic. -/
def HelpTopic.pattern : HelpTopic → String
  | command => "[OPTIONS] <COMMAND>"
  | action _ => "[OPTIONS] <FILE>"
  | help => "[COMMAND]..."

/-- How the command is called for a topic. -/
def HelpTopic.usage (topic : HelpTopic) : String :=
  "Usage: " ++ " ".intercalate (commandName :: topic.words ++ [topic.pattern])

/-- The options that may stand on either side of the action, with their explanations. -/
def optionRows : List (String × String) :=
  [("    --output <OUTPUT>",
      "Output format (text or json) [default: text] [possible values: text, json]"),
    ("    --quiet", "Suppress non-essential output"),
    ("    --verbose", "Log parser progress to stderr (overrides RUST_LOG)"),
    ("    --allow-duplicate-ids", "Accept struct-like blocks that repeat a field id"),
    ("-h, --help", "Print help")]

/-- The words that may stand in the place of the action, with their explanations. -/
def actionRows : List (String × String) :=
  [.action .parse, .action .check, .action .includes, .help].map fun topic : HelpTopic =>
    (" ".intercalate topic.words, topic.explanation)

/-- The tables of a topic with their titles. -/
def HelpTopic.tables : HelpTopic → List (String × List (String × String))
  | command =>
    [("Commands:", actionRows), ("Options:", optionRows ++ [("-V, --version", "Print version")])]
  | action _ =>
    [("Arguments:", [("<FILE>", "Path to the .thrift source file")]), ("Options:", optionRows)]
  | help => [("Arguments:", [("[COMMAND]...", "Print help for the subcommand(s)")])]

/-- Names and explanations in two columns. -/
def columns (rows : List (String × String)) : List String :=
  let width := (rows.map fun (name, _) => name.length).foldr max 0
  rows.map fun (name, explanation) =>
    "  " ++ name ++ String.ofList (List.replicate (width - name.length) ' ') ++ "  " ++ explanation

/-- The help on a topic. -/
def HelpTopic.text (topic : HelpTopic) : String :=
  let tables := topic.tables.flatMap fun (title, rows) => "" :: title :: columns rows
  "\n".intercalate (topic.explanation :: "" :: topic.usage :: tables)

/-- What is said of a misuse: how the command is called, and where to learn more. -/
def misuseText : String :=
  "\n".intercalate [HelpTopic.command.usage, "", "For more information, try '--help'."]

end ThriftIdl.Command
