import PreviewDeploy.Telemetry

/-!
# The command line

What the words of a command line ask for (`CommandLine.parse`).  An option starts with two
hyphens; its value is the next word, which must not look like an option, or stands after an equals
sign.  After `--` every word is an argument.  The settings file can be given before and after the
name of the command; the later place counts.
-/

namespace PreviewDeploy

/-- Which help is asked for. -/
inductive HelpTopic where
  | program
  | deploy
  | history
  deriving DecidableEq, Repr, Inhabited

/-- Why a command line is not understood. -/
inductive UsageError where
  | noCommand
  | unknownCommand (word : String)
  | unknownOption (name : String)
  | missingValue (option : String)
  | unexpectedValue (option : String)
  | invalidValue (option value : String)
  | repeatedOption (option : String)
  | missingArgument (name : String)
  | unexpectedArgument (word : String)
  deriving DecidableEq, Repr, Inhabited

/-- Why a command line names no command to run. -/
inductive Refusal where
  | help (topic : HelpTopic)
  | usage (error : UsageError)
  deriving DecidableEq, Repr, Inhabited

structure DeployCommand where
  dir : String
  /-- The files to deploy; all if there are none. -/
  files : List String := []
  redeploy : Bool := false
  clearLogs : Bool := false
  message : Option String := none
  /-- Watch the instance afterwards. -/
  watch : Bool := false
  /-- The name under which the state is kept. -/
  project : Option String := none
  deriving DecidableEq, Repr, Inhabited

inductive Command where
  | deploy (d : DeployCommand)
  | history (project : String) (limit : UInt32)
  deriving DecidableEq, Repr, Inhabited

structure CommandLine where
  /-- The settings file. -/
  settings : Option String
  command : Command
  deriving DecidableEq, Repr, Inhabited

namespace CommandLine

/-- One thing that a command line says. -/
inductive Item where
  | argument (word : String)
  | flag (name : String)
  | value (name value : String)
  deriving DecidableEq, Repr, Inhabited

/-- A word that stands where an option may stand, and is one. -/
def looksLikeOption (word : String) : Bool :=
  match word.toList with
  | '-' :: _ :: _ => true
  | _ => false

/-- The name of an option and the value after its equals sign. -/
def splitOption (word : String) : String × Option String :=
  let cs := word.toList.drop 2
  let name := String.ofList (cs.takeWhile (· ≠ '='))
  match cs.dropWhile (· ≠ '=') with
  | [] => (name, none)
  | _ :: value => (name, some (String.ofList value))

/-- Which options there are, and the help on them. -/
structure Grammar where
  topic : HelpTopic
  valued : List String
  flags : List String

/-- Reads one option, and says what is left of the words after it. -/
def readOption (g : Grammar) (word : String) (rest : List String) :
    Except Refusal (Item × List String) :=
  let (name, value) := splitOption word
  if word = "-h" then .error (.help g.topic)
  else if !"--".isPrefixOf word then .error (.usage (.unknownOption word))
  else if g.valued.contains name then
    match value, rest with
    | some v, _ => .ok (.value name v, rest)
    | none, v :: rest =>
      if looksLikeOption v then .error (.usage (.missingValue name))
      else .ok (.value name v, rest)
    | none, [] => .error (.usage (.missingValue name))
  else if g.flags.contains name || name = "help" then
    if value.isSome then .error (.usage (.unexpectedValue name))
    else if name = "help" then .error (.help g.topic)
    else .ok (.flag name, rest)
  else .error (.usage (.unknownOption name))

/-- What the words after the name of a command say, in at most `fuel` items. -/
def itemsFor (g : Grammar) : Nat → List String → Except Refusal (List Item)
  | 0, _ | _, [] => .ok []
  | fuel + 1, word :: rest =>
    if word = "--" then .ok (rest.map .argument)
    else if looksLikeOption word then do
      let (item, rest) ← readOption g word rest
      let items ← itemsFor g fuel rest
      pure (item :: items)
    else do
      let items ← itemsFor g fuel rest
      pure (.argument word :: items)

/-- What the words after the name of a command say. -/
def items (g : Grammar) (words : List String) : Except Refusal (List Item) :=
  itemsFor g words.length words

def valuesOf (name : String) (items : List Item) : List String :=
  items.filterMap fun
    | .value n v => if n = name then some v else none
    | _ => none

/-- The value of an option that may be given once. -/
def single (name : String) (items : List Item) : Except Refusal (Option String) :=
  match valuesOf name items with
  | [] => .ok none
  | [v] => .ok (some v)
  | _ => .error (.usage (.repeatedOption name))

/-- A flag that may be given once. -/
def flag (name : String) (items : List Item) : Except Refusal Bool :=
  match items.count (.flag name) with
  | 0 => .ok false
  | 1 => .ok true
  | _ => .error (.usage (.repeatedOption name))

/-- The only argument. -/
def argument (name : String) (items : List Item) : Except Refusal String :=
  match items.filterMap fun | .argument word => some word | _ => none with
  | [] => .error (.usage (.missingArgument name))
  | [word] => .ok word
  | _ :: word :: _ => .error (.usage (.unexpectedArgument word))

/-- The name of a file, which is not empty. -/
def pathValue (name value : String) : Except Refusal String :=
  if value.isEmpty then .error (.usage (.invalidValue name value)) else .ok value

/-- The settings file that is given among the items, or the one given before. -/
def settingsOf (before : Option String) (items : List Item) : Except Refusal (Option String) :=
  do
    match ← single "settings" items with
    | some path => return some (← pathValue "settings" path)
    | none => return before

def deployGrammar : Grammar :=
  ⟨.deploy, ["settings", "file", "message", "project"], ["redeploy", "clear-logs", "watch"]⟩

def historyGrammar : Grammar := ⟨.history, ["settings", "limit"], []⟩

def programGrammar : Grammar := ⟨.program, ["settings"], []⟩

def deployCommand (settings : Option String) (words : List String) :
    Except Refusal CommandLine := do
  let items ← items deployGrammar words
  let settings ← settingsOf settings items
  let message ← single "message" items
  let project ← single "project" items
  let redeploy ← flag "redeploy" items
  let clearLogs ← flag "clear-logs" items
  let watch ← flag "watch" items
  let dir ← pathValue "dir" (← argument "dir" items)
  let files := valuesOf "file" items
  pure ⟨settings, .deploy { dir, files, redeploy, clearLogs, message, watch, project }⟩

/-- How many deployments are shown unless the command line says otherwise. -/
def standardLimit : UInt32 := 10

/-- A limit: a decimal number of 32 bits. -/
def limitValue (text : String) : Except Refusal UInt32 :=
  match readUnsigned? UInt32.size text.toList with
  | some n => .ok (UInt32.ofNat n)
  | none => .error (.usage (.invalidValue "limit" text))

def historyCommand (settings : Option String) (words : List String) :
    Except Refusal CommandLine := do
  let items ← items historyGrammar words
  let settings ← settingsOf settings items
  let limit ← match ← single "limit" items with
    | some text => limitValue text
    | none => pure standardLimit
  let project ← argument "project" items
  pure ⟨settings, .history project limit⟩

/-- Which help the word after `help` asks for. -/
def helpOn : List String → Refusal
  | "deploy" :: _ => .help .deploy
  | "history" :: _ => .help .history
  | [] | "help" :: _ => .help .program
  | word :: _ => .usage (.unknownCommand word)

/-- Reads the words up to the name of a command, in at most `fuel` steps. -/
def parseFrom (settings : Option String) : Nat → List String → Except Refusal CommandLine
  | 0, _ | _, [] => .error (.usage .noCommand)
  | fuel + 1, word :: rest =>
    if looksLikeOption word then do
      let (item, rest) ← readOption programGrammar word rest
      if settings.isSome then .error (.usage (.repeatedOption "settings"))
      else parseFrom (← settingsOf settings [item]) fuel rest
    else
      match word with
      | "deploy" => deployCommand settings rest
      | "history" => historyCommand settings rest
      | "help" => .error (helpOn rest)
      | _ => .error (.usage (.unknownCommand word))

/-- What the words of a command line ask for. -/
def parse (words : List String) : Except Refusal CommandLine :=
  parseFrom none (words.length + 1) words

end CommandLine

end PreviewDeploy
