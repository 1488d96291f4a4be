import PreviewDeploy.CommandLine

/-!
# Help on the command line

The text that is printed when help is asked for.
-/

namespace PreviewDeploy

/-- An option and what it is for, in two columns. -/
def helpLine (option purpose : String) : String :=
  "  " ++ option ++ String.ofList (List.replicate (27 - option.length) ' ') ++ purpose

def settingsHelp : String :=
  helpLine "    --settings <SETTINGS>" "Settings file (defaults to `~/.shipyard/settings.json`)"

def helpHelp : String := helpLine "-h, --help" "Print help"

/-- The lines of a help text. -/
def HelpTopic.lines : HelpTopic → List String
  | program =>
    ["Deploy generated apps to sandbox preview instances", "",
      "Usage: shipyard [OPTIONS] <COMMAND>", "", "Commands:",
      "  deploy   Deploy a project directory and print the outcome as JSON",
      "  history  Show recent deployments for a project",
      "  help     Print this message or the help of the given subcommand(s)", "", "Options:",
      settingsHelp, helpHelp]
  | deploy =>
    ["Deploy a project directory and print the outcome as JSON", "",
      "Usage: shipyard deploy [OPTIONS] <DIR>", "", "Arguments:", "  <DIR>  ", "", "Options:",
      helpLine "    --file <FILES>"
        "Deploy only these files (relative paths). Defaults to everything",
      settingsHelp,
      helpLine "    --redeploy" "Provision a new instance even if the current one is healthy",
      helpLine "    --clear-logs" "Clear instance logs and runtime errors after writing",
      helpLine "    --message <MESSAGE>" "Commit message recorded with the write",
      helpLine "    --watch" "Keep monitoring the instance until Ctrl-C",
      helpLine "    --project <PROJECT>"
        "Key for persisted state (defaults to the directory name)",
      helpHelp]
  | history =>
    ["Show recent deployments for a project", "", "Usage: shipyard history [OPTIONS] <PROJECT>",
      "", "Arguments:", "  <PROJECT>  ", "", "Options:",
      helpLine "    --limit <LIMIT>" "[default: 10]", settingsHelp, helpHelp]

def HelpTopic.text (t : HelpTopic) : String := "\n".intercalate t.lines ++ "\n"

/-- What is said of a command line that is not understood. -/
def UsageError.message : UsageError → String
  | noCommand => "error: a command is required"
  | unknownCommand word => "error: unrecognized subcommand '" ++ word ++ "'"
  | unknownOption name => "error: unexpected argument '" ++ name ++ "' found"
  | missingValue option => "error: a value is required for '--" ++ option ++ "'"
  | unexpectedValue option => "error: unexpected value for '--" ++ option ++ "' found"
  | invalidValue option value =>
    "error: invalid value '" ++ value ++ "' for '" ++ option ++ "'"
  | repeatedOption option =>
    "error: the argument '--" ++ option ++ "' cannot be used multiple times"
  | missingArgument name => "error: the argument <" ++ name ++ "> was not provided"
  | unexpectedArgument word => "error: unexpected argument '" ++ word ++ "' found"

end PreviewDeploy
