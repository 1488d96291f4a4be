import PreviewDeploy.CommandLine.Help
import PreviewDeploy.FileTree.Listing
import PreviewDeploy.Json.Reader
import PreviewDeploy.Json.Writer
import PreviewDeploy.Program

/-!
# The command

Runs one command line.  The files of the host are given on standard input, as a listing in one
line of JSON; the control plane cannot be reached from here.
-/

open PreviewDeploy

/-- The variables that the program reads, as they are set. -/
def readEnvironment : IO Environment := do
  let pairs ← Settings.knownVariables.mapM fun name => do return (name, ← IO.getEnv name)
  return fun name => (pairs.lookup name).join

/-- The host that a listing describes. -/
def hostOf (line : String) (home : Option String) (env : Environment) : Host :=
  let tree := ((Json.Tree.parse line).bind (FileTree.ofListing [])).getD default
  { tree, home, env, world := { script := { outage := some (.network "unreachable") } } }

def main (words : List String) : IO UInt32 := do
  let line ← (← IO.getStdin).getLine
  let (ending, _) := Program.run words (hostOf line (← IO.getEnv "HOME") (← readEnvironment))
  match ending with
  | .printed t => IO.println t.prettyText
  | .refused (.help topic) => IO.print topic.text
  | .refused (.usage error) => IO.eprintln error.message
  | .failed error => IO.eprintln ("Error: " ++ error.message)
  return ending.code.toUInt32
