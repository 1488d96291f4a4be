import PreviewDeploy.CommandLine
import PreviewDeploy.Settings.Load
import PreviewDeploy.Simulation
import PreviewDeploy.Workspace

/-!
# The program

What a command line does on a host (`Program.run`): it loads the settings, and then deploys a
directory or shows the deployments of a project.  The store is a file of the host, made with the
directories that lead to it when it is opened for the first time.
-/

namespace PreviewDeploy

open Json (Tree)

/-- Where the program runs. -/
structure Host where
  tree : FileTree
  /-- The place of the working directory. -/
  cwd : List String := []
  home : Option String := none
  env : Environment := fun _ => none
  /-- The clock, the source of identifiers and the control plane. -/
  world : World := {}

instance : Inhabited Host := ⟨{ tree := default }⟩

/-- Why the program gives up. -/
inductive ProgramError where
  | settings
  | unresolved (dir : String)
  | unreadable (dir : String)
  | noFiles (dir : String)
  | unknownPath (path : Workspace.UnknownPath)
  | noDirectory (path : String)
  | noDatabase (path : String)
  | noPersistence
  | history
  | notReady
  deriving DecidableEq, Repr, Inhabited

def ProgramError.message : ProgramError → String
  | settings => "Failed to load settings"
  | unresolved dir => "Failed to resolve " ++ dir
  | unreadable dir => "Failed to read directory: " ++ dir
  | noFiles dir => dir ++ " contains no deployable files"
  | unknownPath path => path.message
  | noDirectory path => "Failed to create directory: " ++ path
  | noDatabase path => "Failed to open database: " ++ path
  | noPersistence => "persistence is disabled (store.dbPath is unset)"
  | history => "Failed to read deployment history"
  | notReady => "deployment did not become ready in time"

namespace Program

/-- The path without its last component; none for the root and for the empty path. -/
def parentOf (path : String) : Option String :=
  let trim (cs : List Char) : List Char := cs.dropWhile (· = '/')
  match trim path.toList.reverse with
  | [] => none
  | cs =>
    match trim (cs.dropWhile (· ≠ '/')) with
    | [] => some (if FileTree.isAbsolute path then "/" else "")
    | above => some (String.ofList above.reverse)

/-- A store that was opened, and its place if it is kept. -/
structure OpenStore where
  place : Option (List String)
  store : Store

/-- The file of a new store, in a directory. -/
def newPlace (place : List String) (path : String) : Option (List String) :=
  ((FileTree.components path).getLast?).map fun name => place ++ [name]

/-- Opens the store at a path, and makes it if there is none. -/
def openStore (path : String) (h : Host) : Except ProgramError (OpenStore × Host) := do
  if path = "" || path = ":memory:" then return (⟨none, {}⟩, h)
  let parent := (parentOf path).getD ""
  let start := if FileTree.isAbsolute parent then [] else h.cwd
  match h.tree.makeDirs start (FileTree.components parent) with
  | none => .error (.noDirectory parent)
  | some (above, tree) =>
    let h := { h with tree }
    match tree.resolve h.cwd path with
    | none => return (⟨newPlace above path, {}⟩, h)
    | some place =>
      match tree.at? place with
      | some (.file (.database store)) => return (⟨some place, store⟩, h)
      | some (.file (.bytes [])) => return (⟨some place, {}⟩, h)
      | _ => .error (.noDatabase path)

/-- Keeps a store. -/
def keep (opened : OpenStore) (h : Host) : Host :=
  match opened.place with
  | some place => { h with tree := .put (.file (.database opened.store)) place h.tree }
  | none => h

/-- What is found at a path. -/
def sourceAt (path : String) (h : Host) : SettingsSource :=
  match h.tree.find? h.cwd path with
  | none => .missing
  | some (.file (.bytes content)) => .bytes content
  | some _ => .unreadable

/-- The settings to run with, from the given file or the standard one. -/
def loadSettings (path : Option String) (h : Host) : Except ProgramError Settings :=
  let path := path.getD (Settings.standardPath h.home)
  match Settings.load h.home h.env (sourceAt path h) with
  | .ok s => .ok s
  | .error _ => .error .settings

/-- The name under which the state of a directory is kept: its own. -/
def projectName (dir : String) (h : Host) : Except ProgramError String :=
  match h.tree.resolve h.cwd dir with
  | some place => .ok (place.getLast?.getD "default")
  | none => .error (.unresolved dir)

/-- Access to the proxy, if the template asks for it. -/
def proxyOf (t : TemplateSettings) : Option Proxy := do
  if t.requiresProxy then
    let url ← t.proxyUrl
    let secret ← t.proxySecret
    pure ⟨url, secret, t.proxyTokenTtlSecs⟩
  else none

/-- What transactions go by under settings. -/
def blueprintOf (t : TemplateSettings) : Blueprint where
  env := .vars t.envVars (proxyOf t)
  template := ⟨t.name, t.projectName, t.initCommand⟩
  policy := .ofTexts t.readOnly

/-- All files of a directory, and those among them that are asked for. -/
def filesFor (d : DeployCommand) (h : Host) : Except ProgramError (List File × List File) :=
  match (h.tree.find? h.cwd d.dir).bind Workspace.load with
  | none => .error (.unreadable d.dir)
  | some [] => .error (.noFiles d.dir)
  | some all =>
    match Workspace.pick all d.files with
    | .ok requested => .ok (all, requested)
    | .error e => .error (.unknownPath e)

/-- The store to deploy with, if one is kept. -/
def storeFor (s : Settings) (h : Host) : Except ProgramError (Option OpenStore × Host) :=
  match s.store.path with
  | none => .ok (none, h)
  | some path => (openStore path h).map fun (opened, h) => (some opened, h)

/-- Deploys files and waits for the outcome. -/
def deployFiles (s : Settings) (d : DeployCommand) (project : String)
    (all requested : List File) (opened : Option OpenStore) (h : Host) : Option Outcome × Host :=
  let world := { h.world with
    project := .ofTemplate all, store := opened.map (·.store), metrics := {}, log := [] }
  let sim := ({ world } : Simulation).add (opened.map fun _ => project) {}
    (blueprintOf s.template) s.template.setupCommands
  let sim := sim.deploy 0
    { files := requested, redeploy := d.redeploy, clearLogs := d.clearLogs
      commitMessage := d.message } none
  let answer := ((sim.state? 0).bind (·.self.callers[0]?)).bind (·.answer?)
  let h := { h with world := sim.world }
  (answer.bind (·.2),
    match opened, sim.world.store with
    | some o, some store => keep { o with store } h
    | _, _ => h)

/-- Deploys a directory. -/
def deploy (s : Settings) (d : DeployCommand) (h : Host) : Except ProgramError Tree × Host :=
  let prepared : Except ProgramError _ := do
    let project ← match d.project with
      | some name => pure name
      | none => projectName d.dir h
    let (all, requested) ← filesFor d h
    let (opened, h) ← storeFor s h
    pure (deployFiles s d project all requested opened h)
  match prepared with
  | .error e => (.error e, h)
  | .ok (some outcome, h) => (.ok outcome.toTree, h)
  | .ok (none, h) => (.error .notReady, h)

/-- Shows the last deployments of a project. -/
def history (s : Settings) (project : String) (limit : UInt32) (h : Host) :
    Except ProgramError Tree × Host :=
  match storeFor s h with
  | .error e => (.error e, h)
  | .ok (none, h) => (.error .noPersistence, h)
  | .ok (some opened, h) =>
    match opened.store.deployments project limit with
    | .ok rows => (.ok (.ofList DeploymentRecord.toTree rows), keep opened h)
    | .error _ => (.error .history, keep opened h)

/-- What a run ends with. -/
inductive Ending where
  /-- The command line was not run. -/
  | refused (why : Refusal)
  | failed (error : ProgramError)
  | printed (t : Tree)

/-- The number that a run ends with. -/
def Ending.code : Ending → UInt8
  | .refused (.help _) | .printed _ => 0
  | .failed _ => 1
  | .refused (.usage _) => 2

/-- Runs a command line. -/
def run (words : List String) (h : Host) : Ending × Host :=
  match CommandLine.parse words with
  | .error why => (.refused why, h)
  | .ok line =>
    match loadSettings line.settings h with
    | .error e => (.failed e, h)
    | .ok s =>
      let (result, h) := match line.command with
        | .deploy d => deploy s d h
        | .history project limit => history s project limit h
      match result with
      | .ok t => (.printed t, h)
      | .error e => (.failed e, h)

end Program

end PreviewDeploy
