import PreviewDeploy.File.Basic

/-!
# The files of a project

A project starts from the files of a template, over which generated files are laid.  All its
files (`Project.allFiles`) are the template's in their order, with the generated contents where
a path was generated, then the generated files that the template lacks.
-/

namespace PreviewDeploy

structure Project where
  template : FileSet
  generated : FileSet := {}
  deriving Inhabited

namespace Project

def ofTemplate (fs : List File) : Project := { template := .ofList fs }

/-- Records generated files; a path that was generated before takes the new contents. -/
def record (p : Project) (fs : List File) : Project :=
  { p with generated := p.generated.upsertAll fs }

def generatedCount (p : Project) : Nat := p.generated.size

def allFiles (p : Project) : List File := (p.template.upsertAll p.generated.toList).toList

/-- The generated paths, in the order in which they were first recorded. -/
def generatedPaths (p : Project) : List String := p.generated.toList.map (·.path)

end Project

end PreviewDeploy
