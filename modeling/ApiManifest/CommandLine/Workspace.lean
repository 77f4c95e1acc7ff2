import ApiManifest.Dict
import ApiManifest.Text.Basic

/-!
The surroundings of a run: standard input, and a directory of files without directories in it.
Paths are followed component by component, as far as they stay in that directory.
-/

namespace ApiManifest.CommandLine

/-- Why a file cannot be read or written. -/
inductive FileFault where
  | notFound
  | notDirectory
  | isDirectory
  deriving DecidableEq

def FileFault.message : FileFault → String
  | .notFound => "No such file or directory (os error 2)"
  | .notDirectory => "Not a directory (os error 20)"
  | .isDirectory => "Is a directory (os error 21)"

structure Workspace where
  /-- What standard input holds, none if it cannot be read because it is a directory. -/
  input : Option String
  files : Dict String

/-- Where a path leads: to a directory, or to a name in the directory of files, which may be
followed by a slash. -/
inductive Destination where
  | directory
  | file (name : String) (slash : Bool)
  deriving DecidableEq

namespace Workspace

/-- Follows the components of a path from the directory of files, or from one around it. -/
def follow (workspace : Workspace) (inside : Bool) :
    List (List Char) → Except FileFault Destination
  | [] => .ok .directory
  | part :: rest =>
    if part = [] ∨ part = ['.'] then follow workspace inside rest
    else if part = ['.', '.'] then follow workspace false rest
    else if !inside then .error .notFound
    else
      let name := String.ofList part
      if rest.all (· = []) then .ok (.file name !rest.isEmpty)
      else if (workspace.files.get? name).isSome then .error .notDirectory
      else .error .notFound

def locate (workspace : Workspace) (path : String) : Except FileFault Destination :=
  if path.isEmpty then .error .notFound
  else follow workspace (path.toList.head? ≠ some '/') (Text.splitOn '/' path.toList)

def readFile (workspace : Workspace) (path : String) : Except FileFault String := do
  match ← workspace.locate path with
  | .directory => .error .isDirectory
  | .file name slash =>
    match workspace.files.get? name with
    | none => .error .notFound
    | some text => if slash then .error .notDirectory else .ok text

/-- The name under which a path is written. -/
def writableName (workspace : Workspace) (path : String) : Except FileFault String := do
  match ← workspace.locate path with
  | .directory => .error .isDirectory
  | .file name slash => if slash then .error .isDirectory else .ok name

end Workspace

end ApiManifest.CommandLine
