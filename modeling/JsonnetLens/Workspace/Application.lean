import JsonnetLens.Workspace.FileTree
import JsonnetLens.Fault
/-!
# Applications and components

An application is a directory with a marker file, and a file belongs to the nearest one above it.
Its components live below the directory `components`, and a component is named by its path there
without the last suffix.
-/
namespace JsonnetLens.Application

/-- The first of some directories in which a look finds what is searched; those behind it are not
looked into, and one that cannot be looked into does not count. -/
def nearest? {m : Type → Type} [Monad m] (look : Path → m FileTree.Probe) :
    List Path → m (Option Path)
  | [] => pure none
  | directory :: rest => do
    if (← look directory) = .found then return some directory
    nearest? look rest

/-- The root of the application that a file belongs to. -/
def root? (tree : FileTree) (file marker : Text) : Option Text :=
  let directory := (tree.absolute (Path.ofText file)).parent
  let look := fun level => tree.probe (level ++ Path.ofText marker)
  (Id.run (nearest? (fun level => pure (look level)) directory.ancestors)).map Path.toText

def components : Path := ⟨0, ["components".toList]⟩

/-- The relative path without its last suffix. -/
def withoutSuffix (p : Path) : Except Fault Text :=
  match p.segments.getLast? with
  | none => .error .namelessComponent
  | some last => .ok (Text.join ['/'] (p.segments.dropLast ++ [(Path.splitSuffix last).1]))

/-- The name of the component that a file defines; outside the components that is its stem. -/
def componentName (root source : Text) : Except Fault Text :=
  let source := Path.ofText source
  match source.relativeTo? (Path.ofText root ++ components) with
  | some below => withoutSuffix below
  | none => .ok source.stem

end JsonnetLens.Application
