import JsonnetLens.Path.Basic
/-!
# A view of the file system

The regular files there are, the directories that may not be looked into, and the current directory.
There are no symbolic links.
-/
namespace JsonnetLens

structure FileTree where
  currentDirectory : Text := "/work".toList
  /-- The files by their normal paths. -/
  files : List Text := []
  denied : List Text := []
  deriving Repr

namespace FileTree

/-- The path as seen from the current directory, in normal form.  Two dots take back the segment before
them, whether or not it names a directory that is there. -/
def absolute (tree : FileTree) (p : Path) : Path :=
  (Path.ofText tree.currentDirectory ++ p).normal

/-- What looking for a regular file finds. -/
inductive Probe where
  | found
  | absent
  | denied
  deriving DecidableEq, Repr

def probe (tree : FileTree) (p : Path) : Probe :=
  let place := tree.absolute p
  if tree.denied.contains place.parent.toText then .denied
  else if tree.files.contains place.toText then .found
  else .absent

/-- Whether there is a file or a directory of files at a path. -/
def hasPath (tree : FileTree) (p : Path) : Bool :=
  let place := tree.absolute p
  tree.files.any fun file =>
    file = place.toText ||
      (((Path.ofText file).relativeTo? place).any fun below => !below.segments.isEmpty)

end FileTree
end JsonnetLens
