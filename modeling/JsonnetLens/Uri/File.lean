import JsonnetLens.Uri.Split
import JsonnetLens.Text.Percent
import JsonnetLens.Path.Basic
/-!
# File URIs

`FileUri.ofPath?` writes an absolute path as a `file:` URI, and `FileUri.toPath?` reads it back.
Drive letters are kept in lower case, and a path that begins with two slashes names a host.  Where
that host is empty and two more slashes follow, those two open the authority.
-/
namespace JsonnetLens.FileUri

def scheme : Text := "file".toList

/-- The path with its percent coding resolved, in the form the file system knows. -/
def localPath (authority path : Text) : Text :=
  if !authority.isEmpty && !path.isEmpty then '/' :: '/' :: authority ++ path
  else
    match path with
    | '/' :: letter :: ':' :: rest =>
      if letter.isAlpha then letter.toLower :: ':' :: rest else path
    | _ => path

/-- The path that a `file:` URI names; `none` for another scheme. -/
def toPath? (uri : Text) : Except Uri.HostFault (Option Text) :=
  match Uri.split? uri with
  | .error fault => .error fault
  | .ok parts =>
    if parts.scheme = scheme then
      .ok (some (localPath (Percent.unquote parts.authority)
        (Percent.unquote parts.pathWithoutParameters)))
    else .ok none

/-- The host in front of a path, and the path itself. -/
def cutHost? : Text → Except Uri.HostFault (Text × Text)
  | '/' :: '/' :: rest =>
    if rest.contains '/' then .ok (rest.takeWhile (· ≠ '/'), rest.dropWhile (· ≠ '/'))
    else .error .hostWithoutPath
  | t => .ok ([], t)

def rooted (t : Text) : Text := if t.head? = some '/' then t else '/' :: t

def quotePath (t : Text) : Text :=
  match t with
  | '/' :: letter :: ':' :: rest =>
    if letter.isAlpha then '/' :: letter.toLower :: ':' :: Percent.quote rest else Percent.quote t
  | _ => Percent.quote t

def ofPath? (path : Text) : Except Uri.HostFault Text :=
  match cutHost? path with
  | .error fault => .error fault
  | .ok (host, path) =>
    let path := quotePath (rooted path)
    .ok ("file:".toList ++
      if host.isEmpty && (Text.after? "//".toList path).isSome then path
      else "//".toList ++ Percent.quote host ++ path)

/-- The path of a document by its URI: the named file, or the path part under another scheme. -/
def documentPath? (uri : Text) : Except Uri.HostFault Text :=
  match Uri.split? uri with
  | .error fault => .error fault
  | .ok parts =>
    let path := Percent.unquote parts.pathWithoutParameters
    if parts.scheme = scheme then .ok (localPath (Percent.unquote parts.authority) path)
    else .ok path

/-- The normal path of a `file:` URI; any other text is taken for a path already. -/
def normalPath? (uri : Text) : Except Uri.HostFault Text :=
  if (Text.after? "file:".toList uri).isSome then
    match toPath? uri with
    | .error fault => .error fault
    | .ok path =>
      let named := path.getD []
      .ok (normalizePath (if named.isEmpty then uri else named))
  else .ok (normalizePath uri)

end JsonnetLens.FileUri
