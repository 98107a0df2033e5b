import JsonnetLens.Uri.Host
/-!
# The parts of a URI

`Uri.split?` cuts a text into scheme, authority, path, query and fragment.  It is lenient: a text
without a scheme is all path, controls and spaces in front do not count, and tabs and line breaks do
not count anywhere.
-/
namespace JsonnetLens

structure Uri where
  scheme : Text
  authority : Text
  path : Text
  query : Text
  fragment : Text
  deriving DecidableEq, Repr

namespace Uri

def isSchemeChar (c : Char) : Bool := c.isAlphanum || c = '+' || c = '-' || c = '.'

/-- The scheme in lower case and the text after its colon, when the text begins with a scheme. -/
def cutScheme (t : Text) : Text × Text :=
  match Text.cutFirst? ':' t with
  | some (scheme, rest) =>
    if (scheme.head?.any Char.isAlpha) && scheme.all isSchemeChar then
      (Text.lowerAscii scheme, rest)
    else ([], t)
  | none => ([], t)

def isDelimiter (c : Char) : Bool := c = '/' || c = '?' || c = '#'

/-- The authority after two slashes, and the text after it. -/
def cutAuthority : Text → Text × Text
  | '/' :: '/' :: rest =>
    (rest.takeWhile (!isDelimiter ·), rest.dropWhile (!isDelimiter ·))
  | t => ([], t)

/-- The text before a delimiter and the text after it, which is empty without the delimiter. -/
def cutAt (delimiter : Char) (t : Text) : Text × Text := (Text.cutFirst? delimiter t).getD (t, [])

def isIgnored (c : Char) : Bool := c = '\t' || c = '\r' || c = '\n'

def clean (t : Text) : Text := (t.dropWhile fun c => c.toNat ≤ 0x20).filter (!isIgnored ·)

def split? (t : Text) : Except HostFault Uri :=
  let (scheme, rest) := cutScheme (clean t)
  let (authority, rest) := cutAuthority rest
  let (rest, fragment) := cutAt '#' rest
  let (path, query) := cutAt '?' rest
  match checkBrackets authority with
  | .error fault => .error fault
  | .ok () =>
    match checkForms authority with
    | .error fault => .error fault
    | .ok () => .ok { scheme, authority, path, query, fragment }

/-- The schemes whose last segment may end in parameters. -/
def parameterSchemes : List Text :=
  [[], "ftp".toList, "hdl".toList, "prospero".toList, "http".toList, "imap".toList, "https".toList,
    "shttp".toList, "rtsp".toList, "rtsps".toList, "rtspu".toList, "sip".toList, "sips".toList,
    "mms".toList, "sftp".toList, "tel".toList]

/-- The path without the parameters that follow a semicolon in its last segment. -/
def pathWithoutParameters (uri : Uri) : Text :=
  if parameterSchemes.contains uri.scheme then
    match Text.cutLast? '/' uri.path with
    | some (before, last) => before ++ '/' :: (cutAt ';' last).1
    | none => (cutAt ';' uri.path).1
  else uri.path

end Uri
end JsonnetLens
