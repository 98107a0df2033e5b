import JsonnetLens.Uri.File
/-!
# Preview URIs

A rendered preview of a document has a URI of its own, which carries the document's URI as its
query.  `sourceOf?` leads back: from the query, or from the path when there is no query.
-/
namespace JsonnetLens.PreviewUri

def scheme : Text := "ksonnet-preview".toList

def suffix : Text := ".rendered".toList

def canonical? (uri : Text) : Except Uri.HostFault Text :=
  (Uri.split? uri).map fun parts =>
    scheme ++ "://".toList ++ parts.authority ++ parts.path ++ suffix ++ '?' :: uri

def isPreview? (uri : Text) : Except Uri.HostFault Bool :=
  (Uri.split? uri).map fun parts => parts.scheme = scheme

def fileUri? (uri : Text) : Except Uri.HostFault Text :=
  match Uri.split? uri with
  | .error fault => .error fault
  | .ok parts =>
    if parts.query.isEmpty then
      FileUri.ofPath? (Percent.unquote ((Text.before? suffix parts.path).getD parts.path))
    else .ok (Percent.unquote parts.query)

/-- The URI of the document behind a URI, which may be its preview or the document itself. -/
def sourceOf? (uri : Text) : Except Uri.HostFault Text :=
  match isPreview? uri with
  | .error fault => .error fault
  | .ok true => fileUri? uri
  | .ok false => .ok uri

end JsonnetLens.PreviewUri
