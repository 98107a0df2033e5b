import JsonnetLens.Diagnostic.Collection
import JsonnetLens.Diagnostic.Publisher
/-!
# Sinks of diagnostics

A sink takes records for a path, drops those of a path, and drops them all.  A watched collection is
one sink, a publisher another.
-/
namespace JsonnetLens

class Sink (σ : Type) where
  set : (path : Text) → List Record → Attempt σ Unit
  delete : (path : Text) → Attempt σ Unit
  clearAll : Attempt σ Unit

instance : Sink (WatchedCollection Text) where
  set path records := modify (·.set path records)
  delete path := modify (·.delete path)
  clearAll := modify WatchedCollection.clearAll

instance : Sink Publisher where
  set path := Publisher.set (some path)
  delete path := Publisher.delete (some path)
  clearAll := Publisher.clearAll

end JsonnetLens
