import SyncedBookmarks.Error
import SyncedBookmarks.Url.Basic

namespace SyncedBookmarks

/-! The storage node of an account, known by the endpoint that comes with a token. -/

namespace Cluster

/-- The endpoint with a single slash for its path, and without query and fragment. -/
def ofEndpoint (endpoint : String) : Except ClusterError String :=
  match Url.parse endpoint with
  | .error cause => .error (.invalidEndpoint s!"{endpoint}: {cause.message}")
  | .ok url => if url.hasPlainPath then .error (.invalidEndpoint endpoint) else .ok url.rootText

end Cluster

end SyncedBookmarks
