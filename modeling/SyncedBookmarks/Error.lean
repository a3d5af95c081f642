namespace SyncedBookmarks

/-! What can go wrong, layer by layer, and how it is told. -/

inductive CryptoError where
  | invalidSecret (reason : String)
  | keyDerivation (reason : String)
  | encryption (reason : String)
  | decryption (reason : String)
  | hmacMismatch
  | randomGeneration (reason : String)
  | invalidKey (reason : String)
  | invalidUri (reason : String)
  deriving DecidableEq, Repr

inductive TokenError where
  | assertionRejected (reason : String)
  | network (reason : String)
  | protocol (reason : String)
  deriving DecidableEq, Repr

inductive IdentityError where
  | notSignedIn
  | accountChanged
  | account (reason : String)
  | token (cause : TokenError)
  | crypto (cause : CryptoError)
  | timeout
  | cancelled
  deriving DecidableEq, Repr

inductive ClusterError where
  | identity (cause : IdentityError)
  | invalidEndpoint (reason : String)
  deriving DecidableEq, Repr

inductive TreeError where
  | itemNotFound (id : Int)
  | invalidParent (id : Int)
  | guidInUse (guid : String)
  | invalidUri (reason : String)
  | database (reason : String)
  deriving DecidableEq, Repr

inductive StoreError where
  | unknownType (name : String)
  | unknownItem (guid : String)
  | guidCollision (guid : String)
  | missingField (name : String)
  | generatorNotFound (uri : String)
  | tree (cause : TreeError)
  deriving DecidableEq, Repr

inductive StorageError where
  | unauthorized
  | network (reason : String)
  | http (status : Nat)
  | parse (reason : String)
  | timeout
  deriving DecidableEq, Repr

inductive SyncError where
  | notReady (reason : String)
  | cluster (cause : ClusterError)
  | storage (cause : StorageError)
  | store (cause : StoreError)
  | payload (reason : String)
  | database (reason : String)
  deriving DecidableEq, Repr

inductive SettingsError where
  | io (reason : String)
  | serialization (reason : String)
  | invalidKey (reason : String)
  | invalidValue (reason : String)
  deriving DecidableEq, Repr

def CryptoError.message : CryptoError → String
  | .invalidSecret reason => s!"Invalid master secret: {reason}"
  | .keyDerivation reason => s!"Key derivation failed: {reason}"
  | .encryption reason => s!"Encryption failed: {reason}"
  | .decryption reason => s!"Decryption failed: {reason}"
  | .hmacMismatch => "Payload HMAC verification failed"
  | .randomGeneration reason => s!"Random generation failed: {reason}"
  | .invalidKey reason => s!"Invalid key: {reason}"
  | .invalidUri reason => s!"Invalid URI: {reason}"

def TokenError.message : TokenError → String
  | .assertionRejected reason => s!"Assertion rejected: {reason}"
  | .network reason => s!"Token server network error: {reason}"
  | .protocol reason => s!"Token server protocol error: {reason}"

def IdentityError.message : IdentityError → String
  | .notSignedIn => "No account is signed in"
  | .accountChanged => "The currently logged-in user has changed"
  | .account reason => s!"Account provider error: {reason}"
  | .token cause => s!"Token fetch failed: {cause.message}"
  | .crypto cause => s!"Key bundle derivation failed: {cause.message}"
  | .timeout => "Timed out waiting for identity operation"
  | .cancelled => "Identity operation was cancelled"

def ClusterError.message : ClusterError → String
  | .identity cause => s!"Cluster lookup failed: {cause.message}"
  | .invalidEndpoint reason => s!"Invalid storage endpoint: {reason}"

def TreeError.message : TreeError → String
  | .itemNotFound id => s!"Places item not found: {id}"
  | .invalidParent id => s!"Invalid parent folder: {id}"
  | .guidInUse guid => s!"GUID already in use: {guid}"
  | .invalidUri reason => s!"Invalid URI: {reason}"
  | .database reason => s!"Places database error: {reason}"

def StoreError.message : StoreError → String
  | .unknownType name => s!"Unknown item type: {name}"
  | .unknownItem guid => s!"Item does not exist: {guid}"
  | .guidCollision guid => s!"New ID already in use: {guid}"
  | .missingField name => s!"Record is missing field: {name}"
  | .generatorNotFound uri => s!"Microsummary generator not found: {uri}"
  | .tree cause => cause.message

def StorageError.message : StorageError → String
  | .unauthorized => "No valid credentials for storage request"
  | .network reason => s!"Storage network error: {reason}"
  | .http status => s!"Storage server returned HTTP {status}"
  | .parse reason => s!"Storage response parse error: {reason}"
  | .timeout => "Storage request timed out"

def SyncError.message : SyncError → String
  | .notReady reason => s!"Sync not ready: {reason}"
  | .cluster cause => cause.message
  | .storage cause => cause.message
  | .store cause => cause.message
  | .payload reason => s!"Payload error: {reason}"
  | .database reason => s!"Sync metadata error: {reason}"

def SettingsError.message : SettingsError → String
  | .io reason => s!"Settings I/O error: {reason}"
  | .serialization reason => s!"Settings serialization error: {reason}"
  | .invalidKey reason => s!"Invalid settings key: {reason}"
  | .invalidValue reason => s!"Invalid settings value: {reason}"

end SyncedBookmarks
