import SyncedBookmarks.Error

namespace SyncedBookmarks

/-! Names of errors for other programs: the causes from the outermost to the innermost, with dots
between them. An error can be made again from its name and what it tells about. -/

/-- What an error tells about, where it tells of anything. -/
structure ErrorDetail where
  text : String := ""
  number : Int := 0

namespace CryptoError

def code : CryptoError → String
  | .invalidSecret _ => "InvalidSecret"
  | .keyDerivation _ => "KeyDerivation"
  | .encryption _ => "Encryption"
  | .decryption _ => "Decryption"
  | .hmacMismatch => "HmacMismatch"
  | .randomGeneration _ => "RandomGeneration"
  | .invalidKey _ => "InvalidKey"
  | .invalidUri _ => "InvalidUri"

def ofCode? (detail : ErrorDetail) : List String → Option CryptoError
  | ["InvalidSecret"] => some (.invalidSecret detail.text)
  | ["KeyDerivation"] => some (.keyDerivation detail.text)
  | ["Encryption"] => some (.encryption detail.text)
  | ["Decryption"] => some (.decryption detail.text)
  | ["HmacMismatch"] => some .hmacMismatch
  | ["RandomGeneration"] => some (.randomGeneration detail.text)
  | ["InvalidKey"] => some (.invalidKey detail.text)
  | ["InvalidUri"] => some (.invalidUri detail.text)
  | _ => none

end CryptoError

namespace TokenError

def code : TokenError → String
  | .assertionRejected _ => "AssertionRejected"
  | .network _ => "Network"
  | .protocol _ => "Protocol"

def ofCode? (detail : ErrorDetail) : List String → Option TokenError
  | ["AssertionRejected"] => some (.assertionRejected detail.text)
  | ["Network"] => some (.network detail.text)
  | ["Protocol"] => some (.protocol detail.text)
  | _ => none

end TokenError

namespace IdentityError

def code : IdentityError → String
  | .notSignedIn => "NotSignedIn"
  | .accountChanged => "AccountChanged"
  | .account _ => "Account"
  | .token cause => "Token." ++ cause.code
  | .crypto cause => "Crypto." ++ cause.code
  | .timeout => "Timeout"
  | .cancelled => "Cancelled"

def ofCode? (detail : ErrorDetail) : List String → Option IdentityError
  | ["NotSignedIn"] => some .notSignedIn
  | ["AccountChanged"] => some .accountChanged
  | ["Account"] => some (.account detail.text)
  | "Token" :: rest => (TokenError.ofCode? detail rest).map .token
  | "Crypto" :: rest => (CryptoError.ofCode? detail rest).map .crypto
  | ["Timeout"] => some .timeout
  | ["Cancelled"] => some .cancelled
  | _ => none

end IdentityError

namespace ClusterError

def code : ClusterError → String
  | .identity cause => "Identity." ++ cause.code
  | .invalidEndpoint _ => "InvalidEndpoint"

def ofCode? (detail : ErrorDetail) : List String → Option ClusterError
  | "Identity" :: rest => (IdentityError.ofCode? detail rest).map .identity
  | ["InvalidEndpoint"] => some (.invalidEndpoint detail.text)
  | _ => none

end ClusterError

namespace TreeError

def code : TreeError → String
  | .itemNotFound _ => "ItemNotFound"
  | .invalidParent _ => "InvalidParent"
  | .guidInUse _ => "GuidInUse"
  | .invalidUri _ => "InvalidUri"
  | .database _ => "DatabaseError"

def ofCode? (detail : ErrorDetail) : List String → Option TreeError
  | ["ItemNotFound"] => some (.itemNotFound detail.number)
  | ["InvalidParent"] => some (.invalidParent detail.number)
  | ["GuidInUse"] => some (.guidInUse detail.text)
  | ["InvalidUri"] => some (.invalidUri detail.text)
  | ["DatabaseError"] => some (.database detail.text)
  | _ => none

end TreeError

namespace StoreError

def code : StoreError → String
  | .unknownType _ => "UnknownType"
  | .unknownItem _ => "UnknownItem"
  | .guidCollision _ => "GuidCollision"
  | .missingField _ => "MissingField"
  | .generatorNotFound _ => "GeneratorNotFound"
  | .tree cause => "Places." ++ cause.code

def ofCode? (detail : ErrorDetail) : List String → Option StoreError
  | ["UnknownType"] => some (.unknownType detail.text)
  | ["UnknownItem"] => some (.unknownItem detail.text)
  | ["GuidCollision"] => some (.guidCollision detail.text)
  | ["MissingField"] => some (.missingField detail.text)
  | ["GeneratorNotFound"] => some (.generatorNotFound detail.text)
  | "Places" :: rest => (TreeError.ofCode? detail rest).map .tree
  | _ => none

end StoreError

namespace StorageError

def code : StorageError → String
  | .unauthorized => "Unauthorized"
  | .network _ => "Network"
  | .http _ => "Http"
  | .parse _ => "Parse"
  | .timeout => "Timeout"

def ofCode? (detail : ErrorDetail) : List String → Option StorageError
  | ["Unauthorized"] => some .unauthorized
  | ["Network"] => some (.network detail.text)
  | ["Http"] => some (.http detail.number.toNat)
  | ["Parse"] => some (.parse detail.text)
  | ["Timeout"] => some .timeout
  | _ => none

end StorageError

namespace SyncError

def code : SyncError → String
  | .notReady _ => "NotReady"
  | .cluster cause => "Cluster." ++ cause.code
  | .storage cause => "Storage." ++ cause.code
  | .store cause => "Store." ++ cause.code
  | .payload _ => "Payload"
  | .database _ => "DatabaseError"

def ofCode? (detail : ErrorDetail) : List String → Option SyncError
  | ["NotReady"] => some (.notReady detail.text)
  | "Cluster" :: rest => (ClusterError.ofCode? detail rest).map .cluster
  | "Storage" :: rest => (StorageError.ofCode? detail rest).map .storage
  | "Store" :: rest => (StoreError.ofCode? detail rest).map .store
  | ["Payload"] => some (.payload detail.text)
  | ["DatabaseError"] => some (.database detail.text)
  | _ => none

end SyncError

namespace SettingsError

def code : SettingsError → String
  | .io _ => "IoError"
  | .serialization _ => "SerializationError"
  | .invalidKey _ => "InvalidKey"
  | .invalidValue _ => "InvalidValue"

def ofCode? (detail : ErrorDetail) : List String → Option SettingsError
  | ["IoError"] => some (.io detail.text)
  | ["SerializationError"] => some (.serialization detail.text)
  | ["InvalidKey"] => some (.invalidKey detail.text)
  | ["InvalidValue"] => some (.invalidValue detail.text)
  | _ => none

end SettingsError

/-- Errors with a name and a message. -/
class NamedError (ε : Type) where
  code : ε → String
  message : ε → String

instance : NamedError CryptoError := ⟨CryptoError.code, CryptoError.message⟩
instance : NamedError TokenError := ⟨TokenError.code, TokenError.message⟩
instance : NamedError IdentityError := ⟨IdentityError.code, IdentityError.message⟩
instance : NamedError ClusterError := ⟨ClusterError.code, ClusterError.message⟩
instance : NamedError TreeError := ⟨TreeError.code, TreeError.message⟩
instance : NamedError StoreError := ⟨StoreError.code, StoreError.message⟩
instance : NamedError StorageError := ⟨StorageError.code, StorageError.message⟩
instance : NamedError SyncError := ⟨SyncError.code, SyncError.message⟩
instance : NamedError SettingsError := ⟨SettingsError.code, SettingsError.message⟩

/-- The message of an error of any kind, by its whole name. -/
def messageOfCode? (detail : ErrorDetail) : List String → Option String
  | "Crypto" :: rest => (CryptoError.ofCode? detail rest).map CryptoError.message
  | "Token" :: rest => (TokenError.ofCode? detail rest).map TokenError.message
  | "Identity" :: rest => (IdentityError.ofCode? detail rest).map IdentityError.message
  | "Cluster" :: rest => (ClusterError.ofCode? detail rest).map ClusterError.message
  | "Places" :: rest => (TreeError.ofCode? detail rest).map TreeError.message
  | "Store" :: rest => (StoreError.ofCode? detail rest).map StoreError.message
  | "Storage" :: rest => (StorageError.ofCode? detail rest).map StorageError.message
  | "Sync" :: rest => (SyncError.ofCode? detail rest).map SyncError.message
  | "Settings" :: rest => (SettingsError.ofCode? detail rest).map SettingsError.message
  | _ => none

end SyncedBookmarks
