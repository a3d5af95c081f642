import SyncedBookmarks.Json.Fields

namespace SyncedBookmarks

/-! Credentials for a storage server, issued for one account and a limited time. -/

/-- What a token server answers; the lifetime is in seconds. -/
structure TokenResponse where
  id : String
  key : String
  uid : Nat
  duration : Nat
  endpoint : String
  deriving DecidableEq, Repr

structure Token where
  id : String
  key : String
  uid : Nat
  endpoint : String
  /-- In milliseconds since 1970. -/
  expiration : Int
  /-- Email of the account that the token was issued for. -/
  account : String
  deriving DecidableEq, Repr

def TokenResponse.schema : Schema TokenResponse where
  declared := [["id"], ["key"], ["uid"], ["duration"], ["endpoint", "api_endpoint"]]
  build
    | [id, key, uid, duration, endpoint] => do
        pure
          { id := ← Json.required Json.asString? id
            key := ← Json.required Json.asString? key
            uid := ← Json.required Json.asNat? uid
            duration := ← Json.required Json.asNat? duration
            endpoint := ← Json.required Json.asString? endpoint }
    | _ => none

/-- The last millisecond that a clock can show. -/
def lastTime : Int := Nat.pow 2 63 - 1

def firstTime : Int := -Nat.pow 2 63

/-- Sums and products of times stop at the ends of the clock. -/
def saturate (time : Int) : Int :=
  max firstTime (min time lastTime)

namespace Token

/-- A lifetime in milliseconds; one that the clock cannot show counts as its last whole second. -/
def lifetime (seconds : Nat) : Int :=
  saturate ((if (seconds : Int) ≤ lastTime then (seconds : Int) else lastTime / 1000) * 1000)

def ofResponse (response : TokenResponse) (account : String) (now : Int) : Token where
  id := response.id
  key := response.key
  uid := response.uid
  endpoint := response.endpoint
  expiration := saturate (now + lifetime response.duration)
  account := account

/-- Usable before it expires, by the account that it was issued for. -/
def validFor (token : Token) (email : Option String) (now : Int) : Bool :=
  decide (now < token.expiration) && email == some token.account

def toJson (token : Token) : Json :=
  .object
    [("id", .string token.id), ("key", .string token.key), ("uid", Json.ofNat token.uid),
      ("endpoint", .string token.endpoint), ("expiration", Json.ofInt token.expiration),
      ("account", .string token.account)]

end Token

end SyncedBookmarks
