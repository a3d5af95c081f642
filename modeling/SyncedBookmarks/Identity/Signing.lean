import SyncedBookmarks.Hawk
import SyncedBookmarks.Identity.Work

namespace SyncedBookmarks

/-! Signing of requests with the token held, or with a new one. -/

/-! ### Whether the token held may be used -/

/-- A check waits to hear who is signed in. -/
structure TokenCheck where
  token : Token
  account : Option String
  deriving DecidableEq, Repr

namespace TokenCheck

/-- There is nothing to check when there is no token or it has expired. -/
def start? (identity : Identity) (now : Int) : Option TokenCheck :=
  match identity.token with
  | some token =>
      if now < token.expiration then some { token, account := identity.account } else none
  | none => none

/-- The token must be of the account held, and that account signed in. -/
def passes (check : TokenCheck) (user : Except IdentityError (Option Account)) (now : Int) : Bool :=
  match user with
  | .ok (some user) =>
      decide (check.account = some user.email) && check.token.validFor (some user.email) now
  | _ => false

def work : Work TokenCheck Bool where
  question _ := .user
  resume check answer now identity := (.finished (.ok (check.passes answer now)), identity)

end TokenCheck

/-! ### The authorization of a request -/

inductive SigningStage where
  | checking (check : TokenCheck)
  | refreshing (lookup : TokenLookup)
  deriving DecidableEq, Repr

/-- A request to be signed. -/
structure Signing where
  uri : String
  method : String
  nonce : String
  stage : SigningStage
  deriving DecidableEq, Repr

namespace Signing

def refresh : SigningStage :=
  .refreshing (.identifying .heldAccount)

def start (identity : Identity) (now : Int) (uri method nonce : String) : Signing where
  uri := uri
  method := method
  nonce := nonce
  stage :=
    match TokenCheck.start? identity now with
    | some check => .checking check
    | none => refresh

def question (signing : Signing) : Question :=
  match signing.stage with
  | .checking _ => .user
  | .refreshing lookup => lookup.question

/-- The header made with the token that the identity holds by now. -/
def header? (identity : Identity) (now : Int) (uri method nonce : String) : Option String :=
  match identity.token with
  | none => none
  | some token =>
      match Hawk.header uri method ⟨token.id, token.key⟩ { seconds := now.tdiv 1000, nonce } with
      | .ok header => some header
      | .error _ => none

/-- There is no header when no token can be had or the request cannot be signed. -/
def resume : (signing : Signing) → signing.question.Answer → Int → Identity →
    Stretch Signing (Option String) × Identity
  | ⟨uri, method, nonce, .checking check⟩, answer, now, identity =>
      if check.passes answer now then
        (.finished (.ok (header? identity now uri method nonce)), identity)
      else (.waiting ⟨uri, method, nonce, refresh⟩, identity)
  | ⟨uri, method, nonce, .refreshing lookup⟩, answer, now, identity =>
      match lookup.resume answer now identity with
      | .waiting lookup => (.waiting ⟨uri, method, nonce, .refreshing lookup⟩, identity)
      | .finished (.error _) => (.finished (.ok none), identity)
      | .finished (.ok token) =>
          let identity := { identity with token := some token }
          (.finished (.ok (header? identity now uri method nonce)), identity)

/-- A token that cannot be checked in time is replaced. -/
def lapse : Signing → Stretch Signing (Option String)
  | ⟨uri, method, nonce, .checking _⟩ => .waiting ⟨uri, method, nonce, refresh⟩
  | ⟨_, _, _, .refreshing _⟩ => .finished (.ok none)

def work : Work Signing (Option String) where
  question := question
  resume := resume
  lapse := lapse

end Signing

end SyncedBookmarks
