import SyncedBookmarks.Identity.Basic
import SyncedBookmarks.Url.Basic

namespace SyncedBookmarks

/-! Work on an identity that is done in stretches. Between two stretches it waits for an answer,
and meanwhile the identity may change. -/

/-- What a stretch comes to. -/
inductive Stretch (ω α : Type) where
  | waiting (stage : ω)
  | finished (outcome : Except IdentityError α)

namespace Stretch

def map (inStage : ω → ω') : Stretch ω α → Stretch ω' α
  | .waiting stage => .waiting (inStage stage)
  | .finished outcome => .finished outcome

def ofStart : Except IdentityError ω → Stretch ω α
  | .ok stage => .waiting stage
  | .error cause => .finished (.error cause)

end Stretch

structure Work (ω α : Type) where
  question : ω → Question
  /-- The stretch that begins with an answer, at a time in milliseconds. -/
  resume : (stage : ω) → (question stage).Answer → Int → Identity → Stretch ω α × Identity
  /-- The stretch that begins when no answer has come in time. -/
  lapse : ω → Stretch ω α := fun _ => .finished (.error .timeout)

/-! ### A token for a known account -/

inductive TokenRequest where
  | verifying (server : String) (user : Account) (audience : String)
  | asserting (server email audience : String)
  | fetching (server email assertion : String)
  deriving DecidableEq, Repr

namespace TokenRequest

/-- Whom an assertion for a token server is meant for. -/
def audience (server : String) : Except IdentityError String :=
  match Url.parse server with
  | .ok url => .ok url.origin
  | .error cause => .error (.account s!"bad token server URI: {cause.message}")

def start (server : String) (user : Account) : Except IdentityError TokenRequest :=
  match audience server with
  | .ok audience => .ok (.verifying server user audience)
  | .error cause => .error cause

def question : TokenRequest → Question
  | .verifying _ user _ => .verification user
  | .asserting _ _ audience => .assertion audience
  | .fetching server _ assertion => .token server assertion

def resume : (request : TokenRequest) → request.question.Answer → Int →
    Stretch TokenRequest Token
  | .verifying server user audience, .ok (), _ => .waiting (.asserting server user.email audience)
  | .verifying _ _ _, .error cause, _ => .finished (.error cause)
  | .asserting server email _, .ok assertion, _ => .waiting (.fetching server email assertion)
  | .asserting _ _ _, .error cause, _ => .finished (.error cause)
  | .fetching _ email _, .ok response, now =>
      .finished (.ok (Token.ofResponse response email now))
  | .fetching _ _ _, .error cause, _ => .finished (.error (.token cause))

def work : Work TokenRequest Token where
  question := question
  resume request answer now identity := (request.resume answer now, identity)

end TokenRequest

/-! ### A token for whoever is signed in -/

/-- Whose token will do. -/
inductive TokenPurpose where
  /-- Only one of the account that the identity holds. -/
  | heldAccount
  | anyAccount
  deriving DecidableEq, Repr

inductive TokenLookup where
  | identifying (purpose : TokenPurpose)
  | requesting (request : TokenRequest)
  deriving DecidableEq, Repr

namespace TokenLookup

def question : TokenLookup → Question
  | .identifying _ => .user
  | .requesting request => request.question

/-- The account that a token is requested for. -/
def choose (identity : Identity) : TokenPurpose → Option Account → Except IdentityError Account
  | .heldAccount, some user =>
      if identity.account = some user.email then .ok user else .error .accountChanged
  | .heldAccount, none => .error .accountChanged
  | .anyAccount, some user => .ok user
  | .anyAccount, none => .error .notSignedIn

def resume : (lookup : TokenLookup) → lookup.question.Answer → Int → Identity →
    Stretch TokenLookup Token
  | .identifying purpose, .ok user, _, identity =>
      .ofStart (do
        let user ← choose identity purpose user
        (TokenRequest.start identity.tokenServer user).map .requesting)
  | .identifying _, .error cause, _, _ => .finished (.error cause)
  | .requesting request, answer, now, _ => (request.resume answer now).map .requesting

def work : Work TokenLookup Token where
  question := question
  resume lookup answer now identity := (lookup.resume answer now identity, identity)

end TokenLookup

end SyncedBookmarks
