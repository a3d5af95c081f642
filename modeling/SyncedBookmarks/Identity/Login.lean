import SyncedBookmarks.Identity.Work

namespace SyncedBookmarks

/-! A login finds out who is signed in, gets a token, and then the keys. -/

inductive LoginStage where
  | identifying
  | requesting (account : String) (lookup : TokenLookup)
  | unlocking (account : String) (token : Token)
  deriving DecidableEq, Repr

structure Login where
  /-- The generation of the identity that the login belongs to. -/
  generation : Nat
  stage : LoginStage := .identifying
  deriving DecidableEq, Repr

namespace Login

def question (login : Login) : Question :=
  match login.stage with
  | .identifying => .user
  | .requesting _ lookup => lookup.question
  | .unlocking _ _ => .keys

def ended : Stretch Login Unit :=
  .finished (.ok ())

/-- Changes the identity, unless a later login or logout has taken over. -/
def whileCurrent (login : Login) (change : Identity → Identity) (identity : Identity) : Identity :=
  if identity.generation = login.generation then change identity else identity

/-- Ends with nobody's keys to look for. -/
def giveUp (login : Login) (cause : IdentityError) : Identity → Identity :=
  login.whileCurrent fun identity =>
    { identity with state := .uninitialized, readiness := .failed cause.message }

/-- Ends with the keys looked up. -/
def settle (login : Login) (readiness : Readiness) : Identity → Identity :=
  login.whileCurrent fun identity =>
    { identity with keysSettled := true, state := .readyToAuthenticate, readiness }

def fail (login : Login) (cause : IdentityError) : Identity → Identity :=
  login.settle (.failed cause.message)

/-- Takes the signed-in user. -/
def identified (login : Login) (user : Except IdentityError (Option Account))
    (identity : Identity) : Stretch Login Unit × Identity :=
  match user with
  | .error cause => (ended, login.giveUp cause identity)
  | .ok none =>
      (ended,
        login.giveUp .notSignedIn
          (login.whileCurrent (fun identity => { identity with account := none }) identity))
  | .ok (some user) =>
      if identity.generation = login.generation then
        (.waiting { login with stage := .requesting user.email (.identifying .heldAccount) },
          { identity with account := some user.email })
      else (ended, identity)

/-- Takes the token. -/
def issued (login : Login) (account : String) (token : Token) (identity : Identity) :
    Stretch Login Unit × Identity :=
  if identity.generation = login.generation then
    (.waiting { login with stage := .unlocking account token },
      { identity with token := some token })
  else (ended, identity)

/-- The keys that an answer holds for an account. -/
def keysFor (account : String) (answer : Except IdentityError (Option AccountKeys)) :
    Except IdentityError KeyBundle :=
  match answer with
  | .error cause => .error cause
  | .ok none => .error .accountChanged
  | .ok (some keys) =>
      if keys.email = account then (KeyBundle.derive keys.secret).mapError .crypto
      else .error .accountChanged

/-- Takes the keys. -/
def unlocked (login : Login) (account : String) (token : Token)
    (answer : Except IdentityError (Option AccountKeys)) (identity : Identity) :
    Stretch Login Unit × Identity :=
  match keysFor account answer with
  | .error cause => (ended, login.fail cause identity)
  | .ok keys =>
      if identity.generation = login.generation ∧ identity.account = some account then
        (ended,
          login.settle .ready
            { identity with username := toString token.uid, keys := some keys })
      else (ended, login.fail .accountChanged identity)

def resume : (login : Login) → login.question.Answer → Int → Identity →
    Stretch Login Unit × Identity
  | ⟨generation, .identifying⟩, answer, _, identity =>
      identified ⟨generation, .identifying⟩ answer identity
  | ⟨generation, .requesting account lookup⟩, answer, now, identity =>
      let login : Login := ⟨generation, .requesting account lookup⟩
      match lookup.resume answer now identity with
      | .waiting lookup => (.waiting ⟨generation, .requesting account lookup⟩, identity)
      | .finished (.error cause) => (ended, login.fail cause identity)
      | .finished (.ok token) => login.issued account token identity
  | ⟨generation, .unlocking account token⟩, answer, _, identity =>
      unlocked ⟨generation, .unlocking account token⟩ account token answer identity

def work : Work Login Unit where
  question := question
  resume := resume

end Login

namespace Identity

/-- A new login of an identity. -/
def startLogin (identity : Identity) : Identity × Login :=
  let identity := identity.beginLogin
  (identity, { generation := identity.generation })

/-- Takes an event; all but a logout start a login. -/
def handle (identity : Identity) : AccountEvent → Identity × List Login
  | .logout => (identity.logout, [])
  | .login => let (identity, login) := identity.startLogin; (identity, [login])
  | .verified => let (identity, login) := identity.startLogin; (identity, [login])

end Identity

end SyncedBookmarks
