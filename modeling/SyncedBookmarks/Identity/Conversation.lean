import SyncedBookmarks.Cluster
import SyncedBookmarks.Http
import SyncedBookmarks.Identity.Login
import SyncedBookmarks.Identity.Signing

namespace SyncedBookmarks

/-! An identity in conversation with those it asks. Work that others wait for is done at once;
logins that events have started meanwhile are done after it. -/

structure Reply (question : Question) where
  /-- None when it does not come in time. -/
  answer : Option question.Answer
  /-- What happens before the answer comes. -/
  events : List AccountEvent := []

/-- Those that are asked, with a clock in milliseconds. -/
structure Respondent (σ : Type) where
  reply : (question : Question) → σ → Reply question × σ
  now : σ → Int
  /-- What comes of a request to a server, or why nothing does; none when it takes too long. -/
  transfer : HttpRequest → σ → Option (Except String HttpResponse) × σ :=
    fun request world => (some (.error request.refusal), world)

structure Conversation (σ : Type) where
  identity : Identity
  world : σ
  /-- Logins under way, the oldest first. -/
  logins : List Login := []
  /-- How many nonces were used. -/
  nonces : Nat := 0

namespace Conversation

def handle (event : AccountEvent) (conversation : Conversation σ) : Conversation σ :=
  let (identity, logins) := conversation.identity.handle event
  { conversation with identity, logins := conversation.logins ++ logins }

def startLogin (conversation : Conversation σ) : Conversation σ :=
  let (identity, login) := conversation.identity.startLogin
  { conversation with identity, logins := conversation.logins ++ [login] }

def listen (conversation : Conversation σ) : Conversation σ :=
  { conversation with identity := { conversation.identity with listening := true } }

/-- Asks one question and does the stretch of work that its answer begins. -/
def exchange (respondent : Respondent σ) (work : Work ω α) (stage : ω)
    (conversation : Conversation σ) : Stretch ω α × Conversation σ :=
  let (reply, world) := respondent.reply (work.question stage) conversation.world
  let conversation := reply.events.foldl (fun c event => c.handle event) { conversation with world }
  match reply.answer with
  | none => (work.lapse stage, conversation)
  | some answer =>
      let (stretch, identity) :=
        work.resume stage answer (respondent.now world) conversation.identity
      (stretch, { conversation with identity })

/-- More questions than any work has to ask. -/
def patience : Nat := 16

def run (respondent : Respondent σ) (work : Work ω α) :
    Nat → ω → Conversation σ → Except IdentityError α × Conversation σ
  | 0, _, conversation => (.error .timeout, conversation)
  | fuel + 1, stage, conversation =>
      match conversation.exchange respondent work stage with
      | (.waiting stage, conversation) => run respondent work fuel stage conversation
      | (.finished outcome, conversation) => (outcome, conversation)

/-- Does the logins that are under way, with those that they bring about. -/
def settle (respondent : Respondent σ) : Nat → Conversation σ → Conversation σ
  | 0, conversation => conversation
  | fuel + 1, conversation =>
      match conversation.logins with
      | [] => conversation
      | login :: logins =>
          settle respondent fuel
            (run respondent Login.work patience login { conversation with logins }).2

/-- More logins than are ever under way. -/
def crowd : Nat := 10000

def perform (respondent : Respondent σ) (work : Work ω α) (start : Except IdentityError ω)
    (conversation : Conversation σ) : Except IdentityError α × Conversation σ :=
  match start with
  | .error cause => (.error cause, conversation)
  | .ok stage =>
      let (outcome, conversation) := conversation.run respondent work patience stage
      (outcome, conversation.settle respondent crowd)

/-! ### What is asked of an identity -/

/-- Waits until the last login has ended. -/
def wait (respondent : Respondent σ) (conversation : Conversation σ) :
    Except IdentityError Unit × Conversation σ :=
  let conversation := conversation.settle respondent crowd
  (conversation.identity.outcome, conversation)

/-- Takes an event, and waits for the login that it starts. -/
def take (respondent : Respondent σ) (event : AccountEvent) (conversation : Conversation σ) :
    Except IdentityError Unit × Conversation σ :=
  let conversation := conversation.handle event
  if event = .logout then (.ok (), conversation) else conversation.wait respondent

def login (respondent : Respondent σ) (conversation : Conversation σ) :
    Except IdentityError Unit × Conversation σ :=
  conversation.startLogin.wait respondent

def hasValidToken (respondent : Respondent σ) (conversation : Conversation σ) :
    Bool × Conversation σ :=
  match TokenCheck.start? conversation.identity (respondent.now conversation.world) with
  | none => (false, conversation)
  | some check =>
      match conversation.perform respondent TokenCheck.work (.ok check) with
      | (.ok passed, conversation) => (passed, conversation)
      | (.error _, conversation) => (false, conversation)

def lookUpToken (respondent : Respondent σ) (purpose : TokenPurpose)
    (conversation : Conversation σ) : Except IdentityError Token × Conversation σ :=
  conversation.perform respondent TokenLookup.work (.ok (.identifying purpose))

def fetchToken (respondent : Respondent σ) (user : Account) (conversation : Conversation σ) :
    Except IdentityError Token × Conversation σ :=
  conversation.perform respondent TokenRequest.work
    (TokenRequest.start conversation.identity.tokenServer user)

def nonceLength : Nat := 8

/-- The next nonce; no two are the same. -/
def nonce (conversation : Conversation σ) : String :=
  Base64.encode (Bytes.ofNat nonceLength conversation.nonces)

/-- The authorization header for a request, if one can be made. -/
def authorize (respondent : Respondent σ) (uri method : String) (conversation : Conversation σ) :
    Option String × Conversation σ :=
  let signing :=
    Signing.start conversation.identity (respondent.now conversation.world) uri method
      conversation.nonce
  let conversation := { conversation with nonces := conversation.nonces + 1 }
  match conversation.perform respondent Signing.work (.ok signing) with
  | (.ok header, conversation) => (header, conversation)
  | (.error _, conversation) => (none, conversation)

/-- The storage node of whoever is signed in, asked for anew. -/
def resolveNode (respondent : Respondent σ) (conversation : Conversation σ) :
    Except ClusterError String × Conversation σ :=
  match conversation.lookUpToken respondent .anyAccount with
  | (.error cause, conversation) => (.error (.identity cause), conversation)
  | (.ok token, conversation) => (Cluster.ofEndpoint token.endpoint, conversation)

/-- The storage node, asked for once in a login. -/
def node (respondent : Respondent σ) (conversation : Conversation σ) :
    Except ClusterError String × Conversation σ :=
  match conversation.identity.node with
  | some node => (.ok node, conversation)
  | none =>
      match conversation.resolveNode respondent with
      | (.ok node, conversation) =>
          (.ok node,
            { conversation with identity := { conversation.identity with node := some node } })
      | (.error cause, conversation) => (.error cause, conversation)

end Conversation

end SyncedBookmarks
