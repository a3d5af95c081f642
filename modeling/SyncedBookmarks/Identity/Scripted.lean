import SyncedBookmarks.Identity.Conversation

namespace SyncedBookmarks

/-! An account system and a token server in memory, which answer as they are told to. -/

/-- What the token server issues. -/
structure TokenForm where
  /-- None for one that counts the fetches. -/
  id : Option String := none
  key : String := "token-key"
  uid : Nat := 42
  duration : Nat := 300
  endpoint : String := "https://storage.example.com/1.5/42"
  fault : Option TokenError := none
  /-- Whether a fetch never ends. -/
  hangs : Bool := false

inductive ScriptCommand where
  | user (user : Option Account) (keys : Option AccountKeys)
  | keys (keys : Option AccountKeys)
  | userFault (reason : Option String)
  | keysFault (reason : Option String)
  | assertionFault (reason : Option String)
  | token (change : TokenForm → TokenForm)
  | clock (milliseconds : Int)
  | advance (milliseconds : Int)
  | duringFetch (commands : List ScriptCommand)
  | duringKeys (commands : List ScriptCommand)
  | event (event : AccountEvent)

structure Script where
  user : Option Account := none
  keys : Option AccountKeys := none
  userFault : Option String := none
  keysFault : Option String := none
  assertionFault : Option String := none
  token : TokenForm := {}
  clock : Int := 1577836800000
  /-- What happens during the next fetch of a token. -/
  duringFetch : List ScriptCommand := []
  /-- What happens during the next look-up of the keys. -/
  duringKeys : List ScriptCommand := []
  fetches : Nat := 0
  /-- Server and assertion of the last fetch. -/
  lastFetch : Option (String × String) := none

namespace Script

def apply (script : Script) : ScriptCommand → Script
  | .user user keys => { script with user, keys }
  | .keys keys => { script with keys }
  | .userFault userFault => { script with userFault }
  | .keysFault keysFault => { script with keysFault }
  | .assertionFault assertionFault => { script with assertionFault }
  | .token change => { script with token := change script.token }
  | .clock clock => { script with clock }
  | .advance milliseconds => { script with clock := script.clock + milliseconds }
  | .duringFetch duringFetch => { script with duringFetch }
  | .duringKeys duringKeys => { script with duringKeys }
  | .event _ => script

def applyAll (script : Script) (commands : List ScriptCommand) : Script :=
  commands.foldl apply script

def eventsIn (commands : List ScriptCommand) : List AccountEvent :=
  commands.filterMap fun
    | .event event => some event
    | _ => none

def answerOr (fault : Option String) (value : α) : Except IdentityError α :=
  match fault with
  | some reason => .error (.account reason)
  | none => .ok value

def issue (script : Script) : Except TokenError TokenResponse :=
  let form := script.token
  match form.fault with
  | some cause => .error cause
  | none =>
      .ok
        { id := form.id.getD s!"token-id-{script.fetches}"
          key := form.key
          uid := form.uid
          duration := form.duration
          endpoint := form.endpoint }

/-- Decides an answer, and lets happen what is to happen during the question. -/
def reply : (question : Question) → Script → Reply question × Script
  | .user, script => ({ answer := some (answerOr script.userFault script.user) }, script)
  | .verification user, script =>
      ({ answer := some (if user.verified then .ok () else .error (.account "unverified")) },
        script)
  | .assertion audience, script =>
      ({ answer := some (answerOr script.assertionFault s!"assertion-for-{audience}") }, script)
  | .token server assertion, script =>
      let commands := script.duringFetch
      let script :=
        { script with
          fetches := script.fetches + 1
          lastFetch := some (server, assertion)
          duringFetch := [] }
      ({ answer := if script.token.hangs then none else some script.issue
         events := eventsIn commands },
        script.applyAll commands)
  | .keys, script =>
      let commands := script.duringKeys
      ({ answer := some (answerOr script.keysFault script.keys), events := eventsIn commands },
        { script with duringKeys := [] }.applyAll commands)

def respondent : Respondent Script where
  reply := reply
  now := clock

end Script

end SyncedBookmarks
