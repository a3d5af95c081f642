import SyncedBookmarks.Identity.Conversation

namespace SyncedBookmarks

/-! An identity with all the work on it that is under way, while calls and answers come in any
order. A stretch of work, from an answer to the next question, is done in one go. -/

/-- A question with an answer to it. An error also stands for an answer that does not come in
time. -/
structure Answered where
  question : Question
  answer : question.Answer

namespace Work

variable {work : Work ω α} {stage : ω} {given : Answered} {now : Int} {identity : Identity}

/-- The stretch that an answer begins, if it is one to what has been asked. -/
def take? (work : Work ω α) (stage : ω) (given : Answered) (now : Int) (identity : Identity) :
    Option (Stretch ω α × Identity) :=
  if h : given.question = work.question stage then
    some (work.resume stage (h ▸ given.answer) now identity)
  else none

theorem take?_eq_some_iff {result : Stretch ω α × Identity} :
    work.take? stage given now identity = some result ↔
      ∃ answer, given = ⟨work.question stage, answer⟩ ∧
        work.resume stage answer now identity = result := by
  constructor
  · obtain ⟨question, answer⟩ := given
    intro h
    rw [take?] at h
    split at h
    · rename_i heq
      obtain rfl : question = work.question stage := heq
      exact ⟨answer, rfl, Option.some.inj h⟩
    · cases h
  · rintro ⟨answer, rfl, rfl⟩
    rw [take?, dif_pos rfl]

/-- What an answer makes of one among several pieces of work, and of the identity. -/
def answer? (work : Work ω α) (stretches : List (Stretch ω α)) (index : Nat) (given : Answered)
    (now : Int) (identity : Identity) : Option (List (Stretch ω α) × Identity) :=
  match stretches[index]? with
  | some (.waiting stage) =>
      (work.take? stage given now identity).map fun (stretch, identity) =>
        (stretches.set index stretch, identity)
  | _ => none

theorem answer?_eq_some_iff {stretches : List (Stretch ω α)} {index : Nat}
    {result : List (Stretch ω α) × Identity} :
    work.answer? stretches index given now identity = some result ↔
      ∃ stage answer, stretches[index]? = some (.waiting stage) ∧
        given = ⟨work.question stage, answer⟩ ∧
        result = (stretches.set index (work.resume stage answer now identity).1,
          (work.resume stage answer now identity).2) := by
  rw [answer?]
  constructor
  · intro h
    split at h
    case h_1 stage hstage =>
      obtain ⟨_, htake, rfl⟩ := Option.map_eq_some_iff.mp h
      obtain ⟨answer, rfl, rfl⟩ := take?_eq_some_iff.mp htake
      exact ⟨stage, answer, hstage, rfl, rfl⟩
    case h_2 => cases h
  · rintro ⟨stage, answer, hstage, rfl, rfl⟩
    rw [hstage]
    exact Option.map_eq_some_iff.mpr ⟨_, take?_eq_some_iff.mpr ⟨answer, rfl, rfl⟩, rfl⟩

end Work

/-- What makes an identity start over. -/
inductive Call where
  | startUp
  | event (event : AccountEvent)
  deriving DecidableEq

namespace Identity

def called (identity : Identity) : Call → Identity × List Login
  | .startUp =>
      let (identity, login) := { identity with listening := true }.startLogin
      (identity, [login])
  | .event event => identity.handle event

end Identity

/-- What happens to an identity. An answer goes to one of the logins or of the requests to be
signed, by its number. -/
inductive Occurrence where
  | call (call : Call)
  | sign (uri method nonce : String) (now : Int)
  | toLogin (index : Nat) (given : Answered) (now : Int)
  | toSigning (index : Nat) (given : Answered) (now : Int)

namespace Occurrence

def isCall : Occurrence → Bool
  | call _ => true
  | _ => false

/-- The answer to one of the logins, with its time. -/
def answerTo? (index : Nat) : Occurrence → Option (Answered × Int)
  | toLogin other given now => if other = index then some (given, now) else none
  | _ => none

end Occurrence

/-- An identity with all work that has been started, be it under way or done. -/
structure Scene where
  identity : Identity
  logins : List (Stretch Login Unit) := []
  signings : List (Stretch Signing (Option String)) := []

namespace Scene

def start (tokenServer : String) : Scene where
  identity := { tokenServer }

def called (scene : Scene) (call : Call) : Scene :=
  let (identity, logins) := scene.identity.called call
  { scene with identity, logins := scene.logins ++ logins.map .waiting }

/-- What comes of an occurrence; nothing if an answer is to no question that has been asked. -/
def step? (scene : Scene) : Occurrence → Option Scene
  | .call call => some (scene.called call)
  | .sign uri method nonce now =>
      let signing := Signing.start scene.identity now uri method nonce
      some { scene with signings := scene.signings ++ [.waiting signing] }
  | .toLogin index given now =>
      (Login.work.answer? scene.logins index given now scene.identity).map
        fun (logins, identity) => { scene with identity, logins }
  | .toSigning index given now =>
      (Signing.work.answer? scene.signings index given now scene.identity).map
        fun (signings, identity) => { scene with identity, signings }

def run? (scene : Scene) (occurrences : List Occurrence) : Option Scene :=
  occurrences.foldlM step? scene

/-- Whether all logins are done. -/
def Settled (scene : Scene) : Prop :=
  ∀ stretch ∈ scene.logins, ∃ outcome, stretch = .finished outcome

variable {scene middle next : Scene} {index : Nat} {given : Answered} {now : Int}

@[simp] theorem run?_nil : scene.run? [] = some scene :=
  rfl

theorem run?_cons (occurrence : Occurrence) (occurrences : List Occurrence) :
    scene.run? (occurrence :: occurrences) =
      (scene.step? occurrence).bind (·.run? occurrences) :=
  rfl

theorem run?_append (first second : List Occurrence) :
    scene.run? (first ++ second) = (scene.run? first).bind (·.run? second) := by
  rw [run?, List.foldlM_append]
  rfl

theorem run?_concat (occurrences : List Occurrence) (occurrence : Occurrence) :
    scene.run? (occurrences ++ [occurrence]) =
      (scene.run? occurrences).bind (·.step? occurrence) := by
  simp [run?_append, run?_cons]

theorem step?_toLogin : scene.step? (.toLogin index given now) = some next ↔
    ∃ login answer, scene.logins[index]? = some (.waiting login) ∧
      given = ⟨login.question, answer⟩ ∧
      next =
        { scene with
          identity := (login.resume answer now scene.identity).2
          logins := scene.logins.set index (login.resume answer now scene.identity).1 } := by
  rw [step?, Option.map_eq_some_iff]
  constructor
  · rintro ⟨_, hresult, rfl⟩
    obtain ⟨login, answer, hlogin, rfl, rfl⟩ := Work.answer?_eq_some_iff.mp hresult
    exact ⟨login, answer, hlogin, rfl, rfl⟩
  · rintro ⟨login, answer, hlogin, rfl, rfl⟩
    exact ⟨_, Work.answer?_eq_some_iff.mpr ⟨login, answer, hlogin, rfl, rfl⟩, rfl⟩

theorem step?_toSigning : scene.step? (.toSigning index given now) = some next ↔
    ∃ signing answer, scene.signings[index]? = some (.waiting signing) ∧
      given = ⟨signing.question, answer⟩ ∧
      next =
        { scene with
          identity := (signing.resume answer now scene.identity).2
          signings :=
            scene.signings.set index (signing.resume answer now scene.identity).1 } := by
  rw [step?, Option.map_eq_some_iff]
  constructor
  · rintro ⟨_, hresult, rfl⟩
    obtain ⟨signing, answer, hsigning, rfl, rfl⟩ := Work.answer?_eq_some_iff.mp hresult
    exact ⟨signing, answer, hsigning, rfl, rfl⟩
  · rintro ⟨signing, answer, hsigning, rfl, rfl⟩
    exact ⟨_, Work.answer?_eq_some_iff.mpr ⟨signing, answer, hsigning, rfl, rfl⟩, rfl⟩

end Scene

/-! ### What a stretch does to the identity -/

theorem TokenLookup.resume_congr {first second : Identity}
    (hserver : first.tokenServer = second.tokenServer) (haccount : first.account = second.account)
    (lookup : TokenLookup) (answer : lookup.question.Answer) (now : Int) :
    lookup.resume answer now first = lookup.resume answer now second := by
  cases lookup with
  | identifying purpose =>
      rcases answer with cause | user
      · rfl
      · have hchoose : choose first purpose user = choose second purpose user := by
          cases purpose <;> cases user <;> simp [choose, haccount]
        simp only [resume, hserver, hchoose]
  | requesting request => rfl

/-- A request to be signed stores a token at most. -/
theorem Signing.exists_token_resume (signing : Signing) (answer : signing.question.Answer)
    (now : Int) (identity : Identity) :
    ∃ token, (signing.resume answer now identity).2 = { identity with token } := by
  obtain ⟨uri, method, nonce, stage⟩ := signing
  cases stage with
  | checking check =>
      rw [resume]
      split <;> exact ⟨identity.token, rfl⟩
  | refreshing lookup =>
      rw [resume]
      split
      · exact ⟨identity.token, rfl⟩
      · exact ⟨identity.token, rfl⟩
      · exact ⟨_, rfl⟩

namespace Identity

/-- An identity whose login has found nobody. -/
def unmet (identity : Identity) (cause : IdentityError) : Identity :=
  { identity with state := .uninitialized, readiness := .failed cause.message }

/-- An identity whose login has looked for the keys. -/
def lookedUp (identity : Identity) (readiness : Readiness) : Identity :=
  { identity with keysSettled := true, state := .readyToAuthenticate, readiness }

end Identity

/-- What an answer makes of a login that no later one has taken over from, and of the identity. -/
def LoginStage.advance : (stage : LoginStage) → (Login.question ⟨0, stage⟩).Answer → Int → Identity →
    Stretch LoginStage Unit × Identity
  | .identifying, .error cause, _, identity => (.finished (.ok ()), identity.unmet cause)
  | .identifying, .ok none, _, identity =>
      (.finished (.ok ()), { identity with account := none }.unmet .notSignedIn)
  | .identifying, .ok (some user), _, identity =>
      (.waiting (.requesting user.email (.identifying .heldAccount)),
        { identity with account := some user.email })
  | .requesting account lookup, answer, now, identity =>
      match lookup.resume answer now identity with
      | .waiting lookup => (.waiting (.requesting account lookup), identity)
      | .finished (.error cause) =>
          (.finished (.ok ()), identity.lookedUp (.failed cause.message))
      | .finished (.ok token) =>
          (.waiting (.unlocking account token), { identity with token := some token })
  | .unlocking account token, answer, _, identity =>
      (.finished (.ok ()),
        match Login.keysFor account answer with
        | .error cause => identity.lookedUp (.failed cause.message)
        | .ok keys =>
            if identity.account = some account then
              { identity with username := toString token.uid, keys := some keys }.lookedUp .ready
            else identity.lookedUp (.failed IdentityError.accountChanged.message))

namespace Login

variable {login : Login} {identity : Identity}

theorem resume_of_eq (h : identity.generation = login.generation)
    (answer : login.question.Answer) (now : Int) : login.resume answer now identity =
      ((login.stage.advance answer now identity).1.map (⟨login.generation, ·⟩),
        (login.stage.advance answer now identity).2) := by
  obtain ⟨generation, stage⟩ := login
  obtain rfl : identity.generation = generation := h
  cases stage with
  | identifying =>
      rcases answer with cause | _ | user <;>
        simp [resume, identified, giveUp, whileCurrent, LoginStage.advance, Stretch.map, ended,
          Identity.unmet]
  | requesting account lookup =>
      simp only [resume, LoginStage.advance]
      split <;> simp [*, fail, settle, issued, whileCurrent, Stretch.map, ended, Identity.lookedUp]
  | unlocking account token =>
      simp only [resume, unlocked, LoginStage.advance]
      cases keysFor account answer with
      | error cause => simp [fail, settle, whileCurrent, Stretch.map, ended, Identity.lookedUp]
      | ok keys =>
          by_cases haccount : identity.account = some account <;>
            simp [haccount, fail, settle, whileCurrent, Stretch.map, ended, Identity.lookedUp]

/-- An answer that comes too late changes nothing but the login itself. -/
theorem resume_of_ne (h : identity.generation ≠ login.generation)
    (answer : login.question.Answer) (now : Int) :
    ∃ stretch : Stretch LoginStage Unit, login.resume answer now identity =
      (stretch.map (⟨login.generation, ·⟩), identity) := by
  obtain ⟨generation, stage⟩ := login
  change identity.generation ≠ generation at h
  cases stage with
  | identifying =>
      refine ⟨.finished (.ok ()), ?_⟩
      rcases answer with cause | _ | user <;>
        simp [resume, identified, giveUp, whileCurrent, Stretch.map, ended, h]
  | requesting account lookup =>
      simp only [resume]
      split
      · exact ⟨.waiting (.requesting account _), rfl⟩
      · exact ⟨.finished (.ok ()), by simp [fail, settle, whileCurrent, Stretch.map, ended, h]⟩
      · exact ⟨.finished (.ok ()), by simp [issued, Stretch.map, ended, h]⟩
  | unlocking account token =>
      refine ⟨.finished (.ok ()), ?_⟩
      simp only [resume, unlocked]
      split <;> simp [fail, settle, whileCurrent, Stretch.map, ended, h]

/-- A login that goes on is of the generation that it was of. -/
theorem generation_of_waiting {next : Login} {answer : login.question.Answer} {now : Int}
    (h : (login.resume answer now identity).1 = .waiting next) :
    next.generation = login.generation := by
  have hmap : ∃ stretch : Stretch LoginStage Unit,
      (login.resume answer now identity).1 = stretch.map (⟨login.generation, ·⟩) := by
    by_cases heq : identity.generation = login.generation
    · exact ⟨_, congrArg Prod.fst (resume_of_eq heq answer now)⟩
    · obtain ⟨stretch, hresume⟩ := resume_of_ne heq answer now
      exact ⟨stretch, congrArg Prod.fst hresume⟩
  obtain ⟨stretch, hstretch⟩ := hmap
  rw [hstretch] at h
  cases stretch with
  | waiting stage => cases h; rfl
  | finished outcome => cases h

end Login

theorem LoginStage.advance_fixed (stage : LoginStage) (answer : (Login.question ⟨0, stage⟩).Answer)
    (now : Int) (identity : Identity) :
    (stage.advance answer now identity).2.generation = identity.generation ∧
      (stage.advance answer now identity).2.tokenServer = identity.tokenServer ∧
      (stage.advance answer now identity).2.node = identity.node := by
  cases stage with
  | identifying => rcases answer with cause | _ | user <;> exact ⟨rfl, rfl, rfl⟩
  | requesting account lookup =>
      simp only [advance]
      split <;> exact ⟨rfl, rfl, rfl⟩
  | unlocking account token =>
      simp only [advance]
      split
      · exact ⟨rfl, rfl, rfl⟩
      · split <;> exact ⟨rfl, rfl, rfl⟩

theorem Login.resume_fixed (login : Login) (answer : login.question.Answer) (now : Int)
    (identity : Identity) :
    (login.resume answer now identity).2.generation = identity.generation ∧
      (login.resume answer now identity).2.tokenServer = identity.tokenServer ∧
      (login.resume answer now identity).2.node = identity.node := by
  by_cases h : identity.generation = login.generation
  · rw [resume_of_eq h]
    exact login.stage.advance_fixed answer now identity
  · obtain ⟨_, hresume⟩ := resume_of_ne h answer now
    rw [hresume]
    exact ⟨rfl, rfl, rfl⟩

/-! ### Runs -/

namespace Scene

variable {scene next : Scene} {occurrence : Occurrence}

theorem generation_called (scene : Scene) (call : Call) :
    (scene.called call).identity.generation = scene.identity.generation + 1 := by
  rcases call with _ | ⟨_ | _ | _⟩ <;> rfl

/-- What is asked of the account system after a call is asked for the login that it has started. -/
theorem waiting_called {call : Call} {index : Nat} {login : Login}
    (h : (scene.called call).logins[index]? = some (.waiting login)) :
    scene.logins[index]? = some (.waiting login) ∨
      index = scene.logins.length ∧ login = { generation := scene.identity.generation + 1 } := by
  have hlogins : ∃ logins : List Login,
      (scene.called call).logins = scene.logins ++ logins.map .waiting ∧
        (logins = [] ∨ logins = [{ generation := scene.identity.generation + 1 }]) := by
    rcases call with _ | ⟨_ | _ | _⟩
    · exact ⟨_, rfl, .inr rfl⟩
    · exact ⟨_, rfl, .inr rfl⟩
    · exact ⟨_, rfl, .inr rfl⟩
    · exact ⟨_, rfl, .inl rfl⟩
  obtain ⟨logins, happended, hnew⟩ := hlogins
  rw [happended, List.getElem?_append] at h
  split at h
  · exact .inl h
  · rename_i hle
    rcases hnew with rfl | rfl
    · cases h
    · rw [List.map_singleton, List.getElem?_singleton] at h
      split at h
      · cases h
        exact .inr ⟨by omega, rfl⟩
      · cases h

/-- Between two calls the generation stays. -/
theorem fixed_step? (h : scene.step? occurrence = some next) (hcall : occurrence.isCall = false) :
    next.identity.generation = scene.identity.generation ∧
      next.identity.tokenServer = scene.identity.tokenServer := by
  cases occurrence with
  | call call => cases hcall
  | sign uri method nonce now =>
      cases h
      exact ⟨rfl, rfl⟩
  | toLogin index given now =>
      obtain ⟨login, answer, -, -, rfl⟩ := step?_toLogin.mp h
      exact (login.resume_fixed answer now scene.identity).imp_right And.left
  | toSigning index given now =>
      obtain ⟨signing, answer, -, -, rfl⟩ := step?_toSigning.mp h
      obtain ⟨token, htoken⟩ := signing.exists_token_resume answer now scene.identity
      rw [htoken]
      exact ⟨rfl, rfl⟩

/-- Between two calls no login starts, and each is of the generation that it was of. -/
theorem waiting_step? (h : scene.step? occurrence = some next) (hcall : occurrence.isCall = false)
    {index : Nat} {login : Login} (hlogin : next.logins[index]? = some (.waiting login)) :
    ∃ origin, scene.logins[index]? = some (.waiting origin) ∧
      origin.generation = login.generation := by
  cases occurrence with
  | call call => cases hcall
  | sign uri method nonce now =>
      cases h
      exact ⟨login, hlogin, rfl⟩
  | toSigning other given now =>
      obtain ⟨signing, answer, -, -, rfl⟩ := step?_toSigning.mp h
      exact ⟨login, hlogin, rfl⟩
  | toLogin other given now =>
      obtain ⟨origin, answer, horigin, -, rfl⟩ := step?_toLogin.mp h
      rw [List.getElem?_set] at hlogin
      split at hlogin
      · rename_i heq
        subst heq
        split at hlogin
        · exact ⟨origin, horigin, (Login.generation_of_waiting (Option.some.inj hlogin)).symm⟩
        · cases hlogin
      · exact ⟨login, hlogin, rfl⟩

/-- Whether each login under way is of a generation of its own, none of them later than that of the
identity. -/
structure Ordered (scene : Scene) : Prop where
  bounded : ∀ (index : Nat) (login : Login), scene.logins[index]? = some (.waiting login) →
    login.generation ≤ scene.identity.generation
  distinct : ∀ (first second : Nat) (login other : Login),
    scene.logins[first]? = some (.waiting login) → scene.logins[second]? = some (.waiting other) →
      login.generation = other.generation → first = second

theorem ordered_start (tokenServer : String) : (start tokenServer).Ordered :=
  ⟨fun _ _ h => (by cases h), fun _ _ _ _ h => (by cases h)⟩

theorem Ordered.called (h : scene.Ordered) (call : Call) : (scene.called call).Ordered where
  bounded := by
    intro index login hlogin
    rw [generation_called]
    rcases waiting_called hlogin with hold | ⟨-, rfl⟩
    · exact Nat.le_succ_of_le (h.bounded index login hold)
    · exact Nat.le_refl _
  distinct := by
    intro first second login other hlogin hother hsame
    rcases waiting_called hlogin with hold | ⟨rfl, rfl⟩ <;>
      rcases waiting_called hother with hold' | ⟨rfl, rfl⟩
    · exact h.distinct first second login other hold hold' hsame
    · have hle := h.bounded first login hold
      change login.generation = scene.identity.generation + 1 at hsame
      omega
    · have hle := h.bounded second other hold'
      change scene.identity.generation + 1 = other.generation at hsame
      omega
    · rfl

theorem Ordered.step (h : scene.Ordered) (hstep : scene.step? occurrence = some next) :
    next.Ordered := by
  cases hcall : occurrence.isCall with
  | true =>
      cases occurrence with
      | call call => exact Option.some.inj hstep ▸ h.called call
      | _ => cases hcall
  | false =>
      constructor
      · intro index login hlogin
        obtain ⟨origin, horigin, hgeneration⟩ := waiting_step? hstep hcall hlogin
        rw [(fixed_step? hstep hcall).1, ← hgeneration]
        exact h.bounded index origin horigin
      · intro first second login other hlogin hother hsame
        obtain ⟨origin, horigin, hgeneration⟩ := waiting_step? hstep hcall hlogin
        obtain ⟨origin', horigin', hgeneration'⟩ := waiting_step? hstep hcall hother
        exact h.distinct first second origin origin' horigin horigin'
          (hgeneration.trans (hsame.trans hgeneration'.symm))

theorem Ordered.run (h : scene.Ordered) {occurrences : List Occurrence}
    (hrun : scene.run? occurrences = some next) : next.Ordered := by
  induction occurrences generalizing scene with
  | nil => exact Option.some.inj hrun ▸ h
  | cons occurrence occurrences ih =>
      obtain ⟨middle, hstep, hrest⟩ := Option.bind_eq_some_iff.mp hrun
      exact ih (h.step hstep) hrest

end Scene

end SyncedBookmarks
