import Mathlib.Data.List.Induction
import SyncedBookmarks.Proofs.Interleaving

namespace SyncedBookmarks

/-! An identity has only the keys of its own account. What is known of them comes from answers to
the login of its generation, and that login asks about the account which the identity holds. -/

namespace Scene

/-- What can have happened: something of an occurrence and of the scene that it came to. -/
abbrev Happening := Scene → Occurrence → Prop

/-- Whether something has happened in a run while the identity was of a generation. -/
def Happened (tokenServer : String) (occurrences : List Occurrence) (generation : Nat)
    (what : Happening) : Prop :=
  ∃ (earlier later : List Occurrence) (occurrence : Occurrence) (scene : Scene),
    occurrences = earlier ++ occurrence :: later ∧
      (start tokenServer).run? earlier = some scene ∧
      scene.identity.generation = generation ∧ what scene occurrence

/-- The account system tells the login of the generation the master secret of an account. -/
def TellsKeys (email secret : String) : Happening := fun scene occurrence =>
  ∃ index stage now,
    scene.logins[index]? = some (.waiting ⟨scene.identity.generation, stage⟩) ∧
    occurrence = .toLogin index ⟨.keys, .ok (some ⟨email, secret⟩)⟩ now

/-- The token server issues the token that the login of the generation has requested for an
account. -/
def IssuesToken (email : String) (token : Token) : Happening := fun scene occurrence =>
  ∃ index account server assertion response now,
    scene.logins[index]? = some (.waiting
      ⟨scene.identity.generation,
        .requesting account (.requesting (.fetching server email assertion))⟩) ∧
    occurrence = .toLogin index ⟨.token server assertion, .ok response⟩ now ∧
    token = Token.ofResponse response email now

theorem Happened.concat {tokenServer : String} {occurrences : List Occurrence} {generation : Nat}
    {what : Happening} (h : Happened tokenServer occurrences generation what)
    (next : Occurrence) : Happened tokenServer (occurrences ++ [next]) generation what := by
  obtain ⟨earlier, later, occurrence, scene, rfl, hrest⟩ := h
  exact ⟨earlier, later ++ [next], occurrence, scene, by simp, hrest⟩

theorem happened_last {tokenServer : String} {occurrences : List Occurrence} {scene : Scene}
    (hrun : (start tokenServer).run? occurrences = some scene) {next : Occurrence}
    {what : Happening} (hnext : what scene next) :
    Happened tokenServer (occurrences ++ [next]) scene.identity.generation what :=
  ⟨occurrences, [], next, scene, rfl, hrun, rfl, hnext⟩

end Scene

/-! ### What a login asks about -/

/-- The account that a token is requested for. -/
def TokenRequest.email : TokenRequest → String
  | .verifying _ user _ => user.email
  | .asserting _ email _ => email
  | .fetching _ email _ => email

/-- Whether no token but one of this account can come of a lookup, as long as the identity holds
it. -/
def TokenLookup.IsFor (email : String) : TokenLookup → Prop
  | .identifying purpose => purpose = .heldAccount
  | .requesting request => request.email = email

theorem Stretch.ofStart_ne_ok {ω α : Type} (start : Except IdentityError ω) (result : α) :
    ofStart start ≠ .finished (.ok result) := by
  cases start <;> simp [ofStart]

namespace TokenRequest

variable {request next : TokenRequest} {now : Int}

theorem email_start {server : String} {user : Account} (h : start server user = .ok request) :
    request.email = user.email := by
  rw [start] at h
  split at h
  · cases h
    rfl
  · cases h

theorem email_resume {answer : request.question.Answer}
    (h : request.resume answer now = .waiting next) : next.email = request.email := by
  cases request <;> rcases answer with _ | _ <;> cases h <;> rfl

/-- A token comes of an answer of the token server only. -/
theorem answered_of_finished {answer : request.question.Answer} {token : Token}
    (h : request.resume answer now = .finished (.ok token)) :
    ∃ server assertion response, request = .fetching server request.email assertion ∧
      Answered.mk request.question answer = ⟨.token server assertion, .ok response⟩ ∧
      token = Token.ofResponse response request.email now := by
  cases request with
  | verifying server user audience => rcases answer with _ | _ <;> cases h
  | asserting server email audience => rcases answer with _ | _ <;> cases h
  | fetching server email assertion =>
      rcases answer with _ | response <;> cases h
      exact ⟨server, assertion, response, rfl, rfl, rfl⟩

end TokenRequest

namespace TokenLookup

variable {lookup next : TokenLookup} {identity : Identity} {email : String} {now : Int}
  {answer : lookup.question.Answer}

theorem account_of_choose {user : Option Account} {chosen : Account}
    (h : choose identity .heldAccount user = .ok chosen) :
    identity.account = some chosen.email := by
  cases user with
  | none => cases h
  | some user =>
      rw [choose] at h
      split at h
      · rename_i haccount
        cases h
        exact haccount
      · cases h

theorem eq_of_choose {purpose : TokenPurpose} {user : Option Account} {chosen : Account}
    (h : choose identity purpose user = .ok chosen) : user = some chosen := by
  cases user with
  | none => cases purpose <;> cases h
  | some user =>
      cases purpose with
      | heldAccount =>
          rw [choose] at h
          split at h <;> cases h
          rfl
      | anyAccount =>
          cases h
          rfl

/-- A lookup that goes on requests a token, for whom it is told or for whom it did before. -/
theorem requesting_of_waiting (h : lookup.resume answer now identity = .waiting next) :
    ∃ request : TokenRequest, next = .requesting request ∧
      ((∃ purpose user, lookup = .identifying purpose ∧ request.email = user.email ∧
          choose identity purpose (some user) = .ok user ∧
          Answered.mk lookup.question answer = ⟨.user, .ok (some user)⟩) ∨
        ∃ earlier : TokenRequest, lookup = .requesting earlier ∧ request.email = earlier.email) := by
  cases lookup with
  | identifying purpose =>
      rcases answer with cause | user
      · cases h
      · cases hchoose : choose identity purpose user with
        | error cause => rw [resume, hchoose] at h; cases h
        | ok chosen =>
            obtain rfl := eq_of_choose hchoose
            rw [resume, hchoose] at h
            change Stretch.ofStart
              ((TokenRequest.start identity.tokenServer chosen).map requesting) = _ at h
            cases hstart : TokenRequest.start identity.tokenServer chosen with
            | error cause => rw [hstart] at h; cases h
            | ok request =>
                rw [hstart] at h
                cases h
                exact ⟨request, rfl,
                  .inl ⟨purpose, chosen, rfl, TokenRequest.email_start hstart, hchoose, rfl⟩⟩
  | requesting earlier =>
      rw [resume] at h
      cases hresume : earlier.resume answer now with
      | finished outcome => rw [hresume] at h; cases h
      | waiting request =>
          rw [hresume] at h
          cases h
          exact ⟨request, rfl, .inr ⟨earlier, rfl, TokenRequest.email_resume hresume⟩⟩

theorem isFor_resume (h : lookup.IsFor email) (haccount : identity.account = some email)
    (hnext : lookup.resume answer now identity = .waiting next) : next.IsFor email := by
  obtain ⟨request, rfl, hrequest⟩ := requesting_of_waiting hnext
  obtain ⟨purpose, user, rfl, hemail, hchoose, -⟩ | ⟨earlier, rfl, hemail⟩ := hrequest
  · obtain rfl : purpose = .heldAccount := h
    have hchosen := (account_of_choose hchoose).symm.trans haccount
    exact hemail.trans (Option.some.inj hchosen)
  · exact hemail.trans h

/-- A token comes of an answer of the token server only. -/
theorem fetching_of_finished {token : Token}
    (hend : lookup.resume answer now identity = .finished (.ok token)) :
    ∃ server email assertion response,
      lookup = .requesting (.fetching server email assertion) ∧
      Answered.mk lookup.question answer = ⟨.token server assertion, .ok response⟩ ∧
      token = Token.ofResponse response email now := by
  cases lookup with
  | identifying purpose =>
      rcases answer with cause | user
      · cases hend
      · exact absurd hend (Stretch.ofStart_ne_ok _ token)
  | requesting request =>
      rw [resume] at hend
      cases hresume : request.resume answer now with
      | waiting further => rw [hresume] at hend; cases hend
      | finished outcome =>
          rw [hresume] at hend
          cases hend
          obtain ⟨server, assertion, response, hrequest, hanswer, htoken⟩ :=
            TokenRequest.answered_of_finished hresume
          exact ⟨server, request.email, assertion, response, congrArg _ hrequest, hanswer, htoken⟩

theorem answered_of_finished (h : lookup.IsFor email) {token : Token}
    (hend : lookup.resume answer now identity = .finished (.ok token)) :
    ∃ server assertion response, lookup = .requesting (.fetching server email assertion) ∧
      Answered.mk lookup.question answer = ⟨.token server assertion, .ok response⟩ ∧
      token = Token.ofResponse response email now := by
  obtain ⟨server, other, assertion, response, rfl, hanswer, htoken⟩ := fetching_of_finished hend
  obtain rfl : other = email := h
  exact ⟨server, assertion, response, rfl, hanswer, htoken⟩

end TokenLookup

theorem Login.exists_secret_of_keysFor {account : String}
    {answer : Except IdentityError (Option AccountKeys)} {bundle : KeyBundle}
    (h : keysFor account answer = .ok bundle) :
    ∃ secret, answer = .ok (some ⟨account, secret⟩) ∧ KeyBundle.derive secret = .ok bundle := by
  rcases answer with cause | _ | ⟨email, secret⟩
  · cases h
  · cases h
  · rw [keysFor] at h
    split at h
    · rename_i heq
      obtain rfl : email = account := heq
      cases hderive : KeyBundle.derive secret with
      | error cause => rw [hderive] at h; cases h
      | ok derived =>
          rw [hderive] at h
          cases h
          exact ⟨secret, rfl, hderive⟩
    · cases h

/-! ### What an identity goes by -/

section Holding

variable (happened : Scene.Happening → Prop)

/-- Whether an identity has no keys. -/
def Identity.Locked (identity : Identity) : Prop :=
  identity.keys = none ∧ identity.username = ""

/-- Whether an identity has keys that are, like its name, those of the account that it holds. -/
structure Identity.Unlocked (identity : Identity) (email secret : String) (token : Token)
    (bundle : KeyBundle) : Prop where
  account : identity.account = some email
  keys : identity.keys = some bundle
  told : happened (Scene.TellsKeys email secret)
  derived : KeyBundle.derive secret = .ok bundle
  issued : happened (Scene.IssuesToken email token)
  username : identity.username = toString token.uid

def Identity.Grounded (identity : Identity) : Prop :=
  identity.Locked ∨
    ∃ email secret token bundle, identity.Unlocked happened email secret token bundle

/-- Whether a login under way asks about the account that is held. -/
def LoginStage.AsksFor (account : Option String) : LoginStage → Prop
  | .identifying => True
  | .requesting email lookup => account = some email ∧ lookup.IsFor email
  | .unlocking email token => account = some email ∧ happened (Scene.IssuesToken email token)

/-- Whether an identity is as the login of its generation may leave it. -/
def Identity.LeftBy (identity : Identity) : Stretch LoginStage Unit → Prop
  | .waiting stage => identity.Locked ∧ stage.AsksFor happened identity.account
  | .finished _ => identity.Grounded happened

variable {happened} {identity : Identity}

theorem Identity.LeftBy.grounded {stretch : Stretch LoginStage Unit}
    (h : identity.LeftBy happened stretch) : identity.Grounded happened := by
  cases stretch with
  | waiting stage => exact .inl h.1
  | finished outcome => exact h

/-! What has happened stays so. -/

section

variable {happened' : Scene.Happening → Prop} (hmono : ∀ what, happened what → happened' what)
include hmono

theorem LoginStage.AsksFor.mono {stage : LoginStage} {account : Option String}
    (h : stage.AsksFor happened account) : stage.AsksFor happened' account := by
  cases stage with
  | identifying => exact h
  | requesting email lookup => exact h
  | unlocking email token => exact ⟨h.1, hmono _ h.2⟩

theorem Identity.Grounded.mono (h : identity.Grounded happened) : identity.Grounded happened' := by
  rcases h with hlocked | ⟨email, secret, token, bundle, h⟩
  · exact .inl hlocked
  · exact .inr ⟨email, secret, token, bundle,
      { h with told := hmono _ h.told, issued := hmono _ h.issued }⟩

end

theorem Identity.Grounded.withToken (h : identity.Grounded happened) (token : Option Token) :
    Grounded happened { identity with token } := by
  rcases h with hlocked | ⟨email, secret, issued, bundle, h⟩
  · exact .inl hlocked
  · exact .inr ⟨email, secret, issued, bundle, { h with }⟩

theorem Identity.Locked.authState_ne (h : identity.Locked) : identity.authState ≠ .ok := by
  rw [authState, h.1, h.2]
  cases identity.keysSettled <;> simp

section

variable {email secret : String} {token : Token} {bundle : KeyBundle}
  (h : identity.Unlocked happened email secret token bundle)
include h

theorem Identity.Unlocked.username_ne : identity.username ≠ "" := by
  rw [h.username]
  simp

theorem Identity.Unlocked.authState : identity.authState = .ok := by
  have hname := h.username_ne
  simp [Identity.authState, h.keys, hname]

end

/-- A login that is answered goes on, or ends, with what is of the account that is held then. -/
theorem Scene.leftBy_advance {scene : Scene} {index : Nat} {stage : LoginStage}
    (hlogin : scene.logins[index]? = some (.waiting ⟨scene.identity.generation, stage⟩))
    (h : scene.identity.LeftBy happened (.waiting stage))
    (answer : (Login.question ⟨0, stage⟩).Answer) (now : Int)
    (hnow : ∀ what : Happening, what scene (.toLogin index ⟨_, answer⟩ now) → happened what) :
    (stage.advance answer now scene.identity).2.LeftBy happened
      (stage.advance answer now scene.identity).1 := by
  obtain ⟨hlocked, hasks⟩ := h
  cases stage with
  | identifying =>
      rcases answer with cause | _ | user
      · exact .inl hlocked
      · exact .inl hlocked
      · exact ⟨hlocked, rfl, rfl⟩
  | requesting email lookup =>
      obtain ⟨haccount, hfor⟩ := hasks
      simp only [LoginStage.advance]
      split
      · rename_i next hnext
        exact ⟨hlocked, haccount, lookup.isFor_resume hfor haccount hnext⟩
      · exact .inl hlocked
      · rename_i token hend
        obtain ⟨server, assertion, response, rfl, hanswer, htoken⟩ :=
          lookup.answered_of_finished hfor hend
        cases hanswer
        exact ⟨hlocked, haccount,
          hnow _ ⟨index, _, server, assertion, response, now, hlogin, rfl, htoken⟩⟩
  | unlocking email token =>
      obtain ⟨haccount, hissued⟩ := hasks
      simp only [LoginStage.advance, haccount, if_true]
      split
      · exact .inl hlocked
      · rename_i bundle hkeys
        obtain ⟨secret, rfl, hderived⟩ := Login.exists_secret_of_keysFor hkeys
        exact .inr ⟨email, secret, token, bundle, rfl, rfl, hnow _ ⟨index, _, now, hlogin, rfl⟩,
          hderived, hissued, rfl⟩

end Holding

/-! ### Runs -/

namespace Scene

/-- Whether the keys of an identity are of its account, as are those that its login looks for. -/
structure Grounded (happened : Happening → Prop) (scene : Scene) : Prop where
  identity : scene.identity.Grounded happened
  login : ∀ (index : Nat) (login : Login), scene.logins[index]? = some (.waiting login) →
    login.generation = scene.identity.generation →
      scene.identity.LeftBy happened (.waiting login.stage)

variable {happened happened' : Happening → Prop} {scene next : Scene} {occurrence : Occurrence}

theorem Grounded.mono (hmono : ∀ what, happened what → happened' what)
    (h : scene.Grounded happened) : scene.Grounded happened' where
  identity := h.identity.mono hmono
  login := fun index login hlogin hcurrent =>
    (h.login index login hlogin hcurrent).imp_right (·.mono hmono)

/-- After a call there are no keys, and the only login of the new generation begins. -/
theorem grounded_called (h : scene.Ordered) (call : Call) :
    (scene.called call).Grounded happened := by
  have hlocked : (scene.called call).identity.Locked := by
    rcases call with _ | ⟨_ | _ | _⟩ <;> exact ⟨rfl, rfl⟩
  refine ⟨.inl hlocked, fun index login hlogin hcurrent => ⟨hlocked, ?_⟩⟩
  rcases waiting_called hlogin with hold | ⟨-, rfl⟩
  · have hle := h.bounded index login hold
    rw [hcurrent, generation_called] at hle
    omega
  · trivial

theorem Grounded.toLogin (h : scene.Grounded happened) (hordered : scene.Ordered) {index : Nat}
    {given : Answered} {now : Int} (hstep : scene.step? (.toLogin index given now) = some next)
    (hnow : ∀ what : Happening, what scene (.toLogin index given now) → happened what) :
    next.Grounded happened := by
  obtain ⟨⟨generation, stage⟩, answer, hlogin, rfl, rfl⟩ := step?_toLogin.mp hstep
  by_cases hcurrent : scene.identity.generation = generation
  · subst hcurrent
    have hleft := leftBy_advance hlogin (h.login index _ hlogin rfl) answer now hnow
    have hresume := @Login.resume_of_eq ⟨scene.identity.generation, stage⟩ scene.identity rfl
      answer now
    rw [hresume]
    refine ⟨hleft.grounded, fun other login hother hgeneration => ?_⟩
    have hsame : login.generation = scene.identity.generation :=
      hgeneration.trans (stage.advance_fixed answer now scene.identity).1
    rw [List.getElem?_set] at hother
    split at hother
    · split at hother
      · cases hend : (stage.advance answer now scene.identity).1 with
        | finished outcome => rw [hend] at hother; cases hother
        | waiting further =>
            rw [hend] at hother hleft
            cases hother
            exact hleft
      · cases hother
    · rename_i hne
      exact absurd (hordered.distinct index other _ login hlogin hother hsame.symm) hne
  · obtain ⟨stretch, hresume⟩ := @Login.resume_of_ne ⟨generation, stage⟩ _ hcurrent answer now
    rw [hresume]
    refine ⟨h.identity, fun other login hother hgeneration => ?_⟩
    rw [List.getElem?_set] at hother
    split at hother
    · split at hother
      · cases stretch with
        | finished outcome => cases hother
        | waiting further => cases hother; exact absurd hgeneration.symm hcurrent
      · cases hother
    · exact h.login other login hother hgeneration

theorem Grounded.step (h : scene.Grounded happened) (hordered : scene.Ordered)
    (hstep : scene.step? occurrence = some next) (hcall : occurrence.isCall = false)
    (hnow : ∀ what : Happening, what scene occurrence → happened what) :
    next.Grounded happened := by
  cases occurrence with
  | call call => cases hcall
  | sign uri method nonce now =>
      cases hstep
      exact ⟨h.identity, h.login⟩
  | toLogin index given now => exact h.toLogin hordered hstep hnow
  | toSigning index given now =>
      obtain ⟨signing, answer, -, -, rfl⟩ := step?_toSigning.mp hstep
      obtain ⟨token, htoken⟩ := signing.exists_token_resume answer now scene.identity
      rw [htoken]
      exact ⟨h.identity.withToken token, h.login⟩

theorem grounded_run {tokenServer : String} {occurrences : List Occurrence}
    (hrun : (start tokenServer).run? occurrences = some scene) :
    scene.Grounded (Happened tokenServer occurrences scene.identity.generation) := by
  induction occurrences using List.reverseRecOn generalizing scene with
  | nil =>
      cases hrun
      exact ⟨.inl ⟨rfl, rfl⟩, fun _ _ h => (by cases h)⟩
  | append_singleton occurrences occurrence ih =>
      rw [run?_concat] at hrun
      obtain ⟨middle, hmiddle, hstep⟩ := Option.bind_eq_some_iff.mp hrun
      have hordered := (ordered_start tokenServer).run hmiddle
      cases hcall : occurrence.isCall with
      | true =>
          cases occurrence with
          | call call => exact Option.some.inj hstep ▸ grounded_called hordered call
          | _ => cases hcall
      | false =>
          rw [(fixed_step? hstep hcall).1]
          exact ((ih hmiddle).mono fun what hwhat => hwhat.concat occurrence).step hordered hstep
            hcall fun what hwhat => happened_last hmiddle hwhat

/-- An identity has keys if and only if it has a name and may authenticate. They are then of the
secret that the account system has told for the account held, and the name is of a token issued for
that account, both to the login of the generation. -/
theorem keys_belong {tokenServer : String} {occurrences : List Occurrence} {scene : Scene}
    (hrun : (start tokenServer).run? occurrences = some scene) :
    (scene.identity.keys.isSome ↔ scene.identity.username ≠ "") ∧
      (scene.identity.keys.isSome ↔ scene.identity.authState = .ok) ∧
      ∀ bundle, scene.identity.keys = some bundle → ∃ email secret token,
        scene.identity.account = some email ∧
        Happened tokenServer occurrences scene.identity.generation (TellsKeys email secret) ∧
        KeyBundle.derive secret = .ok bundle ∧
        Happened tokenServer occurrences scene.identity.generation (IssuesToken email token) ∧
        scene.identity.username = toString token.uid := by
  rcases (grounded_run hrun).identity with hlocked | ⟨email, secret, token, bundle, hunlocked⟩
  · have hauth := hlocked.authState_ne
    obtain ⟨hkeys, hname⟩ := hlocked
    simp [hkeys, hname, hauth]
  · refine ⟨iff_of_true (by rw [hunlocked.keys]; rfl) hunlocked.username_ne,
      iff_of_true (by rw [hunlocked.keys]; rfl) hunlocked.authState, fun held hheld => ?_⟩
    obtain rfl : bundle = held := Option.some.inj (hunlocked.keys.symm.trans hheld)
    exact ⟨email, secret, token, hunlocked.account, hunlocked.told, hunlocked.derived,
      hunlocked.issued, hunlocked.username⟩

/-- A login that has been taken over from hears of somebody else before the other one gets its
keys. -/
def takenOver : List Occurrence :=
  [.call .startUp, .call (.event .verified),
    .toLogin 1 ⟨.user, .ok (some ⟨"a", "", true⟩)⟩ 0,
    .toLogin 0 ⟨.user, .ok (some ⟨"b", "", true⟩)⟩ 0,
    .toLogin 1 ⟨.user, .ok (some ⟨"a", "", true⟩)⟩ 0,
    .toLogin 1 ⟨.verification ⟨"a", "", true⟩, .ok ()⟩ 0,
    .toLogin 1 ⟨.assertion "http://[::1]:5000", .ok "shown"⟩ 0,
    .toLogin 1 ⟨.token "http://[::1]:5000" "shown", .ok ⟨"i", "k", 7, 60, "n"⟩⟩ 0,
    .toLogin 1 ⟨.keys, .ok (some ⟨"a", String.ofList (List.replicate 64 '0')⟩)⟩ 0]

theorem second_login_keys :
    let bundle := KeyBundle.ofSecret (List.replicate 32 0)
    let happened := Happened "http://[::1]:5000" takenOver 2
    ∃ email secret token, some "a" = some email ∧ happened (TellsKeys email secret) ∧
      KeyBundle.derive secret = .ok bundle ∧ happened (IssuesToken email token) ∧
      "7" = toString token.uid := by
  let scene : Scene :=
    { identity :=
        { tokenServer := "http://[::1]:5000", state := .readyToAuthenticate, account := some "a"
          username := "7", token := some (Token.ofResponse ⟨"i", "k", 7, 60, "n"⟩ "a" 0)
          keys := some (KeyBundle.ofSecret (List.replicate 32 0)), keysSettled := true
          generation := 2, readiness := .ready, listening := true }
      logins := [.finished (.ok ()), .finished (.ok ())] }
  have hrun : (start "http://[::1]:5000").run? takenOver = some scene := by rfl
  exact (keys_belong hrun).2.2 _ rfl

end Scene

end SyncedBookmarks
