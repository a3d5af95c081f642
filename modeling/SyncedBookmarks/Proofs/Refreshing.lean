import SyncedBookmarks.Proofs.KeyHolding

namespace SyncedBookmarks

/-! A request to be signed that needs a new token asks who is signed in, and requests the token for
the account that it is told of. -/

/-! ### One stretch -/

theorem TokenCheck.exists_user_of_passes {check : TokenCheck}
    {answer : Except IdentityError (Option Account)} {now : Int} (h : check.passes answer now) :
    ∃ user, answer = .ok (some user) ∧ check.account = some user.email ∧
      check.token.validFor (some user.email) now := by
  rcases answer with cause | _ | user
  · cases h
  · cases h
  · obtain ⟨haccount, hvalid⟩ := Bool.and_eq_true_iff.mp h
    exact ⟨user, rfl, of_decide_eq_true haccount, hvalid⟩

namespace Signing

/-- Whether a request to be signed waits for a new token of an account. -/
def Requests (signing : Signing) (email : String) : Prop :=
  ∃ request : TokenRequest, signing.stage = .refreshing (.requesting request) ∧
    request.email = email

/-- The stretch that an answer begins where the clock is read twice: once to see whether the token
has expired or when it has come, and once more for the header. -/
def resumeAt : (signing : Signing) → signing.question.Answer → (checked signed : Int) → Identity →
    Stretch Signing (Option String) × Identity
  | ⟨uri, method, nonce, .checking check⟩, answer, checked, signed, identity =>
      if check.passes answer checked then
        (.finished (.ok (header? identity signed uri method nonce)), identity)
      else (.waiting ⟨uri, method, nonce, refresh⟩, identity)
  | ⟨uri, method, nonce, .refreshing lookup⟩, answer, checked, signed, identity =>
      match lookup.resume answer checked identity with
      | .waiting lookup => (.waiting ⟨uri, method, nonce, .refreshing lookup⟩, identity)
      | .finished (.error _) => (.finished (.ok none), identity)
      | .finished (.ok token) =>
          let identity := { identity with token := some token }
          (.finished (.ok (header? identity signed uri method nonce)), identity)

theorem resume_eq_resumeAt (signing : Signing) (answer : signing.question.Answer) (now : Int)
    (identity : Identity) :
    signing.resume answer now identity = signing.resumeAt answer now now identity := by
  obtain ⟨uri, method, nonce, stage⟩ := signing
  cases stage <;> rfl

/-- All that can come of an answer to a request to be signed. -/
inductive Continued (identity : Identity) (checked signed : Int) (signing : Signing)
    (given : Answered) : Stretch Signing (Option String) × Identity → Prop where
  | passed (check : TokenCheck) (user : Account) (hstage : signing.stage = .checking check)
      (hgiven : given = ⟨.user, .ok (some user)⟩) (haccount : check.account = some user.email)
      (hvalid : check.token.validFor (some user.email) checked) :
      Continued identity checked signed signing given
        (.finished (.ok (header? identity signed signing.uri signing.method signing.nonce)),
          identity)
  | failed (check : TokenCheck) (hstage : signing.stage = .checking check) :
      Continued identity checked signed signing given
        (.waiting { signing with stage := refresh }, identity)
  | told (purpose : TokenPurpose) (user : Account) (request : TokenRequest)
      (hstage : signing.stage = .refreshing (.identifying purpose))
      (hgiven : given = ⟨.user, .ok (some user)⟩)
      (hchoose : TokenLookup.choose identity purpose (some user) = .ok user)
      (hemail : request.email = user.email) :
      Continued identity checked signed signing given
        (.waiting { signing with stage := .refreshing (.requesting request) }, identity)
  | asked (earlier request : TokenRequest)
      (hstage : signing.stage = .refreshing (.requesting earlier))
      (hemail : request.email = earlier.email) :
      Continued identity checked signed signing given
        (.waiting { signing with stage := .refreshing (.requesting request) }, identity)
  | refused (lookup : TokenLookup) (hstage : signing.stage = .refreshing lookup) :
      Continued identity checked signed signing given (.finished (.ok none), identity)
  | issued (server email assertion : String) (response : TokenResponse) (token : Token)
      (hstage : signing.stage = .refreshing (.requesting (.fetching server email assertion)))
      (hgiven : given = ⟨.token server assertion, .ok response⟩)
      (htoken : token = Token.ofResponse response email checked) :
      Continued identity checked signed signing given
        (.finished (.ok (header? { identity with token := some token } signed signing.uri
          signing.method signing.nonce)), { identity with token := some token })

theorem continued (signing : Signing) (answer : signing.question.Answer) (checked signed : Int)
    (identity : Identity) :
    Continued identity checked signed signing ⟨signing.question, answer⟩
      (signing.resumeAt answer checked signed identity) := by
  obtain ⟨uri, method, nonce, stage⟩ := signing
  cases stage with
  | checking check =>
      rw [resumeAt]
      split
      · rename_i hpasses
        obtain ⟨user, rfl, haccount, hvalid⟩ := TokenCheck.exists_user_of_passes hpasses
        exact .passed check user rfl rfl haccount hvalid
      · exact .failed check rfl
  | refreshing lookup =>
      rw [resumeAt]
      split
      · rename_i next hnext
        obtain ⟨request, rfl, hrequest⟩ := TokenLookup.requesting_of_waiting hnext
        obtain ⟨purpose, user, rfl, hemail, hchoose, hanswer⟩ | ⟨earlier, rfl, hemail⟩ := hrequest
        · exact .told purpose user request rfl hanswer hchoose hemail
        · exact .asked earlier request rfl hemail
      · exact .refused lookup rfl
      · rename_i token hend
        obtain ⟨server, email, assertion, response, rfl, hanswer, htoken⟩ :=
          TokenLookup.fetching_of_finished hend
        exact .issued server email assertion response token rfl hanswer htoken

theorem continued_resume (signing : Signing) (answer : signing.question.Answer) (now : Int)
    (identity : Identity) :
    Continued identity now now signing ⟨signing.question, answer⟩
      (signing.resume answer now identity) := by
  rw [resume_eq_resumeAt]
  exact signing.continued answer now now identity

theorem header?_eq_some {identity : Identity} {now : Int}
    {uri method nonce header : String} (h : header? identity now uri method nonce = some header) :
    ∃ token, identity.token = some token ∧
      Hawk.header uri method ⟨token.id, token.key⟩ { seconds := now.tdiv 1000, nonce } =
        .ok header := by
  rw [header?] at h
  split at h
  · cases h
  · rename_i token htoken
    split at h
    · rename_i made hmade
      cases h
      exact ⟨token, htoken, hmade⟩
    · cases h

theorem question_ne_user {signing : Signing} {request : TokenRequest}
    (h : signing.stage = .refreshing (.requesting request)) : signing.question ≠ .user := by
  rw [question, h]
  cases request <;> exact Question.noConfusion

/-- A request begins with a check of the token held, or with the question who is signed in. -/
theorem stage_start (identity : Identity) (now : Int) (uri method nonce : String) :
    (∃ check, (start identity now uri method nonce).stage = .checking check ∧
        identity.token = some check.token ∧ check.account = identity.account) ∨
      (start identity now uri method nonce).stage = refresh := by
  rw [start, TokenCheck.start?]
  cases identity.token with
  | none => exact .inr rfl
  | some token =>
      by_cases hexpired : now < token.expiration
      · exact .inl ⟨⟨token, identity.account⟩, by simp [hexpired], rfl, rfl⟩
      · exact .inr (by simp [hexpired])

section

variable {identity : Identity} {now : Int} {uri method nonce : String}

theorem account_of_start {check : TokenCheck}
    (h : (start identity now uri method nonce).stage = .checking check) :
    check.account = identity.account := by
  obtain ⟨other, hstage, -, haccount⟩ | hrefresh := stage_start identity now uri method nonce
  · rw [hstage] at h
    cases h
    exact haccount
  · rw [hrefresh] at h
    cases h

theorem purpose_of_start {purpose : TokenPurpose}
    (h : (start identity now uri method nonce).stage = .refreshing (.identifying purpose)) :
    purpose = .heldAccount := by
  obtain ⟨other, hstage, -⟩ | hrefresh := stage_start identity now uri method nonce
  · rw [hstage] at h
    cases h
  · rw [hrefresh] at h
    cases h
    rfl

theorem not_requests_start (email : String) :
    ¬ (start identity now uri method nonce).Requests email := by
  rintro ⟨request, h, -⟩
  obtain ⟨other, hstage, -⟩ | hrefresh := stage_start identity now uri method nonce
  · rw [hstage] at h
    cases h
  · rw [hrefresh] at h
    cases h

end

end Signing

/-! ### Whom a request has been told of -/

/-- Who is signed in, as one of the requests to be signed is told. -/
def Occurrence.report? (index : Nat) : Occurrence → Option (Option Account)
  | toSigning other ⟨.user, .ok user⟩ _ => if other = index then some user else none
  | _ => none

section

variable {index other : Nat} {given : Answered} {now : Int}

theorem Occurrence.report?_of_ne (h : other ≠ index) :
    (toSigning other given now).report? index = none := by
  rw [report?.eq_def]
  split
  · rename_i heq
    cases heq
    exact if_neg h
  · rfl

theorem Occurrence.report?_of_question_ne (h : given.question ≠ .user) :
    (toSigning other given now).report? index = none := by
  rw [report?.eq_def]
  split
  · rename_i heq
    cases heq
    exact absurd rfl h
  · rfl

end

namespace Scene

/-- Who was signed in when one of the requests to be signed was told for the last time. -/
def lastReport? (index : Nat) (occurrences : List Occurrence) : Option Account :=
  (occurrences.filterMap (·.report? index)).getLast?.join

section

variable {index : Nat} {occurrences : List Occurrence} {occurrence : Occurrence}

theorem lastReport?_concat {user : Option Account} (h : occurrence.report? index = some user) :
    lastReport? index (occurrences ++ [occurrence]) = user := by
  simp [lastReport?, h]

theorem lastReport?_concat_of_none (h : occurrence.report? index = none) :
    lastReport? index (occurrences ++ [occurrence]) = lastReport? index occurrences := by
  simp [lastReport?, h]

end

/-- Whether one of the requests to be signed has its header. -/
def Signed (scene : Scene) (index : Nat) (header : String) : Prop :=
  scene.signings[index]? = some (.finished (.ok (some header)))

/-- Whether the requests to be signed ask for tokens only of the account that they were told of, if
it is the one held. -/
structure Informed (occurrences : List Occurrence) (scene : Scene) : Prop where
  purpose : ∀ (index : Nat) (signing : Signing) (purpose : TokenPurpose),
    scene.signings[index]? = some (.waiting signing) →
      signing.stage = .refreshing (.identifying purpose) → purpose = .heldAccount
  report : ∀ (index : Nat) (signing : Signing) (email : String),
    scene.signings[index]? = some (.waiting signing) → signing.Requests email →
      (lastReport? index occurrences).map (·.email) = some email

variable {scene next : Scene} {occurrences : List Occurrence} {occurrence : Occurrence}

theorem Informed.of_same (h : scene.Informed occurrences)
    (hsignings : next.signings = scene.signings) (hreport : ∀ index, occurrence.report? index = none) :
    next.Informed (occurrences ++ [occurrence]) where
  purpose := by
    rw [hsignings]
    exact h.purpose
  report := by
    intro index signing email hsigning hrequests
    rw [hsignings] at hsigning
    rw [lastReport?_concat_of_none (hreport index)]
    exact h.report index signing email hsigning hrequests

theorem signings_called (scene : Scene) (call : Call) :
    (scene.called call).signings = scene.signings := by
  rcases call with _ | ⟨_ | _ | _⟩ <;> rfl

/-- Which pieces of work are under way where one has been added. -/
theorem getElem?_concat_eq_some {stretches : List (Stretch ω α)} {index : Nat}
    {stretch added : Stretch ω α} (h : (stretches ++ [added])[index]? = some stretch) :
    stretches[index]? = some stretch ∨ index = stretches.length ∧ stretch = added := by
  rw [List.getElem?_append] at h
  split at h
  · exact .inl h
  · rename_i hle
    rw [List.getElem?_singleton] at h
    split at h
    · cases h
      exact .inr ⟨by omega, rfl⟩
    · cases h

theorem getElem?_set_eq_some {stretches : List (Stretch ω α)} {index other : Nat}
    {stretch changed : Stretch ω α} (h : (stretches.set other changed)[index]? = some stretch) :
    other = index ∧ stretch = changed ∨ other ≠ index ∧ stretches[index]? = some stretch := by
  rw [List.getElem?_set] at h
  split at h
  · rename_i heq
    split at h
    · cases h
      exact .inl ⟨heq, rfl⟩
    · cases h
  · rename_i hne
    exact .inr ⟨hne, h⟩

theorem Informed.sign (h : scene.Informed occurrences) {uri method nonce : String} {now : Int}
    (hstep : scene.step? (.sign uri method nonce now) = some next) :
    next.Informed (occurrences ++ [.sign uri method nonce now]) := by
  cases hstep
  constructor
  · intro index signing purpose hsigning hstage
    rcases getElem?_concat_eq_some hsigning with hold | ⟨-, hnew⟩
    · exact h.purpose index signing purpose hold hstage
    · cases hnew
      exact Signing.purpose_of_start hstage
  · intro index signing email hsigning hrequests
    rw [lastReport?_concat_of_none rfl]
    rcases getElem?_concat_eq_some hsigning with hold | ⟨-, hnew⟩
    · exact h.report index signing email hold hrequests
    · cases hnew
      exact absurd hrequests (Signing.not_requests_start email)

theorem Informed.toSigning (h : scene.Informed occurrences) {index : Nat} {given : Answered}
    {now : Int} (hstep : scene.step? (.toSigning index given now) = some next) :
    next.Informed (occurrences ++ [.toSigning index given now]) := by
  obtain ⟨signing, answer, hsigning, rfl, rfl⟩ := step?_toSigning.mp hstep
  have hcontinued := signing.continued_resume answer now scene.identity
  generalize signing.resume answer now scene.identity = result at hcontinued ⊢
  constructor
  · intro other further purpose hfurther hstage
    rcases getElem?_set_eq_some hfurther with ⟨-, hresult⟩ | ⟨-, hold⟩
    · cases hcontinued <;> cases hresult <;> cases hstage
      rfl
    · exact h.purpose other further purpose hold hstage
  · intro other further email hfurther hrequests
    rcases getElem?_set_eq_some hfurther with ⟨rfl, hresult⟩ | ⟨hne, hold⟩
    · obtain ⟨request, hstage, rfl⟩ := hrequests
      cases hcontinued with
      | told purpose user request hasked hgiven hchoose hemail =>
          cases hresult
          cases hstage
          have hreport : (Occurrence.toSigning index ⟨signing.question, answer⟩ now).report? index =
              some (some user) := by
            rw [hgiven]
            exact if_pos rfl
          rw [lastReport?_concat hreport, Option.map_some, hemail]
      | asked earlier request hasked hemail =>
          cases hresult
          cases hstage
          rw [lastReport?_concat_of_none
            (Occurrence.report?_of_question_ne (Signing.question_ne_user hasked)), hemail]
          exact h.report index signing earlier.email hsigning ⟨earlier, hasked, rfl⟩
      | _ => cases hresult <;> cases hstage
    · rw [lastReport?_concat_of_none (Occurrence.report?_of_ne hne)]
      exact h.report other further email hold hrequests

theorem Informed.step (h : scene.Informed occurrences)
    (hstep : scene.step? occurrence = some next) : next.Informed (occurrences ++ [occurrence]) := by
  cases occurrence with
  | call call =>
      cases hstep
      exact h.of_same (scene.signings_called call) fun _ => rfl
  | sign uri method nonce now => exact h.sign hstep
  | toLogin index given now =>
      obtain ⟨login, answer, -, -, rfl⟩ := step?_toLogin.mp hstep
      exact h.of_same rfl fun _ => rfl
  | toSigning index given now => exact h.toSigning hstep

theorem informed_run {tokenServer : String}
    (hrun : (start tokenServer).run? occurrences = some scene) : scene.Informed occurrences := by
  induction occurrences using List.reverseRecOn generalizing scene with
  | nil =>
      cases hrun
      exact ⟨fun _ _ _ h => (by cases h), fun _ _ _ h => (by cases h)⟩
  | append_singleton occurrences occurrence ih =>
      rw [run?_concat] at hrun
      obtain ⟨middle, hmiddle, hstep⟩ := Option.bind_eq_some_iff.mp hrun
      exact (ih hmiddle).step hstep

end Scene

end SyncedBookmarks
