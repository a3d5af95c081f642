import SyncedBookmarks.Proofs.Refreshing

namespace SyncedBookmarks

/-! After a logout an identity has nobody's account and nobody's keys until the next call, whatever
answers still arrive. A token comes back only to a request that was waiting for it at the logout. -/

theorem TokenLookup.choose_heldAccount_of_none {identity : Identity} (h : identity.account = none)
    (user : Option Account) : choose identity .heldAccount user = .error .accountChanged := by
  cases user with
  | none => rfl
  | some user => simp [choose, h]

namespace Scene

/-- Whether one of the requests to be signed waits for a new token of an account. -/
def Awaits (scene : Scene) (index : Nat) (email : String) : Prop :=
  ∃ signing : Signing, scene.signings[index]? = some (.waiting signing) ∧ signing.Requests email

/-- Whether one of the requests to be signed is under way. -/
def Pends (scene : Scene) (index : Nat) : Prop :=
  ∃ signing : Signing, scene.signings[index]? = some (.waiting signing)

theorem Awaits.pends {scene : Scene} {index : Nat} {email : String} (h : scene.Awaits index email) :
    scene.Pends index :=
  h.imp fun _ => And.left

/-- What a logout leaves behind, and the answers that come after it, of a scene before it. -/
structure LoggedOut (before scene : Scene) : Prop where
  account : scene.identity.account = none
  keys : scene.identity.keys = none
  username : scene.identity.username = ""
  token : ∀ token, scene.identity.token = some token → ∃ index, before.Awaits index token.account
  late : ∀ (index : Nat) (login : Login), scene.logins[index]? = some (.waiting login) →
    login.generation < scene.identity.generation
  awaits : ∀ (index : Nat) (email : String), scene.Awaits index email → before.Awaits index email
  checks : ∀ (index : Nat) (signing : Signing) (check : TokenCheck),
    scene.signings[index]? = some (.waiting signing) → signing.stage = .checking check →
      before.Pends index ∨ check.account = none
  purpose : ∀ (index : Nat) (signing : Signing) (purpose : TokenPurpose),
    scene.signings[index]? = some (.waiting signing) →
      signing.stage = .refreshing (.identifying purpose) → purpose = .heldAccount
  signed : ∀ (index : Nat) (header : String), scene.Signed index header →
    before.Signed index header ∨
      before.Pends index ∧ ∃ other email, before.Awaits other email

variable {before scene next : Scene} {occurrence : Occurrence}

/-- No login is of the generation that a logout begins. -/
theorem late_logout (h : ∀ (index : Nat) (login : Login),
    scene.logins[index]? = some (.waiting login) →
      login.generation ≤ scene.identity.generation) (index : Nat) (login : Login)
    (hlogin : (scene.called (.event .logout)).logins[index]? = some (.waiting login)) :
    login.generation < (scene.called (.event .logout)).identity.generation := by
  rw [generation_called]
  rcases waiting_called hlogin with hold | ⟨rfl, -⟩
  · exact Nat.lt_succ_of_le (h index login hold)
  · simp [called, Identity.called, Identity.handle] at hlogin

theorem loggedOut_logout (hordered : before.Ordered) {occurrences : List Occurrence}
    (hinformed : before.Informed occurrences) :
    LoggedOut before (before.called (.event .logout)) where
  account := rfl
  keys := rfl
  username := rfl
  token := fun _ h => (by cases h)
  late := late_logout hordered.bounded
  awaits := fun _ _ h => h
  checks := fun _ signing _ h _ => .inl ⟨signing, h⟩
  purpose := hinformed.purpose
  signed := fun _ _ h => .inl h

theorem LoggedOut.again (h : LoggedOut before scene) :
    LoggedOut before (scene.called (.event .logout)) :=
  { h with
    account := rfl
    keys := rfl
    username := rfl
    token := fun _ h => (by cases h)
    late := late_logout fun index login hlogin => Nat.le_of_lt (h.late index login hlogin) }

/-- A login that has been taken over from changes nothing. -/
theorem LoggedOut.toLogin (h : LoggedOut before scene) {index : Nat} {given : Answered} {now : Int}
    (hstep : scene.step? (.toLogin index given now) = some next) : LoggedOut before next := by
  have hlate : ∀ (other : Nat) (login : Login), next.logins[other]? = some (.waiting login) →
      login.generation < scene.identity.generation := by
    intro other login hlogin
    obtain ⟨origin, horigin, hsame⟩ := waiting_step? hstep rfl hlogin
    rw [← hsame]
    exact h.late other origin horigin
  obtain ⟨login, answer, hlogin, rfl, rfl⟩ := step?_toLogin.mp hstep
  obtain ⟨stretch, hresume⟩ :=
    Login.resume_of_ne (Nat.ne_of_gt (h.late index login hlogin)) answer now
  rw [hresume] at hlate ⊢
  exact ⟨h.account, h.keys, h.username, h.token, hlate, h.awaits, h.checks, h.purpose, h.signed⟩

/-- A request that begins after a logout finds no account that it may ask a token for. -/
theorem LoggedOut.sign (h : LoggedOut before scene) {uri method nonce : String} {now : Int}
    (hstep : scene.step? (.sign uri method nonce now) = some next) : LoggedOut before next := by
  cases hstep
  refine { h with awaits := ?_, checks := ?_, purpose := ?_, signed := ?_ }
  · rintro index email ⟨signing, hsigning, hrequests⟩
    rcases getElem?_concat_eq_some hsigning with hold | ⟨-, hnew⟩
    · exact h.awaits index email ⟨signing, hold, hrequests⟩
    · cases hnew
      exact absurd hrequests (Signing.not_requests_start email)
  · intro index signing check hsigning hstage
    rcases getElem?_concat_eq_some hsigning with hold | ⟨-, hnew⟩
    · exact h.checks index signing check hold hstage
    · cases hnew
      exact .inr ((Signing.account_of_start hstage).trans h.account)
  · intro index signing purpose hsigning hstage
    rcases getElem?_concat_eq_some hsigning with hold | ⟨-, hnew⟩
    · exact h.purpose index signing purpose hold hstage
    · cases hnew
      exact Signing.purpose_of_start hstage
  · intro index header hsigned
    rcases getElem?_concat_eq_some hsigned with hold | ⟨-, hnew⟩
    · exact h.signed index header hold
    · cases hnew

/-- A stretch of a request leaves things so if what it stores and returns is of a request that was
waiting for a token at the logout. -/
theorem LoggedOut.set (h : LoggedOut before scene) {index : Nat} (token : Option Token)
    {stretch : Stretch Signing (Option String)}
    (htoken : ∀ held, token = some held → ∃ other, before.Awaits other held.account)
    (hawaits : ∀ signing email, stretch = .waiting signing → signing.Requests email →
      before.Awaits index email)
    (hchecks : ∀ signing check, stretch = .waiting signing → signing.stage ≠ .checking check)
    (hpurpose : ∀ signing purpose, stretch = .waiting signing →
      signing.stage = .refreshing (.identifying purpose) → purpose = .heldAccount)
    (hsigned : ∀ header, stretch = .finished (.ok (some header)) →
      before.Pends index ∧ ∃ other email, before.Awaits other email) :
    LoggedOut before
      { scene with
        identity := { scene.identity with token }
        signings := scene.signings.set index stretch } := by
  refine ⟨h.account, h.keys, h.username, htoken, h.late, ?_, ?_, ?_, ?_⟩
  · rintro other email ⟨signing, hsigning, hrequests⟩
    rcases getElem?_set_eq_some hsigning with ⟨rfl, hnew⟩ | ⟨-, hold⟩
    · exact hawaits signing email hnew.symm hrequests
    · exact h.awaits other email ⟨signing, hold, hrequests⟩
  · intro other signing check hsigning hstage
    rcases getElem?_set_eq_some hsigning with ⟨-, hnew⟩ | ⟨-, hold⟩
    · exact absurd hstage (hchecks signing check hnew.symm)
    · exact h.checks other signing check hold hstage
  · intro other signing purpose hsigning hstage
    rcases getElem?_set_eq_some hsigning with ⟨-, hnew⟩ | ⟨-, hold⟩
    · exact hpurpose signing purpose hnew.symm hstage
    · exact h.purpose other signing purpose hold hstage
  · intro other header hsigned'
    rcases getElem?_set_eq_some hsigned' with ⟨rfl, hnew⟩ | ⟨-, hold⟩
    · exact .inr (hsigned header hnew.symm)
    · exact h.signed other header hold

theorem LoggedOut.finish (h : LoggedOut before scene) {index : Nat} {token : Option Token}
    (htoken : ∀ held, token = some held → ∃ other, before.Awaits other held.account)
    {header : Option String}
    (hsigned : header.isSome → before.Pends index ∧ ∃ other email, before.Awaits other email) :
    LoggedOut before
      { scene with
        identity := { scene.identity with token }
        signings := scene.signings.set index (.finished (.ok header)) } := by
  refine h.set token htoken ?_ ?_ ?_ ?_
  · rintro _ _ ⟨⟩
  · rintro _ _ ⟨⟩
  · rintro _ _ ⟨⟩
  · rintro _ ⟨⟩
    exact hsigned rfl

theorem LoggedOut.goOn (h : LoggedOut before scene) {index : Nat} {signing : Signing}
    (hawaits : ∀ email, signing.Requests email → before.Awaits index email)
    (hchecks : ∀ check, signing.stage ≠ .checking check)
    (hpurpose : ∀ purpose, signing.stage = .refreshing (.identifying purpose) →
      purpose = .heldAccount) :
    LoggedOut before { scene with signings := scene.signings.set index (.waiting signing) } := by
  refine h.set scene.identity.token h.token ?_ ?_ ?_ ?_
  · rintro _ email ⟨⟩
    exact hawaits email
  · rintro _ check ⟨⟩
    exact hchecks check
  · rintro _ purpose ⟨⟩
    exact hpurpose purpose
  · rintro _ ⟨⟩

theorem LoggedOut.toSigning (h : LoggedOut before scene) {index : Nat} {given : Answered}
    {now : Int} (hstep : scene.step? (.toSigning index given now) = some next) :
    LoggedOut before next := by
  obtain ⟨signing, answer, hsigning, rfl, rfl⟩ := step?_toSigning.mp hstep
  have hcontinued := signing.continued_resume answer now scene.identity
  generalize signing.resume answer now scene.identity = result at hcontinued ⊢
  cases hcontinued with
  | passed check user hstage hgiven haccount hvalid =>
      refine h.finish h.token fun hheader => ?_
      obtain hpends | hnone := h.checks index signing check hsigning hstage
      · obtain ⟨header, hheader⟩ := Option.isSome_iff_exists.mp hheader
        obtain ⟨token, htoken, -⟩ := Signing.header?_eq_some hheader
        obtain ⟨other, hawaits⟩ := h.token token htoken
        exact ⟨hpends, other, token.account, hawaits⟩
      · rw [hnone] at haccount
        cases haccount
  | failed check hstage =>
      refine h.goOn ?_ ?_ ?_
      · rintro email ⟨request, hrefresh, -⟩
        cases hrefresh
      · rintro other ⟨⟩
      · rintro purpose ⟨⟩
        rfl
  | told purpose user request hstage hgiven hchoose hemail =>
      -- Without an account there is nobody that a token may be requested for.
      obtain rfl := h.purpose index signing purpose hsigning hstage
      rw [TokenLookup.choose_heldAccount_of_none h.account] at hchoose
      cases hchoose
  | asked earlier request hstage hemail =>
      refine h.goOn ?_ ?_ ?_
      · rintro email ⟨asked, hrequest, rfl⟩
        cases hrequest
        exact h.awaits index _ ⟨signing, hsigning, earlier, hstage, hemail.symm⟩
      · rintro other ⟨⟩
      · rintro purpose ⟨⟩
  | refused lookup hstage => exact h.finish h.token fun hheader => by cases hheader
  | issued server email assertion response token hstage hgiven htoken =>
      have hawaits : before.Awaits index email :=
        h.awaits index email ⟨signing, hsigning, _, hstage, rfl⟩
      refine h.finish ?_ fun _ => ⟨hawaits.pends, index, email, hawaits⟩
      rintro held ⟨⟩
      rw [htoken]
      exact ⟨index, hawaits⟩

theorem LoggedOut.step (h : LoggedOut before scene) (hstep : scene.step? occurrence = some next)
    (hcall : ∀ call, occurrence = .call call → call = .event .logout) : LoggedOut before next := by
  cases occurrence with
  | call call =>
      obtain rfl := hcall call rfl
      cases hstep
      exact h.again
  | sign uri method nonce now => exact h.sign hstep
  | toLogin index given now => exact h.toLogin hstep
  | toSigning index given now => exact h.toSigning hstep

theorem LoggedOut.run (h : LoggedOut before scene) {occurrences : List Occurrence}
    (hrun : scene.run? occurrences = some next)
    (hcalls : ∀ call, .call call ∈ occurrences → call = .event .logout) : LoggedOut before next := by
  induction occurrences generalizing scene with
  | nil => exact Option.some.inj hrun ▸ h
  | cons occurrence occurrences ih =>
      obtain ⟨middle, hstep, hrest⟩ := Option.bind_eq_some_iff.mp hrun
      refine ih (h.step hstep ?_) hrest fun call hcall => hcalls call (List.mem_cons_of_mem _ hcall)
      rintro call rfl
      exact hcalls call List.mem_cons_self

/-- Once a logout has been taken, and until another call than a logout, an identity has no account, no
keys and no name. It has a token, and a request gets its header, only if at the logout a request was
waiting for a token that it had asked for; and no request gets one that begins after the logout. -/
theorem logout_final {tokenServer : String} {earlier later : List Occurrence} {before after : Scene}
    (hearlier : (start tokenServer).run? earlier = some before)
    (hlater : before.run? (.call (.event .logout) :: later) = some after)
    (hcalls : ∀ call, .call call ∈ later → call = .event .logout) :
    after.identity.account = none ∧ after.identity.keys = none ∧ after.identity.username = "" ∧
      (∀ token, after.identity.token = some token →
        ∃ index, before.Awaits index token.account) ∧
      ∀ index header, after.Signed index header → before.Signed index header ∨
        before.Pends index ∧ ∃ other email, before.Awaits other email := by
  have hordered := (ordered_start tokenServer).run hearlier
  have hlogout := loggedOut_logout hordered (informed_run hearlier)
  have hend := hlogout.run (run?_cons (.call (.event .logout)) later ▸ hlater) hcalls
  exact ⟨hend.account, hend.keys, hend.username, hend.token, hend.signed⟩

/-- A request that has asked for a token. -/
def tokenAsked : List Occurrence :=
  [.call .startUp, .toLogin 0 ⟨.user, .ok (some ⟨"a", "", true⟩)⟩ 0,
    .sign "http://[::1]/" "GET" "n" 0, .toSigning 0 ⟨.user, .ok (some ⟨"a", "", true⟩)⟩ 0]

/-- A logout before the token is issued. -/
def issuedAfterLogout : List Occurrence :=
  [.call (.event .logout), .toSigning 0 ⟨.verification ⟨"a", "", true⟩, .ok ()⟩ 0,
    .toSigning 0 ⟨.assertion "http://[::1]:5000", .ok "shown"⟩ 0,
    .toSigning 0 ⟨.token "http://[::1]:5000" "shown", .ok ⟨"i", "k", 7, 60, "e"⟩⟩ 0]

theorem token_awaited_at_logout :
    ∃ before after, (start "http://[::1]:5000").run? tokenAsked = some before ∧
      before.run? issuedAfterLogout = some after ∧ after.identity.account = none ∧
      after.identity.keys = none ∧ (∃ index, before.Awaits index "a") ∧ before.Pends 0 := by
  let before : Scene :=
    { identity :=
        { tokenServer := "http://[::1]:5000", state := .initializing, account := some "a"
          generation := 1, listening := true }
      logins := [.waiting ⟨1, .requesting "a" (.identifying .heldAccount)⟩]
      signings := [.waiting ⟨"http://[::1]/", "GET", "n", .refreshing (.requesting
        (.verifying "http://[::1]:5000" ⟨"a", "", true⟩ "http://[::1]:5000"))⟩] }
  have hbefore : (start "http://[::1]:5000").run? tokenAsked = some before := rfl
  have hcalls : ∀ call, Occurrence.call call ∈ issuedAfterLogout.tail → call = .event .logout := by
    intro call hcall
    simp [issuedAfterLogout] at hcall
  have hend := logout_final hbefore (rfl : before.run? issuedAfterLogout = some _) hcalls
  obtain ⟨haccount, hkeys, -, htoken, hsigned⟩ := hend
  refine ⟨before, _, hbefore, rfl, haccount, hkeys, htoken _ rfl, ?_⟩
  obtain hold | ⟨hpends, -⟩ := hsigned 0 _ rfl
  · cases hold
  · exact hpends

/-- A token can be held, and a request signed with it, after a logout. -/
theorem token_outlives_logout :
    ∃ before after header, (start "http://[::1]:5000").run? tokenAsked = some before ∧
      before.run? issuedAfterLogout = some after ∧
      after.identity.token = some (Token.ofResponse ⟨"i", "k", 7, 60, "e"⟩ "a" 0) ∧
      after.Signed 0 header ∧ ¬ before.Signed 0 header := by
  refine ⟨_, _, _, rfl, rfl, rfl, rfl, ?_⟩
  intro hbefore
  cases hbefore

end Scene

end SyncedBookmarks
