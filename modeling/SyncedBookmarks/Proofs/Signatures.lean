import SyncedBookmarks.Proofs.Lifetimes
import SyncedBookmarks.Proofs.Refreshing

namespace SyncedBookmarks

/-! A request is signed with a token that is valid for the account of which it has been told, if the
token that was looked at is the one that is used, and a new one has any lifetime at all. -/

namespace Scene

/-- The token that a request is signed with is of the account that the account system has told the
request of last, and it has not expired when the clock is read for it; nor has it for the header,
unless it expires between the two readings. Another token must not have been stored since the
request began, and a new token must not expire as it comes. -/
theorem signed_with_valid_token {tokenServer : String} {occurrences : List Occurrence}
    {scene : Scene} (hrun : (start tokenServer).run? occurrences = some scene) {index : Nat}
    {signing : Signing} (hsigning : scene.signings[index]? = some (.waiting signing))
    {answer : signing.question.Answer} {checked signed : Int} {header : String}
    (hheader : (signing.resumeAt answer checked signed scene.identity).1 =
      .finished (.ok (some header)))
    (hkept : ∀ check, signing.stage = .checking check → scene.identity.token = some check.token)
    (hlasting : ∀ server assertion response,
      Answered.mk signing.question answer = ⟨.token server assertion, .ok response⟩ →
        0 < response.duration ∧ checked < lastTime) :
    ∃ (token : Token) (user : Account),
      Hawk.header signing.uri signing.method ⟨token.id, token.key⟩
          { seconds := signed.tdiv 1000, nonce := signing.nonce } = .ok header ∧
      lastReport? index (occurrences ++ [.toSigning index ⟨signing.question, answer⟩ checked]) =
        some user ∧
      token.validFor (some user.email) checked ∧
      (signed < token.expiration → token.validFor (some user.email) signed) := by
  have hcontinued := signing.continued answer checked signed scene.identity
  generalize signing.resumeAt answer checked signed scene.identity = result at hheader hcontinued
  cases hcontinued with
  | passed check user hstage hgiven haccount hvalid =>
      have hmade : Signing.header? scene.identity signed signing.uri signing.method signing.nonce =
          some header := Except.ok.inj (Stretch.finished.inj hheader)
      obtain ⟨token, htoken, hheader⟩ := Signing.header?_eq_some hmade
      obtain rfl := Option.some.inj (htoken.symm.trans (hkept check hstage))
      have hreport : (Occurrence.toSigning index ⟨signing.question, answer⟩ checked).report? index =
          some (some user) := by
        rw [hgiven]
        exact if_pos rfl
      exact ⟨check.token, user, hheader, lastReport?_concat hreport, hvalid, fun hsigned =>
        Token.validFor_iff.mpr ⟨hsigned, (Token.validFor_iff.mp hvalid).2⟩⟩
  | issued server email assertion response token hstage hgiven htoken =>
      have hmade : Signing.header? { scene.identity with token := some token } signed signing.uri
          signing.method signing.nonce = some header := Except.ok.inj (Stretch.finished.inj hheader)
      obtain ⟨held, hheld, hheader⟩ := Signing.header?_eq_some hmade
      obtain rfl := Option.some.inj hheld
      have hreport := (informed_run hrun).report index signing email hsigning ⟨_, hstage, rfl⟩
      obtain ⟨user, huser, rfl⟩ := Option.map_eq_some_iff.mp hreport
      obtain ⟨hduration, hnow⟩ := hlasting server assertion response hgiven
      subst htoken
      refine ⟨_, user, hheader, ?_, Token.validFor_iff.mpr
        ⟨Token.lt_expiration_ofResponse hduration hnow user.email, rfl⟩, fun hsigned =>
          Token.validFor_iff.mpr ⟨hsigned, rfl⟩⟩
      rw [lastReport?_concat_of_none
        (Occurrence.report?_of_question_ne (Signing.question_ne_user hstage))]
      exact huser
  | failed => cases hheader
  | told => cases hheader
  | asked => cases hheader
  | refused => cases hheader

/-- A request of an account without a token, up to the question to the token server. -/
def tokenRequested : List Occurrence :=
  [.call .startUp, .toLogin 0 ⟨.user, .ok (some ⟨"a", "", true⟩)⟩ 0,
    .sign "http://[::1]/" "GET" "n" 0, .toSigning 0 ⟨.user, .ok (some ⟨"a", "", true⟩)⟩ 0,
    .toSigning 0 ⟨.verification ⟨"a", "", true⟩, .ok ()⟩ 0,
    .toSigning 0 ⟨.assertion "http://[::1]:5000", .ok "shown"⟩ 0]

/-- The clock goes on from the arrival of the token, which lasts for a minute, to the header. -/
theorem request_signed_with_new_token :
    ∃ (header : String) (token : Token) (user : Account),
      Hawk.header "http://[::1]/" "GET" ⟨token.id, token.key⟩ { seconds := 2, nonce := "n" } =
        .ok header ∧
      lastReport? 0 (tokenRequested ++ [.toSigning 0 ⟨.token "http://[::1]:5000" "shown",
        .ok ⟨"i", "k", 7, 60, "e"⟩⟩ 1000]) = some user ∧
      token.validFor (some user.email) 1000 ∧
      (2000 < token.expiration → token.validFor (some user.email) 2000) := by
  let signing : Signing := ⟨"http://[::1]/", "GET", "n",
    .refreshing (.requesting (.fetching "http://[::1]:5000" "a" "shown"))⟩
  let scene : Scene :=
    { identity :=
        { tokenServer := "http://[::1]:5000", state := .initializing, account := some "a"
          generation := 1, listening := true }
      logins := [.waiting ⟨1, .requesting "a" (.identifying .heldAccount)⟩]
      signings := [.waiting signing] }
  have hrun : (start "http://[::1]:5000").run? tokenRequested = some scene := rfl
  have hlasting : ∀ server assertion response,
      Answered.mk (.token "http://[::1]:5000" "shown") (.ok ⟨"i", "k", 7, 60, "e"⟩) =
        ⟨.token server assertion, .ok response⟩ → 0 < response.duration ∧ (1000 : Int) < lastTime := by
    intro server assertion response heq
    cases heq
    decide
  exact ⟨_, @signed_with_valid_token _ _ scene hrun 0 signing rfl (.ok ⟨"i", "k", 7, 60, "e"⟩)
    1000 2000 _ rfl (fun _ h => (by cases h)) hlasting⟩

/-- A login that another follows before it has its keys, with a request in between that begins while
the token of the first is held and goes on when that of the second is. -/
def tokenReplaced : List Occurrence :=
  [.call .startUp, .toLogin 0 ⟨.user, .ok (some ⟨"a", "", true⟩)⟩ 0,
    .toLogin 0 ⟨.user, .ok (some ⟨"a", "", true⟩)⟩ 0,
    .toLogin 0 ⟨.verification ⟨"a", "", true⟩, .ok ()⟩ 0,
    .toLogin 0 ⟨.assertion "http://[::1]:5000", .ok "shown"⟩ 0,
    .toLogin 0 ⟨.token "http://[::1]:5000" "shown", .ok ⟨"i", "k", 7, 60, "e"⟩⟩ 0,
    .sign "http://[::1]/" "GET" "n" 0, .call (.event .login),
    .toLogin 1 ⟨.user, .ok (some ⟨"b", "", true⟩)⟩ 0,
    .toLogin 1 ⟨.user, .ok (some ⟨"b", "", true⟩)⟩ 0,
    .toLogin 1 ⟨.verification ⟨"b", "", true⟩, .ok ()⟩ 0,
    .toLogin 1 ⟨.assertion "http://[::1]:5000", .ok "shown"⟩ 0,
    .toLogin 1 ⟨.token "http://[::1]:5000" "shown", .ok ⟨"j", "l", 8, 60, "f"⟩⟩ 0,
    .toSigning 0 ⟨.user, .ok (some ⟨"a", "", true⟩)⟩ 0]

/-- A new token signs a request though it has expired as it comes; and a request whose token has been
checked is signed with another account's that has been stored meanwhile. -/
theorem invalid_tokens_sign :
    (∃ scene header,
      (start "http://[::1]:5000").run? (tokenRequested ++ [.toSigning 0
        ⟨.token "http://[::1]:5000" "shown", .ok ⟨"i", "k", 7, 0, "e"⟩⟩ 0]) = some scene ∧
      scene.Signed 0 header ∧
      Hawk.header "http://[::1]/" "GET" ⟨"i", "k"⟩ { seconds := 0, nonce := "n" } = .ok header ∧
      lastReport? 0 tokenRequested = some ⟨"a", "", true⟩ ∧
      ¬ (Token.ofResponse ⟨"i", "k", 7, 0, "e"⟩ "a" 0).validFor (some "a") 0) ∧
    ∃ scene header,
      (start "http://[::1]:5000").run? tokenReplaced = some scene ∧ scene.Signed 0 header ∧
      Hawk.header "http://[::1]/" "GET" ⟨"j", "l"⟩ { seconds := 0, nonce := "n" } = .ok header ∧
      lastReport? 0 tokenReplaced = some ⟨"a", "", true⟩ ∧
      ¬ (Token.ofResponse ⟨"j", "l", 8, 60, "f"⟩ "b" 0).validFor (some "a") 0 := by
  constructor
  · exact ⟨_, _, rfl, rfl, rfl, rfl, by decide⟩
  · exact ⟨_, _, rfl, rfl, rfl, rfl, by decide⟩

end Scene

end SyncedBookmarks
