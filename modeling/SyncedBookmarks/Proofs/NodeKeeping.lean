import SyncedBookmarks.Proofs.Conversing
import SyncedBookmarks.Proofs.LastCall

namespace SyncedBookmarks

/-! The storage node that a service remembers is the one of the account that it holds, unless an
event that is no logout has put another account in the place of the one that the node was asked
for. -/

/-- Whether the account system tells who is signed in whenever it is asked, and nothing happens while
questions are answered. -/
structure Respondent.Reports (respondent : Respondent σ) (signedIn : σ → Option Account) : Prop where
  user : ∀ world, (respondent.reply .user world).1.answer = some (.ok (signedIn world))
  quiet : ∀ question world, (respondent.reply question world).1.events = []
  same : ∀ question world, signedIn (respondent.reply question world).2 = signedIn world

theorem Respondent.Reports.told {respondent : Respondent σ} {signedIn : σ → Option Account}
    (hreports : respondent.Reports signedIn) {question : Question} {world : σ}
    {answer : question.Answer} {user : Option Account}
    (h : (respondent.reply question world).1.answer = some answer)
    (hgiven : Answered.mk question answer = ⟨.user, .ok user⟩) : user = signedIn world := by
  cases hgiven
  rw [hreports.user] at h
  cases h
  rfl

theorem LocalAccount.reports_user : respondent.Reports (·.provider.user) where
  user _ := rfl
  quiet _ _ := rfl
  same _ _ := rfl

/-- The account system of a file tells of a logout if and only if nobody is signed in any more. -/
theorem AccountProvider.logout_iff_of_reload {provider after : AccountProvider} {disk : Disk}
    {event : AccountEvent} (h : provider.reload disk = .ok (event, after)) :
    event = .logout ↔ after.user = none := by
  rw [reload] at h
  cases hread : readFile provider.path disk with
  | error cause => rw [hread] at h; cases h
  | ok current =>
      rw [hread] at h
      cases h
      cases current <;> simp [user, tell]

/-! ### Work in peace -/

namespace Conversation

variable {respondent : Respondent σ} {signedIn : σ → Option Account} {work : Work ω α}
  {stage : ω} {conversation : Conversation σ}

/-- A conversation in which an exchange has changed the identity, and the world to that after the
reply. -/
def replied (respondent : Respondent σ) (question : Question) (identity : Identity)
    (conversation : Conversation σ) : Conversation σ :=
  { conversation with
    identity
    world := (respondent.reply question conversation.world).2 }

theorem exchange_eq (hreports : respondent.Reports signedIn) :
    conversation.exchange respondent work stage =
      match (respondent.reply (work.question stage) conversation.world).1.answer with
      | none => (work.lapse stage,
          conversation.replied respondent (work.question stage) conversation.identity)
      | some answer =>
          let now := respondent.now (respondent.reply (work.question stage) conversation.world).2
          ((work.resume stage answer now conversation.identity).1,
            conversation.replied respondent (work.question stage)
              (work.resume stage answer now conversation.identity).2) := by
  rw [exchange]
  simp only [hreports.quiet, List.foldl_nil]
  cases (respondent.reply (work.question stage) conversation.world).1.answer <;> rfl

theorem exchange_of_answer (hreports : respondent.Reports signedIn)
    {answer : (work.question stage).Answer}
    (h : (respondent.reply (work.question stage) conversation.world).1.answer = some answer) :
    ∃ now, conversation.exchange respondent work stage =
      ((work.resume stage answer now conversation.identity).1,
        conversation.replied respondent (work.question stage)
          (work.resume stage answer now conversation.identity).2) := by
  rw [exchange_eq hreports, h]
  exact ⟨_, rfl⟩

theorem exchange_of_reports (hreports : respondent.Reports signedIn) :
    conversation.exchange respondent work stage = (work.lapse stage,
        conversation.replied respondent (work.question stage) conversation.identity) ∨
      ∃ answer, (respondent.reply (work.question stage) conversation.world).1.answer = some answer ∧
        ∃ now, conversation.exchange respondent work stage =
          ((work.resume stage answer now conversation.identity).1,
            conversation.replied respondent (work.question stage)
              (work.resume stage answer now conversation.identity).2) := by
  cases hanswer : (respondent.reply (work.question stage) conversation.world).1.answer with
  | none => exact .inl (by rw [exchange_eq hreports, hanswer])
  | some answer => exact .inr ⟨answer, rfl, exchange_of_answer hreports hanswer⟩

end Conversation

/-! ### Logins in peace -/

theorem LoginStage.account_advance {stage : LoginStage} (h : stage ≠ .identifying)
    (answer : (Login.question ⟨0, stage⟩).Answer) (now : Int) (identity : Identity) :
    (stage.advance answer now identity).2.account = identity.account := by
  cases stage with
  | identifying => exact absurd rfl h
  | requesting account lookup =>
      simp only [advance]
      split <;> rfl
  | unlocking account token =>
      simp only [advance]
      split
      · rfl
      · split <;> rfl

namespace Login

variable {login : Login} {identity : Identity}

/-- A login that has been taken over from, or knows who is signed in, leaves the account as it is. -/
theorem account_resume (h : identity.generation ≠ login.generation ∨ login.stage ≠ .identifying)
    (answer : login.question.Answer) (now : Int) :
    (login.resume answer now identity).2.account = identity.account := by
  by_cases hcurrent : identity.generation = login.generation
  · rw [resume_of_eq hcurrent]
    exact LoginStage.account_advance (h.resolve_left fun hne => hne hcurrent) answer now identity
  · obtain ⟨_, hresume⟩ := resume_of_ne hcurrent answer now
    rw [hresume]

/-- A login that goes on does not ask again who is signed in. -/
theorem known_of_waiting {next : Login} {answer : login.question.Answer} {now : Int}
    (h : (login.resume answer now identity).1 = .waiting next) :
    identity.generation ≠ next.generation ∨ next.stage ≠ .identifying := by
  obtain ⟨generation, stage⟩ := login
  by_cases hcurrent : identity.generation = generation
  · obtain ⟨other, further⟩ := next
    refine .inr ?_
    rintro rfl
    exact resume_ne_identifying hcurrent answer now other h
  · rw [generation_of_waiting h]
    exact .inl hcurrent

end Login

namespace Conversation

variable {respondent : Respondent σ} {signedIn : σ → Option Account}
  {conversation middle after : Conversation σ}

/-- What a piece of work that is done in peace leaves as it is. -/
structure Keeps (signedIn : σ → Option Account) (conversation after : Conversation σ) : Prop where
  logins : after.logins = conversation.logins
  node : after.identity.node = conversation.identity.node
  generation : after.identity.generation = conversation.identity.generation
  user : signedIn after.world = signedIn conversation.world

theorem Keeps.refl (conversation : Conversation σ) : conversation.Keeps signedIn conversation :=
  ⟨rfl, rfl, rfl, rfl⟩

theorem Keeps.trans (h : conversation.Keeps signedIn middle) (h' : middle.Keeps signedIn after) :
    conversation.Keeps signedIn after :=
  ⟨h'.logins.trans h.logins, h'.node.trans h.node, h'.generation.trans h.generation,
    h'.user.trans h.user⟩

theorem keeps_replied (hreports : respondent.Reports signedIn) {identity : Identity}
    (hnode : identity.node = conversation.identity.node)
    (hgeneration : identity.generation = conversation.identity.generation) (question : Question) :
    conversation.Keeps signedIn (conversation.replied respondent question identity) :=
  ⟨rfl, hnode, hgeneration, hreports.same question conversation.world⟩

theorem keeps_resumed (hreports : respondent.Reports signedIn) (login : Login)
    (answer : login.question.Answer) (now : Int) :
    conversation.Keeps signedIn (conversation.replied respondent login.question
      (login.resume answer now conversation.identity).2) := by
  obtain ⟨hgeneration, -, hnode⟩ := login.resume_fixed answer now conversation.identity
  exact keeps_replied hreports hnode hgeneration _

/-- How far a login comes that does not change the account any more. -/
structure Proceeds (signedIn : σ → Option Account) (conversation : Conversation σ)
    (stretch : Stretch Login Unit) (middle : Conversation σ) : Prop where
  keeps : conversation.Keeps signedIn middle
  account : middle.identity.account = conversation.identity.account
  known : ∀ next : Login, stretch = .waiting next →
    middle.identity.generation ≠ next.generation ∨ next.stage ≠ .identifying

theorem Proceeds.exchange (hreports : respondent.Reports signedIn) {login : Login}
    {middle : Conversation σ} (h : conversation.Proceeds signedIn (.waiting login) middle) :
    conversation.Proceeds signedIn (middle.exchange respondent Login.work login).1
      (middle.exchange respondent Login.work login).2 := by
  obtain htimeout | ⟨answer, -, now, hresume⟩ :=
    @exchange_of_reports _ _ _ respondent signedIn Login.work login middle hreports
  · rw [htimeout]
    exact ⟨h.keeps.trans (keeps_replied hreports rfl rfl _), h.account, nofun⟩
  · have hsame := Login.account_resume (h.known login rfl) answer now
    have hgeneration := (login.resume_fixed answer now middle.identity).1
    rw [hresume]
    refine ⟨h.keeps.trans (keeps_resumed hreports login answer now), hsame.trans h.account, ?_⟩
    intro next hwaiting
    exact (Login.known_of_waiting hwaiting).imp_left fun hne heq =>
      hne (hgeneration.symm.trans heq)

/-- The account after a login that does not change it any more. -/
theorem run_login_of_known (hreports : respondent.Reports signedIn) {login : Login}
    (h : conversation.identity.generation ≠ login.generation ∨ login.stage ≠ .identifying)
    (fuel : Nat) :
    conversation.Keeps signedIn (conversation.run respondent Login.work fuel login).2 ∧
      (conversation.run respondent Login.work fuel login).2.identity.account =
        conversation.identity.account := by
  have hstart : conversation.Proceeds signedIn (.waiting login) conversation :=
    ⟨.refl conversation, rfl, fun next hnext => by cases hnext; exact h⟩
  have hend := run_induction (conversation.Proceeds signedIn)
    (fun _ _ hwaiting => hwaiting.exchange hreports)
    (fun _ _ hwaiting => ⟨hwaiting.keeps, hwaiting.account, nofun⟩) fuel hstart
  exact ⟨hend.keeps, hend.account⟩

/-- A login that begins puts the account in that is signed in. -/
theorem run_login_of_current (hreports : respondent.Reports signedIn) {login : Login}
    (hstage : login.stage = .identifying)
    (hcurrent : conversation.identity.generation = login.generation) :
    conversation.Keeps signedIn (conversation.run respondent Login.work patience login).2 ∧
      (conversation.run respondent Login.work patience login).2.identity.account =
        (signedIn conversation.world).map (·.email) := by
  obtain ⟨generation, stage⟩ := login
  obtain rfl : stage = .identifying := hstage
  obtain rfl : conversation.identity.generation = generation := hcurrent
  let login : Login := ⟨conversation.identity.generation, .identifying⟩
  let identified := login.identified (.ok (signedIn conversation.world)) conversation.identity
  obtain ⟨now, hexchange⟩ : ∃ _ : Int, conversation.exchange respondent Login.work login =
      (identified.1, conversation.replied respondent .user identified.2) :=
    exchange_of_answer hreports (hreports.user conversation.world)
  have hkeeps : conversation.Keeps signedIn (conversation.replied respondent .user identified.2) :=
    keeps_resumed hreports login (.ok (signedIn conversation.world)) now
  -- The account changes with the first answer only, so the induction of a run begins after it.
  rw [patience, run, hexchange]
  cases huser : signedIn conversation.world with
  | none =>
      have hend : identified = (Login.ended,
          { conversation.identity with account := none }.unmet .notSignedIn) := by
        simp [identified, huser, login, Login.identified, Login.giveUp, Login.whileCurrent,
          Identity.unmet]
      rw [hend] at hkeeps ⊢
      exact ⟨hkeeps, rfl⟩
  | some user =>
      have hnext : identified =
          (.waiting { login with stage := .requesting user.email (.identifying .heldAccount) },
            { conversation.identity with account := some user.email }) := by
        simp [identified, huser, login, Login.identified]
      rw [hnext] at hkeeps ⊢
      obtain ⟨hrest, haccount⟩ := @run_login_of_known _ respondent signedIn
        (conversation.replied respondent .user
          { conversation.identity with account := some user.email }) hreports
        { login with stage := .requesting user.email (.identifying .heldAccount) }
        (.inr LoginStage.noConfusion) _
      exact ⟨hkeeps.trans hrest, haccount⟩

/-- Whether the account held is the one that is signed in, or a login under way will hold it. -/
structure Attuned (signedIn : σ → Option Account) (conversation : Conversation σ) : Prop where
  begin : ∀ login ∈ conversation.logins, login.stage = .identifying
  account : (∃ login ∈ conversation.logins,
      login.generation = conversation.identity.generation) ∨
    conversation.identity.account = (signedIn conversation.world).map (·.email)

theorem Keeps.attuned (h : conversation.Keeps signedIn after)
    (hbegin : ∀ login ∈ conversation.logins, login.stage = .identifying)
    (haccount : (∃ login ∈ conversation.logins,
        login.generation = conversation.identity.generation) ∨
      after.identity.account = (signedIn conversation.world).map (·.email)) :
    after.Attuned signedIn := by
  constructor
  · rw [h.logins]
    exact hbegin
  · rw [h.logins, h.generation, h.user]
    exact haccount

/-- Each of the logins leaves the account to a later one, or puts in whose it is. -/
theorem Attuned.run_login (hreports : respondent.Reports signedIn) {login : Login}
    {logins : List Login} (h : conversation.Attuned signedIn)
    (hlogins : conversation.logins = login :: logins) :
    let done := (({ conversation with logins }).run respondent Login.work patience login).2
    ({ conversation with logins }).Keeps signedIn done ∧ done.Attuned signedIn := by
  have hbegin := h.begin
  have haccount := h.account
  rw [hlogins] at hbegin haccount
  rw [List.forall_mem_cons] at hbegin
  by_cases hcurrent : conversation.identity.generation = login.generation
  · obtain ⟨hkeeps, hheld⟩ := @run_login_of_current _ respondent signedIn
      { conversation with logins } hreports login hbegin.1 hcurrent
    exact ⟨hkeeps, hkeeps.attuned hbegin.2 (.inr hheld)⟩
  · obtain ⟨hkeeps, hheld⟩ := @run_login_of_known _ respondent signedIn
      { conversation with logins } hreports login (.inl hcurrent) patience
    refine ⟨hkeeps, hkeeps.attuned hbegin.2 (haccount.imp ?_ hheld.trans)⟩
    rintro ⟨other, hother, hsame⟩
    rcases List.mem_cons.mp hother with rfl | hother
    · exact absurd hsame.symm hcurrent
    · exact ⟨other, hother, hsame⟩

/-- Whether all logins are done, so that the account held is the one that is signed in, and the node
is still the one remembered before. -/
structure AtRest (signedIn : σ → Option Account) (conversation after : Conversation σ) : Prop where
  logins : after.logins = []
  account : after.identity.account = (signedIn conversation.world).map (·.email)
  node : after.identity.node = conversation.identity.node
  user : signedIn after.world = signedIn conversation.world

theorem Attuned.atRest (h : conversation.Attuned signedIn) (hlogins : conversation.logins = []) :
    conversation.AtRest signedIn conversation := by
  refine ⟨hlogins, h.account.resolve_left ?_, rfl, rfl⟩
  rintro ⟨login, hlogin, -⟩
  rw [hlogins] at hlogin
  cases hlogin

theorem Keeps.atRest (h : conversation.Keeps signedIn middle) (h' : middle.AtRest signedIn after) :
    conversation.AtRest signedIn after :=
  ⟨h'.logins, by rw [h'.account, h.user], h'.node.trans h.node, h'.user.trans h.user⟩

theorem Attuned.settle (hreports : respondent.Reports signedIn) (h : conversation.Attuned signedIn)
    {fuel : Nat} (hfuel : conversation.logins.length ≤ fuel) :
    conversation.AtRest signedIn (conversation.settle respondent fuel) := by
  induction fuel generalizing conversation with
  | zero => exact h.atRest (List.eq_nil_of_length_eq_zero (Nat.le_zero.mp hfuel))
  | succ fuel ih =>
      rw [Conversation.settle]
      split
      · rename_i hlogins
        exact h.atRest hlogins
      · rename_i login logins hlogins
        obtain ⟨hkeeps, hattuned⟩ := h.run_login hreports hlogins
        rw [hlogins, List.length_cons] at hfuel
        have hrest := hkeeps.atRest
          (ih hattuned (hkeeps.logins ▸ Nat.le_of_succ_le_succ hfuel))
        exact ⟨hrest.logins, hrest.account, hrest.node, hrest.user⟩

end Conversation

/-! ### Lookups in peace -/

/-- Whether no token but one of the account that is signed in can come of a lookup. -/
def TokenLookup.Concerns (user : Option Account) : TokenLookup → Prop
  | .identifying _ => True
  | .requesting request => user.map (·.email) = some request.email

/-- What comes of a lookup for the account that is signed in. -/
def Stretch.Concerns (user : Option Account) : Stretch TokenLookup Token → Prop
  | .waiting lookup => lookup.Concerns user
  | .finished outcome => ∀ token, outcome = .ok token → user.map (·.email) = some token.account

theorem TokenLookup.concerns_resume {lookup : TokenLookup} {user : Option Account}
    (h : lookup.Concerns user) {answer : lookup.question.Answer}
    (htold : ∀ told, Answered.mk lookup.question answer = ⟨.user, .ok told⟩ → told = user)
    (now : Int) (identity : Identity) : (lookup.resume answer now identity).Concerns user := by
  cases hresume : lookup.resume answer now identity with
  | waiting next =>
      obtain ⟨request, rfl, ⟨purpose, told, -, hemail, -, hanswer⟩ | ⟨earlier, rfl, hemail⟩⟩ :=
        requesting_of_waiting hresume
      · obtain rfl := htold (some told) hanswer
        exact congrArg some hemail.symm
      · exact h.trans (congrArg some hemail.symm)
  | finished outcome =>
      rintro token rfl
      obtain ⟨server, email, assertion, response, rfl, -, rfl⟩ := fetching_of_finished hresume
      exact h

namespace Conversation

variable {respondent : Respondent σ} {signedIn : σ → Option Account} {conversation : Conversation σ}

/-- How far a lookup of a token comes. -/
structure LooksUp (signedIn : σ → Option Account) (conversation : Conversation σ)
    (stretch : Stretch TokenLookup Token) (middle : Conversation σ) : Prop where
  keeps : conversation.Keeps signedIn middle
  same : middle.identity = conversation.identity
  concerns : stretch.Concerns (signedIn conversation.world)

theorem LooksUp.exchange (hreports : respondent.Reports signedIn) {lookup : TokenLookup}
    {middle : Conversation σ} (h : conversation.LooksUp signedIn (.waiting lookup) middle) :
    conversation.LooksUp signedIn (middle.exchange respondent TokenLookup.work lookup).1
      (middle.exchange respondent TokenLookup.work lookup).2 := by
  have hreplied : conversation.Keeps signedIn
      (middle.replied respondent lookup.question middle.identity) :=
    h.keeps.trans (keeps_replied hreports rfl rfl _)
  obtain htimeout | ⟨answer, hanswer, now, hresume⟩ :=
    @exchange_of_reports _ _ _ respondent signedIn TokenLookup.work lookup middle hreports
  · rw [htimeout]
    exact ⟨hreplied, h.same, nofun⟩
  · rw [hresume]
    refine ⟨hreplied, h.same, lookup.concerns_resume h.concerns ?_ now middle.identity⟩
    intro told hgiven
    exact (hreports.told hanswer hgiven).trans h.keeps.user

/-- A token that is looked up for anybody is of whoever is signed in. -/
theorem run_lookup (hreports : respondent.Reports signedIn) (purpose : TokenPurpose) (fuel : Nat) :
    let ended := conversation.run respondent TokenLookup.work fuel (.identifying purpose)
    (conversation.Keeps signedIn ended.2 ∧ ended.2.identity = conversation.identity) ∧
      (Stretch.finished ended.1).Concerns (signedIn conversation.world) := by
  have hstart : conversation.LooksUp signedIn (.waiting (.identifying purpose)) conversation :=
    ⟨.refl conversation, rfl, trivial⟩
  have hend := run_induction (conversation.LooksUp signedIn)
    (fun _ _ hwaiting => hwaiting.exchange hreports)
    (fun _ _ hwaiting => ⟨hwaiting.keeps, hwaiting.same, nofun⟩) fuel hstart
  exact ⟨⟨hend.keeps, hend.same⟩, hend.concerns⟩

theorem Attuned.lookUpToken (hreports : respondent.Reports signedIn)
    (h : conversation.Attuned signedIn) (hfew : conversation.logins.length ≤ crowd)
    (purpose : TokenPurpose) :
    conversation.AtRest signedIn (conversation.lookUpToken respondent purpose).2 ∧
      ∀ token, (conversation.lookUpToken respondent purpose).1 = .ok token →
        (signedIn conversation.world).map (·.email) = some token.account := by
  obtain ⟨⟨hkeeps, hsame⟩, hconcerns⟩ :=
    @run_lookup _ respondent signedIn conversation hreports purpose patience
  have hattuned := hkeeps.attuned h.begin (hsame ▸ h.account)
  exact ⟨hkeeps.atRest (hattuned.settle hreports (hkeeps.logins ▸ hfew)), hconcerns⟩

/-! ### Turns -/

/-- The token that is looked up for the storage node, where none is remembered. -/
def found (respondent : Respondent σ) (conversation : Conversation σ) : List Token :=
  match conversation.identity.node with
  | some _ => []
  | none => (conversation.lookUpToken respondent .anyAccount).1.toOption.toList

/-- Whether a node that is remembered comes with a token that was issued for the account held, and
still signed in. -/
structure Placed (signedIn : σ → Option Account) (tokens : List Token)
    (conversation : Conversation σ) : Prop where
  attuned : conversation.Attuned signedIn
  few : conversation.logins.length ≤ 1
  node : ∀ url, conversation.identity.node = some url → ∃ token ∈ tokens,
    Cluster.ofEndpoint token.endpoint = .ok url ∧
      conversation.identity.account = some token.account ∧
      (signedIn conversation.world).map (·.email) = some token.account

variable {tokens : List Token}

theorem AtRest.placed {after : Conversation σ} (h : conversation.AtRest signedIn after)
    (hnode : ∀ url, conversation.identity.node = some url → ∃ token ∈ tokens,
      Cluster.ofEndpoint token.endpoint = .ok url ∧
        (signedIn conversation.world).map (·.email) = some token.account) :
    after.Placed signedIn tokens := by
  refine ⟨⟨?_, .inr (by rw [h.account, h.user])⟩, by simp [h.logins], fun url hurl => ?_⟩
  · intro login hlogin
    rw [h.logins] at hlogin
    cases hlogin
  · obtain ⟨token, htoken, hendpoint, haccount⟩ := hnode url (h.node ▸ hurl)
    exact ⟨token, htoken, hendpoint, h.account.trans haccount, by rw [h.user, haccount]⟩

theorem Placed.mono {more : List Token} (h : conversation.Placed signedIn tokens)
    (hmore : tokens ⊆ more) : conversation.Placed signedIn more where
  attuned := h.attuned
  few := h.few
  node := fun url hurl =>
    have ⟨token, htoken, hrest⟩ := h.node url hurl
    ⟨token, hmore htoken, hrest⟩

/-- What is asked for anew is of the account that is signed in. -/
theorem Placed.node_turn (hreports : respondent.Reports signedIn)
    (h : conversation.Placed signedIn tokens) :
    (conversation.node respondent).2.Placed signedIn (tokens ++ conversation.found respondent) := by
  obtain ⟨hrest, hconcerns⟩ := h.attuned.lookUpToken hreports
    (Nat.le_trans h.few (by decide)) .anyAccount
  rw [Conversation.node, found]
  cases hnode : conversation.identity.node with
  | some url => exact h.mono (List.subset_append_left tokens _)
  | none =>
      -- A lookup remembers no node, so this holds whatever becomes of the endpoint.
      have hplaced : (conversation.lookUpToken respondent .anyAccount).2.Placed signedIn
          (tokens ++ (conversation.lookUpToken respondent .anyAccount).1.toOption.toList) :=
        hrest.placed fun url hurl => by rw [hnode] at hurl; cases hurl
      dsimp only
      rw [resolveNode]
      generalize conversation.lookUpToken respondent .anyAccount = lookedUp at *
      obtain ⟨cause | token, after⟩ := lookedUp
      · exact hplaced
      · dsimp only
        cases hendpoint : Cluster.ofEndpoint token.endpoint with
        | error cause => exact hplaced
        | ok url =>
            have haccount := hconcerns token rfl
            refine ⟨⟨hplaced.attuned.begin, hplaced.attuned.account⟩, hplaced.few, ?_⟩
            rintro _ ⟨⟩
            exact ⟨token, List.mem_append_right tokens (List.mem_singleton_self token), hendpoint,
              hrest.account.trans haccount, by rw [hrest.user, haccount]⟩

/-- The node is remembered that is returned. -/
theorem node_eq_of_node {url : String} {after : Conversation σ}
    (h : conversation.node respondent = (.ok url, after)) : after.identity.node = some url := by
  rw [Conversation.node] at h
  split at h
  · rename_i hnode
    cases h
    exact hnode
  · split at h
    · cases h
      rfl
    · cases h

theorem Placed.logout (h : conversation.Placed signedIn tokens) {world : σ}
    (hworld : signedIn world = none) :
    ({ conversation with world }.take respondent .logout).2.Placed signedIn tokens := by
  have hlogins : ({ conversation with world }.take respondent .logout).2.logins =
      conversation.logins := List.append_nil _
  have haccount : none = (signedIn world).map (·.email) := by rw [hworld]; rfl
  refine ⟨⟨?_, .inr haccount⟩, ?_, fun _ hurl => by cases hurl⟩
  · rw [hlogins]
    exact h.attuned.begin
  · rw [hlogins]
    exact h.few

theorem Placed.login (hreports : respondent.Reports signedIn)
    (h : conversation.Placed signedIn tokens) {world : σ}
    (hworld : conversation.identity.node.isSome →
      (signedIn world).map (·.email) = (signedIn conversation.world).map (·.email))
    {event : AccountEvent} (hevent : event ≠ .logout) :
    ({ conversation with world }.take respondent event).2.Placed signedIn tokens := by
  let told : Conversation σ := { conversation with world }.startLogin
  have htake : ({ conversation with world }.take respondent event).2 = told.settle respondent crowd := by
    cases event with
    | logout => exact absurd rfl hevent
    | login => rfl
    | verified => rfl
  have hlogins : told.logins =
      conversation.logins ++ [⟨conversation.identity.generation + 1, .identifying⟩] := rfl
  -- Until it is settled the account may be another one's, but the new login will change that.
  have hattuned : told.Attuned signedIn := by
    refine ⟨?_, .inl ⟨⟨conversation.identity.generation + 1, .identifying⟩, by simp [hlogins], rfl⟩⟩
    intro login hlogin
    rw [hlogins] at hlogin
    rcases List.mem_append.mp hlogin with hold | hnew
    · exact h.attuned.begin login hold
    · rw [List.mem_singleton.mp hnew]
  have hfew : told.logins.length ≤ crowd := by
    rw [hlogins, List.length_append, crowd]
    have hone := h.few
    simp only [List.length_singleton]
    omega
  rw [htake]
  refine (hattuned.settle hreports hfew).placed fun url hurl => ?_
  have hremembered : conversation.identity.node = some url := hurl
  obtain ⟨token, htoken, hendpoint, -, haccount⟩ := h.node url hremembered
  exact ⟨token, htoken, hendpoint, (hworld (by rw [hremembered]; rfl)).trans haccount⟩

end Conversation

/-! ### Runs of a service -/

/-- What is done with a service: it is told of an event, after a change of what the event is about, or
asked for its storage node. -/
inductive Turn (σ : Type) where
  | told (change : σ → σ) (event : AccountEvent)
  | node

namespace Service

variable {respondent : Respondent σ} {signedIn : σ → Option Account} {service : Service σ}

def turn (respondent : Respondent σ) (service : Service σ) : Turn σ → Service σ
  | .told change event =>
      (service.converse fun conversation =>
        { conversation with world := change conversation.world }.take respondent event).2
  | .node => (service.node respondent).2

def turns (respondent : Respondent σ) (service : Service σ) (turns : List (Turn σ)) : Service σ :=
  turns.foldl (turn respondent) service

/-- The tokens that are issued in a turn: what is looked up for the node, and what the logins leave
behind that are done meanwhile. -/
def issued (respondent : Respondent σ) (service : Service σ) (turn : Turn σ) : List Token :=
  let lookedUp :=
    match turn with
    | .told _ _ => []
    | .node => service.conversation.found respondent
  lookedUp ++ (service.turn respondent turn).conversation.identity.token.toList

def tokens (respondent : Respondent σ) : Service σ → List (Turn σ) → List Token
  | _, [] => []
  | service, turn :: turns =>
      service.issued respondent turn ++ tokens respondent (service.turn respondent turn) turns

/-- Whether a logout is told of only when nobody is signed in, and anything else, while a node is
remembered, only when the same account is still signed in. -/
def Expects (signedIn : σ → Option Account) (service : Service σ) : Turn σ → Prop
  | .told change .logout => signedIn (change service.conversation.world) = none
  | .told change _ => service.conversation.identity.node.isSome →
      (signedIn (change service.conversation.world)).map (·.email) =
        (signedIn service.conversation.world).map (·.email)
  | .node => True

/-- What the account system of a file tells when the file is read again is to be expected, unless it
replaces an account whose node is remembered. -/
theorem expects_reload {service : Service LocalAccount} {disk : Disk} {event : AccountEvent}
    {provider : AccountProvider}
    (hreload : service.conversation.world.provider.reload disk = .ok (event, provider))
    (hkept : service.conversation.identity.node.isSome → event ≠ .logout →
      provider.user.map (·.email) = service.conversation.world.provider.user.map (·.email)) :
    service.Expects (·.provider.user) (.told (fun account => { account with provider }) event) := by
  cases event with
  | logout => exact (AccountProvider.logout_iff_of_reload hreload).mp rfl
  | login => exact fun hremembered => hkept hremembered (by decide)
  | verified => exact fun hremembered => hkept hremembered (by decide)

/-- Whether every turn of a run is one to be expected. -/
def ExpectsAll (respondent : Respondent σ) (signedIn : σ → Option Account) :
    Service σ → List (Turn σ) → Prop
  | _, [] => True
  | service, turn :: turns =>
      service.Expects signedIn turn ∧
        ExpectsAll respondent signedIn (service.turn respondent turn) turns

theorem conversation_node (respondent : Respondent σ) (service : Service σ) :
    (service.node respondent).2.conversation = (service.conversation.node respondent).2 := by
  rw [node]
  split <;> rename_i hnode <;> exact congrArg (·.2.conversation) hnode.symm

theorem node_of_node {url : String} {after : Service σ}
    (h : service.node respondent = (.ok url, after)) :
    service.conversation.node respondent = (.ok url, after.conversation) := by
  rw [node, converse] at h
  generalize service.conversation.node respondent = result at h ⊢
  obtain ⟨cause | node, conversation⟩ := result
  · cases h
  · cases h
    rfl

theorem placed_start (settings : Settings) (database : Database) (world : σ) :
    (start settings database world).conversation.Placed signedIn [] := by
  refine ⟨⟨?_, .inl ⟨⟨1, .identifying⟩, List.mem_cons_self, rfl⟩⟩, Nat.le_refl 1, ?_⟩
  · rintro login hlogin
    rw [List.mem_singleton.mp hlogin]
  · rintro url hurl
    cases hurl

theorem placed_turn (hreports : respondent.Reports signedIn) {tokens : List Token} {turn : Turn σ}
    (h : service.conversation.Placed signedIn tokens) (hexpects : service.Expects signedIn turn) :
    (service.turn respondent turn).conversation.Placed signedIn
      (tokens ++ service.issued respondent turn) := by
  cases turn with
  | told change event =>
      let changed : Conversation σ :=
        { service.conversation with world := change service.conversation.world }
      have htold : (changed.take respondent event).2.Placed signedIn tokens := by
        cases event with
        | logout => exact h.logout hexpects
        | login => exact h.login hreports hexpects (by decide)
        | verified => exact h.login hreports hexpects (by decide)
      exact htold.mono (List.subset_append_left tokens _)
  | node =>
      have hplaced := h.node_turn hreports
      rw [← conversation_node] at hplaced
      refine hplaced.mono ?_
      rw [issued, ← List.append_assoc]
      exact List.subset_append_left _ _

theorem tokens_concat (turns : List (Turn σ)) (turn : Turn σ) :
    service.tokens respondent (turns ++ [turn]) =
      service.tokens respondent turns ++ (service.turns respondent turns).issued respondent turn := by
  induction turns generalizing service with
  | nil => exact List.append_nil _
  | cons first turns ih =>
      rw [List.cons_append, tokens, ih, tokens, List.append_assoc]
      rfl

theorem placed_turns (hreports : respondent.Reports signedIn) {tokens : List Token}
    {turns : List (Turn σ)} (h : service.conversation.Placed signedIn tokens)
    (hexpects : service.ExpectsAll respondent signedIn turns) :
    (service.turns respondent turns).conversation.Placed signedIn
      (tokens ++ service.tokens respondent turns) := by
  induction turns generalizing service tokens with
  | nil => exact h.mono (List.subset_append_left tokens _)
  | cons turn turns ih =>
      rw [Service.tokens, ← List.append_assoc]
      exact ih (placed_turn hreports h hexpects.1) hexpects.2

/-- The storage node that a service returns is the one that has come with a token issued for the
account that it holds. No account must have been put in the place of another while the node was
remembered, but after a logout; and a logout must leave nobody signed in. -/
theorem node_of_held_account (hreports : respondent.Reports signedIn) {settings : Settings}
    {database : Database} {world : σ} {turns : List (Turn σ)}
    (hexpects : (start settings database world).ExpectsAll respondent signedIn turns)
    {url : String} {after : Service σ}
    (hnode : ((start settings database world).turns respondent turns).node respondent =
      (.ok url, after)) :
    ∃ token ∈ (start settings database world).tokens respondent (turns ++ [.node]),
      Cluster.ofEndpoint token.endpoint = .ok url ∧
        after.conversation.identity.account = some token.account := by
  have hturns := placed_turns hreports (placed_start settings database world) hexpects
  have hplaced := @placed_turn _ _ _ _ hreports _ .node hturns trivial
  rw [List.nil_append, ← tokens_concat, turn, hnode] at hplaced
  have hremembered := Conversation.node_eq_of_node (node_of_node hnode)
  obtain ⟨token, htoken, hendpoint, haccount, -⟩ := hplaced.node url hremembered
  exact ⟨token, htoken, hendpoint, haccount⟩

/-- Everybody may sign in, and the token server has a node for one account and a node for all
others. -/
def twoNodes : Respondent (Option Account) where
  reply
    | .user, user => (⟨some (.ok user), []⟩, user)
    | .verification _, user => (⟨some (.ok ()), []⟩, user)
    | .assertion _, user => (⟨some (.ok (user.elim "" (·.email))), []⟩, user)
    | .token _ assertion, user =>
        let endpoint := if assertion = "a" then "http://[::1]/x" else "http://[::2]/y"
        (⟨some (.ok ⟨"i", "k", 7, 60, endpoint⟩), []⟩, user)
    | .keys, user => (⟨some (.ok none), []⟩, user)
  now _ := 0

theorem reports_twoNodes : twoNodes.Reports id where
  user _ := rfl
  quiet question _ := by cases question <;> rfl
  same question _ := by cases question <;> rfl

/-- A service for the account that has a node of its own. -/
def started : Service (Option Account) :=
  start { tokenServer := "http://[::1]:5000" } {} (some ⟨"a", "", true⟩)

/-- The account signs out, and another one in. -/
def leave : List (Turn (Option Account)) :=
  [.node, .told (fun _ => none) .logout, .told (fun _ => some ⟨"b", "", true⟩) .login]

theorem node_after_logout :
    ∃ after, (started.turns twoNodes leave).node twoNodes = (.ok "http://[::2]/", after) ∧
      ∃ token ∈ started.tokens twoNodes (leave ++ [.node]),
        Cluster.ofEndpoint token.endpoint = .ok "http://[::2]/" ∧
          after.conversation.identity.account = some token.account := by
  have hforgotten : (started.turns twoNodes [.node, .told (fun _ => none) .logout]).Expects id
      (.told (fun _ => some ⟨"b", "", true⟩) .login) := nofun
  have hexpects : started.ExpectsAll twoNodes id leave := ⟨trivial, rfl, hforgotten, trivial⟩
  have hurl : ((started.turns twoNodes leave).node twoNodes).1 = .ok "http://[::2]/" := by rfl
  have hnode : (started.turns twoNodes leave).node twoNodes =
      (.ok "http://[::2]/", ((started.turns twoNodes leave).node twoNodes).2) := Prod.ext hurl rfl
  exact ⟨_, hnode, node_of_held_account reports_twoNodes hexpects hnode⟩

/-- Another account signs in at once. -/
def swap : List (Turn (Option Account)) :=
  [.node, .told (fun _ => some ⟨"b", "", true⟩) .login]

/-- The node of an account is still returned when a login has put another account in its place, which
no token for that account comes with. -/
theorem node_outlives_account :
    ∃ after, (started.turns twoNodes swap).node twoNodes = (.ok "http://[::1]/", after) ∧
      after.conversation.identity.account = some "b" ∧
      ∀ token ∈ started.tokens twoNodes (swap ++ [.node]), token.account = "b" →
        Cluster.ofEndpoint token.endpoint ≠ .ok "http://[::1]/" := by
  refine ⟨_, rfl, rfl, ?_⟩
  intro token htoken haccount hendpoint
  let issued (endpoint email : String) : Token :=
    Token.ofResponse ⟨"i", "k", 7, 60, endpoint⟩ email 0
  have htokens : started.tokens twoNodes (swap ++ [.node]) =
      [issued "http://[::1]/x" "a", issued "http://[::1]/x" "a", issued "http://[::2]/y" "b",
        issued "http://[::2]/y" "b"] := rfl
  have hsecond : Cluster.ofEndpoint "http://[::2]/y" = .ok "http://[::2]/" := rfl
  rw [htokens] at htoken
  simp only [List.mem_cons, List.not_mem_nil, or_false] at htoken
  rcases htoken with rfl | rfl | rfl | rfl
  · exact absurd haccount (by decide : "a" ≠ "b")
  · exact absurd haccount (by decide : "a" ≠ "b")
  · exact absurd (Except.ok.inj (hsecond.symm.trans hendpoint)) (by decide)
  · exact absurd (Except.ok.inj (hsecond.symm.trans hendpoint)) (by decide)

end Service

end SyncedBookmarks
