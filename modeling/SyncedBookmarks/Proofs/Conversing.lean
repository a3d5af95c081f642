import SyncedBookmarks.Proofs.KeyHolding
import SyncedBookmarks.Service

namespace SyncedBookmarks

/-! A conversation is one way that things can happen to an identity: whatever is asked of it, a run
of a scene comes to the same. What holds after every run so holds in every conversation. -/

/-- An identity but for the storage node that it remembers. -/
def Identity.nodeless (identity : Identity) : Identity :=
  { identity with node := none }

/-! ### The storage node does not matter -/

section Nodeless

variable {identity : Identity} {now : Int}

theorem Identity.handle_nodeless (event : AccountEvent) :
    identity.nodeless.handle event =
      ((identity.handle event).1.nodeless, (identity.handle event).2) := by
  cases event <;> rfl

theorem TokenLookup.resume_nodeless (lookup : TokenLookup) (answer : lookup.question.Answer) :
    lookup.resume answer now identity.nodeless = lookup.resume answer now identity :=
  @resume_congr identity.nodeless identity rfl rfl lookup answer now

theorem LoginStage.advance_nodeless (stage : LoginStage)
    (answer : (Login.question ⟨0, stage⟩).Answer) :
    stage.advance answer now identity.nodeless =
      ((stage.advance answer now identity).1, (stage.advance answer now identity).2.nodeless) := by
  cases stage with
  | identifying => rcases answer with cause | _ | user <;> rfl
  | requesting account lookup =>
      have hresume : lookup.resume answer now identity.nodeless = lookup.resume answer now identity :=
        lookup.resume_nodeless answer
      simp only [advance, hresume]
      split <;> rfl
  | unlocking account token =>
      simp only [advance]
      split
      · rfl
      · change (_, if identity.account = some account then _ else _) = _
        split <;> rfl

theorem Login.resume_nodeless (login : Login) (answer : login.question.Answer) :
    login.resume answer now identity.nodeless =
      ((login.resume answer now identity).1, (login.resume answer now identity).2.nodeless) := by
  obtain ⟨generation, stage⟩ := login
  by_cases hcurrent : identity.generation = generation
  · have hadvance := @LoginStage.advance_nodeless identity now stage answer
    rw [@resume_of_eq ⟨generation, stage⟩ identity hcurrent,
      @resume_of_eq ⟨generation, stage⟩ identity.nodeless hcurrent]
    exact congrArg (fun result : Stretch LoginStage Unit × Identity =>
      (result.1.map (Login.mk generation), result.2)) hadvance
  · have hlate : identity.nodeless.generation ≠ generation := hcurrent
    cases stage with
    | identifying =>
        rcases answer with cause | _ | user <;>
          simp [resume, identified, giveUp, whileCurrent, hcurrent, hlate]
    | requesting account lookup =>
        have hresume : lookup.resume answer now identity.nodeless =
            lookup.resume answer now identity := lookup.resume_nodeless answer
        simp only [resume, hresume]
        split <;> simp [fail, settle, issued, whileCurrent, hcurrent, hlate]
    | unlocking account token =>
        simp only [resume, unlocked]
        split <;> simp [fail, settle, whileCurrent, hcurrent, hlate]

theorem Signing.resume_nodeless (signing : Signing) (answer : signing.question.Answer) :
    signing.resume answer now identity.nodeless =
      ((signing.resume answer now identity).1, (signing.resume answer now identity).2.nodeless) := by
  obtain ⟨uri, method, nonce, stage⟩ := signing
  cases stage with
  | checking check =>
      simp only [resume]
      split <;> rfl
  | refreshing lookup =>
      have hresume : lookup.resume answer now identity.nodeless = lookup.resume answer now identity :=
        lookup.resume_nodeless answer
      simp only [resume, hresume]
      split <;> rfl

end Nodeless

/-! ### A piece of work -/

namespace Conversation

variable {respondent : Respondent σ} {work : Work ω α} {stage : ω} {conversation : Conversation σ}

/-- What every exchange keeps, a piece of work keeps to its end, if it may end at any time. -/
theorem run_induction (At : Stretch ω α → Conversation σ → Prop)
    (hexchange : ∀ stage conversation, At (.waiting stage) conversation →
      At (conversation.exchange respondent work stage).1
        (conversation.exchange respondent work stage).2)
    (htimeout : ∀ stage conversation, At (.waiting stage) conversation →
      At (.finished (.error .timeout)) conversation)
    (fuel : Nat) (h : At (.waiting stage) conversation) :
    At (.finished (conversation.run respondent work fuel stage).1)
      (conversation.run respondent work fuel stage).2 := by
  induction fuel generalizing stage conversation with
  | zero => exact htimeout stage conversation h
  | succ fuel ih =>
      have hat := hexchange stage conversation h
      rw [run]
      split <;> rename_i hend <;> rw [hend] at hat
      · exact ih hat
      · exact hat

end Conversation

/-! ### What a conversation does is a run -/

theorem exists_getElem?_of_cons_sublist {α : Type} {a : α} {l l' : List α}
    (h : (a :: l).Sublist l') : ∃ index, l'[index]? = some a ∧ l.Sublist (l'.eraseIdx index) := by
  obtain ⟨first, second, rfl, hmem, hrest⟩ := List.cons_sublist_iff.mp h
  obtain ⟨before, after, rfl⟩ := List.append_of_mem hmem
  refine ⟨before.length, by simp, ?_⟩
  rw [List.append_assoc, List.eraseIdx_append_of_length_le (Nat.le_refl _)]
  simpa using hrest.trans ((List.sublist_append_right after second).trans
    (List.sublist_append_right before (after ++ second)))

namespace Scene

/-- Whether one scene can come to another. -/
def Reaches (scene after : Scene) : Prop :=
  ∃ occurrences, scene.run? occurrences = some after

/-- Whether a scene has the identity of a conversation and, among certain logins, those that the
conversation has yet to do. -/
structure Carries (scene : Scene) (conversation : Conversation σ)
    (logins : List (Stretch Login Unit)) : Prop where
  identity : scene.identity = conversation.identity.nodeless
  logins : (conversation.logins.map Stretch.waiting).Sublist logins

/-- Whether a scene has the login that a conversation is at, apart from those that it has yet to
do. -/
def AtLogin (scene : Scene) (conversation : Conversation σ) : Stretch Login Unit → Prop
  | .waiting login => ∃ index : Nat, scene.logins[index]? = some (.waiting login) ∧
      scene.Carries conversation (scene.logins.eraseIdx index)
  | .finished _ => scene.Carries conversation scene.logins

/-- Whether a scene has the request that a conversation is to sign. -/
def AtSigning (scene : Scene) (conversation : Conversation σ) :
    Stretch Signing (Option String) → Prop
  | .waiting signing => scene.Carries conversation scene.logins ∧
      ∃ index : Nat, scene.signings[index]? = some (.waiting signing)
  | .finished _ => scene.Carries conversation scene.logins

variable {scene middle after : Scene}

theorem Reaches.refl (scene : Scene) : scene.Reaches scene :=
  ⟨[], rfl⟩

theorem Reaches.trans (h : scene.Reaches middle) (h' : middle.Reaches after) :
    scene.Reaches after := by
  obtain ⟨first, hfirst⟩ := h
  obtain ⟨second, hsecond⟩ := h'
  exact ⟨first ++ second, by rw [run?_append, hfirst]; exact hsecond⟩

theorem Reaches.of_step {occurrence : Occurrence} (h : scene.step? occurrence = some after) :
    scene.Reaches after :=
  ⟨[occurrence], by rw [run?_cons, h]; rfl⟩

/-- Whether a scene and a conversation have come to others by events alone. -/
structure Hears (scene : Scene) (conversation : Conversation σ) (middle : Scene)
    (heard : Conversation σ) (added : List Login) : Prop where
  reached : scene.Reaches middle
  signings : middle.signings = scene.signings
  logins : middle.logins = scene.logins ++ added.map .waiting
  identity : middle.identity = heard.identity.nodeless
  heard : heard.logins = conversation.logins ++ added

variable {conversation heard : Conversation σ}

theorem exists_hears_events (h : scene.identity = conversation.identity.nodeless)
    (events : List AccountEvent) :
    ∃ middle added, scene.Hears conversation middle
      (events.foldl (fun c event => c.handle event) conversation) added := by
  induction events generalizing scene conversation with
  | nil => exact ⟨scene, [], .refl scene, rfl, by simp, h, by simp⟩
  | cons event events ih =>
      have hevent : scene.step? (.call (.event event)) =
          some { scene with
            identity := (conversation.identity.handle event).1.nodeless
            logins := scene.logins ++ (conversation.identity.handle event).2.map .waiting } := by
        rw [step?, called, Identity.called, h, Identity.handle_nodeless]
      obtain ⟨after, added, hafter⟩ :=
        @ih { scene with
            identity := (conversation.identity.handle event).1.nodeless
            logins := scene.logins ++ (conversation.identity.handle event).2.map .waiting }
          (conversation.handle event) rfl
      refine ⟨after, (conversation.identity.handle event).2 ++ added,
        (Reaches.of_step hevent).trans hafter.reached, hafter.signings, ?_, hafter.identity, ?_⟩
      · rw [hafter.logins, List.map_append, List.append_assoc]
      · rw [List.foldl_cons, hafter.heard]
        simp [Conversation.handle]

/-- While an answer is waited for there are events only. -/
theorem exists_hears_exchange (h : scene.identity = conversation.identity.nodeless)
    (respondent : Respondent σ) (work : Work ω α) (stage : ω) :
    ∃ middle heard added, scene.Hears conversation middle heard added ∧
      (conversation.exchange respondent work stage = (work.lapse stage, heard) ∨
        ∃ answer now, conversation.exchange respondent work stage =
          ((work.resume stage answer now heard.identity).1,
            { heard with identity := (work.resume stage answer now heard.identity).2 })) := by
  rw [Conversation.exchange]
  obtain ⟨⟨answer, events⟩, world⟩ := respondent.reply (work.question stage) conversation.world
  obtain ⟨middle, added, hhears⟩ :=
    @exists_hears_events _ scene { conversation with world } h events
  refine ⟨middle, _, added, ⟨hhears.reached, hhears.signings, hhears.logins, hhears.identity,
    hhears.heard⟩, ?_⟩
  cases answer with
  | none => exact .inl rfl
  | some answer => exact .inr ⟨answer, _, rfl⟩

theorem Carries.weaken {logins : List (Stretch Login Unit)} (h : scene.Carries conversation logins)
    (hlogins : logins.Sublist scene.logins) : scene.Carries conversation scene.logins :=
  ⟨h.identity, h.logins.trans hlogins⟩

theorem AtLogin.carries {stretch : Stretch Login Unit} (h : scene.AtLogin conversation stretch) :
    scene.Carries conversation scene.logins := by
  cases stretch with
  | waiting login =>
      obtain ⟨index, -, h⟩ := h
      exact h.weaken (scene.logins.eraseIdx_sublist index)
  | finished outcome => exact h

theorem AtSigning.carries {stretch : Stretch Signing (Option String)}
    (h : scene.AtSigning conversation stretch) : scene.Carries conversation scene.logins := by
  cases stretch with
  | waiting signing => exact h.1
  | finished outcome => exact h

theorem Hears.carries {added : List Login} (h : scene.Hears conversation middle heard added)
    (hcarries : scene.Carries conversation scene.logins) : middle.Carries heard middle.logins := by
  refine ⟨h.identity, ?_⟩
  rw [h.heard, h.logins, List.map_append]
  exact hcarries.logins.append (List.Sublist.refl _)

theorem AtLogin.exchange {login : Login} (h : scene.AtLogin conversation (.waiting login))
    (respondent : Respondent σ) : ∃ after, scene.Reaches after ∧
      after.AtLogin (conversation.exchange respondent Login.work login).2
        (conversation.exchange respondent Login.work login).1 := by
  obtain ⟨index, hlogin, hcarries⟩ := h
  obtain ⟨middle, heard, added, hhears, hexchange⟩ :=
    exists_hears_exchange hcarries.identity respondent Login.work login
  have hlt : index < scene.logins.length := (List.getElem?_eq_some_iff.mp hlogin).1
  have hstill : middle.logins[index]? = some (.waiting login) := by
    rw [hhears.logins, List.getElem?_append_left hlt, hlogin]
  have hothers : (heard.logins.map Stretch.waiting).Sublist (middle.logins.eraseIdx index) := by
    rw [hhears.heard, hhears.logins, List.map_append, List.eraseIdx_append_of_lt_length hlt]
    exact hcarries.logins.append (List.Sublist.refl _)
  obtain heq | ⟨(answer : login.question.Answer), now, heq⟩ := hexchange
  · rw [heq]
    exact ⟨middle, hhears.reached, hhears.identity,
      hothers.trans (middle.logins.eraseIdx_sublist index)⟩
  · rw [heq]
    have hresume : login.resume answer now middle.identity =
        ((login.resume answer now heard.identity).1,
          (login.resume answer now heard.identity).2.nodeless) :=
      hhears.identity ▸ login.resume_nodeless answer
    have hstep : middle.step? (.toLogin index ⟨login.question, answer⟩ now) =
        some { middle with
          identity := (login.resume answer now heard.identity).2.nodeless
          logins := middle.logins.set index (login.resume answer now heard.identity).1 } :=
      step?_toLogin.mpr ⟨login, answer, hstill, rfl, by rw [hresume]⟩
    refine ⟨_, hhears.reached.trans (.of_step hstep), ?_⟩
    have hlt' : index < middle.logins.length := (List.getElem?_eq_some_iff.mp hstill).1
    change AtLogin _ _ (login.resume answer now heard.identity).1
    cases hend : (login.resume answer now heard.identity).1 with
    | waiting next =>
        refine ⟨index, List.getElem?_set_self hlt', rfl, ?_⟩
        rw [List.eraseIdx_set_eq]
        exact hothers
    | finished outcome =>
        refine ⟨rfl, hothers.trans ?_⟩
        rw [← List.eraseIdx_set_eq]
        exact List.eraseIdx_sublist _ _

theorem AtSigning.exchange {signing : Signing}
    (h : scene.AtSigning conversation (.waiting signing)) (respondent : Respondent σ) :
    ∃ after, scene.Reaches after ∧
      after.AtSigning (conversation.exchange respondent Signing.work signing).2
        (conversation.exchange respondent Signing.work signing).1 := by
  obtain ⟨hcarries, index, hsigning⟩ := h
  obtain ⟨middle, heard, added, hhears, hexchange⟩ :=
    exists_hears_exchange hcarries.identity respondent Signing.work signing
  have hstill : middle.signings[index]? = some (.waiting signing) := by
    rw [hhears.signings, hsigning]
  have hlt : index < middle.signings.length := (List.getElem?_eq_some_iff.mp hstill).1
  have hheard := hhears.carries hcarries
  obtain heq | ⟨(answer : signing.question.Answer), now, heq⟩ := hexchange
  · rw [heq]
    obtain ⟨uri, method, nonce, stage⟩ := signing
    cases stage with
    | refreshing lookup => exact ⟨middle, hhears.reached, hheard⟩
    | checking check =>
        -- A check that lapses goes on as one that is told of a failure.
        let next : Signing := ⟨uri, method, nonce, Signing.refresh⟩
        have hstep : middle.step? (.toSigning index ⟨.user, .error .timeout⟩ 0) =
            some { middle with signings := middle.signings.set index (.waiting next) } :=
          step?_toSigning.mpr ⟨_, Except.error .timeout, hstill, rfl, rfl⟩
        exact ⟨_, hhears.reached.trans (.of_step hstep), ⟨hheard.identity, hheard.logins⟩, index,
          List.getElem?_set_self hlt⟩
  · rw [heq]
    have hresume : signing.resume answer now middle.identity =
        ((signing.resume answer now heard.identity).1,
          (signing.resume answer now heard.identity).2.nodeless) :=
      hhears.identity ▸ signing.resume_nodeless answer
    have hstep : middle.step? (.toSigning index ⟨signing.question, answer⟩ now) =
        some { middle with
          identity := (signing.resume answer now heard.identity).2.nodeless
          signings := middle.signings.set index (signing.resume answer now heard.identity).1 } :=
      step?_toSigning.mpr ⟨signing, answer, hstill, rfl, by rw [hresume]⟩
    refine ⟨_, hhears.reached.trans (.of_step hstep), ?_⟩
    change AtSigning _ _ (signing.resume answer now heard.identity).1
    cases hend : (signing.resume answer now heard.identity).1 with
    | waiting next => exact ⟨⟨rfl, hheard.logins⟩, index, List.getElem?_set_self hlt⟩
    | finished outcome => exact ⟨rfl, hheard.logins⟩

/-- Work that changes no identity is not to be seen in a scene. -/
theorem Carries.exchange (h : scene.Carries conversation scene.logins) (respondent : Respondent σ)
    {work : Work ω α} (hwork : ∀ stage answer now identity,
      (work.resume stage answer now identity).2 = identity) (stage : ω) :
    ∃ after, scene.Reaches after ∧
      after.Carries (conversation.exchange respondent work stage).2 after.logins := by
  obtain ⟨middle, heard, added, hhears, hexchange⟩ :=
    exists_hears_exchange h.identity respondent work stage
  refine ⟨middle, hhears.reached, ?_⟩
  obtain heq | ⟨answer, now, heq⟩ := hexchange
  · rw [heq]
    exact hhears.carries h
  · rw [heq, hwork]
    exact hhears.carries h

/-- How far a piece of work comes that the scene keeps up with. -/
structure ReachedBy (scene : Scene) (At : Scene → Conversation σ → Stretch ω α → Prop)
    (stretch : Stretch ω α) (conversation : Conversation σ) (after : Scene) : Prop where
  reaches : scene.Reaches after
  carries : after.Carries conversation after.logins
  waits : ∀ stage, stretch = .waiting stage → At after conversation stretch

/-- What the exchanges of a piece of work keep up with, so does the whole of it. -/
theorem exists_reached_run (At : Scene → Conversation σ → Stretch ω α → Prop)
    {respondent : Respondent σ} {work : Work ω α}
    (hexchange : ∀ scene conversation stage, At scene conversation (.waiting stage) →
      ∃ after, scene.Reaches after ∧ At after (conversation.exchange respondent work stage).2
        (conversation.exchange respondent work stage).1)
    (hcarries : ∀ scene conversation stretch, At scene conversation stretch →
      scene.Carries conversation scene.logins)
    (fuel : Nat) {stage : ω} (h : At scene conversation (.waiting stage)) :
    ∃ after, scene.Reaches after ∧
      after.Carries (conversation.run respondent work fuel stage).2 after.logins := by
  have hend : ∃ after, scene.ReachedBy At
      (.finished (conversation.run respondent work fuel stage).1)
      (conversation.run respondent work fuel stage).2 after := by
    refine Conversation.run_induction (fun stretch conversation =>
      ∃ after, scene.ReachedBy At stretch conversation after) ?_ ?_ fuel
      ⟨scene, .refl scene, hcarries _ _ _ h, fun _ _ => h⟩
    · rintro stage conversation ⟨middle, hmiddle⟩
      obtain ⟨after, hafter, hat⟩ := hexchange middle conversation stage (hmiddle.waits stage rfl)
      exact ⟨after, hmiddle.reaches.trans hafter, hcarries _ _ _ hat, fun _ _ => hat⟩
    · rintro stage conversation ⟨middle, hmiddle⟩
      exact ⟨middle, hmiddle.reaches, hmiddle.carries, nofun⟩
  obtain ⟨after, hafter⟩ := hend
  exact ⟨after, hafter.reaches, hafter.carries⟩

end Scene

/-! ### What is asked of an identity -/

namespace Conversation

/-- Whether a conversation has come to where a run could have brought it. -/
def Staged (tokenServer : String) (conversation : Conversation σ) : Prop :=
  ∃ scene, (Scene.start tokenServer).Reaches scene ∧ scene.Carries conversation scene.logins

variable {tokenServer : String} {conversation : Conversation σ}

theorem staged_start (tokenServer : String) (world : σ) :
    ({ identity := { tokenServer }, world } : Conversation σ).listen.startLogin.Staged
      tokenServer :=
  ⟨_, .of_step (rfl : (Scene.start tokenServer).step? (.call .startUp) = some _), rfl, .refl _⟩

namespace Staged

section

variable (h : conversation.Staged tokenServer)
include h

theorem of_reached {next : Conversation σ}
    (hreached : ∀ scene : Scene, scene.Carries conversation scene.logins →
      ∃ after, scene.Reaches after ∧ after.Carries next after.logins) :
    next.Staged tokenServer := by
  obtain ⟨scene, hscene, hcarries⟩ := h
  obtain ⟨after, hafter, hend⟩ := hreached scene hcarries
  exact ⟨after, hscene.trans hafter, hend⟩

theorem handle (event : AccountEvent) : (conversation.handle event).Staged tokenServer :=
  h.of_reached fun _ hcarries =>
    have ⟨after, _, hafter⟩ := Scene.exists_hears_events hcarries.identity [event]
    ⟨after, hafter.reached, hafter.carries hcarries⟩

theorem startLogin : conversation.startLogin.Staged tokenServer :=
  h.handle .login

end

variable (respondent : Respondent σ)

theorem settle (h : conversation.Staged tokenServer) (fuel : Nat) :
    (conversation.settle respondent fuel).Staged tokenServer := by
  induction fuel generalizing conversation with
  | zero => exact h
  | succ fuel ih =>
      rw [Conversation.settle]
      split
      · exact h
      · rename_i login logins hlogins
        refine ih (h.of_reached fun scene hcarries => ?_)
        have hsublist := hcarries.logins
        rw [hlogins, List.map_cons] at hsublist
        obtain ⟨index, hlogin, hothers⟩ := exists_getElem?_of_cons_sublist hsublist
        exact Scene.exists_reached_run Scene.AtLogin (fun _ _ _ hat => hat.exchange respondent)
          (fun _ _ _ hat => hat.carries) patience ⟨index, hlogin, hcarries.identity, hothers⟩

variable (h : conversation.Staged tokenServer)
include h

theorem wait : (conversation.wait respondent).2.Staged tokenServer :=
  h.settle respondent crowd

theorem take (event : AccountEvent) : (conversation.take respondent event).2.Staged tokenServer := by
  rw [Conversation.take]
  split
  · exact h.handle event
  · exact (h.handle event).wait respondent

theorem login : (conversation.login respondent).2.Staged tokenServer :=
  h.startLogin.wait respondent

theorem perform {work : Work ω α} (hwork : ∀ stage answer now identity,
    (work.resume stage answer now identity).2 = identity) (start : Except IdentityError ω) :
    (conversation.perform respondent work start).2.Staged tokenServer := by
  cases start with
  | error cause => exact h
  | ok stage =>
      refine settle respondent (h.of_reached fun scene hcarries => ?_) crowd
      exact Scene.exists_reached_run (fun scene conversation _ => scene.Carries conversation _)
        (fun _ _ stage hat => hat.exchange respondent hwork stage) (fun _ _ _ hat => hat) patience
        hcarries

theorem hasValidToken : (conversation.hasValidToken respondent).2.Staged tokenServer := by
  rw [Conversation.hasValidToken]
  split
  · exact h
  · rename_i check _
    have hend := h.perform respondent (fun _ _ _ _ => rfl : ∀ stage answer now identity,
      (TokenCheck.work.resume stage answer now identity).2 = identity) (.ok check)
    split <;> rename_i heq <;> rw [heq] at hend <;> exact hend

theorem lookUpToken (purpose : TokenPurpose) :
    (conversation.lookUpToken respondent purpose).2.Staged tokenServer :=
  h.perform respondent (fun _ _ _ _ => rfl) _

theorem fetchToken (user : Account) :
    (conversation.fetchToken respondent user).2.Staged tokenServer :=
  h.perform respondent (fun _ _ _ _ => rfl) _

theorem authorize (uri method : String) :
    (conversation.authorize respondent uri method).2.Staged tokenServer := by
  let signing := Signing.start conversation.identity (respondent.now conversation.world) uri method
    conversation.nonce
  let counted : Conversation σ := { conversation with nonces := conversation.nonces + 1 }
  have hend : (counted.perform respondent Signing.work (.ok signing)).2.Staged tokenServer := by
    refine settle respondent (h.of_reached fun scene hcarries => ?_) crowd
    have hsign : scene.step? (.sign uri method conversation.nonce
        (respondent.now conversation.world)) =
          some { scene with signings := scene.signings ++ [.waiting signing] } := by
      rw [Scene.step?, hcarries.identity]
      rfl
    obtain ⟨after, hafter, hrun⟩ := Scene.exists_reached_run Scene.AtSigning
      (fun _ _ _ hat => hat.exchange respondent) (fun _ _ _ hat => hat.carries) patience
      (⟨⟨hcarries.identity, hcarries.logins⟩, scene.signings.length, by simp⟩ :
        Scene.AtSigning { scene with signings := scene.signings ++ [.waiting signing] } counted
          (.waiting signing))
    exact ⟨after, (Scene.Reaches.of_step hsign).trans hafter, hrun⟩
  rw [Conversation.authorize]
  split <;> rename_i heq <;> rw [heq] at hend <;> exact hend

theorem resolveNode : (conversation.resolveNode respondent).2.Staged tokenServer := by
  have hend := h.lookUpToken respondent .anyAccount
  rw [Conversation.resolveNode]
  split <;> rename_i heq <;> rw [heq] at hend <;> exact hend

theorem node : (conversation.node respondent).2.Staged tokenServer := by
  rw [Conversation.node]
  split
  · exact h
  · have hend := h.resolveNode respondent
    split <;> rename_i heq <;> rw [heq] at hend
    · obtain ⟨scene, hscene, hcarries⟩ := hend
      exact ⟨scene, hscene, hcarries.identity, hcarries.logins⟩
    · exact hend

/-- Where nothing is missing to authenticate, there are keys. -/
theorem keys_isSome (hauth : conversation.identity.authState = .ok) :
    conversation.identity.keys.isSome := by
  obtain ⟨scene, ⟨occurrences, hrun⟩, hcarries⟩ := h
  have hgrounded := (Scene.grounded_run hrun).identity
  rw [hcarries.identity] at hgrounded
  rcases hgrounded with hlocked | ⟨email, secret, token, bundle, hunlocked⟩
  · exact absurd hauth hlocked.authState_ne
  · exact Option.isSome_iff_exists.mpr ⟨bundle, hunlocked.keys⟩

end Staged

end Conversation

namespace Service

theorem staged_start (settings : Settings) (database : Database) (world : σ) :
    (start settings database world).conversation.Staged settings.tokenServer :=
  Conversation.staged_start settings.tokenServer world

/-- A service that has logged in has keys, or it tells what its identity lacks; that this lacks
nothing but has no keys, it never has to tell. -/
theorem ready_of_wait {tokenServer : String} {service : Service σ}
    (h : service.conversation.Staged tokenServer) {respondent : Respondent σ}
    {conversation : Conversation σ}
    (hwait : service.conversation.wait respondent = (.ok (), conversation)) :
    (∃ keys, conversation.identity.keys = some keys ∧ (service.ready respondent).1 = .ok keys) ∨
      conversation.identity.authState ≠ .ok ∧
        (service.ready respondent).1 =
          .error (.notReady conversation.identity.authState.name) := by
  have hstaged := h.wait respondent
  rw [hwait] at hstaged
  simp only [ready, converse, hwait]
  cases hauth : conversation.identity.authState with
  | ok =>
      obtain ⟨keys, hkeys⟩ := Option.isSome_iff_exists.mp (hstaged.keys_isSome hauth)
      exact .inl ⟨keys, hkeys, by rw [hkeys]⟩
  | noUsername => exact .inr ⟨by simp, rfl⟩
  | noKeyBundle => exact .inr ⟨by simp, rfl⟩

end Service

end SyncedBookmarks
