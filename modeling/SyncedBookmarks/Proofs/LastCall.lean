import SyncedBookmarks.Proofs.Interleaving

namespace SyncedBookmarks

/-! The last call decides what an identity comes to. Whatever was under way before it, and however
its answers arrive, the login that it starts ends as on an identity that has never had another. -/

/-- What of an identity is to be seen from outside, but for the token. -/
@[ext]
structure Standing where
  state : IdentityState
  account : Option String
  username : String
  keys : Option KeyBundle
  keysSettled : Bool
  readiness : Readiness

def Identity.standing (identity : Identity) : Standing where
  state := identity.state
  account := identity.account
  username := identity.username
  keys := identity.keys
  keysSettled := identity.keysSettled
  readiness := identity.readiness

/-- What of its identity a login goes by: of the account only once it has set it. -/
def LoginStage.seen : LoginStage → Identity → Standing
  | .identifying, identity => { identity with account := none }.standing
  | _, identity => identity.standing

/-! ### One login on two identities -/

section Advancing

variable {first second : Identity}

/-- If it finds out who is signed in, a login goes the same way on identities that it cannot
distinguish. -/
theorem LoginStage.advance_congr (stage : LoginStage)
    (hserver : first.tokenServer = second.tokenServer) (hseen : stage.seen first = stage.seen second)
    (answer : (Login.question ⟨0, stage⟩).Answer) (now : Int)
    (hfound : stage = .identifying → ∀ cause, Answered.mk _ answer ≠ ⟨.user, .error cause⟩) :
    (stage.advance answer now first).1 = (stage.advance answer now second).1 ∧
      (stage.advance answer now first).2.standing =
        (stage.advance answer now second).2.standing := by
  cases stage with
  | identifying =>
      simp only [seen, Identity.standing, Standing.mk.injEq] at hseen
      rcases answer with cause | _ | user
      · exact absurd rfl (hfound rfl cause)
      · simp [advance, Identity.unmet, Identity.standing, hseen]
      · simp [advance, Identity.standing, hseen]
  | requesting account lookup =>
      have hstanding : first.standing = second.standing := hseen
      have hlookup := lookup.resume_congr hserver (congrArg Standing.account hstanding) answer now
      simp only [Identity.standing, Standing.mk.injEq] at hstanding
      simp only [advance, hlookup]
      split <;> simp [Identity.lookedUp, Identity.standing, hstanding]
  | unlocking account token =>
      have hstanding : first.standing = second.standing := hseen
      simp only [Identity.standing, Standing.mk.injEq] at hstanding
      simp only [advance, hstanding]
      split
      · simp [Identity.lookedUp, Identity.standing, hstanding]
      · split <;> simp [Identity.lookedUp, Identity.standing, hstanding]

theorem LoginStage.seen_congr (h : first.standing = second.standing) (stage : LoginStage) :
    stage.seen first = stage.seen second := by
  cases stage with
  | identifying => exact congrArg (fun standing : Standing => { standing with account := none }) h
  | _ => exact h

/-- Who is signed in is asked once at the beginning of a login. -/
theorem LoginStage.advance_ne_identifying (stage : LoginStage)
    (answer : (Login.question ⟨0, stage⟩).Answer) (now : Int) (identity : Identity) :
    (stage.advance answer now identity).1 ≠ .waiting .identifying := by
  cases stage with
  | identifying => rcases answer with cause | _ | user <;> simp [advance]
  | requesting account lookup =>
      simp only [advance]
      split <;> simp
  | unlocking account token => simp [advance]

end Advancing

/-! ### The last login beside others and alone -/

/-- Whether a login on one identity is where it is on another. -/
inductive Paired (first second : Identity) :
    Option (Stretch Login Unit) → Option (Stretch Login Unit) → Prop where
  | absent (hstanding : first.standing = second.standing) : Paired first second none none
  | finished (outcome outcome' : Except IdentityError Unit)
      (hstanding : first.standing = second.standing) :
      Paired first second (some (.finished outcome)) (some (.finished outcome'))
  | waiting (stage : LoginStage) (hseen : stage.seen first = stage.seen second) :
      Paired first second (some (.waiting ⟨first.generation, stage⟩))
        (some (.waiting ⟨second.generation, stage⟩))

theorem Paired.congr {first first' second : Identity} {left right : Option (Stretch Login Unit)}
    (h : Paired first second left right) (hgeneration : first'.generation = first.generation)
    (hstanding : first'.standing = first.standing) : Paired first' second left right := by
  cases h with
  | absent hsame => exact .absent (hstanding.trans hsame)
  | finished outcome outcome' hsame => exact .finished outcome outcome' (hstanding.trans hsame)
  | waiting stage hseen =>
      exact hgeneration ▸ .waiting stage ((LoginStage.seen_congr hstanding stage).trans hseen)

/-- The same answer takes both logins to the same place. -/
theorem Paired.resume {first second : Identity} (hserver : first.tokenServer = second.tokenServer)
    {stage : LoginStage} (hseen : stage.seen first = stage.seen second)
    (answer : (Login.question ⟨0, stage⟩).Answer) (now : Int)
    (hfound : stage = .identifying → ∀ cause, Answered.mk _ answer ≠ ⟨.user, .error cause⟩) :
    Paired (Login.resume ⟨first.generation, stage⟩ answer now first).2
      (Login.resume ⟨second.generation, stage⟩ answer now second).2
      (some (Login.resume ⟨first.generation, stage⟩ answer now first).1)
      (some (Login.resume ⟨second.generation, stage⟩ answer now second).1) := by
  obtain ⟨hstretch, hstanding⟩ := stage.advance_congr hserver hseen answer now hfound
  have hfirst := @Login.resume_of_eq ⟨first.generation, stage⟩ first rfl answer now
  have hsecond := @Login.resume_of_eq ⟨second.generation, stage⟩ second rfl answer now
  rw [hfirst, hsecond, hstretch]
  cases (stage.advance answer now second).1 with
  | finished outcome => exact .finished _ _ hstanding
  | waiting further =>
      rw [Stretch.map, Stretch.map, ← (stage.advance_fixed answer now first).1,
        ← (stage.advance_fixed answer now second).1]
      exact .waiting further (LoginStage.seen_congr hstanding further)

theorem Login.resume_ne_identifying {generation : Nat} {stage : LoginStage} {identity : Identity}
    (h : identity.generation = generation) (answer : (Login.question ⟨0, stage⟩).Answer) (now : Int)
    (other : Nat) :
    (Login.resume ⟨generation, stage⟩ answer now identity).1 ≠ .waiting ⟨other, .identifying⟩ := by
  rw [@Login.resume_of_eq ⟨generation, stage⟩ identity h answer now]
  cases hend : (stage.advance answer now identity).1 with
  | finished outcome => simp [Stretch.map]
  | waiting further =>
      intro hstarting
      cases hstarting
      exact stage.advance_ne_identifying answer now identity hend

namespace Scene

/-- The answers to one of the logins, with their times. -/
def answersTo (index : Nat) (occurrences : List Occurrence) : List (Answered × Int) :=
  occurrences.filterMap (·.answerTo? index)

/-- The same answers where the login is the only one. -/
def toOnly (answers : List (Answered × Int)) : List Occurrence :=
  answers.map fun (given, now) => .toLogin 0 given now

/-- Whether the last login, which has a number, is where it is in a scene of its own. -/
structure Follows (last : Nat) (scene alone : Scene) : Prop where
  server : scene.identity.tokenServer = alone.identity.tokenServer
  others : ∀ (index : Nat) (login : Login), scene.logins[index]? = some (.waiting login) →
    login.generation = scene.identity.generation → index = last
  single : alone.logins.length ≤ 1
  paired : Paired scene.identity alone.identity scene.logins[last]? alone.logins[0]?

/-- Whether the login in a scene of its own has yet to hear who is signed in. -/
def Starting (alone : Scene) : Prop :=
  ∃ generation, alone.logins[0]? = some (.waiting ⟨generation, .identifying⟩)

variable {scene alone next : Scene} {last : Nat} {occurrence : Occurrence}

theorem follows_called (h : scene.Ordered) {tokenServer : String}
    (hserver : scene.identity.tokenServer = tokenServer) (call : Call) :
    Follows scene.logins.length (scene.called call) ((start tokenServer).called call) where
  server := by rcases call with _ | ⟨_ | _ | _⟩ <;> exact hserver
  others := by
    intro index login hlogin hgeneration
    rcases waiting_called hlogin with hold | ⟨rfl, -⟩
    · have hle := h.bounded index login hold
      rw [hgeneration, generation_called] at hle
      omega
    · rfl
  single := by rcases call with _ | ⟨_ | _ | _⟩ <;> simp [called, start, Identity.called,
      Identity.handle]
  paired := by
    have hnew : ∀ stretch : Stretch Login Unit,
        (scene.logins ++ [stretch])[scene.logins.length]? = some stretch := by simp
    have hnone : (scene.logins ++ ([] : List (Stretch Login Unit)))[scene.logins.length]? = none := by
      simp
    rcases call with _ | ⟨_ | _ | _⟩
    · exact (hnew _) ▸ .waiting .identifying rfl
    · exact (hnew _) ▸ .waiting .identifying rfl
    · exact (hnew _) ▸ .waiting .identifying rfl
    · exact hnone ▸ .absent rfl

/-- What comes between two calls and is no answer to the last login does not concern it. -/
theorem Follows.step_other (h : Follows last scene alone)
    (hstep : scene.step? occurrence = some next) (hcall : occurrence.isCall = false)
    (hother : occurrence.answerTo? last = none) : Follows last next alone := by
  obtain ⟨hgeneration, hserver⟩ := fixed_step? hstep hcall
  have hothers : ∀ (index : Nat) (login : Login), next.logins[index]? = some (.waiting login) →
      login.generation = next.identity.generation → index = last := by
    intro index login hlogin hcurrent
    obtain ⟨origin, horigin, hsame⟩ := waiting_step? hstep hcall hlogin
    exact h.others index origin horigin (hsame.trans (hcurrent.trans hgeneration))
  have hkept : next.identity.standing = scene.identity.standing ∧
      next.logins[last]? = scene.logins[last]? := by
    cases occurrence with
    | call call => cases hcall
    | sign uri method nonce now =>
        cases hstep
        exact ⟨rfl, rfl⟩
    | toSigning index given now =>
        obtain ⟨signing, answer, -, -, rfl⟩ := step?_toSigning.mp hstep
        obtain ⟨token, htoken⟩ := signing.exists_token_resume answer now scene.identity
        rw [htoken]
        exact ⟨rfl, rfl⟩
    | toLogin index given now =>
        obtain ⟨login, answer, hlogin, -, rfl⟩ := step?_toLogin.mp hstep
        have hne : index ≠ last := by
          rintro rfl
          simp [Occurrence.answerTo?] at hother
        have hlate : scene.identity.generation ≠ login.generation :=
          fun heq => hne (h.others index login hlogin heq.symm)
        obtain ⟨stretch, hresume⟩ := Login.resume_of_ne hlate answer now
        rw [hresume]
        exact ⟨rfl, List.getElem?_set_ne hne⟩
  exact ⟨hserver.trans h.server, hothers, h.single,
    hkept.2 ▸ h.paired.congr hgeneration hkept.1⟩

theorem Follows.step_last (h : Follows last scene alone) {given : Answered} {now : Int}
    (hstep : scene.step? (.toLogin last given now) = some next)
    (hfound : alone.Starting → ∀ cause, given ≠ ⟨.user, .error cause⟩) :
    ∃ after, alone.step? (.toLogin 0 given now) = some after ∧ Follows last next after ∧
      ¬ after.Starting := by
  obtain ⟨login, answer, hlogin, rfl, rfl⟩ := step?_toLogin.mp hstep
  have hothers : ∀ (index : Nat) (other : Login),
      (scene.logins.set last (login.resume answer now scene.identity).1)[index]? =
        some (.waiting other) →
      other.generation = (login.resume answer now scene.identity).2.generation → index = last := by
    intro index other hother hcurrent
    obtain ⟨origin, horigin, hsame⟩ := waiting_step? hstep rfl hother
    exact h.others index origin horigin
      (hsame.trans (hcurrent.trans (login.resume_fixed answer now scene.identity).1))
  have hpaired := h.paired
  rw [hlogin] at hpaired
  generalize hfirst : alone.logins[0]? = first at hpaired
  cases hpaired with
  | waiting stage hseen =>
      have hpair := Paired.resume h.server hseen answer now
        fun heq => hfound ⟨alone.identity.generation, heq ▸ hfirst⟩
      have hset : ∀ {stretches : List (Stretch Login Unit)} {index : Nat} {old new},
          stretches[index]? = some old → (stretches.set index new)[index]? = some new :=
        fun hold => List.getElem?_set_self (List.getElem?_eq_some_iff.mp hold).1
      refine ⟨_, step?_toLogin.mpr
        ⟨⟨alone.identity.generation, stage⟩, answer, hfirst, rfl, rfl⟩, ⟨?_, hothers, ?_, ?_⟩, ?_⟩
      · exact (Login.resume_fixed _ answer now _).2.1.trans
          (h.server.trans
            (Login.resume_fixed ⟨alone.identity.generation, stage⟩ answer now _).2.1.symm)
      · rw [List.length_set]
        exact h.single
      · rw [hset hlogin, hset hfirst]
        exact hpair
      · rintro ⟨generation, hstarting⟩
        rw [hset hfirst] at hstarting
        exact Login.resume_ne_identifying rfl answer now generation (Option.some.inj hstarting)

theorem Follows.run (h : Follows last scene alone) {later : List Occurrence}
    (hrun : scene.run? later = some next) (hcalls : ∀ occurrence ∈ later, occurrence.isCall = false)
    (hfound : alone.Starting → ∀ cause now,
      (answersTo last later).head? ≠ some (⟨.user, .error cause⟩, now)) :
    ∃ after, alone.run? (toOnly (answersTo last later)) = some after ∧ Follows last next after := by
  induction later generalizing scene alone with
  | nil => exact ⟨alone, rfl, Option.some.inj hrun ▸ h⟩
  | cons occurrence later ih =>
      obtain ⟨middle, hstep, hrest⟩ := Option.bind_eq_some_iff.mp hrun
      have hcall := hcalls occurrence List.mem_cons_self
      have hlater : ∀ other ∈ later, other.isCall = false :=
        fun other hother => hcalls other (List.mem_cons_of_mem _ hother)
      cases hanswer : occurrence.answerTo? last with
      | none =>
          rw [answersTo, List.filterMap_cons_none hanswer] at hfound ⊢
          exact ih (h.step_other hstep hcall hanswer) hrest hlater hfound
      | some answered =>
          obtain ⟨given, now⟩ := answered
          rw [answersTo, List.filterMap_cons_some hanswer] at hfound ⊢
          have heq : occurrence = .toLogin last given now := by
            cases occurrence with
            | toLogin index _ _ =>
                simp only [Occurrence.answerTo?] at hanswer
                split at hanswer
                · cases hanswer
                  subst index
                  rfl
                · cases hanswer
            | _ => cases hanswer
          subst heq
          obtain ⟨after, hafter, hfollows, hstarted⟩ := h.step_last hstep
            fun hstarting cause hgiven => hfound hstarting cause now (by rw [hgiven]; rfl)
          obtain ⟨final, hfinal, hend⟩ := ih hfollows hrest hlater
            fun hstarting => absurd hstarting hstarted
          refine ⟨final, ?_, hend⟩
          rw [toOnly, List.map_cons, run?_cons, hafter]
          exact hfinal

theorem tokenServer_called (scene : Scene) (call : Call) :
    (scene.called call).identity.tokenServer = scene.identity.tokenServer := by
  rcases call with _ | ⟨_ | _ | _⟩ <;> rfl

theorem tokenServer_run? {occurrences : List Occurrence}
    (hrun : scene.run? occurrences = some next) :
    next.identity.tokenServer = scene.identity.tokenServer := by
  induction occurrences generalizing scene with
  | nil => exact Option.some.inj hrun ▸ rfl
  | cons occurrence occurrences ih =>
      obtain ⟨middle, hstep, hrest⟩ := Option.bind_eq_some_iff.mp hrun
      refine (ih hrest).trans ?_
      cases hcall : occurrence.isCall with
      | false => exact (fixed_step? hstep hcall).2
      | true =>
          cases occurrence with
          | call call => exact Option.some.inj hstep ▸ scene.tokenServer_called call
          | _ => cases hcall

/-- Where the last login is done, so is it in a scene of its own. -/
theorem Follows.settled (h : Follows last scene alone) (hsettled : scene.Settled) :
    alone.Settled ∧ scene.identity.standing = alone.identity.standing := by
  have honly : ∀ stretch ∈ alone.logins, alone.logins[0]? = some stretch := by
    intro stretch hstretch
    obtain ⟨index, hindex⟩ := List.getElem?_of_mem hstretch
    have hlt := (List.getElem?_eq_some_iff.mp hindex).1
    have hsingle := h.single
    obtain rfl : index = 0 := by omega
    exact hindex
  have hpaired := h.paired
  generalize hleft : scene.logins[last]? = left at hpaired
  generalize hright : alone.logins[0]? = right at hpaired honly
  cases hpaired with
  | absent hstanding => exact ⟨fun stretch hstretch => (by cases honly stretch hstretch), hstanding⟩
  | finished outcome outcome' hstanding =>
      exact ⟨fun stretch hstretch => ⟨outcome', (Option.some.inj (honly stretch hstretch)).symm⟩,
        hstanding⟩
  | waiting stage hseen =>
      obtain ⟨outcome, hdone⟩ := hsettled _ (List.mem_of_getElem? hleft)
      cases hdone

/-- Once all logins are done, an identity has come to what the last call alone comes to with the
answers that its login got, if that login could find out who is signed in. What an earlier login
hears meanwhile changes nothing. -/
theorem last_call_decides (tokenServer : String) :
    (∀ (earlier later : List Occurrence) (call : Call) (before after : Scene),
      (start tokenServer).run? earlier = some before →
      before.run? (.call call :: later) = some after →
      (∀ occurrence ∈ later, occurrence.isCall = false) →
      after.Settled →
      (∀ cause now, (answersTo before.logins.length later).head? ≠
        some (⟨.user, .error cause⟩, now)) →
      ∃ alone,
        (start tokenServer).run? (.call call :: toOnly (answersTo before.logins.length later)) =
          some alone ∧
        alone.Settled ∧ after.identity.standing = alone.identity.standing) ∧
    ∀ (occurrences : List Occurrence) (scene next : Scene) (index : Nat) (login : Login)
      (given : Answered) (now : Int),
      (start tokenServer).run? occurrences = some scene →
      scene.logins[index]? = some (.waiting login) →
      login.generation < scene.identity.generation →
      scene.step? (.toLogin index given now) = some next →
      next.identity = scene.identity := by
  constructor
  · intro earlier later call before after hearlier hlater hcalls hsettled hfound
    have hordered := (ordered_start tokenServer).run hearlier
    have hstart := follows_called hordered (tokenServer_run? hearlier) call
    obtain ⟨alone, halone, hend⟩ := hstart.run hlater hcalls fun _ => hfound
    exact ⟨alone, halone, hend.settled hsettled⟩
  · intro occurrences scene next index login given now _ hlogin hearlier hstep
    obtain ⟨found, answer, hfound, -, rfl⟩ := step?_toLogin.mp hstep
    obtain rfl := Stretch.waiting.inj (Option.some.inj (hlogin.symm.trans hfound))
    obtain ⟨stretch, hresume⟩ := Login.resume_of_ne (Nat.ne_of_gt hearlier) answer now
    rw [hresume]

/-- A login that another has taken over from before it hears that somebody is signed in; the other
one hears of somebody else, who is gone when it asks for the second time. -/
theorem second_login_decides :
    let first := (start "").called (.event .login)
    let second := first.called .startUp
    let after : Scene :=
      { identity :=
          { tokenServer := "", state := .readyToAuthenticate, account := some "b"
            keysSettled := true, generation := 2, listening := true
            readiness := .failed IdentityError.accountChanged.message }
        logins := [.finished (.ok ()), .finished (.ok ())] }
    (∃ alone, (start "").run? [.call .startUp, .toLogin 0 ⟨.user, .ok (some ⟨"b", "", true⟩)⟩ 0,
        .toLogin 0 ⟨.user, .ok none⟩ 0] = some alone ∧
      alone.Settled ∧ after.identity.standing = alone.identity.standing) ∧
    ∃ next, second.step? (.toLogin 0 ⟨.user, .ok (some ⟨"a", "", true⟩)⟩ 0) = some next ∧
      next.identity = second.identity := by
  intro first second after
  refine ⟨(last_call_decides "").1 [.call (.event .login)]
    [.toLogin 1 ⟨.user, .ok (some ⟨"b", "", true⟩)⟩ 0, .toLogin 0 ⟨.user, .ok (some ⟨"a", "", true⟩)⟩ 0,
      .toLogin 1 ⟨.user, .ok none⟩ 0] .startUp first after rfl rfl
    (by simp [Occurrence.isCall]) ?_ ?_, ?_⟩
  · intro stretch hstretch
    simp only [after, List.mem_cons, List.not_mem_nil, or_false, or_self] at hstretch
    exact ⟨_, hstretch⟩
  · intro cause now hhead
    cases hhead
  · have hstep : second.step? (.toLogin 0 ⟨.user, .ok (some ⟨"a", "", true⟩)⟩ 0) =
        some { second with logins := second.logins.set 0 (.finished (.ok ())) } := rfl
    exact ⟨_, hstep, (last_call_decides "").2 [.call (.event .login), .call .startUp] second _ 0
      { generation := 1 } _ 0 rfl rfl (by decide) hstep⟩

end Scene

end SyncedBookmarks
