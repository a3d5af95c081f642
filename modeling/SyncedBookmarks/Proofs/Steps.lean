import SyncedBookmarks.Action

namespace SyncedBookmarks.Action

/-! What a step keeps whatever its outcome, and what a step that cannot fail leads to. -/

def Keeps (action : Action σ ε α) (inv : σ → Prop) : Prop :=
  ∀ state, inv state → inv (action.result state).2

def Yields (action : Action σ ε α) (state : σ) (post : α → σ → Prop) : Prop :=
  ∃ value next, action.result state = (.ok value, next) ∧ post value next

/-! ### Keeping -/

theorem keeps_pure (value : α) (inv : σ → Prop) :
    (pure value : Action σ ε α).Keeps inv :=
  fun _ h => h

theorem keeps_throw (cause : ε) (inv : σ → Prop) :
    (throw cause : Action σ ε α).Keeps inv :=
  fun _ h => h

theorem keeps_read (view : σ → α) (inv : σ → Prop) :
    (read view : Action σ ε α).Keeps inv :=
  fun _ h => h

theorem keeps_check (view : σ → Except ε α) (inv : σ → Prop) : (check view).Keeps inv :=
  fun _ h => h

theorem Keeps.bind {action : Action σ ε α} {next : α → Action σ ε β} {inv : σ → Prop}
    (haction : action.Keeps inv) (hnext : ∀ value, (next value).Keeps inv) :
    (action >>= next).Keeps inv := by
  intro state h
  have hmiddle := haction state h
  rw [result_bind]
  cases houtcome : action.result state with
  | mk outcome middle =>
      rw [houtcome] at hmiddle
      cases outcome with
      | ok value => exact hnext value middle hmiddle
      | error cause => exact hmiddle

theorem Keeps.map {action : Action σ ε α} {inv : σ → Prop} (f : α → β)
    (haction : action.Keeps inv) : (f <$> action).Keeps inv := by
  have hbind : f <$> action = action >>= fun value => pure (f value) :=
    map_eq_pure_bind f action
  rw [hbind]
  exact haction.bind fun value => keeps_pure (f value) inv

theorem keeps_forM {inv : σ → Prop} {step : α → Action σ ε PUnit} (xs : List α)
    (hstep : ∀ x ∈ xs, (step x).Keeps inv) : (xs.forM step).Keeps inv := by
  induction xs with
  | nil => exact keeps_pure _ inv
  | cons x xs ih =>
      exact (hstep x (by simp)).bind fun _ => ih fun y hy => hstep y (by simp [hy])

theorem keeps_optionForM {inv : σ → Prop} {step : α → Action σ ε PUnit} (value : Option α)
    (hstep : ∀ x, (step x).Keeps inv) : (value.forM step).Keeps inv := by
  cases value with
  | none => exact keeps_pure _ inv
  | some x => exact hstep x

theorem Keeps.attempt {action : Action σ ε α} {inv : σ → Prop} (haction : action.Keeps inv) :
    (action.attempt : Action σ ε' (Except ε α)).Keeps inv :=
  haction

theorem Keeps.within {part : τ → σ} {put : σ → τ → τ} {wrap : ε → ε'} {action : Action σ ε α}
    {inner : σ → Prop} {outer : τ → Prop} (haction : action.Keeps inner)
    (hpart : ∀ state, outer state → inner (part state))
    (hput : ∀ state value, outer state → inner value → outer (put value state)) :
    (action.within part put wrap).Keeps outer :=
  fun state h => hput state _ h (haction _ (hpart state h))

/-! ### What a success says -/

/-- A step that keeps what holds of the state, and whose value, if there is one, is as it should
be. -/
def Ensures (action : Action σ ε α) (inv : σ → Prop) (post : α → Prop) : Prop :=
  ∀ state, inv state → inv (action.result state).2 ∧
    ∀ value, (action.result state).1 = .ok value → post value

theorem Ensures.keeps {action : Action σ ε α} {inv : σ → Prop} {post : α → Prop}
    (h : action.Ensures inv post) : action.Keeps inv :=
  fun state hstate => (h state hstate).1

theorem Keeps.ensures {action : Action σ ε α} {inv : σ → Prop} (h : action.Keeps inv) :
    action.Ensures inv fun _ => True :=
  fun state hstate => ⟨h state hstate, fun _ _ => trivial⟩

theorem ensures_pure {value : α} {inv : σ → Prop} {post : α → Prop} (h : post value) :
    (pure value : Action σ ε α).Ensures inv post := by
  intro state hstate
  refine ⟨hstate, ?_⟩
  intro found hfound
  rw [← Except.ok.inj hfound]
  exact h

theorem ensures_read {view : σ → α} {inv : σ → Prop} {post : α → Prop}
    (h : ∀ state, inv state → post (view state)) :
    (read view : Action σ ε α).Ensures inv post := by
  intro state hstate
  refine ⟨hstate, ?_⟩
  intro found hfound
  rw [← Except.ok.inj hfound]
  exact h state hstate

theorem ensures_check {view : σ → Except ε α} {inv : σ → Prop} {post : α → Prop}
    (h : ∀ state value, inv state → view state = .ok value → post value) :
    (check view).Ensures inv post :=
  fun state hstate => ⟨hstate, fun value hvalue => h state value hstate hvalue⟩

theorem Ensures.bind {action : Action σ ε α} {next : α → Action σ ε β} {inv : σ → Prop}
    {middle : α → Prop} {post : β → Prop} (haction : action.Ensures inv middle)
    (hnext : ∀ value, middle value → (next value).Ensures inv post) :
    (action >>= next).Ensures inv post := by
  intro state hstate
  obtain ⟨hkept, hmiddle⟩ := haction state hstate
  rw [result_bind]
  cases houtcome : action.result state with
  | mk outcome state' =>
      rw [houtcome] at hkept hmiddle
      cases outcome with
      | ok value => exact hnext value (hmiddle value rfl) state' hkept
      | error cause => exact ⟨hkept, fun _ hvalue => by cases hvalue⟩

theorem Ensures.map {action : Action σ ε α} {inv : σ → Prop} {post : β → Prop} (f : α → β)
    (haction : action.Ensures inv fun value => post (f value)) :
    (f <$> action).Ensures inv post := by
  have hbind : f <$> action = action >>= fun value => pure (f value) :=
    map_eq_pure_bind f action
  rw [hbind]
  exact haction.bind fun _ hvalue => ensures_pure hvalue

theorem Ensures.bind_keeps {action : Action σ ε α} {next : α → Action σ ε β} {inv : σ → Prop}
    {post : α → Prop} (haction : action.Ensures inv post)
    (hnext : ∀ value, post value → (next value).Keeps inv) : (action >>= next).Keeps inv :=
  (haction.bind fun value hvalue => (hnext value hvalue).ensures).keeps

theorem Ensures.within {part : τ → σ} {put : σ → τ → τ} {wrap : ε → ε'} {action : Action σ ε α}
    {inner : σ → Prop} {outer : τ → Prop} {post : α → Prop} (haction : action.Ensures inner post)
    (hpart : ∀ state, outer state → inner (part state))
    (hput : ∀ state value, outer state → inner value → outer (put value state)) :
    (action.within part put wrap).Ensures outer post := by
  intro state hstate
  obtain ⟨hkept, hpost⟩ := haction _ (hpart state hstate)
  refine ⟨hput state _ hstate hkept, ?_⟩
  intro value hvalue
  rw [result_within] at hvalue
  cases houtcome : (action.result (part state)).1 with
  | ok found =>
      rw [houtcome] at hvalue
      rw [← Except.ok.inj hvalue]
      exact hpost found houtcome
  | error cause =>
      rw [houtcome] at hvalue
      cases hvalue

/-! ### Getting through -/

theorem yields_pure {value : α} {state : σ} {post : α → σ → Prop} (h : post value state) :
    (pure value : Action σ ε α).Yields state post :=
  ⟨value, state, rfl, h⟩

theorem yields_read {view : σ → α} {state : σ} {P : α → σ → Prop}
    (h : P (view state) state) : (read view : Action σ ε α).Yields state P :=
  ⟨view state, state, rfl, h⟩

theorem yields_check {view : σ → Except ε α} {state : σ} {P : α → σ → Prop} {value : α}
    (hview : view state = .ok value) (h : P value state) : (check view).Yields state P :=
  ⟨value, state, by rw [result_check, hview], h⟩

theorem yields_change {step : σ → σ} {state : σ} {P : Unit → σ → Prop}
    (h : P () (step state)) : (change step : Action σ ε Unit).Yields state P :=
  ⟨(), step state, rfl, h⟩

theorem Yields.bind {action : Action σ ε α} {next : α → Action σ ε β} {state : σ}
    {middle : α → σ → Prop} {post : β → σ → Prop} (haction : action.Yields state middle)
    (hnext : ∀ value state, middle value state → (next value).Yields state post) :
    (action >>= next).Yields state post := by
  obtain ⟨value, state', hresult, hmiddle⟩ := haction
  obtain ⟨last, final, hlast, hpost⟩ := hnext value state' hmiddle
  refine ⟨last, final, ?_, hpost⟩
  rw [result_bind, hresult]
  exact hlast

theorem Yields.imp {action : Action σ ε α} {state : σ} {post post' : α → σ → Prop}
    (haction : action.Yields state post) (h : ∀ value state, post value state → post' value state) :
    action.Yields state post' := by
  obtain ⟨value, next, hresult, hpost⟩ := haction
  exact ⟨value, next, hresult, h value next hpost⟩

theorem Yields.map {action : Action σ ε α} {state : σ} {post : β → σ → Prop} (f : α → β)
    (haction : action.Yields state fun value next => post (f value) next) :
    (f <$> action).Yields state post := by
  have hbind : f <$> action = action >>= fun value => pure (f value) :=
    map_eq_pure_bind f action
  rw [hbind]
  exact haction.bind fun _ _ h => yields_pure h

/-- A walk over a list, with what holds between two of its steps. -/
theorem yields_forM {step : α → Action σ ε PUnit} {P : List α → σ → Prop}
    (hstep : ∀ x xs state, P (x :: xs) state → (step x).Yields state fun _ next => P xs next)
    (xs : List α) (state : σ) (h : P xs state) :
    (xs.forM step).Yields state fun _ next => P [] next := by
  induction xs generalizing state with
  | nil => exact yields_pure h
  | cons x xs ih => exact (hstep x xs state h).bind fun _ next hnext => ih next hnext

theorem Yields.result {action : Action σ ε α} {state : σ} {post : α → σ → Prop}
    (h : action.Yields state post) :
    ∃ value, (action.result state).1 = .ok value ∧ post value (action.result state).2 := by
  obtain ⟨value, next, hresult, hpost⟩ := h
  exact ⟨value, by rw [hresult], by rw [hresult]; exact hpost⟩

theorem Yields.within {part : τ → σ} {put : σ → τ → τ} {wrap : ε → ε'} {action : Action σ ε α}
    {state : τ} {inner : α → σ → Prop} {post : α → τ → Prop}
    (haction : action.Yields (part state) inner)
    (h : ∀ value next, inner value next → post value (put next state)) :
    (action.within part put wrap).Yields state post := by
  obtain ⟨value, next, hresult, hinner⟩ := haction
  refine ⟨value, put next state, ?_, h value next hinner⟩
  rw [result_within, hresult]
  rfl

/-! ### Outcomes alone -/

theorem exists_of_bind_ok {outcome : Except ε α} {next : α → Except ε β} {value : β}
    (h : (outcome >>= next) = .ok value) :
    ∃ middle, outcome = .ok middle ∧ next middle = .ok value := by
  cases outcome with
  | error cause => cases h
  | ok middle => exact ⟨middle, rfl, h⟩

theorem next_of_guard_ok {condition : Prop} [Decidable condition] {cause : ε}
    {next : PUnit → Except ε α} {value : α}
    (h : (if condition then (throw cause : Except ε PUnit) >>= next else next ()) = .ok value) :
    next () = .ok value := by
  split at h
  · cases h
  · exact h

theorem exists_of_choice_ok {condition : Prop} [Decidable condition] {first second : Except ε α}
    {next : α → Except ε β} {value : β}
    (h : (if condition then first >>= next else second >>= next) = .ok value) :
    ∃ middle, (first = .ok middle ∨ second = .ok middle) ∧ next middle = .ok value := by
  split at h
  · obtain ⟨middle, hfirst, h⟩ := exists_of_bind_ok h
    exact ⟨middle, .inl hfirst, h⟩
  · obtain ⟨middle, hsecond, h⟩ := exists_of_bind_ok h
    exact ⟨middle, .inr hsecond, h⟩

end SyncedBookmarks.Action
