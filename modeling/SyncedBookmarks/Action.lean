namespace SyncedBookmarks

/-! Steps on a state that may fail. What a step has done before it fails stays done. -/

abbrev Action (σ ε α : Type) :=
  ExceptT ε (StateM σ) α

namespace Action

/-- The outcome of a step, and the state it leaves. -/
def result (action : Action σ ε α) (state : σ) : Except ε α × σ :=
  action state

def ofResult (step : σ → Except ε α × σ) : Action σ ε α :=
  step

@[simp] theorem result_ofResult (step : σ → Except ε α × σ) (state : σ) :
    (ofResult step).result state = step state := rfl

@[simp] theorem result_pure (value : α) (state : σ) :
    (pure value : Action σ ε α).result state = (.ok value, state) := rfl

@[simp] theorem result_throw (cause : ε) (state : σ) :
    (throw cause : Action σ ε α).result state = (.error cause, state) := rfl

theorem result_bind (action : Action σ ε α) (next : α → Action σ ε β) (state : σ) :
    (action >>= next).result state =
      match action.result state with
      | (.ok value, state) => (next value).result state
      | (.error cause, state) => (.error cause, state) := by
  change ExceptT.bind action next state = _
  simp only [ExceptT.bind, ExceptT.mk, bind, StateT.bind, result]
  rcases action state with ⟨_ | _, _⟩ <;> rfl

/-- A look at the state. -/
def read (view : σ → α) : Action σ ε α :=
  fun state => (.ok (view state), state)

/-- A look at the state that may fail. -/
def check (view : σ → Except ε α) : Action σ ε α :=
  fun state => (view state, state)

def change (step : σ → σ) : Action σ ε Unit :=
  fun state => (.ok (), step state)

@[simp] theorem result_read (view : σ → α) (state : σ) :
    (read view : Action σ ε α).result state = (.ok (view state), state) := rfl

@[simp] theorem result_check (view : σ → Except ε α) (state : σ) :
    (check view).result state = (view state, state) := rfl

@[simp] theorem result_change (step : σ → σ) (state : σ) :
    (change step : Action σ ε Unit).result state = (.ok (), step state) := rfl

/-- The outcome as a value; the step itself no longer fails. -/
def attempt (action : Action σ ε α) : Action σ ε' (Except ε α) :=
  fun state =>
    let (outcome, state) := action state
    (.ok outcome, state)

@[simp] theorem result_attempt (action : Action σ ε α) (state : σ) :
    (attempt action : Action σ ε' (Except ε α)).result state =
      (.ok (action.result state).1, (action.result state).2) := rfl

/-- A step on a part of a larger state, its errors told in the larger one's terms. -/
def within (part : τ → σ) (put : σ → τ → τ) (wrap : ε → ε') (action : Action σ ε α) :
    Action τ ε' α :=
  fun state =>
    let (outcome, inner) := action (part state)
    (outcome.mapError wrap, put inner state)

@[simp] theorem result_within (part : τ → σ) (put : σ → τ → τ) (wrap : ε → ε')
    (action : Action σ ε α) (state : τ) :
    (action.within part put wrap).result state =
      ((action.result (part state)).1.mapError wrap, put (action.result (part state)).2 state) :=
  rfl

end Action

end SyncedBookmarks
