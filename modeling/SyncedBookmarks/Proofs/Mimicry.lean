import Mathlib.Data.List.Forall2
import SyncedBookmarks.Proofs.Steps

namespace SyncedBookmarks

/-! Two steps that go hand in hand: from states that fit each other both come through or both fail,
with values that fit, and leave states that fit again. -/

/-- Whether two outcomes are of a kind, and their values fit. What went wrong may differ. -/
inductive SameOutcome (R : α → β → Prop) : Except ε α → Except ε' β → Prop where
  | ok {value : α} {value' : β} (h : R value value') : SameOutcome R (.ok value) (.ok value')
  | error (cause : ε) (cause' : ε') : SameOutcome R (.error cause) (.error cause')

namespace SameOutcome

variable {R : α → β → Prop} {first : Except ε α} {second : Except ε' β}

theorem mapError (h : SameOutcome R first second) (wrap : ε → κ) (wrap' : ε' → κ') :
    SameOutcome R (first.mapError wrap) (second.mapError wrap') := by
  cases h with
  | ok hvalue => exact .ok hvalue
  | error cause cause' => exact .error _ _

theorem bind {Q : γ → δ → Prop} {next : α → Except ε γ} {next' : β → Except ε' δ}
    (h : SameOutcome R first second)
    (hnext : ∀ value value', R value value' → SameOutcome Q (next value) (next' value')) :
    SameOutcome Q (first >>= next) (second >>= next') := by
  cases h with
  | ok hvalue => exact hnext _ _ hvalue
  | error cause cause' => exact .error cause cause'

theorem mapM {Q : γ → δ → Prop} {f : α → Except ε γ} {f' : β → Except ε' δ} {xs : List α}
    {ys : List β} (hall : List.Forall₂ R xs ys)
    (h : ∀ x y, R x y → SameOutcome Q (f x) (f' y)) :
    SameOutcome (List.Forall₂ Q) (xs.mapM f) (ys.mapM f') := by
  induction hall with
  | nil => exact .ok .nil
  | cons hxy _ ih =>
      rw [List.mapM_cons, List.mapM_cons]
      exact (h _ _ hxy).bind fun _ _ hvalue => ih.bind fun _ _ hrest => .ok (.cons hvalue hrest)

theorem filterM {f : α → Except ε Bool} {f' : β → Except ε' Bool} {xs : List α} {ys : List β}
    (hall : List.Forall₂ R xs ys) (h : ∀ x y, R x y → SameOutcome Eq (f x) (f' y)) :
    SameOutcome (List.Forall₂ R) (xs.filterM f) (ys.filterM f') := by
  have haux : ∀ {kept kept'}, List.Forall₂ R kept kept' → SameOutcome (List.Forall₂ R)
      (List.filterAuxM f xs kept) (List.filterAuxM f' ys kept') := by
    induction hall with
    | nil => exact fun hkept => .ok hkept
    | cons hxy _ ih =>
        intro kept kept' hkept
        refine (h _ _ hxy).bind ?_
        rintro keep _ rfl
        cases keep with
        | false => exact ih hkept
        | true => exact ih (.cons hxy hkept)
  exact (haux .nil).bind fun _ _ hkept => .ok (List.rel_reverse hkept)

theorem eq_of_eq {first second : Except ε α} (h : first = second) :
    SameOutcome Eq first second := by
  subst h
  cases first with
  | error cause => exact .error _ _
  | ok value => exact .ok rfl

end SameOutcome

namespace Action

/-- Whether two steps go hand in hand where the states fit. -/
def Mimics (action : Action σ ε α) (S : σ → τ → Prop) (R : α → β → Prop)
    (other : Action τ ε' β) : Prop :=
  ∀ state state', S state state' →
    SameOutcome R (action.result state).1 (other.result state').1 ∧
      S (action.result state).2 (other.result state').2

variable {S : σ → τ → Prop} {R : α → β → Prop} {Q : γ → δ → Prop}

theorem mimics_pure {value : α} {value' : β} (h : R value value') :
    (pure value : Action σ ε α).Mimics S R (pure value' : Action τ ε' β) :=
  fun _ _ hstate => ⟨.ok h, hstate⟩

theorem mimics_throw (cause : ε) (cause' : ε') :
    (throw cause : Action σ ε α).Mimics S R (throw cause' : Action τ ε' β) :=
  fun _ _ hstate => ⟨.error cause cause', hstate⟩

theorem mimics_read {view : σ → α} {view' : τ → β}
    (h : ∀ state state', S state state' → R (view state) (view' state')) :
    (read view : Action σ ε α).Mimics S R (read view' : Action τ ε' β) :=
  fun _ _ hstate => ⟨.ok (h _ _ hstate), hstate⟩

theorem mimics_check {view : σ → Except ε α} {view' : τ → Except ε' β}
    (h : ∀ state state', S state state' → SameOutcome R (view state) (view' state')) :
    (check view).Mimics S R (check view') :=
  fun _ _ hstate => ⟨h _ _ hstate, hstate⟩

theorem mimics_change {step : σ → σ} {step' : τ → τ}
    (h : ∀ state state', S state state' → S (step state) (step' state')) :
    (change step : Action σ ε Unit).Mimics S Eq (change step' : Action τ ε' Unit) :=
  fun _ _ hstate => ⟨.ok rfl, h _ _ hstate⟩

theorem Mimics.bind {action : Action σ ε α} {other : Action τ ε' β} {next : α → Action σ ε γ}
    {next' : β → Action τ ε' δ} (h : action.Mimics S R other)
    (hnext : ∀ value value', R value value' → (next value).Mimics S Q (next' value')) :
    (action >>= next).Mimics S Q (other >>= next') := by
  intro state state' hstate
  obtain ⟨houtcome, hleft⟩ := h state state' hstate
  rw [result_bind, result_bind]
  generalize action.result state = first at houtcome hleft
  generalize other.result state' = second at houtcome hleft
  obtain ⟨outcome, middle⟩ := first
  obtain ⟨outcome', middle'⟩ := second
  cases houtcome with
  | ok hvalue => exact hnext _ _ hvalue middle middle' hleft
  | error cause cause' => exact ⟨.error cause cause', hleft⟩

theorem Mimics.map {action : Action σ ε α} {other : Action τ ε' β} {f : α → γ} {f' : β → δ}
    (h : action.Mimics S R other)
    (hvalue : ∀ value value', R value value' → Q (f value) (f' value')) :
    (f <$> action).Mimics S Q (f' <$> other) := by
  rw [map_eq_pure_bind, map_eq_pure_bind]
  exact h.bind fun value value' hrel => mimics_pure (hvalue value value' hrel)

theorem Mimics.ite {c c' : Prop} [Decidable c] [Decidable c'] {action next : Action σ ε α}
    {other last : Action τ ε' β} (hiff : c ↔ c') (hthen : c → action.Mimics S R other)
    (helse : ¬ c → next.Mimics S R last) :
    (if c then action else next).Mimics S R (if c' then other else last) := by
  by_cases hc : c
  · rw [if_pos hc, if_pos (hiff.mp hc)]
    exact hthen hc
  · rw [if_neg hc, if_neg fun hc' => hc (hiff.mpr hc')]
    exact helse hc

theorem mimics_forM {step : α → Action σ ε PUnit} {step' : β → Action τ ε' PUnit} {xs : List α}
    {ys : List β} (hall : List.Forall₂ R xs ys)
    (h : ∀ x y, R x y → (step x).Mimics S Eq (step' y)) :
    (xs.forM step).Mimics S Eq (ys.forM step') := by
  induction hall with
  | nil => exact mimics_pure rfl
  | cons hxy _ ih => exact (h _ _ hxy).bind fun _ _ _ => ih

theorem mimics_optionForM {step : α → Action σ ε PUnit} {step' : α → Action τ ε' PUnit}
    (value : Option α) (h : ∀ x, (step x).Mimics S Eq (step' x)) :
    (value.forM step).Mimics S Eq (value.forM step') := by
  cases value with
  | none => exact mimics_pure rfl
  | some x => exact h x

theorem Mimics.attempt {action : Action σ ε α} {other : Action τ ε' β}
    (h : action.Mimics S R other) :
    (action.attempt : Action σ κ (Except ε α)).Mimics S (SameOutcome R)
      (other.attempt : Action τ κ' (Except ε' β)) :=
  fun state state' hstate => ⟨.ok (h state state' hstate).1, (h state state' hstate).2⟩

theorem Mimics.within {part : μ → σ} {part' : ν → τ} {put : σ → μ → μ} {put' : τ → ν → ν}
    {wrap : ε → κ} {wrap' : ε' → κ'} {action : Action σ ε α} {other : Action τ ε' β}
    {T : μ → ν → Prop} (h : action.Mimics S R other)
    (hpart : ∀ state state', T state state' → S (part state) (part' state'))
    (hput : ∀ state state' inner inner', T state state' → S inner inner' →
      T (put inner state) (put' inner' state')) :
    (action.within part put wrap).Mimics T R (other.within part' put' wrap') := by
  intro state state' hstate
  obtain ⟨houtcome, hleft⟩ := h _ _ (hpart state state' hstate)
  exact ⟨houtcome.mapError wrap wrap', hput _ _ _ _ hstate hleft⟩

/-- What each of two steps keeps by itself stays. -/
theorem Mimics.and_keeps {action : Action σ ε α} {other : Action τ ε' β} {inv : σ → Prop}
    {inv' : τ → Prop} (h : action.Mimics S R other) (hkept : action.Keeps inv)
    (hkept' : other.Keeps inv') :
    action.Mimics (fun state state' => S state state' ∧ inv state ∧ inv' state') R other :=
  fun state state' hstate => ⟨(h state state' hstate.1).1, (h state state' hstate.1).2,
    hkept state hstate.2.1, hkept' state' hstate.2.2⟩

end Action

end SyncedBookmarks
