import Mathlib.Algebra.Group.Int.Defs
import Mathlib.Algebra.Group.Nat.Defs
import SyncedBookmarks.Token

namespace SyncedBookmarks

/-! How long a token is valid: for its lifetime, as far as the clock can show the end of it. -/

theorem lastTime_eq : lastTime = 9223372036854775807 :=
  rfl

theorem firstTime_eq : firstTime = -9223372036854775808 :=
  rfl

theorem saturate_of_le {time : Int} (hfirst : firstTime ≤ time) (hlast : time ≤ lastTime) :
    saturate time = time := by
  rw [saturate, Int.min_eq_left hlast, Int.max_eq_right hfirst]

theorem saturate_of_lt {time : Int} (h : lastTime < time) : saturate time = lastTime := by
  rw [saturate, Int.min_eq_right (Int.le_of_lt h)]
  rfl

theorem saturate_le (time : Int) : saturate time ≤ lastTime := by
  rw [saturate, firstTime_eq, lastTime_eq]
  omega

theorem le_saturate {bound time : Int} (hbound : bound ≤ lastTime) (h : bound ≤ time) :
    bound ≤ saturate time := by
  rw [saturate]
  omega

namespace Token

theorem lifetime_pos {seconds : Nat} (h : 0 < seconds) : 0 < lifetime seconds := by
  rw [lifetime, saturate, firstTime_eq, lastTime_eq]
  split <;> omega

/-- A lifetime that the clock can show is counted in full. -/
theorem lifetime_of_le {seconds : Nat} (h : 1000 * (seconds : Int) ≤ lastTime) :
    lifetime seconds = 1000 * seconds := by
  have hfirst : firstTime ≤ (seconds : Int) * 1000 := by
    rw [firstTime_eq]
    omega
  rw [lifetime, if_pos (by omega), saturate_of_le hfirst (by omega), Int.mul_comm]

/-- A longer one counts as the last whole second of the clock at least. -/
theorem lastSecond_le_lifetime {seconds : Nat} (h : lastTime < 1000 * (seconds : Int)) :
    2 ^ 63 - 808 ≤ lifetime seconds := by
  rw [lifetime]
  split
  · rw [saturate_of_lt (by omega)]
    decide
  · decide

theorem expiration_of_lt {response : TokenResponse} {account : String} {now : Int} (hnow : 0 ≤ now)
    (h : now + 1000 * response.duration < 2 ^ 63) :
    (ofResponse response account now).expiration = now + 1000 * response.duration := by
  have hlast : now + 1000 * (response.duration : Int) ≤ lastTime := Int.le_sub_one_of_lt h
  have hfirst : firstTime ≤ now + 1000 * (response.duration : Int) := by
    rw [firstTime_eq]
    omega
  rw [ofResponse, lifetime_of_le (by omega)]
  exact saturate_of_le hfirst hlast

theorem lastSecond_le_expiration {response : TokenResponse} {account : String} {now : Int}
    (hnow : 0 ≤ now) (h : 2 ^ 63 ≤ now + 1000 * (response.duration : Int)) :
    2 ^ 63 - 808 ≤ (ofResponse response account now).expiration := by
  have hbound : (2 ^ 63 - 808 : Int) ≤ lastTime := by decide
  rw [ofResponse]
  apply le_saturate hbound
  by_cases hlifetime : 1000 * (response.duration : Int) ≤ lastTime
  · rw [lifetime_of_le hlifetime]
    omega
  · have hlong := lastSecond_le_lifetime (Int.not_le.mp hlifetime)
    omega

/-- A new token that has a lifetime has not expired when it comes. -/
theorem lt_expiration_ofResponse {response : TokenResponse} {now : Int}
    (hduration : 0 < response.duration) (hnow : now < lastTime) (email : String) :
    now < (ofResponse response email now).expiration := by
  have hlifetime := lifetime_pos hduration
  rw [lastTime_eq] at hnow
  rw [ofResponse, saturate, firstTime_eq, lastTime_eq]
  dsimp only
  omega

theorem validFor_eq_true_iff {token : Token} {email : Option String} {now : Int} :
    token.validFor email now ↔ now < token.expiration ∧ email = some token.account := by
  rw [validFor, Bool.and_eq_true, decide_eq_true_eq, beq_iff_eq]

theorem validFor_iff {token : Token} {email : String} {now : Int} :
    token.validFor (some email) now ↔ now < token.expiration ∧ token.account = email := by
  rw [validFor_eq_true_iff, Option.some.injEq, eq_comm (a := email)]

/-- A token is valid for its account until its lifetime is over, counted from the time of issue, if
the clock can show that end. A later end counts as one in the last second of the clock, and so no
token is valid for longer than it was issued for. -/
theorem valid_until_due (response : TokenResponse) (account : String) {now : Int}
    (hnow : 0 ≤ now) :
    let token := ofResponse response account now
    let due : Int := now + 1000 * response.duration
    (due < 2 ^ 63 → token.expiration = due) ∧
    (2 ^ 63 ≤ due → 2 ^ 63 - 808 ≤ token.expiration ∧ token.expiration < 2 ^ 63) ∧
    ∀ (email : Option String) (time : Int),
      (token.validFor email time ↔ time < token.expiration ∧ email = some account) ∧
      (token.validFor email time → time < due) ∧
      (time < due → time < 2 ^ 63 - 808 → email = some account → token.validFor email time) := by
  intro token due
  have hexact : due < 2 ^ 63 → token.expiration = due := expiration_of_lt hnow
  have hlate : 2 ^ 63 ≤ due → 2 ^ 63 - 808 ≤ token.expiration := lastSecond_le_expiration hnow
  have hlast : token.expiration < 2 ^ 63 := Int.lt_of_le_sub_one (saturate_le _)
  have hdue : token.expiration ≤ due := by omega
  refine ⟨hexact, fun h => ⟨hlate h, hlast⟩, fun email time => ?_⟩
  have hvalid : token.validFor email time ↔ time < token.expiration ∧ email = some account :=
    validFor_eq_true_iff
  refine ⟨hvalid, fun h => Int.lt_of_lt_of_le (hvalid.mp h).1 hdue, ?_⟩
  intro htime hshown hemail
  refine hvalid.mpr ⟨?_, hemail⟩
  by_cases hfits : due < 2 ^ 63
  · rw [hexact hfits]
    exact htime
  · exact Int.lt_of_lt_of_le hshown (hlate (Int.not_lt.mp hfits))

/-- The longest lifetime of all, from a second after the epoch on. -/
theorem endless_valid_until_last_second :
    let token := ofResponse ⟨"i", "k", 7, 2 ^ 64 - 1, "e"⟩ "a" 1000
    token.expiration = 2 ^ 63 - 1 ∧ token.validFor (some "a") (2 ^ 63 - 809) ∧
      ¬ token.validFor (some "b") 1000 := by
  have hspec := @valid_until_due ⟨"i", "k", 7, 2 ^ 64 - 1, "e"⟩ "a" 1000 (by decide)
  obtain ⟨-, -, htimes⟩ := hspec
  refine ⟨by decide, ?_, ?_⟩
  · exact (htimes (some "a") (2 ^ 63 - 809)).2.2 (by decide) (by decide) rfl
  · intro hvalid
    exact absurd ((htimes (some "b") 1000).1.mp hvalid).2 (by decide)

end Token

end SyncedBookmarks
