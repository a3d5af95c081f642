import Mathlib.Algebra.Group.Nat.Defs
import Mathlib.Data.List.DropRight
import SyncedBookmarks.Proofs.JsonText

namespace SyncedBookmarks

/-! Text with a member on a line is read back too, where the values are strings and whole numbers
without a sign. -/

namespace Json

theorem skipBlank_newLine (depth : Nat) {c : Char} (hc : isBlank c = false) (rest : List Char) :
    skipBlank (newLine depth ++ c :: rest) = c :: rest := by
  have hblank : ∀ d ∈ newLine depth, isBlank d = true := by
    intro d hd
    rcases List.mem_cons.mp hd with rfl | hspace
    · decide
    · obtain rfl := List.eq_of_mem_replicate hspace
      decide
  rw [skipBlank, List.dropWhile_append_of_pos hblank, List.dropWhile_cons_of_neg (by simp [hc])]

/-! ### Numbers -/

theorem le_ofDigitChars (digits : List Char) (value : Nat) :
    value ≤ Nat.ofDigitChars 10 digits value := by
  induction digits generalizing value with
  | nil => exact Nat.le_refl value
  | cons c digits ih =>
      rw [Nat.ofDigitChars_cons]
      exact Nat.le_trans (by omega) (ih _)

theorem readSignificand_digits {digits rest : List Char} {value : Nat} (used : Nat)
    (hdigits : ∀ c ∈ digits, c.isDigit = true) (hfits : Nat.ofDigitChars 10 digits value < 2 ^ 64)
    (hrest : startsWithDigit rest = false) :
    readSignificand value used (digits ++ rest) =
      (Nat.ofDigitChars 10 digits value, used + digits.length, rest) := by
  induction digits generalizing value used with
  | nil =>
      cases rest with
      | nil => rfl
      | cons c rest =>
          have hc : ¬ c.isDigit = true := by
            rw [startsWithDigit] at hrest
            simp [hrest]
          rw [List.nil_append, readSignificand, if_neg fun h => hc h.1]
          rfl
  | cons c digits ih =>
      have hvalue : value * 10 + digitValue c = 10 * value + (c.toNat - '0'.toNat) := by
        rw [Nat.mul_comm]
        rfl
      rw [Nat.ofDigitChars_cons, ← hvalue] at hfits
      -- The value only grows, so it stays below the bound if its last one does.
      have hbelow := Nat.lt_of_le_of_lt (le_ofDigitChars digits _) hfits
      have hlater := ih (used + 1) (fun d hd => hdigits d (List.mem_cons_of_mem _ hd)) hfits
      rw [List.cons_append, readSignificand,
        if_pos ⟨hdigits c List.mem_cons_self, hbelow⟩, hlater, Nat.ofDigitChars_cons, ← hvalue,
        List.length_cons]
      congr 2
      omega

theorem exists_toDigits_cons {n : Nat} (h : 0 < n) :
    ∃ c digits, Nat.toDigits 10 n = c :: digits ∧ c ≠ '0' := by
  induction n using Nat.strongRecOn with
  | ind n ih =>
      rw [Nat.toDigits_eq_if (by decide)]
      split
      · rename_i hsmall
        have hdigit : ∀ n < 10, 0 < n → Nat.digitChar n ≠ '0' := by decide
        exact ⟨_, [], rfl, hdigit n hsmall h⟩
      · obtain ⟨c, digits, hdigits, hc⟩ := ih (n / 10) (by omega) (by omega)
        exact ⟨c, digits ++ [Nat.digitChar (n % 10)], by rw [hdigits, List.cons_append], hc⟩

/-- Where a value ends in text with a member on a line. -/
inductive Ends : List Char → Prop where
  | comma (rest : List Char) : Ends (',' :: rest)
  | line (rest : List Char) : Ends ('\n' :: rest)

theorem Ends.endNumber? {rest : List Char} (h : Ends rest) (n : Nat) :
    endNumber? false n rest = some (.natural n, rest) := by
  cases h <;> rfl

theorem Ends.startsWithDigit {rest : List Char} (h : Ends rest) : startsWithDigit rest = false := by
  cases h <;> rfl

theorem readNumber?_toDigits {n : Nat} (hn : n < 2 ^ 64) {rest : List Char} (hrest : Ends rest) :
    readNumber? (Nat.toDigits 10 n ++ rest) = some (.natural n, rest) := by
  by_cases hzero : n = 0
  · subst hzero
    cases hrest <;> rfl
  · obtain ⟨c, digits, heq, hc⟩ := exists_toDigits_cons (Nat.pos_of_ne_zero hzero)
    have hall : ∀ d ∈ c :: digits, d.isDigit = true := by
      rw [← heq]
      exact fun d hd => Nat.isDigit_of_mem_toDigits (by decide) (by decide) hd
    have hvalue : Nat.ofDigitChars 10 digits (digitValue c) = n := by
      have hread := Nat.ofDigitChars_ten_toDigits (n := n)
      rw [heq, Nat.ofDigitChars_cons, Nat.mul_zero, Nat.zero_add] at hread
      exact hread
    have hdigit : c.isDigit = true := hall c List.mem_cons_self
    have hminus : c ≠ '-' := by
      rintro rfl
      cases hdigit
    have hfits : Nat.ofDigitChars 10 digits (digitValue c) < 2 ^ 64 := hvalue ▸ hn
    have hsignificand := readSignificand_digits 1
      (fun d hd => hall d (List.mem_cons_of_mem _ hd)) hfits hrest.startsWithDigit
    rw [heq, List.cons_append, readNumber?]
    · rw [if_pos hdigit, hsignificand, hvalue]
      exact hrest.endNumber? n
    · exact hc
    · rintro _ hstart
      exact hminus (List.cons.inj hstart).1

/-! ### Values -/

/-- Whether a value is a string or a whole number without a sign. -/
inductive Scalar : Json → Prop where
  | string (text : String) : Scalar (.string text)
  | natural {value : Nat} (h : value < 2 ^ 64) : Scalar (.ofNat value)

theorem Scalar.indentedChars_eq {value : Json} (h : value.Scalar) (depth : Nat) :
    value.indentedChars depth = value.chars := by
  cases h <;> rfl

theorem readValue?_blank (fuel depth : Nat) (input : List Char) :
    readValue? (fuel + 1) depth (' ' :: input) = readValue? (fuel + 1) depth input := by
  have hblank : skipBlank (' ' :: input) = skipBlank input := rfl
  rw [readValue?, hblank, readValue?]

theorem readValue?_digit {c : Char} (hc : c.isDigit = true) (fuel depth : Nat)
    (input : List Char) :
    readValue? (fuel + 1) depth (c :: input) =
      (readNumber? (c :: input)).map fun (found, rest) => (.number found, rest) := by
  have hblank : skipBlank (c :: input) = c :: input := by
    apply List.dropWhile_cons_of_neg
    intro hblank
    simp only [isBlank, Bool.or_eq_true, decide_eq_true_eq] at hblank
    rcases hblank with ((rfl | rfl) | rfl) | rfl <;> cases hc
  rw [readValue?, hblank]
  split
  all_goals
    first
    | rfl
    | rename_i heq
      cases heq
      cases hc

theorem readValue?_scalar {value : Json} (h : value.Scalar) (fuel depth : Nat) {rest : List Char}
    (hrest : Ends rest) :
    readValue? (fuel + 1) depth (' ' :: (value.chars ++ rest)) = some (value, rest) := by
  rw [readValue?_blank]
  cases h with
  | string text => exact readValue?_quoted text fuel depth rest
  | @natural n hn =>
      obtain ⟨c, digits, heq⟩ := List.exists_cons_of_ne_nil (Nat.toDigits_ne_nil (n := n) (b := 10))
      have hdigit : c.isDigit = true :=
        Nat.isDigit_of_mem_toDigits (by decide) (by decide) (heq ▸ List.mem_cons_self)
      have hread := readNumber?_toDigits hn hrest
      rw [heq, List.cons_append] at hread
      rw [ofNat, chars, numberText, heq, List.cons_append, readValue?_digit hdigit, hread]
      rfl

end Json

namespace Fields

open Json

theorem readMembers?_skipBlank (known : String → Bool) (fuel : Nat) (input : List Char) :
    readMembers? known fuel (skipBlank input) = readMembers? known fuel input := by
  have hblank : skipBlank (skipBlank input) = skipBlank input :=
    List.dropWhile_idempotent _ _
  cases fuel with
  | zero => rfl
  | succ fuel => rw [readMembers?, hblank, readMembers?]

theorem ends_indentedMembers (depth : Nat) (members : List (String × Json)) (rest : List Char) :
    Ends (indentedMembers depth false members ++ rest) := by
  cases members with
  | nil => exact .line _
  | cons member members => exact .comma _

theorem length_lt_indentedMembers (depth : Nat) (first : Bool) (members : List (String × Json)) :
    members.length < (indentedMembers depth first members).length := by
  induction members generalizing first with
  | nil => simp [indentedMembers]
  | cons member members ih =>
      obtain ⟨name, value⟩ := member
      have hlater := ih false
      simp only [indentedMembers, List.length_cons, List.length_append]
      omega

theorem indentedMembers_append {value : Json} (h : value.Scalar) (depth : Nat) (name : String)
    (members : List (String × Json)) (rest : List Char) :
    indentedMembers depth true ((name, value) :: members) ++ rest =
      newLine (depth + 1) ++ '"' :: (name.toList.flatMap escape ++ '"' ::
        ':' :: ' ' :: (value.chars ++ (indentedMembers depth false members ++ rest))) := by
  simp [indentedMembers, quoted, h.indentedChars_eq]

theorem readMembers?_scalars {known : String → Bool} (members : List (String × Json))
    (member : String × Json) (hknown : ∀ entry ∈ member :: members, known entry.1 = true)
    (hscalar : ∀ entry ∈ member :: members, entry.2.Scalar) (depth fuel : Nat)
    (hfuel : members.length < fuel) (rest : List Char) :
    readMembers? known fuel (indentedMembers depth true (member :: members) ++ rest) =
      some (member :: members, rest) := by
  obtain ⟨more, rfl⟩ : ∃ more, fuel = more + 1 := ⟨fuel - 1, by omega⟩
  obtain ⟨name, value⟩ := member
  have hcolon : ∀ input, skipBlank (':' :: input) = ':' :: input := fun input => rfl
  have hcomma : ∀ input, skipBlank (',' :: input) = ',' :: input := fun input => rfl
  have hname : known name = true := hknown (name, value) List.mem_cons_self
  have hvalue : value.Scalar := hscalar (name, value) List.mem_cons_self
  rw [indentedMembers_append hvalue, readMembers?, skipBlank_newLine (depth + 1) (by decide)]
  simp only [expect?, if_true, bind, Option.bind_some, readString?_quoted, hcolon, hname]
  rw [fuelFor, readValue?_scalar hvalue _ _ (ends_indentedMembers depth members rest)]
  simp only [Option.map_some, Option.bind_some]
  cases members with
  | nil =>
      have hclose : skipBlank (indentedMembers depth false [] ++ rest) = '}' :: rest := by
        rw [indentedMembers, List.append_assoc]
        exact skipBlank_newLine depth (by decide) rest
      simp only [hclose]
  | cons next members =>
      have hlater := readMembers?_scalars members next
        (fun entry hentry => hknown entry (List.mem_cons_of_mem _ hentry))
        (fun entry hentry => hscalar entry (List.mem_cons_of_mem _ hentry)) depth more
        (by simpa using hfuel) rest
      have hmore : indentedMembers depth false (next :: members) ++ rest =
          ',' :: (indentedMembers depth true (next :: members) ++ rest) := by
        simp [indentedMembers]
      rw [hmore, hcomma]
      simp only [hlater, Option.map_some, List.cons_append, List.nil_append]

/-- The text of an object with known members, one on a line, gives its members back. -/
theorem parse?_indented {known : String → Bool} {members : List (String × Json)}
    (hknown : ∀ member ∈ members, known member.1 = true)
    (hscalar : ∀ member ∈ members, member.2.Scalar) :
    parse? known (Json.object members).indentedText = some (.named members) := by
  have hread : read? known ((Json.object members).indentedChars 0) =
      some (.named members, []) := by
    cases members with
    | nil => rfl
    | cons member members =>
        have hlength := length_lt_indentedMembers 0 true (member :: members)
        obtain ⟨tail, hstart⟩ : ∃ tail,
            indentedMembers 0 true (member :: members) ++ [] = newLine 1 ++ '"' :: tail :=
          ⟨_, indentedMembers_append (hscalar member List.mem_cons_self) 0 member.1 members []⟩
        have hopen : skipBlank ('\x7b' :: (newLine 1 ++ '"' :: tail)) =
            '\x7b' :: (newLine 1 ++ '"' :: tail) := rfl
        have hquote := skipBlank_newLine 1 (c := '"') (by decide) tail
        have hfuel : members.length < fuelFor ('"' :: tail) := by
          rw [← List.append_nil (indentedMembers _ _ _), hstart, newLine] at hlength
          simp only [List.length_cons, List.length_append, List.length_replicate] at hlength
          rw [fuelFor, List.length_cons]
          omega
        have hread := readMembers?_scalars members member hknown hscalar 0 _ hfuel []
        rw [hstart, ← readMembers?_skipBlank, hquote] at hread
        rw [indentedChars, ← List.append_nil (indentedMembers _ _ _), hstart, read?, hopen]
        simp only [hquote]
        exact congrArg (Option.map fun found => (Fields.named found.1, found.2)) hread
  rw [parse?, Json.indentedText, String.toList_ofList, hread]
  rfl

end Fields

/-- The text of a structure whose fields are all declared, one on a line, is read as they were
written. -/
theorem Schema.parse?_indented (schema : Schema α) (slots : List (String × Option Json))
    (hdeclared : schema.declared = slots.map fun slot => [slot.1])
    (hnodup : (slots.map (·.1)).Nodup)
    (hscalar : ∀ name value, (name, some value) ∈ slots → value.Scalar) :
    schema.parse? (Json.object (Fields.given slots)).indentedText =
      schema.build (slots.map (·.2)) := by
  have hscalars : ∀ member ∈ Fields.given slots, member.2.Scalar := by
    rintro ⟨name, value⟩ hmem
    exact hscalar name value (Fields.mem_given_iff.mp hmem)
  rw [Schema.parse?, Fields.parse?_indented (fun _ => declares_of_mem_given hdeclared) hscalars]
  exact ofFields?_given hdeclared hnodup

end SyncedBookmarks
