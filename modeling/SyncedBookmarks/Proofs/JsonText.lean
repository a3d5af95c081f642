import SyncedBookmarks.Json.Fields
import Mathlib.Data.List.Nodup

namespace SyncedBookmarks

/-! Text that is written is read back: strings whatever they hold, and the fields of a structure whose
values are strings, lists of strings and truth values. -/

namespace Json

/-! ### Strings -/

theorem hexValue?_digitChar {n : Nat} (h : n < 16) : hexValue? (Nat.digitChar n) = some n := by
  have hall : ∀ n < 16, hexValue? (Nat.digitChar n) = some n := by decide
  exact hall n h

theorem unit?_control {c : Char} (h : c.toNat < 0x20) :
    unit? '0' '0' (Nat.digitChar (c.toNat / 16)) (Nat.digitChar (c.toNat % 16)) =
      some c.toNat := by
  have hzero : hexValue? '0' = some 0 := by decide
  rw [unit?, hzero, hexValue?_digitChar (by omega), hexValue?_digitChar (by omega)]
  simp only [bind, Option.bind_some, pure, Option.some.injEq]
  omega

/-- The ways in which a character is written. -/
inductive Escaped (c : Char) : Prop where
  | simple (mark : Char) (h : simpleEscape? mark = some c) (hmark : mark ≠ 'u')
      (heq : escape c = ['\\', mark])
  | control (h : c.toNat < 0x20)
      (heq : escape c =
        ['\\', 'u', '0', '0', Nat.digitChar (c.toNat / 16), Nat.digitChar (c.toNat % 16)])
  | plain (hquote : c ≠ '"') (hslash : c ≠ '\\') (h : ¬ c.toNat < 0x20) (heq : escape c = [c])

theorem escaped (c : Char) : Escaped c := by
  by_cases hquote : c = '"'
  · subst hquote
    exact .simple '"' rfl (by decide) rfl
  by_cases hslash : c = '\\'
  · subst hslash
    exact .simple '\\' rfl (by decide) rfl
  by_cases hback : c = '\x08'
  · subst hback
    exact .simple 'b' rfl (by decide) rfl
  by_cases htab : c = '\t'
  · subst htab
    exact .simple 't' rfl (by decide) rfl
  by_cases hline : c = '\n'
  · subst hline
    exact .simple 'n' rfl (by decide) rfl
  by_cases hfeed : c = '\x0c'
  · subst hfeed
    exact .simple 'f' rfl (by decide) rfl
  by_cases hreturn : c = '\r'
  · subst hreturn
    exact .simple 'r' rfl (by decide) rfl
  by_cases hcontrol : c.toNat < 0x20
  · exact .control hcontrol (by simp [escape, *])
  · exact .plain hquote hslash hcontrol (by simp [escape, *])

theorem splitString_plain {c : Char} (hquote : c ≠ '"') (hslash : c ≠ '\\')
    (h : ¬ c.toNat < 0x20) (input : List Char) :
    splitString (c :: input) = (splitString input).map fun (raw, rest) => (c :: raw, rest) := by
  rw [splitString.eq_def]
  split
  · contradiction
  · simp_all
  · simp_all
  · rename_i heq
    cases heq
    exact if_neg h

theorem splitString_escape (c : Char) (input : List Char) :
    splitString (escape c ++ input) =
      (splitString input).map fun (raw, rest) => (escape c ++ raw, rest) := by
  cases escaped c with
  | simple mark _ _ heq =>
      rw [heq]
      rfl
  | control h heq =>
      have hdigit : ∀ n < 16, Nat.digitChar n ≠ '"' ∧ Nat.digitChar n ≠ '\\' ∧
          ¬ (Nat.digitChar n).toNat < 0x20 := by decide
      obtain ⟨hquote, hslash, hhigh⟩ := hdigit (c.toNat / 16) (by omega)
      obtain ⟨hquote', hslash', hhigh'⟩ := hdigit (c.toNat % 16) (by omega)
      have hzero := fun input => splitString_plain (c := '0') (by decide) (by decide) (by decide) input
      rw [heq]
      simp only [List.cons_append, List.nil_append, splitString, hzero,
        splitString_plain hquote hslash hhigh, splitString_plain hquote' hslash' hhigh',
        Option.map_map]
      rfl
  | plain hquote hslash h heq =>
      rw [heq]
      exact splitString_plain hquote hslash h input

theorem splitString_quoted (chars rest : List Char) :
    splitString (chars.flatMap escape ++ '"' :: rest) = some (chars.flatMap escape, rest) := by
  induction chars with
  | nil => rfl
  | cons c chars ih =>
      rw [List.flatMap_cons, List.append_assoc, splitString_escape, ih]
      rfl

theorem unescape?_escape (c : Char) (input : List Char) :
    unescape? (escape c ++ input) = (unescape? input).map (c :: ·) := by
  cases escaped c with
  | simple mark h hmark heq =>
      rw [heq, List.cons_append, List.cons_append, List.nil_append]
      rw [simpleEscape?.eq_def] at h
      split at h
      all_goals
        cases h
        try simp [unescape?, simpleEscape?]
  | control h heq =>
      rw [heq]
      simp only [List.cons_append, List.nil_append, unescape?, unit?_control h, bind,
        Option.bind_some]
      rw [if_neg (by omega), if_neg (by omega), Char.ofNat_toNat]
  | plain hquote hslash h heq =>
      rw [heq, List.cons_append, List.nil_append, unescape?.eq_def]
      split <;> simp_all

theorem unescape?_flatMap_escape (chars : List Char) :
    unescape? (chars.flatMap escape) = some chars := by
  induction chars with
  | nil => rfl
  | cons c chars ih =>
      rw [List.flatMap_cons, unescape?_escape, ih]
      rfl

theorem readString?_quoted (text : String) (rest : List Char) :
    readString? (text.toList.flatMap escape ++ '"' :: rest) = some (text, rest) := by
  rw [readString?, splitString_quoted]
  simp only [bind, Option.bind_some, unescape?_flatMap_escape, pure, String.ofList_toList]

/-! ### Values -/

/-- Whether a value is a string, a list of strings or a truth value. -/
inductive Leaf : Json → Prop where
  | string (text : String) : Leaf (.string text)
  | bool (value : Bool) : Leaf (.bool value)
  | strings (texts : List String) : Leaf (Json.ofStrings texts)

theorem quoted_append (text : String) (rest : List Char) :
    quoted text ++ rest = '"' :: (text.toList.flatMap escape ++ '"' :: rest) := by
  simp [quoted]

theorem readValue?_quoted (text : String) (fuel depth : Nat) (rest : List Char) :
    readValue? (fuel + 1) depth (quoted text ++ rest) = some (.string text, rest) := by
  rw [quoted_append, readValue?]
  have hblank : ∀ input, skipBlank ('"' :: input) = '"' :: input := fun input => rfl
  simp only [hblank, readString?_quoted, Option.map_some]

theorem readItems?_strings (texts : List String) (text : String) (fuel depth : Nat)
    (hfuel : texts.length < fuel) (rest : List Char) :
    readItems? (fuel + 1) depth (itemChars true ((text :: texts).map .string) ++ rest) =
      some ((text :: texts).map .string, rest) := by
  induction texts generalizing text fuel with
  | nil =>
      obtain ⟨more, rfl⟩ : ∃ more, fuel = more + 1 := ⟨fuel - 1, by omega⟩
      simp only [List.map_cons, List.map_nil, itemChars, chars, if_true, List.nil_append,
        List.append_assoc, List.cons_append]
      rw [readItems?, readValue?_quoted]
      rfl
  | cons next texts ih =>
      obtain ⟨more, rfl⟩ : ∃ more, fuel = more + 1 := ⟨fuel - 1, by omega⟩
      have hlater := ih next more (by simpa using hfuel)
      simp only [List.map_cons, itemChars, chars, if_true, List.nil_append, Bool.false_eq_true,
        if_false, List.append_assoc, List.cons_append] at hlater ⊢
      rw [readItems?, readValue?_quoted]
      have hblank : ∀ input, skipBlank (',' :: input) = ',' :: input := fun input => rfl
      simp only [bind, Option.bind_some, hblank, hlater, Option.map_some]

/-- A value is read back, with as much fuel as the text has characters. -/
theorem readValue?_leaf {value : Json} (h : value.Leaf) (depth : Nat) (rest : List Char) :
    readValue? (fuelFor (value.chars ++ rest)) (depth + 1) (value.chars ++ rest) =
      some (value, rest) := by
  cases h with
  | string text => exact readValue?_quoted text _ _ rest
  | bool value => cases value <;> rfl
  | strings texts =>
      cases texts with
      | nil => rfl
      | cons text texts =>
          have hlength : ∀ texts : List String,
              texts.length < (itemChars false (texts.map .string)).length := by
            intro texts
            induction texts with
            | nil => simp [itemChars]
            | cons text texts ih =>
                simp only [List.map_cons, itemChars, chars, Bool.false_eq_true, if_false,
                  List.length_cons, List.length_append]
                omega
          have hfuel := hlength texts
          rw [Json.ofStrings, chars, List.cons_append, fuelFor, readValue?]
          have hopen : ∀ input, skipBlank ('[' :: input) = '[' :: input := fun input => rfl
          have hquote : ∀ input, skipBlank ('"' :: input) = '"' :: input := fun input => rfl
          have hitems : itemChars true ((text :: texts).map .string) ++ rest =
              '"' :: (text.toList.flatMap escape ++ '"' ::
                (itemChars false (texts.map .string) ++ rest)) := by
            simp [itemChars, chars, quoted]
          simp only [hopen]
          rw [hitems]
          simp only [hquote]
          have hread := readItems?_strings texts text
            (2 * ('[' :: (itemChars true ((text :: texts).map .string) ++ rest)).length) depth
            (by
              simp only [List.map_cons, itemChars, List.length_cons, List.length_append]
              omega) rest
          rw [hitems] at hread
          exact congrArg (Option.map fun found => (Json.array found.1, found.2)) hread

end Json

/-! ### Fields -/

namespace Fields

open Json

theorem readMembers?_leaves {known : String → Bool} (members : List (String × Json))
    (member : String × Json) (hknown : ∀ entry ∈ member :: members, known entry.1 = true)
    (hleaf : ∀ entry ∈ member :: members, entry.2.Leaf) (fuel : Nat)
    (hfuel : members.length < fuel) (rest : List Char) :
    readMembers? known fuel (memberChars true (member :: members) ++ rest) =
      some (member :: members, rest) := by
  obtain ⟨more, rfl⟩ : ∃ more, fuel = more + 1 := ⟨fuel - 1, by omega⟩
  obtain ⟨name, value⟩ := member
  have hquote : ∀ input, skipBlank ('"' :: input) = '"' :: input := fun input => rfl
  have hcolon : ∀ input, skipBlank (':' :: input) = ':' :: input := fun input => rfl
  have hcomma : ∀ input, skipBlank (',' :: input) = ',' :: input := fun input => rfl
  have hclose : ∀ input, skipBlank ('\x7d' :: input) = '\x7d' :: input := fun input => rfl
  have hname : known name = true := hknown (name, value) (by simp)
  have hvalue : ∀ input, readValue? (fuelFor (value.chars ++ input)) (maxDepth - 1)
      (value.chars ++ input) = some (value, input) :=
    fun input => readValue?_leaf (hleaf (name, value) (by simp)) _ input
  have hstart : memberChars true ((name, value) :: members) ++ rest =
      '"' :: (name.toList.flatMap escape ++ '"' ::
        (':' :: (value.chars ++ (memberChars false members ++ rest)))) := by
    simp [memberChars, quoted]
  rw [hstart, readMembers?]
  simp only [hquote, expect?, if_true, bind, Option.bind_some, readString?_quoted, hcolon, hname,
    hvalue, Option.map_some]
  cases members with
  | nil =>
      simp only [memberChars, List.cons_append, List.nil_append, hclose]
  | cons next members =>
      have hlater := readMembers?_leaves members next
        (fun entry hentry => hknown entry (List.mem_cons_of_mem _ hentry))
        (fun entry hentry => hleaf entry (List.mem_cons_of_mem _ hentry)) more
        (by simpa using hfuel) rest
      have hmore : memberChars false (next :: members) ++ rest =
          ',' :: (memberChars true (next :: members) ++ rest) := by
        simp [memberChars]
      rw [hmore, hcomma]
      simp only [hlater, Option.map_some, List.cons_append, List.nil_append]

theorem length_lt_memberChars (first : Bool) (members : List (String × Json)) :
    members.length < (memberChars first members).length := by
  induction members generalizing first with
  | nil => simp [memberChars]
  | cons member members ih =>
      obtain ⟨name, value⟩ := member
      have hlater := ih false
      simp only [memberChars, List.length_cons, List.length_append]
      omega

/-- The text of an object with known members gives its members back. -/
theorem parse?_object {known : String → Bool} {members : List (String × Json)}
    (hknown : ∀ member ∈ members, known member.1 = true)
    (hleaf : ∀ member ∈ members, member.2.Leaf) :
    parse? known (Json.object members).text = some (.named members) := by
  have hread : read? known (Json.object members).chars = some (.named members, []) := by
    cases members with
    | nil => rfl
    | cons member members =>
        have hfuel := length_lt_memberChars true (member :: members)
        have hmembers := readMembers?_leaves members member hknown hleaf
          (fuelFor (memberChars true (member :: members)))
          (by
            rw [List.length_cons] at hfuel
            rw [fuelFor]
            omega) []
        obtain ⟨name, value⟩ := member
        have hstart : memberChars true ((name, value) :: members) =
            '"' :: (name.toList.flatMap escape ++ '"' ::
              (':' :: (value.chars ++ memberChars false members))) := by
          simp [memberChars, quoted]
        rw [List.append_nil, hstart] at hmembers
        rw [chars, hstart]
        exact congrArg (Option.map fun found => (Fields.named found.1, found.2)) hmembers
  rw [parse?, Json.text, String.toList_ofList, hread]
  rfl

/-! ### Structures -/

/-- The members of the fields that have a value. -/
def given (slots : List (String × Option Json)) : List (String × Json) :=
  slots.filterMap fun slot => slot.2.map (slot.1, ·)

theorem given_nil : given [] = [] := rfl

theorem given_cons (slot : String × Option Json) (slots : List (String × Option Json)) :
    given (slot :: slots) = (slot.2.map (slot.1, ·)).toList ++ given slots := by
  cases hvalue : slot.2 <;> simp [given, hvalue]

theorem mem_given_iff {slots : List (String × Option Json)} {name : String} {value : Json} :
    (name, value) ∈ given slots ↔ (name, some value) ∈ slots := by
  simp only [given, List.mem_filterMap, Option.map_eq_some_iff, Prod.mk.injEq]
  constructor
  · rintro ⟨⟨_, _⟩, hmem, found, hfound, rfl, rfl⟩
    rw [← hfound]
    exact hmem
  · intro hmem
    exact ⟨(name, some value), hmem, value, rfl, rfl, rfl⟩

theorem filter_given_of_notMem {slots : List (String × Option Json)} {name : String}
    (h : name ∉ slots.map (·.1)) :
    (given slots).filter (fun member => [name].contains member.1) = [] := by
  rw [List.filter_eq_nil_iff]
  rintro ⟨other, value⟩ hmem
  have hslot := List.mem_map_of_mem (f := (·.1)) (mem_given_iff.mp hmem)
  have hne : other ≠ name := by
    rintro rfl
    exact h hslot
  simpa using hne

theorem filter_given {slots : List (String × Option Json)} (hnodup : (slots.map (·.1)).Nodup)
    {slot : String × Option Json} (hmem : slot ∈ slots) :
    (given slots).filter (fun member => [slot.1].contains member.1) =
      (slot.2.map (slot.1, ·)).toList := by
  induction slots with
  | nil => simp at hmem
  | cons head slots ih =>
      rw [List.map_cons, List.nodup_cons] at hnodup
      rw [given_cons, List.filter_append]
      rcases List.mem_cons.mp hmem with rfl | hlater
      · rw [filter_given_of_notMem hnodup.1, List.append_nil]
        cases slot.2 <;> simp
      · have hne : head.1 ≠ slot.1 := by
          intro heq
          exact hnodup.1 (heq ▸ List.mem_map_of_mem hlater)
        rw [ih hnodup.2 hlater]
        cases head.2 <;> simp [hne]

/-- Each declared field gets the value that its member was written with. -/
theorem values?_given {slots : List (String × Option Json)} (hnodup : (slots.map (·.1)).Nodup) :
    values? (slots.map fun slot => [slot.1]) (.named (given slots)) =
      some (slots.map (·.2)) := by
  have hall : ∀ rest : List (String × Option Json), (∀ slot ∈ rest, slot ∈ slots) →
      values? (rest.map fun slot => [slot.1]) (.named (given slots)) =
        some (rest.map (·.2)) := by
    intro rest hrest
    induction rest with
    | nil => rfl
    | cons slot rest ih =>
        have hlater := ih fun other hother => hrest other (List.mem_cons_of_mem _ hother)
        rw [values?] at hlater ⊢
        rw [List.map_cons, List.mapM_cons, hlater, filter_given hnodup (hrest slot (by simp))]
        cases hvalue : slot.2 <;> simp [hvalue]
  exact hall slots fun _ hmem => hmem

end Fields

namespace Schema

variable {schema : Schema α} {slots : List (String × Option Json)}

theorem declares_of_mem_given (hdeclared : schema.declared = slots.map fun slot => [slot.1])
    {member : String × Json} (h : member ∈ Fields.given slots) :
    schema.declares member.1 = true := by
  rw [declares, hdeclared, List.any_eq_true]
  exact ⟨[member.1], List.mem_map.mpr ⟨_, Fields.mem_given_iff.mp h, rfl⟩, by simp⟩

theorem ofFields?_given (hdeclared : schema.declared = slots.map fun slot => [slot.1])
    (hnodup : (slots.map (·.1)).Nodup) :
    schema.ofFields? (.named (Fields.given slots)) = schema.build (slots.map (·.2)) := by
  rw [ofFields?, hdeclared, Fields.values?_given hnodup]
  rfl

end Schema

/-- The text of a structure whose fields are all declared is read as they were written. -/
theorem Schema.parse?_given (schema : Schema α) (slots : List (String × Option Json))
    (hdeclared : schema.declared = slots.map fun slot => [slot.1])
    (hnodup : (slots.map (·.1)).Nodup)
    (hleaf : ∀ name value, (name, some value) ∈ slots → value.Leaf) :
    schema.parse? (Json.object (Fields.given slots)).text = schema.build (slots.map (·.2)) := by
  have hleaves : ∀ member ∈ Fields.given slots, member.2.Leaf := by
    rintro ⟨name, value⟩ hmem
    exact hleaf name value (Fields.mem_given_iff.mp hmem)
  rw [Schema.parse?, Fields.parse?_object (fun _ => declares_of_mem_given hdeclared) hleaves]
  exact ofFields?_given hdeclared hnodup

end SyncedBookmarks
