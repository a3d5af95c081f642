import Mathlib.Algebra.Group.Int.Defs
import Mathlib.Data.List.TakeWhile
import SyncedBookmarks.Query

namespace SyncedBookmarks

/-! The folder that a query refers to. With other digits in its place the reference is found where
it was, and so a query that is pointed at a folder refers to that folder. -/

namespace Query

/-- What is found of a reference: the text around a run of digits that goes on for as long as it
can. -/
structure Splits (found : FolderReference) (text : List Char) : Prop where
  whole : found.before ++ found.digits ++ found.after = text
  keyed : key <:+ found.before
  filled : found.digits ≠ []
  digits : ∀ c ∈ found.digits, c.isDigit = true
  stops : startsWithDigit found.after = false

variable {previous : Option Char} {text digits : List Char} {found : FolderReference}

theorem startsWithDigit_dropWhile (text : List Char) :
    startsWithDigit (text.dropWhile Char.isDigit) = false := by
  cases hrest : text.dropWhile Char.isDigit with
  | nil => rfl
  | cons c rest =>
      have hhead := List.dropWhile_get_zero_not Char.isDigit text (by rw [hrest]; simp)
      simpa [hrest, startsWithDigit] using hhead

theorem takeWhile_ne_nil (h : startsWithDigit text = true) :
    text.takeWhile Char.isDigit ≠ [] := by
  cases text with
  | nil => cases h
  | cons c rest =>
      change c.isDigit = true at h
      rw [List.takeWhile_cons_of_pos h]
      exact List.cons_ne_nil _ _

theorem splits_of_findReference? (h : findReference? previous text = some found) :
    Splits found text := by
  induction text generalizing previous found with
  | nil => cases h
  | cons c rest ih =>
      simp only [findReference?] at h
      split at h
      · rename_i hopens
        obtain ⟨-, hkey, hdigit⟩ := hopens
        obtain rfl := Option.some.inj h
        obtain ⟨tail, htail⟩ := List.isPrefixOf_iff_prefix.mp hkey
        rw [← htail, List.drop_left] at hdigit ⊢
        constructor
        case whole => rw [List.append_assoc, List.takeWhile_append_dropWhile]
        case keyed => exact List.suffix_refl key
        case filled => exact takeWhile_ne_nil hdigit
        case digits => exact fun c hc => List.mem_takeWhile_imp hc
        case stops => exact startsWithDigit_dropWhile tail
      · obtain ⟨inner, hinner, rfl⟩ := Option.map_eq_some_iff.mp h
        have hsplits := ih hinner
        exact
          { hsplits with
            whole := congrArg (c :: ·) hsplits.whole
            keyed := hsplits.keyed.trans (List.suffix_cons c _) }

/-! ### Other digits -/

theorem startsWithDigit_append {after : List Char} (hne : digits ≠ [])
    (hdigits : ∀ c ∈ digits, c.isDigit = true) : startsWithDigit (digits ++ after) = true := by
  cases digits with
  | nil => exact absurd rfl hne
  | cons c rest => exact hdigits c List.mem_cons_self

theorem findReference?_key {after : List Char} (hopens : opensReference previous = true)
    (hne : digits ≠ []) (hdigits : ∀ c ∈ digits, c.isDigit = true)
    (hstops : startsWithDigit after = false) :
    findReference? previous (key ++ (digits ++ after)) = some ⟨key, digits, after⟩ := by
  have hnone : after.takeWhile Char.isDigit = [] := by
    cases after with
    | nil => rfl
    | cons c rest => exact List.takeWhile_cons_of_neg (by simpa [startsWithDigit] using hstops)
  have hrest : after.dropWhile Char.isDigit = after := by
    cases after with
    | nil => rfl
    | cons c rest => exact List.dropWhile_cons_of_neg (by simpa [startsWithDigit] using hstops)
  have hprefix : key.isPrefixOf (key ++ (digits ++ after)) = true :=
    List.isPrefixOf_iff_prefix.mpr (List.prefix_append _ _)
  have hdrop : (key ++ (digits ++ after)).drop key.length = digits ++ after := List.drop_left
  have hcons : key ++ (digits ++ after) =
      'f' :: ("older=".toList ++ (digits ++ after)) := rfl
  have hdigit : startsWithDigit ((key ++ (digits ++ after)).drop key.length) = true := by
    rw [hdrop]
    exact startsWithDigit_append hne hdigits
  rw [hcons] at hprefix hdrop hdigit ⊢
  rw [findReference?, if_pos ⟨hopens, hprefix, hdigit⟩, hdrop,
    List.takeWhile_append_of_pos hdigits, List.dropWhile_append_of_pos hdigits, hnone, hrest,
    List.append_nil]

/-- Whether a reference may begin at the start of a text can be told from the key and one character
more. -/
theorem begins_append_iff {before : List Char} (hkey : key.length < before.length)
    (first second : List Char) :
    (key.isPrefixOf (before ++ first) ∧ startsWithDigit ((before ++ first).drop key.length)) ↔
      key.isPrefixOf (before ++ second) ∧
        startsWithDigit ((before ++ second).drop key.length) := by
  have hhead : ∀ last, startsWithDigit ((before ++ last).drop key.length) =
      startsWithDigit (before.drop key.length) := by
    intro last
    rw [List.drop_append_of_le_length hkey.le]
    cases hdrop : before.drop key.length with
    | nil => exact absurd (List.drop_eq_nil_iff.mp hdrop) hkey.not_ge
    | cons c rest => rfl
  have hprefix : ∀ last, key.isPrefixOf (before ++ last) = true ↔ key <+: before := by
    intro last
    have hbefore := List.prefix_append before last
    rw [List.isPrefixOf_iff_prefix]
    exact ⟨fun hprefix => List.prefix_of_prefix_length_le hprefix hbefore hkey.le,
      fun hprefix => hprefix.trans hbefore⟩
  rw [hhead, hhead, hprefix, hprefix]

/-- The reference is found again when its digits are replaced by others. -/
theorem findReference?_replaced (h : findReference? previous text = some found)
    (hne : digits ≠ []) (hdigits : ∀ c ∈ digits, c.isDigit = true) :
    findReference? previous (found.before ++ (digits ++ found.after)) =
      some { found with digits } := by
  induction text generalizing previous found with
  | nil => cases h
  | cons c rest ih =>
      have hsplits := splits_of_findReference? h
      simp only [findReference?] at h
      split at h
      · rename_i hopens
        obtain rfl := Option.some.inj h
        exact findReference?_key hopens.1 hne hdigits hsplits.stops
      · rename_i hnot
        obtain ⟨inner, hinner, rfl⟩ := Option.map_eq_some_iff.mp h
        have hinside := splits_of_findReference? hinner
        have hkey : key.length < (c :: inner.before).length :=
          Nat.lt_succ_of_le hinside.keyed.length_le
        have hsame := begins_append_iff hkey (inner.digits ++ inner.after)
          (digits ++ inner.after)
        rw [← List.append_assoc, show c :: inner.before ++ inner.digits ++ inner.after = c :: rest
          from congrArg (c :: ·) hinside.whole] at hsame
        change findReference? previous (c :: (inner.before ++ (digits ++ inner.after))) = _
        rw [findReference?, if_neg, ih hinner]
        · rfl
        · exact fun hopens => hnot ⟨hopens.1, hsame.mpr hopens.2⟩

theorem toList_toString_natCast (n : Nat) : (toString (n : Int)).toList = Nat.toDigits 10 n :=
  Nat.toList_repr

theorem digitsValue_toDigits (n : Nat) : digitsValue (Nat.toDigits 10 n) = n := by
  have hvalue := Nat.ofDigitChars_ten_toDigits (n := n)
  rw [Nat.ofDigitChars_eq_foldl] at hvalue
  simpa only [digitsValue, Nat.mul_comm 10, Char.reduceToNat] using hvalue

/-! ### URIs -/

/-- A URI that refers to a folder is none without an equals sign. -/
theorem withFolder?_ne {uri localized other : String} {folder : Int}
    (h : withFolder? uri folder = some localized) (hother : '=' ∉ other.toList) :
    localized ≠ other := by
  obtain ⟨found, hfound, hlocalized⟩ := Option.bind_eq_some_iff.mp h
  rintro rfl
  apply hother
  rw [← Option.some.inj hlocalized, String.toList_ofList]
  have hequals : '=' ∈ found.before :=
    (splits_of_findReference? hfound).keyed.subset (by decide)
  exact List.mem_append_left _ (List.mem_append_left _ hequals)

/-- A URI that is another one but for the number of the folder that it refers to. -/
structure Redirects (uri : String) (folder : Int) (url : String) : Prop where
  splits : ∃ found, reference? uri = some found ∧
    uri.toList = found.before ++ found.digits ++ found.after ∧
    url.toList = found.before ++ (toString folder).toList ++ found.after

theorem redirects_of_withFolder? {uri url : String} {folder : Int}
    (h : withFolder? uri folder = some url) : Redirects uri folder url := by
  obtain ⟨found, hfound, hurl⟩ := Option.bind_eq_some_iff.mp h
  refine ⟨found, hfound, (splits_of_findReference? hfound).whole.symm, ?_⟩
  rw [← Option.some.inj hurl, String.toList_ofList]

/-- The reference of a URI that is pointed at a folder stands where it stood. -/
theorem Redirects.reference? {uri url : String} {folder : Int} (h : Redirects uri folder url)
    (hpos : 0 ≤ folder) :
    ∃ found, reference? uri = some found ∧
      reference? url = some { found with digits := Nat.toDigits 10 folder.toNat } := by
  obtain ⟨found, hfound, -, hurl⟩ := h.splits
  obtain ⟨n, rfl⟩ := Int.eq_ofNat_of_zero_le hpos
  refine ⟨found, hfound, ?_⟩
  rw [Query.reference?, hurl, toList_toString_natCast, List.append_assoc]
  exact findReference?_replaced hfound Nat.toDigits_ne_nil
    fun c hc => Nat.isDigit_of_mem_toDigits (by decide) (by decide) hc

/-- A URI that is pointed at a folder refers to it. -/
theorem Redirects.folderId? {uri url : String} {folder : Int} (h : Redirects uri folder url)
    (hpos : 0 ≤ folder) (hfits : folder < 2 ^ 63) : folderId? url = some folder := by
  obtain ⟨found, -, hreference⟩ := h.reference? hpos
  obtain ⟨n, rfl⟩ := Int.eq_ofNat_of_zero_le hpos
  rw [Int.toNat_natCast] at hreference
  have hsmall : n < Nat.pow 2 63 := by
    have hcast : (n : Int) < ((2 ^ 63 : Nat) : Int) := hfits
    exact Int.ofNat_lt.mp hcast
  simp only [Query.folderId?, hreference, digitsValue_toDigits, Option.bind_eq_bind,
    Option.bind_some, if_pos hsmall]

/-- What a URI begins with, if that is no longer than the key, it begins with when it is pointed
elsewhere. -/
theorem Redirects.startsWith {uri url start : String} {folder : Int}
    (h : Redirects uri folder url) (hshort : start.toList.length ≤ key.length)
    (hstarts : uri.startsWith start = true) : url.startsWith start = true := by
  obtain ⟨found, hfound, huri, hurl⟩ := h.splits
  have hlength := hshort.trans (splits_of_findReference? hfound).keyed.length_le
  rw [String.startsWith_string_iff] at hstarts ⊢
  rw [huri, List.append_assoc] at hstarts
  rw [hurl, List.append_assoc]
  exact (List.prefix_of_prefix_length_le hstarts (List.prefix_append _ _) hlength).trans
    (List.prefix_append _ _)

end Query

end SyncedBookmarks
