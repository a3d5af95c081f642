import Mathlib.Algebra.Group.Int.Defs
import Mathlib.Algebra.Group.Nat.Defs
import SyncedBookmarks.Proofs.QueryOffsets

namespace SyncedBookmarks

/-! A query is pointed at another folder by a substitution: its first folder reference gets other
digits, and all else stays. -/

namespace Query

/-- Where a text has a reference: a digit follows a beginning that ends in a mark and the key. -/
structure RefersAfter (text before : List Char) : Prop where
  marked : ∃ mark, (mark = ':' ∨ mark = '&') ∧ mark :: key <:+ before
  digit : ∃ rest, text = before ++ rest ∧ startsWithDigit rest = true

/-- The first reference of a text, with all of its digits. -/
structure First (found : FolderReference) (text : List Char) : Prop extends Splits found text where
  refers : RefersAfter text found.before
  first : ∀ other, RefersAfter text other → found.before.length ≤ other.length

variable {previous : Option Char} {text before : List Char} {found : FolderReference}

theorem RefersAfter.append (h : RefersAfter text before) (front : List Char) :
    RefersAfter (front ++ text) (front ++ before) := by
  obtain ⟨mark, hmark, hends⟩ := h.marked
  obtain ⟨rest, htext, hdigit⟩ := h.digit
  exact ⟨⟨mark, hmark, hends.trans (List.suffix_append front before)⟩,
    rest, by rw [htext, List.append_assoc], hdigit⟩

/-- Of a text behind a character: either the reference begins with that character, or it lies in the
text. -/
theorem RefersAfter.cons_cases {c : Char} (h : RefersAfter (c :: text) before) :
    before = c :: key ∧ opensReference (some c) = true ∧ key <+: text ∧
        startsWithDigit (text.drop key.length) = true ∨
      ∃ later, before = c :: later ∧ RefersAfter text later := by
  obtain ⟨mark, hmark, front, rfl⟩ := h.marked
  obtain ⟨rest, htext, hdigit⟩ := h.digit
  cases front with
  | nil =>
      obtain ⟨rfl, rfl⟩ := List.cons_eq_cons.mp htext
      have hdrop : (key ++ rest).drop key.length = rest := List.drop_left
      exact .inl ⟨rfl, opensReference_iff.mpr hmark, List.prefix_append key rest,
        hdrop.symm ▸ hdigit⟩
  | cons d front =>
      obtain ⟨rfl, rfl⟩ := List.cons_eq_cons.mp htext
      exact .inr ⟨_, rfl, ⟨mark, hmark, List.suffix_append front _⟩, rest, rfl, hdigit⟩

theorem refersAfter_of_findReference? (h : findReference? previous text = some found) :
    RefersAfter (previous.toList ++ text) (previous.toList ++ found.before) := by
  induction text generalizing previous found with
  | nil => cases h
  | cons c rest ih =>
      simp only [findReference?] at h
      split at h
      · rename_i hopens
        obtain ⟨hmark, hkey, hdigit⟩ := hopens
        obtain rfl := Option.some.inj h
        obtain ⟨tail, htail⟩ := List.isPrefixOf_iff_prefix.mp hkey
        cases previous with
        | none => cases hmark
        | some mark =>
            rw [← htail, List.drop_left] at hdigit
            exact ⟨⟨mark, opensReference_iff.mp hmark, List.suffix_refl _⟩, tail,
              congrArg (mark :: ·) htail.symm, hdigit⟩
      · obtain ⟨inner, hinner, rfl⟩ := Option.map_eq_some_iff.mp h
        exact (ih hinner).append previous.toList

theorem RefersAfter.key_lt_length (h : RefersAfter text before) : key.length < before.length := by
  obtain ⟨mark, -, hends⟩ := h.marked
  exact hends.length_le

/-- A reference is found, and none that stands behind another. -/
theorem exists_findReference? (h : RefersAfter (previous.toList ++ text) before) :
    ∃ found, findReference? previous text = some found ∧
      (previous.toList ++ found.before).length ≤ before.length := by
  induction text generalizing previous before with
  | nil =>
      obtain ⟨rest, htext, -⟩ := h.digit
      have hlength := congrArg List.length htext
      have hbefore := h.key_lt_length
      have hkey : key.length = 7 := by decide
      have hshort : previous.toList.length ≤ 1 := by cases previous <;> simp
      simp only [List.append_nil, List.length_append] at hlength
      omega
  | cons c rest ih =>
      by_cases hopens : opensReference previous = true ∧ key.isPrefixOf (c :: rest) = true ∧
          startsWithDigit ((c :: rest).drop key.length) = true
      case pos =>
        refine ⟨_, by rw [findReference?, if_pos hopens], ?_⟩
        have hkey := h.key_lt_length
        cases previous with
        | none => cases hopens.1
        | some mark => exact hkey
      case neg =>
        have hlater : ∃ later,
            before = previous.toList ++ later ∧ RefersAfter (c :: rest) later := by
          cases previous with
          | none => exact ⟨before, rfl, h⟩
          | some mark =>
              obtain ⟨-, hmark, hkey, hdigit⟩ | hlater := h.cons_cases
              · exact absurd ⟨hmark, List.isPrefixOf_iff_prefix.mpr hkey, hdigit⟩ hopens
              · exact hlater
        obtain ⟨later, rfl, hlater⟩ := hlater
        obtain ⟨inner, hinner, hfirst⟩ := @ih (some c) _ hlater
        refine ⟨{ inner with before := c :: inner.before }, ?_, ?_⟩
        · rw [findReference?, if_neg hopens, hinner]
          rfl
        · rw [List.length_append, List.length_append]
          exact Nat.add_le_add_left hfirst _

theorem first_of_reference? {uri : String} (h : reference? uri = some found) :
    First found uri.toList where
  toSplits := splits_of_findReference? h
  refers := refersAfter_of_findReference? h
  first other hother := by
    obtain ⟨same, hsame, hfirst⟩ := @exists_findReference? none _ _ hother
    obtain rfl := Option.some.inj (h.symm.trans hsame)
    exact hfirst

theorem isSome_reference?_iff {uri : String} :
    (reference? uri).isSome ↔ ∃ before, RefersAfter uri.toList before := by
  constructor
  · intro h
    obtain ⟨found, hfound⟩ := Option.isSome_iff_exists.mp h
    exact ⟨_, (first_of_reference? hfound).refers⟩
  · rintro ⟨before, hbefore⟩
    obtain ⟨found, hfound, -⟩ := @exists_findReference? none _ _ hbefore
    exact Option.isSome_iff_exists.mpr ⟨found, hfound⟩

theorem search_ofText (uri : String) :
    searchFrom (Bytes.ofText uri) 0 =
      .ok ((reference? uri).map (FolderReference.range [])) := by
  rw [Bytes.ofText_eq]
  exact searchFrom_ofChars [] uri.toList

/-- The digits of a reference begin and end between characters. -/
theorem Splits.isBoundary_range {uri : String} (h : Splits found uri.toList) :
    (Bytes.ofText uri).isBoundary (found.range []).1 = true ∧
      (Bytes.ofText uri).isBoundary (found.range []).2 = true := by
  have hascii : ∀ c ∈ found.digits, c.toNat < 128 := by
    intro c hc
    have hnine : '9'.toNat = 57 := rfl
    have hdigit := Char.isDigit_iff_toNat.mp (h.digits c hc)
    omega
  have hlast : (found.range []).2 = (Bytes.ofChars (found.before ++ found.digits)).length := by
    rw [Bytes.ofChars_append, List.length_append, Bytes.length_ofChars_of_ascii hascii]
    rfl
  rw [Bytes.ofText_eq, hlast, ← h.whole]
  refine ⟨?_, Bytes.isBoundary_ofChars _ _⟩
  rw [List.append_assoc]
  exact Bytes.isBoundary_ofChars _ _

theorem digitsValue_eq (digits : List Char) :
    digitsValue digits = Nat.ofDigitChars 10 digits 0 := by
  rw [Nat.ofDigitChars_eq_foldl, digitsValue]
  simp only [Nat.mul_comm 10, Char.reduceToNat]

theorem folderId?_eq {uri : String} (h : reference? uri = some found) :
    folderId? uri =
      if Nat.ofDigitChars 10 found.digits 0 < 2 ^ 63 then
        some (Nat.ofDigitChars 10 found.digits 0 : Int)
      else none := by
  rw [folderId?, h, ← digitsValue_eq]
  rfl

theorem isSome_withFolder?_iff {uri : String} {folder : Int} :
    (withFolder? uri folder).isSome ↔ ∃ before, RefersAfter uri.toList before := by
  rw [← isSome_reference?_iff, withFolder?]
  cases reference? uri <;> simp

/-- A URI that is pointed elsewhere is as good as the first one for pointing it anywhere. -/
theorem Redirects.withFolder?_eq {uri url : String} {folder : Int} (h : Redirects uri folder url)
    (hpos : 0 ≤ folder) (other : Int) : withFolder? url other = withFolder? uri other := by
  obtain ⟨found, huri, hurl⟩ := h.reference? hpos
  rw [withFolder?, withFolder?, huri, hurl]
  rfl

/-- The search for a folder reference ends, cuts no character and finds the first one, if there is
any; and to point a URI at a folder is to put the folder's number in place of the digits of that
reference. -/
theorem rewriting_substitutes (uri : String) {folder : Int} (hpos : 0 ≤ folder)
    (hfits : folder < 2 ^ 63) :
    (∃ range, searchFrom (Bytes.ofText uri) 0 = .ok range ∧
      ∀ first last, range = some (first, last) →
        (Bytes.ofText uri).isBoundary first ∧ (Bytes.ofText uri).isBoundary last) ∧
    ((withFolder? uri folder).isSome ↔ ∃ before, RefersAfter uri.toList before) ∧
    ∀ url, withFolder? uri folder = some url →
      folderId? url = some folder ∧
      (∀ other, withFolder? url other = withFolder? uri other) ∧
      ∃ found, First found uri.toList ∧
        searchFrom (Bytes.ofText uri) 0 = .ok (some (found.range [])) ∧
        url.toList = found.before ++ (toString folder).toList ++ found.after ∧
        folderId? uri =
          if Nat.ofDigitChars 10 found.digits 0 < 2 ^ 63 then
            some (Nat.ofDigitChars 10 found.digits 0 : Int)
          else none := by
  refine ⟨⟨_, search_ofText uri, ?_⟩, isSome_withFolder?_iff, ?_⟩
  · intro first last hrange
    obtain ⟨found, hfound, hends⟩ := Option.map_eq_some_iff.mp hrange
    have hboundary := (splits_of_findReference? hfound).isBoundary_range
    rwa [hends] at hboundary
  · intro url hurl
    have hredirects := redirects_of_withFolder? hurl
    obtain ⟨found, hfound, -, hlist⟩ := hredirects.splits
    refine ⟨hredirects.folderId? hpos hfits, hredirects.withFolder?_eq hpos, found,
      first_of_reference? hfound, ?_, hlist, folderId?_eq hfound⟩
    rw [search_ofText, hfound]
    rfl

/-- The first key makes no reference, and the number behind the second has zeros in front. -/
theorem second_key_rewritten :
    ∃ url, withFolder? "place:é.folder=1&folder=007&folder=3" 12 = some url ∧
      url = "place:é.folder=1&folder=12&folder=3" ∧ folderId? url = some 12 ∧
      (∀ other, withFolder? url other =
        withFolder? "place:é.folder=1&folder=007&folder=3" other) := by
  obtain ⟨-, -, hurls⟩ := @rewriting_substitutes "place:é.folder=1&folder=007&folder=3" 12
    (by decide) (by decide)
  have hurl : withFolder? "place:é.folder=1&folder=007&folder=3" 12 =
      some "place:é.folder=1&folder=12&folder=3" := rfl
  obtain ⟨hid, hsame, -⟩ := hurls _ hurl
  exact ⟨_, hurl, rfl, hid, hsame⟩

end Query

end SyncedBookmarks
