import Mathlib
import SyncedBookmarks.Proofs.Steps
import SyncedBookmarks.Url.Basic

namespace SyncedBookmarks

/-! Which characters the parts of a URL are free of: host, path and query have no line end in them,
and the path has no question mark. -/

theorem mem_intercalate {c : Char} {separator : List Char} {texts : List (List Char)}
    (h : c ∈ separator.intercalate texts) : c ∈ separator ∨ ∃ text ∈ texts, c ∈ text := by
  induction texts with
  | nil => cases h
  | cons text rest ih =>
      cases rest with
      | nil =>
          rw [List.intercalate_singleton] at h
          exact .inr ⟨text, by simp, h⟩
      | cons next rest =>
          rw [List.intercalate_cons_cons, List.mem_append, List.mem_append] at h
          rcases h with (hhere | hbetween) | hlater
          · exact .inr ⟨text, by simp, hhere⟩
          · exact .inl hbetween
          · obtain hbetween | ⟨other, hother, hmem⟩ := ih hlater
            · exact .inl hbetween
            · exact .inr ⟨other, by simp [hother], hmem⟩

/-! ### Percent encoding -/

namespace Percent

/-- What an encoded byte is written with. -/
def marks : List Char :=
  "%0123456789ABCDEF".toList

theorem upperDigit_mem {value : Nat} (h : value < 16) : upperDigit value ∈ marks := by
  have hall : ∀ value < 16, upperDigit value ∈ marks := by decide
  exact hall value h

theorem mem_encode {encoded : Char → Bool} {c : Char} {text : List Char}
    (h : c ∈ encode encoded text) : c ∈ marks ∨ c ∈ text ∧ encoded c = false := by
  obtain ⟨d, hd, hc⟩ := List.mem_flatMap.mp h
  rw [encodeChar] at hc
  split at hc
  · obtain ⟨byte, -, hbyte⟩ := List.mem_flatMap.mp hc
    have hlow : byte.toNat < 256 := UInt8.toNat_lt byte
    simp only [encodeByte, List.mem_cons, List.not_mem_nil, or_false] at hbyte
    rcases hbyte with rfl | rfl | rfl
    · exact .inl (by decide)
    · exact .inl (upperDigit_mem (by omega))
    · exact .inl (upperDigit_mem (by omega))
  · rename_i hplain
    obtain rfl := List.mem_singleton.mp hc
    exact .inr ⟨hd, by simpa using hplain⟩

/-- A character that is encoded does not stand in what is encoded. -/
theorem notMem_encode {encoded : Char → Bool} {c : Char} (hencoded : encoded c = true)
    (hmarks : c ∉ marks) (text : List Char) : c ∉ encode encoded text := by
  intro h
  obtain hmark | ⟨-, hplain⟩ := mem_encode h
  · exact hmarks hmark
  · rw [hencoded] at hplain
    cases hplain

end Percent

/-! ### Domains -/

namespace Punycode

theorem ofNat_ne_newline {code : Nat} (h : code ≠ 10) : Char.ofNat code ≠ '\n' := by
  intro heq
  have hcode := congrArg Char.toNat heq
  rw [Char.toNat_ofNat] at hcode
  split at hcode
  · exact h hcode
  · cases hcode

theorem digit_ne_newline (value : Nat) : digit value ≠ '\n' := by
  rw [digit]
  split
  · exact ofNat_ne_newline (by omega)
  · exact ofNat_ne_newline (by omega)

theorem notMem_digits (fuel value k bias : Nat) : '\n' ∉ digits fuel value k bias := by
  induction fuel generalizing value k bias with
  | zero => simp [digits]
  | succ fuel ih =>
      rw [digits]
      split
      · simpa using (digit_ne_newline _).symm
      · rw [List.mem_cons, not_or]
        exact ⟨(digit_ne_newline _).symm, ih _ _ _⟩

theorem notMem_encodePass {basic code : Nat} {state : Encoder} (h : '\n' ∉ state.output)
    (text : List Char) : '\n' ∉ (encodePass basic code text state).output := by
  induction text generalizing state with
  | nil => exact h
  | cons c text ih =>
      rw [encodePass, List.foldl_cons]
      apply ih
      split
      · exact h
      · split
        · rw [List.mem_append, not_or]
          exact ⟨h, notMem_digits _ _ _ _⟩
        · exact h

theorem notMem_encodeRest {basic fuel code : Nat} {text : List Char} {state : Encoder}
    (h : '\n' ∉ state.output) : '\n' ∉ (encodeRest basic text fuel code state).output := by
  induction fuel generalizing code state with
  | zero => exact h
  | succ fuel ih =>
      rw [encodeRest]
      split
      · exact h
      · exact ih (notMem_encodePass (by exact h) text)

theorem notMem_encode {text : List Char} (h : '\n' ∉ text) : '\n' ∉ encode text := by
  apply notMem_encodeRest
  have hbasic : '\n' ∉ text.filter (·.toNat < 128) := fun hmem => h (List.mem_filter.mp hmem).1
  dsimp only
  split
  · exact List.not_mem_nil
  · rw [List.mem_append, not_or]
    exact ⟨hbasic, by decide⟩

end Punycode

namespace Domain

theorem notMem_of_readLabel? {text label : List Char} (h : readLabel? text = some label) :
    '\n' ∉ label := by
  rw [readLabel?] at h
  split at h
  all_goals
    obtain ⟨found, -, h⟩ := Option.bind_eq_some_iff.mp h
    dsimp only at h
    split at h
    · cases h
    · rename_i hvalid
      obtain rfl := Option.some.inj h
      intro hmem
      exact hvalid (.inr (.inl (List.any_eq_true.mpr ⟨_, hmem, by decide⟩)))

theorem notMem_writeLabel {label : List Char} (h : '\n' ∉ label) : '\n' ∉ writeLabel label := by
  rw [writeLabel]
  split
  · exact h
  · rw [List.mem_append, not_or]
    exact ⟨by decide, Punycode.notMem_encode h⟩

theorem exists_of_mem_mapM {read : α → Option β} {texts : List α} {found : List β}
    (h : texts.mapM read = some found) {label : β} (hlabel : label ∈ found) :
    ∃ text ∈ texts, read text = some label := by
  induction texts generalizing found with
  | nil =>
      obtain rfl := Option.some.inj h
      cases hlabel
  | cons text texts ih =>
      rw [List.mapM_cons] at h
      obtain ⟨first, hfirst, h⟩ := Option.bind_eq_some_iff.mp h
      obtain ⟨rest, hrest, h⟩ := Option.bind_eq_some_iff.mp h
      obtain rfl := Option.some.inj h
      rcases List.mem_cons.mp hlabel with rfl | hlater
      · exact ⟨text, by simp, hfirst⟩
      · obtain ⟨other, hother, hread⟩ := ih hrest hlater
        exact ⟨other, by simp [hother], hread⟩

theorem notMem_of_toAscii? {domain ascii : List Char} (h : toAscii? domain = some ascii) :
    '\n' ∉ ascii := by
  obtain ⟨mapped, -, h⟩ := Option.bind_eq_some_iff.mp h
  obtain ⟨labels, hlabels, h⟩ := Option.bind_eq_some_iff.mp h
  split at h
  · cases h
  · obtain rfl := Option.some.inj h
    intro hmem
    obtain hdot | ⟨written, hwritten, hmem⟩ := mem_intercalate hmem
    · exact absurd hdot (by decide)
    · obtain ⟨label, hlabel, rfl⟩ := List.mem_map.mp hwritten
      obtain ⟨text, -, hread⟩ := exists_of_mem_mapM hlabels hlabel
      exact notMem_writeLabel (notMem_of_readLabel? hread) hmem

end Domain

/-! ### Hosts -/

theorem notMem_toDigits {base : Nat} (hbase : 1 < base) (n : Nat) :
    '\n' ∉ Nat.toDigits base n := by
  have hdigit : ∀ value, '\n' ≠ Nat.digitChar value := fun value =>
    (Nat.digitChar_ne '\n' (by decide)).symm
  induction n using Nat.strongRecOn with
  | ind n ih =>
      rw [Nat.toDigits_eq_if hbase]
      split
      · exact fun hmem => hdigit n (List.mem_singleton.mp hmem)
      · have hless : n / base < n := Nat.div_lt_self (by omega) hbase
        rw [List.mem_append, not_or]
        exact ⟨ih _ hless, fun hmem => hdigit _ (List.mem_singleton.mp hmem)⟩

theorem notMem_toString (n : Nat) : '\n' ∉ (toString n).toList := by
  rw [Nat.toString_eq_repr, Nat.toList_repr]
  exact notMem_toDigits (by decide) n

namespace Host

theorem notMem_ipv4 (address : Nat) : '\n' ∉ (Ipv4.text address).toList := by
  rw [Ipv4.text, String.toList_intercalate]
  intro hmem
  obtain hdot | ⟨text, htext, hmem⟩ := mem_intercalate hmem
  · exact absurd hdot (by decide)
  · obtain ⟨part, hpart, rfl⟩ := List.mem_map.mp htext
    obtain ⟨i, -, rfl⟩ := List.mem_map.mp hpart
    exact notMem_toString _ hmem

theorem notMem_ipv6 (pieces : List Nat) : '\n' ∉ (Ipv6.text pieces).toList := by
  have hjoined : ∀ pieces : List Nat,
      '\n' ∉ (":".intercalate (pieces.map Ipv6.pieceText)).toList := by
    intro pieces hmem
    rw [String.toList_intercalate] at hmem
    obtain hcolon | ⟨text, htext, hmem⟩ := mem_intercalate hmem
    · exact absurd hcolon (by decide)
    · obtain ⟨part, hpart, rfl⟩ := List.mem_map.mp htext
      obtain ⟨piece, -, rfl⟩ := List.mem_map.mp hpart
      rw [Ipv6.pieceText, String.toList_ofList] at hmem
      exact notMem_toDigits (by decide) _ hmem
  rw [Ipv6.text]
  dsimp only
  split
  · exact hjoined pieces
  · rw [String.toList_append, String.toList_append, List.mem_append, List.mem_append, not_or,
      not_or]
    exact ⟨⟨hjoined _, by decide⟩, hjoined _⟩

end Host

namespace Url

theorem notMem_of_readBracketed {text : List Char} {host : Host}
    (h : readBracketed text = .ok host) : '\n' ∉ host.text.toList := by
  rw [readBracketed] at h
  split at h
  · split at h
    · cases h
      rw [Host.text, String.toList_append, String.toList_append, List.mem_append, List.mem_append,
        not_or, not_or]
      exact ⟨⟨by decide, Host.notMem_ipv6 _⟩, by decide⟩
    · cases h
  · cases h

theorem notMem_of_readPlainHost {text : List Char} {host : Host}
    (h : readPlainHost text = .ok host) : '\n' ∉ host.text.toList := by
  rw [readPlainHost] at h
  split at h
  · exact notMem_of_readBracketed h
  · split at h
    · cases h
    · cases h
      rw [Host.text, String.toList_ofList]
      exact Percent.notMem_encode (by decide) (by decide) text

theorem notMem_of_readHost {text : List Char} {host : Host} (h : readHost text = .ok host) :
    '\n' ∉ host.text.toList := by
  rw [readHost] at h
  split at h
  · exact notMem_of_readBracketed h
  · split at h
    · cases h
    · rename_i domain hdomain
      obtain ⟨decoded, -, hascii⟩ := Option.bind_eq_some_iff.mp hdomain
      split at h
      · cases h
      · split at h
        · split at h
          · cases h
            exact Host.notMem_ipv4 _
          · cases h
        · cases h
          rw [Host.text, String.toList_ofList]
          exact Domain.notMem_of_toAscii? hascii

/-! ### Paths and queries -/

/-- A character that cannot stand in a path. -/
structure Unpathed (c : Char) : Prop where
  encoded : Percent.inPath c = true
  unmarked : c ∉ Percent.marks
  letter : c.isAlpha = false
  colon : c ≠ ':'
  slash : c ≠ '/'

theorem unpathed_newline : Unpathed '\n' := by
  constructor <;> decide

theorem unpathed_question : Unpathed '?' := by
  constructor <;> decide

theorem Unpathed.notMem_enter {c : Char} (hc : Unpathed c) {path : PathSoFar}
    (hpath : ∀ segment ∈ path.kept, c ∉ segment) (scheme : SchemeClass) (segment : List Char) :
    ∀ other ∈ (path.enter scheme segment).kept, c ∉ other := by
  rw [PathSoFar.enter]
  split
  · rename_i hdrive
    obtain ⟨-, -, hdrive⟩ := hdrive
    rw [isDriveLetter.eq_def] at hdrive
    split at hdrive
    · rename_i letter mark
      have hletter : c ≠ letter := by
        rintro rfl
        rw [hc.letter] at hdrive
        cases hdrive
      simpa using ⟨hletter, hc.colon⟩
    · cases hdrive
  · rw [List.forall_mem_cons]
    exact ⟨Percent.notMem_encode hc.encoded hc.unmarked segment, hpath⟩

theorem notMem_leave {c : Char} {path : PathSoFar} (hpath : ∀ segment ∈ path.kept, c ∉ segment) :
    ∀ other ∈ path.leave.kept, c ∉ other := by
  rw [PathSoFar.leave]
  split
  · rename_i last rest hkept
    split
    · exact hpath
    · intro other hother
      exact hpath other (hkept ▸ List.mem_cons_of_mem last hother)
  · exact hpath

theorem Unpathed.notMem_read {c : Char} (hc : Unpathed c) {path : PathSoFar}
    (hpath : ∀ segment ∈ path.kept, c ∉ segment) (scheme : SchemeClass)
    (segments : List (List Char)) :
    ∀ other ∈ (path.read scheme segments).kept, c ∉ other := by
  induction segments generalizing path with
  | nil => exact hpath
  | cons segment segments ih =>
      -- A dot at the end only adds an empty segment to what is kept.
      have hnext : ∀ other ∈ (if isDoubleDot segment then path.leave
          else if isSingleDot segment then path
          else path.enter scheme segment).kept, c ∉ other := by
        split
        · exact notMem_leave hpath
        · split
          · exact hpath
          · exact hc.notMem_enter hpath scheme segment
      rw [PathSoFar.read]
      split
      · exact List.forall_mem_cons.mpr ⟨List.not_mem_nil, hnext⟩
      · exact ih hnext

theorem Unpathed.notMem_readPath {c : Char} (hc : Unpathed c) (scheme : SchemeClass)
    (input : List Char) : ∀ segment ∈ (readPath scheme input).kept, c ∉ segment := by
  rw [readPath.eq_def]
  split
  · split
    · simp
    · simp
  · exact hc.notMem_read (by simp) scheme _

theorem Unpathed.notMem_segments {c : Char} (hc : Unpathed c) (scheme : SchemeClass)
    {path : PathSoFar} (hpath : ∀ segment ∈ path.kept, c ∉ segment) :
    c ∉ (UrlPath.segments (path.segments scheme)).text.toList := by
  have hsegments : ∀ segment ∈ path.segments scheme, c ∉ segment.toList := by
    have hreversed : ∀ segment ∈ path.kept.reverse, c ∉ segment := by
      simpa using hpath
    intro segment hsegment
    rw [PathSoFar.segments] at hsegment
    obtain ⟨chars, hchars, rfl⟩ := List.mem_map.mp hsegment
    rw [String.toList_ofList]
    split at hchars
    · split at hchars
      · rw [List.mem_singleton.mp hchars]
        exact List.not_mem_nil
      · exact hreversed chars ((List.dropWhile_sublist _).subset hchars)
    · exact hreversed chars hchars
  rw [UrlPath.text, String.toList_join]
  intro hmem
  obtain ⟨part, hpart, hmem⟩ := List.mem_flatMap.mp hmem
  obtain ⟨segment, hsegment, rfl⟩ := List.mem_map.mp hpart
  rw [String.toList_append, List.mem_append] at hmem
  rcases hmem with hslash | hmem
  · exact hc.slash (List.mem_singleton.mp hslash)
  · exact hsegments segment hsegment hmem

theorem notMem_splitTail {scheme : SchemeClass} {input : List Char} {query : String}
    (h : (splitTail scheme input).query = some query) : '\n' ∉ query.toList := by
  have hencoded : ∀ text, '\n' ∉ (String.ofList (Percent.encode
      (if scheme = .special then Percent.inSpecialQuery else Percent.inQuery) text)).toList := by
    intro text
    rw [String.toList_ofList]
    split
    · exact Percent.notMem_encode (by decide) (by decide) text
    · exact Percent.notMem_encode (by decide) (by decide) text
  rw [splitTail] at h
  dsimp only at h
  split at h
  · split at h
    · obtain rfl := Option.some.inj h
      exact hencoded _
    · obtain rfl := Option.some.inj h
      exact hencoded _
  · cases h
  · cases h

theorem question_notMem_splitTail (scheme : SchemeClass) (input : List Char) :
    '?' ∉ (splitTail scheme input).path := by
  have hpath : (splitTail scheme input).path
      = input.takeWhile fun c => c ≠ '?' && c ≠ '#' := by
    rw [splitTail]
    dsimp only
    split
    · split <;> rfl
    · rfl
    · rfl
  rw [hpath]
  intro hmem
  exact absurd (List.all_eq_true.mp List.all_takeWhile _ hmem) (by decide)

/-- A URL in whose parts nothing stands that could be taken for the end of one. -/
structure Tidy (url : Url) : Prop where
  host : ∀ host, url.host = some host → '\n' ∉ host.text.toList
  path : '\n' ∉ url.path.text.toList
  question : '?' ∉ url.path.text.toList
  query : ∀ query, url.query = some query → '\n' ∉ query.toList

theorem tidy_withTail {host : Option Host}
    (h : ∀ known, host = some known → '\n' ∉ known.text.toList) (scheme : String)
    (input : List Char) : Tidy (withTail scheme host input) where
  host known hknown := by
    rw [withTail] at hknown
    dsimp only at hknown
    split at hknown
    · obtain rfl := Option.some.inj hknown
      decide
    · exact h known hknown
  path := unpathed_newline.notMem_segments _ (unpathed_newline.notMem_readPath _ _)
  question := unpathed_question.notMem_segments _ (unpathed_question.notMem_readPath _ _)
  query _ hquery := notMem_splitTail hquery

theorem tidy_of_readAuthority {scheme : String} {input : List Char} {url : Url}
    (h : readAuthority scheme input = .ok url) : Tidy url := by
  rw [readAuthority] at h
  generalize splitUserinfo (schemeClass scheme) input = parts at h
  obtain ⟨info, rest⟩ := parts
  -- What is refused on the way, and which of the two readers of hosts it is, does not matter here.
  replace h := Action.next_of_guard_ok (Action.next_of_guard_ok h)
  obtain ⟨host, hread, h⟩ := Action.exists_of_choice_ok h
  have hhost : '\n' ∉ host.text.toList := hread.elim notMem_of_readHost notMem_of_readPlainHost
  replace h := Action.next_of_guard_ok h
  have hparts : ∃ rest port username password,
      url = { withTail scheme (some host) rest with username, password, port } := by
    dsimp only at h
    split at h
    all_goals
      obtain ⟨⟨port, rest⟩, -, h⟩ := Action.exists_of_bind_ok h
      replace h := Action.next_of_guard_ok h
      cases h
      exact ⟨rest, port, _, _, rfl⟩
  obtain ⟨rest, port, username, password, rfl⟩ := hparts
  have htidy : Tidy (withTail scheme (some host) rest) :=
    tidy_withTail (by simpa using hhost) scheme rest
  exact ⟨htidy.host, htidy.path, htidy.question, htidy.query⟩

theorem tidy_of_readFile {input : List Char} {url : Url} (h : readFile input = .ok url) :
    Tidy url := by
  have hno : ∀ input, Tidy (withTail "file" noHost input) := by
    refine fun input => tidy_withTail ?_ "file" input
    rintro _ ⟨⟩
    decide
  rw [readFile.eq_def] at h
  split at h
  · split at h
    · dsimp only at h
      split at h
      · cases h
        exact hno _
      · obtain ⟨host, hread, h⟩ := Action.exists_of_choice_ok h
        have hhost : '\n' ∉ host.text.toList := by
          rcases hread with hempty | hread
          · cases hempty
            decide
          · exact notMem_of_readHost hread
        cases h
        refine tidy_withTail ?_ "file" _
        rintro _ ⟨⟩
        split
        · decide
        · exact hhost
    · cases h
      exact hno _
  · cases h
    exact hno _

theorem tidy_of_parse {text : String} {url : Url} (h : parse text = .ok url) : Tidy url := by
  rw [parse] at h
  split at h
  · cases h
  · split at h
    · exact tidy_of_readFile h
    · exact tidy_of_readAuthority h
    · split at h
      · exact tidy_of_readAuthority h
      · cases h
        refine tidy_withTail ?_ _ _
        rintro _ ⟨⟩
      · cases h
        refine ⟨?_, ?_, ?_, fun _ => notMem_splitTail⟩
        · rintro _ ⟨⟩
        · rw [UrlPath.text, String.toList_ofList]
          exact Percent.notMem_encode (by decide) (by decide) _
        · rw [UrlPath.text, String.toList_ofList]
          intro hmem
          obtain hmark | ⟨hmem, -⟩ := Percent.mem_encode hmem
          · exact absurd hmark (by decide)
          · exact question_notMem_splitTail _ _ hmem

end Url

end SyncedBookmarks
