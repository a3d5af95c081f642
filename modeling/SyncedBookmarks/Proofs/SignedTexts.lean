import Mathlib
import SyncedBookmarks.Hawk
import SyncedBookmarks.Proofs.UrlParts

namespace SyncedBookmarks

/-! What a request is signed for can be read back from the text that is signed: every part of it but
the last has a line of its own, and no part has a line end in it. -/

/-- The first field of a text ends where the separator stands first. -/
theorem field_inj {separator : Char} {field mark rest other : List Char}
    (hfield : separator ∉ field) (hmark : separator ∉ mark)
    (h : field ++ separator :: rest = mark ++ separator :: other) :
    field = mark ∧ rest = other := by
  induction field generalizing mark with
  | nil =>
      cases mark with
      | nil => exact ⟨rfl, (List.cons.inj h).2⟩
      | cons d mark =>
          obtain rfl := (List.cons.inj h).1
          exact absurd List.mem_cons_self hmark
  | cons c field ih =>
      cases mark with
      | nil =>
          obtain rfl := (List.cons.inj h).1
          exact absurd List.mem_cons_self hfield
      | cons d mark =>
          obtain ⟨rfl, htail⟩ := List.cons.inj h
          obtain ⟨rfl, hrest⟩ := ih (fun hmem => hfield (List.mem_cons_of_mem _ hmem))
            (fun hmem => hmark (List.mem_cons_of_mem _ hmem)) htail
          exact ⟨rfl, hrest⟩

/-- Lines can be told apart, whatever follows them. -/
theorem lines_inj {lines marks : List (List Char)} {rest other : List Char}
    (hlength : lines.length = marks.length) (hlines : ∀ line ∈ lines, '\n' ∉ line)
    (hmarks : ∀ mark ∈ marks, '\n' ∉ mark)
    (h : lines.flatMap (· ++ ['\n']) ++ rest = marks.flatMap (· ++ ['\n']) ++ other) :
    lines = marks ∧ rest = other := by
  induction lines generalizing marks with
  | nil =>
      obtain rfl := List.eq_nil_of_length_eq_zero hlength.symm
      exact ⟨rfl, h⟩
  | cons line lines ih =>
      cases marks with
      | nil => cases hlength
      | cons mark marks =>
          rw [List.forall_mem_cons] at hlines hmarks
          simp only [List.flatMap_cons, List.append_assoc, List.cons_append] at h
          obtain ⟨rfl, htail⟩ := field_inj hlines.1 hmarks.1 h
          obtain ⟨rfl, hrest⟩ := ih (Nat.succ.inj hlength) hlines.2 hmarks.2 htail
          exact ⟨rfl, hrest⟩

/-! ### Parts -/

theorem repr_injective {m n : Nat} (h : m.repr = n.repr) : m = n := by
  have hdigits := congrArg String.toList h
  rw [Nat.toList_repr, Nat.toList_repr] at hdigits
  rw [← Nat.ofDigitChars_ten_toDigits (n := m), hdigits, Nat.ofDigitChars_ten_toDigits]

theorem intText_injective {m n : Int} (h : toString m = toString n) : m = n := by
  have hminus : ∀ k l : Nat, k.repr ≠ "-" ++ l.repr := by
    intro k l heq
    have hmem : '-' ∈ k.repr.toList := by simp [heq]
    rw [Nat.toList_repr] at hmem
    exact absurd (Nat.isDigit_of_mem_toDigits (by decide) (by decide) hmem) (by decide)
  rw [Int.toString_eq_repr, Int.toString_eq_repr, Int.repr_eq_if, Int.repr_eq_if] at h
  split at h <;> split at h
  · have hsame := repr_injective h
    omega
  · exact absurd h (hminus _ _)
  · exact absurd h.symm (hminus _ _)
  · have hsame := repr_injective ((String.append_right_inj _).mp h)
    omega

theorem newline_notMem_intText (n : Int) : '\n' ∉ (toString n).toList := by
  rw [Int.toString_eq_repr, Int.repr_eq_if]
  split
  · exact notMem_toString _
  · rw [String.toList_append, List.mem_append, not_or]
    exact ⟨by decide, notMem_toString _⟩

theorem newline_of_toUpper {c : Char} (h : c.toUpper = '\n') : c = '\n' := by
  have hletter : c.isAlpha = false := by
    rw [← Char.isAlpha_toUpper_eq_isAlpha, h]
    decide
  rw [Char.isAlpha, Bool.or_eq_false_iff] at hletter
  rw [← h, Char.toUpper_eq_of_not_isLower (by simp [hletter.2])]

theorem newline_of_toLower {c : Char} (h : c.toLower = '\n') : c = '\n' := by
  have hletter : c.isAlpha = false := by
    rw [← Char.isAlpha_toLower_eq_isAlpha, h]
    decide
  rw [Char.isAlpha, Bool.or_eq_false_iff] at hletter
  rw [← h, Char.toLower_eq_of_not_isUpper (by simp [hletter.1])]

theorem Url.notMem_hostText {url : Url} (htidy : url.Tidy) {host : String}
    (h : url.hostText? = some host) : '\n' ∉ host.toList := by
  rw [Url.hostText?] at h
  split at h
  · cases h
  · rename_i known hknown
    split at h
    · cases h
    · obtain rfl := Option.some.inj h
      exact htidy.host known hknown

theorem Url.notMem_resource {url : Url} (htidy : url.Tidy) : '\n' ∉ url.resource.toList := by
  rw [Url.resource]
  split
  · rename_i query hquery
    rw [String.toList_append, String.toList_append, List.mem_append, List.mem_append, not_or,
      not_or]
    exact ⟨⟨htidy.path, by decide⟩, htidy.query query hquery⟩
  · exact htidy.path

/-- A path has no question mark, so path and query can be read back from what they are joined to. -/
theorem Url.resource_inj {url other : Url} (htidy : url.Tidy) (hother : other.Tidy)
    (h : url.resource = other.resource) :
    url.path.text = other.path.text ∧ url.query = other.query := by
  have hno : ∀ {path query : String} {url : Url}, url.Tidy →
      path ++ "?" ++ query ≠ url.path.text := by
    intro path query url htidy heq
    apply htidy.question
    rw [← heq]
    simp
  rw [Url.resource, Url.resource] at h
  split at h <;> split at h
  · rename_i query hquery _ otherQuery hotherQuery
    have hchars := congrArg String.toList h
    simp only [String.toList_append, List.append_assoc] at hchars
    obtain ⟨hpath, hqueries⟩ := field_inj htidy.question hother.question hchars
    exact ⟨String.toList_inj.mp hpath, by
      rw [hquery, hotherQuery, String.toList_inj.mp hqueries]⟩
  · exact absurd h (hno hother)
  · exact absurd h.symm (hno htidy)
  · rename_i hquery _ hotherQuery
    exact ⟨h, hquery.trans hotherQuery.symm⟩

namespace Hawk

/-- The lines of the text that is signed, up to the text of the application. -/
def lines (request : Request) (artifacts : Artifacts) : List (List Char) :=
  ["hawk.1.header".toList, (toString artifacts.seconds).toList, artifacts.nonce.toList,
    request.method.toList, request.resource.toList, request.host.toList,
    (toString request.port).toList, []]

theorem length_lines (request : Request) (artifacts : Artifacts) :
    (lines request artifacts).length = 8 :=
  rfl

theorem toList_normalized (request : Request) (artifacts : Artifacts) :
    (normalized request artifacts).toList =
      (lines request artifacts).flatMap (· ++ ['\n']) ++ (artifacts.extText.toList ++ ['\n']) := by
  simp [normalized, lines]

/-- What is asked for when a request is signed. -/
structure Call where
  uri : String
  method : String
  credentials : Credentials
  artifacts : Artifacts

/-- Where a request goes, with the host and the port that its URL names or implies. -/
structure Target where
  url : Url
  host : String
  port : Nat

namespace Call

def header (call : Call) : Except CryptoError String :=
  Hawk.header call.uri call.method call.credentials call.artifacts

/-- The text that is signed for a request to the target. -/
def text (call : Call) (target : Target) : String :=
  normalized ⟨upper call.method, target.url.resource, lower target.host, target.port⟩
    call.artifacts

/-- The call is for a request to the target, and its header ends with the signature of the text. -/
structure Signs (call : Call) (target : Target) : Prop where
  parsed : Url.parse call.uri = .ok target.url
  host : target.url.hostText? = some target.host
  port : target.url.effectivePort? = some target.port
  header : ∃ start, call.header =
    .ok (start ++ s!", mac=\"{mac call.credentials.key (call.text target)}\"")

theorem Signs.target_eq {call : Call} {target other : Target} (h : call.Signs target)
    (hother : call.Signs other) : target = other := by
  obtain ⟨url, host, port⟩ := target
  obtain ⟨otherUrl, otherHost, otherPort⟩ := other
  obtain rfl : url = otherUrl := Except.ok.inj (h.parsed.symm.trans hother.parsed)
  obtain rfl : host = otherHost := Option.some.inj (h.host.symm.trans hother.host)
  obtain rfl : port = otherPort := Option.some.inj (h.port.symm.trans hother.port)
  rfl

theorem exists_signs {call : Call} {text : String} (h : call.header = .ok text) :
    ∃ target, call.Signs target := by
  have hheader := h
  rw [header, Hawk.header] at hheader
  obtain ⟨request, hrequest, hheader⟩ := Action.exists_of_bind_ok hheader
  have htarget : ∃ target : Target, Url.parse call.uri = .ok target.url ∧
      target.url.hostText? = some target.host ∧ target.url.effectivePort? = some target.port ∧
      request = ⟨upper call.method, target.url.resource, lower target.host, target.port⟩ := by
    rw [Request.ofUri] at hrequest
    split at hrequest
    · rename_i url hparsed
      simp only [pure_bind] at hrequest
      split at hrequest
      · rename_i host hhost
        split at hrequest
        · rename_i port hport
          obtain rfl := Except.ok.inj hrequest
          exact ⟨⟨url, host, port⟩, hparsed, hhost, hport, rfl⟩
        · cases hrequest
      · cases hrequest
    · cases hrequest
  obtain ⟨target, hparsed, hhost, hport, rfl⟩ := htarget
  obtain rfl := Except.ok.inj hheader
  exact ⟨target, hparsed, hhost, hport, _, h⟩

theorem newline_notMem_lines {call : Call} {target : Target} (h : call.Signs target)
    (hmethod : '\n' ∉ call.method.toList) (hnonce : '\n' ∉ call.artifacts.nonce.toList) :
    ∀ line ∈ lines ⟨upper call.method, target.url.resource, lower target.host, target.port⟩
      call.artifacts, '\n' ∉ line := by
  have htidy := Url.tidy_of_parse h.parsed
  have hupper : '\n' ∉ (upper call.method).toList := by
    rw [upper, String.toList_ofList, List.mem_map]
    rintro ⟨c, hc, hnewline⟩
    exact hmethod (newline_of_toUpper hnewline ▸ hc)
  have hlower : '\n' ∉ (lower target.host).toList := by
    rw [lower, String.toList_ofList, List.mem_map]
    rintro ⟨c, hc, hnewline⟩
    exact Url.notMem_hostText htidy h.host (newline_of_toLower hnewline ▸ hc)
  simp only [lines, List.forall_mem_cons]
  exact ⟨by decide, newline_notMem_intText _, hnonce, hupper, Url.notMem_resource htidy, hlower,
    notMem_toString _, by simp, by simp⟩

/-- Two calls for a header sign the same text only for the same time, nonce and method, to the same
path, query, host and port, with the same text of the application. -/
theorem signed_text_unambiguous {first second : Call} {firstHeader secondHeader : String}
    (hfirst : first.header = .ok firstHeader) (hsecond : second.header = .ok secondHeader)
    (hfirstMethod : '\n' ∉ first.method.toList) (hsecondMethod : '\n' ∉ second.method.toList)
    (hfirstNonce : '\n' ∉ first.artifacts.nonce.toList)
    (hsecondNonce : '\n' ∉ second.artifacts.nonce.toList) :
    ∃ target other : Target, first.Signs target ∧ second.Signs other ∧
      (first.text target = second.text other →
        first.artifacts.seconds = second.artifacts.seconds ∧
        first.artifacts.nonce = second.artifacts.nonce ∧
        upper first.method = upper second.method ∧
        target.url.path.text = other.url.path.text ∧ target.url.query = other.url.query ∧
        lower target.host = lower other.host ∧ target.port = other.port ∧
        first.artifacts.extText = second.artifacts.extText) := by
  obtain ⟨target, htarget⟩ := exists_signs hfirst
  obtain ⟨other, hother⟩ := exists_signs hsecond
  refine ⟨target, other, htarget, hother, fun htext => ?_⟩
  have hchars := congrArg String.toList htext
  rw [text, text, toList_normalized, toList_normalized] at hchars
  -- Only the lines before it are told apart; the text of the application is what is left.
  obtain ⟨hlines, hext⟩ := lines_inj (by rw [length_lines, length_lines])
    (newline_notMem_lines htarget hfirstMethod hfirstNonce)
    (newline_notMem_lines hother hsecondMethod hsecondNonce) hchars
  simp only [lines, List.cons.injEq, String.toList_inj, true_and, and_true] at hlines
  obtain ⟨hseconds, hnonce, hmethod, hresource, hhost, hport⟩ := hlines
  obtain ⟨hpath, hquery⟩ := Url.resource_inj (Url.tidy_of_parse htarget.parsed)
    (Url.tidy_of_parse hother.parsed) hresource
  exact ⟨intText_injective hseconds, hnonce, hmethod, hpath, hquery, hhost,
    repr_injective hport, String.toList_inj.mp (List.append_cancel_right hext)⟩

def plainCall : Call :=
  ⟨"http://[::1]/a?b", "get", ⟨"i", "k"⟩, { seconds := -1, nonce := "n" }⟩

/-- The same with the method, the scheme, the port and the text of the application written
otherwise. -/
def fullCall : Call :=
  ⟨"HTTP://[::1]:80/a?b", "GET", ⟨"j", "l"⟩, { seconds := -1, nonce := "n", ext := some "" }⟩

/-- What both are for. -/
def commonTarget : Target :=
  ⟨{ scheme := "http", host := some (.ipv6 [0, 0, 0, 0, 0, 0, 0, 1]), path := .segments ["a"]
     query := some "b" }, "[::1]", 80⟩

theorem spellings_signed_alike :
    ∃ target other : Target, plainCall.Signs target ∧ fullCall.Signs other ∧
      plainCall.text target = fullCall.text other ∧
      (plainCall.text target = fullCall.text other →
        plainCall.artifacts.seconds = fullCall.artifacts.seconds ∧
        plainCall.artifacts.nonce = fullCall.artifacts.nonce ∧
        upper plainCall.method = upper fullCall.method ∧
        target.url.path.text = other.url.path.text ∧ target.url.query = other.url.query ∧
        lower target.host = lower other.host ∧ target.port = other.port ∧
        plainCall.artifacts.extText = fullCall.artifacts.extText) := by
  obtain ⟨target, other, htarget, hother, hparts⟩ :=
    @signed_text_unambiguous plainCall fullCall _ _ rfl rfl (by decide) (by decide) (by decide)
      (by decide)
  refine ⟨target, other, htarget, hother, ?_, hparts⟩
  have hplain : plainCall.Signs commonTarget := ⟨rfl, rfl, rfl, _, rfl⟩
  have hfull : fullCall.Signs commonTarget := ⟨rfl, rfl, rfl, _, rfl⟩
  have hmethod : upper "get" = upper "GET" := by decide
  obtain rfl := htarget.target_eq hplain
  obtain rfl := hother.target_eq hfull
  simp [text, plainCall, fullCall, normalized, Artifacts.extText, hmethod]

end Call

end Hawk

end SyncedBookmarks
