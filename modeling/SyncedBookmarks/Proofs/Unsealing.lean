import SyncedBookmarks.Proofs.Sealing
import SyncedBookmarks.Proofs.Steps

namespace SyncedBookmarks

/-! What opens was sealed: bytes have one form in base64, and one in hexadecimal but for the case of
its letters, and a ciphertext decrypts under no other vector and tag than those it was encrypted
with. -/

namespace Bytes

theorem ofText_injective {first second : String} (h : ofText first = ofText second) :
    first = second := by
  apply Option.some.inj
  rw [← text?_ofText first, ← text?_ofText second, h]

/-- A text of ASCII bytes has a character for each. -/
theorem eq_ofList_of_ascii {text : String} (h : ∀ byte ∈ ofText text, byte.toNat < 128) :
    text = String.ofList ((ofText text).map fun byte => Char.ofNat byte.toNat) := by
  apply ofText_injective
  rw [ofText_ofList_bytes h]

end Bytes

/-! ### Base64 -/

namespace Base64

theorem symbol_of_value? {byte : UInt8} {n : Nat} (h : value? byte = some n) :
    n < 64 ∧ symbol n = byte := by
  have hall : ∀ code < 256, (value? (UInt8.ofNat code)).all fun n =>
      decide (n < 64 ∧ symbol n = UInt8.ofNat code) := by decide +kernel
  have hbyte := hall byte.toNat (Bytes.toNat_lt byte)
  rw [UInt8.ofNat_toNat, h] at hbyte
  exact of_decide_eq_true hbyte

theorem symbol_of_symbolValue {byte : UInt8} {offset n : Nat}
    (h : symbolValue byte offset = .ok n) :
    n < 64 ∧ symbol n = byte := by
  rw [symbolValue] at h
  split at h
  · rename_i found hfound
    rw [← Except.ok.inj h]
    exact symbol_of_value? hfound
  · cases h

/-- After padding there is nothing but padding. -/
theorem lastValues_padded {start first count found : Nat} {values last : List Nat} {quad : Bytes}
    (h : lastValues start (some first) values count quad = .ok (last, found)) :
    last = values ∧ quad = List.replicate quad.length pad ∧ found = count + quad.length := by
  induction quad generalizing count with
  | nil =>
      obtain ⟨rfl, rfl⟩ := Prod.mk.inj (Except.ok.inj h)
      exact ⟨rfl, rfl, rfl⟩
  | cons byte quad ih =>
      rw [lastValues] at h
      split at h
      · rename_i hpad
        split at h
        · cases h
        · obtain ⟨hlast, hquad, hfound⟩ := ih h
          rw [List.length_cons, List.replicate_succ, ← hquad, hpad]
          exact ⟨hlast, rfl, by omega⟩
      · cases h

/-- What is read of the last quad: symbols, and after two of them at least, padding. -/
theorem lastValues_spec {start found : Nat} {values last : List Nat} {quad : Bytes}
    (h : lastValues start none values 0 quad = .ok (last, found)) :
    ∃ read, last = values ++ read ∧ (∀ n ∈ read, n < 64) ∧
      quad = read.map symbol ++ List.replicate found pad := by
  induction quad generalizing values with
  | nil =>
      obtain ⟨rfl, rfl⟩ := Prod.mk.inj (Except.ok.inj h)
      exact ⟨[], (List.append_nil _).symm, List.forall_mem_nil _, rfl⟩
  | cons byte quad ih =>
      rw [lastValues] at h
      split at h
      · rename_i hpad
        split at h
        · cases h
        · obtain ⟨rfl, hquad, hfound⟩ := lastValues_padded h
          refine ⟨[], (List.append_nil _).symm, List.forall_mem_nil _, ?_⟩
          have hcount : found = quad.length + 1 := by omega
          rw [hcount, List.replicate_succ, ← hquad, hpad]
          rfl
      · cases hvalue : symbolValue byte (start + values.length + 0) with
        | error cause =>
            rw [hvalue] at h
            cases h
        | ok n =>
            rw [hvalue] at h
            obtain ⟨hsmall, hsymbol⟩ := symbol_of_symbolValue hvalue
            obtain ⟨read, hlast, hread, hquad⟩ := ih h
            refine ⟨n :: read, ?_, ?_, ?_⟩
            · rw [hlast, List.append_assoc]
              rfl
            · exact List.forall_mem_cons.mpr ⟨hsmall, hread⟩
            · rw [List.map_cons, List.cons_append, ← hquad, hsymbol]

/-- The bytes that four values make are written as their symbols. -/
theorem encodeBytes_join {a b c d : Nat} (ha : a < 64) (hb : b < 64) (hc : c < 64) (hd : d < 64)
    (rest : Bytes) :
    encodeBytes (join a b c d ++ rest) =
      symbol a :: symbol b :: symbol c :: symbol d :: encodeBytes rest := by
  have hfirst : (UInt8.ofNat (a * 4 + b / 16)).toNat = a * 4 + b / 16 :=
    UInt8.toNat_ofNat_of_lt' (by rw [UInt8.size]; omega)
  have hsecond : (UInt8.ofNat (b % 16 * 16 + c / 4)).toNat = b % 16 * 16 + c / 4 :=
    UInt8.toNat_ofNat_of_lt' (by rw [UInt8.size]; omega)
  have hthird : (UInt8.ofNat (c % 4 * 64 + d)).toNat = c % 4 * 64 + d :=
    UInt8.toNat_ofNat_of_lt' (by rw [UInt8.size]; omega)
  have hjoin : join a b c d ++ rest = UInt8.ofNat (a * 4 + b / 16) ::
      UInt8.ofNat (b % 16 * 16 + c / 4) :: UInt8.ofNat (c % 4 * 64 + d) :: rest := rfl
  rw [hjoin, encodeBytes, hfirst, hsecond, hthird]
  have hvalues : (a * 4 + b / 16) / 4 = a ∧
      (a * 4 + b / 16) % 4 * 16 + (b % 16 * 16 + c / 4) / 16 = b ∧
      (b % 16 * 16 + c / 4) % 16 * 4 + (c % 4 * 64 + d) / 64 = c ∧
      (c % 4 * 64 + d) % 64 = d := by omega
  rw [hvalues.1, hvalues.2.1, hvalues.2.2.1, hvalues.2.2.2]

theorem encodeBytes_join_one {a b : Nat} (ha : a < 64) (hb : b < 64) (hstray : b % 16 = 0) :
    encodeBytes ((join a b 0 0).take 1) = [symbol a, symbol b, pad, pad] := by
  have hfirst : (UInt8.ofNat (a * 4 + b / 16)).toNat = a * 4 + b / 16 :=
    UInt8.toNat_ofNat_of_lt' (by rw [UInt8.size]; omega)
  have hvalues : (a * 4 + b / 16) / 4 = a ∧ (a * 4 + b / 16) % 4 * 16 = b := by omega
  rw [join, List.take_succ_cons, List.take_zero, encodeBytes, hfirst, hvalues.1, hvalues.2]

theorem encodeBytes_join_two {a b c : Nat} (ha : a < 64) (hb : b < 64) (hc : c < 64)
    (hstray : c % 4 = 0) :
    encodeBytes ((join a b c 0).take 2) = [symbol a, symbol b, symbol c, pad] := by
  have hfirst : (UInt8.ofNat (a * 4 + b / 16)).toNat = a * 4 + b / 16 :=
    UInt8.toNat_ofNat_of_lt' (by rw [UInt8.size]; omega)
  have hsecond : (UInt8.ofNat (b % 16 * 16 + c / 4)).toNat = b % 16 * 16 + c / 4 :=
    UInt8.toNat_ofNat_of_lt' (by rw [UInt8.size]; omega)
  have hvalues : (a * 4 + b / 16) / 4 = a ∧
      (a * 4 + b / 16) % 4 * 16 + (b % 16 * 16 + c / 4) / 16 = b ∧
      (b % 16 * 16 + c / 4) % 16 * 4 = c := by omega
  rw [join, List.take_succ_cons, List.take_succ_cons, List.take_zero, encodeBytes, hfirst, hsecond,
    hvalues.1, hvalues.2.1, hvalues.2.2]

/-- The last quads that are read, and the bytes that they are read as. -/
inductive LastQuad : Bytes → Bytes → Prop where
  | none : LastQuad [] []
  | one {a b : Nat} (ha : a < 64) (hb : b < 64) (hstray : b % 16 = 0) :
      LastQuad [symbol a, symbol b, pad, pad] ((join a b 0 0).take 1)
  | two {a b c : Nat} (ha : a < 64) (hb : b < 64) (hc : c < 64) (hstray : c % 4 = 0) :
      LastQuad [symbol a, symbol b, symbol c, pad] ((join a b c 0).take 2)
  | three {a b c d : Nat} (ha : a < 64) (hb : b < 64) (hc : c < 64) (hd : d < 64) :
      LastQuad [symbol a, symbol b, symbol c, symbol d] (join a b c d)

theorem lastQuad_of_decodeLast {start : Nat} {quad bytes : Bytes} (hshort : quad.length ≤ 4)
    (h : decodeLast start quad = .ok bytes) : LastQuad quad bytes := by
  obtain ⟨⟨values, padding⟩, hvalues, h⟩ := Action.exists_of_bind_ok h
  obtain ⟨_, rfl, hsmall, hquad⟩ := lastValues_spec hvalues
  have hlength : values.length + padding = quad.length := by
    rw [hquad, List.length_append, List.length_map, List.length_replicate]
  simp only [bind, Except.bind, pure, Except.pure, throw, throwThe, MonadExceptOf.throw] at h
  split at h
  · cases h
  rename_i hmany
  split at h
  · cases h
  rename_i hwhole
  have hfull : quad.length = 0 ∨ quad.length = 4 ∧ 2 ≤ values.length := by omega
  rcases values with _ | ⟨a, _ | ⟨b, _ | ⟨c, _ | ⟨d, _ | ⟨e, rest⟩⟩⟩⟩⟩ <;>
    simp only [List.forall_mem_cons, List.length_cons, List.length_nil] at hsmall hlength hfull h
  · obtain rfl : padding = 0 := by omega
    rw [hquad, ← Except.ok.inj h]
    exact .none
  · omega
  · obtain rfl : padding = 2 := by omega
    split at h
    · rename_i hstray
      rw [hquad, ← Except.ok.inj h]
      exact .one hsmall.1 hsmall.2.1 hstray
    · cases h
  · obtain rfl : padding = 1 := by omega
    split at h
    · rename_i hstray
      rw [hquad, ← Except.ok.inj h]
      exact .two hsmall.1 hsmall.2.1 hsmall.2.2.1 hstray
    · cases h
  · obtain rfl : padding = 0 := by omega
    rw [hquad, ← Except.ok.inj h]
    exact .three hsmall.1 hsmall.2.1 hsmall.2.2.1 hsmall.2.2.2.1
  · omega

/-- A last quad is read only if it is what its bytes are written as. -/
theorem LastQuad.encodeBytes_eq {quad bytes : Bytes} (h : LastQuad quad bytes) :
    encodeBytes bytes = quad := by
  cases h with
  | none => rfl
  | one ha hb hstray => exact encodeBytes_join_one ha hb hstray
  | two ha hb hc hstray => exact encodeBytes_join_two ha hb hc hstray
  | @three a b c d ha hb hc hd =>
      rw [← List.append_nil (join a b c d), encodeBytes_join ha hb hc hd]
      rfl

theorem encodeBytes_of_decodeQuads {start : Nat} {quads bytes : Bytes}
    (h : decodeQuads start quads = .ok bytes) : encodeBytes bytes = quads := by
  induction start, quads using decodeQuads.induct generalizing bytes with
  | case1 start s₀ s₁ s₂ s₃ next rest ih =>
      rw [decodeQuads] at h
      obtain ⟨a, hfirst, h⟩ := Action.exists_of_bind_ok h
      obtain ⟨b, hsecond, h⟩ := Action.exists_of_bind_ok h
      obtain ⟨c, hthird, h⟩ := Action.exists_of_bind_ok h
      obtain ⟨d, hfourth, h⟩ := Action.exists_of_bind_ok h
      obtain ⟨more, hmore, hbytes⟩ := Action.exists_of_bind_ok h
      obtain ⟨ha, rfl⟩ := symbol_of_symbolValue hfirst
      obtain ⟨hb, rfl⟩ := symbol_of_symbolValue hsecond
      obtain ⟨hc, rfl⟩ := symbol_of_symbolValue hthird
      obtain ⟨hd, rfl⟩ := symbol_of_symbolValue hfourth
      rw [← Except.ok.inj hbytes, encodeBytes_join ha hb hc hd, ih hmore]
  | case2 start quad hlong =>
      rw [decodeQuads.eq_2 start quad hlong] at h
      refine (lastQuad_of_decodeLast ?_ h).encodeBytes_eq
      rcases quad with _ | ⟨s₀, _ | ⟨s₁, _ | ⟨s₂, _ | ⟨s₃, _ | ⟨next, rest⟩⟩⟩⟩⟩
      all_goals first | exact (hlong _ _ _ _ _ _ rfl).elim | simp

/-- Bytes have one form in base64. -/
theorem decode_eq_ok_iff {text : String} {bytes : Bytes} :
    decode text = .ok bytes ↔ encode bytes = text := by
  constructor
  · intro h
    apply Bytes.ofText_injective
    rw [ofText_encode]
    rw [decode, decodeBytes] at h
    cases hlast : (Bytes.ofText text).getLast? with
    | none =>
        rw [hlast] at h
        rw [← Except.ok.inj h, List.getLast?_eq_none_iff.mp hlast]
        rfl
    | some last =>
        rw [hlast] at h
        simp only at h
        split at h
        · cases h
        · exact encodeBytes_of_decodeQuads h
  · rintro rfl
    exact decode_encode bytes

end Base64

/-! ### Hexadecimal -/

namespace Hex

theorem toList_toLower (text : String) : text.toLower.toList = text.toList.map Char.toLower :=
  String.toList_map

theorem digitChar_of_value {digit : UInt8} {position n : Nat} (h : value digit position = .ok n) :
    n < 16 ∧ digit.toNat < 128 ∧ (Char.ofNat digit.toNat).toLower = digitChar n := by
  have hall : ∀ code < 256, (value? (UInt8.ofNat code)).all fun n =>
      decide (n < 16 ∧ code < 128 ∧ (Char.ofNat code).toLower = digitChar n) := by decide +kernel
  have hdigit := hall digit.toNat (Bytes.toNat_lt digit)
  rw [UInt8.ofNat_toNat] at hdigit
  rw [value] at h
  split at h
  · rename_i found hfound
    rw [hfound, Except.ok.inj h] at hdigit
    exact of_decide_eq_true hdigit
  · cases h

theorem value_of_toLower {c : Char} {n : Nat} (hn : n < 16) (h : c.toLower = digitChar n)
    (position : Nat) : c.toNat < 128 ∧ value (UInt8.ofNat c.toNat) position = .ok n := by
  have hascii : c.toNat < 128 := by
    delta Char.toLower at h
    split at h
    · rename_i hupper
      have hlast : c.toNat ≤ 'Z'.toNat := hupper.2
      exact Nat.lt_of_le_of_lt hlast (by decide)
    · rw [h]
      exact digitChar_ascii hn
  have hall : ∀ code < 128, ∀ n < 16, (Char.ofNat code).toLower = digitChar n →
      value? (UInt8.ofNat code) = some n := by decide +kernel
  refine ⟨hascii, ?_⟩
  rw [value, hall c.toNat hascii n hn]
  rw [Char.ofNat_toNat]
  exact h

/-- Pairs of digits that are read are those of the bytes, but for the case of the letters. -/
theorem digits_of_decodePairs {position : Nat} {pairs bytes : Bytes} (heven : pairs.length % 2 = 0)
    (h : decodePairs position pairs = .ok bytes) :
    (∀ digit ∈ pairs, digit.toNat < 128) ∧
      pairs.map (fun digit => (Char.ofNat digit.toNat).toLower) = bytes.flatMap digits := by
  induction position, pairs using decodePairs.induct generalizing bytes with
  | case1 position high low rest ih =>
      rw [decodePairs] at h
      obtain ⟨h₁, hhigh, h⟩ := Action.exists_of_bind_ok h
      obtain ⟨h₀, hlow, h⟩ := Action.exists_of_bind_ok h
      obtain ⟨later, hlater, hbytes⟩ := Action.exists_of_bind_ok h
      obtain ⟨hsmall₁, hascii₁, hlower₁⟩ := digitChar_of_value hhigh
      obtain ⟨hsmall₀, hascii₀, hlower₀⟩ := digitChar_of_value hlow
      rw [List.length_cons, List.length_cons] at heven
      obtain ⟨hascii, hrest⟩ := ih (by omega) hlater
      refine ⟨List.forall_mem_cons.mpr ⟨hascii₁, List.forall_mem_cons.mpr ⟨hascii₀, hascii⟩⟩, ?_⟩
      have hbyte : (UInt8.ofNat (h₁ * 16 + h₀)).toNat = h₁ * 16 + h₀ :=
        UInt8.toNat_ofNat_of_lt' (by rw [UInt8.size]; omega)
      have hparts : (h₁ * 16 + h₀) / 16 = h₁ ∧ (h₁ * 16 + h₀) % 16 = h₀ := by omega
      rw [← Except.ok.inj hbytes, List.flatMap_cons, digits, hbyte, hparts.1, hparts.2,
        List.map_cons, List.map_cons, hlower₁, hlower₀, hrest]
      rfl
  | case2 pairs position hshort =>
      rcases pairs with _ | ⟨digit, _ | ⟨low, rest⟩⟩
      · rw [← Except.ok.inj h]
        exact ⟨List.forall_mem_nil _, rfl⟩
      · simp at heven
      · exact (hshort _ _ _ rfl).elim

theorem decodePairs_of_digits {chars : List Char} {bytes : Bytes}
    (h : chars.map Char.toLower = bytes.flatMap digits) (position : Nat) :
    (∀ c ∈ chars, c.toNat < 128) ∧ chars.length % 2 = 0 ∧
      decodePairs position (chars.map fun c => UInt8.ofNat c.toNat) = .ok bytes := by
  induction bytes generalizing chars position with
  | nil =>
      obtain rfl := List.map_eq_nil_iff.mp h
      exact ⟨List.forall_mem_nil _, rfl, rfl⟩
  | cons byte bytes ih =>
      have hbyte := Bytes.toNat_lt byte
      obtain ⟨high, later, rfl, hhigh, hlater⟩ := List.map_eq_cons_iff.mp h
      obtain ⟨low, rest, rfl, hlow, hrest⟩ := List.map_eq_cons_iff.mp hlater
      obtain ⟨hascii₁, hvalue₁⟩ := value_of_toLower (by omega) hhigh position
      obtain ⟨hascii₀, hvalue₀⟩ := value_of_toLower (by omega) hlow (position + 1)
      obtain ⟨hascii, heven, hbytes⟩ := ih hrest (position + 2)
      have hall : ∀ c ∈ high :: low :: rest, c.toNat < 128 :=
        List.forall_mem_cons.mpr ⟨hascii₁, List.forall_mem_cons.mpr ⟨hascii₀, hascii⟩⟩
      refine ⟨hall, ?_, ?_⟩
      · rw [List.length_cons, List.length_cons]
        omega
      · rw [List.map_cons, List.map_cons, decodePairs, hvalue₁, hvalue₀, hbytes]
        simp only [bind, Except.bind, pure, Except.pure]
        rw [Bytes.ofNat_eq (b := byte) (by omega)]

/-- Bytes have one form in hexadecimal but for the case of its letters. -/
theorem decode_eq_ok_iff {text : String} {bytes : Bytes} :
    decode text = .ok bytes ↔ text.toLower = encode bytes := by
  constructor
  · intro h
    simp only [decode] at h
    split at h
    · cases h
    · rename_i heven
      obtain ⟨hascii, hdigits⟩ := digits_of_decodePairs (by omega) h
      rw [Bytes.eq_ofList_of_ascii hascii, encode, ← hdigits, ← String.toList_inj, toList_toLower,
        String.toList_ofList, String.toList_ofList, List.map_map]
      rfl
  · intro h
    have hchars : text.toList.map Char.toLower = bytes.flatMap digits := by
      rw [← toList_toLower, h, encode, String.toList_ofList]
    obtain ⟨hascii, heven, hpairs⟩ := decodePairs_of_digits hchars 0
    rw [decode, ← String.ofList_toList (s := text), Bytes.ofText_ofList_ascii hascii]
    simp only [List.length_map]
    rw [if_neg (by omega)]
    exact hpairs

theorem toLower_encode (bytes : Bytes) : (encode bytes).toLower = encode bytes :=
  decode_eq_ok_iff.mp (decode_encode bytes)

end Hex

/-! ### Authenticated encryption -/

namespace Aead

variable {key iv ciphertext tag plaintext : Bytes}

theorem decrypt_ok (h : decrypt key iv ciphertext tag = .ok plaintext) :
    key.length = keyLength ∧ iv.length = ivLength ∧
      Gcm.decrypt? (Aes.encipher (Aes.roundKeys key)) iv ciphertext tag = some plaintext := by
  simp only [decrypt, checkKey, bind, Except.bind, pure, Except.pure, throw, throwThe,
    MonadExceptOf.throw] at h
  by_cases hkey : key.length = keyLength
  · by_cases hiv : iv.length = ivLength
    · refine ⟨hkey, hiv, ?_⟩
      by_cases htag : tag.length = tagLength
      · simp only [hkey, hiv, htag, ne_eq, not_true_eq_false, if_true, if_false] at h
        split at h
        · rename_i found hfound
          rw [hfound, Except.ok.inj h]
        · cases h
      · simp only [hkey, hiv, htag, ne_eq, not_true_eq_false, not_false_eq_true, if_true,
          if_false, reduceCtorEq] at h
    · simp only [hkey, hiv, ne_eq, not_false_eq_true, if_true, reduceCtorEq] at h
  · simp only [hkey, if_false, reduceCtorEq] at h

theorem encrypt_ok (h : encrypt key iv plaintext = .ok (ciphertext, tag)) :
    key.length = keyLength := by
  obtain ⟨_, hcheck, -⟩ := Action.exists_of_bind_ok h
  rw [checkKey] at hcheck
  split at hcheck
  · assumption
  · cases hcheck

/-- A ciphertext decrypts to nothing but what it was encrypted from, with the vector and the tag
that this gave. -/
theorem decrypt_eq_ok_iff :
    decrypt key iv ciphertext tag = .ok plaintext ↔
      iv.length = ivLength ∧ encrypt key iv plaintext = .ok (ciphertext, tag) := by
  constructor
  · intro h
    obtain ⟨hkey, hiv, hopened⟩ := decrypt_ok h
    have hcipher : Gcm.Blockwise (Aes.encipher (Aes.roundKeys key)) := by
      intro block hblock
      exact Aes.length_encipher (Aes.length_of_mem_roundKeys hkey) hblock
    refine ⟨hiv, ?_⟩
    rw [Gcm.decrypt?, Option.ite_none_right_eq_some] at hopened
    obtain ⟨htag, hplain⟩ := hopened
    have hcheck : checkKey key = .ok () := if_pos hkey
    rw [encrypt, hcheck, Gcm.encrypt, ← Option.some.inj hplain, Gcm.crypt_crypt hcipher hiv, htag]
    rfl
  · rintro ⟨hiv, h⟩
    obtain ⟨_, _, hencrypt, hdecrypt⟩ := decrypt_encrypt (encrypt_ok h) hiv plaintext
    rw [h] at hencrypt
    cases hencrypt
    exact hdecrypt

end Aead

/-! ### Envelopes -/

/-- Whether two envelopes are the same text by text, but for the case of the hexadecimal letters. -/
structure Envelope.SameButCase (first second : Envelope) : Prop where
  ciphertext : first.ciphertext = second.ciphertext
  iv : first.iv = second.iv
  tag : first.tag = second.tag
  hmac : first.hmac.toLower = second.hmac.toLower

namespace KeyBundle

variable {keys : KeyBundle} {envelope : Envelope} {plaintext : Bytes}

theorem decode_of_decodeField {name text : String} {bytes : Bytes}
    (h : decodeField name text = .ok bytes) : Base64.decode text = .ok bytes := by
  rw [decodeField] at h
  split at h
  · rename_i found hfound
    rw [hfound, Except.ok.inj h]
  · cases h

theorem openPayload_ok (h : keys.openPayload envelope = .ok plaintext) :
    Hex.decode envelope.hmac = .ok (keys.sign envelope.ciphertext) ∧
      ∃ ciphertext iv tag, Base64.decode envelope.ciphertext = .ok ciphertext ∧
        Base64.decode envelope.iv = .ok iv ∧ Base64.decode envelope.tag = .ok tag ∧
        Aead.decrypt keys.encryptionKey iv ciphertext tag = .ok plaintext := by
  rw [openPayload] at h
  cases hhmac : Hex.decode envelope.hmac with
  | error cause =>
      rw [hhmac] at h
      cases h
  | ok expected =>
      rw [hhmac] at h
      by_cases hsign : keys.sign envelope.ciphertext = expected
      · simp only [hsign, ne_eq, not_true_eq_false, if_false] at h
        obtain ⟨ciphertext, hciphertext, h⟩ := Action.exists_of_bind_ok h
        obtain ⟨iv, hiv, h⟩ := Action.exists_of_bind_ok h
        obtain ⟨tag, htag, hplain⟩ := Action.exists_of_bind_ok h
        exact ⟨congrArg _ hsign.symm, ciphertext, iv, tag, decode_of_decodeField hciphertext,
          decode_of_decodeField hiv, decode_of_decodeField htag, hplain⟩
      · simp only [hsign, ne_eq, not_false_eq_true, if_true] at h
        cases h

theorem sealPayload_eq {iv ciphertext tag : Bytes}
    (h : Aead.encrypt keys.encryptionKey iv plaintext = .ok (ciphertext, tag)) :
    keys.sealPayload iv plaintext = .ok ⟨Base64.encode ciphertext, Base64.encode iv,
      Base64.encode tag, Hex.encode (keys.sign (Base64.encode ciphertext))⟩ := by
  rw [sealPayload, h]
  rfl

/-- The envelopes that open are those that sealing gives, up to the case of the hexadecimal
letters. -/
theorem openPayload_eq_ok_iff :
    keys.openPayload envelope = .ok plaintext ↔
      ∃ iv sealed, Base64.decode envelope.iv = .ok iv ∧ iv.length = Aead.ivLength ∧
        keys.sealPayload iv plaintext = .ok sealed ∧ envelope.SameButCase sealed := by
  constructor
  · intro h
    obtain ⟨hhmac, ciphertext, iv, tag, hciphertext, hiv, htag, hdecrypt⟩ := openPayload_ok h
    obtain ⟨hlength, hencrypt⟩ := Aead.decrypt_eq_ok_iff.mp hdecrypt
    refine ⟨iv, _, hiv, hlength, sealPayload_eq hencrypt, ?_⟩
    have htext := Base64.decode_eq_ok_iff.mp hciphertext
    refine ⟨htext.symm, (Base64.decode_eq_ok_iff.mp hiv).symm,
      (Base64.decode_eq_ok_iff.mp htag).symm, ?_⟩
    rw [htext, Hex.decode_eq_ok_iff.mp hhmac, Hex.toLower_encode]
  · rintro ⟨iv, sealed, -, hlength, hseal, hsame⟩
    obtain ⟨⟨ciphertext, tag⟩, hencrypt, hsealed⟩ := Action.exists_of_bind_ok hseal
    have hdecrypt := Aead.decrypt_eq_ok_iff.mpr ⟨hlength, hencrypt⟩
    obtain rfl := Except.ok.inj hsealed
    have hhmac : Hex.decode envelope.hmac =
        .ok (keys.sign (Base64.encode ciphertext)) := by
      rw [Hex.decode_eq_ok_iff, hsame.hmac, Hex.toLower_encode]
    simp only [openPayload, decodeField, hhmac, hsame.ciphertext, hsame.iv, hsame.tag,
      Base64.decode_encode, bind, Except.bind, ne_eq, not_true_eq_false, if_false, hdecrypt]

/-- What opens is what sealing its content with its vector gives, up to the case of the hexadecimal
letters, and no other envelope opens to that content with that vector. -/
theorem sealed_of_openPayload (h : keys.openPayload envelope = .ok plaintext) :
    ∃ iv sealed, Base64.decode envelope.iv = .ok iv ∧ iv.length = Aead.ivLength ∧
      keys.sealPayload iv plaintext = .ok sealed ∧ envelope.SameButCase sealed ∧
      ∀ other : Envelope, keys.openPayload other = .ok plaintext →
        Base64.decode other.iv = .ok iv → other.SameButCase envelope := by
  obtain ⟨iv, sealed, hdecode, hiv, hseal, hsame⟩ := openPayload_eq_ok_iff.mp h
  refine ⟨iv, sealed, hdecode, hiv, hseal, hsame, ?_⟩
  intro other hother hagain
  obtain ⟨_, _, hdecode', -, hseal', hsame'⟩ := openPayload_eq_ok_iff.mp hother
  rw [hagain] at hdecode'
  cases hdecode'
  rw [hseal] at hseal'
  cases hseal'
  exact ⟨hsame'.ciphertext.trans hsame.ciphertext.symm, hsame'.iv.trans hsame.iv.symm,
    hsame'.tag.trans hsame.tag.symm, hsame'.hmac.trans hsame.hmac.symm⟩

/-- A payload that was sealed under blank keys is opened, and by its own envelope alone. -/
theorem blank_sealed_opened :
    let keys : KeyBundle := ⟨List.replicate 32 0, []⟩
    ∃ envelope, keys.openPayload envelope = .ok [1, 2, 3] ∧
      ∃ iv sealed, Base64.decode envelope.iv = .ok iv ∧ iv.length = Aead.ivLength ∧
        keys.sealPayload iv [1, 2, 3] = .ok sealed ∧ envelope.SameButCase sealed ∧
        ∀ other : Envelope, keys.openPayload other = .ok [1, 2, 3] →
          Base64.decode other.iv = .ok iv → other.SameButCase envelope := by
  intro keys
  have hkeys : keys.encryptionKey.length = Aead.keyLength := by decide
  have hiv : (List.replicate 12 (0 : UInt8)).length = Aead.ivLength := by decide
  obtain ⟨envelope, -, hopen⟩ := openPayload_sealPayload hkeys hiv [1, 2, 3]
  exact ⟨envelope, hopen, sealed_of_openPayload hopen⟩

end KeyBundle

end SyncedBookmarks
