import SyncedBookmarks.Codec.Base64
import SyncedBookmarks.Codec.Hex

namespace SyncedBookmarks

/-! Bytes that are written in hexadecimal or in base64 are read back. -/

namespace Bytes

/-- The bytes of a text, character for character. -/
def ofChars (chars : List Char) : Bytes :=
  chars.flatMap String.utf8EncodeChar

theorem ofText_eq (text : String) : ofText text = ofChars text.toList := by
  have hencode : ∀ chars, ofText (String.ofList chars) = ofChars chars := by
    intro chars
    simp [ofText, ofChars, List.utf8Encode]
  rw [← hencode, String.ofList_toList]

theorem ofChars_cons (c : Char) (chars : List Char) :
    ofChars (c :: chars) = String.utf8EncodeChar c ++ ofChars chars :=
  List.flatMap_cons

theorem ofChars_append (first second : List Char) :
    ofChars (first ++ second) = ofChars first ++ ofChars second :=
  List.flatMap_append

theorem utf8EncodeChar_of_ascii {c : Char} (h : c.toNat < 128) :
    String.utf8EncodeChar c = [UInt8.ofNat c.toNat] := by
  rw [String.utf8EncodeChar]
  exact if_pos (Nat.le_of_lt_succ h)

theorem ofText_ofList_ascii {chars : List Char} (h : ∀ c ∈ chars, c.toNat < 128) :
    ofText (String.ofList chars) = chars.map fun c => UInt8.ofNat c.toNat := by
  rw [ofText_eq, String.toList_ofList]
  induction chars with
  | nil => rfl
  | cons c chars ih =>
      rw [ofChars_cons, utf8EncodeChar_of_ascii (h c (by simp)),
        ih fun d hd => h d (List.mem_cons_of_mem _ hd)]
      rfl

theorem toNat_lt (byte : UInt8) : byte.toNat < 256 :=
  UInt8.toNat_lt byte

theorem ofNat_eq {b : UInt8} {n : Nat} (h : n = b.toNat) : UInt8.ofNat n = b := by
  rw [h, UInt8.ofNat_toNat]

theorem toNat_ofNat_ascii {n : Nat} (h : n < 128) : (Char.ofNat n).toNat = n := by
  have hall : ∀ n < 128, (Char.ofNat n).toNat = n := by decide
  exact hall n h

theorem ofText_ofList_bytes {bytes : Bytes} (h : ∀ byte ∈ bytes, byte.toNat < 128) :
    ofText (String.ofList (bytes.map fun byte => Char.ofNat byte.toNat)) = bytes := by
  rw [ofText_ofList_ascii, List.map_map]
  · have hbytes : bytes.map ((fun c : Char => UInt8.ofNat c.toNat) ∘
        fun byte => Char.ofNat byte.toNat) = bytes.map id := by
      apply List.map_congr_left
      intro byte hbyte
      exact ofNat_eq (toNat_ofNat_ascii (h byte hbyte))
    rw [hbytes, List.map_id]
  · intro c hc
    obtain ⟨byte, hbyte, rfl⟩ := List.mem_map.mp hc
    rw [toNat_ofNat_ascii (h byte hbyte)]
    exact h byte hbyte

end Bytes

/-! ### Hexadecimal -/

namespace Hex

theorem digitChar_ascii {n : Nat} (h : n < 16) : (digitChar n).toNat < 128 := by
  have hall : ∀ n < 16, (digitChar n).toNat < 128 := by decide
  exact hall n h

theorem value_digitChar {n : Nat} (h : n < 16) (position : Nat) :
    value (UInt8.ofNat (digitChar n).toNat) position = .ok n := by
  have hall : ∀ n < 16, value? (UInt8.ofNat (digitChar n).toNat) = some n := by decide
  rw [value, hall n h]

theorem decodePairs_digits (bytes : Bytes) (position : Nat) :
    decodePairs position ((bytes.flatMap digits).map fun c => UInt8.ofNat c.toNat) = .ok bytes := by
  induction bytes generalizing position with
  | nil => rfl
  | cons byte bytes ih =>
      have hbyte := Bytes.toNat_lt byte
      rw [List.flatMap_cons, digits, List.cons_append, List.cons_append, List.nil_append,
        List.map_cons, List.map_cons, decodePairs, value_digitChar (by omega),
        value_digitChar (by omega), ih]
      simp only [bind, Except.bind, pure, Except.pure]
      rw [Bytes.ofNat_eq (b := byte) (by omega)]

theorem decode_encode (bytes : Bytes) : decode (encode bytes) = .ok bytes := by
  have hascii : ∀ c ∈ bytes.flatMap digits, c.toNat < 128 := by
    intro c hc
    obtain ⟨byte, _, hdigit⟩ := List.mem_flatMap.mp hc
    have hbyte := Bytes.toNat_lt byte
    simp only [digits, List.mem_cons, List.not_mem_nil, or_false] at hdigit
    rcases hdigit with rfl | rfl
    · exact digitChar_ascii (by omega)
    · exact digitChar_ascii (by omega)
  have heven : ¬ (bytes.flatMap digits).length % 2 = 1 := by
    induction bytes with
    | nil => simp
    | cons byte bytes ih =>
        have hlater := ih fun c hc => hascii c (by simp [hc])
        simp only [List.flatMap_cons, digits, List.length_append, List.length_cons,
          List.length_nil] at hlater ⊢
        omega
  rw [decode, encode, Bytes.ofText_ofList_ascii hascii]
  simp only [List.length_map, if_neg heven, decodePairs_digits]

end Hex

/-! ### Base64 -/

namespace Base64

theorem symbol_spec {n : Nat} (h : n < 64) :
    value? (symbol n) = some n ∧ symbol n ≠ pad ∧ (symbol n).toNat < 128 := by
  have hall : ∀ n < 64, value? (symbol n) = some n ∧ symbol n ≠ pad ∧
      (symbol n).toNat < 128 := by decide
  exact hall n h

theorem symbolValue_symbol {n : Nat} (h : n < 64) (offset : Nat) :
    symbolValue (symbol n) offset = .ok n := by
  rw [symbolValue, (symbol_spec h).1]

/-- A symbol that stands before the padding of the last quad is read as its value. -/
theorem lastValues_symbol {n : Nat} (h : n < 64) (start : Nat) (values : List Nat) (count : Nat)
    (rest : Bytes) :
    lastValues start none values count (symbol n :: rest) =
      lastValues start none (values ++ [n]) count rest := by
  rw [lastValues]
  simp only [if_neg (symbol_spec h).2.1, symbolValue_symbol h, bind, Except.bind]

theorem join_bytes (a b c : UInt8) :
    join (a.toNat / 4) (a.toNat % 4 * 16 + b.toNat / 16) (b.toNat % 16 * 4 + c.toNat / 64)
      (c.toNat % 64) = [a, b, c] := by
  have ha := Bytes.toNat_lt a
  have hb := Bytes.toNat_lt b
  have hc := Bytes.toNat_lt c
  rw [join, Bytes.ofNat_eq (b := a) (by omega), Bytes.ofNat_eq (b := b) (by omega),
    Bytes.ofNat_eq (b := c) (by omega)]

theorem decodeLast_one (a : UInt8) (start : Nat) :
    decodeLast start (encodeBytes [a]) = .ok [a] := by
  have ha := Bytes.toNat_lt a
  have hjoin : (join (a.toNat / 4) (a.toNat % 4 * 16) 0 0).take 1 = [a] := by
    have hall := join_bytes a 0 0
    simp only [UInt8.toNat_zero, Nat.zero_div, Nat.zero_mod, Nat.zero_mul, Nat.add_zero] at hall
    rw [hall]
    rfl
  rw [decodeLast, encodeBytes, lastValues_symbol (by omega), lastValues_symbol (by omega)]
  simp [lastValues, bind, Except.bind, pure, Except.pure, hjoin]

theorem decodeLast_two (a b : UInt8) (start : Nat) :
    decodeLast start (encodeBytes [a, b]) = .ok [a, b] := by
  have ha := Bytes.toNat_lt a
  have hb := Bytes.toNat_lt b
  have hjoin : (join (a.toNat / 4) (a.toNat % 4 * 16 + b.toNat / 16) (b.toNat % 16 * 4) 0).take 2 =
      [a, b] := by
    have hall := join_bytes a b 0
    simp only [UInt8.toNat_zero, Nat.zero_div, Nat.zero_mod, Nat.add_zero] at hall
    rw [hall]
    rfl
  rw [decodeLast, encodeBytes, lastValues_symbol (by omega), lastValues_symbol (by omega),
    lastValues_symbol (by omega)]
  simp [lastValues, bind, Except.bind, pure, Except.pure, hjoin]

theorem decodeLast_three (a b c : UInt8) (start : Nat) :
    decodeLast start (encodeBytes [a, b, c]) = .ok [a, b, c] := by
  have ha := Bytes.toNat_lt a
  have hb := Bytes.toNat_lt b
  have hc := Bytes.toNat_lt c
  rw [decodeLast, encodeBytes, encodeBytes, lastValues_symbol (by omega),
    lastValues_symbol (by omega), lastValues_symbol (by omega), lastValues_symbol (by omega)]
  simp [lastValues, bind, Except.bind, pure, Except.pure, join_bytes]

theorem decodeQuads_encodeBytes (bytes : Bytes) (start : Nat) (hsome : bytes ≠ []) :
    decodeQuads start (encodeBytes bytes) = .ok bytes := by
  induction bytes using encodeBytes.induct generalizing start with
  | case1 => contradiction
  | case2 a => exact decodeLast_one a start
  | case3 a b => exact decodeLast_two a b start
  | case4 a b c rest ih =>
      have ha := Bytes.toNat_lt a
      have hb := Bytes.toNat_lt b
      have hc := Bytes.toNat_lt c
      cases rest with
      | nil => exact decodeLast_three a b c start
      | cons next rest =>
          obtain ⟨symbol', symbols, hmore⟩ : ∃ symbol' symbols,
              encodeBytes (next :: rest) = symbol' :: symbols := by
            rcases rest with _ | ⟨_, _ | ⟨_, rest⟩⟩ <;> exact ⟨_, _, rfl⟩
          have hlater := ih (start + 4) (by simp)
          rw [encodeBytes, hmore, decodeQuads, symbolValue_symbol (by omega),
            symbolValue_symbol (by omega), symbolValue_symbol (by omega),
            symbolValue_symbol (by omega), ← hmore, hlater]
          simp only [bind, Except.bind, pure, Except.pure, join_bytes, List.cons_append,
            List.nil_append]

theorem length_encodeBytes (bytes : Bytes) : (encodeBytes bytes).length % 4 = 0 := by
  induction bytes using encodeBytes.induct with
  | case1 => simp [encodeBytes]
  | case2 a => simp [encodeBytes]
  | case3 a b => simp [encodeBytes]
  | case4 a b c rest ih =>
      simp only [encodeBytes, List.length_cons]
      omega

theorem encodeBytes_ascii (bytes : Bytes) : ∀ byte ∈ encodeBytes bytes, byte.toNat < 128 := by
  have hpad : pad.toNat < 128 := by decide
  induction bytes using encodeBytes.induct with
  | case1 => simp [encodeBytes]
  | case2 a =>
      have ha := Bytes.toNat_lt a
      simp only [encodeBytes, List.forall_mem_cons, List.not_mem_nil, false_implies, implies_true,
        and_true]
      exact ⟨(symbol_spec (by omega)).2.2, (symbol_spec (by omega)).2.2, hpad, hpad⟩
  | case3 a b =>
      have ha := Bytes.toNat_lt a
      have hb := Bytes.toNat_lt b
      simp only [encodeBytes, List.forall_mem_cons, List.not_mem_nil, false_implies, implies_true,
        and_true]
      exact ⟨(symbol_spec (by omega)).2.2, (symbol_spec (by omega)).2.2,
        (symbol_spec (by omega)).2.2, hpad⟩
  | case4 a b c rest ih =>
      have ha := Bytes.toNat_lt a
      have hb := Bytes.toNat_lt b
      have hc := Bytes.toNat_lt c
      simp only [encodeBytes, List.forall_mem_cons]
      exact ⟨(symbol_spec (by omega)).2.2, (symbol_spec (by omega)).2.2,
        (symbol_spec (by omega)).2.2, (symbol_spec (by omega)).2.2, ih⟩

theorem ofText_encode (bytes : Bytes) : Bytes.ofText (encode bytes) = encodeBytes bytes :=
  Bytes.ofText_ofList_bytes (encodeBytes_ascii bytes)

theorem decode_encode (bytes : Bytes) : decode (encode bytes) = .ok bytes := by
  rw [decode, ofText_encode, decodeBytes]
  cases hlast : (encodeBytes bytes).getLast? with
  | none =>
      rw [List.getLast?_eq_none_iff] at hlast
      rcases bytes with _ | ⟨_, _ | ⟨_, _ | ⟨_, rest⟩⟩⟩
      · rfl
      all_goals simp [encodeBytes] at hlast
  | some last =>
      have hlength := length_encodeBytes bytes
      have hsome : bytes ≠ [] := by
        rintro rfl
        simp [encodeBytes] at hlast
      simp only
      rw [if_neg (by omega)]
      exact decodeQuads_encodeBytes bytes 0 hsome

end Base64

end SyncedBookmarks
