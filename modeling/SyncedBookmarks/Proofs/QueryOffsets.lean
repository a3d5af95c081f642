import SyncedBookmarks.Proofs.Codecs
import SyncedBookmarks.Proofs.QueryReferences

namespace SyncedBookmarks

/-! The search for a folder reference by offsets into the bytes of a URI: it goes from key to key,
never cuts a character, and finds what the search by characters finds. -/

/-! ### Characters in bytes -/

namespace Bytes

theorem toNat_ofNat_of_lt {n : Nat} (h : n < 256) : (UInt8.ofNat n).toNat = n := by
  rw [UInt8.toNat_ofNat', Nat.mod_eq_of_lt h]

/-- The ways in which a character is written in bytes. -/
inductive Written (c : Char) : Prop where
  | ascii (h : c.toNat < 128) (heq : String.utf8EncodeChar c = [UInt8.ofNat c.toNat])
  | wide (h : 128 ≤ c.toNat) (lead : UInt8) (rest : Bytes)
      (heq : String.utf8EncodeChar c = lead :: rest) (hlead : 192 ≤ lead.toNat)
      (hrest : ∀ byte ∈ rest, 128 ≤ byte.toNat)

theorem written (c : Char) : Written c := by
  have hbyte : ∀ {bound n : Nat}, bound ≤ n → n < 256 → bound ≤ (UInt8.ofNat n).toNat := by
    intro bound n hbound hn
    rw [toNat_ofNat_of_lt hn]
    exact hbound
  have hval : c.val.toNat = c.toNat := rfl
  have heq := String.utf8EncodeChar.eq_1 c
  rw [hval] at heq
  split at heq
  · exact .ascii (by omega) heq
  · split at heq
    · refine .wide (by omega) _ _ heq (hbyte (by omega) (by omega)) ?_
      simp only [List.forall_mem_cons, List.not_mem_nil, false_imp_iff, implies_true, and_true]
      exact hbyte (by omega) (by omega)
    · split at heq
      · refine .wide (by omega) _ _ heq (hbyte (by omega) (by omega)) ?_
        simp only [List.forall_mem_cons, List.not_mem_nil, false_imp_iff, implies_true, and_true]
        exact ⟨hbyte (by omega) (by omega), hbyte (by omega) (by omega)⟩
      · refine .wide (by omega) _ _ heq (hbyte (by omega) (by omega)) ?_
        simp only [List.forall_mem_cons, List.not_mem_nil, false_imp_iff, implies_true, and_true]
        exact ⟨hbyte (by omega) (by omega), hbyte (by omega) (by omega),
          hbyte (by omega) (by omega)⟩

theorem length_ofChars_of_ascii {chars : List Char} (h : ∀ c ∈ chars, c.toNat < 128) :
    (ofChars chars).length = chars.length := by
  induction chars with
  | nil => rfl
  | cons c chars ih =>
      obtain ⟨hc, hchars⟩ := List.forall_mem_cons.mp h
      rw [ofChars_cons, utf8EncodeChar_of_ascii hc, List.singleton_append, List.length_cons,
        ih hchars, List.length_cons]

/-- A text begins with ASCII characters if its bytes begin with theirs. -/
theorem isPrefixOf_ofChars {ascii : List Char} (h : ∀ c ∈ ascii, c.toNat < 128)
    (chars : List Char) :
    (ofChars ascii).isPrefixOf (ofChars chars) = ascii.isPrefixOf chars := by
  induction ascii generalizing chars with
  | nil => rfl
  | cons a ascii ih =>
      obtain ⟨ha, hascii⟩ := List.forall_mem_cons.mp h
      rw [ofChars_cons, utf8EncodeChar_of_ascii ha, List.singleton_append]
      cases chars with
      | nil => rfl
      | cons c chars =>
          rw [ofChars_cons, List.isPrefixOf_cons_cons]
          cases written c with
          | ascii hc heq =>
              have hsame : (UInt8.ofNat a.toNat == UInt8.ofNat c.toNat) = (a == c) := by
                rw [Bool.eq_iff_iff, beq_iff_eq, beq_iff_eq, ← UInt8.toNat_inj,
                  toNat_ofNat_of_lt (by omega), toNat_ofNat_of_lt (by omega), Char.toNat_inj]
              rw [heq, List.singleton_append, List.isPrefixOf_cons_cons, hsame, ih hascii]
          | wide hc lead rest heq hlead =>
              have hother : (UInt8.ofNat a.toNat == lead) = false := by
                rw [beq_eq_false_iff_ne, ne_eq, ← UInt8.toNat_inj, toNat_ofNat_of_lt (by omega)]
                omega
              have hdiffers : (a == c) = false := by
                rw [beq_eq_false_iff_ne]
                rintro rfl
                omega
              rw [heq, List.cons_append, List.isPrefixOf_cons_cons, hother, hdiffers]
              rfl

/-- The last byte of a character tells it among the ASCII characters. -/
theorem exists_last (c : Char) :
    ∃ front last, String.utf8EncodeChar c = front ++ [last] ∧
      ∀ d : Char, d.toNat < 128 → (last = UInt8.ofNat d.toNat ↔ c = d) := by
  cases written c with
  | ascii h heq =>
      refine ⟨[], _, heq, fun d hd => ?_⟩
      rw [← UInt8.toNat_inj, toNat_ofNat_of_lt (by omega), toNat_ofNat_of_lt (by omega),
        Char.toNat_inj]
  | wide h lead rest heq hlead hrest =>
      have hne := List.cons_ne_nil lead rest
      have hlast : 128 ≤ ((lead :: rest).getLast hne).toNat := by
        rcases List.mem_cons.mp (List.getLast_mem hne) with hlast | hlast
        · rw [hlast]
          omega
        · exact hrest _ hlast
      refine ⟨_, _, heq.trans (List.dropLast_concat_getLast hne).symm, fun d hd => ?_⟩
      rw [← UInt8.toNat_inj, toNat_ofNat_of_lt (by omega)]
      constructor
      · omega
      · rintro rfl
        omega

/-- Whether a text can be cut here: at its end, or before the first byte of a character. -/
def isBoundary (bytes : Bytes) (offset : Nat) : Bool :=
  match bytes[offset]? with
  | some byte => byte.toNat < 128 || 192 ≤ byte.toNat
  | none => offset == bytes.length

theorem isBoundary_ofChars (before after : List Char) :
    isBoundary (ofChars (before ++ after)) (ofChars before).length = true := by
  rw [isBoundary, ofChars_append, List.getElem?_append_right (Nat.le_refl _), Nat.sub_self]
  cases after with
  | nil => simp [ofChars]
  | cons c after =>
      rw [ofChars_cons]
      cases written c with
      | ascii h heq =>
          rw [heq, List.singleton_append, List.getElem?_cons_zero]
          simp only [toNat_ofNat_of_lt (Nat.lt_trans h (by decide)), h, decide_true, Bool.true_or]
      | wide h lead rest heq hlead hrest => simp [heq, hlead]

end Bytes

/-! ### The search -/

namespace Query

/-- Where the key stands first. -/
def keyOffset? : Bytes → Option Nat
  | [] => none
  | byte :: rest =>
      if (Bytes.ofChars key).isPrefixOf (byte :: rest) then some 0
      else (keyOffset? rest).map (· + 1)

theorem lt_length_of_keyOffset? {bytes : Bytes} {start found : Nat}
    (h : keyOffset? (bytes.drop start) = some found) : start < bytes.length := by
  by_contra hend
  rw [List.drop_eq_nil_of_le (Nat.not_lt.mp hend)] at h
  cases h

/-- Whether a colon or an ampersand stands before an offset. -/
def opensAt (bytes : Bytes) : Nat → Bool
  | 0 => false
  | before + 1 => bytes[before]? == some 0x3a || bytes[before]? == some 0x26

def isDigitByte (byte : UInt8) : Bool :=
  48 ≤ byte.toNat && byte.toNat ≤ 57

/-- An offset inside a character, where a text cannot be cut. -/
structure InsideCharacter where
  offset : Nat
  deriving DecidableEq, Repr

/-- The first and the last offset of the digits of the first reference from an offset on. Where the
key makes no reference the search goes on behind it. -/
def searchFrom (bytes : Bytes) (start : Nat) : Except InsideCharacter (Option (Nat × Nat)) :=
  if bytes.isBoundary start then
    match hfound : keyOffset? (bytes.drop start) with
    | none => .ok none
    | some found =>
        have := lt_length_of_keyOffset? hfound
        let digits := start + found + key.length
        if bytes.isBoundary digits then
          let count := ((bytes.drop digits).takeWhile isDigitByte).length
          if opensAt bytes (start + found) ∧ 0 < count then .ok (some (digits, digits + count))
          else searchFrom bytes digits
        else .error ⟨digits⟩
  else .error ⟨start⟩
termination_by bytes.length - start
decreasing_by
  have hkey : key.length = 7 := rfl
  omega

theorem searchFrom_of_none {bytes : Bytes} {start : Nat} (hstart : bytes.isBoundary start = true)
    (h : keyOffset? (bytes.drop start) = none) : searchFrom bytes start = .ok none := by
  rw [searchFrom, if_pos hstart]
  split
  · rfl
  · rename_i found hfound
    rw [h] at hfound
    cases hfound

theorem searchFrom_of_some {bytes : Bytes} {start found : Nat}
    (hstart : bytes.isBoundary start = true) (h : keyOffset? (bytes.drop start) = some found) :
    searchFrom bytes start =
      if bytes.isBoundary (start + found + key.length) then
        if opensAt bytes (start + found) ∧
            0 < ((bytes.drop (start + found + key.length)).takeWhile isDigitByte).length then
          .ok (some (start + found + key.length, start + found + key.length +
            ((bytes.drop (start + found + key.length)).takeWhile isDigitByte).length))
        else searchFrom bytes (start + found + key.length)
      else .error ⟨start + found + key.length⟩ := by
  rw [searchFrom, if_pos hstart]
  split
  · rename_i hnone
    rw [h] at hnone
    cases hnone
  · rename_i other hfound
    obtain rfl := Option.some.inj (h.symm.trans hfound)
    rfl

/-- Two offsets from which the key is found in one place. -/
theorem searchFrom_add {bytes : Bytes} {start skipped : Nat}
    (hstart : bytes.isBoundary start = true) (hnext : bytes.isBoundary (start + skipped) = true)
    (h : keyOffset? (bytes.drop start) =
      (keyOffset? (bytes.drop (start + skipped))).map (· + skipped)) :
    searchFrom bytes start = searchFrom bytes (start + skipped) := by
  cases hfound : keyOffset? (bytes.drop (start + skipped)) with
  | none =>
      rw [hfound, Option.map_none] at h
      rw [searchFrom_of_none hstart h, searchFrom_of_none hnext hfound]
  | some found =>
      rw [hfound, Option.map_some] at h
      have hsame : start + (found + skipped) = start + skipped + found := by omega
      rw [searchFrom_of_some hstart h, searchFrom_of_some hnext hfound, hsame]

/-! ### What it finds -/

theorem keyOffset?_append_of_wide {wide : Bytes} (h : ∀ byte ∈ wide, 128 ≤ byte.toNat)
    (bytes : Bytes) :
    keyOffset? (wide ++ bytes) = (keyOffset? bytes).map (· + wide.length) := by
  induction wide with
  | nil => simp
  | cons byte wide ih =>
      obtain ⟨hbyte, hwide⟩ := List.forall_mem_cons.mp h
      have hnot : (Bytes.ofChars key).isPrefixOf (byte :: (wide ++ bytes)) = false := by
        have hother : ((0x66 : UInt8) == byte) = false := by
          rw [beq_eq_false_iff_ne]
          rintro rfl
          exact absurd hbyte (by decide)
        change ((0x66 : UInt8) == byte && _) = false
        rw [hother, Bool.false_and]
      rw [List.cons_append, keyOffset?, if_neg (by simp [hnot]), ih hwide, Option.map_map]
      rfl

theorem key_ascii : ∀ c ∈ key, c.toNat < 128 := by
  have hall : key.all (fun c => decide (c.toNat < 128)) = true := by decide
  intro c hc
  exact of_decide_eq_true (List.all_eq_true.mp hall c hc)

theorem keyOffset?_ofChars_cons (c : Char) (chars : List Char) :
    keyOffset? (Bytes.ofChars (c :: chars)) =
      if key.isPrefixOf (c :: chars) then some 0
      else (keyOffset? (Bytes.ofChars chars)).map (· + (String.utf8EncodeChar c).length) := by
  cases Bytes.written c with
  | ascii h heq =>
      have hprefix := Bytes.isPrefixOf_ofChars key_ascii (c :: chars)
      rw [Bytes.ofChars_cons, heq, List.singleton_append] at hprefix ⊢
      rw [keyOffset?, hprefix]
      rfl
  | wide h lead rest heq hlead hrest =>
      have hnot : key.isPrefixOf (c :: chars) = false := by
        have hother : ('f' == c) = false := by
          rw [beq_eq_false_iff_ne]
          rintro rfl
          exact absurd h (by decide)
        change ('f' == c && _) = false
        rw [hother, Bool.false_and]
      have hwide : ∀ byte ∈ String.utf8EncodeChar c, 128 ≤ byte.toNat := by
        rw [heq]
        exact List.forall_mem_cons.mpr ⟨by omega, hrest⟩
      rw [Bytes.ofChars_cons, keyOffset?_append_of_wide hwide, hnot]
      rfl

theorem length_takeWhile_isDigitByte (chars : List Char) :
    ((Bytes.ofChars chars).takeWhile isDigitByte).length =
      (chars.takeWhile Char.isDigit).length := by
  induction chars with
  | nil => rfl
  | cons c chars ih =>
      rw [Bytes.ofChars_cons]
      cases Bytes.written c with
      | ascii h heq =>
          have hsame : isDigitByte (UInt8.ofNat c.toNat) = c.isDigit := by
            rw [isDigitByte, Bytes.toNat_ofNat_of_lt (by omega)]
            rfl
          rw [heq, List.singleton_append, List.takeWhile_cons, List.takeWhile_cons, hsame]
          split
          · rw [List.length_cons, List.length_cons, ih]
          · rfl
      | wide h lead rest heq hlead =>
          have hlead : isDigitByte lead = false := by
            simp only [isDigitByte, Bool.and_eq_false_iff, decide_eq_false_iff_not]
            omega
          have hnot : c.isDigit = false := by
            simp only [Char.isDigit, Bool.and_eq_false_iff, decide_eq_false_iff_not]
            right
            rw [UInt32.le_iff_toNat_le]
            change ¬ c.toNat ≤ 57
            omega
          rw [heq, List.cons_append, List.takeWhile_cons_of_neg (by simp [hlead]),
            List.takeWhile_cons_of_neg (by simp [hnot])]
          rfl

theorem opensReference_iff {c : Char} : opensReference (some c) = true ↔ c = ':' ∨ c = '&' := by
  constructor
  · intro h
    rw [opensReference.eq_def] at h
    split at h
    · rename_i heq
      exact .inl (Option.some.inj heq)
    · rename_i heq
      exact .inr (Option.some.inj heq)
    · cases h
  · rintro (rfl | rfl) <;> rfl

theorem opensAt_ofChars (before after : List Char) :
    opensAt (Bytes.ofChars (before ++ after)) (Bytes.ofChars before).length =
      opensReference before.getLast? := by
  rcases before.eq_nil_or_concat with rfl | ⟨front, c, rfl⟩
  · rfl
  · obtain ⟨bytes, last, hwritten, hlast⟩ := Bytes.exists_last c
    have hbefore : Bytes.ofChars (front ++ [c]) = Bytes.ofChars front ++ bytes ++ [last] := by
      rw [Bytes.ofChars_append, Bytes.ofChars_cons, hwritten]
      simp [Bytes.ofChars]
    have hbyte : (Bytes.ofChars front ++ bytes ++ [last] ++
        Bytes.ofChars after)[(Bytes.ofChars front ++ bytes).length]? = some last := by
      simp
    rw [List.concat_eq_append, Bytes.ofChars_append, hbefore, List.length_append,
      List.length_singleton, opensAt, hbyte, List.getLast?_concat, Bool.eq_iff_iff, Bool.or_eq_true,
      beq_iff_eq, beq_iff_eq, Option.some.injEq, Option.some.injEq, opensReference_iff]
    exact or_congr (hlast ':' (by decide)) (hlast '&' (by decide))

/-- Where the key makes no reference, none begins before its end. -/
theorem findReference?_of_key {previous : Option Char} {tail : List Char}
    (h : ¬ (opensReference previous = true ∧ startsWithDigit tail = true)) :
    findReference? previous (key ++ tail) =
      (findReference? (some '=') tail).map
        fun found => { found with before := key ++ found.before } := by
  have hnot : ¬ (opensReference previous = true ∧ key.isPrefixOf (key ++ tail) = true ∧
      startsWithDigit ((key ++ tail).drop key.length) = true) := by
    rw [List.drop_left]
    exact fun hopens => h ⟨hopens.1, hopens.2.2⟩
  have hkey : key ++ tail = 'f' :: 'o' :: 'l' :: 'd' :: 'e' :: 'r' :: '=' :: tail := rfl
  rw [hkey] at hnot ⊢
  rw [findReference?, if_neg hnot]
  simp [findReference?, opensReference, Option.map_map, Function.comp_def]
  rfl

/-- The range of the digits of a reference that is found behind a text. -/
def FolderReference.range (done : List Char) (found : FolderReference) : Nat × Nat :=
  ((Bytes.ofChars (done ++ found.before)).length,
    (Bytes.ofChars (done ++ found.before)).length + found.digits.length)

theorem range_append (done before : List Char) (found : FolderReference) :
    FolderReference.range (done ++ before) found =
      FolderReference.range done { found with before := before ++ found.before } := by
  rw [FolderReference.range, FolderReference.range, List.append_assoc]

theorem drop_ofChars (before after : List Char) :
    (Bytes.ofChars (before ++ after)).drop (Bytes.ofChars before).length = Bytes.ofChars after := by
  rw [Bytes.ofChars_append, List.drop_left]

theorem startsWithDigit_iff {text : List Char} :
    startsWithDigit text = true ↔ 0 < (text.takeWhile Char.isDigit).length := by
  cases text with
  | nil => simp [startsWithDigit]
  | cons c rest => cases hdigit : c.isDigit <;> simp [startsWithDigit, hdigit]

/-- Where the key stands, the search ends or goes on behind the key. -/
theorem searchFrom_key (done tail : List Char) :
    searchFrom (Bytes.ofChars (done ++ (key ++ tail))) (Bytes.ofChars done).length =
      if opensReference done.getLast? = true ∧ startsWithDigit tail = true then
        .ok (some (FolderReference.range done
          ⟨key, tail.takeWhile Char.isDigit, tail.dropWhile Char.isDigit⟩))
      else
        searchFrom (Bytes.ofChars (done ++ key ++ tail)) (Bytes.ofChars (done ++ key)).length := by
  have hstart := Bytes.isBoundary_ofChars done (key ++ tail)
  have hfound : keyOffset? (Bytes.ofChars (key ++ tail)) = some 0 :=
    (keyOffset?_ofChars_cons _ _).trans
      (if_pos (List.isPrefixOf_iff_prefix.mpr (List.prefix_append key tail)))
  rw [← drop_ofChars done] at hfound
  have hlength : (Bytes.ofChars done).length + 0 + key.length =
      (Bytes.ofChars (done ++ key)).length := by
    rw [Bytes.ofChars_append, List.length_append]
    rfl
  have hdigits := Bytes.isBoundary_ofChars (done ++ key) tail
  have htail := drop_ofChars (done ++ key) tail
  have hopens := opensAt_ofChars done (key ++ tail)
  rw [List.append_assoc, ← hlength] at hdigits htail
  rw [searchFrom_of_some hstart hfound, if_pos hdigits, htail, hlength, Nat.add_zero, hopens,
    length_takeWhile_isDigitByte]
  simp only [startsWithDigit_iff, List.append_assoc, FolderReference.range]

/-- Elsewhere it goes on behind the next character. -/
theorem searchFrom_cons {c : Char} {rest : List Char} (h : key.isPrefixOf (c :: rest) = false)
    (done : List Char) :
    searchFrom (Bytes.ofChars (done ++ c :: rest)) (Bytes.ofChars done).length =
      searchFrom (Bytes.ofChars (done ++ [c] ++ rest)) (Bytes.ofChars (done ++ [c])).length := by
  have hlength : (Bytes.ofChars (done ++ [c])).length =
      (Bytes.ofChars done).length + (String.utf8EncodeChar c).length := by
    rw [Bytes.ofChars_append, List.length_append]
    simp [Bytes.ofChars]
  have hnext := Bytes.isBoundary_ofChars (done ++ [c]) rest
  have hrest := drop_ofChars (done ++ [c]) rest
  rw [hlength, List.append_assoc, List.singleton_append] at hnext hrest ⊢
  apply searchFrom_add (Bytes.isBoundary_ofChars done (c :: rest)) hnext
  rw [drop_ofChars, hrest, keyOffset?_ofChars_cons, h]
  rfl

/-- The search by offsets cuts no character, and finds what the search by characters finds. The
induction is on the length of the text that is left. -/
theorem searchFrom_ofChars (done rest : List Char) :
    searchFrom (Bytes.ofChars (done ++ rest)) (Bytes.ofChars done).length =
      .ok ((findReference? done.getLast? rest).map (FolderReference.range done)) := by
  induction hlength : rest.length using Nat.strongRecOn generalizing done rest with
  | ind length ih =>
      cases rest with
      | nil =>
          have hnone : keyOffset? ((Bytes.ofChars (done ++ [])).drop (Bytes.ofChars done).length) =
              none := by
            rw [drop_ofChars]
            rfl
          exact searchFrom_of_none (Bytes.isBoundary_ofChars done []) hnone
      | cons c rest =>
          cases hkey : key.isPrefixOf (c :: rest) with
          | true =>
              obtain ⟨tail, htail⟩ := List.isPrefixOf_iff_prefix.mp hkey
              have hshort : tail.length < length := by
                rw [← hlength, ← htail, List.length_append]
                exact Nat.lt_add_of_pos_left (by decide)
              rw [← htail, searchFrom_key]
              split
              · rename_i hopens
                have hstops := startsWithDigit_dropWhile tail
                have hne := takeWhile_ne_nil hopens.2
                have hfound := findReference?_key hopens.1 hne
                  (fun c hc => List.mem_takeWhile_imp hc) hstops
                rw [List.takeWhile_append_dropWhile] at hfound
                rw [hfound, Option.map_some]
              · rename_i hnot
                have hlast : (done ++ key).getLast? = some '=' := by
                  rw [List.getLast?_append]
                  rfl
                rw [ih tail.length hshort (done ++ key) tail rfl, findReference?_of_key hnot, hlast,
                  Option.map_map]
                congr 2
                funext found
                exact range_append done key found
          | false =>
              have hshort : rest.length < length := by
                rw [← hlength]
                exact Nat.lt_succ_self rest.length
              have hnot : ¬ (opensReference done.getLast? = true ∧
                  key.isPrefixOf (c :: rest) = true ∧
                  startsWithDigit ((c :: rest).drop key.length) = true) := by
                simp [hkey]
              rw [searchFrom_cons hkey, ih rest.length hshort (done ++ [c]) rest rfl,
                List.getLast?_concat, findReference?, if_neg hnot, Option.map_map]
              congr 2
              funext found
              exact range_append done [c] found

end Query

end SyncedBookmarks
