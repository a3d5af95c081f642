import SyncedBookmarks.Proofs.Codecs
import SyncedBookmarks.Proofs.JsonText
import SyncedBookmarks.StoredRecord

namespace SyncedBookmarks

/-! What a client seals, every client with the same keys opens. -/

/-! ### The block cipher -/

namespace Bytes

theorem length_xor (left right : Bytes) :
    (xor left right).length = min left.length right.length :=
  List.length_zipWith

theorem length_xor_of_eq {left right : Bytes} {n : Nat} (hleft : left.length = n)
    (hright : right.length = n) : (xor left right).length = n := by
  rw [length_xor, hleft, hright, Nat.min_self]

end Bytes

namespace Aes

theorem length_mixColumns (state : Bytes) : (mixColumns state).length = state.length := by
  induction state using mixColumns.induct with
  | case1 a b c d rest ih => simp [mixColumns, ih]
  | case2 rest hshort => rw [mixColumns.eq_2 rest hshort]

theorem length_shiftRows (state : Bytes) : (shiftRows state).length = 16 := by
  simp [shiftRows]

theorem length_rounds (keys : List Bytes) (hkeys : ∀ key ∈ keys, key.length = 16) (state : Bytes)
    (hstate : state.length = 16) : (rounds state keys).length = 16 := by
  induction state, keys using rounds.induct with
  | case1 state => exact hstate
  | case2 state key =>
      rw [rounds]
      exact Bytes.length_xor_of_eq (length_shiftRows _) (hkeys key (by simp))
  | case3 state key keys hmore ih =>
      rw [rounds]
      · apply ih (fun later hlater => hkeys later (List.mem_cons_of_mem _ hlater))
        apply Bytes.length_xor_of_eq
        · rw [length_mixColumns, length_shiftRows]
        · exact hkeys key (by simp)
      · exact hmore

theorem length_encipher {keys : List Bytes} (hkeys : ∀ key ∈ keys, key.length = 16)
    {block : Bytes} (hblock : block.length = 16) : (encipher keys block).length = 16 := by
  cases keys with
  | nil => exact hblock
  | cons key keys =>
      apply length_rounds keys (fun later hlater => hkeys later (List.mem_cons_of_mem _ hlater))
      exact Bytes.length_xor_of_eq hblock (hkeys key (by simp))

theorem length_nextKeyWord (i : Nat) (constant : UInt8) {latest : List Bytes}
    (hwords : ∀ word ∈ latest, word.length = 4) (hmany : 8 ≤ latest.length) :
    (nextKeyWord i constant latest).length = 4 := by
  obtain ⟨last, earlier, rfl⟩ : ∃ last earlier, latest = last :: earlier := by
    cases latest with
    | nil => simp at hmany
    | cons last earlier => exact ⟨last, earlier, rfl⟩
  have hlast : last.length = 4 := hwords last (by simp)
  have hbase : ((last :: earlier).getD 7 []).length = 4 := by
    rw [List.getD_eq_getElem?_getD, List.getElem?_eq_getElem (by omega), Option.getD_some]
    exact hwords _ (List.getElem_mem _)
  have hturned : ((last.drop 1 ++ last.take 1).map substituted).length = 4 := by
    rw [List.length_map, List.length_append, List.length_drop, List.length_take, hlast]
    rfl
  rw [nextKeyWord]
  apply Bytes.length_xor_of_eq hbase
  rw [List.headD_cons]
  split
  · cases hword : (last.drop 1 ++ last.take 1).map substituted with
    | nil =>
        rw [hword] at hturned
        contradiction
    | cons head tail =>
        rw [hword] at hturned
        exact hturned
  · split
    · simpa using hlast
    · exact hlast

theorem keyWords_spec (count i : Nat) (constant : UInt8) {latest : List Bytes}
    (hwords : ∀ word ∈ latest, word.length = 4) (hmany : 8 ≤ latest.length) :
    (∀ word ∈ keyWords count i constant latest, word.length = 4) ∧
      (keyWords count i constant latest).length = latest.length + count := by
  induction count generalizing i constant latest with
  | zero =>
      rw [keyWords]
      exact ⟨fun word hword => hwords word (List.mem_reverse.mp hword), List.length_reverse⟩
  | succ count ih =>
      rw [keyWords]
      have hnext : ∀ word ∈ nextKeyWord i constant latest :: latest, word.length = 4 := by
        intro word hword
        rcases List.mem_cons.mp hword with rfl | hold
        · exact length_nextKeyWord i constant hwords hmany
        · exact hwords word hold
      obtain ⟨hall, hlength⟩ := ih (i + 1) (if i % 8 = 0 then double constant else constant) hnext
        (by rw [List.length_cons]; omega)
      refine ⟨hall, ?_⟩
      rw [hlength, List.length_cons]
      omega

theorem length_of_mem_chunks {size count : Nat} {bytes : Bytes}
    (h : size * count ≤ bytes.length) : ∀ chunk ∈ chunks size count bytes, chunk.length = size := by
  intro chunk hchunk
  obtain ⟨i, hi, rfl⟩ := List.mem_map.mp hchunk
  rw [List.mem_range] at hi
  have hroom : size * (i + 1) ≤ size * count := Nat.mul_le_mul_left size hi
  rw [Nat.mul_add, Nat.mul_one] at hroom
  rw [List.length_take, List.length_drop]
  omega

theorem length_flatten_of_all {words : List Bytes} {size : Nat}
    (h : ∀ word ∈ words, word.length = size) : words.flatten.length = words.length * size := by
  induction words with
  | nil => simp
  | cons word words ih =>
      rw [List.flatten_cons, List.length_append, h word (by simp),
        ih fun later hlater => h later (List.mem_cons_of_mem _ hlater), List.length_cons,
        Nat.add_mul]
      omega

theorem length_of_mem_roundKeys {key : Bytes} (h : key.length = 32) :
    ∀ round ∈ roundKeys key, round.length = 16 := by
  have hstart : ∀ word ∈ (chunks 4 8 key).reverse, word.length = 4 := by
    intro word hword
    exact length_of_mem_chunks (by omega) word (List.mem_reverse.mp hword)
  obtain ⟨hwords, hcount⟩ := keyWords_spec 52 8 1 hstart (by simp [chunks])
  apply length_of_mem_chunks
  rw [length_flatten_of_all hwords, hcount]
  simp [chunks]

end Aes

/-! ### Authenticated encryption -/

namespace Gcm

/-- Whether a cipher turns blocks into blocks. -/
def Blockwise (cipher : Bytes → Bytes) : Prop :=
  ∀ block : Bytes, block.length = 16 → (cipher block).length = 16

variable {cipher : Bytes → Bytes} {iv : Bytes}

theorem length_counterBlock (hiv : iv.length = 12) (counter : Nat) :
    (counterBlock iv counter).length = 16 := by
  rw [counterBlock, List.length_append, hiv, Bytes.length_ofNat]

theorem le_length_keyStream (h : Blockwise cipher) (hiv : iv.length = 12) (length : Nat) :
    length ≤ (keyStream cipher iv length).length := by
  have hblocks : ∀ count, ((List.range count).flatMap fun i =>
      cipher (counterBlock iv (i + 2))).length = 16 * count := by
    intro count
    induction count with
    | zero => rfl
    | succ count ih =>
        rw [List.range_succ, List.flatMap_append, List.length_append, ih, List.flatMap_singleton,
          h _ (length_counterBlock hiv _)]
        omega
  rw [keyStream, hblocks]
  omega

theorem crypt_crypt (h : Blockwise cipher) (hiv : iv.length = 12) (text : Bytes) :
    crypt cipher iv (crypt cipher iv text) = text := by
  have henough := le_length_keyStream h hiv text.length
  have hlength : (crypt cipher iv text).length = text.length := by
    rw [crypt, Bytes.length_xor]
    omega
  rw [crypt, hlength, crypt, Bytes.xor_xor_cancel henough]

theorem length_tag (h : Blockwise cipher) (hiv : iv.length = 12) (ciphertext : Bytes) :
    (tag cipher iv ciphertext).length = 16 := by
  apply Bytes.length_xor_of_eq
  · exact Bytes.length_ofNat 16 _
  · exact h _ (length_counterBlock hiv 1)

end Gcm

namespace Aead

/-- What has been encrypted is decrypted again, and both succeed. -/
theorem decrypt_encrypt {key iv : Bytes} (hkey : key.length = keyLength)
    (hiv : iv.length = ivLength) (plaintext : Bytes) :
    ∃ ciphertext tag, encrypt key iv plaintext = .ok (ciphertext, tag) ∧
      decrypt key iv ciphertext tag = .ok plaintext := by
  have hcipher : Gcm.Blockwise (Aes.encipher (Aes.roundKeys key)) := by
    intro block hblock
    exact Aes.length_encipher (Aes.length_of_mem_roundKeys hkey) hblock
  have hcheck : checkKey key = .ok () := if_pos hkey
  refine ⟨Gcm.crypt (Aes.encipher (Aes.roundKeys key)) iv plaintext,
    Gcm.tag (Aes.encipher (Aes.roundKeys key)) iv
      (Gcm.crypt (Aes.encipher (Aes.roundKeys key)) iv plaintext), ?_, ?_⟩
  · rw [encrypt, hcheck]
    rfl
  · have htag := Gcm.length_tag hcipher hiv
      (Gcm.crypt (Aes.encipher (Aes.roundKeys key)) iv plaintext)
    rw [decrypt, hcheck, Gcm.decrypt?, if_pos rfl, Gcm.crypt_crypt hcipher hiv]
    simp only [bind, Except.bind, pure, Except.pure]
    rw [if_neg (not_not.mpr hiv)]
    exact if_neg (not_not.mpr htag)

end Aead

/-! ### Envelopes -/

namespace Envelope

def slots (envelope : Envelope) : List (String × Option Json) :=
  [("ciphertext", some (.string envelope.ciphertext)), ("IV", some (.string envelope.iv)),
    ("tag", some (.string envelope.tag)), ("hmac", some (.string envelope.hmac))]

theorem parse?_text (envelope : Envelope) :
    schema.parse? envelope.toJson.text = some envelope := by
  have hleaf : ∀ name value, (name, some value) ∈ envelope.slots → value.Leaf := by
    intro name value hmem
    simp only [slots, List.mem_cons, Prod.mk.injEq, Option.some.injEq, List.not_mem_nil,
      or_false] at hmem
    rcases hmem with ⟨_, rfl⟩ | ⟨_, rfl⟩ | ⟨_, rfl⟩ | ⟨_, rfl⟩ <;> exact .string _
  have hparse := schema.parse?_given envelope.slots rfl (by simp [slots]) hleaf
  exact hparse

end Envelope

namespace KeyBundle

/-- A sealed payload is opened again. -/
theorem openPayload_sealPayload {keys : KeyBundle}
    (hkeys : keys.encryptionKey.length = Aead.keyLength) {iv : Bytes}
    (hiv : iv.length = Aead.ivLength) (plaintext : Bytes) :
    ∃ envelope, keys.sealPayload iv plaintext = .ok envelope ∧
      keys.openPayload envelope = .ok plaintext := by
  obtain ⟨ciphertext, tag, hencrypt, hdecrypt⟩ := Aead.decrypt_encrypt hkeys hiv plaintext
  refine ⟨⟨Base64.encode ciphertext, Base64.encode iv, Base64.encode tag,
    Hex.encode (keys.sign (Base64.encode ciphertext))⟩, ?_, ?_⟩
  · rw [sealPayload, hencrypt]
    rfl
  · simp only [openPayload, decodeField, Hex.decode_encode, Base64.decode_encode, bind,
      Except.bind, ne_eq, not_true_eq_false, if_false, hdecrypt]

end KeyBundle

/-! ### Records -/

namespace Record

def slots (record : Record) : List (String × Option Json) :=
  [("id", some (.string record.id)), ("parentid", record.parentid.map .string),
    ("type", some (.string record.kind.name)),
    ("deleted", if record.deleted then some (.bool true) else none),
    ("title", record.title.map .string), ("bmkUri", record.bmkUri.map .string),
    ("tags", record.tags.map Json.ofStrings), ("keyword", record.keyword.map .string),
    ("description", record.description.map .string),
    ("loadInSidebar", record.loadInSidebar.map .bool),
    ("staticTitle", record.staticTitle.map .string),
    ("generatorUri", record.generatorUri.map .string), ("siteUri", record.siteUri.map .string),
    ("feedUri", record.feedUri.map .string), ("folderName", record.folderName.map .string)]

theorem member_eq (name : String) (encode : α → Json) (value : Option α) :
    member name encode value = ((value.map encode).map (name, ·)).toList := by
  cases value <;> rfl

theorem toJson_eq (record : Record) : record.toJson = .object (Fields.given record.slots) := by
  have hdeleted : (if record.deleted then [("deleted", Json.bool true)] else []) =
      ((if record.deleted then some (Json.bool true) else none).map ("deleted", ·)).toList := by
    split <;> rfl
  simp only [toJson, slots, Fields.given_cons, Fields.given_nil, member_eq, hdeleted,
    Option.map_some, Option.toList_some, List.append_assoc, List.append_nil]

theorem asStrings?_ofStrings (texts : List String) :
    (Json.ofStrings texts).asStrings? = some texts := by
  induction texts with
  | nil => rfl
  | cons text texts ih =>
      rw [Json.ofStrings, Json.asStrings?] at ih ⊢
      rw [List.map_cons, List.mapM_cons, ih]
      rfl

theorem optional_map (encode : α → Json) (decode : Json → Option α)
    (h : ∀ value, decode (encode value) = some value) (hnull : ∀ value, encode value ≠ .null)
    (value : Option α) : Json.optional decode (value.map encode) = some value := by
  cases value with
  | none => rfl
  | some value =>
      rw [Option.map_some, Json.optional.eq_def]
      split
      · contradiction
      · rename_i heq
        exact absurd (Option.some.inj heq) (hnull value)
      · rename_i heq
        cases heq
        rw [h]
        rfl

theorem build_slots (record : Record) : schema.build (record.slots.map (·.2)) = some record := by
  have hkind : Json.defaulted .item RecordKind.ofJson? (some (.string record.kind.name)) =
      some record.kind := by
    simp [Json.defaulted, RecordKind.ofJson?]
  have hdeleted : Json.defaulted false Json.asBool?
      (if record.deleted then some (.bool true) else none) = some record.deleted := by
    cases record.deleted <;> rfl
  have hstring := optional_map Json.string Json.asString? (fun _ => rfl) (fun _ h => nomatch h)
  have hbool := optional_map Json.bool Json.asBool? (fun _ => rfl) (fun _ h => nomatch h)
  have hstrings := optional_map Json.ofStrings Json.asStrings? asStrings?_ofStrings
    (fun _ h => nomatch h)
  have hid : Json.required Json.asString? (some (.string record.id)) = some record.id := rfl
  simp only [schema, slots, List.map_cons, List.map_nil, hid, hkind, hdeleted, hstring, hbool,
    hstrings]
  rfl

theorem leaf_of_map {encode : α → Json} (h : ∀ value, (encode value).Leaf) (given : Option α) :
    ∀ value, given.map encode = some value → value.Leaf := by
  intro value hvalue
  obtain ⟨known, -, rfl⟩ := Option.map_eq_some_iff.mp hvalue
  exact h known

/-- A record is read from what was written of it. -/
theorem ofBytes?_text (record : Record) :
    schema.ofBytes? (Bytes.ofText record.text) = some record := by
  have hall : ∀ slot ∈ record.slots, ∀ value, slot.2 = some value → value.Leaf := by
    simp only [slots, List.forall_mem_cons]
    refine ⟨leaf_of_map .string (some _), leaf_of_map .string _, leaf_of_map .string (some _), ?_,
      leaf_of_map .string _, leaf_of_map .string _, leaf_of_map .strings _, leaf_of_map .string _,
      leaf_of_map .string _, leaf_of_map .bool _, leaf_of_map .string _, leaf_of_map .string _,
      leaf_of_map .string _, leaf_of_map .string _, leaf_of_map .string _, by simp⟩
    intro value hvalue
    rw [Option.ite_none_right_eq_some] at hvalue
    obtain ⟨-, ⟨⟩⟩ := hvalue
    exact .bool true
  have hleaf : ∀ name value, (name, some value) ∈ record.slots → value.Leaf :=
    fun name value hmem => hall (name, some value) hmem value rfl
  have hparse := schema.parse?_given record.slots rfl (by simp [slots]) hleaf
  rw [build_slots] at hparse
  rw [Schema.ofBytes?, Bytes.text?_ofText, text, toJson_eq]
  exact hparse

end Record

namespace StoredRecord

variable {keys : KeyBundle} {envelope : Envelope} {record : Record}

/-- A record is opened only under its own name. -/
theorem openRecord_of_openPayload
    (h : keys.openPayload envelope = .ok (Bytes.ofText record.text)) (id : String)
    (modified : Timestamp) :
    (StoredRecord.mk id modified envelope.toJson.text).openRecord keys =
      if record.id = id then .ok record
      else .error s!"payload id {record.id} does not match record id" := by
  simp only [openRecord, Envelope.parse?_text, h, Record.ofBytes?_text, bind, Except.bind, pure,
    Except.pure]
  rfl

/-- A record that a client has sealed is opened by every client with the same keys. -/
theorem openRecord_ofRecord (record : Record)
    (h : keys.openPayload envelope = .ok (Bytes.ofText record.text)) (modified : Timestamp) :
    ({ ofRecord record envelope with modified }).openRecord keys = .ok record :=
  (openRecord_of_openPayload h record.id modified).trans (if_pos rfl)

/-- Every record is stored in some form that opens. -/
theorem exists_opened (hkeys : keys.encryptionKey.length = Aead.keyLength) (record : Record)
    (modified : Timestamp) :
    ∃ stored : StoredRecord, stored.openRecord keys = .ok record ∧ stored.modified = modified := by
  obtain ⟨envelope, -, hopen⟩ := KeyBundle.openPayload_sealPayload hkeys
    (Bytes.length_ofNat Aead.ivLength 0) (Bytes.ofText record.text)
  exact ⟨_, openRecord_ofRecord record hopen modified, rfl⟩

/-- Any record can be sealed with any initialization vector. It is opened again as what it was, under
its own name and no other. -/
theorem openRecord_sealed (hkeys : keys.encryptionKey.length = Aead.keyLength) {iv : Bytes}
    (hiv : iv.length = Aead.ivLength) (record : Record) :
    ∃ envelope, keys.sealPayload iv (Bytes.ofText record.text) = .ok envelope ∧
      ∀ id modified, (StoredRecord.mk id modified envelope.toJson.text).openRecord keys =
        if record.id = id then .ok record
        else .error s!"payload id {record.id} does not match record id" := by
  obtain ⟨envelope, hseal, hopen⟩ :=
    KeyBundle.openPayload_sealPayload hkeys hiv (Bytes.ofText record.text)
  exact ⟨envelope, hseal, openRecord_of_openPayload hopen⟩

/-- A record of an unknown kind with characters that are escaped. -/
def strange : Record :=
  { id := "a\"b", kind := .unknown, title := some "\n\\ é 😀", tags := some ["", "\t"]
    loadInSidebar := some false }

theorem strange_opened :
    let keys : KeyBundle := ⟨List.replicate 32 0, []⟩
    ∃ envelope, keys.sealPayload (List.replicate 12 0) (Bytes.ofText strange.text) = .ok envelope ∧
      ∀ id modified, (StoredRecord.mk id modified envelope.toJson.text).openRecord keys =
        if strange.id = id then .ok strange
        else .error s!"payload id {strange.id} does not match record id" := by
  intro keys
  have hkeys : keys.encryptionKey.length = Aead.keyLength := by decide
  exact openRecord_sealed hkeys (by decide) strange

end StoredRecord

end SyncedBookmarks
