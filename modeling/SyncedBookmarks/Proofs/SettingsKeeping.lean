import Mathlib.Algebra.Group.Nat.Defs
import SyncedBookmarks.Proofs.FileWriting
import SyncedBookmarks.Proofs.IndentedText
import SyncedBookmarks.Settings.File

namespace SyncedBookmarks

/-! The settings survive in their file, and a change by name changes the setting of that name. -/

/-! ### Values of settings -/

/-- Whether a setting can have a value: a number of seconds for a time to wait, else a text. -/
def Setting.Admits : Setting → Json → Prop
  | .authTimeout, value => ∃ seconds < 2 ^ 64, value = Json.ofNat seconds
  | .requestTimeout, value => ∃ seconds < 2 ^ 64, value = Json.ofNat seconds
  | _, value => ∃ text, value = .string text

theorem Json.expectText_eq_ok {value : Json} {text : String} (h : value.expectText = .ok text) :
    value = .string text := by
  rw [expectText] at h
  split at h
  · rename_i found hfound
    rw [asString?.eq_def] at hfound
    split at hfound
    · rw [Option.some.inj hfound, Except.ok.inj h]
    · cases hfound
  · cases h

theorem Json.expectSeconds_eq_ok {value : Json} {seconds : UInt64}
    (h : value.expectSeconds = .ok seconds) : value = .ofNat seconds.toNat := by
  rw [expectSeconds] at h
  split at h
  · rename_i found hfound
    rw [asUInt64?.eq_def] at hfound
    split at hfound
    · rename_i n
      split at hfound
      · rename_i hn
        rw [← Except.ok.inj h, ← Option.some.inj hfound, ofNat, UInt64.toNat_ofNat_of_lt' hn]
      · cases hfound
    · cases hfound
  · cases h

theorem Json.expectSeconds_ofNat {n : Nat} (h : n < 2 ^ 64) :
    (ofNat n).expectSeconds = .ok (UInt64.ofNat n) := by
  have hread : (ofNat n).asUInt64? = some (UInt64.ofNat n) := if_pos h
  rw [expectSeconds, hread]

namespace Settings

def valueOf (settings : Settings) : Setting → Json
  | .tokenServer => .string settings.tokenServer
  | .authTimeout => .ofNat settings.authTimeout.toNat
  | .requestTimeout => .ofNat settings.requestTimeout.toNat
  | .databaseFile => .string settings.databaseFile
  | .accountFile => .string settings.accountFile
  | .collection => .string settings.collection
  | .logFilter => .string settings.logFilter

theorem scalar_valueOf (settings : Settings) (setting : Setting) :
    (settings.valueOf setting).Scalar := by
  cases setting
  case authTimeout => exact .natural settings.authTimeout.toNat_lt
  case requestTimeout => exact .natural settings.requestTimeout.toNat_lt
  all_goals exact .string _

theorem admits_valueOf (settings : Settings) (setting : Setting) :
    setting.Admits (settings.valueOf setting) := by
  cases setting
  case authTimeout => exact ⟨_, settings.authTimeout.toNat_lt, rfl⟩
  case requestTimeout => exact ⟨_, settings.requestTimeout.toNat_lt, rfl⟩
  all_goals exact ⟨_, rfl⟩

/-- Settings are read back from their text. -/
theorem parse?_indentedText (settings : Settings) :
    schema.parse? settings.toJson.indentedText = some settings := by
  let slots := Setting.all.map fun setting => (setting.name, some (settings.valueOf setting))
  have hscalar : ∀ name value, (name, some value) ∈ slots → value.Scalar := by
    intro name value hmem
    obtain ⟨setting, -, heq⟩ := List.mem_map.mp hmem
    cases heq
    exact settings.scalar_valueOf setting
  have hseconds : ∀ seconds : UInt64, (Json.ofNat seconds.toNat).asUInt64? = some seconds := by
    intro seconds
    rw [Json.ofNat, Json.asUInt64?, if_pos seconds.toNat_lt, UInt64.ofNat_toNat]
  have hnodup : (Setting.all.map Setting.name).Nodup := by decide
  have hread := schema.parse?_indented slots rfl hnodup hscalar
  have hbuild : schema.build (slots.map (·.2)) = some settings := by
    simp [slots, schema, Setting.all, valueOf, Json.defaulted, Json.asString?, hseconds]
  exact hread.trans hbuild

theorem valueOf_assigned {settings after : Settings} {setting : Setting} {value : Json}
    (h : settings.assign setting value = .ok after) : after.valueOf setting = value := by
  cases setting
  all_goals
    obtain ⟨found, hfound, hafter⟩ := Action.exists_of_bind_ok h
    obtain rfl := Except.ok.inj hafter
  case authTimeout => exact (Json.expectSeconds_eq_ok hfound).symm
  case requestTimeout => exact (Json.expectSeconds_eq_ok hfound).symm
  all_goals exact (Json.expectText_eq_ok hfound).symm

theorem valueOf_unassigned {settings after : Settings} {setting other : Setting} {value : Json}
    (h : settings.assign setting value = .ok after) (hother : other ≠ setting) :
    after.valueOf other = settings.valueOf other := by
  cases setting
  all_goals
    obtain ⟨found, -, hafter⟩ := Action.exists_of_bind_ok h
    obtain rfl := Except.ok.inj hafter
    cases other
  all_goals first | rfl | contradiction

theorem assign_ok_iff {settings : Settings} {setting : Setting} {value : Json} :
    (∃ after, settings.assign setting value = .ok after) ↔ setting.Admits value := by
  constructor
  · rintro ⟨after, h⟩
    rw [← valueOf_assigned h]
    exact after.admits_valueOf setting
  · intro h
    cases setting
    case authTimeout =>
      obtain ⟨seconds, hseconds, rfl⟩ := h
      rw [assign, Json.expectSeconds_ofNat hseconds]
      exact ⟨_, rfl⟩
    case requestTimeout =>
      obtain ⟨seconds, hseconds, rfl⟩ := h
      rw [assign, Json.expectSeconds_ofNat hseconds]
      exact ⟨_, rfl⟩
    all_goals
      obtain ⟨text, rfl⟩ := h
      exact ⟨_, rfl⟩

end Settings

/-! ### Names of settings -/

theorem eq_of_splitAt_eq_singleton {separator : Char} {text piece : List Char}
    (h : splitAt separator text = [piece]) : text = piece := by
  induction text generalizing piece with
  | nil => exact (List.cons.inj h).1
  | cons c text ih =>
      rw [splitAt] at h
      split at h
      · exact absurd (List.cons.inj h).2 (splitAt_ne_nil separator text)
      · split at h
        · rename_i first pieces hpieces
          obtain ⟨rfl, rfl⟩ := List.cons.inj h
          rw [ih hpieces]
        · rename_i hnil
          exact absurd hnil (splitAt_ne_nil separator text)

theorem eq_of_piecesOf_eq_singleton {separator : Char} {text piece : String}
    (h : piecesOf separator text = [piece]) : text = piece := by
  obtain ⟨chars, hchars, rfl⟩ := List.map_eq_singleton_iff.mp h
  rw [← eq_of_splitAt_eq_singleton hchars, String.ofList_toList]

theorem Setting.name_of_ofName? {name : String} {setting : Setting}
    (h : ofName? name = some setting) : name = setting.name := by
  rw [ofName?] at h
  have hfound := List.find?_some h
  exact (beq_iff_eq.mp hfound).symm

namespace Settings

theorem settingOf_eq_ok_iff {key : String} {setting : Setting} :
    settingOf key = .ok setting ↔ key = setting.name := by
  constructor
  · intro h
    rw [settingOf] at h
    split at h
    · cases h
    · split at h
      · rename_i name hpieces
        split at h
        · rename_i found hfound
          obtain rfl := Except.ok.inj h
          rw [eq_of_piecesOf_eq_singleton hpieces, Setting.name_of_ofName? hfound]
        · cases h
      · split at h <;> cases h
      · cases h
  · rintro rfl
    cases setting <;> rfl

theorem name_injective {setting other : Setting} (h : setting.name = other.name) :
    setting = other :=
  Except.ok.inj ((settingOf_eq_ok_iff.mpr rfl).symm.trans (settingOf_eq_ok_iff.mpr h))

theorem invalidKey_of_settingOf_error {key : String} {cause : SettingsError}
    (h : settingOf key = .error cause) : ∃ reason, cause = .invalidKey reason := by
  rw [settingOf] at h
  split at h
  · exact ⟨_, (Except.error.inj h).symm⟩
  · split at h
    · split at h
      · cases h
      · exact ⟨_, (Except.error.inj h).symm⟩
    · split at h <;> exact ⟨_, (Except.error.inj h).symm⟩
    · exact ⟨_, (Except.error.inj h).symm⟩

theorem exists_of_withValue_ok {settings after : Settings} {key : String} {value : Json}
    (h : settings.withValue key value = .ok after) :
    ∃ setting, key = setting.name ∧ settings.assign setting value = .ok after := by
  rw [withValue] at h
  split at h
  · cases h
  · rename_i setting hsetting
    split at h
    · rename_i hassigned
      exact ⟨setting, settingOf_eq_ok_iff.mp hsetting, Except.ok.inj h ▸ hassigned⟩
    · cases h

end Settings

/-- The errors for which nothing is changed. -/
inductive SettingsError.Refusal : SettingsError → Prop where
  | key (reason : String) : Refusal (.invalidKey reason)
  | value (reason : String) : Refusal (.invalidValue reason)

namespace Settings

theorem refusal_of_withValue_error {settings : Settings} {key : String} {value : Json}
    {cause : SettingsError} (h : settings.withValue key value = .error cause) :
    cause.Refusal ∧ ∀ setting : Setting, key = setting.name → ¬ setting.Admits value := by
  rw [withValue] at h
  split at h
  · rename_i hunknown
    obtain rfl := Except.error.inj h
    obtain ⟨reason, rfl⟩ := invalidKey_of_settingOf_error hunknown
    refine ⟨.key reason, ?_⟩
    intro setting hkey
    rw [settingOf_eq_ok_iff.mpr hkey] at hunknown
    cases hunknown
  · rename_i setting hsetting
    split at h
    · cases h
    · rename_i hrefused
      obtain rfl := Except.error.inj h
      refine ⟨.value _, ?_⟩
      intro other hkey hadmits
      rw [settingOf_eq_ok_iff.mpr hkey] at hsetting
      obtain rfl := Except.ok.inj hsetting
      obtain ⟨after, hafter⟩ := assign_ok_iff.mpr hadmits
      rw [hrefused] at hafter
      cases hafter

end Settings

/-! ### Saving and loading -/

/-- What is there for a program that starts again with the same file. -/
def SettingsState.restarted (state : SettingsState) : SettingsState :=
  { file := { path := state.file.path }, disk := state.disk }

namespace SettingsFile

/-- What comes of saving. -/
inductive Saved (state : SettingsState) : Except SettingsError Unit × SettingsState → Prop where
  | written {disk after : Disk}
      (h : (Disk.write state.file.path
        (Bytes.ofText state.file.settings.toJson.indentedText)).result disk = (.ok (), after)) :
      Saved state (.ok (), { state with disk := after })
  | failed (reason : String) (disk : Disk) :
      Saved state (.error (.io reason), { state with disk })

theorem saved (state : SettingsState) : Saved state (save.result state) := by
  rw [save, Action.result_bind, Action.result_read]
  dsimp only
  rw [Action.result_bind, onDisk, Action.result_within]
  rcases (Disk.makeDirectory (DiskPath.parent state.file.path)).result state.disk with
    ⟨_ | _, disk⟩
  · exact .failed _ disk
  · dsimp only [Except.mapError]
    rw [onDisk, Action.result_within]
    dsimp only
    cases hwritten : (Disk.write state.file.path
      (Bytes.ofText state.file.settings.toJson.indentedText)).result disk with
    | mk outcome after =>
        cases outcome with
        | error fault => exact .failed _ after
        | ok => exact .written hwritten

/-- What has been saved is there for a program that starts again. -/
theorem Saved.kept {state after : SettingsState} {outcome : Except SettingsError Unit}
    (h : Saved state (outcome, after)) :
    after.file = state.file ∧
      (outcome = .ok () ∧ load.result after.restarted = (.ok (), after) ∨
        ∃ reason, outcome = .error (.io reason)) := by
  cases h with
  | failed reason disk => exact ⟨rfl, .inr ⟨reason, rfl⟩⟩
  | @written before disk hwritten =>
      have hread : read state.file.path disk = .ok state.file.settings := by
        rw [read, Disk.contains_of_write hwritten, if_pos rfl, Disk.readText_of_write hwritten]
        simp only [Settings.parse?_indentedText]
      refine ⟨rfl, .inl ⟨rfl, ?_⟩⟩
      rw [load, Action.result_bind, Action.result_check]
      dsimp only [SettingsState.restarted]
      rw [hread]
      rfl

theorem result_set (key : String) (value : Json) (state : SettingsState) :
    (set key value).result state =
      match state.file.settings.withValue key value with
      | .ok settings => save.result { state with file := { state.file with settings } }
      | .error cause => (.error cause, state) := by
  rw [set, Action.result_bind, Action.result_check]
  cases state.file.settings.withValue key value with
  | ok settings => rfl
  | error cause => rfl

/-- What comes of a change by name. -/
inductive Changed (state : SettingsState) (key : String) (value : Json) :
    Except SettingsError Unit × SettingsState → Prop where
  | refused {cause : SettingsError} (hrefusal : cause.Refusal)
      (hnot : ∀ setting : Setting, key = setting.name → ¬ setting.Admits value) :
      Changed state key value (.error cause, state)
  | made {setting : Setting} {settings : Settings} (hkey : key = setting.name)
      (hassigned : state.file.settings.assign setting value = .ok settings)
      {result : Except SettingsError Unit × SettingsState}
      (hsaved : Saved { state with file := { state.file with settings } } result) :
      Changed state key value result

theorem changed (key : String) (value : Json) (state : SettingsState) :
    Changed state key value ((set key value).result state) := by
  rw [result_set]
  cases hvalue : state.file.settings.withValue key value with
  | error cause =>
      obtain ⟨hrefusal, hnot⟩ := Settings.refusal_of_withValue_error hvalue
      exact .refused hrefusal hnot
  | ok settings =>
      obtain ⟨setting, hkey, hassigned⟩ := Settings.exists_of_withValue_ok hvalue
      exact .made hkey hassigned (saved _)

/-- Saved settings are there for a program that starts again. A change by name is made when there is
a setting of that name that can have the value, to that setting alone, and it is there again if it
could be saved; else it is refused and nothing is changed. -/
theorem settings_kept (state : SettingsState) :
    (∀ after, save.result state = (.ok (), after) →
      after.file = state.file ∧ load.result after.restarted = (.ok (), after)) ∧
    ∀ key value outcome after, (set key value).result state = (outcome, after) →
      ((∃ setting : Setting, key = setting.name ∧ setting.Admits value) ↔
        ¬ ∃ cause, outcome = .error cause ∧ cause.Refusal) ∧
      (∀ setting : Setting, key = setting.name → setting.Admits value →
        (after.file.path = state.file.path ∧
          after.file.settings.valueOf setting = value ∧
          ∀ other, other ≠ setting →
            after.file.settings.valueOf other = state.file.settings.valueOf other) ∧
        (outcome = .ok () ∧ load.result after.restarted = (.ok (), after) ∨
          ∃ reason, outcome = .error (.io reason))) ∧
      ((¬ ∃ setting : Setting, key = setting.name ∧ setting.Admits value) → after = state) := by
  constructor
  · intro after hsave
    have hsaved : Saved state (.ok (), after) := hsave ▸ saved state
    obtain ⟨hfile, ⟨-, hload⟩ | ⟨_, hfailed⟩⟩ := hsaved.kept
    · exact ⟨hfile, hload⟩
    · cases hfailed
  intro key value outcome after hset
  have hchanged : Changed state key value (outcome, after) := hset ▸ changed key value state
  cases hchanged with
  | refused hrefusal hnot =>
      refine ⟨⟨?_, ?_⟩, ?_, fun _ => rfl⟩
      · rintro ⟨setting, hkey, hadmits⟩
        exact absurd hadmits (hnot setting hkey)
      · exact fun hpassed => absurd ⟨_, rfl, hrefusal⟩ hpassed
      · exact fun setting hkey hadmits => absurd hadmits (hnot setting hkey)
  | @made setting settings hkey hassigned _ hsaved =>
      have hadmits : setting.Admits value := Settings.assign_ok_iff.mp ⟨settings, hassigned⟩
      obtain ⟨hfile, hkept⟩ := hsaved.kept
      refine ⟨⟨fun _ => ?_, fun _ => ⟨setting, hkey, hadmits⟩⟩, ?_, ?_⟩
      · -- Saving fails with errors of the disk only.
        rintro ⟨cause, rfl, hrefusal⟩
        obtain ⟨hok, -⟩ | ⟨reason, hio⟩ := hkept
        · cases hok
        · cases hio
          cases hrefusal
      · intro other hother hadmitted
        obtain rfl := Settings.name_injective (hkey.symm.trans hother)
        rw [hfile]
        exact ⟨⟨rfl, Settings.valueOf_assigned hassigned,
          fun _ hne => Settings.valueOf_unassigned hassigned hne⟩, hkept⟩
      · exact fun hnone => absurd ⟨setting, hkey, hadmits⟩ hnone

theorem log_filter_kept :
    ∃ after : SettingsState,
      (set "log_filter" (.string "debug")).result { file := { path := "settings.json" } } =
        (.ok (), after) ∧
      after.file.settings.valueOf .logFilter = .string "debug" ∧
      load.result after.restarted = (.ok (), after) := by
  let state : SettingsState := { file := { path := "settings.json" } }
  have hpath : DiskPath.fault? "settings.json" = none := by
    have hsize : "settings.json".utf8ByteSize = 13 := by decide
    simp [DiskPath.fault?, DiskPath.maxPath, hsize]
  have hparent : DiskPath.fault? (DiskPath.parent "settings.json") = none := by
    have hempty : DiskPath.parent "settings.json" = "" := by decide
    simp [DiskPath.fault?, DiskPath.maxPath, hempty]
  have hmade : (Disk.makeDirectory (DiskPath.parent "settings.json")).result {} = (.ok (), {}) := by
    rw [Disk.makeDirectory, hparent]
    rfl
  have hlocated : Disk.locate {} "settings.json" = .ok ["settings.json"] := by
    rw [Disk.locate, hpath]
    rfl
  have hwritten : ∀ content, (Disk.write "settings.json" content).result {} =
      (.ok (), Disk.put {} ["settings.json"] (.file content)) := by
    intro content
    rw [Disk.write, Action.result_bind, Action.result_check, hlocated]
    rfl
  have hvalue : state.file.settings.withValue "log_filter" (.string "debug") =
      .ok { logFilter := "debug" } := rfl
  obtain ⟨after, hset⟩ : ∃ after,
      (set "log_filter" (.string "debug")).result state = (.ok (), after) := by
    rw [result_set, hvalue]
    dsimp only [state]
    rw [save, Action.result_bind, Action.result_read]
    dsimp only
    rw [Action.result_bind, onDisk, Action.result_within, hmade]
    dsimp only [Except.mapError]
    rw [onDisk, Action.result_within, hwritten]
    exact ⟨_, rfl⟩
  obtain ⟨-, hchange, -⟩ := (settings_kept state).2 _ _ _ _ hset
  obtain ⟨⟨-, hvalue, -⟩, ⟨-, hload⟩ | ⟨_, hfailed⟩⟩ := hchange .logFilter rfl ⟨"debug", rfl⟩
  · exact ⟨after, hset, hvalue, hload⟩
  · cases hfailed

end SettingsFile

end SyncedBookmarks
