import SyncedBookmarks.Proofs.Accounting

namespace SyncedBookmarks

/-! A collection that others write to as well. The server stamps every write with a later time than
the one before, and the requests of a client's passes come between the writes in any way. -/

namespace StoredRecord

def stamped (time : Timestamp) (stored : StoredRecord) : StoredRecord :=
  { stored with modified := time }

end StoredRecord

/-- A collection on a server. -/
structure Shared where
  records : List StoredRecord := []
  /-- The time of the last write. -/
  latest : Timestamp := Binary64.zero

namespace Shared

/-- Writes records at a time; those of the same names go. -/
def write (shared : Shared) (time : Timestamp) (written : List StoredRecord) : Shared where
  records :=
    shared.records.filter (fun stored => !(written.map (·.id)).contains stored.id)
      ++ written.map (·.stamped time)
  latest := time

/-- The records that are newer than a time. -/
def newer (shared : Shared) (time : Timestamp) : List StoredRecord :=
  shared.records.filter fun stored => decide (time < stored.modified)

theorem mem_newer {shared : Shared} {time : Timestamp} {stored : StoredRecord} :
    stored ∈ shared.newer time ↔ stored ∈ shared.records ∧ time < stored.modified := by
  rw [newer, List.mem_filter, decide_eq_true_iff]

theorem mem_write {shared : Shared} {time : Timestamp} {written : List StoredRecord}
    {stored : StoredRecord} : stored ∈ (shared.write time written).records ↔
      (stored ∈ shared.records ∧ stored.id ∉ written.map (·.id)) ∨
        stored ∈ written.map (·.stamped time) := by
  rw [write, List.mem_append, List.mem_filter, Bool.not_eq_true', ← Bool.not_eq_true,
    List.contains_iff_mem]

theorem modified_of_mem_stamped {time : Timestamp} {written : List StoredRecord}
    {stored : StoredRecord} (h : stored ∈ written.map (·.stamped time)) :
    stored.modified = time := by
  obtain ⟨_, -, rfl⟩ := List.mem_map.mp h
  rfl

/-- Whether the clock is ahead of all that is there. -/
def Timely (shared : Shared) : Prop :=
  Binary64.zero ≤ shared.latest ∧ ∀ stored ∈ shared.records, stored.modified ≤ shared.latest

/-- What any write leaves: a collection in which what is old was there before. -/
structure Extends (before after : Shared) : Prop where
  timely : before.Timely → after.Timely
  latest : before.latest ≤ after.latest
  old : ∀ stored ∈ after.records, stored.modified ≤ before.latest → stored ∈ before.records

theorem Extends.refl (shared : Shared) : shared.Extends shared :=
  ⟨id, Binary64.le_refl _, fun _ hstored _ => hstored⟩

theorem extends_write {shared : Shared} {time : Timestamp} (htime : shared.latest < time)
    (written : List StoredRecord) : shared.Extends (shared.write time written) where
  timely := by
    have hlater := Binary64.le_of_lt htime
    refine fun h => ⟨Binary64.le_trans h.1 hlater, ?_⟩
    intro stored hstored
    rcases mem_write.mp hstored with ⟨hold, -⟩ | hnew
    · exact Binary64.le_trans (h.2 stored hold) hlater
    · rw [modified_of_mem_stamped hnew]
      exact Binary64.le_refl time
  latest := Binary64.le_of_lt htime
  old := by
    intro stored hstored hold
    rcases mem_write.mp hstored with ⟨hthere, -⟩ | hnew
    · exact hthere
    · rw [modified_of_mem_stamped hnew] at hold
      exact absurd hold (Binary64.not_le.mpr htime)

end Shared

/-- A client, the pass that it is in, and the collection. -/
structure Exchange where
  client : Client
  pass : Option Pass := none
  shared : Shared := {}

namespace Exchange

inductive Event where
  | began
  /-- A fetch was answered with records. -/
  | fetched (records : List StoredRecord)
  | unfetched (cause : StorageError)
  /-- An upload was answered; the server has stored what it accepted. -/
  | uploaded (sent accepted : List StoredRecord)
  /-- An upload failed; the server has stored nothing of it. -/
  | failed (sent : List StoredRecord)
  /-- The answer to an upload was lost; the server has stored what it accepted. -/
  | lost (sent accepted : List StoredRecord)
  | ended (outcome : Except SyncError Summary)
  | acted (call : LocalCall)
  /-- Another client has written these versions. -/
  | wrote (versions : List StoredRecord)

namespace Event

/-- The versions that the client was given. -/
def given : Event → List StoredRecord
  | fetched records => records
  | _ => []

/-- The records that the client has sent. -/
def sent : Event → List StoredRecord
  | uploaded sent _ => sent
  | failed sent => sent
  | lost sent _ => sent
  | _ => []

/-- What the server has stored of the client's records. -/
def stored : Event → List StoredRecord
  | uploaded _ accepted => accepted
  | lost _ accepted => accepted
  | _ => []

/-- The versions that others have written. -/
def theirs : Event → List StoredRecord
  | wrote versions => versions
  | _ => []

/-- Whether others have done it. -/
def IsTheirs : Event → Prop
  | wrote _ => True
  | _ => False

end Event

/-- What can happen. The client's requests are answered at once, and it may be used between its
passes. -/
inductive Step (keys : KeyBundle) : Exchange → Event → Exchange → Prop
  | begin {client next : Client} {pass : Pass} {shared : Shared}
      (hstart : client.startPass = (pass, next)) :
      Step keys ⟨client, none, shared⟩ .began ⟨next, some pass, shared⟩
  | fetch {client next : Client} {since : Timestamp} {pass : Pass} {shared : Shared}
      {records : List StoredRecord} (hrecords : records.Perm (shared.newer since))
      (htake : client.takeFetched keys since (.ok records) = (pass, next)) :
      Step keys ⟨client, some (.fetching since), shared⟩ (.fetched records)
        ⟨next, some pass, shared⟩
  | failFetch {client next : Client} {since : Timestamp} {pass : Pass} {shared : Shared}
      {cause : StorageError}
      (htake : client.takeFetched keys since (.error cause) = (pass, next)) :
      Step keys ⟨client, some (.fetching since), shared⟩ (.unfetched cause)
        ⟨next, some pass, shared⟩
  | upload {client next : Client} {since time : Timestamp} {progress : Progress} {pass : Pass}
      {shared : Shared} {sent accepted : List StoredRecord} {failed : List (String × List String)}
      (htime : shared.latest < time) (haccepted : accepted ⊆ sent)
      (htake : client.takeUploaded since progress (.ok ⟨time, accepted.map (·.id), failed⟩) =
        (pass, next)) :
      Step keys ⟨client, some (.uploading since progress sent), shared⟩ (.uploaded sent accepted)
        ⟨next, some pass, shared.write time accepted⟩
  | failUpload {client next : Client} {since : Timestamp} {progress : Progress} {pass : Pass}
      {shared : Shared} {sent : List StoredRecord} {cause : StorageError}
      (htake : client.takeUploaded since progress (.error cause) = (pass, next)) :
      Step keys ⟨client, some (.uploading since progress sent), shared⟩ (.failed sent)
        ⟨next, some pass, shared⟩
  | loseAnswer {client next : Client} {since time : Timestamp} {progress : Progress} {pass : Pass}
      {shared : Shared} {sent accepted : List StoredRecord} {cause : StorageError}
      (htime : shared.latest < time) (haccepted : accepted ⊆ sent)
      (htake : client.takeUploaded since progress (.error cause) = (pass, next)) :
      Step keys ⟨client, some (.uploading since progress sent), shared⟩ (.lost sent accepted)
        ⟨next, some pass, shared.write time accepted⟩
  | finish {client : Client} {outcome : Except SyncError Summary} {shared : Shared} :
      Step keys ⟨client, some (.finished outcome), shared⟩ (.ended outcome) ⟨client, none, shared⟩
  | act {client : Client} {shared : Shared} (call : LocalCall) :
      Step keys ⟨client, none, shared⟩ (.acted call) ⟨call.run client, none, shared⟩
  | write {client : Client} {pass : Option Pass} {shared : Shared} {time : Timestamp}
      (written : List StoredRecord) (htime : shared.latest < time) :
      Step keys ⟨client, pass, shared⟩ (.wrote (written.map (·.stamped time)))
        ⟨client, pass, shared.write time written⟩

/-- What can happen one after the other. -/
inductive Run (keys : KeyBundle) (start : Exchange) : List Event → Exchange → Prop
  | nil : Run keys start [] start
  | snoc {events : List Event} {middle last : Exchange} {event : Event}
      (before : Run keys start events middle) (step : Step keys middle event last) :
      Run keys start (events ++ [event]) last

/-! ### What a client has not missed -/

/-- Whether the client was given a version. -/
def Given (events : List Event) (version : StoredRecord) : Prop :=
  ∃ event ∈ events, version ∈ event.given

/-- Whether others have written a version. -/
def Theirs (events : List Event) (version : StoredRecord) : Prop :=
  ∃ event ∈ events, version ∈ event.theirs

/-- Whether others have written a version between the fetch of a pass and the upload that ended
it. -/
def Overtaken (events : List Event) (version : StoredRecord) : Prop :=
  ∃ earlier records meanwhile sent accepted later,
    events = earlier ++ .fetched records :: meanwhile ++ .uploaded sent accepted :: later ∧
      (∀ event ∈ meanwhile, event.IsTheirs) ∧ Theirs meanwhile version

theorem Given.snoc {events : List Event} {version : StoredRecord} (h : Given events version)
    (event : Event) : Given (events ++ [event]) version := by
  obtain ⟨old, hold, hgiven⟩ := h
  exact ⟨old, List.mem_append_left _ hold, hgiven⟩

theorem Overtaken.snoc {events : List Event} {version : StoredRecord}
    (h : Overtaken events version) (event : Event) : Overtaken (events ++ [event]) version := by
  obtain ⟨earlier, records, meanwhile, sent, accepted, later, rfl, hmeanwhile, htheirs⟩ := h
  exact ⟨earlier, records, meanwhile, sent, accepted, later ++ [event], by simp, hmeanwhile,
    htheirs⟩

theorem theirs_snoc {events : List Event} {event : Event} {version : StoredRecord} :
    Theirs (events ++ [event]) version ↔ Theirs events version ∨ version ∈ event.theirs := by
  simp [Theirs, or_and_right, exists_or]

/-- What a client that is in no pass, or at the beginning of one, knows of the others' versions:
all that are not newer than its last pass, but those that its own uploads have overtaken. -/
structure Abreast (events : List Event) (exchange : Exchange) : Prop where
  wellFormed : exchange.client.WellFormed
  timely : exchange.shared.Timely
  behind : exchange.client.lastSync ≤ exchange.shared.latest
  theirs : ∀ version, Theirs events version →
    Binary64.zero < version.modified ∧ version.modified ≤ exchange.shared.latest
  known : ∀ version, Theirs events version → version ∈ exchange.shared.records →
    version.modified ≤ exchange.client.lastSync → Given events version ∨ Overtaken events version

/-- What holds of a pass that the client is in. -/
def InPass (events : List Event) (exchange : Exchange) : Pass → Prop
  | .fetching since =>
      since = exchange.client.lastSync ∧ exchange.client.tracker.suppressed = true
  | .uploading since progress _ =>
      since = exchange.client.lastSync ∧ progress.newest ≤ exchange.shared.latest ∧
        ∃ earlier records meanwhile, events = earlier ++ .fetched records :: meanwhile ∧
          (∀ event ∈ meanwhile, event.IsTheirs) ∧
          ∀ version, Theirs events version → version ∈ exchange.shared.records →
            Given events version ∨ Overtaken events version ∨ Theirs meanwhile version
  | .finished _ => True

/-- A step that tells the client of no later time. -/
theorem Abreast.keep {events : List Event} {exchange next : Exchange} {event : Event}
    (h : Abreast events exchange) (hwell : next.client.WellFormed)
    (hshared : exchange.shared.Extends next.shared)
    (hlast : next.client.lastSync = exchange.client.lastSync ∨
      next.client.lastSync = Binary64.zero)
    (htheirs : ∀ version ∈ event.theirs, exchange.shared.latest < version.modified ∧
      version.modified ≤ next.shared.latest) :
    Abreast (events ++ [event]) next := by
  have hbehind : next.client.lastSync ≤ exchange.shared.latest := by
    rcases hlast with hlast | hlast <;> rw [hlast]
    · exact h.behind
    · exact h.timely.1
  refine ⟨hwell, hshared.timely h.timely, Binary64.le_trans hbehind hshared.latest, ?_, ?_⟩
  · intro version hversion
    rcases theirs_snoc.mp hversion with hold | hnew
    · have hbounds := h.theirs version hold
      exact ⟨hbounds.1, Binary64.le_trans hbounds.2 hshared.latest⟩
    · have hbounds := htheirs version hnew
      exact ⟨Binary64.lt_of_le_of_lt h.timely.1 hbounds.1, hbounds.2⟩
  · intro version hversion hcurrent hbound
    rcases theirs_snoc.mp hversion with hold | hnew
    · have hbounds := h.theirs version hold
      rcases hlast with hlast | hlast <;> rw [hlast] at hbound
      · have hthere := hshared.old version hcurrent hbounds.2
        exact (h.known version hold hthere hbound).imp (·.snoc event) (·.snoc event)
      · exact absurd hbound (Binary64.not_le.mpr hbounds.1)
    · exact absurd (Binary64.le_trans hbound hbehind)
        (Binary64.not_le.mpr (htheirs version hnew).1)

/-- A step that ends a pass well: nothing of the others' is unknown. -/
theorem Abreast.catchUp {events : List Event} {exchange next : Exchange} {event : Event}
    (h : Abreast events exchange) (hwell : next.client.WellFormed)
    (hshared : exchange.shared.Extends next.shared)
    (hbehind : next.client.lastSync ≤ next.shared.latest) (htheirs : event.theirs = [])
    (hknown : ∀ version, Theirs events version → version ∈ exchange.shared.records →
      Given (events ++ [event]) version ∨ Overtaken (events ++ [event]) version) :
    Abreast (events ++ [event]) next := by
  have hsame : ∀ version, Theirs (events ++ [event]) version → Theirs events version := by
    intro version hversion
    refine (theirs_snoc.mp hversion).resolve_right ?_
    rw [htheirs]
    exact List.not_mem_nil
  refine ⟨hwell, hshared.timely h.timely, hbehind, ?_, ?_⟩
  · intro version hversion
    have hbounds := h.theirs version (hsame version hversion)
    exact ⟨hbounds.1, Binary64.le_trans hbounds.2 hshared.latest⟩
  · intro version hversion hcurrent _
    have hold := hsame version hversion
    exact hknown version hold (hshared.old version hcurrent (h.theirs version hold).2)

/-- What holds of an exchange at any time. -/
structure Sound (events : List Event) (exchange : Exchange) : Prop where
  abreast : Abreast events exchange
  inPass : ∀ pass, exchange.pass = some pass → InPass events exchange pass

theorem sound_begin {events : List Event} {client next : Client} {pass : Pass} {shared : Shared}
    (h : Sound events ⟨client, none, shared⟩) (hstart : client.startPass = (pass, next)) :
    Sound (events ++ [.began]) ⟨next, some pass, shared⟩ := by
  obtain ⟨hfetching, hbegun⟩ := Client.startPass_eq h.abreast.wellFormed
  obtain ⟨rfl, rfl⟩ := Prod.mk.inj (hstart.symm.trans hfetching)
  refine ⟨h.abreast.keep hbegun.wellFormed (Shared.Extends.refl _) (.inl hbegun.lastSync)
    (List.forall_mem_nil _), ?_⟩
  rintro _ ⟨⟩
  exact ⟨hbegun.lastSync.symm, hbegun.deaf⟩

theorem sound_fetch {events : List Event} {client next : Client} {since : Timestamp} {pass : Pass}
    {shared : Shared} {records : List StoredRecord} {keys : KeyBundle}
    (h : Sound events ⟨client, some (.fetching since), shared⟩)
    (hrecords : records.Perm (shared.newer since))
    (htake : client.takeFetched keys since (.ok records) = (pass, next)) :
    Sound (events ++ [.fetched records]) ⟨next, some pass, shared⟩ := by
  obtain ⟨hsince, hdeaf⟩ := h.inPass _ rfl
  have hwell := h.abreast.wellFormed
  have htimely := h.abreast.timely
  obtain ⟨progress, ready, hreceived, hquiet, htaken⟩ :=
    Client.takeFetched_ok hwell hdeaf keys since records
  have hmem : ∀ stored, stored ∈ records ↔ stored ∈ shared.records ∧ since < stored.modified :=
    fun stored => hrecords.mem_iff.trans Shared.mem_newer
  have hlast : ready.lastSync = client.lastSync :=
    hquiet.lastSync.trans (Client.settled_spec hwell hdeaf keys since records).1.lastSync
  have hnewest : progress.newest ≤ shared.latest :=
    (hreceived.newest _).mpr ⟨hsince ▸ h.abreast.behind,
      fun stored hstored => htimely.2 stored ((hmem stored).mp hstored).1⟩
  -- What is older than the pass was known before, and the rest has just been given.
  have hknown : ∀ version, Theirs events version → version ∈ shared.records →
      Given (events ++ [.fetched records]) version ∨
        Overtaken (events ++ [.fetched records]) version := by
    intro version hversion hcurrent
    by_cases hnew : since < version.modified
    · exact .inl ⟨.fetched records, by simp, (hmem version).mpr ⟨hcurrent, hnew⟩⟩
    · have hold : version.modified ≤ client.lastSync := hsince ▸ Int.not_lt.mp hnew
      exact (h.abreast.known version hversion hcurrent hold).imp (·.snoc _) (·.snoc _)
  rw [htake] at htaken
  split at htaken
  · obtain ⟨last, hfinish, hfinished⟩ :=
      Client.finishPass_spec hquiet.wellFormed since progress 0 Binary64.zero
    obtain ⟨rfl, rfl⟩ := Prod.mk.inj (htaken.trans hfinish)
    refine ⟨h.abreast.catchUp hfinished.wellFormed (Shared.Extends.refl _) ?_ rfl hknown, ?_⟩
    · rw [hfinished.lastSync]
      exact Binary64.max_le_iff.mpr ⟨Binary64.max_le_iff.mpr ⟨hnewest, htimely.1⟩,
        hsince ▸ h.abreast.behind⟩
    · rintro _ ⟨⟩
      trivial
  · obtain ⟨rfl, rfl⟩ := Prod.mk.inj htaken
    refine ⟨h.abreast.keep hquiet.wellFormed (Shared.Extends.refl _) (.inl hlast)
      (List.forall_mem_nil _), ?_⟩
    rintro _ ⟨⟩
    refine ⟨hsince.trans hlast.symm, hnewest, events, records, [], rfl, List.forall_mem_nil _, ?_⟩
    intro version hversion hcurrent
    have hold := (theirs_snoc.mp hversion).resolve_right List.not_mem_nil
    exact (hknown version hold hcurrent).imp id .inl

theorem sound_failFetch {events : List Event} {client next : Client} {since : Timestamp}
    {pass : Pass} {shared : Shared} {cause : StorageError} {keys : KeyBundle}
    (h : Sound events ⟨client, some (.fetching since), shared⟩)
    (htake : client.takeFetched keys since (.error cause) = (pass, next)) :
    Sound (events ++ [.unfetched cause]) ⟨next, some pass, shared⟩ := by
  obtain ⟨last, htaken, hquiet⟩ :=
    Client.takeFetched_error h.abreast.wellFormed keys since cause
  obtain ⟨rfl, rfl⟩ := Prod.mk.inj (htake.symm.trans htaken)
  refine ⟨h.abreast.keep hquiet.wellFormed (Shared.Extends.refl _) (.inl hquiet.lastSync)
    (List.forall_mem_nil _), ?_⟩
  rintro _ ⟨⟩
  trivial

theorem sound_upload {events : List Event} {client next : Client} {since time : Timestamp}
    {progress : Progress} {pass : Pass} {shared : Shared} {sent accepted : List StoredRecord}
    {failed : List (String × List String)}
    (h : Sound events ⟨client, some (.uploading since progress sent), shared⟩)
    (htime : shared.latest < time)
    (htake : client.takeUploaded since progress (.ok ⟨time, accepted.map (·.id), failed⟩) =
      (pass, next)) :
    Sound (events ++ [.uploaded sent accepted])
      ⟨next, some pass, shared.write time accepted⟩ := by
  obtain ⟨hsince, hnewest, earlier, records, meanwhile, rfl, hmeanwhile, hknown⟩ :=
    h.inPass _ rfl
  obtain ⟨last, htaken, hfinished⟩ := Client.takeUploaded_ok h.abreast.wellFormed since progress
    ⟨time, accepted.map (·.id), failed⟩
  obtain ⟨rfl, rfl⟩ := Prod.mk.inj (htake.symm.trans htaken)
  have hlater := Binary64.le_of_lt htime
  refine ⟨h.abreast.catchUp hfinished.wellFormed (Shared.extends_write htime accepted) ?_ rfl ?_,
    ?_⟩
  · rw [hfinished.lastSync]
    exact Binary64.max_le_iff.mpr ⟨Binary64.max_le_iff.mpr
      ⟨Binary64.le_trans hnewest hlater, Binary64.le_refl time⟩,
      hsince ▸ Binary64.le_trans h.abreast.behind hlater⟩
  · intro version hversion hcurrent
    rcases hknown version hversion hcurrent with hgiven | hovertaken | htheirs
    · exact .inl (hgiven.snoc _)
    · exact .inr (hovertaken.snoc _)
    · exact .inr ⟨earlier, records, meanwhile, sent, accepted, [], by simp, hmeanwhile, htheirs⟩
  · rintro _ ⟨⟩
    trivial

theorem sound_failUpload {events : List Event} {client next : Client} {since : Timestamp}
    {progress : Progress} {pass : Pass} {shared after : Shared} {sent : List StoredRecord}
    {cause : StorageError} {event : Event}
    (h : Sound events ⟨client, some (.uploading since progress sent), shared⟩)
    (hevent : event.theirs = []) (hshared : shared.Extends after)
    (htake : client.takeUploaded since progress (.error cause) = (pass, next)) :
    Sound (events ++ [event]) ⟨next, some pass, after⟩ := by
  obtain ⟨last, htaken, hquiet⟩ :=
    Client.takeUploaded_error h.abreast.wellFormed since progress cause
  obtain ⟨rfl, rfl⟩ := Prod.mk.inj (htake.symm.trans htaken)
  refine ⟨h.abreast.keep hquiet.wellFormed hshared (.inl hquiet.lastSync)
    (hevent ▸ List.forall_mem_nil _), ?_⟩
  rintro _ ⟨⟩
  trivial

theorem sound_write {events : List Event} {client : Client} {held : Option Pass} {shared : Shared}
    {time : Timestamp} (h : Sound events ⟨client, held, shared⟩) (htime : shared.latest < time)
    (written : List StoredRecord) :
    Sound (events ++ [.wrote (written.map (·.stamped time))])
      ⟨client, held, shared.write time written⟩ := by
  have hshared := Shared.extends_write htime written
  have htheirs : ∀ version ∈ Event.theirs (.wrote (written.map (·.stamped time))),
      shared.latest < version.modified ∧ version.modified ≤ time := by
    intro version hversion
    rw [Shared.modified_of_mem_stamped hversion]
    exact ⟨htime, Binary64.le_refl time⟩
  refine ⟨h.abreast.keep h.abreast.wellFormed hshared (.inl rfl) htheirs, ?_⟩
  intro pass hpass
  have hold := h.inPass pass hpass
  cases pass with
  | fetching since => exact hold
  | finished outcome => trivial
  | uploading since progress sent =>
      obtain ⟨hsince, hnewest, earlier, records, meanwhile, rfl, hmeanwhile, hknown⟩ := hold
      refine ⟨hsince, Binary64.le_trans hnewest hshared.latest, earlier, records,
        meanwhile ++ [.wrote (written.map (·.stamped time))], by simp, ?_, ?_⟩
      · intro event hevent
        rcases List.mem_append.mp hevent with hevent | hevent
        · exact hmeanwhile event hevent
        · rw [List.mem_singleton] at hevent
          subst hevent
          trivial
      · intro version hversion hcurrent
        rcases theirs_snoc.mp hversion with hbefore | hnow
        · have hthere := hshared.old version hcurrent (h.abreast.theirs version hbefore).2
          rcases hknown version hbefore hthere with hgiven | hovertaken | htheirs
          · exact .inl (hgiven.snoc _)
          · exact .inr (.inl (hovertaken.snoc _))
          · exact .inr (.inr (theirs_snoc.mpr (.inl htheirs)))
        · exact .inr (.inr (theirs_snoc.mpr (.inr hnow)))

theorem Step.sound {keys : KeyBundle} {events : List Event} {exchange next : Exchange}
    {event : Event} (step : Step keys exchange event next) (h : Sound events exchange) :
    Sound (events ++ [event]) next := by
  cases step with
  | begin hstart => exact sound_begin h hstart
  | fetch hrecords htake => exact sound_fetch h hrecords htake
  | failFetch htake => exact sound_failFetch h htake
  | upload htime haccepted htake => exact sound_upload h htime htake
  | failUpload htake => exact sound_failUpload h rfl (Shared.Extends.refl _) htake
  | loseAnswer htime haccepted htake =>
      exact sound_failUpload h rfl (Shared.extends_write htime _) htake
  | finish =>
      refine ⟨h.abreast.keep h.abreast.wellFormed (Shared.Extends.refl _) (.inl rfl)
        (List.forall_mem_nil _), ?_⟩
      rintro _ ⟨⟩
  | act call =>
      have hcontinued := call.continued_run h.abreast.wellFormed
      refine ⟨h.abreast.keep hcontinued.wellFormed (Shared.Extends.refl _) hcontinued.lastSync
        (List.forall_mem_nil _), ?_⟩
      rintro _ ⟨⟩
  | write written htime => exact sound_write h htime written

/-- A client that has never been synced, and a collection that nobody has written to. -/
def opening (client : Client) : Exchange :=
  { client }

theorem sound_opening {client : Client} (h : client.WellFormed)
    (hfirst : client.lastSync ≤ Binary64.zero) : Sound [] (opening client) := by
  refine ⟨⟨h, ⟨Binary64.le_refl _, List.forall_mem_nil _⟩, hfirst, ?_, ?_⟩, ?_⟩
  · rintro version ⟨_, hmem, -⟩
    cases hmem
  · rintro version ⟨_, hmem, -⟩
    cases hmem
  · rintro _ ⟨⟩

theorem Run.sound {keys : KeyBundle} {start last : Exchange} {events : List Event}
    (run : Run keys start events last) (h : Sound [] start) : Sound events last := by
  induction run with
  | nil => exact h
  | snoc before step ih => exact step.sound ih

/-- Whatever others write, and whenever: what they have written up to the time of the client's last
pass, and what has not been written over since, the client was given, unless it was written while a
pass of the client was between its fetch and the upload that ended it. -/
theorem given_or_overtaken {keys : KeyBundle} {client : Client} (hclient : client.Reachable)
    (hfirst : client.lastSync ≤ Binary64.zero) {events : List Event} {last : Exchange}
    (hrun : Run keys (opening client) events last) {version : StoredRecord}
    (htheirs : Theirs events version) (hcurrent : version ∈ last.shared.records)
    (htime : version.modified ≤ last.client.lastSync) :
    Given events version ∨ Overtaken events version :=
  (hrun.sound (sound_opening hclient.wellFormed hfirst)).abreast.known version htheirs hcurrent
    htime

/-! ### A write in between -/

/-- A client with one item to upload, which is gone. -/
def marked : Client :=
  ClientCall.runAll (Client.fresh "bookmarks" none false GuidSource.numbered)
    [.locally (.mark "a")]

theorem reachable_marked : marked.Reachable :=
  ⟨"bookmarks", none, false, .numbered, _, rfl⟩

theorem ids_parcel_marked : (marked.parcel Client.blankKeys []).map (·.id) = ["a"] := by
  rw [(Client.sealed_parcel reachable_marked.wellFormed (by decide) []).ids]
  decide +kernel

/-- What another client writes. -/
def strange : StoredRecord :=
  { id := "b", modified := Binary64.ofNat 1, payload := "" }

/-- The first pass of the client, with a write after its fetch. -/
theorem exists_crossing :
    ∃ sent summary last, Run Client.blankKeys (opening marked)
        [.began, .fetched [], .wrote [strange], .uploaded sent sent, .ended (.ok summary)] last ∧
      strange ∈ last.shared.records ∧ strange.modified ≤ last.client.lastSync := by
  have hwell := reachable_marked.wellFormed
  obtain ⟨progress, ready, -, hquiet, htake⟩ :=
    Client.takeFetched_begun hwell Client.blankKeys []
  have hids := ids_parcel_marked
  generalize marked.parcel Client.blankKeys [] = sent at hids htake
  rw [if_neg (by rintro h; simp [List.isEmpty_iff.mp h] at hids)] at htake
  obtain ⟨next, hupload, hfinished⟩ := Client.takeUploaded_ok hquiet.wellFormed marked.lastSync
    progress ⟨Binary64.ofNat 2, sent.map (·.id), []⟩
  have hfirst : ({} : Shared).latest < Binary64.ofNat 1 := by decide
  have hsecond : (({} : Shared).write (Binary64.ofNat 1) [strange]).latest < Binary64.ofNat 2 := by
    decide
  have hwrote : Step Client.blankKeys
      ⟨ready, some (.uploading marked.lastSync progress sent), {}⟩ (.wrote [strange])
      ⟨ready, some (.uploading marked.lastSync progress sent),
        ({} : Shared).write (Binary64.ofNat 1) [strange]⟩ :=
    .write [strange] hfirst
  have hbegan : Step Client.blankKeys (opening marked) .began
      ⟨marked.begun, some (.fetching marked.lastSync), {}⟩ :=
    .begin (Client.startPass_eq hwell).1
  have hfetched : Step Client.blankKeys ⟨marked.begun, some (.fetching marked.lastSync), {}⟩
      (.fetched []) ⟨ready, some (.uploading marked.lastSync progress sent), {}⟩ :=
    .fetch (.refl _) htake
  have hrun := ((((Run.nil.snoc hbegan).snoc hfetched).snoc hwrote).snoc
    (.upload hsecond (List.Subset.refl _) hupload)).snoc .finish
  simp only [List.nil_append, List.cons_append] at hrun
  have hthere : strange ∈ (({} : Shared).write (Binary64.ofNat 1) [strange]).records :=
    Shared.mem_write.mpr (.inr (List.mem_singleton_self strange))
  have hcurrent : strange ∈ ((({} : Shared).write (Binary64.ofNat 1) [strange]).write
      (Binary64.ofNat 2) sent).records := by
    have hapart : strange.id ∉ sent.map (·.id) := by
      rw [hids]
      decide
    exact Shared.mem_write.mpr (.inl ⟨hthere, hapart⟩)
  have hlater : Binary64.ofNat 1 ≤ Binary64.ofNat 2 := by decide
  have htime : strange.modified ≤ next.lastSync := by
    rw [hfinished.lastSync]
    exact Binary64.le_trans hlater
      (Binary64.le_trans Binary64.le_max_right Binary64.le_max_left)
  exact ⟨sent, _, _, hrun, hcurrent, htime⟩

theorem strange_overtaken :
    ∃ events last, marked.Reachable ∧ marked.lastSync ≤ Binary64.zero ∧
      Run Client.blankKeys (opening marked) events last ∧ Theirs events strange ∧
      strange ∈ last.shared.records ∧ strange.modified ≤ last.client.lastSync ∧
      (Given events strange ∨ Overtaken events strange) := by
  obtain ⟨sent, summary, last, hrun, hcurrent, htime⟩ := exists_crossing
  have htheirs : Theirs [.began, .fetched [], .wrote [strange], .uploaded sent sent,
      .ended (.ok summary)] strange :=
    ⟨.wrote [strange], by simp, List.mem_singleton_self strange⟩
  exact ⟨_, last, reachable_marked, by decide +kernel, hrun, htheirs, hcurrent, htime,
    given_or_overtaken reachable_marked (by decide +kernel) hrun htheirs hcurrent htime⟩

/-- A pass of the client may end well after what others wrote, and the client not have been given
it. -/
theorem strange_missed :
    ∃ events summary last, marked.Reachable ∧ marked.lastSync ≤ Binary64.zero ∧
      Run Client.blankKeys (opening marked) (events ++ [.ended (.ok summary)]) last ∧
      Theirs events strange ∧ strange ∈ last.shared.records ∧
      strange.modified ≤ last.client.lastSync ∧
      ¬ Given (events ++ [.ended (.ok summary)]) strange := by
  obtain ⟨sent, summary, last, hrun, hcurrent, htime⟩ := exists_crossing
  refine ⟨[.began, .fetched [], .wrote [strange], .uploaded sent sent], summary, last,
    reachable_marked, by decide +kernel, hrun,
    ⟨.wrote [strange], by simp, List.mem_singleton_self strange⟩, hcurrent, htime, ?_⟩
  rintro ⟨event, hevent, hgiven⟩
  simp only [List.mem_append, List.mem_cons, List.not_mem_nil, or_false] at hevent
  rcases hevent with (rfl | rfl | rfl | rfl) | rfl <;> simp [Event.given] at hgiven

end Exchange

end SyncedBookmarks
