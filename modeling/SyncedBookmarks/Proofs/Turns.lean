import Mathlib.Logic.Function.Basic
import SyncedBookmarks.Proofs.Quiescence

namespace SyncedBookmarks

/-! Two clients of a collection that sync in turn, and the rest that they come to. -/

/-- Two clients, and the server between them. -/
structure Peers (σ : Type) where
  clients : Bool → Client
  state : σ

namespace Peers

open SyncedBookmarks.Client

/-- A pass of one of the two. -/
def pass (storage : Storage σ) (keys : Bool → KeyBundle) (who : Bool) (peers : Peers σ) :
    Except SyncError Summary × Peers σ :=
  let (outcome, client, state) := (peers.clients who).sync storage (keys who) peers.state
  (outcome, ⟨Function.update peers.clients who client, state⟩)

/-- A pass of one of the two that gets through and is steady. -/
structure SteadyPass (storage : Storage σ) (keys : Bool → KeyBundle) (who : Bool)
    (before after : Peers σ) : Prop where
  outcome : ∃ summary, (before.pass storage keys who).1 = .ok summary
  after_eq : after = (before.pass storage keys who).2
  steady : (before.clients who).Steady (after.clients who)

/-- Passes of either that get through and are steady, as many as there may be. -/
inductive SteadyPasses (storage : Storage σ) (keys : Bool → KeyBundle) :
    Peers σ → Peers σ → Prop where
  | none (peers : Peers σ) : SteadyPasses storage keys peers peers
  | more {start middle last : Peers σ} {who : Bool}
      (before : SteadyPasses storage keys start middle)
      (pass : SteadyPass storage keys who middle last) : SteadyPasses storage keys start last

section Serving

variable {storage : Storage σ} {collection : String} {view : σ → Shared}
  {keys : Bool → KeyBundle} {who : Bool} {before after : Peers σ}

theorem SteadyPass.client (h : SteadyPass storage keys who before after) :
    after.clients who = ((before.clients who).sync storage (keys who) before.state).2.1 := by
  rw [h.after_eq]
  exact Function.update_self _ _ _

theorem SteadyPass.other (h : SteadyPass storage keys who before after) {other : Bool}
    (hother : other ≠ who) :
    after.clients other = before.clients other := by
  rw [h.after_eq]
  exact Function.update_of_ne hother _ _

theorem SteadyPass.state (h : SteadyPass storage keys who before after) :
    after.state = ((before.clients who).sync storage (keys who) before.state).2.2 := by
  rw [h.after_eq]
  rfl

/-- Who has synced is at rest, and who had nothing to send has left the server as it was. -/
structure Rested (collection : String) (view : σ → Shared) (keys : Bool → KeyBundle) (who : Bool)
    (before after : Peers σ) : Prop where
  atRest : (after.clients who).AtRest (keys who) (view after.state)
  collection : (after.clients who).collection = collection
  stamped : (view after.state).Stamped
  shared : (before.clients who).Spent (keys who) → view after.state = view before.state

theorem SteadyPass.rested (h : SteadyPass storage keys who before after)
    (hserves : storage.Serves collection view) (hwell : (before.clients who).WellFormed)
    (hcollection : (before.clients who).collection = collection)
    (hstamped : (view before.state).Stamped) :
    Rested collection view keys who before after := by
  obtain ⟨summary, hok⟩ := h.outcome
  obtain ⟨records, hpassed⟩ := passed_sync hserves hwell hcollection hstamped hok
  rw [← h.client, ← h.state] at hpassed
  refine ⟨hpassed.atRest hwell hstamped h.steady, hpassed.collection.trans hcollection,
    hpassed.stamped hstamped, fun hspent => ?_⟩
  rcases hpassed.shared with ⟨-, hsame⟩ | ⟨hsome, -⟩
  · exact hsame
  · exact absurd (hspent.parcel_eq_nil hwell records) hsome

/-- Whether both are at rest. -/
structure Quiescent (collection : String) (view : σ → Shared) (keys : Bool → KeyBundle)
    (peers : Peers σ) : Prop where
  stamped : (view peers.state).Stamped
  atRest : ∀ who, (peers.clients who).AtRest (keys who) (view peers.state)
  collection : ∀ who, (peers.clients who).collection = collection

theorem Quiescent.pass (h : Quiescent collection view keys before)
    (hserves : storage.Serves collection view) (hpass : SteadyPass storage keys who before after) :
    Quiescent collection view keys after := by
  have hrested := hpass.rested hserves (h.atRest who).wellFormed (h.collection who) h.stamped
  have hsame := hrested.shared (h.atRest who).spent
  refine ⟨hrested.stamped, fun other => ?_, fun other => ?_⟩
  · by_cases hother : other = who
    · subst hother
      exact hrested.atRest
    · rw [hpass.other hother, hsame]
      exact h.atRest other
  · by_cases hother : other = who
    · subst hother
      exact hrested.collection
    · rw [hpass.other hother]
      exact h.collection other

theorem Quiescent.passes {last : Peers σ} (h : Quiescent collection view keys before)
    (hserves : storage.Serves collection view) (hpasses : SteadyPasses storage keys before last) :
    Quiescent collection view keys last := by
  induction hpasses with
  | none => exact h
  | more _ pass ih => exact ih.pass hserves pass

/-- After the two have synced, and the first of them once more, both are at rest. -/
theorem quiescent_of_passes (hserves : storage.Serves collection view)
    {start first second third : Peers σ}
    (hpeers : ∀ which, (start.clients which).WellFormed ∧
      (start.clients which).collection = collection)
    (hstamped : (view start.state).Stamped) (hfirst : SteadyPass storage keys who start first)
    (hsecond : SteadyPass storage keys (!who) first second)
    (hthird : SteadyPass storage keys who second third) : Quiescent collection view keys third := by
  have hapart : (!who) ≠ who := Bool.not_ne_self who
  have hone := hfirst.rested hserves (hpeers who).1 (hpeers who).2 hstamped
  have hother := hpeers (!who)
  rw [← hfirst.other hapart] at hother
  have htwo := hsecond.rested hserves hother.1 hother.2 hone.stamped
  have hstill := hsecond.other hapart.symm
  have hthree := hthird.rested hserves (hstill ▸ hone.atRest.wellFormed)
    (hstill ▸ hone.collection) htwo.stamped
  have hsame := hthree.shared (hstill ▸ hone.atRest.spent)
  have hleft := hthird.other hapart
  refine ⟨hthree.stamped, fun which => ?_, fun which => ?_⟩
  · by_cases hwhich : which = who
    · subst hwhich
      exact hthree.atRest
    · obtain rfl : which = !who := Bool.eq_not_of_ne hwhich
      rw [hleft, hsame]
      exact htwo.atRest
  · by_cases hwhich : which = who
    · subst hwhich
      exact hthree.collection
    · obtain rfl : which = !who := Bool.eq_not_of_ne hwhich
      rw [hleft]
      exact htwo.collection

end Serving

end Peers

namespace Client

open SyncedBookmarks.Peers

/-- Syncing comes to rest, with a server that serves and while nobody else writes. A steady pass
that got through and has left no orphan is followed by one that takes nothing up, moves nothing,
sends nothing and changes nothing; and of two clients, once they have synced and the first of them
has synced again, neither takes up or sends anything however they go on. -/
theorem sync_comes_to_rest {storage : Storage σ} {collection : String} {view : σ → Shared}
    (hserves : storage.Serves collection view) :
    (∀ (keys : KeyBundle) (client : Client) (state : σ), client.Reachable →
      client.collection = collection → (view state).Stamped →
      let first := client.sync storage keys state
      let next := first.2.1
      (∃ summary, first.1 = .ok summary) → client.Steady next →
      next.tree.annotated AnnotationName.intendedParent = [] →
      let second := next.sync storage keys first.2.2
      second.1 = .ok {} ∧
        second.2.2 = (storage.fetch next.collection next.lastSync first.2.2).2 ∧
        second.2.1.tree = next.tree ∧ second.2.1.tracker.changed = next.tracker.changed ∧
        second.2.1.lastSync = next.lastSync) ∧
    ∀ (keys : Bool → KeyBundle) (who : Bool) (start first second third last : Peers σ),
      (∀ which, (start.clients which).Reachable ∧
        (start.clients which).collection = collection) →
      (view start.state).Stamped → SteadyPass storage keys who start first →
      SteadyPass storage keys (!who) first second → SteadyPass storage keys who second third →
      SteadyPasses storage keys third last →
      ∀ which, ∃ summary, (last.clients which).Idles storage (keys which) last.state summary := by
  constructor
  · intro keys client state hreachable hcollection hstamped
    dsimp only
    rintro ⟨summary, hok⟩ hsteady hnone
    have hwell := hreachable.wellFormed
    obtain ⟨records, hpassed⟩ := passed_sync hserves hwell hcollection hstamped hok
    exact (hpassed.atRest hwell hstamped hsteady).sync_still hserves
      (hpassed.collection.trans hcollection) hnone hpassed.nonneg
  · intro keys who start first second third last hpeers hstamped hfirst hsecond hthird hpasses which
    have hwell := fun which => (hpeers which).imp_left Reachable.wellFormed
    have hlast := (quiescent_of_passes hserves hwell hstamped hfirst hsecond hthird).passes hserves
      hpasses
    exact (hlast.atRest which).idles hserves (hlast.collection which)

/-! ### A folder that is handed over -/

end Client

/-- A server that takes what it is sent at one time, as long as nothing was written at that time. -/
def Shared.once (time : Timestamp) : Storage Shared where
  fetch _ since shared := (.ok (shared.newer since), shared)
  upload _ sent shared :=
    if shared.latest < time then
      (.ok { modified := time, success := sent.map (·.id) }, shared.write time sent)
    else (.error .timeout, shared)

theorem Shared.upload_once {shared : Shared} {time : Timestamp} (h : shared.latest < time)
    (collection : String) (sent : List StoredRecord) :
    (once time).upload collection sent shared =
      (.ok { modified := time, success := sent.map (·.id) }, shared.write time sent) :=
  if_pos h

theorem Shared.serves_once (time : Timestamp) (collection : String) :
    (once time).Serves collection id where
  fetch := fun since shared => ⟨rfl, _, rfl, .refl _⟩
  upload := by
    intro sent shared result hresult
    by_cases htime : shared.latest < time
    · rw [upload_once htime] at hresult ⊢
      obtain rfl := Except.ok.inj hresult
      exact ⟨htime, fun _ => Iff.rfl, rfl⟩
    · have hrefused : (once time).upload collection sent shared = (.error .timeout, shared) :=
        if_neg htime
      rw [hrefused] at hresult
      cases hresult

theorem Shared.stamped_empty : ({} : Shared).Stamped :=
  ⟨Binary64.le_refl _, List.forall_mem_nil _⟩

namespace Client

open SyncedBookmarks.Peers SyncedBookmarks.BookmarkStore

/-- A pass gets through if there is nothing to send, or the server takes it. -/
theorem exists_ok {storage : Storage σ} {collection : String} {view : σ → Shared}
    (hserves : storage.Serves collection view) {client : Client} (h : client.WellFormed)
    (hcollection : client.collection = collection) (keys : KeyBundle) (state : σ)
    (htaken : client.Spent keys ∨ ∀ since sent, ∃ result, (storage.upload collection sent
      (storage.fetch collection since state).2).1 = .ok result) :
    ∃ summary, (client.sync storage keys state).1 = .ok summary := by
  subst hcollection
  obtain ⟨-, records, hfetch, -⟩ := hserves.fetch client.lastSync state
  by_cases hparcel : client.parcel keys records = []
  · obtain ⟨progress, ready, next, -, -, -, hsync⟩ :=
      sync_idle h storage keys state hfetch hparcel
    exact ⟨_, congrArg Prod.fst hsync⟩
  · rcases htaken with hspent | htaken
    · exact absurd (hspent.parcel_eq_nil h records) hparcel
    · obtain ⟨result, hupload⟩ := htaken client.lastSync (client.parcel keys records)
      obtain ⟨progress, ready, next, -, -, -, hsync⟩ :=
        sync_uploaded h storage keys state hfetch hparcel hupload
      exact ⟨_, congrArg Prod.fst hsync⟩

/-- A client without orphans syncs steadily. -/
theorem Passed.steady {keys : KeyBundle} {records : List StoredRecord} {before after : Shared}
    {client next : Client} (h : Passed keys records before after client next)
    (hwell : client.WellFormed) (hstamped : before.Stamped)
    (hnone : client.tree.annotated AnnotationName.intendedParent = []) : client.Steady next := by
  intro hfirst guid hsynced _
  obtain ⟨rfl, -⟩ := h.unexchanged hstamped hfirst
  have htree : next.tree = client.tree :=
    h.tree.trans (tree_caughtUp_of_still hwell (by simp [hnone]) keys)
  rw [Synced, htree] at hsynced
  exact hsynced

theorem spent_of_not_owes {client : Client} (h : ∀ guid, ¬ client.Owes guid) (keys : KeyBundle) :
    client.Spent keys where
  unsendable := fun guid hguid => absurd (.inl hguid) (h guid)
  marked := fun hfirst guid hsynced hignored =>
    absurd (.inr ⟨hfirst, hignored, hsynced⟩) (h guid)

theorem exists_steadyPass {storage : Storage σ} {collection : String} {view : σ → Shared}
    (hserves : storage.Serves collection view) {keys : Bool → KeyBundle} {who : Bool}
    {peers : Peers σ} (hwell : (peers.clients who).WellFormed)
    (hcollection : (peers.clients who).collection = collection)
    (hstamped : (view peers.state).Stamped)
    (hnone : (peers.clients who).tree.annotated AnnotationName.intendedParent = [])
    (hok : ∃ summary, ((peers.clients who).sync storage (keys who) peers.state).1 = .ok summary) :
    ∃ next, SteadyPass storage keys who peers next := by
  refine ⟨(peers.pass storage keys who).2, hok, rfl, ?_⟩
  obtain ⟨summary, hok⟩ := hok
  obtain ⟨records, hpassed⟩ := passed_sync hserves hwell hcollection hstamped hok
  have hafter : (peers.pass storage keys who).2.clients who =
      ((peers.clients who).sync storage (keys who) peers.state).2.1 := Function.update_self _ _ _
  rw [hafter]
  exact hpassed.steady hwell hstamped hnone

/-- A client with a bookmark in a folder, and a fresh one. -/
def filing : Peers Shared where
  clients := fun who => if who then filed else fresh "bookmarks" none false .numbered
  state := {}

theorem filed_comes_to_rest :
    let storage := Shared.once (Binary64.ofNat 1)
    let first := filed.sync storage blankKeys {}
    let next := first.2.1
    storage.Serves "bookmarks" id ∧ filed.Reachable ∧ ({} : Shared).Stamped ∧
      (∃ summary, first.1 = .ok summary) ∧ filed.Steady next ∧
      next.tree.annotated AnnotationName.intendedParent = [] ∧
      (next.sync storage blankKeys first.2.2).1 = .ok {} ∧
      ∃ one two three, SteadyPass storage (fun _ => blankKeys) true filing one ∧
        SteadyPass storage (fun _ => blankKeys) false one two ∧
        SteadyPass storage (fun _ => blankKeys) true two three ∧
        ∀ which, ∃ summary, (three.clients which).Idles storage blankKeys three.state summary := by
  intro storage first next
  have hserves : storage.Serves "bookmarks" id := Shared.serves_once _ _
  have hrest := sync_comes_to_rest hserves
  have hreachable := reachable_filed
  have hwell := hreachable.wellFormed
  have hfresh := wellFormed_fresh "bookmarks" none false .numbered
  have hearly : ({} : Shared).latest < Binary64.ofNat 1 := by decide
  have hok : ∃ summary, first.1 = .ok summary := exists_ok hserves hwell rfl blankKeys {}
    (.inr fun _ sent => ⟨_, congrArg Prod.fst (Shared.upload_once hearly "bookmarks" sent)⟩)
  obtain ⟨summary, houtcome⟩ := hok
  obtain ⟨records, hpassed⟩ := passed_sync hserves hwell rfl Shared.stamped_empty houtcome
  have hsteady := hpassed.steady hwell Shared.stamped_empty still_filed
  obtain rfl : records = [] := List.perm_nil.mp hpassed.given
  have hnone : next.tree.annotated AnnotationName.intendedParent = [] := by
    rw [hpassed.tree, tree_caughtUp_of_still hwell (by simp [still_filed]), still_filed]
  refine ⟨hserves, hreachable, Shared.stamped_empty, ⟨summary, houtcome⟩, hsteady, hnone, ?_, ?_⟩
  · exact (hrest.1 blankKeys filed {} hreachable rfl Shared.stamped_empty ⟨summary, houtcome⟩
      hsteady hnone).1
  · obtain ⟨one, hone⟩ : ∃ one, SteadyPass storage (fun _ => blankKeys) true filing one :=
      exists_steadyPass hserves hwell rfl Shared.stamped_empty still_filed ⟨summary, houtcome⟩
    have hfirst := hone.rested hserves hwell rfl Shared.stamped_empty
    have hfiled : one.clients true = next := hone.client
    have hother : one.clients false = fresh "bookmarks" none false .numbered :=
      hone.other (by decide)
    have hidle := spent_of_not_owes (not_owes_fresh "bookmarks" none false .numbered) blankKeys
    obtain ⟨two, htwo⟩ : ∃ two, SteadyPass storage (fun _ => blankKeys) false one two := by
      refine exists_steadyPass hserves ?_ ?_ hfirst.stamped ?_ ?_ <;> rw [hother]
      · exact hfresh
      · rfl
      · decide
      · exact exists_ok hserves hfresh rfl blankKeys one.state (.inl hidle)
    have hsecond := htwo.rested hserves (hother ▸ hfresh) (hother ▸ rfl) hfirst.stamped
    have hback : two.clients true = one.clients true := htwo.other (by decide)
    obtain ⟨three, hthree⟩ : ∃ three, SteadyPass storage (fun _ => blankKeys) true two three := by
      refine exists_steadyPass hserves ?_ ?_ hsecond.stamped ?_ ?_ <;> rw [hback]
      · exact hfirst.atRest.wellFormed
      · exact hfirst.collection
      · exact hfiled ▸ hnone
      · exact exists_ok hserves hfirst.atRest.wellFormed hfirst.collection blankKeys two.state
          (.inl hfirst.atRest.spent)
    have hpeers : ∀ which, (filing.clients which).Reachable ∧
        (filing.clients which).collection = "bookmarks" := by
      intro which
      cases which with
      | false => exact ⟨⟨"bookmarks", none, false, .numbered, [], rfl⟩, rfl⟩
      | true => exact ⟨hreachable, rfl⟩
    exact ⟨one, two, three, hone, htwo, hthree, hrest.2 (fun _ => blankKeys) true filing one two
      three three hpeers Shared.stamped_empty hone htwo hthree (.none three)⟩

/-- An orphan that finds a place in a pass that exchanges nothing makes the next one upload it. -/
theorem mislaid_restless :
    mislaid.Reachable ∧ (Shared.once (Binary64.ofNat 1)).Serves mislaid.collection id ∧
      ({} : Shared).Stamped ∧
      let storage := Shared.once (Binary64.ofNat 1)
      let first := mislaid.sync storage blankKeys {}
      let next := first.2.1
      (∃ summary, first.1 = .ok summary) ∧
        next.tree.annotated AnnotationName.intendedParent = [] ∧
        ∃ summary, (next.sync storage blankKeys first.2.2).1 = .ok summary ∧
          summary.uploaded ≠ 0 := by
  have hwell := reachable_mislaid.wellFormed
  have hparcel := (spent_of_not_owes not_owes_mislaid blankKeys).parcel_eq_nil hwell []
  obtain ⟨progress, ready, next, hreceived, hquiet, hfinished, hsync⟩ :=
    sync_idle hwell (Shared.once (Binary64.ofNat 1)) blankKeys {} rfl hparcel
  refine ⟨reachable_mislaid, Shared.serves_once _ _, Shared.stamped_empty, ?_⟩
  dsimp only
  rw [hsync]
  have hnext := hfinished.wellFormed
  have htree : next.tree = (mislaid.caughtUp blankKeys []).tree :=
    hfinished.tree.trans hquiet.tree
  have hnone : next.tree.annotated AnnotationName.intendedParent = [] := by
    rw [htree]
    decide +kernel
  -- The client still counts as never synced, so that it marks the folder now.
  have hfirst : next.lastSync ≤ Binary64.zero := by
    have hlast : mislaid.lastSync ≤ Binary64.zero := by decide +kernel
    rw [hfinished.lastSync]
    exact Binary64.max_le_iff.mpr ⟨Binary64.max_le_iff.mpr
      ⟨(hreceived.newest _).mpr ⟨hlast, List.forall_mem_nil _⟩, Binary64.le_refl _⟩, hlast⟩
  have hignored : "x" ∉ next.tracker.ignored := by
    rw [hfinished.ignored, hquiet.tracker]
    decide +kernel
  have howes : next.Owes "x" :=
    .inr ⟨hfirst, hignored, _, htree ▸ ids_caughtUp_mislaid, List.mem_singleton_self "x"⟩
  have hsendable : (next.caughtUp blankKeys []).Sendable blankKeys "x" := by
    rw [Sendable, tree_caughtUp_of_still hnext (by simp [hnone]), htree]
    decide +kernel
  have hsent := (mem_ids_parcel hnext).mpr
    ⟨(mem_changed_caughtUp hnext).mpr ⟨howes, List.not_mem_nil⟩, hsendable⟩
  have hsome : next.parcel blankKeys [] ≠ [] := List.ne_nil_of_mem hsent ∘ List.map_eq_nil_iff.mpr
  have hearly : ({} : Shared).latest < Binary64.ofNat 1 := by decide
  have hupload := congrArg Prod.fst
    (Shared.upload_once hearly next.collection (next.parcel blankKeys []))
  obtain ⟨_, _, last, -, -, -, hagain⟩ :=
    sync_uploaded hnext (Shared.once (Binary64.ofNat 1)) blankKeys {} rfl hsome hupload
  refine ⟨⟨_, rfl⟩, hnone, _, congrArg Prod.fst hagain, ?_⟩
  simpa using hsome

end Client

end SyncedBookmarks
