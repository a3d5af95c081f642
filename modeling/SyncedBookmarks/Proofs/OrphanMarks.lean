import SyncedBookmarks.Proofs.Outcomes
import SyncedBookmarks.Proofs.RootSafety

namespace SyncedBookmarks

/-! The mark of an orphan names the parent that the last record for it named, and its bearer is in
the unfiled folder, for as long as records arrive and come through. -/

namespace BookmarkStore

open SyncedBookmarks.Action SyncedBookmarks.Tree

/-- The parent that the last record of an item named; of the records the newest comes first. -/
def lastParent? (log : List Record) (guid : String) : Option String :=
  log.findSome? fun record => if record.id = guid then record.parentid else none

theorem lastParent?_cons (record : Record) (log : List Record) (guid : String) :
    lastParent? (record :: log) guid =
      ((if record.id = guid then record.parentid else none) <|> lastParent? log guid) := by
  rw [lastParent?, List.findSome?_cons]
  split <;> rename_i heq <;> rw [heq] <;> rfl

/-- Whether the orphans, but for those of certain names, are in the unfiled folder, and wait for the
parents that were the last to be named for them. -/
def Marked (but : String → Prop) (last : String → Option String) (tree : Tree) : Prop :=
  ∀ id row mark, tree.known? id = some row → row.mark? = some mark → ¬ but row.guid →
    row.parent = some RootId.unfiled ∧ ∃ guid, last row.guid = some guid ∧ mark = orphanMark ++ guid

namespace Marked

variable {but : String → Prop} {last : String → Option String} {before after : Tree}

theorem of_inherits {store : BookmarkStore} (h : Marked but last before)
    (hstore : Inherits before store) : Marked but last store.tree := by
  intro id row mark hrow hmark hbut
  rcases hstore.descends.origin id row hrow with ⟨origin, horigin, hstems⟩ | ⟨-, hnone⟩
  · obtain ⟨hguid, hparent, hsame⟩ := hstems.kept fun hnone => hnone
    rw [hguid] at hbut ⊢
    rw [hparent]
    exact h id origin mark horigin (hsame.symm.trans hmark) hbut
  · rw [hnone fun hnone => hnone] at hmark
    cases hmark

theorem rewritten (h : Marked but last before) {id : Int} {row : Row}
    (hrewritten : Rewritten id row before after) (hself : but row.guid ∨ row.mark? = none) :
    Marked but last after := by
  intro other found mark hfound hmark hbut
  by_cases heq : other = id
  · subst heq
    obtain rfl := Option.some.inj (hrewritten.self.symm.trans hfound)
    rcases hself with hskip | hnone
    · exact absurd hskip hbut
    · rw [hnone] at hmark
      cases hmark
  · exact h other found mark ((hrewritten.of_ne heq).symm.trans hfound) hmark hbut

end Marked

section BringIn

variable {first second : BookmarkStore} {record : Record}

/-- What a record brings about apart from deletions: an update where there is its item, and
otherwise a creation. -/
theorem updated_or_created {place : Option Int} (h : first.tree.WellFormed)
    (hdeleted : record.deleted = false)
    (hok : (bringIn record place).result first = (.ok (), second)) :
    (∃ id row, first.tree.known? id = some row ∧ row.guid = record.id ∧
      (update record place).result first = (.ok (), second)) ∨
    first.tree.idOfGuid? record.id = none ∧
      (create record place).result first = (.ok (), second) := by
  cases hid : first.tree.idOfGuid? record.id with
  | none =>
      rw [result_bringIn_of_none hdeleted hid] at hok
      exact .inr ⟨rfl, hok⟩
  | some id =>
      rw [result_bringIn_of_some hdeleted hid] at hok
      obtain ⟨row, hrow, hguid⟩ := h.idOfGuid?_iff.mp hid
      exact .inl ⟨id, row, hrow, hguid, hok⟩

/-- Bringing in a record moves no item but its own, and marks none. -/
theorem marked_bringIn {but : String → Prop} {last : String → Option String}
    (h : first.tree.WellFormed) (hmarked : Marked but last first.tree) {place : Option Int}
    (hbut : place.isSome → but record.id)
    (hok : (bringIn record place).result first = (.ok (), second)) :
    Marked but last second.tree := by
  cases hdeleted : record.deleted with
  | true =>
      rw [bringIn_of_deleted hdeleted] at hok
      have hremoved := spares_remove record (sheltered_none first.tree)
        (fun _ _ hnone => hnone) (Inherits.refl h)
      rw [hok] at hremoved
      exact hmarked.of_inherits hremoved
  | false =>
      rcases updated_or_created h hdeleted hok with
        ⟨id, row, hrow, hguid, hupdated⟩ | ⟨-, hcreated⟩
      · -- The move alone writes to where the item is, and all the rest only to what it is.
        have hold := (h.id_bounds id row hrow).2
        obtain ⟨middle, hfields, -, ⟨-, rfl⟩ | ⟨parent, rfl, hrewritten⟩⟩ :=
          moved_of_update h hrow hguid hupdated
        · have hinherits := inherits_updateFields h hold record
          rw [hfields] at hinherits
          exact hmarked.of_inherits hinherits
        · have hmoved := hmarked.rewritten hrewritten (.inl (hguid ▸ hbut rfl))
          have hinherits := inherits_updateFields hrewritten.wellFormed
            (hrewritten.nextId ▸ hold) record
          rw [hfields] at hinherits
          exact hmoved.of_inherits hinherits
      · cases place with
        | none => cases hcreated
        | some parent =>
            rcases made_of_create h hcreated with rfl | ⟨middle, id, hinherits, -, -, hnamed⟩
            · exact hmarked
            · have hmiddle := hmarked.of_inherits hinherits
              rcases hnamed with hsame | ⟨row, -, hrewritten⟩
              · rwa [hsame]
              · exact hmiddle.rewritten hrewritten (.inl (hbut rfl))

/-- An item in the unfiled folder is there with its name when its fields have been updated. -/
theorem named_of_updateFields {guids : GuidSource} (record : Record) (h : RootsKept guids first)
    {id : Int} {row : Row} (hrow : first.tree.known? id = some row)
    (hparent : row.parent = some RootId.unfiled) :
    ((updateFields id record).result first).2.tree.idOfGuid? row.guid = some id := by
  have hold := (h.wellFormed.id_bounds id row hrow).2
  have hsheltered : Sheltered (fun other => other = id ∨ IsRoot other) first.tree := by
    have habove := (above?_of_known? hrow).trans hparent
    constructor
    case upward =>
      rintro other parent (rfl | hother) hup
      · exact .inr (Option.some.inj (habove.symm.trans hup) ▸ ⟨_, unfiled_mem_rootNames⟩)
      · exact .inr (h.sheltered.upward other parent hother hup)
    case untagged =>
      rintro other (rfl | hother) hup
      · exact absurd (habove.symm.trans hup) (by decide)
      · exact h.sheltered.untagged other hother hup
  have hthere : ∀ other, other = id ∨ IsRoot other → (first.tree.row? other).isSome := by
    rintro other (rfl | hother)
    · exact Places.isSome_row?_of_known? hrow
    · exact h.there other hother
  have hspares : Spares (fun other => other = id ∨ IsRoot other) (fun _ => True) (fun _ => False)
      first.tree ((updateFields id record).result first).2 :=
    keeps_updateFields_spares trivial hold (fun _ _ _ => hsheltered) record first
      (Places.Spares.refl h.wellFormed hthere)
  have hwell : ((updateFields id record).result first).2.tree.WellFormed := hspares.wellFormed
  have hstill := hspares.undisturbed.there id (.inl rfl)
  rw [← isSome_known?] at hstill
  obtain ⟨found, hfound⟩ := Option.isSome_iff_exists.mp hstill
  refine hwell.idOfGuid?_iff.mpr ⟨found, hfound, ?_⟩
  rcases hspares.descends.origin id found hfound with ⟨origin, horigin, hstems⟩ | ⟨hle, -⟩
  · rw [(hstems.kept fun hnone => hnone).1, Option.some.inj (horigin.symm.trans hrow)]
  · exact absurd hold hle.not_gt

/-- A record brought in where no parent is known has its item in the unfiled folder. -/
theorem unfiled_of_bringIn {guids : GuidSource} (h : RootsKept guids first)
    (hroot : record.id ∉ RootGuid.all)
    (hok : (bringIn record (some RootId.unfiled)).result first = (.ok (), second)) {id : Int}
    (hid : second.tree.idOfGuid? record.id = some id) :
    Sits (· = RootId.unfiled) id second.tree := by
  have hwell := h.wellFormed
  cases hdeleted : record.deleted with
  | true =>
      rw [bringIn_of_deleted hdeleted] at hok
      rw [free_of_remove hwell hok] at hid
      cases hid
  | false =>
      rcases updated_or_created hwell hdeleted hok with
        ⟨own, row, hrow, hguid, hupdated⟩ | ⟨hfree, hcreated⟩
      · obtain ⟨middle, hfields, hmoved, ⟨hnone, -⟩ | ⟨parent, hparent, hrewritten⟩⟩ :=
          moved_of_update hwell hrow hguid hupdated
        · cases hnone
        obtain rfl := Option.some.inj hparent
        have hnot := h.not_isRoot hrow (hguid ▸ hroot)
        have hkept : RootsKept guids ((onTree (updateParent own RootId.unfiled)).result first).2 :=
          keeps_updateParent_spares hnot hnot RootId.unfiled first h
        change (onTree (updateParent own RootId.unfiled)).result first = _ at hmoved
        rw [hmoved] at hkept
        have hname := named_of_updateFields record hkept hrewritten.self rfl
        rw [hfields] at hname
        obtain rfl : own = id := Option.some.inj (hname.symm.trans (hguid ▸ hid))
        have hold := hrewritten.nextId ▸ (hwell.id_bounds own row hrow).2
        have hinherits := inherits_updateFields hrewritten.wellFormed hold record
        rw [hfields] at hinherits
        refine Sits.of_inherits ⟨hrewritten.wellFormed, hold, ?_⟩ hinherits
        intro folder habove
        rw [above?_of_known? hrewritten.self] at habove
        exact (Option.some.inj habove).symm
      · rcases made_of_create hwell hcreated with rfl | ⟨middle, own, -, hsits, hname, hnamed⟩
        · rw [hfree] at hid
          cases hid
        · obtain rfl := Option.some.inj (hname.symm.trans hid)
          rcases hnamed with hsame | ⟨row, hrow, hrewritten⟩
          · rwa [hsame]
          · refine ⟨hrewritten.wellFormed, hrewritten.nextId ▸ hsits.old, ?_⟩
            intro folder habove
            refine hsits.above folder ?_
            rw [above?_of_known? hrow]
            rw [above?_of_known? hrewritten.self] at habove
            exact habove

/-- Once a record's item is marked, there is no exception any more. -/
theorem marked_settle {last : String → Option String} (h : first.tree.WellFormed)
    (hmarked : Marked (· = record.id) last first.tree) {place : Int} {orphanOf : Option String}
    (hself : ∀ id row guid, first.tree.known? id = some row → row.guid = record.id →
      orphanOf = some guid → row.parent = some RootId.unfiled ∧ last record.id = some guid)
    (hok : (settle record.id (some place) orphanOf).result first = (.ok (), second)) :
    Marked (fun _ => False) last second.tree := by
  cases hid : first.tree.idOfGuid? record.id with
  | none =>
      have hsame : second.tree = first.tree := by
        rw [result_settle_of_none hid] at hok
        obtain rfl := (Prod.mk.inj hok).2
        rfl
      rw [hsame]
      exact fun id row mark hrow hmark _ => hmarked id row mark hrow hmark
        (h.idOfGuid?_eq_none_iff.mp hid id row hrow)
  | some id =>
      obtain ⟨row, hrow, hguid⟩ := h.idOfGuid?_iff.mp hid
      obtain ⟨_, _, hresult, hrewritten, -⟩ := yields_settle h hrow place orphanOf
      rw [hguid, hok] at hresult
      obtain rfl := (Prod.mk.inj hresult).2
      intro other found mark hfound hmark _
      by_cases heq : other = id
      · subst heq
        obtain rfl := Option.some.inj (hrewritten.self.symm.trans hfound)
        cases orphanOf with
        | none =>
            rw [Row.mark?, Row.markedBy, Row.annotationOf?_unannotate, if_pos rfl] at hmark
            cases hmark
        | some guid =>
            rw [Row.mark?, Row.markedBy, Row.annotationOf?_annotate, if_pos rfl] at hmark
            obtain ⟨hparent, hlast⟩ := hself other row guid hrow hguid rfl
            exact ⟨hparent, guid, hguid ▸ hlast, (Option.some.inj hmark).symm⟩
      · have hbefore := (hrewritten.of_ne heq).symm.trans hfound
        refine hmarked other found mark hbefore hmark fun hname => heq ?_
        exact h.guid_inj other id found row hbefore hrow (hname.trans hguid.symm)

theorem tree_settle_none {guid : String}
    (hok : (settle guid none none).result first = (.ok (), second)) :
    second.tree = first.tree := by
  cases hid : first.tree.idOfGuid? guid with
  | none =>
      rw [result_settle_of_none hid] at hok
      obtain rfl := (Prod.mk.inj hok).2
      rfl
  | some id =>
      rw [result_settle_of_some hid] at hok
      have hplaces := exists_of_result_onTree hok
      change (Except.ok (), first.places) = _ at hplaces
      exact congrArg Places.tree (Prod.mk.inj hplaces).2.symm

end BringIn

/-! ### Records in a row -/

/-- The stores that records lead to which come through, with passes over the orphans in between; and
the records, the newest first. -/
inductive Arrivals : List Record → BookmarkStore → Prop
  | fresh (guids : GuidSource) (generators : Option (List String)) :
      Arrivals [] (fresh guids generators)
  | applied {log : List Record} {store next : BookmarkStore} (record : Record)
      (h : Arrivals log store) (hok : (applyIncoming record).result store = (.ok (), next)) :
      Arrivals (record :: log) next
  | reparented {log : List Record} {store next : BookmarkStore} {count : Nat}
      (h : Arrivals log store) (hok : reparentOrphans.result store = (.ok count, next)) :
      Arrivals log next

/-- Once a record has been brought in and its item marked, the record is the last that counts for
the item, if it names a parent. -/
theorem marked_of_settled {guids : GuidSource} {log : List Record}
    {first second next : BookmarkStore} (record : Record) (h : RootsKept guids first)
    (hroot : record.id ∉ RootGuid.all)
    (hmarked : Marked (fun _ => False) (lastParent? log) first.tree)
    (hbrought : (bringIn record (destination first.tree record.parentid).1).result first =
      (.ok (), second))
    (hsettled : (settle record.id (destination first.tree record.parentid).1
      (destination first.tree record.parentid).2).result second = (.ok (), next)) :
    Marked (fun _ => False) (lastParent? (record :: log)) next.tree := by
  have hwell := h.wellFormed
  have hlast : ∀ guid, record.id ≠ guid ∨ record.parentid = none →
      lastParent? (record :: log) guid = lastParent? log guid := by
    rintro guid (hne | hnone)
    · rw [lastParent?_cons, if_neg hne]
      rfl
    · rw [lastParent?_cons, hnone, ite_self]
      rfl
  have hleaves := leaves_bringIn hwell (h.bears hroot) (destination first.tree record.parentid).1
  rw [hbrought] at hleaves
  have hmade : RootsKept guids second := h.step hleaves
  cases hgiven : record.parentid with
  | none =>
      rw [hgiven] at hbrought hsettled hlast
      have hfirst : Marked (fun _ => False) (lastParent? (record :: log)) first.tree := by
        rwa [funext fun guid => hlast guid (.inr rfl)]
      rw [tree_settle_none hsettled]
      exact marked_bringIn hwell hfirst (fun hsome => by cases hsome) hbrought
  | some parentid =>
      rw [hgiven] at hbrought hsettled
      have hfirst : Marked (· = record.id) (lastParent? (record :: log)) first.tree := by
        intro id row mark hrow hmark hbut
        rw [hlast row.guid (.inl fun heq => hbut heq.symm)]
        exact hmarked id row mark hrow hmark fun hnone => hnone
      have hsecond : Marked (· = record.id) (lastParent? (record :: log)) second.tree :=
        marked_bringIn hwell hfirst (fun _ => rfl) hbrought
      cases hparent : first.tree.idOfGuid? parentid with
      | some parent =>
          rw [destination_of_known hparent] at hsettled
          exact marked_settle hmade.wellFormed hsecond (fun _ _ _ _ _ hnone => by cases hnone)
            hsettled
      | none =>
          have hplace : destination first.tree (some parentid) =
              (some RootId.unfiled, some parentid) := by
            simp [destination, hparent]
          rw [hplace] at hbrought hsettled
          refine marked_settle hmade.wellFormed hsecond ?_ hsettled
          intro id row guid hrow hguid hsome
          constructor
          · have hsits := unfiled_of_bringIn h hroot hbrought
              (hmade.wellFormed.idOfGuid?_iff.mpr ⟨row, hrow, hguid⟩)
            cases hup : row.parent with
            | none =>
                -- Only the topmost root is in no folder.
                have hid := (hmade.wellFormed.parent_iff id row hrow).mp hup
                exact absurd ⟨_, hid ▸ places_mem_rootNames⟩
                  (hmade.not_isRoot hrow (hguid ▸ hroot))
            | some folder => rw [hsits.above folder ((above?_of_known? hrow).trans hup)]
          · rw [lastParent?_cons, if_pos rfl, hgiven, ← hsome]
            rfl

/-- A record that comes through leaves every orphan where it was and waiting for the same, but for
that of its own item, which it tells anew. -/
theorem marked_applyIncoming {guids : GuidSource} {log : List Record} {store next : BookmarkStore}
    {record : Record} (h : RootsKept guids store)
    (hmarked : Marked (fun _ => False) (lastParent? log) store.tree)
    (hok : (applyIncoming record).result store = (.ok (), next)) :
    Marked (fun _ => False) (lastParent? (record :: log)) next.tree := by
  by_cases hroot : record.id ∈ RootGuid.all
  · rw [applyIncoming, if_pos (by simpa using hroot)] at hok
    obtain rfl := (Prod.mk.inj hok).2
    intro id row mark hrow hmark hbut
    obtain ⟨hparent, guid, hlast, hsame⟩ := hmarked id row mark hrow hmark hbut
    have hne : record.id ≠ row.guid := by
      intro heq
      have hid := (h.isRoot_iff hrow).mpr (heq ▸ hroot)
      cases (h.unmarked hrow hid).symm.trans hmark
    refine ⟨hparent, guid, ?_, hsame⟩
    rwa [lastParent?_cons, if_neg hne]
  · have hname : RootGuid.all.contains record.id = false := by simpa using hroot
    have hlocal := ensures_localized record store (Inherits.refl h.wellFormed)
    have hkept := (ensures_localized record store h).1
    cases houtcome : (localized record).result store with
    | mk outcome first =>
        rw [houtcome] at hlocal hkept
        cases outcome with
        | error cause =>
            rw [result_applyIncoming_of_error hname houtcome] at hok
            cases hok
        | ok made =>
            obtain ⟨bmkUri, rfl⟩ := hlocal.2 made rfl
            replace hkept : RootsKept guids first := hkept
            have hfirst : Inherits store.tree first := hlocal.1
            rw [result_applyIncoming_of_ok hname houtcome] at hok
            obtain ⟨_, second, hbrought, hsettled⟩ := exists_of_result_bind hok
            exact marked_of_settled { record with bmkUri } hkept hroot
              (hmarked.of_inherits hfirst) hbrought hsettled

end BookmarkStore

end SyncedBookmarks
