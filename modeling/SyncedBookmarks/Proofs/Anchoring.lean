import SyncedBookmarks.Proofs.QueryReferences
import SyncedBookmarks.Proofs.Reapplying

namespace SyncedBookmarks

/-! A query that names a tag is pointed at the tag's folder, which a throwaway URI is put into. The
folder stays the tag's while other items change, so that the query is pointed there again. -/

namespace Tree

/-- All but one item stay as they are, and nothing comes to stand before them. -/
structure Beside (id : Int) (before after : Tree) : Prop where
  wellFormed : after.WellFormed
  guids : after.guids = before.guids
  nextId_le : before.nextId ≤ after.nextId
  known? : ∀ other, other ≠ id → after.known? other = before.known? other
  ahead : ∀ other first, other ≠ id → after.Precedes first other → before.Precedes first other

/-- What lasts while an item that has a certain name, or gets it, is changed. -/
structure Onward (name : String) (before after : Tree) : Prop where
  wellFormed : after.WellFormed
  only : before.OnlyTags → after.OnlyTags
  anchored : ∀ tag folder, before.FirstTag tag folder →
    before.Holds folder BookmarkStore.lookupUri →
      after.FirstTag tag folder ∧ after.Holds folder BookmarkStore.lookupUri
  never : ∀ guid, before.NeverMakes guid → after.NeverMakes guid
  free : ∀ guid, guid ≠ name → before.NeverMakes guid → before.idOfGuid? guid = none →
    after.idOfGuid? guid = none

variable {tree before middle after : Tree} {id folder : Int} {name tag uri : String} {row : Row}

theorem Onward.refl (h : tree.WellFormed) : Onward name tree tree where
  wellFormed := h
  only := fun honly => honly
  anchored := fun _ _ hfirst hholds => ⟨hfirst, hholds⟩
  never := fun _ hnever => hnever
  free := fun _ _ _ hfree => hfree

theorem Onward.trans (h : Onward name before middle) (h' : Onward name middle after) :
    Onward name before after where
  wellFormed := h'.wellFormed
  only := fun honly => h'.only (h.only honly)
  anchored := by
    intro tag folder hfirst hholds
    obtain ⟨hmiddle, hheld⟩ := h.anchored tag folder hfirst hholds
    exact h'.anchored tag folder hmiddle hheld
  never := fun guid hnever => h'.never guid (h.never guid hnever)
  free := fun guid hne hnever hfree =>
    h'.free guid hne (h.never guid hnever) (h.free guid hne hnever hfree)

/-! ### One item -/

theorem Beside.of_undisturbed {own : Int → Prop} {row : Row} (h : Rewritten id row before after)
    (hstill : Undisturbed (fun other => other ≠ id ∧ (before.row? other).isSome) own before after) :
    Beside id before after where
  wellFormed := h.wellFormed
  guids := h.guids
  nextId_le := h.nextId.ge
  known? := fun _ hne => h.of_ne hne
  ahead := by
    intro other first hne hprecedes
    have hthere : (before.row? other).isSome := by
      obtain ⟨_, found, -, hfound, -⟩ := hprecedes
      rw [← isSome_known?, ← h.of_ne hne, isSome_known?, hfound, Option.isSome_some]
    exact hstill.ahead other first ⟨hne, hthere⟩ hprecedes

theorem Beside.of_recast (h : Recast id row before after) : Beside id before after where
  wellFormed := h.wellFormed
  guids := h.guids
  nextId_le := h.nextId.ge
  known? := fun _ hne => h.of_ne hne
  ahead := fun other first _ hprecedes => (h.precedes first other).mp hprecedes

theorem Beside.of_inserted (h : before.WellFormed) {parent : Int} (hparent : before.IsFolder parent)
    {type : ItemType} {title url : Option String} (hfit : Fitting type title url) :
    Beside before.nextId before (before.inserted parent Places.atEnd type title url) where
  wellFormed := h.inserted hparent Places.atEnd hfit
  guids := guids_inserted before parent Places.atEnd type title url
  nextId_le := by
    rw [nextId_inserted]
    omega
  known? := by
    intro other hne
    rw [h.known?_inserted, if_neg hne]
  ahead := by
    intro other first hne hprecedes
    have hthere : (before.row? other).isSome := by
      obtain ⟨_, found, -, hfound, -⟩ := hprecedes
      rw [← isSome_known?]
      have hknown := h.known?_inserted parent Places.atEnd type title url other
      rw [if_neg hne, Tree.known?, hfound] at hknown
      rw [← hknown, Option.map_some, Option.isSome_some]
    have hstill : Undisturbed (fun other => (before.row? other).isSome) (fun _ => True) before
        (before.inserted parent Places.atEnd type title url) :=
      undisturbed_inserted h (fun _ hother => hother) parent type title url
    exact hstill.ahead other first hthere hprecedes

/-- An item that stands in no tag may change. -/
theorem Beside.onward (h : Beside id before after) (hwell : before.WellFormed)
    (hold : before.OutsideTags (before.above? id)) (hnew : before.OutsideTags (after.above? id))
    (hname : ∀ row, after.known? id = some row → row.guid = name ∨
      (∃ old, before.known? id = some old ∧ old.guid = row.guid) ∨
      (before.nextId ≤ id ∧ ∃ count, row.guid = before.guids.candidate id count)) :
    Onward name before after where
  wellFormed := h.wellFormed
  only := by
    intro honly other row hrow hparent
    have hne : other ≠ id := by
      rintro rfl
      exact (hnew RootId.tags ((above?_of_known? hrow).trans hparent)).1 rfl
    exact honly other row ((h.known? other hne).symm.trans hrow) hparent
  anchored := by
    intro tag folder hfirst hholds
    -- The item stands in no tag, so it is neither the folder nor what keeps the folder there.
    have hup := hfirst.isTag.above?
    have hne : folder ≠ id := by
      rintro rfl
      exact (hold RootId.tags hup).1 rfl
    obtain ⟨entry, row, hrow, hparent, hurl⟩ := hholds
    have hentry : entry ≠ id := by
      rintro rfl
      exact (hold folder ((above?_of_known? hrow).trans hparent)).2 hup
    refine ⟨⟨hfirst.isTag.congr (h.known? folder hne), ?_⟩, entry, row, ?_, hparent, hurl⟩
    · intro other hother hprecedes
      have hotherNe : other ≠ id := by
        rintro rfl
        exact (hnew RootId.tags hother.above?).1 rfl
      exact hfirst.first other (hother.congr (h.known? other hotherNe).symm)
        (h.ahead folder other hne hprecedes)
    · rw [h.known? entry hentry, hrow]
  never := fun _ hnever => hnever.mono h.guids h.nextId_le
  free := by
    intro guid hne hnever hfree
    rw [h.wellFormed.idOfGuid?_eq_none_iff]
    intro other row hrow
    by_cases hother : other = id
    · subst hother
      rcases hname row hrow with hgiven | ⟨old, hrow', hsame⟩ | ⟨hle, count, hmade⟩
      · exact fun heq => hne (heq.symm.trans hgiven)
      · exact hsame ▸ hwell.idOfGuid?_eq_none_iff.mp hfree other old hrow'
      · exact fun heq => hnever other hle count (hmade.symm.trans heq)
    · exact hwell.idOfGuid?_eq_none_iff.mp hfree other row
        ((h.known? other hother).symm.trans hrow)

/-! ### Tags and removals -/

theorem onward_of_exchanged {tags : List String} (h : before.WellFormed)
    (hne : uri ≠ BookmarkStore.lookupUri)
    (hnext : BookmarkStore.TagsExchanged uri tags before after) : Onward name before after where
  wellFormed := hnext.wellFormed
  only := hnext.only
  anchored := hnext.others BookmarkStore.lookupUri hne.symm (by decide)
  never := fun _ hnever => hnever.mono hnext.retagged.guids hnext.retagged.nextId_le
  free := fun _ _ hnever hfree => hnext.retagged.free h hfree hnever

/-- Taking a URI out of its tags is nothing to another one. -/
theorem Cleared.onward_of_untagged (h : before.WellFormed) (hne : uri ≠ BookmarkStore.lookupUri)
    {picked : Int → Prop} (hcleared : Cleared (before.Untagged uri picked) before after)
    (horder : InOrder before after) : Onward name before after where
  wellFormed := hcleared.wellFormed
  only := fun honly => honly.cleared hcleared
  anchored := fun _ _ hfirst hholds => hfirst.untagged h hcleared horder hholds hne.symm
  never := fun _ hnever => hnever.mono hcleared.guids hcleared.nextId.ge
  free := fun _ _ hnever hfree => (Retagged.of_untagged hcleared).free h hfree hnever

/-- A removal elsewhere is nothing to the tags. -/
theorem Cleared.onward_of_encloses (h : before.WellFormed) (houtside : ¬ before.Below RootId.tags id)
    (hroot : ¬ before.Encloses id RootId.tags)
    (hcleared : Cleared (before.Encloses id) before after) (horder : InOrder before after) :
    Onward name before after where
  wellFormed := hcleared.wellFormed
  only := fun honly => honly.cleared hcleared
  anchored := by
    intro tag folder hfirst hholds
    have hkept : ¬ before.Encloses id folder := by
      intro hencloses
      rcases hencloses.eq_or_above? with rfl | ⟨parent, hparent, hup⟩
      · exact houtside (.of_above? h hfirst.isTag.above? (Encloses.refl before RootId.tags))
      · exact hroot (Option.some.inj (hparent.symm.trans hfirst.isTag.above?) ▸ hup)
    obtain ⟨entry, row, hrow, hparent, hurl⟩ := hholds
    have hentry : ¬ before.Encloses id entry := by
      intro hencloses
      have habove := (above?_of_known? hrow).trans hparent
      rcases hencloses.eq_or_above? with rfl | ⟨place, hplace, hup⟩
      · exact houtside (.of_above? h habove
          ((Encloses.refl before RootId.tags).of_above? hfirst.isTag.above?))
      · exact hkept (Option.some.inj (hplace.symm.trans habove) ▸ hup)
    exact ⟨hfirst.cleared hcleared horder hkept, entry, row, (hcleared.kept entry hentry).trans hrow,
      hparent, hurl⟩
  never := fun _ hnever => hnever.mono hcleared.guids hcleared.nextId.ge
  free := by
    intro guid _ _ hfree
    rw [hcleared.wellFormed.idOfGuid?_eq_none_iff]
    intro other row hrow
    exact h.idOfGuid?_eq_none_iff.mp hfree other row (hcleared.known?_of_some hrow).2

end Tree

/-- The record of a query that is pointed at a folder. -/
def Record.pointedAt (record : Record) (uri : String) (folder : Int) : Record :=
  (Query.withFolder? uri folder).elim record fun localized =>
    { record with bmkUri := some localized }

namespace BookmarkStore

open SyncedBookmarks.Action SyncedBookmarks.Tree

/-- What a record is once its query is pointed at the folder of the tag that it names. -/
inductive Pointed (record : Record) (tree : Tree) : Record → Prop where
  | plain (h : record.kind = .query → record.bmkUri = none ∨ record.folderName = none) :
      Pointed record tree record
  | tag {uri tag : String} {folder : Int} (hkind : record.kind = .query)
      (huri : record.bmkUri = some uri) (hname : record.folderName = some tag)
      (hfirst : tree.FirstTag tag folder) (hholds : tree.Holds folder lookupUri) :
      Pointed record tree (record.pointedAt uri folder)

variable {tree before after : Tree} {record made : Record} {tag uri name : String} {folder : Int}

theorem Pointed.onward (h : Pointed record before made) (honward : Onward name before after) :
    Pointed record after made := by
  cases h with
  | plain hplain => exact .plain hplain
  | tag hkind huri hname hfirst hholds =>
      obtain ⟨hfirst', hholds'⟩ := honward.anchored _ _ hfirst hholds
      exact .tag hkind huri hname hfirst' hholds'

theorem Pointed.exists_bmkUri (h : Pointed record tree made) :
    ∃ bmkUri, made = { record with bmkUri } := by
  cases h with
  | plain => exact ⟨record.bmkUri, rfl⟩
  | @tag uri _ folder =>
      unfold Record.pointedAt
      cases Query.withFolder? uri folder with
      | none => exact ⟨record.bmkUri, rfl⟩
      | some localized => exact ⟨some localized, rfl⟩

/-- A query is never pointed at a URI that is thrown away. -/
theorem Pointed.bmkUri_ne (h : Pointed record tree made) (hother : '=' ∉ uri.toList)
    (hne : record.bmkUri ≠ some uri) : made.bmkUri ≠ some uri := by
  cases h with
  | plain => exact hne
  | @tag old _ folder =>
      unfold Record.pointedAt
      cases hlocalized : Query.withFolder? old folder with
      | none => exact hne
      | some localized =>
          intro heq
          exact Query.withFolder?_ne hlocalized hother (Option.some.inj heq)

/-- Among folders, looking for a tag by the title alone finds its folder. -/
theorem find?_title_eq (h : tree.WellFormed) (honly : tree.OnlyTags) {items : List Item}
    (hitems : tree.children RootId.tags = .ok items) (hfirst : tree.FirstTag tag folder)
    (uri : String) : (items.find? (·.title == some tag)).bind (Query.withFolder? uri ·.id) =
      Query.withFolder? uri folder := by
  have hwanted : ∀ item ∈ items, (item.title == some tag) = true ↔ tree.IsTag tag item.id := by
    intro item hitem
    obtain ⟨row, hrow, hparent, -, -, htitle, -⟩ := h.of_mem_children hitems hitem
    rw [beq_iff_eq]
    constructor
    · intro hsame
      exact ⟨row, hrow, hparent, honly item.id row hrow hparent, htitle.trans hsame⟩
    · intro htag
      obtain ⟨found, hfound, -, -, hsame⟩ := htag
      obtain rfl := Option.some.inj (hrow.symm.trans hfound)
      exact htitle.symm.trans hsame
  obtain ⟨item, hitem, rfl⟩ :=
    Option.map_eq_some_iff.mp ((h.find?_eq_some_iff hitems hwanted).mpr hfirst)
  rw [hitem, Option.bind_some]

theorem Pointed.unique (h : tree.WellFormed) (hmade : Pointed record tree made)
    {other : Record} (hother : Pointed record tree other) : other = made := by
  cases hmade with
  | plain hplain =>
      cases hother with
      | plain => rfl
      | tag hkind huri hname => simp [huri, hname] at hplain; exact absurd hkind hplain
  | tag hkind huri hname hfirst =>
      cases hother with
      | plain hplain => simp [huri, hname] at hplain; exact absurd hkind hplain
      | tag _ huri' hname' hfirst' =>
          obtain rfl := Option.some.inj (huri.symm.trans huri')
          obtain rfl := Option.some.inj (hname.symm.trans hname')
          rw [hfirst.unique h hfirst']

/-- Once the URI for looking up is in a tag, a query is pointed at the tag's folder. -/
theorem leads_localized_of_tag (hkind : record.kind = .query) (huri : record.bmkUri = some uri)
    (hname : record.folderName = some tag) {post : Tree → Prop}
    (htag : Places.Leads (Places.tagUri lookupUri [tag]) tree fun _ next => post next)
    (hpost : ∀ next, post next → next.WellFormed ∧ next.OnlyTags ∧
      ∃ folder, next.FirstTag tag folder ∧ next.Holds folder lookupUri) :
    Leads (localized record) tree fun made next => post next ∧ Pointed record next made := by
  unfold localized localizeQuery
  rw [if_pos hkind, huri, hname]
  apply (leads_onTree htag).bind
  intro _ next hnext
  obtain ⟨hwell, honly, folder, hfirst, hholds⟩ := hpost next hnext
  obtain ⟨items, hitems, -⟩ := hwell.children RootId.tags
  apply leads_check_bind hitems
  rw [find?_title_eq hwell honly hitems hfirst uri]
  have hpointed : Pointed record next (record.pointedAt uri folder) :=
    .tag hkind huri hname hfirst hholds
  unfold Record.pointedAt at hpointed
  cases hlocalized : Query.withFolder? uri folder with
  | none =>
      rw [hlocalized] at hpointed
      exact leads_pure ⟨hnext, hpointed⟩
  | some localized =>
      rw [hlocalized] at hpointed
      rw [← hname]
      exact leads_pure ⟨hnext, hpointed⟩

theorem localized_of_plain (hplain : record.kind = .query →
    record.bmkUri = none ∨ record.folderName = none) : localized record = pure record := by
  unfold localized localizeQuery
  split
  · rename_i hkind
    rcases hplain hkind with hnone | hnone
    · rw [hnone]
    · rw [hnone]
      cases record.bmkUri <;> rfl
  · rfl

theorem leads_localized_pointed (h : tree.WellFormed) (htags : tree.IsFolder RootId.tags)
    (honly : tree.OnlyTags) (hnamed : record.kind = .query → record.folderName ≠ some "") :
    Leads (localized record) tree fun made next =>
      (TagsGrown tree next ∧ next.OnlyTags) ∧ Pointed record next made := by
  by_cases hplain : record.kind = .query → record.bmkUri = none ∨ record.folderName = none
  · rw [localized_of_plain hplain]
    exact leads_pure ⟨⟨TagsGrown.refl h, honly⟩, .plain hplain⟩
  · push Not at hplain
    obtain ⟨hkind, huri, hname⟩ := hplain
    obtain ⟨uri, huri⟩ := Option.ne_none_iff_exists'.mp huri
    obtain ⟨tag, hname⟩ := Option.ne_none_iff_exists'.mp hname
    have hne : tag ≠ "" := by
      rintro rfl
      exact hnamed hkind hname
    have hlookup : validateUri lookupUri = .ok lookupUri := rfl
    have hentered := Places.leads_tagUri_entered h htags hlookup [tag]
    have hfilter : [tag].filter (!·.isEmpty) = [tag] := by simp [hne]
    rw [hfilter] at hentered
    apply (leads_localized_of_tag hkind huri hname hentered ?_).imp
    · intro made next hnext
      exact ⟨⟨hnext.1.grown, hnext.1.only honly⟩, hnext.2⟩
    · intro next hnext
      exact ⟨hnext.grown.wellFormed, hnext.only honly, hnext.given tag (List.mem_singleton_self tag)⟩

/-- A tag that has a URI already is left alone. -/
theorem leads_tagUri_there (h : tree.WellFormed) (htags : tree.IsFolder RootId.tags)
    (huri : validateUri uri = .ok uri) (hfirst : tree.FirstTag tag folder)
    (hholds : tree.Holds folder uri) :
    Places.Leads (Places.tagUri uri [tag]) tree fun _ next => next = tree := by
  have hadd : Places.Leads (Places.addTag uri tag) tree fun _ next => next = tree := by
    apply (Places.leads_addTag_made h htags huri tag).imp
    intro _ next hnext
    obtain ⟨place, middle, hmade, hentered⟩ := hnext
    cases hmade with
    | found hfound =>
        obtain rfl := hfound.unique h hfirst
        cases hentered with
        | there => rfl
        | entered hmissing => exact absurd hholds hmissing
    | made hnone => exact absurd hfirst.isTag (hnone folder)
  apply Places.leads_check_bind huri
  by_cases hname : tag = ""
  · subst hname
    exact Places.leads_pure rfl
  · have hfilter : [tag].filter (!·.isEmpty) = [tag] := by simp [hname]
    rw [hfilter]
    apply hadd.bind
    intro _ next hnext
    exact Places.leads_pure hnext

/-- A query that has been pointed at its folder is pointed there again, and nothing changes. -/
theorem Pointed.leads_again (h : tree.WellFormed) (htags : tree.IsFolder RootId.tags)
    (honly : tree.OnlyTags) (hmade : Pointed record tree made) :
    Leads (localized record) tree fun found next => found = made ∧ next = tree := by
  have hsame : Leads (localized record) tree fun found next =>
      next = tree ∧ Pointed record next found := by
    cases hmade with
    | plain hplain =>
        rw [localized_of_plain hplain]
        exact leads_pure ⟨rfl, .plain hplain⟩
    | tag hkind huri hname hfirst hholds =>
        apply leads_localized_of_tag hkind huri hname (leads_tagUri_there h htags rfl hfirst hholds)
        intro next hnext
        exact hnext ▸ ⟨h, honly, _, hfirst, hholds⟩
  apply hsame.imp
  intro found next hnext
  obtain ⟨rfl, hfound⟩ := hnext
  exact ⟨hmade.unique h hfound, rfl⟩

end BookmarkStore

end SyncedBookmarks
