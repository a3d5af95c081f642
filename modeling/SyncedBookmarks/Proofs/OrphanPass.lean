import SyncedBookmarks.Proofs.OrphanMarks

namespace SyncedBookmarks

/-! One pass over the orphans is enough: each moves to the parent that it waits for if any can take
it, and none that has stayed could go after the others have moved. -/

namespace Tree

variable {before after : Tree}

theorem idOfGuid?_of_rewritten (h : before.WellFormed) {id : Int} {row last : Row}
    (hrow : before.known? id = some row) (hrewritten : Rewritten id last before after)
    (hguid : last.guid = row.guid) (guid : String) :
    after.idOfGuid? guid = before.idOfGuid? guid := by
  have hiff : ∀ other, after.idOfGuid? guid = some other ↔ before.idOfGuid? guid = some other := by
    intro other
    have hname := BookmarkStore.guidOf?_of_rewritten hrewritten hrow hguid other
    rw [guidOf?_eq_known?, guidOf?_eq_known?] at hname
    rw [hrewritten.wellFormed.idOfGuid?_iff, h.idOfGuid?_iff, ← Option.map_eq_some_iff, hname,
      Option.map_eq_some_iff]
  exact Option.ext hiff

end Tree

namespace BookmarkStore

open SyncedBookmarks.Action SyncedBookmarks.Tree

variable {before middle after : Tree}

/-- Whether no folder can take an orphan: there is none with the name of the parent that it waits
for, or it is below the orphan. -/
def Hopeless (tree : Tree) (id : Int) (mark : String) : Prop :=
  ∀ parent, tree.idOfGuid? (intendedParent mark) = some parent → tree.IsFolder parent →
    tree.Encloses id parent

/-- An orphan for which there is no hope gets none when another one moves. -/
theorem Hopeless.of_moved {id other : Int} {mark : String} {row last : Row}
    (hhopeless : Hopeless before id mark) (h : before.WellFormed)
    (hplace : before.above? id = some RootId.unfiled) (hne : id ≠ other)
    (hrow : before.known? other = some row) (hparent : row.parent = some RootId.unfiled)
    (hrewritten : Rewritten other last before after) (hguid : last.guid = row.guid)
    (hcode : last.typeCode = row.typeCode) : Hopeless after id mark := by
  intro parent htarget hfolder
  rw [idOfGuid?_of_rewritten h hrow hrewritten hguid] at htarget
  have hbefore : before.IsFolder parent := by
    obtain ⟨found, hfound, hfoundCode⟩ := hfolder
    by_cases heq : parent = other
    · subst heq
      obtain rfl := Option.some.inj (hrewritten.self.symm.trans hfound)
      exact ⟨row, hrow, hcode.symm.trans hfoundCode⟩
    · exact ⟨found, (hrewritten.of_ne heq).symm.trans hfound, hfoundCode⟩
  have hencloses := hhopeless parent htarget hbefore
  have hup := (above?_of_known? hrow).trans hparent
  have hagree : ∀ place, place ≠ other → after.above? place = before.above? place := by
    intro place hplace
    rw [above?_eq_known?, hrewritten.of_ne hplace, above?_eq_known?]
  have havoid : ¬ before.Encloses other parent := by
    -- Both are side by side in the unfiled folder, so not both are above a third.
    intro hboth
    rcases hencloses.total hboth with hover | hunder
    · exact h.not_encloses_sibling hplace hup hne hover
    · exact h.not_encloses_sibling hup hplace (Ne.symm hne) hunder
  exact hencloses.of_agree_off_of_not hagree havoid

/-- Orphans that have not had their turn. -/
structure Pending (orphans : List (Int × String)) (tree : Tree) : Prop where
  wellFormed : tree.WellFormed
  distinct : (orphans.map (·.1)).Nodup
  unfiled : ∀ id mark, (id, mark) ∈ orphans → ∃ row, tree.known? id = some row ∧
    row.parent = some RootId.unfiled ∧ row.mark? = some mark

/-- What a pass over some orphans comes to, with the number of those that have moved. -/
structure Passed (orphans : List (Int × String)) (before : Tree) (count : Nat) (after : Tree) :
    Prop where
  wellFormed : after.WellFormed
  other : ∀ id, id ∉ orphans.map (·.1) → after.known? id = before.known? id
  names : ∀ guid, after.idOfGuid? guid = before.idOfGuid? guid
  turned : ∀ id mark, (id, mark) ∈ orphans →
    (∃ row parent, after.known? id = some row ∧ row.mark? = none ∧ row.parent = some parent ∧
      after.idOfGuid? (intendedParent mark) = some parent) ∨
    (after.known? id = before.known? id ∧ Hopeless after id mark)
  count : count =
    (orphans.filter fun orphan => !after.isAnnotated orphan.1 AnnotationName.intendedParent).length
  hopeless : ∀ id mark, id ∉ orphans.map (·.1) → before.above? id = some RootId.unfiled →
    Hopeless before id mark → Hopeless after id mark

theorem isAnnotated_of_known? {tree : Tree} {id : Int} {row : Row}
    (hrow : tree.known? id = some row) :
    tree.isAnnotated id AnnotationName.intendedParent = row.mark?.isSome := by
  rw [isAnnotated, annotationOf?_eq_known?, hrow]
  rfl

namespace Passed

variable {orphans : List (Int × String)} {count : Nat} {id : Int} {mark : String}

theorem nil (h : before.WellFormed) : Passed [] before 0 before where
  wellFormed := h
  other := fun _ _ => rfl
  names := fun _ => rfl
  turned := fun _ _ hnone => by cases hnone
  count := rfl
  hopeless := fun _ _ _ _ hhopeless => hhopeless

/-- An orphan that stays, before a pass over the others. -/
theorem refused (h : Passed orphans before count after)
    (hpending : Pending ((id, mark) :: orphans) before) (hhopeless : Hopeless before id mark) :
    Passed ((id, mark) :: orphans) before count after := by
  obtain ⟨row, hrow, hparent, hmark⟩ := hpending.unfiled id mark List.mem_cons_self
  have hnot := (List.nodup_cons.mp hpending.distinct).1
  have hkept := h.other id hnot
  constructor
  case wellFormed => exact h.wellFormed
  case other =>
    exact fun other hother => h.other other fun hmem => hother (List.mem_cons_of_mem _ hmem)
  case names => exact h.names
  case turned =>
    intro other given hother
    rcases List.mem_cons.mp hother with hself | hlater
    · obtain ⟨rfl, rfl⟩ := Prod.mk.inj hself
      have habove := (above?_of_known? hrow).trans hparent
      exact .inr ⟨hkept, h.hopeless other given hnot habove hhopeless⟩
    · exact h.turned other given hlater
  case count =>
    have hthere : after.isAnnotated id AnnotationName.intendedParent = true := by
      rw [isAnnotated_of_known? (hkept.trans hrow), hmark]
      rfl
    rw [List.filter_cons, if_neg (by simp [hthere])]
    exact h.count
  case hopeless =>
    exact fun other given hother => h.hopeless other given fun hmem =>
      hother (List.mem_cons_of_mem _ hmem)

/-- An orphan that moves, before a pass over the others. -/
theorem moved (h : Passed orphans middle count after)
    (hpending : Pending ((id, mark) :: orphans) before) {row : Row}
    (hrow : before.known? id = some row) {parent : Int}
    (htarget : before.idOfGuid? (intendedParent mark) = some parent)
    (hrewritten : Rewritten id
      ({ row with parent := some parent }.unannotate AnnotationName.intendedParent) before middle) :
    Passed ((id, mark) :: orphans) before (count + 1) after := by
  obtain ⟨found, hfound, hplace, -⟩ := hpending.unfiled id mark List.mem_cons_self
  obtain rfl := Option.some.inj (hrow.symm.trans hfound)
  have hnot := (List.nodup_cons.mp hpending.distinct).1
  have hself := (h.other id hnot).trans hrewritten.self
  have hmark : ({ row with parent := some parent }.unannotate
      AnnotationName.intendedParent).mark? = none := by
    rw [Row.mark?, Row.annotationOf?_unannotate, if_pos rfl]
  have hnames : ∀ guid, after.idOfGuid? guid = before.idOfGuid? guid := fun guid =>
    (h.names guid).trans (idOfGuid?_of_rewritten hpending.wellFormed hrow hrewritten rfl guid)
  constructor
  case wellFormed => exact h.wellFormed
  case other =>
    intro other hother
    rw [List.map_cons, List.mem_cons, not_or] at hother
    rw [h.other other hother.2, hrewritten.of_ne hother.1]
  case names => exact hnames
  case turned =>
    intro other given hother
    rcases List.mem_cons.mp hother with heq | hlater
    · obtain ⟨rfl, rfl⟩ := Prod.mk.inj heq
      exact .inl ⟨_, parent, hself, hmark, rfl, (hnames _).trans htarget⟩
    · have hne : other ≠ id := by
        rintro rfl
        exact hnot (List.mem_map.mpr ⟨(_, given), hlater, rfl⟩)
      rw [← hrewritten.of_ne hne]
      exact h.turned other given hlater
  case count =>
    have hgone : after.isAnnotated id AnnotationName.intendedParent = false := by
      rw [isAnnotated_of_known? hself, hmark]
      rfl
    rw [List.filter_cons, if_pos (by simp [hgone]), List.length_cons, h.count]
  case hopeless =>
    intro other given hother habove hhopeless
    rw [List.map_cons, List.mem_cons, not_or] at hother
    refine h.hopeless other given hother.2 ?_ ?_
    · rw [above?_eq_known?, hrewritten.of_ne hother.1, ← above?_eq_known?]
      exact habove
    · exact hhopeless.of_moved hpending.wellFormed habove hother.1 hrow hplace hrewritten rfl rfl

end Passed

theorem Pending.of_moved {id : Int} {mark : String} {orphans : List (Int × String)} {last : Row}
    (h : Pending ((id, mark) :: orphans) before) (hrewritten : Rewritten id last before after) :
    Pending orphans after := by
  obtain ⟨hnot, hdistinct⟩ := List.nodup_cons.mp h.distinct
  refine ⟨hrewritten.wellFormed, hdistinct, ?_⟩
  intro other given hother
  have hne : other ≠ id := by
    rintro rfl
    exact hnot (List.mem_map.mpr ⟨(_, given), hother, rfl⟩)
  rw [hrewritten.of_ne hne]
  exact h.unfiled other given (List.mem_cons_of_mem _ hother)

theorem passes_reparentAll {store : BookmarkStore} {orphans : List (Int × String)}
    (h : Pending orphans store.tree) :
    (reparentAll orphans).Yields store fun count next =>
      Passed orphans store.tree count next.tree := by
  -- By induction on the orphans. They wait side by side, so one for which there is no hope gets
  -- none from the moves after it.
  induction orphans generalizing store with
  | nil => exact yields_pure (.nil h.wellFormed)
  | cons orphan orphans ih =>
      obtain ⟨id, mark⟩ := orphan
      rw [reparentAll]
      by_cases hhopeless : Hopeless store.tree id mark
      · have hrefused : (reparent id mark).Yields store fun moved next =>
            moved = false ∧ store = next :=
          ⟨false, store, result_reparent_refused h.wellFormed hhopeless, rfl, rfl⟩
        refine hrefused.bind ?_
        rintro _ _ ⟨rfl, rfl⟩
        have hrest : Pending orphans store.tree :=
          ⟨h.wellFormed, (List.nodup_cons.mp h.distinct).2,
            fun other given hother => h.unfiled other given (List.mem_cons_of_mem _ hother)⟩
        refine (ih hrest).bind fun count next hpassed => yields_pure ?_
        exact hpassed.refused h hhopeless
      · rw [Hopeless] at hhopeless
        push Not at hhopeless
        obtain ⟨parent, htarget, hfolder, houtside⟩ := hhopeless
        obtain ⟨row, hrow, -⟩ := h.unfiled id mark List.mem_cons_self
        refine (yields_reparent_moved h.wellFormed hrow htarget hfolder houtside).bind ?_
        rintro _ moved ⟨rfl, hrewritten, -⟩
        refine (ih (h.of_moved hrewritten)).bind fun count next hpassed => yields_pure ?_
        exact hpassed.moved h hrow htarget hrewritten

/-- A pass over orphans for which there is no hope does nothing. -/
theorem result_reparentAll_refused {store : BookmarkStore} (h : store.tree.WellFormed)
    {orphans : List (Int × String)} (hall : ∀ id mark, (id, mark) ∈ orphans →
      Hopeless store.tree id mark) : (reparentAll orphans).result store = (.ok 0, store) := by
  induction orphans with
  | nil => rfl
  | cons orphan orphans ih =>
      obtain ⟨id, mark⟩ := orphan
      have hrest := ih fun other given hother => hall other given (List.mem_cons_of_mem _ hother)
      rw [reparentAll, result_bind, result_reparent_refused h (hall id mark List.mem_cons_self)]
      dsimp only
      rw [result_bind, hrest]
      rfl

/-! ### All the orphans -/

section Orphans

variable {log : List Record} {store : BookmarkStore} {last : String → Option String}

theorem pending_annotated {tree : Tree} (h : tree.WellFormed)
    (hmarked : Marked (fun _ => False) last tree) :
    Pending (tree.annotated AnnotationName.intendedParent) tree where
  wellFormed := h
  distinct := ids_annotated_nodup h _
  unfiled := by
    intro id mark horphan
    obtain ⟨row, hrow, hmark⟩ := (mem_annotated_iff h).mp horphan
    exact ⟨row, hrow, (hmarked id row mark hrow hmark fun hnone => hnone).1, hmark⟩

theorem yields_reparentOrphans_passed (h : store.tree.WellFormed)
    (hmarked : Marked (fun _ => False) last store.tree) :
    reparentOrphans.Yields store fun count next =>
      Passed (store.tree.annotated AnnotationName.intendedParent) store.tree count next.tree := by
  refine (yields_read (P := fun orphans state =>
    orphans = store.tree.annotated AnnotationName.intendedParent ∧ store = state)
    ⟨rfl, rfl⟩).bind ?_
  rintro _ _ ⟨rfl, rfl⟩
  exact passes_reparentAll (pending_annotated h hmarked)

namespace Passed

variable {count : Nat} {id : Int} {mark : String}

/-- A pass over all the orphans leaves none but those for which there is no hope. -/
theorem stayed
    (h : Passed (before.annotated AnnotationName.intendedParent) before count after)
    (hbefore : before.WellFormed)
    (hstill : (id, mark) ∈ after.annotated AnnotationName.intendedParent) :
    (id, mark) ∈ before.annotated AnnotationName.intendedParent ∧
      after.known? id = before.known? id ∧ Hopeless after id mark := by
  obtain ⟨row, hrow, hmark⟩ := (mem_annotated_iff h.wellFormed).mp hstill
  have hlisted : id ∈ (before.annotated AnnotationName.intendedParent).map (·.1) := by
    by_contra hnot
    have horphan := (mem_annotated_iff hbefore).mpr ⟨row, (h.other id hnot).symm.trans hrow, hmark⟩
    exact hnot (List.mem_map.mpr ⟨(id, mark), horphan, rfl⟩)
  obtain ⟨⟨_, given⟩, horphan, rfl⟩ := List.mem_map.mp hlisted
  rcases h.turned _ given horphan with ⟨moved, parent, hmoved, hnone, -⟩ | ⟨hsame, hhopeless⟩
  · obtain rfl := Option.some.inj (hrow.symm.trans hmoved)
    cases hnone.symm.trans hmark
  · obtain ⟨origin, horigin, hgiven⟩ := (mem_annotated_iff hbefore).mp horphan
    obtain rfl := Option.some.inj (hrow.symm.trans (hsame.trans horigin))
    obtain rfl := Option.some.inj (hgiven.symm.trans hmark)
    exact ⟨horphan, hsame, hhopeless⟩

/-- An orphan that is none any more is in the folder that it waited for. -/
theorem left (h : Passed (before.annotated AnnotationName.intendedParent) before count after)
    (hbefore : before.WellFormed)
    (horphan : (id, mark) ∈ before.annotated AnnotationName.intendedParent)
    (hgone : after.isAnnotated id AnnotationName.intendedParent = false) :
    ∃ parent, after.above? id = some parent ∧
      after.guidOf? parent = some (intendedParent mark) := by
  rcases h.turned id mark horphan with ⟨row, parent, hrow, -, hparent, hname⟩ | ⟨hsame, -⟩
  · refine ⟨parent, (above?_of_known? hrow).trans hparent, ?_⟩
    obtain ⟨folder, hfolder, hguid⟩ := h.wellFormed.idOfGuid?_iff.mp hname
    rw [guidOf?_eq_known?, hfolder, Option.map_some, hguid]
  · obtain ⟨row, hrow, hmark⟩ := (mem_annotated_iff hbefore).mp horphan
    rw [isAnnotated_of_known? (hsame.trans hrow), Row.mark?, hmark] at hgone
    cases hgone

theorem marked (h : Passed (before.annotated AnnotationName.intendedParent) before count after)
    (hbefore : before.WellFormed) (hmarked : Marked (fun _ => False) last before) :
    Marked (fun _ => False) last after := by
  intro id row mark hrow hmark hbut
  obtain ⟨-, hsame, -⟩ :=
    h.stayed hbefore ((mem_annotated_iff h.wellFormed).mpr ⟨row, hrow, hmark⟩)
  exact hmarked id row mark (hsame.symm.trans hrow) hmark hbut

end Passed

/-- However records arrive, the roots stay, and the marks tell what was last asked for. -/
theorem Arrivals.marked (h : Arrivals log store) :
    ∃ guids, RootsKept guids store ∧ Marked (fun _ => False) (lastParent? log) store.tree := by
  induction h with
  | fresh guids generators =>
      refine ⟨guids, .fresh guids generators, ?_⟩
      intro id row mark hrow hmark
      obtain ⟨root, hmem⟩ := (row?_fresh_isSome guids).mp (Places.isSome_row?_of_known? hrow)
      cases ((RootsKept.fresh guids generators).unmarked hrow ⟨root, hmem⟩).symm.trans hmark
  | applied record _ hok ih =>
      obtain ⟨guids, hroots, hmarked⟩ := ih
      have hnext := keeps_applyIncoming_roots record _ hroots
      rw [hok] at hnext
      exact ⟨guids, hnext, marked_applyIncoming hroots hmarked hok⟩
  | reparented _ hok ih =>
      obtain ⟨guids, hroots, hmarked⟩ := ih
      have hnext := keeps_reparentOrphans_roots _ hroots
      obtain ⟨_, _, hresult, hpassed⟩ := yields_reparentOrphans_passed hroots.wellFormed hmarked
      rw [hok] at hnext hresult
      obtain ⟨-, rfl⟩ := Prod.mk.inj hresult
      exact ⟨guids, hnext, hpassed.marked hroots.wellFormed hmarked⟩

/-- However records arrive, the orphans are in the unfiled folder and wait for the parents that the
last records for them named. A pass leaves those whose parent is not there, is no folder or is below
them; it moves the others to their parents and tells how many they are; and another pass finds
nothing to do. -/
theorem orphans_settle (h : Arrivals log store) :
    (∀ id mark, (id, mark) ∈ store.tree.annotated AnnotationName.intendedParent →
      store.tree.above? id = some RootId.unfiled ∧
        ∃ guid parent, store.tree.guidOf? id = some guid ∧ lastParent? log guid = some parent ∧
          mark = orphanMark ++ parent) ∧
    ∃ count next, reparentOrphans.result store = (.ok count, next) ∧
      (∀ id mark, (id, mark) ∈ next.tree.annotated AnnotationName.intendedParent →
        ∀ parent, next.tree.idOfGuid? (intendedParent mark) = some parent →
          next.tree.IsFolder parent → next.tree.Encloses id parent) ∧
      (∀ id mark, (id, mark) ∈ store.tree.annotated AnnotationName.intendedParent →
        next.tree.isAnnotated id AnnotationName.intendedParent = false →
          ∃ parent, next.tree.above? id = some parent ∧
            next.tree.guidOf? parent = some (intendedParent mark)) ∧
      count = ((store.tree.annotated AnnotationName.intendedParent).filter fun orphan =>
        !next.tree.isAnnotated orphan.1 AnnotationName.intendedParent).length ∧
      reparentOrphans.result next = (.ok 0, next) := by
  obtain ⟨guids, hroots, hmarked⟩ := h.marked
  have hwell := hroots.wellFormed
  obtain ⟨count, next, hok, hpassed⟩ := yields_reparentOrphans_passed hwell hmarked
  refine ⟨?_, count, next, hok, ?_, ?_, hpassed.count, ?_⟩
  · intro id mark horphan
    obtain ⟨row, hrow, hmark⟩ := (mem_annotated_iff hwell).mp horphan
    obtain ⟨hparent, parent, hlast, hsame⟩ := hmarked id row mark hrow hmark fun hnone => hnone
    refine ⟨(above?_of_known? hrow).trans hparent, row.guid, parent, ?_, hlast, hsame⟩
    rw [guidOf?_eq_known?, hrow, Option.map_some]
  · exact fun id mark hstill => (hpassed.stayed hwell hstill).2.2
  · exact fun id mark horphan hgone => hpassed.left hwell horphan hgone
  · exact result_reparentAll_refused hpassed.wellFormed fun id mark hstill =>
      (hpassed.stayed hwell hstill).2.2

/-- A folder `a` for a folder `b` that is for `a` in turn, and a third one for `a`; the newest comes
first. -/
def rivalRecords : List Record :=
  [folderNamed "b" "a", folderNamed "a" "b", folderNamed "c" "a"]

def rivalStore : BookmarkStore :=
  StoreCall.runAll (fresh .numbered none) (rivalRecords.reverse.map .applyIncoming)

theorem arrivals_rivalRecords : Arrivals rivalRecords rivalStore := by
  have hfirst : Arrivals [folderNamed "c" "a"] _ := .applied _ (.fresh .numbered none) rfl
  exact .applied _ (.applied _ hfirst rfl) rfl

/-- The third folder moves, and `a` waits for what is below it. -/
theorem rivals_settle : Arrivals rivalRecords rivalStore ∧
    ∃ next, reparentOrphans.result rivalStore = (.ok 1, next) ∧
      reparentOrphans.result next = (.ok 0, next) := by
  obtain ⟨-, count, next, hok, -, -, -, hagain⟩ := orphans_settle arrivals_rivalRecords
  have hone : (reparentOrphans.result rivalStore).1 = .ok 1 := by cbv
  obtain rfl : count = 1 := Except.ok.inj ((congrArg Prod.fst hok).symm.trans hone)
  exact ⟨arrivals_rivalRecords, next, hok, hagain⟩

end Orphans

end BookmarkStore

end SyncedBookmarks
