import ImageGallery.Proofs.Predictable

/-!
# The parents that own images

A store lists the parents of its galleries. The list is what an audit goes through, so it has to
name each parent that owns an image once, and nobody else. A database selects the parents from its
rows; the store in memory lists the galleries that it keeps, and never keeps one without images.
-/

namespace ImageGallery

/-! ## Sorted ids -/

theorem nodup_eraseDups (ids : List String) : ids.eraseDups.Nodup := by
  cases ids with
  | nil => simp
  | cons id ids =>
      rw [List.eraseDups_cons, List.nodup_cons]
      refine ⟨?_, nodup_eraseDups (ids.filter fun other => !other == id)⟩
      rw [List.mem_eraseDups, List.mem_filter]
      simp
termination_by ids.length
decreasing_by
  exact Nat.lt_succ_of_le (List.length_filter_le _ _)

theorem mem_sortedIds {ids : List String} {id : String} : id ∈ sortedIds ids ↔ id ∈ ids := by
  rw [sortedIds, List.mem_mergeSort, List.mem_eraseDups]

theorem nodup_sortedIds (ids : List String) : (sortedIds ids).Nodup :=
  (List.mergeSort_perm _ _).nodup_iff.mpr (nodup_eraseDups ids)

/-! ## Listed owners -/

variable {σ τ : Type} [GalleryStore σ τ] [StoreView σ τ]

/-- The store lists the parents that own images, each of them once. -/
structure ListsOwners (store : σ) : Prop where
  distinct : (GalleryStore.galleryParentIds store).Nodup
  mem_iff : ∀ parent,
    parent ∈ GalleryStore.galleryParentIds store ↔ StoreView.images store parent ≠ []

theorem MemoryStore.listsOwners {store : MemoryStore}
    (filled : ∀ entry ∈ store.galleries, entry.2 ≠ []) : ListsOwners store where
  distinct := nodup_sortedIds _
  mem_iff _ := mem_sortedIds.trans (mem_map_fst_galleries filled)

theorem Database.listsOwners (database : Database) : ListsOwners database where
  distinct := nodup_sortedIds _
  mem_iff parent := by
    have willing : WillingStore database := trivial
    obtain ⟨ids, listed, named⟩ := PredictableStore.exists_galleryParentIds willing
    rw [listed, mem_sortedIds, named]

theorem Fallible.listsOwners {τ : Type} [GalleryTx τ] [GalleryStore σ τ] [StoreView σ τ]
    {store : Fallible σ} (lists : ListsOwners store.inner) : ListsOwners store where
  distinct := lists.distinct
  mem_iff := lists.mem_iff

/-! ## Listed owners after a commit -/

/-- A parent whose draft was published is listed if it has images left. The others are listed if
they were before. -/
structure Relisted (store after : σ) (draft : Draft) : Prop where
  own : draft.parent ∈ GalleryStore.galleryParentIds after ↔ draft.images ≠ []
  others : ∀ other, other ≠ draft.parent →
    (other ∈ GalleryStore.galleryParentIds after ↔ other ∈ GalleryStore.galleryParentIds store)

theorem Published.relisted [ParentStore σ] {store after : σ} {draft : Draft}
    (published : Published store after draft) (before : ListsOwners store)
    (later : ListsOwners after) : Relisted store after draft where
  own := by rw [later.mem_iff, published.images_self]
  others other differ := by
    rw [later.mem_iff, before.mem_iff, published.images_other other differ]

/-- In memory this is so even if galleries without images were kept. -/
theorem MemoryStore.relisted_publish (store : MemoryStore) (draft : Draft) :
    Relisted store
      { store.publish draft.parent draft.images with lastId := draft.lastId } draft where
  own := by
    refine mem_sortedIds.trans ?_
    cases empty : draft.images.isEmpty with
    | true => simp [publish, List.isEmpty_iff.mp empty]
    | false =>
        have filled : draft.images ≠ [] := by simpa using empty
        simp [publish, filled]
  others other differ := by
    refine mem_sortedIds.trans (Iff.trans ?_ mem_sortedIds.symm)
    have kept : other ∈ (store.galleries.filter fun entry => entry.1 ≠ draft.parent).map (·.1) ↔
        other ∈ store.galleries.map (·.1) := by
      simp only [List.mem_map, List.mem_filter, decide_eq_true_eq]
      constructor
      · rintro ⟨entry, ⟨mem, _⟩, named⟩
        exact ⟨entry, mem, named⟩
      · rintro ⟨entry, mem, named⟩
        exact ⟨entry, ⟨mem, named ▸ differ⟩, named⟩
    unfold publish
    dsimp only
    split
    · exact kept
    · rw [List.map_cons, List.mem_cons, kept]
      exact or_iff_right differ

end ImageGallery
