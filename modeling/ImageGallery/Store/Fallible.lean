import ImageGallery.Store.Database
import ImageGallery.Store.Memory

/-!
# Stores that refuse calls

A database lives on a disk that may be full or may break, so any statement of a transaction and
its commit can fail. A refused call changes nothing, and a refused commit leaves the store as it
was before the transaction. The store in memory refuses nothing but commits, and those when it is
told to.
-/

namespace ImageGallery

/-- The calls of a transaction that may be refused. -/
inductive TxCall where
  | count
  | nextOrder
  | insert
  | setSortOrder
  | assignExclusiveCover
  | commit
deriving DecidableEq, Inhabited

/-- Which calls are refused and how: by the call and the number of changes that the transaction
has tried before. -/
abbrev Refusals := TxCall → Nat → Option StoreError

/-- A store whose transactions can be refused calls. -/
structure Fallible (σ : Type) where
  inner : σ
  refusals : Refusals := fun _ _ => none

/-- A transaction that can be refused calls. -/
structure FallibleTx (τ : Type) where
  inner : τ
  refusals : Refusals
  /-- The number of changes that were tried. -/
  tried : Nat := 0

namespace FallibleTx

variable {τ α : Type}

/-- The answer of a call that changes nothing, unless it is refused. -/
def ask (tx : FallibleTx τ) (call : TxCall) (answer : Except StoreError α) :
    Except StoreError α :=
  match tx.refusals call tx.tried with
  | some error => .error error
  | none => answer

/-- The answer of a call that changes the transaction, unless it is refused. -/
def attempt (tx : FallibleTx τ) (call : TxCall) (result : Except StoreError α × τ) :
    Except StoreError α × FallibleTx τ :=
  match tx.refusals call tx.tried with
  | some error => (.error error, { tx with tried := tx.tried + 1 })
  | none => (result.1, { tx with inner := result.2, tried := tx.tried + 1 })

instance [GalleryTx τ] : GalleryTx (FallibleTx τ) where
  count tx := tx.ask .count (GalleryTx.count tx.inner)
  nextOrder tx := tx.ask .nextOrder (GalleryTx.nextOrder tx.inner)
  hasCover tx := GalleryTx.hasCover tx.inner
  list tx := GalleryTx.list tx.inner
  get? tx id := GalleryTx.get? tx.inner id
  insert tx image := tx.attempt .insert (GalleryTx.insert tx.inner image)
  setSortOrder tx id order := tx.attempt .setSortOrder (GalleryTx.setSortOrder tx.inner id order)
  assignExclusiveCover tx id :=
    tx.attempt .assignExclusiveCover (GalleryTx.assignExclusiveCover tx.inner id)
  delete tx id := { tx with inner := GalleryTx.delete tx.inner id }

end FallibleTx

namespace Fallible

variable {σ τ : Type}

instance [GalleryTx τ] [GalleryStore σ τ] : GalleryStore (Fallible σ) (FallibleTx τ) where
  start store parent :=
    { inner := GalleryStore.start store.inner parent, refusals := store.refusals }
  commit tx store :=
    match tx.refusals .commit tx.tried with
    | some error => (.error error, store)
    | none =>
      let (result, inner) := GalleryStore.commit tx.inner store.inner
      (result, { store with inner })
  listImages store parent := GalleryStore.listImages store.inner parent
  galleryParentIds store := GalleryStore.galleryParentIds store.inner

instance [ParentStore σ] : ParentStore (Fallible σ) where
  registry store := ParentStore.registry store.inner
  withRegistry store registry :=
    { store with inner := ParentStore.withRegistry store.inner registry }

end Fallible

/-- Stores that can be told what to refuse from now on. -/
class Refusing (σ : Type) (ρ : outParam Type) where
  /-- The store with other refusals; what it holds stays. -/
  refuse (store : σ) (refusals : ρ) : σ

instance : Refusing MemoryStore Bool where
  refuse store on := { store with failCommits := on }

instance {σ : Type} : Refusing (Fallible σ) Refusals where
  refuse store refusals := { store with refusals }

end ImageGallery
