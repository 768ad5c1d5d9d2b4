import ImageGallery.Proofs.Spooling

/-!
# The files of a local blob store

What a blob store keeps below its root are the files that were saved and not deleted, each with the
bytes of its upload. Saving adds one file or none, and the file's name is new. Nothing is ever left
in the directory of the temporary files, so there is nothing to sweep.
-/

namespace ImageGallery

open Disk

/-- A file that arrived is one more file of a region. -/
theorem Disk.Region.arrive {root : String} {base names target : Place} {ground after : Tree}
    {files : List (Place × Bytes)} {bytes : Bytes} (region : Region root base ground files)
    (some_names : names ≠ []) (temporary : names ∉ files.map (·.1))
    (unlisted : target ∉ files.map (·.1))
    (arrived : Arrived root base names target ground bytes after) :
    Region root base after ((target, bytes) :: files) := by
  obtain ⟨content, there, rfl⟩ := arrived.file
  have fresh := region.not_file_of_unlisted some_names temporary
  have replaced := region.replace arrived.touches.keeps
    (fun other differ => arrived.lookup_eq fresh fun same => differ (List.append_cancel_left same))
    (some content) there (fun _ => arrived.passable) (fun _ => arrived.housed)
  rwa [filter_eq_self_of_unlisted unlisted] at replaced

namespace LocalBlobs

variable {base : Place} {tree : Tree} {files : List (Place × Bytes)} {names : Place} {bytes : Bytes}

/-! ## Saving -/

/-- The files below the root of a blob store, which stands at a place, are the given ones, and their
names have times up to that of the last name. -/
structure Holds (base : Place) (blobs : LocalBlobs) (files : List (Place × Bytes)) : Prop where
  region : Region blobs.root base blobs.tree files
  named : ∀ file ∈ files, ∃ scope parent draw index media,
    file.1 = [scope, parent, Blob.filename draw index media] ∧
      draw.micros ≤ blobs.names.lastMicros

variable {blobs left : LocalBlobs}

/-- A name with a later time names no file that is there. -/
theorem Holds.unlisted (holds : Holds base blobs files) {draw : Blob.Draw}
    (later : blobs.names.lastMicros < draw.micros) (scope parent : String) (index : Nat)
    (media : MediaType) : [scope, parent, Blob.filename draw index media] ∉ files.map (·.1) := by
  intro mem
  obtain ⟨file, fileMem, same⟩ := List.mem_map.mp mem
  obtain ⟨_, _, other, _, _, shape, bound⟩ := holds.named file fileMem
  have sameName := congrArg (·[2]?) (shape.symm.trans same)
  have sameMicros := Blob.micros_eq_of_filename_eq (Option.some.inj sameName)
  omega

/-- No file stands in the directory of the temporary files. -/
theorem Holds.temporary_unlisted (holds : Holds base blobs files) (name : String) :
    [".tmp", name] ∉ files.map (·.1) := by
  intro mem
  obtain ⟨file, fileMem, same⟩ := List.mem_map.mp mem
  obtain ⟨_, _, _, _, _, shape, -⟩ := holds.named file fileMem
  rw [shape] at same
  cases same

theorem Holds.temporaryFree (holds : Holds base blobs files) : blobs.TemporaryFree base :=
  holds.region.not_file_of_unlisted (List.cons_ne_nil _ _) (holds.temporary_unlisted _)

/-- The same files in another tree, after another name may have been drawn. -/
theorem Holds.of_region (holds : Holds base blobs files)
    (region : Region blobs.root base tree files) (sameRoot : left.root = blobs.root)
    (sameTree : left.tree = tree)
    (later : blobs.names.lastMicros ≤ left.names.lastMicros) : Holds base left files where
  region := by
    rw [sameRoot, sameTree]
    exact region
  named file mem := by
    obtain ⟨scope, parent, draw, index, media, shape, bound⟩ := holds.named file mem
    exact ⟨scope, parent, draw, index, media, shape, Nat.le_trans bound later⟩

/-- A file that was moved to its place has the name with the latest time. -/
theorem Holds.arrive (holds : Holds base blobs files) {scope parent : String} {draw : Blob.Draw}
    {index : Nat} {media : MediaType}
    (region : Region left.root base left.tree
      (([scope, parent, Blob.filename draw index media], bytes) :: files))
    (last : left.names.lastMicros = draw.micros)
    (later : blobs.names.lastMicros ≤ left.names.lastMicros) :
    Holds base left (([scope, parent, Blob.filename draw index media], bytes) :: files) where
  region := region
  named := by
    intro file mem
    rcases List.mem_cons.mp mem with rfl | old
    · exact ⟨scope, parent, draw, index, media, rfl, Nat.le_of_eq last.symm⟩
    · obtain ⟨scope, parent, other, index, media, shape, bound⟩ := holds.named file old
      exact ⟨scope, parent, other, index, media, shape, Nat.le_trans bound later⟩

/-- What saving a file does: it adds one file under a new name, or none. -/
theorem Holds.write_spec (holds : Holds base blobs files) {scope parent : String} {index : Nat}
    {upload : Upload} {media : MediaType} {result : Except Failure SavedBlob}
    (scopeName : EntryName scope) (parentName : EntryName parent)
    (written : blobs.write scope parent index upload media = (result, left)) :
    match result with
    | .error _ => Holds base left files
    | .ok saved => ∃ filename, EntryName filename ∧
        saved.storageKey = scope ++ "/" ++ parent ++ "/" ++ filename ∧
        [scope, parent, filename] ∉ files.map (·.1) ∧
        Holds base left (([scope, parent, filename], upload.content.ahead) :: files) := by
  have later := blobs.names.lastMicros_lt_next
  have last := blobs.names.lastMicros_next
  have advanced : blobs.names.lastMicros ≤ blobs.names.next.2.lastMicros := Nat.le_of_lt later
  have linkless := holds.region.linkless
  have sameRoot := (write_cases written).1
  rcases write_outcome written with
    ⟨failure, rfl, -, drawn⟩ | ⟨saved, rfl, -, drawn, filename_eq, key_eq, -⟩
  · have added := adds_of_write linkless holds.temporaryFree scopeName parentName written
    refine holds.of_region (holds.region.grow added.grows) sameRoot rfl ?_
    rcases drawn with kept | drawn
    · exact kept ▸ Nat.le_refl _
    · exact drawn ▸ advanced
  · obtain ⟨ground, added, -, arrived⟩ :=
      arrived_of_write linkless holds.temporaryFree scopeName parentName written
    have unlisted := holds.unlisted later scope parent index media
    have region := (holds.region.grow added.grows).arrive (List.cons_ne_nil _ _)
      (holds.temporary_unlisted _) unlisted arrived
    rw [← sameRoot] at region
    refine ⟨_, Blob.entryName_filename, filename_eq ▸ key_eq, unlisted, holds.arrive region ?_ ?_⟩
    · rw [drawn, last]
    · rw [drawn]
      exact advanced

/-- Saving adds one file under a new key, or none. -/
theorem Holds.save_spec (holds : Holds base blobs files) {scope parent : String} {index : Nat}
    {upload : Upload} {result : Except GalleryError SavedBlob}
    (saved : blobs.save scope parent index upload = (result, left)) :
    match result with
    | .error _ => Holds base left files
    | .ok saved => Keyed saved.storageKey ∧ Path.split saved.storageKey ∉ files.map (·.1) ∧
        Holds base left ((Path.split saved.storageKey, upload.content.ahead) :: files) := by
  rcases save_cases saved with
    ⟨-, rfl, error, rfl⟩ | ⟨media, -, -, scopeValid, parentValid, outcome, written, rfl⟩
  · exact holds
  · have scopeName := EntryName.of_segment scopeValid
    have parentName := EntryName.of_segment parentValid
    cases outcome with
    | error failure => exact holds.write_spec scopeName parentName written
    | ok blob =>
        obtain ⟨filename, fileName, key_eq, unlisted, held⟩ :=
          holds.write_spec scopeName parentName written
        dsimp only [Except.mapError]
        rw [key_eq, EntryName.split_key scopeName parentName fileName]
        exact ⟨scopeName.keyed parentName fileName, unlisted, held⟩

/-! ## Finding and deleting -/

/-- The key of a file that is there leads to it. -/
theorem Holds.resolve_key (holds : Holds base blobs files) {key : String} (keyed : Keyed key)
    (mem : (Path.split key, bytes) ∈ files) :
    ∃ path content, blobs.resolve? key = some path ∧ content.bytes = bytes ∧
      blobs.tree.resolve path = .ok (.entry (base ++ Path.split key) (.file content)) := by
  obtain ⟨content, same, -, leads⟩ := holds.region.lead_file mem .find
  exact ⟨_, content, keyed blobs, same, leads⟩

/-- The root leads to the place where it stands. -/
theorem Holds.canonical?_root (holds : Holds base blobs files) :
    blobs.tree.canonical? blobs.rootPath = some base := by
  have rooted : blobs.tree.resolve blobs.rootPath = .ok (.entry base .directory) :=
    holds.region.rooted
  rw [Tree.canonical?, rooted]

/-- A path that leads to a file below the root is contained. -/
theorem Holds.isContained (holds : Holds base blobs files) {path : Path} {content : Content}
    (leads : blobs.tree.resolve path = .ok (.entry (base ++ names) (.file content))) :
    blobs.tree.isFile path ∧ blobs.isContained path := by
  have canonical : blobs.tree.canonical? path = some (base ++ names) := by
    rw [Tree.canonical?, leads]
  constructor
  · rw [Tree.isFile, leads]
  · rw [LocalBlobs.isContained, canonical, holds.canonical?_root]
    exact List.isPrefixOf_iff_prefix.mpr (List.prefix_append base names)

/-- The store contains the key of a file that is there. -/
theorem Holds.contains_key (holds : Holds base blobs files) {key : String} (keyed : Keyed key)
    (mem : (Path.split key, bytes) ∈ files) : blobs.contains key := by
  obtain ⟨path, content, resolved, -, leads⟩ := holds.resolve_key keyed mem
  obtain ⟨isFile, contained⟩ := holds.isContained leads
  rw [LocalBlobs.contains, resolved]
  exact Bool.and_eq_true_iff.mpr ⟨isFile, contained⟩

/-- A file that is there is deleted by its key, and no other file is. -/
theorem Holds.delete_key (holds : Holds base blobs files) {key : String} (keyed : Keyed key)
    (mem : (Path.split key, bytes) ∈ files) :
    ∃ left, blobs.delete key = (true, left) ∧
      Holds base left (files.filter fun file => file.1 ≠ Path.split key) := by
  obtain ⟨path, content, resolved, -, leads⟩ := holds.resolve_key keyed mem
  have found := holds.isContained leads
  have pathEq : path = ⟨blobs.root, Path.split key⟩ :=
    Option.some.inj (resolved.symm.trans (keyed blobs))
  obtain ⟨tree, removed, remaining⟩ := holds.region.remove_eq_ok mem
  refine ⟨{ blobs with tree }, ?_, remaining, ?_⟩
  · rw [LocalBlobs.delete, resolved]
    dsimp only
    rw [if_pos found, pathEq, removed]
  · intro file fileMem
    exact holds.named file (List.mem_of_mem_filter fileMem)

/-! ## Sweeping -/

/-- Nothing in the directory of the temporary files is a file, whatever name it is looked up by. -/
theorem Holds.isFile_temporary (holds : Holds base blobs files) (name : String) :
    blobs.tree.isFile (blobs.temporaryDirectory.join [name]) = false := by
  refine Bool.eq_false_iff.mpr fun found => ?_
  obtain ⟨content, there⟩ := holds.region.linkless.lookup_of_isFile plain_hidden found
  exact holds.region.not_file_of_unlisted (List.cons_ne_nil _ _) (holds.temporary_unlisted name)
    content there

/-- There is nothing to sweep. -/
theorem Holds.sweep_eq (holds : Holds base blobs files) : blobs.sweep.2 = blobs := by
  have nothing (names : List String) :
      sweepNames blobs.temporaryDirectory names blobs.tree = (0, blobs.tree) := by
    induction names with
    | nil => rfl
    | cons name names ih =>
        rw [sweepNames]
        dsimp only
        rw [holds.isFile_temporary name, if_neg Bool.false_ne_true, ih]
  unfold sweep
  dsimp only
  split
  · rfl
  · rw [nothing]

end LocalBlobs

end ImageGallery
