import ImageGallery.Proofs.Containment
import ImageGallery.Proofs.FormUploads
import ImageGallery.Proofs.Spooling

/-!
# Saves from end to end

Below a root without links a save ends in one of two ways. Either the file stands at its place with
all bytes of the upload, or every file is as before; in both cases directories on the way may have
come in, and no temporary file is left. Where the content of the upload is read from does not
matter.
-/

namespace ImageGallery

open Disk

namespace LocalBlobs

variable {blobs : LocalBlobs} {base : Place} {scope parent : String} {index : Nat}
  {upload : Upload} {media : MediaType}

/-- A complete upload of an accepted format is saved if its directories can be made and the paths of
its two files are open then. -/
theorem exists_save {ground : Tree} (linkless : Linkless blobs.root base blobs.tree)
    (accepted : upload.media? = some media) (scopeValid : Segment.isValid scope)
    (parentValid : Segment.isValid parent)
    (complete : (upload.delivery (max blobs.chunkSize 1)).complete = true)
    (made : Step.runAll (blobs.groundSteps scope parent) blobs.tree = (.ok (), ground))
    (temporary : Linkless.Open blobs.root base ground blobs.temporaryNames)
    (target : Linkless.Open blobs.root base ground (blobs.targetNames scope parent index media)) :
    ∃ saved after, blobs.save scope parent index upload = (.ok saved, after) := by
  have added : Adds (· ∈ directoriesOf base scope parent) blobs.tree ground := by
    have added := adds_groundSteps (.of_segment scopeValid) (.of_segment parentValid) linkless
      (List.Subset.refl (blobs.groundSteps scope parent))
    rwa [made] at added
  have linklessGround := added.linkless linkless
  have steps_eq : blobs.saveSteps scope parent index upload =
      blobs.writeSteps scope parent index upload media := by
    rw [saveSteps, accepted]
    exact if_pos ⟨scopeValid, parentValid⟩
  obtain ⟨filled, ran, spooled⟩ := exists_spooled temporary linklessGround
    (upload.delivery (max blobs.chunkSize 1)).chunks
  obtain ⟨content, there, -⟩ := spooled.file
  have still : Linkless.Open blobs.root base filled
      (blobs.targetNames scope parent index media) := by
    refine ⟨target.passable, target.housed.of_keeps spooled.touches.keeps, ?_⟩
    rcases spooled.touches.lookup_eq (base ++ blobs.targetNames scope parent index media) with
      same | ⟨-, -, loose⟩
    · exact target.loose.of_lookup_eq same
    · exact loose
  obtain ⟨tree, renamed⟩ := still.exists_rename (linklessGround.touch spooled.touches)
    temporary.passable (temporary.housed.of_keeps spooled.touches.keeps) there
  have moved : Step.run (.move blobs.temporaryPath
      (blobs.targetPath scope parent index media)) filled = (.ok (), tree) := by
    simp only [Step.run]
    rw [show filled.rename blobs.temporaryPath (blobs.targetPath scope parent index media) =
      .ok tree from renamed]
  have whole : Step.runAll (blobs.saveSteps scope parent index upload) blobs.tree =
      (.ok (), tree) := by
    rw [steps_eq, writeSteps_eq, Step.runAll_append_ok made, fileSteps, complete, if_pos rfl,
      ← List.cons_append]
    exact (Step.runAll_append_ok ran).trans (Step.runAll_cons_ok moved)
  obtain ⟨saved, after, succeeded, -⟩ :=
    save_eq_ok_of_runAll (steps_eq ▸ List.cons_ne_nil _ _) complete whole
  exact ⟨saved, after, succeeded⟩

/-- Uploads of the same name and format, with the same bytes ahead, that break off alike. Their
content may be held in memory or spooled. -/
structure SameBytes (first second : Upload) : Prop where
  filename_eq : first.filename = second.filename
  media?_eq : first.media? = second.media?
  ahead_eq : first.content.ahead = second.content.ahead
  breaksAfter_eq : first.breaksAfter = second.breaksAfter

theorem SameBytes.seenAs {first second : Upload} (same : SameBytes first second) :
    first.SeenAs second where
  filename_eq := same.filename_eq
  media?_eq := same.media?_eq
  delivery_eq size := by
    unfold Upload.delivery
    rw [same.ahead_eq, same.breaksAfter_eq]
    exact Upload.deliver_congr same.ahead_eq size _ [] _

/-- What a save does: all of it, or nothing but directories on the way. Where the content is read
from does not matter. -/
structure Streams (base : Place) (scope parent : String) (index : Nat) (upload : Upload)
    (blobs : LocalBlobs) : Prop where
  whole : ∀ saved after, blobs.save scope parent index upload = (.ok saved, after) →
    SavesWhole base scope parent upload blobs after saved
  unchanged : ∀ error after, blobs.save scope parent index upload = (.error error, after) →
    Adds (· ∈ directoriesOf base scope parent) blobs.tree after.tree
  alike : ∀ other, SameBytes upload other →
    blobs.save scope parent index upload = blobs.save scope parent index other

/-- Every save below a root without links streams its upload, whatever the size of the chunks and
wherever it fails. -/
theorem save_streams (blobs : LocalBlobs) (base : Place)
    (linkless : Linkless blobs.root base blobs.tree) (free : blobs.TemporaryFree base)
    (scope parent : String) (index : Nat) (upload : Upload) :
    Streams base scope parent index upload blobs where
  whole saved after succeeded := by
    rcases save_cases succeeded with
      ⟨-, -, _, impossible⟩ | ⟨media, -, -, scopeValid, parentValid, result, written, same⟩
    · cases impossible
    · cases result with
      | error failure => cases same
      | ok blob =>
          cases same
          exact savesWhole_of_write linkless free (.of_segment scopeValid)
            (.of_segment parentValid) written
  unchanged error after failed := by
    rcases save_cases failed with
      ⟨-, rfl, -⟩ | ⟨media, -, -, scopeValid, parentValid, result, written, same⟩
    · exact .refl _ _
    · cases result with
      | error failure =>
          exact adds_of_write linkless free (.of_segment scopeValid) (.of_segment parentValid)
            written
      | ok blob => cases same
  alike other same := SeesFiles.save_congr blobs scope parent index same.seenAs

/-- A root with the directories of one parent and of the temporary files. Uploads are read through
the smallest buffer. -/
def shelf : LocalBlobs where
  root := "/root"
  chunkSize := 0
  names := { draws := fun _ => default }
  tree :=
    { entries :=
        [(["root"], .directory), (["root", ".tmp"], .directory), (["root", "s"], .directory),
          (["root", "s", "p"], .directory)] }

/-- An image of three bytes. -/
def smallImage : Upload :=
  .ofHeld "a.png" none [1, 2, 3]

theorem linkless_shelf : Linkless shelf.root ["root"] shelf.tree where
  way := by
    have names : Path.withoutSlash (Path.split "/root") = ["root"] := by decide +kernel
    have absolute : Path.isAbsolute "/root" = true := by decide +kernel
    rw [shelf, names, absolute, if_pos rfl]
    exact .down ⟨by decide, by decide, by decide⟩ (by decide +kernel) (by decide) .here
  free := .of_entries (by simp [shelf]) _

theorem leads_shelf : Linkless.Leads shelf.root ["root"] shelf.tree [".tmp"] :=
  ⟨⟨by decide, by simp [Tree.Plain], by decide +kernel⟩, .single (by decide +kernel), by decide⟩

theorem runAll_groundSteps_shelf :
    Step.runAll (shelf.groundSteps "s" "p") shelf.tree = (.ok (), shelf.tree) := by
  have target : Linkless.Leads shelf.root ["root"] shelf.tree ["s", "p"] :=
    ⟨⟨by decide, by simp [Tree.Plain], by decide +kernel⟩,
      (Tree.Housed.single (by decide +kernel)).cons (by decide +kernel) (by decide), by decide⟩
  have first : Step.run (.makeDirectories (shelf.directoryOf "s" "p")) shelf.tree =
      (.ok (), shelf.tree) := target.makeDirectories_eq linkless_shelf
  have second : Step.run (.makeDirectories shelf.temporaryDirectory) shelf.tree =
      (.ok (), shelf.tree) := leads_shelf.makeDirectories_eq linkless_shelf
  rw [groundSteps, Step.runAll_cons_ok first, Step.runAll_cons_ok second]
  rfl

theorem open_shelf : Linkless.Open shelf.root ["root"] shelf.tree shelf.temporaryNames :=
  ⟨⟨List.cons_ne_nil _ _, plain_temporary, by decide +kernel⟩,
    (Tree.Housed.single (by decide +kernel)).cons (by decide +kernel) (by decide),
    .of_none (by decide +kernel)⟩

theorem temporaryFree_shelf : shelf.TemporaryFree ["root"] := by
  intro content there
  have missing : shelf.tree.lookup (["root"] ++ shelf.temporaryNames) = none := by decide +kernel
  rw [missing] at there
  cases there

theorem exists_save_shelf :
    ∃ saved after, shelf.save "s" "p" 0 smallImage = (.ok saved, after) := by
  have accepted : smallImage.media? = some .png := by decide +kernel
  refine exists_save linkless_shelf accepted (by decide +kernel) (by decide +kernel)
    (by decide +kernel) runAll_groundSteps_shelf open_shelf
    ⟨⟨List.cons_ne_nil _ _, plain_target (.of_segment (by decide +kernel))
      (.of_segment (by decide +kernel)), by decide +kernel⟩, ?_, .of_none (by decide +kernel)⟩
  exact ((Tree.Housed.single (by decide +kernel)).cons (by decide +kernel) (by decide)).cons
    (by decide +kernel) (by decide)

/-- All bytes of an image arrive, one chunk after the other. -/
theorem save_streams_shelf : ∃ saved after, shelf.save "s" "p" 0 smallImage = (.ok saved, after) ∧
    saved.size = 3 ∧ after.HasFile ["root", "s", "p", saved.filename] [1, 2, 3] := by
  obtain ⟨saved, after, succeeded⟩ := exists_save_shelf
  have whole := (save_streams shelf ["root"] linkless_shelf temporaryFree_shelf "s" "p" 0
    smallImage).whole saved after succeeded
  exact ⟨saved, after, succeeded, whole.size_eq, whole.file⟩

end LocalBlobs

end ImageGallery
