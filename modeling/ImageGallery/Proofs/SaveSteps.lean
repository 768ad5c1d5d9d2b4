import ImageGallery.Blob.Local

/-!
# The steps of a save

A save first makes the directory of the file and the one of the temporary files. Then it makes a
temporary file, adds the chunks of the upload to it, and moves it to its place. The steps are
carried out up to the first that fails. After a failure the temporary file is discarded.
-/

namespace ImageGallery.LocalBlobs

open Disk

/-! ## Sequences of steps -/

namespace Step

theorem runAll_cons_ok {step : Step} {steps : List Step} {tree next : Tree}
    (ran : step.run tree = (.ok (), next)) : runAll (step :: steps) tree = runAll steps next := by
  rw [runAll, ran]

theorem runAll_cons_error {step : Step} {steps : List Step} {tree next : Tree} {error : SystemError}
    (failed : step.run tree = (.error error, next)) :
    runAll (step :: steps) tree = (.error error, next) := by
  rw [runAll, failed]

/-- Steps go on behind others if these succeed. -/
theorem runAll_append_ok {first second : List Step} {tree next : Tree}
    (ran : runAll first tree = (.ok (), next)) :
    runAll (first ++ second) tree = runAll second next := by
  induction first generalizing tree with
  | nil =>
      cases ran
      rfl
  | cons step first ih =>
      rcases result : step.run tree with ⟨_ | _, middle⟩
      · rw [runAll_cons_error result] at ran
        cases ran
      · rw [runAll_cons_ok result] at ran
        rw [List.cons_append, runAll_cons_ok result]
        exact ih ran

theorem runAll_append_error {first second : List Step} {tree next : Tree} {error : SystemError}
    (failed : runAll first tree = (.error error, next)) :
    runAll (first ++ second) tree = (.error error, next) := by
  induction first generalizing tree with
  | nil => cases failed
  | cons step first ih =>
      rcases result : step.run tree with ⟨_ | _, middle⟩
      · rw [runAll_cons_error result] at failed
        rwa [List.cons_append, runAll_cons_error result]
      · rw [runAll_cons_ok result] at failed
        rw [List.cons_append, runAll_cons_ok result]
        exact ih failed

/-- Steps that succeed succeed one after the other. -/
theorem exists_of_runAll_append {first second : List Step} {tree next : Tree}
    (ran : runAll (first ++ second) tree = (.ok (), next)) :
    ∃ middle, runAll first tree = (.ok (), middle) ∧ runAll second middle = (.ok (), next) := by
  rcases result : runAll first tree with ⟨_ | _, middle⟩
  · rw [runAll_append_error result] at ran
    cases ran
  · exact ⟨middle, rfl, (runAll_append_ok result).symm.trans ran⟩

/-- What every step keeps, steps keep. -/
theorem runAll_induction (kept : Tree → Prop) {steps : List Step} {tree : Tree}
    (keeping : ∀ step ∈ steps, ∀ tree, kept tree → kept (step.run tree).2) (start : kept tree) :
    kept (runAll steps tree).2 := by
  induction steps generalizing tree with
  | nil => exact start
  | cons step steps ih =>
      have next := keeping step List.mem_cons_self tree start
      rcases result : step.run tree with ⟨_ | _, middle⟩
      · rw [runAll_cons_error result]
        rwa [result] at next
      · rw [runAll_cons_ok result]
        rw [result] at next
        exact ih (fun other mem => keeping other (List.mem_cons_of_mem _ mem)) next

end Step

/-! ## Spooling -/

/-- The steps that make a temporary file and fill it. -/
def spoolSteps (directory temporary : Path) (delivery : Upload.Delivery) : List Step :=
  .makeDirectories directory :: .create temporary :: delivery.chunks.map (.append temporary)

/-- Spooling carries its steps out. It fails if one of them does, or if the upload breaks off. -/
theorem spool_cases {directory temporary : Path} {upload : Upload} {size : Nat} {tree after : Tree}
    {result : Except Failure Nat}
    (spooled : spool directory temporary upload size tree = (result, after)) :
    let steps := spoolSteps directory temporary (upload.delivery size)
    (result = .ok (upload.delivery size).chunks.flatten.length ∧
        (upload.delivery size).complete = true ∧ Step.runAll steps tree = (.ok (), after)) ∨
      (∃ failure, result = .error failure) ∧
        ((∃ error, Step.runAll steps tree = (.error error, after)) ∨
          (upload.delivery size).complete = false ∧ Step.runAll steps tree = (.ok (), after)) := by
  unfold spool at spooled
  dsimp only at spooled ⊢
  unfold spoolSteps
  split at spooled
  · rename_i error _ failed
    cases spooled
    exact .inr ⟨⟨_, rfl⟩, .inl ⟨error, Step.runAll_cons_error failed⟩⟩
  · rename_i ground made
    rw [Step.runAll_cons_ok made]
    split at spooled
    · rename_i error _ failed
      cases spooled
      exact .inr ⟨⟨_, rfl⟩, .inl ⟨error, Step.runAll_cons_error failed⟩⟩
    · rename_i created
      rw [Step.runAll_cons_ok created]
      split at spooled
      · rename_i error _ failed
        cases spooled
        exact .inr ⟨⟨_, rfl⟩, .inl ⟨error, failed⟩⟩
      · rename_i filled
        split at spooled
        · rename_i complete
          cases spooled
          exact .inl ⟨rfl, complete, filled⟩
        · rename_i broken
          cases spooled
          exact .inr ⟨⟨_, rfl⟩, .inr ⟨Bool.not_eq_true _ ▸ broken, filled⟩⟩

/-! ## Saving -/

variable {blobs after : LocalBlobs} {scope parent : String} {index : Nat} {upload : Upload}
  {media : MediaType}

/-- The path of the temporary file of the next save. -/
def temporaryPath (blobs : LocalBlobs) : Path :=
  blobs.temporaryDirectory.join [Blob.temporaryName blobs.names.next.1]

/-- The path that the next save moves its file to. -/
def targetPath (blobs : LocalBlobs) (scope parent : String) (index : Nat) (media : MediaType) :
    Path :=
  (blobs.directoryOf scope parent).join [Blob.filename blobs.names.next.1 index media]

/-- The steps that write an accepted upload. One that breaks off is not moved to its place. -/
def writeSteps (blobs : LocalBlobs) (scope parent : String) (index : Nat) (upload : Upload)
    (media : MediaType) : List Step :=
  let delivery := upload.delivery (max blobs.chunkSize 1)
  .makeDirectories (blobs.directoryOf scope parent) ::
    (spoolSteps blobs.temporaryDirectory blobs.temporaryPath delivery ++
      if delivery.complete then
        [.move blobs.temporaryPath (blobs.targetPath scope parent index media)]
      else [])

/-- The steps that make directories. -/
def groundSteps (blobs : LocalBlobs) (scope parent : String) : List Step :=
  [.makeDirectories (blobs.directoryOf scope parent), .makeDirectories blobs.temporaryDirectory]

/-- The tree in which a save makes its file: directories have been made. -/
def ground (blobs : LocalBlobs) (scope parent : String) : Tree :=
  (Step.runAll (blobs.groundSteps scope parent) blobs.tree).2

/-- The steps that make a file. -/
def fileSteps (blobs : LocalBlobs) (scope parent : String) (index : Nat) (upload : Upload)
    (media : MediaType) : List Step :=
  let delivery := upload.delivery (max blobs.chunkSize 1)
  .create blobs.temporaryPath :: (delivery.chunks.map (.append blobs.temporaryPath) ++
    if delivery.complete then
      [.move blobs.temporaryPath (blobs.targetPath scope parent index media)]
    else [])

/-- Directories are made before the file is. -/
theorem writeSteps_eq (blobs : LocalBlobs) (scope parent : String) (index : Nat) (upload : Upload)
    (media : MediaType) : blobs.writeSteps scope parent index upload media =
      blobs.groundSteps scope parent ++ blobs.fileSteps scope parent index upload media :=
  rfl

/-- The steps of a save. There are none if the format or an id is refused. -/
def saveSteps (blobs : LocalBlobs) (scope parent : String) (index : Nat) (upload : Upload) :
    List Step :=
  match upload.media? with
  | some media =>
    if Segment.isValid scope ∧ Segment.isValid parent then
      blobs.writeSteps scope parent index upload media
    else []
  | none => []

/-- Writing carries its steps out, and succeeds if all of them do and the upload is complete. If it
fails, the temporary file is discarded, unless it fails with the first step. -/
theorem write_cases {result : Except Failure SavedBlob}
    (written : blobs.write scope parent index upload media = (result, after)) :
    let steps := blobs.writeSteps scope parent index upload media
    let complete := (upload.delivery (max blobs.chunkSize 1)).complete = true
    after.root = blobs.root ∧
      ((∃ saved, result = .ok saved ∧
          saved.storageKey = scope ++ "/" ++ parent ++ "/" ++
            Blob.filename blobs.names.next.1 index media ∧
          complete ∧ Step.runAll steps blobs.tree = (.ok (), after.tree)) ∨
        (∃ failure, result = .error failure) ∧
          ¬(complete ∧ ∃ tree, Step.runAll steps blobs.tree = (.ok (), tree)) ∧
          ((∃ error, (Step.makeDirectories (blobs.directoryOf scope parent)).run blobs.tree =
              (.error error, after.tree)) ∨
            after.tree = discard blobs.temporaryPath (Step.runAll steps blobs.tree).2)) := by
  have temporary_eq : blobs.temporaryDirectory.join [Blob.temporaryName blobs.names.next.1] =
    blobs.temporaryPath := rfl
  have target_eq : (blobs.directoryOf scope parent).join
    [Blob.filename blobs.names.next.1 index media] =
      blobs.targetPath scope parent index media := rfl
  have halted {error : SystemError} {left : Tree} :
      ¬∃ tree, ((.error error, left) : Except SystemError Unit × Tree) = (.ok (), tree) := by
    rintro ⟨_, impossible⟩
    cases impossible
  unfold write at written
  dsimp only at written ⊢
  rw [temporary_eq, target_eq] at written
  unfold writeSteps
  split at written
  · rename_i error _ failed
    cases written
    dsimp only
    rw [Step.runAll_cons_error failed]
    exact ⟨rfl, .inr ⟨⟨_, rfl⟩, fun both => halted both.2, .inl ⟨error, failed⟩⟩⟩
  · rename_i ground made
    dsimp only
    rw [Step.runAll_cons_ok made]
    split at written
    · rename_i spooled
      cases written
      refine ⟨rfl, .inr ⟨⟨_, rfl⟩, ?_⟩⟩
      rcases spool_cases spooled with
        ⟨impossible, -⟩ | ⟨-, ⟨error, failed⟩ | ⟨broken, ran⟩⟩
      · cases impossible
      · rw [Step.runAll_append_error failed]
        dsimp only
        exact ⟨fun both => halted both.2, .inr rfl⟩
      · rw [broken, if_neg Bool.false_ne_true, List.append_nil, ran]
        dsimp only
        exact ⟨fun both => Bool.false_ne_true both.1, .inr rfl⟩
    · rename_i spooled
      rcases spool_cases spooled with ⟨-, complete, ran⟩ | ⟨⟨_, impossible⟩, -⟩
      · rw [complete, if_pos rfl, Step.runAll_append_ok ran]
        split at written
        · rename_i moved
          cases written
          rw [Step.runAll_cons_error moved]
          dsimp only
          exact ⟨rfl, .inr ⟨⟨_, rfl⟩, fun both => halted both.2, .inr rfl⟩⟩
        · rename_i moved
          cases written
          refine ⟨rfl, .inl ⟨_, rfl, rfl, rfl, ?_⟩⟩
          rw [Step.runAll_cons_ok moved]
          rfl
      · cases impossible

/-- What writing tells about a file that came to its place, and what the store keeps of it. Names
are used up once there is a directory for the file. -/
theorem write_outcome {result : Except Failure SavedBlob}
    (written : blobs.write scope parent index upload media = (result, after)) :
    (∃ failure, result = .error failure ∧ after.bytesWritten = blobs.bytesWritten ∧
        (after.names = blobs.names ∨ after.names = blobs.names.next.2)) ∨
      ∃ saved, result = .ok saved ∧
        after.bytesWritten = blobs.bytesWritten + saved.size ∧
        after.names = blobs.names.next.2 ∧
        saved.filename = Blob.filename blobs.names.next.1 index media ∧
        saved.storageKey = scope ++ "/" ++ parent ++ "/" ++ saved.filename ∧
        saved.path = (blobs.targetPath scope parent index media).display ∧
        (upload.delivery (max blobs.chunkSize 1)).complete = true ∧
        saved.size = (upload.delivery (max blobs.chunkSize 1)).chunks.flatten.length := by
  unfold write at written
  dsimp only at written
  split at written
  · cases written
    exact .inl ⟨_, rfl, rfl, .inl rfl⟩
  · split at written
    · cases written
      exact .inl ⟨_, rfl, rfl, .inr rfl⟩
    · rename_i spooled
      split at written
      · cases written
        exact .inl ⟨_, rfl, rfl, .inr rfl⟩
      · cases written
        rcases spool_cases spooled with ⟨size_eq, complete, -⟩ | ⟨⟨_, impossible⟩, -⟩
        · cases size_eq
          exact .inr ⟨_, rfl, rfl, rfl, rfl, rfl, rfl, complete, rfl⟩
        · cases impossible

/-- A save is refused before its first step, or it writes the upload. -/
theorem save_cases {result : Except GalleryError SavedBlob}
    (saved : blobs.save scope parent index upload = (result, after)) :
    (blobs.saveSteps scope parent index upload = [] ∧ after = blobs ∧
        ∃ error, result = .error error) ∨
      ∃ media, upload.media? = some media ∧ blobs.saveSteps scope parent index upload =
          blobs.writeSteps scope parent index upload media ∧
        Segment.isValid scope ∧ Segment.isValid parent ∧
        ∃ written, blobs.write scope parent index upload media = (written, after) ∧
          result = written.mapError .internal := by
  unfold save at saved
  unfold saveSteps
  dsimp only [bind, Except.bind, pure, Except.pure] at saved
  cases accepted : upload.media? with
  | none =>
      rw [Upload.media, accepted] at saved
      cases saved
      exact .inl ⟨rfl, rfl, _, rfl⟩
  | some media =>
      rw [Upload.media, accepted] at saved
      dsimp only at saved ⊢
      cases scopeChecked : Segment.check "scope" scope with
      | error error =>
          rw [scopeChecked] at saved
          cases saved
          refine .inl ⟨if_neg fun valid => ?_, rfl, _, rfl⟩
          rw [Segment.check_eq_ok_iff.mpr valid.1] at scopeChecked
          cases scopeChecked
      | ok =>
          cases parentChecked : Segment.check "parent" parent with
          | error error =>
              rw [scopeChecked, parentChecked] at saved
              cases saved
              refine .inl ⟨if_neg fun valid => ?_, rfl, _, rfl⟩
              rw [Segment.check_eq_ok_iff.mpr valid.2] at parentChecked
              cases parentChecked
          | ok =>
              rw [scopeChecked, parentChecked] at saved
              have scopeValid := Segment.check_eq_ok_iff.mp scopeChecked
              have parentValid := Segment.check_eq_ok_iff.mp parentChecked
              rw [if_pos ⟨scopeValid, parentValid⟩]
              rcases written : blobs.write scope parent index upload media with ⟨_ | blob, left⟩
              · dsimp only at saved
                rw [written] at saved
                cases saved
                exact .inr ⟨media, rfl, rfl, scopeValid, parentValid, _, written, rfl⟩
              · dsimp only at saved
                rw [written] at saved
                cases saved
                exact .inr ⟨media, rfl, rfl, scopeValid, parentValid, _, written, rfl⟩

/-- A save that is not refused succeeds if its upload is complete and all its steps succeed. -/
theorem save_eq_ok_of_runAll {tree : Tree}
    (accepted : blobs.saveSteps scope parent index upload ≠ [])
    (complete : (upload.delivery (max blobs.chunkSize 1)).complete = true)
    (ran : Step.runAll (blobs.saveSteps scope parent index upload) blobs.tree = (.ok (), tree)) :
    ∃ saved after, blobs.save scope parent index upload = (.ok saved, after) ∧
      after.tree = tree := by
  rcases saved : blobs.save scope parent index upload with ⟨result, after⟩
  rcases save_cases saved with
    ⟨nothing, -⟩ | ⟨media, -, steps_eq, -, -, result, written, rfl⟩
  · exact absurd nothing accepted
  · rw [steps_eq] at ran
    obtain ⟨-, ⟨blob, rfl, -, -, same⟩ | ⟨-, halted, -⟩⟩ := write_cases written
    · exact ⟨blob, after, rfl, (Prod.mk.inj (same.symm.trans ran)).2⟩
    · exact absurd ⟨complete, tree, ran⟩ halted

end ImageGallery.LocalBlobs
