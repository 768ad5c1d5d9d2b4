import ImageGallery.Proofs.FormUploads

/-!
# Content is read once, chunk after chunk

Buffers cut content into slices, one behind the other: each is as long as its buffer, or as what is
left. An upload delivers these slices of its content, whether the content is held in memory or was
spooled to a file that stood at any position before.

A loop that reads up to the first empty chunk ends after finitely many reads. It takes a buffer
without room for the end of the content, so only buffers with room deliver all of it. The loop of
the blob store is such a loop.
-/

namespace ImageGallery

variable {content : Bytes} {source : UploadContent} {position : Nat} {sizes : List Nat}

/-! ## Slices -/

/-- The slices that buffers of some sizes take from a content, from a position on. -/
def slices (content : Bytes) : (position : Nat) → (sizes : List Nat) → List Bytes
  | _, [] => []
  | position, size :: sizes =>
    let count := min size (content.length - position)
    (content.drop position).take count :: slices content (position + count) sizes

@[simp]
theorem length_slices (content : Bytes) (position : Nat) (sizes : List Nat) :
    (slices content position sizes).length = sizes.length := by
  induction sizes generalizing position with
  | nil => rfl
  | cons size sizes ih => rw [slices, List.length_cons, ih, List.length_cons]

/-- The position moves on by the bytes of a slice. -/
theorem length_take_min (content : Bytes) (position size : Nat) :
    ((content.drop position).take (min size (content.length - position))).length =
      min size (content.length - position) := by
  rw [List.length_take, List.length_drop, Nat.min_assoc, Nat.min_self]

/-- More slices start where those before them end. -/
theorem slices_append (content : Bytes) (position : Nat) (first rest : List Nat) :
    slices content position (first ++ rest) = slices content position first ++
      slices content (position + (slices content position first).flatten.length) rest := by
  induction first generalizing position with
  | nil => rfl
  | cons size first ih =>
      rw [List.cons_append, slices, slices, ih, List.flatten_cons, List.length_append,
        length_take_min, Nat.add_assoc]
      rfl

/-- The first slices are those of the first buffers. -/
theorem take_slices (content : Bytes) (position count : Nat) (sizes : List Nat) :
    (slices content position sizes).take count = slices content position (sizes.take count) := by
  induction sizes generalizing position count with
  | nil => simp [slices]
  | cons size sizes ih =>
      cases count with
      | zero => rfl
      | succ count => rw [slices, List.take_succ_cons, ih, List.take_succ_cons, slices]

/-- Slices lie one behind the other, and never beyond the end. -/
theorem flatten_slices (inside : position ≤ content.length) (sizes : List Nat) :
    position + (slices content position sizes).flatten.length ≤ content.length ∧
      (slices content position sizes).flatten =
        (content.drop position).take (slices content position sizes).flatten.length := by
  induction sizes generalizing position with
  | nil => exact ⟨inside, rfl⟩
  | cons size sizes ih =>
      have within : position + min size (content.length - position) ≤ content.length := by omega
      obtain ⟨bounded, rest⟩ := ih within
      rw [slices, List.flatten_cons, List.length_append, length_take_min]
      refine ⟨by omega, ?_⟩
      rw [List.take_add, List.drop_drop, ← rest]

/-- A slice is as long as its buffer, or as what is left behind the slices before it. -/
theorem getElem?_slices {index size : Nat} (buffer : sizes[index]? = some size) :
    ∃ slice, (slices content 0 sizes)[index]? = some slice ∧
      slice.length =
        min size (content.length - ((slices content 0 sizes).take index).flatten.length) := by
  obtain ⟨short, rfl⟩ := List.getElem?_eq_some_iff.mp buffer
  have split : sizes = sizes.take index ++ sizes[index] :: sizes.drop (index + 1) := by
    rw [List.getElem_cons_drop, List.take_append_drop]
  have before : (slices content 0 (sizes.take index)).length = index := by
    rw [length_slices, List.length_take, Nat.min_eq_left (Nat.le_of_lt short)]
  have found : (slices content 0 sizes)[index]? =
      (slices content (slices content 0 (sizes.take index)).flatten.length
        (sizes[index] :: sizes.drop (index + 1)))[0]? := by
    conv_lhs => rw [split]
    rw [slices_append, Nat.zero_add, List.getElem?_append_right (Nat.le_of_eq before), before,
      Nat.sub_self]
  rw [found, take_slices]
  exact ⟨_, rfl, length_take_min content _ _⟩

/-! ## Reading -/

namespace UploadContent

/-- Reading delivers slices of the content behind the position of the reader. -/
theorem readChunks_eq_slices (here : source.ahead = content.drop position) (sizes : List Nat) :
    source.readChunks sizes = slices content position sizes := by
  induction sizes generalizing source position with
  | nil => rfl
  | cons size sizes ih =>
      have chunk : (source.readChunk size).1 =
          (content.drop position).take (min size (content.length - position)) := by
        rw [source.readChunk_fst, here, ← List.length_drop, ← List.take_eq_take_min]
      have moved : (source.readChunk size).2.ahead =
          content.drop (position + min size (content.length - position)) := by
        rw [source.ahead_readChunk, here, List.drop_drop]
        rcases Nat.le_total size (content.length - position) with short | long
        · rw [Nat.min_eq_left short]
        · -- The buffer takes all that is left, and nothing lies beyond it.
          rw [Nat.min_eq_right long, List.drop_of_length_le (by omega),
            List.drop_of_length_le (by omega)]
      change (source.readChunk size).1 :: (source.readChunk size).2.readChunks sizes = _
      rw [chunk, ih moved, slices]

/-! ## Reading to the end -/

/-- The chunks that a loop delivers which reads up to the first empty chunk, through buffers of one
size after the other. -/
inductive Drains : UploadContent → (sizes : Nat → Nat) → (chunks : List Bytes) → Prop
  | stop {source : UploadContent} {sizes : Nat → Nat}
      (ended : (source.readChunk (sizes 0)).1 = []) : Drains source sizes []
  | next {source : UploadContent} {sizes : Nat → Nat} {chunks : List Bytes}
      (going : (source.readChunk (sizes 0)).1 ≠ [])
      (rest : Drains (source.readChunk (sizes 0)).2 (fun read => sizes (read + 1)) chunks) :
      Drains source sizes ((source.readChunk (sizes 0)).1 :: chunks)

namespace Drains

/-- A loop ends in one way at most. -/
theorem unique {sizes : Nat → Nat} {chunks others : List Bytes}
    (drains : Drains source sizes chunks) (other : Drains source sizes others) :
    chunks = others := by
  induction drains generalizing others with
  | stop ended =>
      cases other with
      | stop => rfl
      | next going => exact (going ended).elim
  | next going _ ih =>
      cases other with
      | stop ended => exact (going ended).elim
      | next _ rest => rw [ih rest]

/-- A loop whose buffers have room delivers what lies ahead, in no more chunks than bytes. -/
theorem flatten_eq {sizes : Nat → Nat} {chunks : List Bytes}
    (drains : Drains source sizes chunks) (room : ∀ read, 1 ≤ sizes read) :
    chunks.flatten = source.ahead ∧ chunks.length ≤ source.ahead.length := by
  induction drains with
  | @stop source sizes ended =>
      rw [readChunk_fst] at ended
      have nothing : source.ahead = [] := by
        have positive := room 0
        exact (List.take_eq_nil_iff.mp ended).resolve_left (by omega)
      rw [nothing]
      exact ⟨rfl, Nat.le_refl _⟩
  | @next source sizes chunks going _ ih =>
      obtain ⟨rest, few⟩ := ih fun read => room (read + 1)
      have positive := List.length_pos_iff.mpr going
      rw [ahead_readChunk] at rest few
      rw [readChunk_fst] at going positive ⊢
      have parts := congrArg List.length (List.take_append_drop (sizes 0) source.ahead)
      rw [List.length_append] at parts
      rw [List.flatten_cons, rest, List.take_append_drop, List.length_cons]
      exact ⟨rfl, by omega⟩

end Drains

/-- What lies ahead gets shorter with every chunk that is not empty. -/
theorem length_ahead_readChunk_lt {size : Nat} (going : (source.readChunk size).1 ≠ []) :
    (source.readChunk size).2.ahead.length < source.ahead.length := by
  have positive := List.length_pos_iff.mpr going
  rw [readChunk_fst, List.length_take] at positive
  rw [ahead_readChunk, List.length_drop]
  omega

/-- Every loop ends. -/
theorem exists_drains (source : UploadContent) (sizes : Nat → Nat) :
    ∃ chunks, Drains source sizes chunks := by
  induction bound : source.ahead.length using Nat.strong_induction_on
    generalizing source sizes with
  | _ length ih =>
      by_cases ended : (source.readChunk (sizes 0)).1 = []
      · exact ⟨[], .stop ended⟩
      · obtain ⟨chunks, drains⟩ := ih _ (bound ▸ length_ahead_readChunk_lt ended)
          (source.readChunk (sizes 0)).2 (fun read => sizes (read + 1)) rfl
        exact ⟨_, .next ended drains⟩

/-- The loop of a delivery that does not break off is such a loop. Its bound on the reads is never
what ends it. -/
theorem exists_drains_deliver (source : UploadContent) (size : Nat) {reads : Nat}
    (behind : List Bytes) (enough : source.ahead.length < reads) :
    ∃ chunks, Drains source (fun _ => size) chunks ∧
      Upload.deliver size reads behind source none = ⟨behind.reverse ++ chunks, true⟩ := by
  induction reads generalizing source behind with
  | zero => cases enough
  | succ reads ih =>
      rw [Upload.deliver_going (by simp), ← source.readChunk_fst size]
      by_cases ended : (source.readChunk size).1 = []
      · exact ⟨[], .stop ended, by rw [if_pos ended, List.append_nil]⟩
      · have shorter := length_ahead_readChunk_lt ended
        obtain ⟨chunks, drains, delivered⟩ :=
          ih (source.readChunk size).2 ((source.readChunk size).1 :: behind) (by omega)
        refine ⟨_, .next ended drains, ?_⟩
        rw [if_neg ended, Option.map_none, delivered, List.reverse_cons, List.append_assoc,
          List.singleton_append]

end UploadContent

/-! ## Uploads -/

namespace Upload

open UploadContent (Drains)

/-- An upload delivers a content once, chunk after chunk. -/
structure ReadsOnce (upload : Upload) (content : Bytes) : Prop where
  /-- Reads with any buffers cut the content into slices, one behind the other. -/
  sliced : ∀ sizes, upload.content.readChunks sizes = slices content 0 sizes
  length_chunk : ∀ sizes index size, sizes[index]? = some size →
    ∃ chunk, (upload.content.readChunks sizes)[index]? = some chunk ∧
      chunk.length = min size
        (content.length - ((upload.content.readChunks sizes).take index).flatten.length)
  /-- What was delivered so far is the beginning of the content. -/
  delivered : ∀ sizes count,
    ((upload.content.readChunks sizes).take count).flatten =
      content.take ((upload.content.readChunks sizes).take count).flatten.length
  /-- A loop that reads up to the first empty chunk ends. -/
  ends : ∀ sizes : Nat → Nat, ∃! chunks, Drains upload.content sizes chunks
  /-- Buffers with room deliver everything, in at most as many chunks as there are bytes. -/
  whole : ∀ (sizes : Nat → Nat) (chunks : List Bytes), (∀ read, 1 ≤ sizes read) →
    Drains upload.content sizes chunks →
      chunks.flatten = content ∧ chunks.length ≤ content.length
  /-- The loop of the blob store is the one through buffers of a single size. -/
  delivery : ∀ size, (upload.delivery size).complete = true ∧
    Drains upload.content (fun _ => size) (upload.delivery size).chunks

/-- All that matters is that the content lies ahead, wherever it is kept. -/
theorem readsOnce_of_ahead {upload : Upload} {content : Bytes}
    (here : upload.content.ahead = content) (unbroken : upload.breaksAfter = none) :
    ReadsOnce upload content := by
  have sliced (sizes : List Nat) : upload.content.readChunks sizes = slices content 0 sizes :=
    UploadContent.readChunks_eq_slices (by rw [here, List.drop_zero]) sizes
  constructor
  · exact sliced
  · intro sizes index size buffer
    rw [sliced]
    exact getElem?_slices buffer
  · intro sizes count
    rw [sliced, take_slices]
    exact (flatten_slices (Nat.zero_le _) _).2
  · intro sizes
    obtain ⟨chunks, drains⟩ := UploadContent.exists_drains upload.content sizes
    exact ⟨chunks, drains, fun others other => other.unique drains⟩
  · intro sizes chunks room drains
    rw [← here]
    exact drains.flatten_eq room
  · intro size
    obtain ⟨chunks, drains, delivered⟩ :=
      UploadContent.exists_drains_deliver upload.content size [] (Nat.lt_succ_self _)
    rw [List.reverse_nil, List.nil_append, ← unbroken] at delivered
    rw [show upload.delivery size = ⟨chunks, true⟩ from delivered]
    exact ⟨rfl, drains⟩

/-- Uploads of one content deliver it once, chunk after chunk, and all in the same chunks: one that
is held in memory, and one that was spooled to a file at any position. -/
theorem readsOnce_heldAndSpooled (filename : String) (contentType : Option String)
    (spooled : SpooledContent) :
    ReadsOnce (ofHeld filename contentType spooled.content) spooled.content ∧
      ReadsOnce (ofSpooled filename contentType spooled) spooled.content ∧
      ∀ sizes, (ofHeld filename contentType spooled.content).content.readChunks sizes =
        (ofSpooled filename contentType spooled).content.readChunks sizes := by
  have held : ReadsOnce (ofHeld filename contentType spooled.content) spooled.content :=
    readsOnce_of_ahead rfl rfl
  have rewound : ReadsOnce (ofSpooled filename contentType spooled) spooled.content :=
    readsOnce_of_ahead rfl rfl
  exact ⟨held, rewound, fun sizes => (held.sliced sizes).trans (rewound.sliced sizes).symm⟩

/-- A file that was read to its end is read from its start; a buffer without room takes nothing. -/
example : (ofSpooled "a.png" none ⟨[1, 2, 3], []⟩).content.readChunks [2, 0, 5] =
    [[1, 2], [], [3]] :=
  rfl

end Upload

end ImageGallery
