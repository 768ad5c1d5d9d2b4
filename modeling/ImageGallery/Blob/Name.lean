import ImageGallery.MediaType
import ImageGallery.Text.Integer

/-!
# Names of stored files

A stored file is named `<micros>-<index>-<suffix>.<extension>`: a time in microseconds, the index
of the file in its upload, and four random digits to the base 16. The times of all names strictly
increase, however the wall clock behaves, so no two names are equal.
-/

namespace ImageGallery.Blob

/-- What is drawn from the outside for one stored file. -/
structure Draw where
  /-- A wall-clock reading in microseconds. -/
  micros : Nat
  /-- A random number of 16 bits. -/
  suffix : UInt16
  /-- A random name for the temporary file. -/
  temporary : String
deriving DecidableEq, Inhabited

/-- The source of names: the draws to come, and the time in the last name. -/
structure NameSource where
  draws : Nat → Draw
  taken : Nat := 0
  lastMicros : Nat := 0

namespace NameSource

/-- The next draw. Its time is moved past that of the last name where it is not later. -/
def next (source : NameSource) : Draw × NameSource :=
  let draw := source.draws source.taken
  let micros := max draw.micros (source.lastMicros + 1)
  ({ draw with micros }, { source with taken := source.taken + 1, lastMicros := micros })

/-- The time in a name is later than that in the name before. -/
theorem lastMicros_lt_next (source : NameSource) :
    source.lastMicros < source.next.1.micros :=
  Nat.lt_of_lt_of_le (Nat.lt_succ_self _) (Nat.le_max_right _ _)

@[simp]
theorem lastMicros_next (source : NameSource) :
    source.next.2.lastMicros = source.next.1.micros :=
  rfl

end NameSource

/-- The name of a stored file. -/
def filename (draw : Draw) (index : Nat) (media : MediaType) : String :=
  String.ofList <|
    Text.naturalText draw.micros ++ '-' :: Text.naturalText index
      ++ '-' :: Text.hexText 4 draw.suffix.toNat ++ '.' :: media.extension.toList

/-- The name of the temporary file that a draw provides for. -/
def temporaryName (draw : Draw) : String :=
  "tmp-" ++ draw.temporary

end ImageGallery.Blob
