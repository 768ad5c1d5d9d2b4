import ImageGallery.Image

/-!
# Ranks

Images are ranked from zero on by a wanted position, images of one position by id. A plan lists
the images whose position is not their rank, so carrying it out leaves the ranks as positions and
touches nothing else.
-/

namespace ImageGallery

/-- Ranking order: by wanted position, and images of one position by id. -/
def ranksBefore (effective : ImageRecord → Nat) (first second : ImageRecord) : Bool :=
  effective first < effective second ||
    (effective first = effective second && first.id ≤ second.id)

/-- Images in ranking order. -/
def rankedBy (effective : ImageRecord → Nat) (images : List ImageRecord) : List ImageRecord :=
  images.mergeSort (ranksBefore effective)

/-- The ranks from the given one on of those images in a list whose position differs. -/
def changedRanks (rank : Nat) : List ImageRecord → List (Int × UInt32)
  | [] => []
  | image :: images =>
    if image.sortOrder = rank.toUInt32 then changedRanks (rank + 1) images
    else (image.id, rank.toUInt32) :: changedRanks (rank + 1) images

/-- The images whose position has to change, in ascending rank, each with its rank. -/
def planRanks (images : List ImageRecord) (effective : ImageRecord → Nat) : List (Int × UInt32) :=
  changedRanks 0 (rankedBy effective images)

end ImageGallery
