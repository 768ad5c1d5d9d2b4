import ImageGallery.Text.Utf8

/-!
# Heads of database files

The first page of a file says whether the file is a database, and how its pages are laid out. It
starts with a mark and numbers, some of which have to be what they are; the root of the tables
follows them. Bytes after the end of a file count as zero.
-/

namespace ImageGallery

/-- What the first page of a file says. -/
inductive DatabaseHead where
  /-- The file holds something else. -/
  | foreign
  /-- The pages are not what the first one says about them. -/
  | damaged
  /-- The tables are written in a way of later times. -/
  | unsupported
  /-- There are no tables yet, and none may be made. -/
  | frozen
  /-- There are no tables yet. `hasRoom` says whether the root has room for them. -/
  | blank (hasRoom : Bool)
deriving DecidableEq, Inhabited

namespace DatabaseHead

/-- The mark at the start of a database. -/
def mark : Bytes :=
  Text.encode "SQLite format 3\x00"

/-- The number in some bytes, the most significant one first. -/
def number (bytes : Bytes) (start width : Nat) : Nat :=
  (List.range width).foldl
    (fun value index => 256 * value + (bytes.getD (start + index) 0).toNat) 0

/-- The sizes that pages may have. -/
def pageSizes : List Nat :=
  [512, 1024, 2048, 4096, 8192, 16384, 32768, 65536]

/-- The size of the pages. The greatest one has no room in its bytes, and is written as one. -/
def pageSize (bytes : Bytes) : Nat :=
  if number bytes 16 2 = 1 then 65536 else number bytes 16 2

/-- The number of bytes in a page that hold tables. -/
def usableSize (bytes : Bytes) : Nat :=
  pageSize bytes - number bytes 20 1

/-- The number of pages in the file, the last of which may be cut short. -/
def pagesThere (bytes : Bytes) : Nat :=
  (bytes.length + pageSize bytes - 1) / pageSize bytes

/-- The number of pages that there should be, which counts only if it was written with the last
change. -/
def pagesWanted (bytes : Bytes) : Nat :=
  if number bytes 28 4 = 0 ∨ number bytes 24 4 ≠ number bytes 92 4 then pagesThere bytes
  else number bytes 28 4

/-- Whether the fields of the head have values that they may have. -/
def isDatabase (bytes : Bytes) : Bool :=
  mark.isPrefixOf bytes && number bytes 19 1 ≤ 2 && number bytes 21 3 = 0x402020 &&
    pageSizes.contains (pageSize bytes)

/-- Whether the root of the tables is a page without entries. -/
def hasBlankRoot (bytes : Bytes) : Bool :=
  number bytes 100 1 = 13 && number bytes 103 2 = 0

/-- Whether entries can be added to a root without entries: there is no list of gaps, and what
counts as free ends inside the page. -/
def hasRoom (bytes : Bytes) : Bool :=
  let start := if number bytes 105 2 = 0 then 65536 else number bytes 105 2
  let free := start + number bytes 107 1
  number bytes 101 2 = 0 && 108 ≤ free && free ≤ usableSize bytes

/-- What the first page of a file says. -/
def ofBytes (bytes : Bytes) : DatabaseHead :=
  if !isDatabase bytes then foreign
  else if pagesThere bytes < pagesWanted bytes then damaged
  else if usableSize bytes < 480 then foreign
  else if 4 < number bytes 44 4 then unsupported
  else if !hasBlankRoot bytes then damaged
  else if 2 < number bytes 18 1 then frozen
  else blank (hasRoom bytes)

end DatabaseHead

end ImageGallery
