import ImageGallery.Text.Integer

/-!
# Counters

What the program counts while it runs: operations and their outcomes, images, bytes and requests.
A counter only ever grows.
-/

namespace ImageGallery

/-- The operations that change a gallery. -/
inductive Operation where
  | upload
  | delete
  | setCover
  | reorder
deriving DecidableEq, Inhabited

/-- The name of an operation in a counter's label. -/
def Operation.name : Operation → String
  | upload => "upload"
  | delete => "delete"
  | setCover => "set_cover"
  | reorder => "reorder"

/-- A counter: what it counts, and its labels. -/
inductive Counter where
  /-- Operations, by outcome. -/
  | operations (operation : Operation) (succeeded : Bool)
  /-- Images that uploads added. -/
  | imagesUploaded
  /-- Files that were left out because a gallery was nearly full. -/
  | imagesTruncated
  /-- Bytes in saved files. -/
  | blobBytesWritten
  /-- Deleted images whose file was not removed. -/
  | blobDeleteFailures
  /-- Requests, by method, path label and status. -/
  | httpRequests (method path : String) (status : Nat)
  /-- Measured durations of requests, by method and path label. -/
  | httpDurations (method path : String)
deriving DecidableEq, Inhabited

namespace Counter

/-- A label and its value. -/
def label (name value : String) : String :=
  name ++ "=\"" ++ value ++ "\""

/-- A counter's labels between braces. -/
def labels (labels : List String) : String :=
  "\x7b" ++ ",".intercalate labels ++ "\x7d"

/-- A counter's name with its labels. -/
def name : Counter → String
  | operations operation succeeded =>
    "vitrine_gallery_operations_total" ++ labels
      [label "operation" operation.name, label "status" (if succeeded then "ok" else "error")]
  | imagesUploaded => "vitrine_images_uploaded_total"
  | imagesTruncated => "vitrine_images_truncated_total"
  | blobBytesWritten => "vitrine_blob_bytes_written_total"
  | blobDeleteFailures => "vitrine_blob_delete_failures_total"
  | httpRequests method path status =>
    "vitrine_http_requests_total" ++ labels
      [label "method" method, label "path" path, label "status" (toString status)]
  | httpDurations method path =>
    "vitrine_http_request_duration_seconds_count" ++ labels
      [label "method" method, label "path" path]

end Counter

/-- The values of all counters; one without an entry stands at zero. -/
structure Counters where
  entries : List (Counter × Nat) := []
deriving DecidableEq, Inhabited

namespace Counters

/-- The value of a counter. -/
def value (counters : Counters) (counter : Counter) : Nat :=
  ((counters.entries.find? fun entry => entry.1 = counter).map (·.2)).getD 0

/-- Raise a counter. -/
def add (counters : Counters) (counter : Counter) (amount : Nat) : Counters :=
  ⟨(counter, counters.value counter + amount) ::
    counters.entries.filter fun entry => entry.1 ≠ counter⟩

/-- The counters that grew, in the order of their names. -/
def grown (counters : Counters) : List (String × Nat) :=
  ((counters.entries.filter fun entry => 0 < entry.2).map
    fun entry => (entry.1.name, entry.2)).mergeSort fun first second => first.1 ≤ second.1

@[simp]
theorem value_add_self (counters : Counters) (counter : Counter) (amount : Nat) :
    (counters.add counter amount).value counter = counters.value counter + amount := by
  simp [add, value]

theorem value_add_of_ne (counters : Counters) {counter other : Counter} (amount : Nat)
    (differ : other ≠ counter) :
    (counters.add counter amount).value other = counters.value other := by
  have unnamed : ¬counter = other := fun same => differ same.symm
  simp only [value, add, List.find?_cons, unnamed, decide_false, List.find?_filter]
  congr 3
  funext entry
  by_cases named : entry.1 = other <;> simp [named, differ]

end Counters

end ImageGallery
