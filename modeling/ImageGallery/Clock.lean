import ImageGallery.Text.Integer

/-!
# Time

Wall-clock readings in microseconds since the start of 1970, and their text in the Gregorian
calendar. A clock is a sequence of readings, of which nothing is assumed: it may stall or go back.
-/

namespace ImageGallery

/-- A sequence of wall-clock readings, and how many of them were taken. -/
structure Clock where
  /-- The readings in microseconds since the start of 1970. -/
  reading : Nat → Nat
  taken : Nat := 0

namespace Clock

/-- Year, month and day of a day counted from the start of 1970. Years are counted from March in
eras of 400 years, which all have the same number of days. -/
def civil (day : Nat) : Nat × Nat × Nat :=
  let shifted := day + 719468
  let era := shifted / 146097
  let dayOfEra := shifted % 146097
  let yearOfEra := (dayOfEra - dayOfEra / 1460 + dayOfEra / 36524 - dayOfEra / 146096) / 365
  let dayOfYear := dayOfEra - (365 * yearOfEra + yearOfEra / 4 - yearOfEra / 100)
  let monthFromMarch := (5 * dayOfYear + 2) / 153
  let dayOfMonth := dayOfYear - (153 * monthFromMarch + 2) / 5 + 1
  let month := if monthFromMarch < 10 then monthFromMarch + 3 else monthFromMarch - 9
  (yearOfEra + era * 400 + (if month ≤ 2 then 1 else 0), month, dayOfMonth)

/-- A reading as date and time with milliseconds, such as `2026-01-02T03:04:05.678Z`. -/
def timestamp (micros : Nat) : String :=
  let milliseconds := micros / 1000
  let seconds := milliseconds / 1000
  let (year, month, day) := civil (seconds / 86400)
  String.ofList <|
    Text.paddedText 4 year ++ '-' :: Text.paddedText 2 month ++ '-' :: Text.paddedText 2 day
      ++ 'T' :: Text.paddedText 2 (seconds / 3600 % 24)
      ++ ':' :: Text.paddedText 2 (seconds / 60 % 60)
      ++ ':' :: Text.paddedText 2 (seconds % 60)
      ++ '.' :: Text.paddedText 3 (milliseconds % 1000) ++ ['Z']

/-- The next reading, and the clock after it was taken. -/
def tick (clock : Clock) : Nat × Clock :=
  (clock.reading clock.taken, { clock with taken := clock.taken + 1 })

/-- The present time as text, and the clock after it was read. -/
def now (clock : Clock) : String × Clock :=
  let (micros, clock) := clock.tick
  (timestamp micros, clock)

end Clock

end ImageGallery
