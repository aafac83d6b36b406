/-
# Wall-clock instants and durations

`SystemTime` on Linux is a signed 64-bit number of seconds with a nanosecond
part, and a duration is an unsigned 64-bit number of seconds with one.  Both
are kept here as one number of nanoseconds; the bounds of the two
representations reappear in the operations that check them.
-/

import Mathlib.Algebra.Group.Int.Defs
import Mathlib.Data.Int.Notation
import Mathlib.Data.Nat.Notation

namespace GitEventsRunner.Lib

/-- Nanoseconds in a second. -/
def nanosPerSec : ℕ := 1000000000

/-- A length of time in nanoseconds. -/
abbrev Duration := ℕ

namespace Duration

/-- `Duration::from_secs` -/
def fromSecs (secs : ℕ) : Duration := secs * nanosPerSec

end Duration

/-- An instant in nanoseconds since the Unix epoch. -/
abbrev SystemTime := ℤ

namespace SystemTime

/-- The number of whole seconds fits the signed 64-bit field. -/
def Representable (t : SystemTime) : Prop :=
  -2 ^ 63 ≤ t / nanosPerSec ∧ t / nanosPerSec < 2 ^ 63

instance (t : SystemTime) : Decidable t.Representable :=
  inferInstanceAs (Decidable (_ ∧ _))

/-- `SystemTime::checked_add`: the sum, unless its seconds leave the field. -/
def checkedAdd (t : SystemTime) (d : Duration) : Option SystemTime :=
  if Representable (t + d) then some (t + d) else none

theorem eq_add_of_checkedAdd {t u : SystemTime} {d : Duration} (h : t.checkedAdd d = some u) :
    u = t + d := by
  rw [checkedAdd] at h
  split at h
  · exact (Option.some.inj h).symm
  · cases h

/-- From an instant after the epoch, whole seconds reach another instant exactly if
the sum of the seconds fits the field. -/
theorem representable_add_fromSecs {t : ℤ} (h : 0 ≤ t) (secs : ℕ) :
    Representable (t + Duration.fromSecs secs) ↔ t / nanosPerSec + secs < 2 ^ 63 := by
  have hnanos : (nanosPerSec : ℤ) = 1000000000 := rfl
  have hsecs : (Duration.fromSecs secs : ℤ) = secs * 1000000000 := Int.natCast_mul secs _
  show -2 ^ 63 ≤ (t + (Duration.fromSecs secs : ℤ)) / (nanosPerSec : ℤ) ∧
    (t + (Duration.fromSecs secs : ℤ)) / (nanosPerSec : ℤ) < 2 ^ 63 ↔ _
  rw [hsecs, hnanos]
  omega

theorem isSome_checkedAdd_fromSecs {t : SystemTime} (h : 0 ≤ t) (secs : ℕ) :
    (t.checkedAdd (Duration.fromSecs secs)).isSome ↔ t / nanosPerSec + secs < 2 ^ 63 := by
  rw [← representable_add_fromSecs h secs, checkedAdd]
  split
  · next hrepr => exact iff_of_true rfl hrepr
  · next hrepr => exact iff_of_false nofun hrepr

/-- `SystemTime::duration_since`: fails when `earlier` is in fact later. -/
def durationSince (t earlier : SystemTime) : Option Duration :=
  if earlier ≤ t then some (t - earlier).toNat else none

end SystemTime

end GitEventsRunner.Lib
