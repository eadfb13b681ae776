import Mathlib.Algebra.Ring.Nat
namespace Sumidero

/-- A monotonic instant in nanoseconds, at most 2^63 seconds from the clock's origin. -/
structure Instant where
  nanos : Nat
  inRange : nanos < 2 ^ 63 * 1000000000
deriving Repr, DecidableEq

namespace Instant

/-- `duration_since(earlier).as_secs()`: whole seconds, zero when `earlier` is later. -/
def secsSince (now earlier : Instant) : Nat := (now.nanos - earlier.nanos) / 1000000000

theorem secsSince_lt (now earlier : Instant) : now.secsSince earlier < 2 ^ 63 := by
  have bound := now.inRange
  simp only [secsSince]
  omega

end Instant

def U64_MAX : Nat := 2 ^ 64 - 1

/-- `u64::saturating_add`. -/
def saturatingAdd (a b : Nat) : Nat := min (a + b) U64_MAX

/-- Below the saturation point, a saturated sum bounds what the sum does. -/
theorem saturatingAdd_le_iff {a b bound : Nat} (small : bound < U64_MAX) :
    saturatingAdd a b ≤ bound ↔ a + b ≤ bound := by
  simp only [saturatingAdd]
  omega

end Sumidero
