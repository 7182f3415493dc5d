/-! Spans of time. -/

namespace Rollout

structure Duration where
  nanoseconds : Nat
  deriving DecidableEq

namespace Duration

def zero : Duration := ⟨0⟩

def ofMillis (milliseconds : Nat) : Duration := ⟨milliseconds * 1000000⟩

/-- The whole milliseconds of a span; what is left of it is dropped. -/
def millis (d : Duration) : Nat := d.nanoseconds / 1000000

end Duration

end Rollout
