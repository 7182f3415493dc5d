/-!
Editions of the format. Later readers are more lenient than earlier ones, and every reader bounds how
deep a document may nest.
-/

namespace Rollout.Toml

structure Edition where
  /-- Whether a string may name a character by two digits, a time may leave out its seconds, and the
  entries of an inline table may lie on several lines. -/
  lenient : Bool
  /-- How many lists and inline tables may stand inside each other. -/
  nesting : Nat
  /-- How many names a dotted key may have. -/
  keyLength : Nat

namespace Edition

def first : Edition := ⟨false, 79, 79⟩

def second : Edition := ⟨true, 80, 80⟩

end Edition

end Rollout.Toml
