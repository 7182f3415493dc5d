/-!
Reading text out of bytes. `decode` is lossy: each maximal run of bytes that begins a character but
does not finish it becomes one replacement character. `isValid` holds when there is no such run.
-/

namespace Rollout

abbrev Bytes := List UInt8

namespace Utf8

def encode (s : String) : Bytes := s.toUTF8.toList

/-- What a lead byte announces: how many bytes follow it, the range of the first of them, and the
bits it contributes. -/
def lead? (b : UInt8) : Option (Nat × UInt8 × UInt8 × Nat) :=
  if b < 0x80 then some (0, 0, 0, b.toNat)
  else if 0xC2 ≤ b && b ≤ 0xDF then some (1, 0x80, 0xBF, b.toNat - 0xC0)
  else if b = 0xE0 then some (2, 0xA0, 0xBF, 0)
  else if b = 0xED then some (2, 0x80, 0x9F, 13)
  else if 0xE1 ≤ b && b ≤ 0xEF then some (2, 0x80, 0xBF, b.toNat - 0xE0)
  else if b = 0xF0 then some (3, 0x90, 0xBF, 0)
  else if 0xF1 ≤ b && b ≤ 0xF3 then some (3, 0x80, 0xBF, b.toNat - 0xF0)
  else if b = 0xF4 then some (3, 0x80, 0x8F, 4)
  else none

def tail : (n : Nat) → (lo hi : UInt8) → (value : Nat) → Bytes → Option Nat × Bytes
  | 0, _, _, value, rest => (some value, rest)
  | _ + 1, _, _, _, [] => (none, [])
  | n + 1, lo, hi, value, b :: rest =>
    if lo ≤ b && b ≤ hi then tail n 0x80 0xBF (value * 64 + (b.toNat - 0x80)) rest
    else (none, b :: rest)

theorem length_tail (n : Nat) (lo hi : UInt8) (value : Nat) (bs : Bytes) :
    (tail n lo hi value bs).2.length ≤ bs.length := by
  induction bs generalizing n lo hi value with
  | nil => cases n <;> simp [tail]
  | cons b rest ih =>
    cases n with
    | zero => simp [tail]
    | succ n =>
      simp only [tail]
      split
      · exact Nat.le_succ_of_le (ih ..)
      · simp

/-- The characters of a byte sequence; `none` stands for a run that is not a character. -/
def pieces : Bytes → List (Option Char)
  | [] => []
  | b :: rest =>
    match lead? b with
    | none => none :: pieces rest
    | some (n, lo, hi, value) =>
      (tail n lo hi value rest).1.map Char.ofNat :: pieces (tail n lo hi value rest).2
termination_by bs => bs.length
decreasing_by
  · simp
  · exact Nat.lt_succ_of_le (length_tail ..)

def replacement : Char := Char.ofNat 0xFFFD

def decode (bs : Bytes) : String := .ofList ((pieces bs).map (·.getD replacement))

def isValid (bs : Bytes) : Bool := (pieces bs).all Option.isSome

def decode? (bs : Bytes) : Option String := if isValid bs then some (decode bs) else none

end Utf8

end Rollout
