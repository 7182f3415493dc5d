/-!
Addresses of four bytes, as they are written: one to four numbers with points between them, the last
of which fills what is left. A number is decimal, octal behind a zero, or hexadecimal behind `0x`.
-/

namespace Rollout.Rehearsal

structure Ipv4 where
  number : Nat
  deriving DecidableEq

namespace Ipv4

def text (a : Ipv4) : String :=
  ".".intercalate ([16777216, 65536, 256, 1].map fun unit => toString (a.number / unit % 256))

def digits? (base : Nat) (cs : List Char) : Option Nat :=
  cs.foldlM (fun n c =>
    let d := if c.isDigit then c.toNat - 48 else c.toLower.toNat - 87
    if (c.isDigit || c.isAlpha) && d < base then some (n * base + d) else none) 0

def number? : List Char → Option Nat
  | '0' :: 'x' :: d :: r | '0' :: 'X' :: d :: r => digits? 16 (d :: r)
  | '0' :: r => digits? 8 r
  | d :: r => digits? 10 (d :: r)
  | [] => none

/-- Fills the `room` that is left, of so many values, with numbers. -/
def fill? (room filled : Nat) : List (List Char) → Option Nat
  | [] => none
  | [last] => do
    let n ← number? last
    if n < room then some (filled * room + n) else none
  | part :: rest => do
    let n ← number? part
    if n < 256 then fill? (room / 256) (filled * 256 + n) rest else none

def parse? (cs : List Char) : Option Ipv4 :=
  let parts := cs.splitOn '.'
  if parts.length ≤ 4 then (fill? 4294967296 0 parts).map Ipv4.mk else none

end Ipv4

end Rollout.Rehearsal
