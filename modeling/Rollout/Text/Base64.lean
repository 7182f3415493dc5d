import Rollout.Text.Utf8

/-! Bytes written with sixty-four characters, four for three bytes. -/

namespace Rollout.Base64

def alphabet : List Char :=
  "ABCDEFGHIJKLMNOPQRSTUVWXYZabcdefghijklmnopqrstuvwxyz0123456789+/".toList

def sextet? (c : Char) : Option Nat := alphabet.findIdx? (· == c)

def octets (a b c d count : Nat) : Bytes :=
  let word := ((a * 64 + b) * 64 + c) * 64 + d
  [(word / 65536).toUInt8, (word / 256).toUInt8, word.toUInt8].take count

/-- Reads a written text back; only the last group may be padded. -/
def decode? : List Char → Option Bytes
  | [] => some []
  | [a, b, '=', '='] => return octets (← sextet? a) (← sextet? b) 0 0 1
  | [a, b, c, '='] => return octets (← sextet? a) (← sextet? b) (← sextet? c) 0 2
  | a :: b :: c :: d :: rest => do
    let head := octets (← sextet? a) (← sextet? b) (← sextet? c) (← sextet? d) 3
    return head ++ (← decode? rest)
  | _ => none

/-- The bytes of sextets; a last group of two or three stands for itself. -/
def ofSextets? : List Nat → Option Bytes
  | [] => some []
  | [_] => none
  | [a, b] => some (octets a b 0 0 1)
  | [a, b, c] => some (octets a b c 0 2)
  | a :: b :: c :: d :: rest => (ofSextets? rest).map (octets a b c d 3 ++ ·)

def sift? (cs : List Char) : Option Bytes := ofSextets? (cs.filterMap sextet?)

end Rollout.Base64
