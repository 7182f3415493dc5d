import Rollout.Text.Utf8

/-!
What a peer says before its first packet. Any lines may come before the one that names the protocol,
and a line that gets too long counts as several.
-/

namespace Rollout.Rehearsal

inductive Greeting
  | named
  | broken
  | ended
  deriving DecidableEq

namespace Greeting

def mark : Bytes := Utf8.encode "SSH-"

def longestLine : Nat := 256

/-- Looks through what a peer says; `begun` is the line so far, read backwards. -/
def search (begun : Bytes) : Bytes → Greeting
  | [] => .ended
  | b :: rest =>
    if begun.isEmpty && (b = 13 || b = 10) then search [] rest
    else if b = 0 then .broken
    else if b = 10 || begun.length + 1 = longestLine then
      if mark.isPrefixOf (b :: begun).reverse then .named else search [] rest
    else search (b :: begun) rest

end Greeting

end Rollout.Rehearsal
