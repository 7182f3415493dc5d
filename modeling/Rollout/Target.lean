import Rollout.Duration
import Rollout.Path

/-! Remote endpoints: where an archive is shipped to and how its host key is treated. -/

namespace Rollout

inductive HostKeyPolicy
  | allowAny
  | trustOnFirstUse
  | strict (knownHosts : Path)
  deriving DecidableEq

def HostKeyPolicy.label : HostKeyPolicy → String
  | .allowAny => "allow-any"
  | .trustOnFirstUse => "trust-on-first-use"
  | .strict _ => "strict"

structure Target where
  name : String
  host : String
  port : UInt16 := 22
  user : Option String := none
  /-- Zero means no limit. -/
  connectTimeout : Duration := .zero
  hostKeyPolicy : HostKeyPolicy := .allowAny
  deriving DecidableEq

/-- What two targets must agree on to share a session. -/
structure Target.Key where
  host : String
  port : UInt16
  user : Option String
  deriving DecidableEq

namespace Target

def key (t : Target) : Key := ⟨t.host, t.port, t.user⟩

instance : ToString Target where
  toString t := match t.user with
    | some user => t.name ++ "[" ++ user ++ "@" ++ t.host ++ ":" ++ toString t.port.toNat ++ "]"
    | none => t.name ++ "[" ++ t.host ++ ":" ++ toString t.port.toNat ++ "]"

def Key.compare (a b : Key) : Ordering :=
  (Ord.compare a.host b.host).then <| (Ord.compare a.port.toNat b.port.toNat).then <|
    match a.user, b.user with
    | none, none => .eq
    | none, some _ => .lt
    | some _, none => .gt
    | some u, some v => Ord.compare u v

end Target

end Rollout
