import Rollout.Text.Utf8

/-! Environment variables. A value is a sequence of bytes, which need not be a text. -/

namespace Rollout

structure Environment where
  bindings : List (String × Bytes) := []
  deriving DecidableEq

namespace Environment

def get? (e : Environment) (name : String) : Option Bytes :=
  (e.bindings.find? (·.1 == name)).map (·.2)

def text? (e : Environment) (name : String) : Option String :=
  (e.get? name).bind Utf8.decode?

def unset (e : Environment) (name : String) : Environment :=
  { bindings := e.bindings.filter (·.1 != name) }

def set (e : Environment) (name : String) (value : Bytes) : Environment :=
  { bindings := (name, value) :: (e.unset name).bindings }

end Environment

end Rollout
