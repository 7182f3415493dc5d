import Rollout.Discovery
import Rollout.Plan.Standard

/-!
Finding the plan to use: the one asked for, else the first candidate that exists, else the built-in
one. A candidate that cannot be looked at, or a plan that cannot be used, is an error and never
passed over.
-/

namespace Rollout.Plan

def discovery : Discovery where
  override := "SHARDEPLOY_PLAN_PATH"
  directory := "shardeploy"
  stem := "shardeploy-plan"

def split (path : Path) : Except Error (Path × String) :=
  match path.fileName with
  | none => .error (.io path .noFileName)
  | some name => .ok ((path.parent.filter (!·.text.isEmpty)).getD ⟨"."⟩, name)

/-- Whether there is a file at a path. A missing directory holds none. -/
def exists? (files : FileSystem) (path : Path) : Except Error Bool := do
  let (parent, name) ← split path
  match files.openDirectory parent with
  | .error .notFound => return false
  | .error fault => .error (.io parent fault)
  | .ok directory => (files.hasEntry directory name).mapError (.io path)

def read (files : FileSystem) (path : Path) : Except Error String := do
  let (parent, name) ← split path
  let directory ← (files.openDirectory parent).mapError (.io parent)
  (files.readEntry directory name).mapError (.io path)

def locate (files : FileSystem) : (candidates : List Path) → Except Error (Option Path)
  | [] => .ok none
  | path :: rest => do
    if ← exists? files path then return some path else locate files rest

def load (files : FileSystem) (path : Path) : Except Error Plan := do
  parse (.file path) (← read files path)

/-- The plan asked for, else the first one found, else the built-in one. -/
def choose (files : FileSystem) (candidates : List Path) (asked : Option Path) :
    Except Error Plan := do
  match asked with
  | some path => load files path
  | none =>
    match ← locate files candidates with
    | some path => load files path
    | none => standard

end Rollout.Plan
