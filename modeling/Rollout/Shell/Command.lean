import Rollout.Shell.Quote

/-!
The command lines a deploy sends. Every value put into one is quoted; the lockout script alone
stands as configured, so that a leading tilde still expands on the remote side.
-/

namespace Rollout.Shell.Command

def lockoutClaim (script domain shard holder : String) (minutes : UInt32) (note : String) : String :=
  script ++ " " ++ quote domain ++ " claim " ++ quote shard ++ " " ++ quote holder ++ " " ++
    toString minutes.toNat ++ " " ++ quote note

def lockoutCheck (script domain shard : String) : String :=
  script ++ " " ++ quote domain ++ " check " ++ quote shard

/-- Removes every archive of the base name in a directory. The wildcard stays unquoted. -/
def clean (dir base : String) : String :=
  "cd " ++ quote dir ++ " && rm -f " ++ quote base ++ "*.jar"

def relink (dir link archive : String) : String :=
  "cd " ++ quote dir ++ " && rm -f " ++ quote link ++ ".jar && ln -s " ++ quote archive ++ " " ++
    quote link ++ ".jar"

def withoutSlashes (dir : List Char) : List Char := (dir.reverse.dropWhile (· == '/')).reverse

/-- A directory and a file name joined by exactly one slash. -/
def joinRemote (dir file : String) : String :=
  .ofList (withoutSlashes dir.toList ++ '/' :: file.toList)

end Rollout.Shell.Command
