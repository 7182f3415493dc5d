import Rollout.Task
import Rollout.Text.Json

/-! How the tasks of a plan are listed: in columns under the headings of their groups, or as JSON. -/

namespace Rollout.CommandLine

def column (width : Nat) (s : String) : String := s ++ "".pushn ' ' (width - s.length)

def rowText (row : Task.Listing) : String :=
  "  " ++ column 20 row.name ++ " " ++ column 10 row.remote ++ " " ++ column 13 row.mode ++ " " ++
    row.lock.getD "no lockout" ++ "\n"

def rowsText (group : Option String) : List Task.Listing → String
  | [] => ""
  | row :: rest =>
    (if group = some row.group then "" else row.group ++ ":\n") ++ rowText row ++
      rowsText (some row.group) rest

def rowJson (row : Task.Listing) : Text.Json :=
  .object [("name", .text row.name), ("group", .text row.group), ("remote", .text row.remote),
    ("mode", .text row.mode), ("paths", .array (row.paths.map .text)),
    ("lock", (row.lock.map .text).getD .null)]

def listingText (asJson : Bool) (rows : List Task.Listing) : String :=
  if asJson then (Text.Json.array (rows.map rowJson)).render "" ++ "\n" else rowsText none rows

end Rollout.CommandLine
