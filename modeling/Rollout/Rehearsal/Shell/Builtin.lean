import Rollout.Rehearsal.Shell.Condition
import Rollout.Rehearsal.Shell.Format
import Rollout.Rehearsal.Shell.Session
import Rollout.Rehearsal.Shell.Signal

/-! Commands that belong to a shell itself, since they look at it or change it. -/

namespace Rollout.Rehearsal.Shell

/-- Commands whose faults end the shell, and whose assignments stay. -/
def specialBuiltins : List String :=
  [".", ":", "break", "continue", "eval", "exec", "exit", "export", "readonly", "return", "set", "shift",
   "times", "trap", "unset"]

def otherBuiltins : List String :=
  ["[", "alias", "bg", "cd", "command", "echo", "false", "fg", "getopts", "hash", "jobs", "kill", "local",
   "printf", "pwd", "read", "test", "true", "type", "ulimit", "umask", "unalias", "wait"]

def quoted (text : String) : String := "'" ++ "'\\''".intercalate (text.splitOn "'") ++ "'"

def reasonOf (fault : FileSystem.Fault) : String := (fault.message.splitOn " (").headD ""

namespace Session

def refuse (s : Session) (text : String) : Session := (s.complain text).withStatus 2

def count (s : Session) (name text : String) (next : Nat → Session) : Session :=
  if !text.isEmpty && text.toList.all Char.isDigit then next (text.toNat?.getD 0)
  else s.fail (name ++ ": Illegal number: " ++ text)

def exit (s : Session) (args : List String) : Session :=
  match args with
  | [] => s.endWith s.status
  | text :: _ => s.count "exit" text fun n => s.endWith (n % 256)

def returnWith (s : Session) (args : List String) : Session :=
  match args with
  | [] => { s with flow := .returned }
  | text :: _ => s.count "return" text fun n => { s with status := n, flow := .returned }

def leave (s : Session) (name : String) (again : Bool) (args : List String) : Session :=
  let text := args.headD "1"
  s.count name text fun n =>
    if n = 0 then s.fail (name ++ ": Illegal number: " ++ text)
    else if s.loops = 0 then s.withStatus 0
    else { s with status := 0, flow := .leaving (min n s.loops) again }

def shift (s : Session) (args : List String) : Session :=
  s.count "shift" (args.headD "1") fun n =>
    if s.args.length < n then s.fail "shift: can't shift that many"
    else { s with args := s.args.drop n, status := 0 }

def assigned (arg : String) : String × Option String :=
  let name := arg.toList.takeWhile (· != '=')
  (.ofList name, if name.length < arg.length then some (arg.drop (name.length + 1)).toString else none)

def mark (s : Session) (command : String) (args : List String) (each : Session → String → Session) :
    Session :=
  args.foldl (fun s arg =>
    let (name, value) := assigned arg
    if !s.isOn then s
    else if !isName name then s.fail (command ++ ": " ++ name ++ ": bad variable name")
    else each (match value with | some value => s.set name value | none => s) name)
    (s.withStatus 0)

def listed (s : Session) (command : String) (names : List String) : Session :=
  let lines := (names.mergeSort fun a b => !(b < a)).map fun name =>
    command ++ " " ++ name ++ (if s.isSet name then "=" ++ quoted (s.text name) else "") ++ "\n"
  (s.write 1 (Utf8.encode (String.join lines))).withStatus 0

def exportNames (s : Session) (args : List String) : Session :=
  if args.isEmpty || args = ["-p"] then s.listed "export" s.exported
  else s.mark "export" args exportName

def makeConstants (s : Session) (args : List String) : Session :=
  if args.isEmpty || args = ["-p"] then s.listed "readonly" s.constants
  else s.mark "readonly" args fun s name => { s with constants := name :: s.constants }

def unsetAll (s : Session) (args : List String) : Session :=
  match args with
  | "-f" :: names =>
    { s with functions := s.functions.filter fun f => !names.contains f.1, status := 0 }
  | _ =>
    let names := if args.head? = some "-v" then args.drop 1 else args
    match names.head?.map String.toList with
    | some ('-' :: option :: _) => s.fail ("unset: Illegal option -" ++ .singleton option)
    | _ => s.mark "unset" names fun s name =>
      if s.constants.contains name then s.fail (name ++ ": is read only") else s.unset name

def longOptions : List (String × Char) :=
  [("errexit", 'e'), ("nounset", 'u'), ("xtrace", 'x'), ("noglob", 'f'), ("verbose", 'v'),
   ("noexec", 'n'), ("allexport", 'a'), ("noclobber", 'C')]

def switch (s : Session) (on : Bool) (option : Char) : Session :=
  let others := s.options.filter (· != option)
  { s with options := if on then others ++ [option] else others }

def setOptions (s : Session) : List String → Session
  | [] => s
  | "--" :: args => { s with args }
  | "-o" :: name :: rest | "+o" :: name :: rest =>
    match longOptions.lookup name with
    | some option => setOptions (s.switch true option) rest
    | none => s.fail ("set: Illegal option -o " ++ name)
  | arg :: rest =>
    match arg.toList with
    | sign :: letter :: letters =>
      if sign = '-' || sign = '+' then
        match (letter :: letters).find? (!"aCefnuvx".toList.contains ·) with
        | some other => s.fail ("set: Illegal option " ++ .ofList [sign, other])
        | none => setOptions ((letter :: letters).foldl (·.switch (sign = '-') ·) s) rest
      else { s with args := arg :: rest }
    | _ => { s with args := arg :: rest }

def cd (s : Session) (args : List String) : Session :=
  let args := args.filter fun arg => arg != "-L" && arg != "-P" && arg != "--"
  let goal := match args.head? with
    | none => s.text "HOME"
    | some "-" => s.text "OLDPWD"
    | some goal => goal
  match s.files.openDirectory ⟨if goal.isEmpty then "." else goal⟩ with
  | .error _ => s.refuse ("cd: can't cd to " ++ goal)
  | .ok place =>
    let before := s.text "PWD"
    let path := (FileSystem.pathOf place).text
    let s := { s with files := { s.files with workingDirectory := place } }
    let s := (((s.set "OLDPWD" before).exportName "OLDPWD").set "PWD" path).exportName "PWD"
    (if args.head? = some "-" then s.write 1 (Utf8.encode (path ++ "\n")) else s).withStatus 0

def pwd (s : Session) : Session :=
  (s.write 1 (Utf8.encode ((FileSystem.pathOf s.files.workingDirectory).text ++ "\n"))).withStatus 0

def inputLine (raw : Bool) : List Char → List (Char × Bool) × List Char × Bool
  | [] => ([], [], false)
  | '\n' :: rest => ([], rest, true)
  | '\\' :: c :: rest =>
    if raw then
      let (line, rest, ended) := inputLine raw (c :: rest)
      (('\\', false) :: line, rest, ended)
    else
      let (line, rest, ended) := inputLine raw rest
      (if c = '\n' then line else (c, true) :: line, rest, ended)
  | c :: rest =>
    let (line, rest, ended) := inputLine raw rest
    ((c, false) :: line, rest, ended)

/-- Divides a line among so many names; the last one gets all that is left. -/
def divided : (names : List String) → List (Char × Bool) → List (String × String)
  | [], _ => []
  | name :: names, line =>
    let isGap (c : Char × Bool) : Bool := !c.2 && (c.1 = ' ' || c.1 = '\t')
    let line := line.dropWhile isGap
    if names.isEmpty then [(name, .ofList (((line.reverse.dropWhile isGap).reverse).map (·.1)))]
    else
      let first := line.takeWhile (!isGap ·)
      (name, .ofList (first.map (·.1))) :: divided names (line.drop first.length)

def readLine (s : Session) (args : List String) : Session :=
  let raw := args.head? = some "-r"
  let args := if raw then args.drop 1 else args
  let names := if args.head? = some "-p" then args.drop 2 else args
  if names.isEmpty then s.refuse "read: arg count"
  else
    let (line, rest, ended) := inputLine raw (Utf8.decode s.input).toList
    let s := (divided names line).foldl (fun s (name, value) => s.set name value)
      { s with input := Utf8.encode (.ofList rest) }
    if s.isOn then s.withStatus (if ended then 0 else 1) else s

def declareLocals (s : Session) (args : List String) : Session :=
  match s.locals with
  | none => s.fail "local: not in a function"
  | some kept =>
    let before := args.map fun arg => ((assigned arg).1, s.scope.get? (assigned arg).1)
    { s with locals := some (before.reverse ++ kept) }.mark "local" args fun s _ => s

def trap (s : Session) (args : List String) : Session :=
  let args := if args.head? = some "--" then args.drop 1 else args
  let number? (text : String) : Option Nat := if text = "EXIT" then some 0 else Signal.ofText? text
  match args with
  | [] =>
    let name (n : Nat) : String := if n = 0 then "EXIT" else Signal.names.getD n (toString n)
    let lines := (s.traps.mergeSort fun a b => a.1 ≤ b.1).map fun (n, action) =>
      "trap -- " ++ quoted action ++ " " ++ name n ++ "\n"
    (s.write 1 (Utf8.encode (String.join lines))).withStatus 0
  | action :: names =>
    let resets := (number? action).isSome && names.isEmpty || action = "-"
    (if names.isEmpty then args else names).foldl (fun s text =>
      match number? text with
      | none => (s.write 2 (Utf8.encode ("trap: " ++ text ++ ": bad trap\n"))).withStatus 1
      | some n =>
        let others := s.traps.filter (·.1 != n)
        { s with traps := if resets then others else (n, action) :: others })
      (s.withStatus 0)

def wait (s : Session) (args : List String) : Session :=
  match args with
  | [] => s.withStatus 0
  | text :: _ => s.withStatus (if text = "2" then s.background.getD 127 else 127)

def explain (s : Session) (program : Option String) (name : String) : Option String × String :=
  if reservedWords.contains name then (some name, name ++ " is a shell keyword")
  else if specialBuiltins.contains name then (some name, name ++ " is a special shell builtin")
  else if (s.functions.lookup name).isSome then (some name, name ++ " is a shell function")
  else if otherBuiltins.contains name then (some name, name ++ " is a shell builtin")
  else match program with
    | some path => (some path, name ++ " is " ++ path)
    | none => (none, name ++ ": not found")

def explainAll (s : Session) (brief : Bool) (locate : String → Option String) (names : List String) :
    Session :=
  names.foldl (fun s name =>
    let (meaning, text) := s.explain (locate name) name
    let line := if brief then meaning.getD "" else text
    let s := if brief && meaning.isNone then s else s.write 1 (Utf8.encode (line ++ "\n"))
    if meaning.isNone then s.withStatus 127 else s) (s.withStatus 0)

def builtin? (s : Session) (name : String) (args : List String) : Option Session :=
  let who := s.who ++ name ++ ": "
  match name with
  | "bg" | "fg" => some (s.refuse (name ++ ": No current job"))
  | "getopts" => some (s.withStatus 1)
  | ":" | "true" | "alias" | "hash" | "jobs" | "times" | "ulimit"
  | "unalias" => some (s.withStatus 0)
  | "false" => some (s.withStatus 1)
  | "echo" => some (s.perform (Format.echo args))
  | "printf" => some (s.perform (Format.printf who args))
  | "test" => some (s.perform (Condition.test s.files who args))
  | "[" =>
    if args.getLast? = some "]" then some (s.perform (Condition.test s.files who args.dropLast))
    else some (s.refuse "[: missing ]")
  | "exit" => some (s.exit args)
  | "return" => some (s.returnWith args)
  | "break" => some (s.leave name false args)
  | "continue" => some (s.leave name true args)
  | "shift" => some (s.shift args)
  | "export" => some (s.exportNames args)
  | "readonly" => some (s.makeConstants args)
  | "unset" => some (s.unsetAll args)
  | "set" => some ((s.withStatus 0).setOptions args)
  | "cd" => some (s.cd args)
  | "pwd" => some s.pwd
  | "read" => some (s.readLine args)
  | "local" => some (s.declareLocals args)
  | "trap" => some (s.trap args)
  | "umask" => some (s.perform (if args.isEmpty then .printed "0022\n" else {}))
  | "wait" => some (s.wait args)
  | _ => none

end Session

end Rollout.Rehearsal.Shell
