import Rollout.Rehearsal.Shell.Arithmetic
import Rollout.Rehearsal.Shell.Part
import Rollout.Rehearsal.Shell.Pattern
import Rollout.Rehearsal.Shell.Session
import Rollout.Rehearsal.Shell.Source

/-!
What a word of a script stands for: parameters, arithmetic and the output of commands are replaced,
the result is divided into fields, and a field with a pattern becomes the paths it admits.
-/

namespace Rollout.Rehearsal.Shell

open Rollout.Shell (Mark Quoting)

abbrev Substitute := Session → String → Session × String

abbrev Expand := Session → Word → Session × List Part

namespace Session

def separators (s : Session) : List Char :=
  if s.isSet "IFS" then (s.text "IFS").toList else [' ', '\t', '\n']

def parted (s : Session) (quoting : Quoting) (text : String) : Session × List Part :=
  (s, Part.ofText s.separators quoting text)

def parts (s : Session) (quoting : Quoting) (name : String) : Session × List Part :=
  if name = "@" && quoting ≠ .bare then
    (s, ((s.args.map fun arg => .kept :: arg.toList.map (.char · false)).intersperse
      [.gap ' ']).flatten)
  else
    match s.parameter? name with
    | some value => s.parted quoting value
    | none =>
      if s.options.contains 'u' && name != "@" && name != "*" then
        (s.fail (name ++ ": parameter not set"), [])
      else s.parted quoting ""

def braced (expand : Expand) (s : Session) (quoting : Quoting) : Braced → Session × List Part
  | .value name => s.parts quoting name
  | .length name =>
    s.parted quoting (toString (Utf8.encode ((s.parameter? name).getD "")).length)
  | .alternative name orEmpty op word =>
    let value := s.parameter? name
    let isMissing := value.isNone || (orEmpty && value = some "")
    let word := Word.ofOperand quoting word
    match op with
    | '-' => if isMissing then expand s word else s.parted quoting (value.getD "")
    | '+' => if isMissing then s.parted quoting "" else expand s word
    | '=' =>
      if isMissing then
        let (s, parts) := expand s word
        (s.set name (Part.text parts)).parted quoting (Part.text parts)
      else s.parted quoting (value.getD "")
    | _ =>
      if isMissing then
        let (s, parts) := expand s word
        let reason := if word.isEmpty then
          "parameter not set" ++ (if orEmpty then " or null" else "") else Part.text parts
        (if s.isOn then s.fail (name ++ ": " ++ reason) else s, [])
      else s.parted quoting (value.getD "")
  | .trimmed name atStart longest pattern =>
    let value := ((s.parameter? name).getD "").toList
    let (s, parts) := expand s (Word.ofOperand .bare pattern)
    let pattern := Pattern.ofMarked (Part.marked parts)
    let lengths := if atStart then pattern.admittedStarts value else pattern.admittedEnds value
    let n := (if longest then lengths.getLast? else lengths.head?).getD 0
    let kept := if atStart then value.drop n else value.take (value.length - n)
    s.parted quoting (.ofList kept)

def computed (expand : Expand) (s : Session) (quoting : Quoting) (cs : List Char) :
    Session × List Part :=
  let (s, parts) := expand s (Word.ofOperand .double cs)
  if !s.isOn then (s, [])
  else match Arithmetic.evaluate s.scope (Part.text parts) with
    | .ok (value, scope) => { s with scope }.parted quoting (toString value)
    | .error (.badVariable text) => (s.fail ("Illegal number: " ++ text), [])
    | .error fault =>
      (s.fail ("arithmetic expression: " ++ fault.message (Part.text parts)), [])

def replaced (substitute : Substitute) (s : Session) (quoting : Quoting) (text : String) :
    Session × List Part :=
  let (s, out) := substitute s text
  let kept := (out.toList.reverse.dropWhile (· = '\n')).reverse
  s.parted quoting (.ofList (kept.filter (· != '\x00')))

def substitution (substitute : Substitute) (expand : Expand) (s : Session) (quoting : Quoting)
    (cs : List Char) : Session × List Part :=
  let inside := (cs.drop 1).dropLast
  match cs with
  | '(' :: '(' :: _ =>
    if inside.getLast? = some ')' then s.computed expand quoting (inside.drop 1).dropLast
    else s.replaced substitute quoting (.ofList inside)
  | '(' :: _ => s.replaced substitute quoting (.ofList inside)
  | _ =>
    match Braced.ofChars? inside with
    | some b => s.braced expand quoting b
    | none => (s.fail "Bad substitution", [])

def unquoteCommands (quoting : Quoting) : List Char → List Char
  | '\\' :: c :: rest =>
    if c = '$' || c = '\x60' || c = '\\' || (c = '"' && quoting = .double) then
      c :: unquoteCommands quoting rest
    else '\\' :: c :: unquoteCommands quoting rest
  | c :: rest => c :: unquoteCommands quoting rest
  | [] => []

def expandWith (substitute : Substitute) (expand : Expand) (s : Session) :
    Word → Session × List Part
  | [] => (s, [])
  | m :: rest =>
    let continuing (p : Session × List Part) (q : Session → Session × List Part) :
        Session × List Part :=
      let (s, more) := q p.1
      (s, p.2 ++ more)
    let inside := rest.takeWhile (·.quoting = .nested)
    match m.quoting, m.char with
    | .literal, c => continuing (s, [.kept, .char c false]) (expandWith substitute expand · rest)
    | .nested, c => continuing (s, [.char c true]) (expandWith substitute expand · rest)
    | quoting, '$' =>
      if inside.isEmpty then
        match h : parameterName? quoting rest with
        | some p =>
          have := length_of_parameterName? h
          continuing (s.parts quoting p.1) (expandWith substitute expand · p.2)
        | none => continuing (s.parted quoting "$") (expandWith substitute expand · rest)
      else
        continuing (s.substitution substitute expand quoting (inside.map (·.char)))
          (expandWith substitute expand · (rest.drop inside.length))
    | quoting, '\x60' =>
      let text := unquoteCommands quoting (inside.dropLast.map (·.char))
      continuing (s.replaced substitute quoting (.ofList text))
        (expandWith substitute expand · (rest.drop inside.length))
    | .double, c => continuing (s, [.kept, .char c false]) (expandWith substitute expand · rest)
    | .bare, c =>
      let part := if c = ' ' || c = '\t' || c = '\n' then Part.gap c else .char c true
      continuing (s, [part]) (expandWith substitute expand · rest)
termination_by marks => marks.length

def expand (substitute : Substitute) : (depth : Nat) → Expand
  | 0 => fun s _ => (s, [])
  | depth + 1 => expandWith substitute (expand substitute depth)

def expansionDepth : Nat := 32

def atHome (s : Session) (word : Word) : Word :=
  match word with
  | ⟨'~', .bare⟩ :: rest =>
    if s.isSet "HOME" && (rest.isEmpty || rest.head? = some ⟨'/', .bare⟩) then
      Word.ofText .literal (s.text "HOME") ++ rest
    else word
  | _ => word

def expandText (substitute : Substitute) (s : Session) (word : Word) : Session × String :=
  let (s, parts) := s.expand substitute expansionDepth (s.atHome word)
  (s, Part.text parts)

def expandPattern (substitute : Substitute) (s : Session) (word : Word) : Session × Pattern :=
  let (s, parts) := s.expand substitute expansionDepth word
  (s, Pattern.ofMarked (Part.marked parts))

/-! ### Paths -/

def namesIn (s : Session) (directory : String) : List String :=
  match s.files.openDirectory ⟨if directory.isEmpty then "." else directory⟩ with
  | .ok place =>
    let names := s.files.nodes.filterMap fun (p, _) =>
      if p.dropLast = place && !p.isEmpty then p.getLast? else none
    names.mergeSort fun a b => !(b < a)
  | .error _ => []

def isActive (cs : List (Char × Bool)) : Bool :=
  cs.any fun c => c.2 && (c.1 = '*' || c.1 = '?' || c.1 = '[')

def segments : List (Char × Bool) → List (List (Char × Bool))
  | [] => [[]]
  | c :: rest =>
    if c.1 = '/' then [] :: segments rest
    else match segments rest with
      | [] => [[c]]
      | first :: others => (c :: first) :: others

/-- The paths in a directory that some names with patterns admit. A dot at the start of a name is
only admitted by a dot. -/
def pathsIn (s : Session) (directory : String) : List (List (Char × Bool)) → List String
  | [] => []
  | name :: rest =>
    let plain := String.ofList (name.map (·.1))
    let candidates := if isActive name then
        (s.namesIn directory).filter fun candidate =>
          (Pattern.ofMarked name).admits candidate.toList &&
            (candidate.toList.head? != some '.' || plain.toList.head? = some '.')
      else [plain]
    let here := candidates.map (directory ++ ·)
    if rest.isEmpty then here.filter fun path => (s.files.find? ⟨path⟩).isSome
    else here.flatMap fun path => s.pathsIn (path ++ "/") rest

def paths (s : Session) (field : List Part) : List String :=
  let cs := Part.marked field
  let found := if isActive cs then s.pathsIn "" (segments cs) else []
  if found.isEmpty then [Part.text field] else found

/-- The fields of a word; a word of nothing but quotes is one empty field. -/
def expandFields (substitute : Substitute) (s : Session) (word : Word) : Session × List String :=
  if word.isEmpty then (s, [""])
  else
    let (s, parts) := s.expand substitute expansionDepth (s.atHome word)
    (s, ((Part.betweenGaps parts).filter (!·.isEmpty)).flatMap s.paths)

def expandAll (substitute : Substitute) (s : Session) (words : List Word) :
    Session × List String :=
  words.foldl (fun (s, fields) word =>
    if s.isOn then
      let (s, more) := s.expandFields substitute word
      (s, fields ++ more)
    else (s, fields)) (s, [])

end Session

end Rollout.Rehearsal.Shell
