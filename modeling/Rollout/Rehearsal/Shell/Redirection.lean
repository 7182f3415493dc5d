import Rollout.Rehearsal.Shell.Builtin
import Rollout.Rehearsal.Shell.Expansion

/-! Redirections: where the descriptors of a shell lead while a command is run. -/

namespace Rollout.Rehearsal.Shell.Session

def opened (s : Session) (appends : Bool) (path : String) : Except FileSystem.Fault (Session × Target) :=
  match path, s.files.find? ⟨path⟩ with
  | "/dev/stdout", _ => .ok (s, (s.target? 1).getD .nowhere)
  | "/dev/stderr", _ => .ok (s, (s.target? 2).getD .nowhere)
  | _, some .null => .ok (s, .nowhere)
  | _, found =>
    match found, appends with
    | some (.file _ _), true => (s.files.resolve ⟨path⟩).map fun place => (s, .file place)
    | _, _ => do
      let files ← s.files.write ⟨path⟩ []
      return ({ s with files }, .file (← files.resolve ⟨path⟩))

def redirect (substitute : Substitute) (s : Session) (r : Redirection) : Session × Bool :=
  let (s, text) := s.expandText substitute r.word
  if !s.isOn then (s, false)
  else match r.operator with
    | ">&" | "<&" =>
      match text.toNat? with
      | some 0 => (s, true)
      | some n =>
        match s.target? n with
        | some target => (s.connect r.descriptor target, true)
        | none => (s.refuse (text ++ ": Bad file descriptor"), false)
      | none => if text = "-" then (s.disconnect r.descriptor, true) else
        (s.fail "Syntax error: Bad fd number", false)
    | "<<" => ({ s with input := Utf8.encode text }, true)
    | "<" | "<>" =>
      match s.files.find? ⟨text⟩ with
      | some node => ({ s with input := (FileSystem.contentOf node).toOption.getD [] }, true)
      | none => (s.refuse ("cannot open " ++ text ++ ": No such file"), false)
    | op =>
      match s.opened (op = ">>") text with
      | .ok (s, target) => (s.connect r.descriptor target, true)
      | .error fault =>
        let reason := if fault = .notFound then "Directory nonexistent" else reasonOf fault
        (s.refuse ("cannot create " ++ text ++ ": " ++ reason), false)

def redirectAll (substitute : Substitute) (s : Session) (rs : List Redirection) : Session × Bool :=
  rs.foldl (fun (s, done) r => if done then s.redirect substitute r else (s, done)) (s, true)

def unredirect (s before : Session) (rs : List Redirection) : Session :=
  let input := if rs.any fun r => ["<", "<>", "<<"].contains r.operator then before.input
    else s.input
  { s with descriptors := before.descriptors, input }

end Rollout.Rehearsal.Shell.Session
