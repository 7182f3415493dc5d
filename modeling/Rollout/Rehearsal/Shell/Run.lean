import Rollout.Rehearsal.Shell.Builtin
import Rollout.Rehearsal.Shell.Redirection
import Rollout.Rehearsal.Shell.Source

/-!
How a shell runs a script. Programs are started by the system it is in; a command within a pipeline,
a substitution or parentheses is run by a shell of its own.
-/

namespace Rollout.Rehearsal.Shell

structure Surroundings where
  start : Session → (name : String) → List String → Except FileSystem.Fault Effect
  locate : Session → (name : String) → Option String

namespace Session

def assign (substitute : Substitute) (s : Session) (assignments : List (String × Word)) : Session :=
  assignments.foldl (fun s (name, word) =>
    if s.isOn then
      let (s, text) := s.expandText substitute word
      if s.isOn then s.set name text else s
    else s) s

def trace (s : Session) (parts : List String) : Session :=
  if s.options.contains 'x' && !parts.isEmpty then
    s.write 2 (Utf8.encode ("+ " ++ " ".intercalate parts ++ "\n"))
  else s

def settle (s : Session) (tested : Bool) : Session :=
  if s.isOn && !tested && s.status ≠ 0 && s.options.contains 'e' then s.endWith s.status else s

def unstarted (s : Session) (name : String) (fault : FileSystem.Fault) : Session :=
  let reason := if fault.isUnfound then "not found" else reasonOf fault
  (s.complain (name ++ ": " ++ reason)).withStatus
    (if name.toList.contains '/' && fault = .permissionDenied then 126 else 127)

def afterProgram (s : Session) (e : Effect) : Session :=
  match e.ending with
  | some (.killed signal) =>
    let s := s.perform { e with ending := none, status := 128 + signal }
    match Signal.report? signal with
    | some text => s.write 2 (Utf8.encode (text ++ "\n"))
    | none => s
  | _ => s.perform { e with ending := none }

def launch (around : Surroundings) (s : Session) (name : String) (args : List String) : Session :=
  match around.start s name args with
  | .ok e => s.afterProgram e
  | .error fault => s.unstarted name fault

def become (around : Surroundings) (s : Session) (name : String) (args : List String) : Session :=
  match around.start s name args with
  | .ok e =>
    let after := s.perform e
    { after with flow := .ended (e.ending.getD (.exited e.status)), traps := [] }
  | .error fault =>
    let after := (s.complain ("exec: " ++ name ++ ": " ++
      (if fault.isUnfound then "not found" else reasonOf fault)))
    after.endWith (if fault = .permissionDenied then 126 else 127)

def afterRound (s : Session) : Session × Bool :=
  match s.flow with
  | .on => (s, true)
  | .leaving 1 again => ({ s with flow := .on }, again)
  | .leaving n again => ({ s with flow := .leaving (n - 1) again }, false)
  | _ => (s, false)

def enterLoop (s : Session) : Session := { s with loops := s.loops + 1 }

def leaveLoop (s : Session) : Session := { s with loops := s.loops - 1 }

def struck (s : Session) (signal : Nat) : Session :=
  if Signal.isHarmless signal then s else { s with flow := .ended (.killed signal) }

mutual

/-- Runs a script; `tested` tells that something looks at its status. -/
def run (around : Surroundings) : (fuel : Nat) → (tested : Bool) → Session → Script → Session
  | 0, _, s, _ => s
  | fuel + 1, tested, s, script =>
    if !s.isOn then s
    else match script with
      | .simple c => (runSimple around fuel tested s c).settle tested
      | .pipeline stages => (runStages around fuel s s.input stages).settle tested
      | .negation body =>
        let s := run around fuel true s body
        if s.isOn then s.withStatus (if s.status = 0 then 1 else 0) else s
      | .conjunction first second =>
        let s := run around fuel true s first
        if s.status = 0 then run around fuel tested s second else s
      | .disjunction first second =>
        let s := run around fuel true s first
        if s.status ≠ 0 then run around fuel tested s second else s
      | .sequence first second => run around fuel tested (run around fuel tested s first) second
      | .background body =>
        let s := s.after (run around fuel false { s.within with input := [] } body)
        { s with background := some s.status, status := 0 }
      | .subshell body => (s.after (runWithin around fuel tested s body)).settle tested
      | .branch test positive negative =>
        let s := run around fuel true s test
        if !s.isOn then s
        else if s.status = 0 then run around fuel tested s positive
        else match negative with
          | some negative => run around fuel tested s negative
          | none => s.withStatus 0
      | .loop goal test body =>
        (runLoop around fuel tested goal test body 0 s.enterLoop).leaveLoop
      | .each name words body =>
        let (s, fields) := match words with
          | some words => s.expandAll (substitute around fuel) words
          | none => (s, s.args)
        (runEach around fuel tested name body 0 s.enterLoop fields).leaveLoop
      | .choice subject arms =>
        let (s, text) := s.expandText (substitute around fuel) subject
        runArms around fuel tested (s.withStatus 0) text.toList arms
      | .definition name body =>
        { s with functions := (name, body) :: s.functions.filter (·.1 != name), status := 0 }
      | .redirected line body rs =>
        let (inner, done) := { s with line }.redirectAll (substitute around fuel) rs
        if done then (run around fuel tested inner body).unredirect s rs
        else (inner.unredirect s rs).settle tested

def runWithin (around : Surroundings) : (fuel : Nat) → (tested : Bool) → Session → Script → Session
  | 0, _, s, _ => s
  | fuel + 1, tested, s, body => finish around fuel (run around fuel tested s.within body)

def runStages (around : Surroundings) : (fuel : Nat) → Session → Bytes → List Script → Session
  | 0, s, _, _ | _, s, _, [] => s
  | fuel + 1, s, input, [last] => s.after (runWithin around fuel true { s with input } last)
  | fuel + 1, s, input, stage :: rest =>
    let level := s.level + 1
    let inner := runWithin around fuel true ({ s with input, level }.connect 1 (.pipe level)) stage
    let output := inner.writtenTo (.pipe level)
    let inner := { inner with written := inner.written.filter (·.1 != .pipe level) }
    runStages around fuel (s.after inner) output rest

def runLoop (around : Surroundings) : (fuel : Nat) → (tested goal : Bool) → (test body : Script) →
    (status : Nat) → Session → Session
  | 0, _, _, _, _, _, s => s
  | fuel + 1, tested, goal, test, body, status, s =>
    match (run around fuel true s test).afterRound with
    | (s, false) => s
    | (s, true) =>
      if (s.status = 0) ≠ goal then s.withStatus status
      else match (run around fuel tested s body).afterRound with
        | (s, false) => s
        | (s, true) => runLoop around fuel tested goal test body s.status s

def runEach (around : Surroundings) : (fuel : Nat) → (tested : Bool) → String → (body : Script) →
    (status : Nat) → Session → List String → Session
  | 0, _, _, _, _, s, _ => s
  | _, _, _, _, status, s, [] => if s.isOn then s.withStatus status else s
  | fuel + 1, tested, name, body, _, s, field :: rest =>
    if !s.isOn then s
    else match (run around fuel tested (s.set name field) body).afterRound with
      | (s, false) => s
      | (s, true) => runEach around fuel tested name body s.status s rest

def runArms (around : Surroundings) : (fuel : Nat) → (tested : Bool) → Session → List Char →
    List (List Word × Option Script) → Session
  | 0, _, s, _, _ | _, _, s, _, [] => s
  | fuel + 1, tested, s, text, (patterns, body) :: rest =>
    let (s, admitted) := patterns.foldl (fun (s, admitted) word =>
      if admitted || !s.isOn then (s, admitted)
      else
        let (s, pattern) := s.expandPattern (substitute around fuel) word
        (s, pattern.admits text)) (s, false)
    if !admitted then runArms around fuel tested s text rest
    else match body with
      | some body => run around fuel tested s body
      | none => s

def runSimple (around : Surroundings) : (fuel : Nat) → (tested : Bool) → Session → Simple → Session
  | 0, _, s, _ => s
  | fuel + 1, tested, before, c =>
    let sub := substitute around fuel
    match { before with line := c.line, substituted := 0 }.expandAll sub c.words with
    | (s, []) =>
      let (s, done) := s.redirectAll sub c.redirections
      if !s.isOn then s
      else if !done then s.unredirect before c.redirections
      else
        let s := (s.assign sub c.assignments).unredirect before c.redirections
        if s.isOn then
          (s.trace (c.assignments.map fun a => a.1 ++ "=" ++ s.text a.1)).withStatus s.substituted
        else s
    | (s, name :: args) =>
      if !s.isOn then s
      else
        let (inner, done) := s.redirectAll sub c.redirections
        let isSpecial := specialBuiltins.contains name && (s.functions.lookup name).isNone
        if !done then
          let s := inner.unredirect before c.redirections
          if isSpecial then s.endWith 2 else s
        else
          let kept := c.assignments.map fun a => (a.1, s.scope.get? a.1)
          let inner := inner.assign sub c.assignments
          if !inner.isOn then inner
          else
            let settings := c.assignments.map fun a => a.1 ++ "=" ++ inner.text a.1
            let traced := inner.trace (settings ++ name :: args)
            if isSpecial then
              let s := call around fuel tested traced name args
              if name = "exec" && args.isEmpty then s else s.unredirect before c.redirections
            else
              let exporting := c.assignments.foldl (fun s a => s.exportName a.1) traced
              let s := call around fuel tested exporting name args
              let s := if c.assignments.isEmpty then s
                else { s.restore kept with exported := before.exported }
              s.unredirect before c.redirections

def call (around : Surroundings) : (fuel : Nat) → (tested : Bool) → Session → String → List String →
    Session
  | 0, _, s, _, _ => s
  | fuel + 1, tested, s, name, args =>
    match s.functions.lookup name with
    | some body =>
      if specialBuiltins.contains name then callBuiltin around fuel tested s name args
      else
        let inner := run around fuel tested { s with args, locals := some [], loops := 0 } body
        let inner := inner.restore (inner.locals.getD [])
        { inner with
          args := s.args, locals := s.locals, loops := s.loops
          flow := if inner.flow = .returned then .on else inner.flow }
    | none => callBuiltin around fuel tested s name args

def callBuiltin (around : Surroundings) : (fuel : Nat) → (tested : Bool) → Session → String →
    List String → Session
  | 0, _, s, _, _ => s
  | fuel + 1, tested, s, name, args =>
    match name, args with
    | "eval", _ =>
      interpret around fuel tested (s.withStatus 0) (s.who ++ "eval: ") (" ".intercalate args)
    | "exec", [] => s.withStatus 0
    | "exec", program :: args => s.become around program args
    | ".", path :: _ =>
      let found := if path.toList.contains '/' then some path else around.locate s path
      match found.map fun found => s.files.find? ⟨found⟩ with
      | some (some node) =>
        let text := Utf8.decode ((FileSystem.contentOf node).toOption.getD [])
        let inner := interpret around fuel tested (s.withStatus 0) (path ++ ": ") text
        { inner with flow := if inner.flow = .returned then .on else inner.flow }
      | some none => s.fail (".: cannot open " ++ path ++ ": No such file")
      | none => s.fail (".: " ++ path ++ ": not found")
    | "command", "-v" :: names => s.explainAll true (around.locate s) names
    | "command", "-V" :: names => s.explainAll false (around.locate s) names
    | "command", "-p" :: name :: args => callBuiltin around fuel tested s name args
    | "command", name :: args => callBuiltin around fuel tested s name args
    | "command", [] => s.withStatus 0
    | "type", _ => s.explainAll false (around.locate s) args
    | "kill", _ =>
      match Signal.Request.ofArgs? args with
      | .error text => s.refuse ("kill: " ++ text)
      | .ok .list => s.perform (.printed (String.join (Signal.names.map (· ++ "\n"))))
      | .ok (.name n) => s.perform (.printed (Signal.names.getD n (toString n) ++ "\n"))
      | .ok (.send signal targets) => sendAll around fuel signal (s.withStatus 0) targets
    | _, _ =>
      match s.builtin? name args with
      | some after => after
      | none => s.launch around name args

def sendAll (around : Surroundings) : (fuel signal : Nat) → Session → List String → Session
  | 0, _, s, _ | _, _, s, [] => s
  | fuel + 1, signal, s, target :: rest =>
    if !s.isOn then s
    else match target.toList, target.toNat? with
      | '%' :: _, _ => s.refuse ("kill: No such job: " ++ target)
      | '-' :: number, _ => s.refuse ("kill: Illegal number: " ++ .ofList number)
      | _, none => s.refuse ("kill: Illegal number: " ++ target)
      | _, some _ =>
        if target ≠ s.self then
          sendAll around fuel signal ((s.complain "kill: No such process\n").withStatus 1) rest
        else match (if Signal.isFinal signal then none else s.traps.lookup signal) with
          | none => sendAll around fuel signal (s.struck signal) rest
          | some "" => sendAll around fuel signal s rest
          | some action =>
            let after := interpret around fuel false s s.who action
            sendAll around fuel signal (if after.isOn then after.withStatus s.status else after) rest

def interpret (around : Surroundings) : (fuel : Nat) → (tested : Bool) → Session → (who : String) →
    String → Session
  | 0, _, s, _, _ => s
  | fuel + 1, tested, s, who, text =>
    let source := Source.ofText text
    let s := source.scripts.foldl (run around fuel tested) s
    match source.fault with
    | some (_, fault) =>
      if s.isOn then
        (s.write 2 (Utf8.encode (who ++ "Syntax error: " ++ fault.message ++ "\n"))).endWith 2
      else s
    | none => s

def substitute (around : Surroundings) : (fuel : Nat) → Session → String → Session × String
  | 0, s, _ => (s, "")
  | fuel + 1, s, text =>
    let level := s.level + 1
    let inner := interpret around fuel false ({ s.within with level }.connect 1 (.pipe level)) s.who text
    let inner := finish around fuel inner
    let output := Utf8.decode (inner.writtenTo (.pipe level))
    let after := s.after { inner with written := inner.written.filter (·.1 != .pipe level) }
    ({ after with status := s.status, substituted := after.status }, output)

def finish (around : Surroundings) : (fuel : Nat) → Session → Session
  | 0, s => s
  | fuel + 1, s =>
    match s.flow, s.traps.lookup 0 with
    | .ended (.killed _), _ | _, none => s
    | _, some action =>
      let after := interpret around fuel false { s with flow := .on, traps := [] } s.who action
      if after.isOn then { after with status := s.status, flow := s.flow } else after

end

def rounds : Nat := 1000000

def runText (around : Surroundings) (s : Session) (text : String) : Session :=
  let source := Source.ofText text
  let s := source.scripts.foldl (run around rounds false) s
  let s := match source.fault with
    | some (line, fault) =>
      if s.isOn then { s with line }.fail ("Syntax error: " ++ fault.message) else s
    | none => s
  finish around rounds s

def total (s : Session) : Effect :=
  { stdout := s.writtenTo .stdout
    stderr := s.writtenTo .stderr
    status := s.status
    ending := match s.flow with
      | .ended (.killed signal) => some (.killed signal)
      | _ => none
    drains := true }

end Session

end Rollout.Rehearsal.Shell
