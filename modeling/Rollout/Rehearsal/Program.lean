import Rollout.FileSystem
import Rollout.Rehearsal.Shell.Format

/-! Small programs that every system has: what they print about their arguments and files. -/

namespace Rollout.Rehearsal.Program

open Rollout.Rehearsal.Shell (Effect)

structure Place where
  name : String
  files : FileSystem
  input : Bytes

def Place.complaint (p : Place) (text : String) : Effect := .complaint (p.name ++ ": ") [text] 1

def Place.misuse (p : Place) (text : String) : Effect :=
  p.complaint (text ++ "\nTry '" ++ p.name ++ " --help' for more information.")

def Place.content (p : Place) (path : String) : Except FileSystem.Fault Bytes := do
  if path = "-" then return p.input
  match p.files.node? (← p.files.resolve ⟨path⟩) with
  | some node => FileSystem.contentOf node
  | none => .error .notFound

def reason (fault : FileSystem.Fault) : String := (fault.message.splitOn " (").headD ""

def concatenate (p : Place) (args : List String) : Effect :=
  let paths := if args.isEmpty then ["-"] else args
  paths.foldl (fun e path =>
    let e := if path = "-" then { e with drains := true } else e
    match p.content path with
    | .ok content => { e with stdout := e.stdout ++ content }
    | .error fault =>
      let complaint := p.complaint (path ++ ": " ++ reason fault)
      { e with stderr := e.stderr ++ complaint.stderr, status := 1 }) {}

def whereabouts (p : Place) : Effect :=
  .printed ((FileSystem.pathOf p.files.workingDirectory).text ++ "\n")

def firstLines : (n : Nat) → Bytes → Bytes
  | 0, _ | _, [] => []
  | n + 1, b :: rest => b :: firstLines (if b = 10 then n else n + 1) rest

def head (p : Place) (args : List String) : Effect :=
  let (bytes, amount, paths) := match args with
    | "-c" :: n :: paths => (true, n, paths)
    | "-n" :: n :: paths => (false, n, paths)
    | _ => (false, "10", args)
  match amount.toNat?, p.content (paths.headD "-") with
  | none, _ => p.complaint ("invalid number of lines: '" ++ amount ++ "'")
  | _, .error fault =>
    p.complaint ("cannot open '" ++ paths.headD "-" ++ "' for reading: " ++ reason fault)
  | some n, .ok content =>
    { stdout := if bytes then content.take n else firstLines n content, drains := paths.isEmpty }

def sequence (p : Place) (args : List String) : Effect :=
  let numbers := args.map String.toInt?
  let row (first step last : Int) : Effect :=
    let count := if step = 0 then 0 else ((last - first) / step + 1).toNat
    .printed (String.join ((List.range count).map fun (i : Nat) => toString (first + step * i) ++ "\n"))
  match numbers with
  | [] => p.misuse "missing operand"
  | [some last] => row 1 1 last
  | [some first, some last] => row first 1 last
  | [some first, some step, some last] => row first step last
  | _ => p.misuse ("invalid floating point argument: '" ++ args.headD "" ++ "'")

def sleep (p : Place) (args : List String) : Effect :=
  let isInterval (text : String) : Bool :=
    let number := if "smhd".toList.contains (text.toList.getLastD '0') then text.toList.dropLast
      else text.toList
    number.any Char.isDigit && number.all (fun c => c.isDigit || c = '.') && number.count '.' ≤ 1
  match args, args.find? (!isInterval ·) with
  | [], _ => p.misuse "missing operand"
  | _, some text => p.misuse ("invalid time interval '" ++ text ++ "'")
  | _, none => {}

def pathPart (last : Bool) (args : List String) : Effect :=
  let p : Path := ⟨args.headD ""⟩
  if last then .printed (p.fileName.getD p.text ++ "\n")
  else
    let parent := (p.parent.map Path.text).getD p.text
    .printed ((if parent.isEmpty then "." else parent) ++ "\n")

end Rollout.Rehearsal.Program
