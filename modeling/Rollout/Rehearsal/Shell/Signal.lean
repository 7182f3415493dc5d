import Rollout.Rehearsal.Shell.Effect

/-! Signals: their names, what they do to a shell, and how they are asked for. -/

namespace Rollout.Rehearsal.Shell.Signal

def names : List String :=
  ["0", "HUP", "INT", "QUIT", "ILL", "TRAP", "ABRT", "BUS", "FPE", "KILL", "USR1", "SEGV", "USR2",
   "PIPE", "ALRM", "TERM", "16", "CHLD", "CONT", "STOP", "TSTP", "TTIN", "TTOU", "URG", "XCPU", "XFSZ",
   "VTALRM", "PROF", "WINCH", "IO", "PWR", "SYS"]

def isHarmless (signal : Nat) : Bool := [0, 17, 18, 19, 20, 21, 22, 23, 28].contains signal

def isFinal (signal : Nat) : Bool := signal = 9 || signal = 19

def report? : Nat → Option String
  | 1 => some "Hangup"
  | 3 => some "Quit"
  | 4 => some "Illegal instruction"
  | 5 => some "Trace/breakpoint trap"
  | 6 => some "Aborted"
  | 7 => some "Bus error"
  | 8 => some "Floating point exception"
  | 9 => some "Killed"
  | 10 => some "User defined signal 1"
  | 11 => some "Segmentation fault"
  | 12 => some "User defined signal 2"
  | 14 => some "Alarm clock"
  | 15 => some "Terminated"
  | _ => none

def ofText? (text : String) : Option Nat :=
  if !text.isEmpty && text.toList.all Char.isDigit then text.toNat?.filter (· < 65)
  else (names.zipIdx.find? fun p => p.1 == text.map Char.toUpper).map (·.2)

inductive Request
  | send (signal : Nat) (targets : List String)
  | name (signal : Nat)
  | list

def usage : String :=
  "Usage: kill [-s sigspec | -signum | -sigspec] [pid | job]... or\nkill -l [exitstatus]"

def Request.ofArgs? (args : List String) : Except String Request :=
  let sending (signal : Nat) (targets : List String) : Except String Request :=
    if targets.isEmpty then .error usage else .ok (.send signal targets)
  match args with
  | [] => .error usage
  | "--" :: targets => sending 15 targets
  | "-l" :: [] => .ok .list
  | "-l" :: text :: _ =>
    match text.toNat? with
    | some n => .ok (.name (n % 128))
    | none => .error ("Illegal number: " ++ text)
  | "-s" :: text :: targets =>
    match ofText? text with
    | some signal => sending signal targets
    | none => .error ("invalid signal number or name: " ++ text)
  | first :: targets =>
    match first.toList with
    | '-' :: option =>
      match ofText? (.ofList option), option with
      | some signal, _ => sending signal targets
      | none, 's' :: more => .error ("invalid signal number or name: " ++ .ofList more)
      | none, letter :: _ => .error ("Illegal option -" ++ .singleton letter)
      | none, [] => .error usage
    | _ => sending 15 args

end Rollout.Rehearsal.Shell.Signal
