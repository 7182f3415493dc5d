import Rollout.CommandLine.Command
import Rollout.Environment
import Rollout.FileSystem

/-! The manual page of the program, and its way into a directory. -/

namespace Rollout.Manual

/-- A dash is escaped, so that it is not taken for a hyphen. -/
def escape (s : String) : String := .ofList (s.toList.flatMap fun c => if c = '-' then ['\\', '-'] else [c])

def bold (s : String) : String := "\\fB" ++ escape s ++ "\\fR"

def italic (s : String) : String := "\\fI" ++ escape s ++ "\\fR"

def heading (name : String) : String := ".SH " ++ name

def options : List (List String × String) :=
  [(["-h", "--help"], "Print help"), (["-V", "--version"], "Print version")]

def lines (p : CommandLine.Profile) : List String :=
  [".ie \\n(.g .ds Aq \\(aq", ".el .ds Aq '",
    ".TH " ++ p.name ++ " 1  \"" ++ p.versionText ++ "\" ",
    heading "NAME", escape p.name ++ " \\- " ++ escape p.summary,
    heading "SYNOPSIS",
    bold p.name ++ " " ++
      .join (options.map fun (names, _) => "[" ++ "|".intercalate (names.map bold) ++ "] ") ++
      "<" ++ italic "subcommands" ++ ">",
    heading "DESCRIPTION", escape p.summary, heading "OPTIONS"] ++
  options.flatMap (fun (names, summary) => [".TP", ", ".intercalate (names.map bold), escape summary]) ++
  [heading "SUBCOMMANDS"] ++
  p.commands.flatMap (fun (name, summary) =>
    [".TP", escape (p.name ++ "-" ++ name ++ "(1)"), escape summary]) ++
  [heading "VERSION", "v" ++ p.version]

def page (p : CommandLine.Profile) : String := .join ((lines p).map (· ++ "\n"))

inductive Fault
  | noDirectory
  | files (fault : FileSystem.Fault)
  deriving DecidableEq

def kindOf? : FileSystem.Fault → Option (Nat × String)
  | .notFound => some (2, "NotFound")
  | .permissionDenied => some (13, "PermissionDenied")
  | .notDirectory => some (20, "NotADirectory")
  | .isDirectory => some (21, "IsADirectory")
  | .nameTooLong => some (36, "InvalidFilename")
  | .tooManyLinks => some (40, "FilesystemLoop")
  | .invalidName => some (22, "InvalidInput")
  | .escapes | .notText | .noFileName | .hasNul => none

def Fault.message : Fault → String
  | .noDirectory => "Custom \x7b kind: NotFound, error: \"OUT_DIR was not set\" \x7d"
  | .files fault =>
    match kindOf? fault with
    | none => fault.message
    | some (number, kind) =>
      "Os \x7b code: " ++ toString number ++ ", kind: " ++ kind ++ ", message: \"" ++
        (fault.message.splitOn " (os error ").headD "" ++ "\" \x7d"

def notice : String := "cargo:rerun-if-changed=build.rs\ncargo:rerun-if-changed=src/cli/mod.rs\n"

def install (p : CommandLine.Profile) (e : Environment) (files : FileSystem) :
    Except Fault FileSystem := do
  match e.get? "OUT_DIR" with
  | none => throw .noDirectory
  | some directory =>
    let path := Path.join ⟨Utf8.decode directory⟩ ⟨p.name ++ ".1"⟩
    (files.write path (Utf8.encode (page p))).mapError .files

end Rollout.Manual
