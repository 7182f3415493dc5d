import Rollout.CommandLine.Arguments
import Rollout.Job

/-! The commands of the program. -/

namespace Rollout.CommandLine

structure Profile where
  name : String
  version : String
  summary : String
  commands : List (String × String)

def profile : Profile where
  name := "shardeploy"
  version := "0.1.0"
  summary := "Deploy build artifacts to remote shards over SSH"
  commands := [("deploy", "Run one or more deploy tasks"),
    ("list", "List the tasks offered by the deploy plan"),
    ("help", "Print this message or the help of the given subcommand(s)")]

def Profile.versionText (p : Profile) : String := p.name ++ " " ++ p.version

def Profile.helpText (p : Profile) : String :=
  p.summary ++ "\n\nUsage: " ++ p.name ++ " <COMMAND>\n\nCommands:\n" ++
    .join (p.commands.map fun (name, summary) => "  " ++ name ++ "".pushn ' ' (8 - name.length) ++ summary ++ "\n") ++
    "\nOptions:\n  -h, --help     Print help\n  -V, --version  Print version\n"

structure DeployRequest where
  artifact : Artifact
  projectName : Option String := none
  plan : Option Path := none
  tasks : List String
  deriving DecidableEq

structure ListRequest where
  asJson : Bool := false
  plan : Option Path := none
  deriving DecidableEq

inductive Command
  | help
  | version
  | deploy (request : DeployRequest)
  | list (request : ListRequest)
  deriving DecidableEq

def DeployRequest.form : Form where
  valued := ["artifact", "artifact-version", "project-name", "plan"]
  hasOperands := true

def DeployRequest.ofGiven (g : Given) : Except UsageFault DeployRequest := do
  let artifact ← g.require "artifact"
  let version ← g.require "artifact-version"
  if g.operands.isEmpty then throw (.missingOperand "a task")
  return { artifact := ⟨⟨artifact⟩, version⟩
           projectName := g.value? "project-name"
           plan := (g.value? "plan").map Path.mk
           tasks := g.operands }

def ListRequest.form : Form where
  valued := ["plan"]
  flags := ["json"]

def ListRequest.ofGiven (g : Given) : ListRequest where
  asJson := g.flags.contains "json"
  plan := (g.value? "plan").map Path.mk

namespace Command

def ofNamed (name : String) (rest : List String) : Except UsageFault Command :=
  match name with
  | "deploy" => do
    match ← DeployRequest.form.read none {} rest with
    | some g => return .deploy (← DeployRequest.ofGiven g)
    | none => return .help
  | "list" => do
    match ← ListRequest.form.read none {} rest with
    | some g => return .list (.ofGiven g)
    | none => return .help
  | "help" =>
    match rest with
    | [] => .ok .help
    | [topic] =>
      if (profile.commands.map (·.1)).contains topic then .ok .help
      else .error (.unknownCommand topic)
    | _ :: topic :: _ => .error (.unknownCommand topic)
  | _ => .error (.unknownCommand name)

def parse : List String → Except UsageFault Command
  | [] => .error .noCommand
  | arg :: rest =>
    match Argument.ofText arg with
    | .operand name => ofNamed name rest
    | .long "help" none | .short ('h' :: _) => .ok .help
    | .long "version" none | .short ('V' :: _) => .ok .version
    | _ => .error (.unknownOption arg)

end Command

end Rollout.CommandLine
