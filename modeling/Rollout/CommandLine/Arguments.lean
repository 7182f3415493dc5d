/-!
Arguments behind the name of a command. An option stands alone or comes with a value, which follows it
or is joined to it by an equals sign; all that is behind `--` is an operand.
-/

namespace Rollout.CommandLine

inductive Argument
  | divider
  | long (name : String) (value : Option String)
  | short (letters : List Char)
  | operand (text : String)
  deriving DecidableEq

def Argument.ofText (text : String) : Argument :=
  match text.toList with
  | ['-', '-'] => .divider
  | '-' :: '-' :: rest =>
    let name := rest.takeWhile (· ≠ '=')
    .long (.ofList name) ((rest.drop name.length).tail?.map String.ofList)
  | '-' :: letter :: rest => .short (letter :: rest)
  | _ => .operand text

inductive UsageFault
  | noCommand
  | unknownCommand (name : String)
  | unknownOption (text : String)
  | repeatedOption (name : String)
  | missingOption (name : String)
  | missingValue (name : String)
  | unwantedValue (name : String)
  | missingOperand (description : String)
  | unwantedOperand (text : String)
  deriving DecidableEq

def UsageFault.message : UsageFault → String
  | .noCommand => "a command is required"
  | .unknownCommand name => "unrecognized command '" ++ name ++ "'"
  | .unknownOption text => "unexpected argument '" ++ text ++ "'"
  | .repeatedOption name => "option '--" ++ name ++ "' cannot be used multiple times"
  | .missingOption name => "option '--" ++ name ++ "' is required"
  | .missingValue name => "option '--" ++ name ++ "' needs a value"
  | .unwantedValue name => "option '--" ++ name ++ "' takes no value"
  | .missingOperand description => description ++ " is required"
  | .unwantedOperand text => "unexpected argument '" ++ text ++ "'"

structure Form where
  valued : List String
  flags : List String := []
  hasOperands : Bool := false

structure Given where
  values : List (String × String) := []
  flags : List String := []
  operands : List String := []
  deriving DecidableEq

namespace Given

def value? (g : Given) (name : String) : Option String := g.values.lookup name

def addValue (g : Given) (name value : String) : Except UsageFault Given :=
  if (g.value? name).isSome then .error (.repeatedOption name)
  else .ok { g with values := g.values ++ [(name, value)] }

def addFlag (g : Given) (name : String) : Except UsageFault Given :=
  if g.flags.contains name then .error (.repeatedOption name)
  else .ok { g with flags := g.flags ++ [name] }

def require (g : Given) (name : String) : Except UsageFault String :=
  match g.value? name with
  | some value => .ok value
  | none => .error (.missingOption name)

end Given

/-- Reads arguments one after the other, where an option may be waiting for its value. Nothing is
given when they ask for help. -/
def Form.read (f : Form) (waiting : Option String) (g : Given) :
    List String → Except UsageFault (Option Given)
  | [] =>
    match waiting with
    | some name => .error (.missingValue name)
    | none => .ok (some g)
  | arg :: rest =>
    match waiting, Argument.ofText arg with
    | some name, .operand value =>
      match g.addValue name value with
      | .ok g => f.read none g rest
      | .error fault => .error fault
    | some name, _ => .error (.missingValue name)
    | none, .operand text =>
      if f.hasOperands then f.read none { g with operands := g.operands ++ [text] } rest
      else .error (.unwantedOperand text)
    | none, .divider =>
      match f.hasOperands, rest with
      | false, text :: _ => .error (.unwantedOperand text)
      | _, _ => .ok (some { g with operands := g.operands ++ rest })
    | none, .short letters =>
      if letters.head? = some 'h' then .ok none else .error (.unknownOption arg)
    | none, .long name joined =>
      if f.valued.contains name then
        match joined with
        | none => f.read (some name) g rest
        | some value =>
          match g.addValue name value with
          | .ok g => f.read none g rest
          | .error fault => .error fault
      else if name ≠ "help" && !f.flags.contains name then .error (.unknownOption arg)
      else if joined.isSome then .error (.unwantedValue name)
      else if name = "help" then .ok none
      else
        match g.addFlag name with
        | .ok g => f.read none g rest
        | .error fault => .error fault

end Rollout.CommandLine
