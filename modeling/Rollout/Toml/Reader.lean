import Rollout.Toml.Document

/-!
Reading typed data out of a document. Tables are read in the order of their keys, and the first thing
that does not fit is reported; missing fields come last, in the order in which they are declared.
-/

namespace Rollout.Toml

inductive Mismatch
  | unknownField (name : String) (known : List String)
  | missingField (name : String)
  | unknownVariant (name : String) (known : List String)
  | unfit
  deriving DecidableEq

def quoted (name : String) : String := "\x60" ++ name ++ "\x60"

def expected : List String → String
  | [] => "there are none"
  | [a] => "expected " ++ quoted a
  | [a, b] => "expected " ++ quoted a ++ " or " ++ quoted b
  | names => "expected one of " ++ ", ".intercalate (names.map quoted)

def Mismatch.message : Mismatch → String
  | .unknownField name known => "unknown field " ++ quoted name ++ ", " ++ expected known
  | .missingField name => "missing field " ++ quoted name
  | .unknownVariant name known => "unknown variant " ++ quoted name ++ ", " ++ expected known
  | .unfit => "invalid value"

inductive Fault
  | malformed
  | misfit (why : Mismatch)
  deriving DecidableEq

def Fault.message : Fault → String
  | .malformed => "TOML parse error"
  | .misfit why => "TOML parse error\n" ++ why.message

abbrev Reader (α : Type) := Value → Except Mismatch α

namespace Reader

variable {α σ : Type}

def string : Reader String
  | .text s => .ok s
  | _ => .error .unfit

def boolean : Reader Bool
  | .boolean b => .ok b
  | _ => .error .unfit

def natural (bound : Nat) : Reader Nat
  | .integer n => if 0 ≤ n ∧ n ≤ bound then .ok n.toNat else .error .unfit
  | _ => .error .unfit

def list (item : Reader α) : Reader (List α)
  | .list _ items => items.mapM item
  | _ => .error .unfit

/-- The name under which a moment holds its text when it is taken for a table. -/
def momentField : String := "$__toml_private_datetime"

def entries? : Value → Option Entries
  | .table _ entries => some entries
  | .moment literal => some [(momentField, .text literal)]
  | _ => none

def named (item : Reader α) : Reader (List (String × α)) := fun v =>
  match entries? v with
  | some entries => entries.mapM fun (name, v) => (item v).map (name, ·)
  | none => .error .unfit

def choice (choices : List (String × α)) (name : String) : Except Mismatch α :=
  match choices.find? (·.1 == name) with
  | some (_, a) => .ok a
  | none => .error (.unknownVariant name (choices.map (·.1)))

/-- One of several named choices: its name, or a table with an empty value under its name. -/
def oneOf (choices : List (String × α)) : Reader α
  | .text name => choice choices name
  | .table _ [(name, v)] => do
    let chosen ← choice choices name
    match v with
    | .table _ [] | .list _ [] => return chosen
    | _ => .error .unfit
  | _ => .error .unfit

structure Field (σ : Type) where
  name : String
  read : Value → σ → Except Mismatch σ
  /-- Whether a list that stops before this field can stand for the record. -/
  spare : Bool

def Field.of (name : String) (reader : Reader α) (set : σ → α → σ) : Field σ :=
  ⟨name, fun v acc => (reader v).map (set acc), false⟩

def Field.spareOf (name : String) (reader : Reader α) (set : σ → α → σ) : Field σ :=
  { Field.of name reader set with spare := true }

def readEntry (fields : List (Field σ)) (acc : σ) (entry : String × Value) : Except Mismatch σ :=
  match fields.find? (·.name == entry.1) with
  | some field => field.read entry.2 acc
  | none => .error (.unknownField entry.1 (fields.map (·.name)))

/-- A record: a table of its fields, or a list of their values in the order of declaration. -/
def record (fields : List (Field σ)) (blank : σ) (finish : σ → Except Mismatch α) : Reader α
  | .list _ items => do
    let acc ← (fields.zip items).foldlM (fun acc (field, v) => field.read v acc) blank
    if (fields.drop items.length).all (·.spare) then finish acc else .error .unfit
  | v =>
    match entries? v with
    | some entries => entries.foldlM (readEntry fields) blank >>= finish
    | none => .error .unfit

def required (name : String) : Option α → Except Mismatch α
  | some a => .ok a
  | none => .error (.missingField name)

def run (reader : Reader α) (text : String) : Except Fault α :=
  match document .second text with
  | some entries => (reader (.table .header entries)).mapError .misfit
  | none => .error .malformed

end Reader

end Rollout.Toml
