/-!
Values of a TOML document. A table lists its entries in the order of their keys, and remembers how it
came about, because that decides whether later lines may add to it.
-/

namespace Rollout.Toml

inductive Origin
  /-- Written between braces; complete as it stands. -/
  | inline
  /-- On the way to a table that a header names. -/
  | implied
  /-- On the way along a dotted key. -/
  | dotted
  /-- Named by a header itself. -/
  | header
  deriving DecidableEq

/-- Whether a path may pass through a table of this origin, or end at it. Headers stop at nothing but
a complete table; a dotted key ends only where dotted keys began the table. -/
def Origin.admits (dotted last : Bool) : Origin → Bool
  | .inline => false
  | .dotted => true
  | .implied => !(dotted && last)
  | .header => !dotted

inductive Value
  | text (s : String)
  | integer (n : Int)
  /-- Begins as a whole number, but its digits spell none. -/
  | garbled
  | float (literal : String)
  | boolean (b : Bool)
  | moment (literal : String)
  /-- A growing list takes further tables from headers in double brackets. -/
  | list (growing : Bool) (items : List Value)
  | table (origin : Origin) (entries : List (String × Value))
  deriving Inhabited

abbrev Entries := List (String × Value)

namespace Entries

def get? (key : String) (entries : Entries) : Option Value :=
  (entries.find? (·.1 == key)).map (·.2)

def put (key : String) (value : Value) : Entries → Entries
  | [] => [(key, value)]
  | (k, v) :: rest =>
    if key = k then (key, value) :: rest
    else if key < k then (key, value) :: (k, v) :: rest
    else (k, v) :: put key value rest

def add (key : String) (value : Value) (entries : Entries) : Option Entries :=
  if (entries.get? key).isSome then none else some (entries.put key value)

/-- Changes the table that a path leads to, and makes the tables on the way. A path passes through
the last table of a growing list, but a dotted key does not end there. -/
def within (dotted : Bool) (change : Entries → Option Entries) :
    (path : List String) → Entries → Option Entries
  | [], entries => change entries
  | key :: path, entries =>
    match entries.get? key with
    | none => do
      let inner ← within dotted change path []
      return entries.put key (.table (if dotted then .dotted else .implied) inner)
    | some (.table origin inner) =>
      if origin.admits dotted path.isEmpty then do
        return entries.put key (.table origin (← within dotted change path inner))
      else none
    | some (.list true items) =>
      match items.getLast? with
      | some (.table origin inner) =>
        if dotted && path.isEmpty then none
        else do
          let last ← within dotted change path inner
          return entries.put key (.list true (items.dropLast ++ [.table origin last]))
      | _ => none
    | some _ => none

end Entries

end Rollout.Toml
