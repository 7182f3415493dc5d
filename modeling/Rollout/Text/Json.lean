/-! Structured output as indented JSON text. Every value of an array or object has a line of its own. -/

namespace Rollout.Text

inductive Json
  | null
  | text (value : String)
  | array (items : List Json)
  | object (fields : List (String × Json))

namespace Json

def hexDigit (n : Nat) : Char := if n < 10 then .ofNat (48 + n) else .ofNat (87 + n)

def escape (c : Char) : List Char :=
  match c with
  | '"' => ['\\', '"']
  | '\\' => ['\\', '\\']
  | '\n' => ['\\', 'n']
  | '\r' => ['\\', 'r']
  | '\t' => ['\\', 't']
  | '\x08' => ['\\', 'b']
  | '\x0c' => ['\\', 'f']
  | _ =>
    if c.toNat < 32 then ['\\', 'u', '0', '0', hexDigit (c.toNat / 16), hexDigit (c.toNat % 16)]
    else [c]

def quote (s : String) : String := "\"" ++ .ofList (s.toList.flatMap escape) ++ "\""

mutual

def render (margin : String) : Json → String
  | .null => "null"
  | .text value => quote value
  | .array [] => "[]"
  | .array (item :: rest) =>
    "[\n" ++ margin ++ "  " ++ render (margin ++ "  ") item ++ renderItems (margin ++ "  ") rest ++
      "\n" ++ margin ++ "]"
  | .object [] => "\x7b\x7d"
  | .object ((key, value) :: rest) =>
    "\x7b\n" ++ margin ++ "  " ++ quote key ++ ": " ++ render (margin ++ "  ") value ++
      renderFields (margin ++ "  ") rest ++ "\n" ++ margin ++ "\x7d"

def renderItems (margin : String) : List Json → String
  | [] => ""
  | item :: rest => ",\n" ++ margin ++ render margin item ++ renderItems margin rest

def renderFields (margin : String) : List (String × Json) → String
  | [] => ""
  | (key, value) :: rest =>
    ",\n" ++ margin ++ quote key ++ ": " ++ render margin value ++ renderFields margin rest

end

end Json

end Rollout.Text
