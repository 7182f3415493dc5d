/-! Quoting a value so that a shell reads it as one word. -/

namespace Rollout.Shell

def isPlain (c : Char) : Bool :=
  ('a' ≤ c && c ≤ 'z') || ('A' ≤ c && c ≤ 'Z') || ('0' ≤ c && c ≤ '9') || "-_=/,.+".toList.contains c

/-- The inside of a quoted value: a quote or an exclamation mark leaves the quotes and is escaped. -/
def quoteInside : List Char → List Char
  | [] => []
  | c :: r =>
    if c = '\'' || c = '!' then '\'' :: '\\' :: c :: '\'' :: quoteInside r else c :: quoteInside r

def quoteChars (cs : List Char) : List Char :=
  if !cs.isEmpty && cs.all isPlain then cs else '\'' :: (quoteInside cs ++ ['\''])

def quote (s : String) : String := .ofList (quoteChars s.toList)

theorem quoteChars_of_isPlain {cs : List Char} (h : cs.all isPlain = true) (hne : cs ≠ []) :
    quoteChars cs = cs := by
  simp [quoteChars, h, hne]

end Rollout.Shell
