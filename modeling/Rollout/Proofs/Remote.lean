import Rollout.Proofs.Destination
import Rollout.Proofs.Quotation

/-!
What command lines and uploads leave on a remote host. Directories hold entries by name. A shell that
changes into a directory takes `..` by names, an upload takes it where the links before it have led:
the two may part there, and nowhere else. Of the commands that deploys use it is said what they may
leave, also when they fail or are cut off; of all others nothing is said.
-/

namespace Rollout

namespace Remote

open Rehearsal.Shell (Part Pattern PatternItem Session Substitute Word)
open Shell (Globs Mark Spells Token)

inductive Entry
  | file (content : Bytes)
  | link (target : String)
  | directory
  deriving DecidableEq

abbrev Contents (δ : Type) := δ → String → Option Entry

namespace Contents

variable {δ : Type} {t : Contents δ} {p q : δ → String → Prop} {e e' : Option Entry} {d : δ} {n : String}

open Classical in
/-- The contents where some entries have been replaced by one and the same, or have gone. -/
noncomputable def lay (t : Contents δ) (which : δ → String → Prop) (e : Option Entry) : Contents δ :=
  fun d n => if which d n then e else t d n

theorem lay_of (h : p d n) : t.lay p e d n = e := if_pos h

theorem lay_of_not (h : ¬ p d n) : t.lay p e d n = t d n := if_neg h

theorem of_lay_ne (h : t.lay p e d n ≠ t d n) : p d n := by_contra fun hp => h (lay_of_not hp)

theorem lay_congr (h : ∀ d n, p d n ↔ q d n) : t.lay p e = t.lay q e := by
  obtain rfl : p = q := funext fun d => funext fun n => propext (h d n)
  rfl

theorem lay_none (h : ∀ d n, ¬ p d n) : t.lay p e = t :=
  funext fun d => funext fun n => lay_of_not (h d n)

theorem lay_lay : (t.lay p e).lay q e = t.lay (fun d n => p d n ∨ q d n) e := by
  funext d n
  by_cases hq : q d n
  · rw [lay_of hq, lay_of (.inr hq)]
  · rw [lay_of_not hq]
    by_cases hp : p d n
    · rw [lay_of hp, lay_of (.inl hp)]
    · rw [lay_of_not hp, lay_of_not (not_or.mpr ⟨hp, hq⟩)]

theorem lay_lay_of_imp (h : ∀ d n, p d n → q d n) : (t.lay p e').lay q e = t.lay q e := by
  funext d n
  by_cases hq : q d n
  · rw [lay_of hq, lay_of hq]
  · rw [lay_of_not hq, lay_of_not hq, lay_of_not (mt (h d n) hq)]

def Free (t : Contents δ) (names : δ → String → Prop) : Prop :=
  ∀ d n, names d n → t d n ≠ some .directory

theorem Free.lay {names : δ → String → Prop} (h : t.Free names) (he : e ≠ some .directory) :
    (t.lay p e).Free names := by
  intro d n hn
  by_cases hp : p d n
  · rwa [lay_of hp]
  · rw [lay_of_not hp]
    exact h d n hn

theorem lay_eq_self (h : ∀ d n, p d n → t d n = e) : t.lay p e = t := by
  funext d n
  by_cases hp : p d n
  · rw [lay_of hp, h d n hp]
  · rw [lay_of_not hp]

end Contents

inductive Argument
  | text (s : String)
  | glob (pattern : Pattern)

namespace Argument

def isOption (s : String) : Bool := s.toList.head? = some '-'

theorem isOption_append {s t : String} (h : s ≠ "") : isOption (s ++ t) = isOption s := by
  have hne : s.toList ≠ [] := by simpa using h
  rw [isOption, isOption, String.toList_append, List.head?_append_of_ne_nil _ hne]

def isSimple : PatternItem → Bool
  | .char c => c ≠ '/'
  | .many => true
  | _ => false

/-- The names that an argument of a removal stands for. A pattern has to begin with a character, so
that no option comes of it, and no hidden name but one that it spells. -/
def operand? : Argument → Option (String → Bool)
  | .text s => if Path.IsEntryName s.toList ∧ !isOption s then some (· == s) else none
  | .glob pattern =>
    match pattern with
    | .char c :: _ =>
      if c ≠ '-' ∧ pattern.all isSimple then some fun name => pattern.admits name.toList else none
    | _ => none

end Argument

inductive Command
  | cd (path : String)
  | remove (operands : List (String → Bool))
  | link (target name : String)
  | other

open Argument in
def Command.ofArguments : List Argument → Command
  | [.text "cd", .text path] => if path = "" ∨ isOption path then .other else .cd path
  | .text "rm" :: .text "-f" :: operands =>
    match operands.mapM operand? with
    | some operands => .remove operands
    | none => .other
  | [.text "ln", .text "-s", .text target, .text name] =>
    if Path.IsEntryName name.toList ∧ !isOption target ∧ !isOption name then .link target name
    else .other
  | _ => .other

namespace Command

open Argument

theorem ofArguments_cd {path : String} (hne : path ≠ "") (hoption : isOption path = false) :
    ofArguments [.text "cd", .text path] = .cd path := by
  simp [ofArguments, hne, hoption]

theorem ofArguments_remove {argument : Argument} {operand : String → Bool}
    (hoperand : argument.operand? = some operand) :
    ofArguments [.text "rm", .text "-f", argument] = .remove [operand] := by
  simp [ofArguments, hoperand]

theorem operand?_text {s : String} (hname : Path.IsEntryName s.toList)
    (hoption : isOption s = false) : (Argument.text s).operand? = some (· == s) := by
  simp [operand?, hname, hoption]

theorem ofArguments_link {target name : String} (hname : Path.IsEntryName name.toList)
    (htarget : isOption target = false) (hoption : isOption name = false) :
    ofArguments [.text "ln", .text "-s", .text target, .text name] = .link target name := by
  simp [ofArguments, hname, htarget, hoption]

end Command

def simpleCommands? : List Token → Option (List (List Word))
  | [] => some [[]]
  | .word word :: rest =>
    match simpleCommands? rest with
    | some (command :: others) => some ((word :: command) :: others)
    | _ => none
  | .operator ['&', '&'] :: rest => (simpleCommands? rest).map ([] :: ·)
  | _ => none

structure Host (δ : Type) where
  session : Session
  substitute : Substitute
  home : δ
  walk : δ → Path.Component → Option δ
  /-- Where `cd` leads to, without a `CDPATH`. -/
  change : δ → List Path.Component → Option δ
  change_of_notMem : ∀ here steps, .up ∉ steps → change here steps = steps.foldlM walk here

namespace Host

variable {δ : Type} (h : Host δ)

def directory? (here : δ) (path : String) : Option δ :=
  (Path.componentsOf path.toList).foldlM h.walk here

def entered? (here : δ) (path : String) : Option δ := h.change here (Path.componentsOf path.toList)

/-- A shell and an upload are led to one directory. -/
def Agrees (path : String) : Prop := h.entered? h.home path = h.directory? h.home path

theorem agrees_of_notMem {path : String} (hup : .up ∉ Path.componentsOf path.toList) : h.Agrees path :=
  h.change_of_notMem h.home _ hup

def place? (here : δ) (path : String) : Option (δ × String) :=
  match (Path.componentsOf path.toList).reverse with
  | .name name :: before => (before.reverse.foldlM h.walk here).map (·, .ofList name)
  | _ => none

def arguments (word : Word) : List Argument :=
  if word.isEmpty then [.text ""]
  else
    let parts := (h.session.expand h.substitute Session.expansionDepth (h.session.atHome word)).2
    ((Part.betweenGaps parts).filter (!·.isEmpty)).map fun field =>
      if Session.isActive (Part.marked field) then .glob (.ofMarked (Part.marked field))
      else .text (Part.text field)

def commands? (line : String) : Option (List Command) := do
  let commands ← simpleCommands? (← Shell.tokens? line.toList)
  return commands.map fun words => .ofArguments (words.flatMap h.arguments)

/-- What a command may do in a directory: where it goes on from there, what it leaves, and whether it
succeeds. -/
inductive Performs : Command → δ → Contents δ → δ → Contents δ → Bool → Prop
  | gone {path here there t} : h.entered? here path = some there →
      Performs (.cd path) here t there t true
  | stayed {path here t} : Performs (.cd path) here t here t false
  | removed {operands here t} : (∀ n, operands.any (· n) → t here n ≠ some .directory) →
      Performs (.remove operands) here t here
        (t.lay (fun d n => d = here ∧ operands.any (· n)) none) true
  | unremoved {operands here t} {part : String → Prop} : (∀ n, part n → operands.any (· n)) →
      Performs (.remove operands) here t here (t.lay (fun d n => d = here ∧ part n) none) false
  | linked {target name here t} : t here name = none →
      Performs (.link target name) here t here
        (t.lay (fun d n => d = here ∧ n = name) (some (.link target))) true
  | unlinked {target name here t} : Performs (.link target name) here t here t false
  /-- A link may lead to a directory, in which another one is then set up. -/
  | elsewhere {target name here t t' ok} :
      (t here name = some .directory ∨ ∃ away, t here name = some (.link away)) →
      Performs (.link target name) here t here t' ok
  | unknown {here t there t' ok} : Performs .other here t there t' ok

theorem Performs.of_cd {h : Host δ} {here there : δ} {t t' : Contents δ} {ok : Bool} {path : String}
    (hperforms : h.Performs (.cd path) here t there t' ok) :
    t' = t ∧ (ok = true → h.entered? here path = some there) := by
  cases hperforms with
  | gone hdir => exact ⟨rfl, fun _ => hdir⟩
  | stayed => exact ⟨rfl, by simp⟩

inductive Runs : List Command → δ → Contents δ → Contents δ → Bool → Prop
  | done {here t} : Runs [] here t t true
  | next {command rest here there t t' t'' ok} : h.Performs command here t there t' true →
      Runs rest there t' t'' ok → Runs (command :: rest) here t t'' ok
  | failed {command rest here there t t'} : h.Performs command here t there t' false →
      Runs (command :: rest) here t t' false

def Executes (line : String) (t t' : Contents δ) (ok : Bool) : Prop :=
  ∀ commands, h.commands? line = some commands → h.Runs commands h.home t t' ok

/-- A line that is cut off between two of its commands, before the first or after the last of them. -/
def Breaks (line : String) (t t' : Contents δ) : Prop :=
  ∀ commands, h.commands? line = some commands →
    ∃ part ok, part <+: commands ∧ h.Runs part h.home t t' ok

/-- A file that is written; through a link nobody knows where. -/
def Writes (content : Bytes) (path : String) (t t' : Contents δ) : Prop :=
  ∃ d name, h.place? h.home path = some (d, name) ∧ t d name ≠ some .directory ∧
    ((∀ away, t d name ≠ some (.link away)) →
      t' = t.lay (fun d' n => d' = d ∧ n = name) (some (.file content)))

section Paths

variable {h}

theorem place?_joinRemote {here : δ} {dir file : String} (hdir : dir ≠ "")
    (hfile : Path.IsEntryName file.toList) :
    h.place? here (Shell.Command.joinRemote dir file) = (h.directory? here dir).map (·, file) := by
  rw [place?, Shell.Command.componentsOf_joinRemote hdir hfile, directory?]
  simp

end Paths

def spell (d : List Path.Component) (step : Path.Component) : Option (List Path.Component) :=
  some (match step with
    | .root => []
    | .here => d
    | .up => d.dropLast
    | .name _ => d ++ [step])

def spelled : Host (List Path.Component) where
  session := { self := "1", name := "sh" }
  substitute s _ := (s, "")
  home := []
  walk := spell
  change d steps := steps.foldlM spell d
  change_of_notMem _ _ _ := rfl

theorem agrees_spelled (path : String) : spelled.Agrees path := rfl

theorem directory?_spelled (here : List Path.Component) (path : String) :
    ∃ d, spelled.directory? here path = some d := by
  rw [directory?]
  induction Path.componentsOf path.toList generalizing here with
  | nil => exact ⟨here, rfl⟩
  | cons step steps ih => exact ih _

section Words

variable {word word' : Word} {text text' : String}

theorem ofMarked_of_inactive {cs : List (Char × Bool)} (hcs : Session.isActive cs = false) :
    Pattern.ofMarked cs = cs.map (.char ·.1) := by
  induction cs with
  | nil => rw [Pattern.ofMarked]; rfl
  | cons c rest ih =>
    obtain ⟨c, active⟩ := c
    rw [Session.isActive, List.any_cons, Bool.or_eq_false_iff] at hcs
    rw [Shell.ofMarked_cons, ih hcs.2]
    · rfl
    · rintro rfl hc
      have hactive : c = '*' ∨ c = '?' ∨ c = '[' := by simpa using hc
      obtain rfl | rfl | rfl := hactive <;> simp at hcs

theorem arguments_of_inert (hne : word ≠ []) (hinert : ∀ m ∈ word, m.isInert ∨ m = Shell.star) :
    h.arguments word = [if Session.isActive (Part.marked (word.flatMap Mark.parts))
      then .glob (.ofMarked (Part.marked (word.flatMap Mark.parts)))
      else .text (Part.text (word.flatMap Mark.parts))] := by
  have hparts : h.session.expand h.substitute Session.expansionDepth (h.session.atHome word) =
      (h.session, word.flatMap Mark.parts) := by
    rw [Shell.atHome_of_inert hinert]
    exact Shell.expandWith_of_inert hinert
  have hfield : (word.flatMap Mark.parts).isEmpty = false := by
    obtain ⟨m, rest, rfl⟩ := List.exists_cons_of_ne_nil hne
    rw [List.flatMap_cons, Mark.parts]
    split <;> rfl
  rw [arguments, if_neg (by simpa using hne), hparts]
  simp only [Shell.betweenGaps_parts, List.filter_singleton, hfield]
  rfl

theorem arguments_of_spells (hword : Spells word text) : h.arguments word = [.text text] := by
  by_cases hne : word = []
  · subst hne
    rw [← String.toList_inj.mp (show "".toList = text.toList from hword.chars)]
    rfl
  · rw [h.arguments_of_inert hne fun m hm => .inl (hword.inert m hm), Shell.isActive_parts hword.inert,
      Shell.text_parts, hword.chars, String.ofList_toList]
    rfl

theorem arguments_of_globs (hword : Globs word text text') :
    h.arguments word = [.glob (text.toList.map .char ++ .many :: text'.toList.map .char)] := by
  obtain ⟨⟨before, after, rfl, hbefore, hafter⟩, hpattern⟩ := hword
  have hinert : ∀ m ∈ before ++ Shell.star :: after, m.isInert ∨ m = Shell.star := by
    intro m hm
    obtain hm | hm := List.mem_append.mp hm
    · exact .inl (hbefore.inert m hm)
    · obtain rfl | hm := List.mem_cons.mp hm
      · exact .inr rfl
      · exact .inl (hafter.inert m hm)
  obtain ⟨field, hfield, -, hmarked⟩ := hpattern h.substitute h.session
  rw [Shell.atHome_of_inert hinert] at hfield
  obtain rfl : (before ++ Shell.star :: after).flatMap Mark.parts = field :=
    (Prod.mk.inj ((Shell.expandWith_of_inert hinert).symm.trans hfield)).2
  rw [h.arguments_of_inert (by simp) hinert, hmarked]
  cases hactive : Session.isActive
      (Part.marked ((before ++ Shell.star :: after).flatMap Mark.parts)) with
  | true => rfl
  | false =>
    have hmany : PatternItem.many ∈ text.toList.map .char ++ .many :: text'.toList.map .char := by simp
    rw [← hmarked, ofMarked_of_inactive hactive] at hmany
    simp at hmany

end Words

section Lines

theorem simpleCommands?_words {tokens : List Token} {command first : List Word}
    {others : List (List Word)} (htokens : simpleCommands? tokens = some (first :: others)) :
    simpleCommands? (command.map .word ++ tokens) = some ((command ++ first) :: others) := by
  induction command with
  | nil => exact htokens
  | cons word rest ih =>
    rw [List.map_cons, List.cons_append, simpleCommands?, ih]
    rfl

theorem simpleCommands?_andList (first : List Word) (rest : List (List Word)) :
    simpleCommands? (Shell.andList (first :: rest)) = some (first :: rest) := by
  induction rest generalizing first with
  | nil =>
    have hwords : simpleCommands? (first.map .word ++ []) = some [first ++ []] :=
      simpleCommands?_words rfl
    simpa [Shell.andList] using hwords
  | cons second rest ih =>
    have hoperator : simpleCommands? (.operator ['&', '&'] :: Shell.andList (second :: rest)) =
        some ([] :: second :: rest) := by
      rw [simpleCommands?, ih]
      rfl
    rw [Shell.andList, simpleCommands?_words hoperator, List.append_nil]
    exact List.cons_ne_nil _ _

theorem commands?_of_tokens {line : String} {first : List Word} {rest : List (List Word)}
    (htokens : Shell.tokens? line.toList = some (Shell.andList (first :: rest))) :
    h.commands? line =
      some ((first :: rest).map fun words => .ofArguments (words.flatMap h.arguments)) := by
  rw [commands?, htokens]
  change (do let commands ← simpleCommands? (Shell.andList (first :: rest)); _) = _
  rw [simpleCommands?_andList]
  rfl

theorem admits_char {c : Char} {p : Pattern} {cs : List Char} :
    Pattern.admits (.char c :: p) cs = true ↔ ∃ rest, cs = c :: rest ∧ Pattern.admits p rest := by
  cases cs with
  | nil => simp [Pattern.admits]
  | cons d rest =>
    simp only [Pattern.admits, PatternItem.admits, Bool.and_eq_true, decide_eq_true_eq]
    constructor
    · rintro ⟨rfl, hrest⟩
      exact ⟨rest, rfl, hrest⟩
    · rintro ⟨_, heq, hrest⟩
      obtain ⟨rfl, rfl⟩ := List.cons.inj heq
      exact ⟨rfl, hrest⟩

theorem admits_chars {start : List Char} {p : Pattern} {cs : List Char} :
    Pattern.admits (start.map .char ++ p) cs = true ↔
      ∃ rest, cs = start ++ rest ∧ Pattern.admits p rest := by
  induction start generalizing cs with
  | nil => simp
  | cons c start ih =>
    rw [List.map_cons, List.cons_append, admits_char]
    constructor
    · rintro ⟨_, rfl, h⟩
      obtain ⟨rest, rfl, hrest⟩ := ih.mp h
      exact ⟨rest, rfl, hrest⟩
    · rintro ⟨rest, rfl, hrest⟩
      exact ⟨_, rfl, ih.mpr ⟨rest, rfl, hrest⟩⟩

theorem admits_many {p : Pattern} {cs : List Char} :
    Pattern.admits (.many :: p) cs = true ↔ ∃ some rest, cs = some ++ rest ∧ Pattern.admits p rest := by
  induction cs with
  | nil =>
    rw [Pattern.admits]
    constructor
    · exact fun h => ⟨[], [], rfl, h⟩
    · rintro ⟨some, rest, hnil, h⟩
      obtain ⟨-, rfl⟩ := List.append_eq_nil_iff.mp hnil.symm
      exact h
  | cons c cs ih =>
    rw [Pattern.admits, Bool.or_eq_true, ih]
    constructor
    · rintro (h | ⟨some, rest, rfl, h⟩)
      · exact ⟨[], c :: cs, rfl, h⟩
      · exact ⟨c :: some, rest, rfl, h⟩
    · rintro ⟨_ | ⟨d, some⟩, rest, heq, h⟩
      · exact .inl (heq ▸ h)
      · obtain ⟨rfl, rfl⟩ := List.cons.inj heq
        exact .inr ⟨some, rest, rfl, h⟩

theorem admits_star {first last name : String} :
    Pattern.admits (first.toList.map .char ++ .many :: last.toList.map .char) name.toList = true ↔
      ∃ mid, name = first ++ mid ++ last := by
  have hlast {cs : List Char} :
      Pattern.admits (last.toList.map .char) cs = true ↔ cs = last.toList := by
    rw [← List.append_nil (last.toList.map _), admits_chars]
    simp [Pattern.admits]
  rw [admits_chars]
  simp only [admits_many, hlast]
  constructor
  · rintro ⟨_, hname, mid, _, rfl, rfl⟩
    refine ⟨.ofList mid, String.toList_inj.mp ?_⟩
    simp [hname]
  · rintro ⟨mid, rfl⟩
    exact ⟨_, by simp, mid.toList, _, rfl, rfl⟩

end Lines

end Host

end Remote

end Rollout
