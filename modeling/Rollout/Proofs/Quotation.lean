import Mathlib.Data.List.Forall2
import Mathlib.Tactic.SplitIfs
import Rollout.Rehearsal.Shell.Expansion
import Rollout.Shell.Command

/-!
Quoted values, read back by a shell. A value stands in a command line as one word of which every
character is itself, so that a line holds the words and operators that it is written with.
-/

namespace Rollout.Shell

open Rehearsal.Shell (Part Pattern Session Substitute Word)

def specials : List Char := "|&;<>()$\x60\\\"' \t\n*?[]#~%^!\x7b\x7d".toList

def isSpecial (c : Char) : Bool := specials.contains c

/-- A mark that is its own character wherever it stands in an argument. -/
def Mark.isInert (m : Mark) : Bool := m.quoting = .literal || (m.quoting = .bare && !isSpecial m.char)

/-- The word is the text: no shell replaces, divides or matches anything in it. -/
structure Spells (word : Word) (text : String) : Prop where
  chars : word.map (·.char) = text.toList
  inert : ∀ m ∈ word, m.isInert
  fields : ∀ (substitute : Substitute) (s : Session), s.expandFields substitute word = (s, [text])

theorem Spells.unique {word : Word} {text text' : String} (h : Spells word text)
    (h' : Spells word text') : text = text' :=
  String.toList_inj.mp (h.chars.symm.trans h'.chars)

theorem texts_unique {words : List Word} {texts texts' : List String}
    (h : List.Forall₂ Spells words texts) (h' : List.Forall₂ Spells words texts') :
    texts = texts' := by
  induction h generalizing texts' with
  | nil => cases h'; rfl
  | cons hword _ ih =>
    cases h' with
    | cons hword' hrest => rw [hword.unique hword', ih hrest]

section Expansion

variable {word : Word}

theorem ne_of_isSpecial {c d : Char} (hc : isSpecial c = false) (hd : isSpecial d = true) : c ≠ d := by
  rintro rfl
  simp [hc] at hd

namespace Mark

def parts (m : Mark) : List Part :=
  if m.quoting = .literal then [.kept, .char m.char false] else [.char m.char true]

theorem not_isSpecial {c : Char} (h : (Mark.mk c .bare).isInert = true) : isSpecial c = false := by
  simpa [isInert] using h

end Mark

def star : Mark := ⟨'*', .bare⟩

theorem expandWith_of_inert {substitute : Substitute} {expand} {s : Session}
    (h : ∀ m ∈ word, m.isInert ∨ m = star) :
    s.expandWith substitute expand word = (s, word.flatMap Mark.parts) := by
  induction word with
  | nil => simp [Session.expandWith]
  | cons m rest ih =>
    obtain ⟨hm, hrest⟩ := List.forall_mem_cons.mp h
    obtain ⟨c, quoting⟩ := m
    rw [Session.expandWith]
    cases quoting with
    | literal => simp [ih hrest, Mark.parts]
    | bare =>
      have hne {d : Char} (hd : isSpecial d = true) (hstar : d ≠ '*') : c ≠ d := by
        rcases hm with hm | hm
        · exact ne_of_isSpecial (Mark.not_isSpecial hm) hd
        · cases hm
          exact hstar.symm
      have hspace : c ≠ ' ' := hne (by decide) (by decide)
      have htab : c ≠ '\t' := hne (by decide) (by decide)
      have hline : c ≠ '\n' := hne (by decide) (by decide)
      split
      · next h => cases h
      · next h => cases h
      · next h _ _ => exact absurd h (hne (by decide) (by decide))
      · next h _ _ => exact absurd h (hne (by decide) (by decide))
      · next h _ _ => cases h
      · simp [ih hrest, Mark.parts, hspace, htab, hline]
    | double => simp [Mark.isInert, star] at hm
    | nested => simp [Mark.isInert, star] at hm

theorem atHome_of_inert {s : Session} (h : ∀ m ∈ word, m.isInert ∨ m = star) :
    s.atHome word = word := by
  unfold Session.atHome
  split
  · exact absurd (h _ (.head _)) (by decide)
  · rfl

theorem betweenGaps_parts (word : Word) :
    Part.betweenGaps (word.flatMap Mark.parts) = [word.flatMap Mark.parts] := by
  induction word with
  | nil => rfl
  | cons m rest ih =>
    rw [List.flatMap_cons, Mark.parts]
    split <;> simp [Part.betweenGaps, ih]

theorem text_parts (word : Word) :
    Part.text (word.flatMap Mark.parts) = .ofList (word.map (·.char)) := by
  unfold Part.text
  congr 1
  induction word with
  | nil => rfl
  | cons m rest ih =>
    rw [List.flatMap_cons, List.filterMap_append, ih, Mark.parts]
    split <;> rfl

theorem marked_cons (m : Mark) (word : Word) :
    Part.marked (List.flatMap Mark.parts (m :: word)) =
      Part.marked m.parts ++ Part.marked (word.flatMap Mark.parts) := by
  rw [List.flatMap_cons, Part.marked, List.filterMap_append]
  rfl

theorem isActive_parts (h : ∀ m ∈ word, m.isInert) :
    Session.isActive (Part.marked (word.flatMap Mark.parts)) = false := by
  induction word with
  | nil => rfl
  | cons m rest ih =>
    obtain ⟨hm, hrest⟩ := List.forall_mem_cons.mp h
    obtain ⟨c, quoting⟩ := m
    rw [marked_cons, Session.isActive, List.any_append, ← Session.isActive, ← Session.isActive,
      ih hrest, Bool.or_false]
    cases quoting with
    | literal => rfl
    | bare =>
      have hc := Mark.not_isSpecial hm
      have hstar := ne_of_isSpecial hc (d := '*') (by decide)
      have hmark := ne_of_isSpecial hc (d := '?') (by decide)
      have hbracket := ne_of_isSpecial hc (d := '[') (by decide)
      simp [Mark.parts, Part.marked, Session.isActive, hstar, hmark, hbracket]
    | double => simp [Mark.isInert] at hm
    | nested => simp [Mark.isInert] at hm

theorem paths_of_inert {s : Session} {text : String} (hchars : word.map (·.char) = text.toList)
    (h : ∀ m ∈ word, m.isInert) : s.paths (word.flatMap Mark.parts) = [text] := by
  dsimp only [Session.paths]
  rw [isActive_parts h, text_parts, hchars, String.ofList_toList]
  rfl

theorem Spells.of_inert {text : String} (hchars : word.map (·.char) = text.toList)
    (h : ∀ m ∈ word, m.isInert) : Spells word text := by
  refine ⟨hchars, h, fun substitute s => ?_⟩
  have hparts : s.expand substitute Session.expansionDepth word = (s, word.flatMap Mark.parts) :=
    expandWith_of_inert fun m hm => .inl (h m hm)
  rw [Session.expandFields, atHome_of_inert fun m hm => .inl (h m hm), hparts]
  cases word with
  | nil =>
    rw [← String.toList_inj.mp (show "".toList = text.toList from hchars)]
    rfl
  | cons m rest =>
    have hne : (List.flatMap Mark.parts (m :: rest)).isEmpty = false := by
      rw [List.flatMap_cons, Mark.parts]
      split <;> rfl
    change (s, ((Part.betweenGaps _).filter (!·.isEmpty)).flatMap s.paths) = (s, [text])
    rw [betweenGaps_parts, List.filter_singleton, hne]
    exact congrArg (s, ·) ((List.append_nil _).trans (paths_of_inert hchars h))

theorem Spells.append {word' : Word} {text text' : String} (h : Spells word text)
    (h' : Spells word' text') : Spells (word ++ word') (text ++ text') := by
  apply Spells.of_inert
  · rw [List.map_append, h.chars, h'.chars, String.toList_append]
  · exact fun m hm => (List.mem_append.mp hm).elim (h.inert m) (h'.inert m)

theorem ofMarked_cons {c : Char} {active : Bool} (h : active = true → c ∉ ['*', '?', '['])
    (rest : List (Char × Bool)) :
    Pattern.ofMarked ((c, active) :: rest) = .char c :: Pattern.ofMarked rest := by
  rw [Pattern.ofMarked]
  · rintro rfl rfl
    simp at h
  · rintro rfl rfl
    simp at h
  · rintro rfl rfl
    simp at h

theorem ofMarked_parts (h : ∀ m ∈ word, m.isInert) (more : List Mark) :
    Pattern.ofMarked (Part.marked ((word ++ more).flatMap Mark.parts)) =
      word.map (.char ·.char) ++ Pattern.ofMarked (Part.marked (more.flatMap Mark.parts)) := by
  induction word with
  | nil => rfl
  | cons m rest ih =>
    obtain ⟨hm, hrest⟩ := List.forall_mem_cons.mp h
    obtain ⟨c, quoting⟩ := m
    rw [List.cons_append, marked_cons, List.map_cons, List.cons_append, ← ih hrest]
    cases quoting with
    | literal => exact ofMarked_cons (by simp) _
    | bare =>
      have hc := Mark.not_isSpecial hm
      apply ofMarked_cons
      rintro - h
      have hactive : ['*', '?', '['].all isSpecial = true := by decide
      simp [List.all_eq_true.mp hactive c h] at hc
    | double => simp [Mark.isInert] at hm
    | nested => simp [Mark.isInert] at hm

/-- The word is one field, a pattern of the first text, then anything, then the second text. -/
structure Globs (word : Word) (first last : String) : Prop where
  parts : ∃ before after, word = before ++ star :: after ∧ Spells before first ∧ Spells after last
  pattern : ∀ (substitute : Substitute) (s : Session), ∃ field,
    s.expand substitute Session.expansionDepth (s.atHome word) = (s, field) ∧
    Part.betweenGaps field = [field] ∧
    Pattern.ofMarked (Part.marked field) =
      first.toList.map .char ++ .many :: last.toList.map .char

theorem Globs.of_spells {before after : Word} {first last : String} (hb : Spells before first)
    (ha : Spells after last) : Globs (before ++ star :: after) first last := by
  have hinert : ∀ m ∈ before ++ star :: after, m.isInert ∨ m = star := by
    intro m hm
    rcases List.mem_append.mp hm with hm | hm
    · exact .inl (hb.inert m hm)
    · rcases List.mem_cons.mp hm with hm | hm
      · exact .inr hm
      · exact .inl (ha.inert m hm)
  refine ⟨⟨before, after, rfl, hb, ha⟩, fun substitute s =>
    ⟨(before ++ star :: after).flatMap Mark.parts, ?_, betweenGaps_parts _, ?_⟩⟩
  · rw [atHome_of_inert hinert]
    exact expandWith_of_inert hinert
  · have hmany : Pattern.ofMarked (Part.marked ((star :: after).flatMap Mark.parts)) =
        .many :: Pattern.ofMarked (Part.marked (after.flatMap Mark.parts)) := by
      change Pattern.ofMarked (('*', true) :: _) = _
      rw [Pattern.ofMarked]
      rfl
    rw [ofMarked_parts hb.inert, hmany, ← after.append_nil, ofMarked_parts ha.inert, ← hb.chars, ← ha.chars]
    simp [Part.marked, Pattern.ofMarked, Function.comp_def]

end Expansion

section Reading

variable {pending : Pending} {tokens : List Token} {marks : List Mark}

def valueWord (s : String) : Word :=
  s.toList.map (⟨·, if !s.toList.isEmpty && s.toList.all isPlain then .bare else .literal⟩)

theorem not_isSpecial_of_isPlain {c : Char} (h : isPlain c = true) : isSpecial c = false := by
  have hnone : specials.all (!isPlain ·) = true := by decide
  cases hc : isSpecial c with
  | false => rfl
  | true =>
    have hmem : c ∈ specials := by simpa [isSpecial] using hc
    simpa [h] using List.all_eq_true.mp hnone c hmem

theorem spells_valueWord (s : String) : Spells (valueWord s) s := by
  apply Spells.of_inert
  · simp [valueWord, Function.comp_def]
  · intro m hm
    obtain ⟨c, hc, rfl⟩ := List.mem_map.mp hm
    split
    · rename_i h
      have hplain : isPlain c = true := by
        simp only [Bool.and_eq_true, List.all_eq_true] at h
        exact h.2 c hc
      simp [Mark.isInert, not_isSpecial_of_isPlain hplain]
    · rfl

theorem step_of_isPlain {r : Reader} {c : Char} (hr : r.mode = .bare) (h : isPlain c = true) :
    r.step c = r.push c .bare := by
  have hne {d : Char} (hd : d ∈ specials) : c ≠ d := by
    apply ne_of_isSpecial (not_isSpecial_of_isPlain h)
    simpa [isSpecial] using hd
  have hop : isOperatorChar c = false := by
    have hsub : "&|;<>()".toList.all isSpecial = true := by decide
    cases hc : isOperatorChar c with
    | false => rfl
    | true =>
      have hmem : c ∈ "&|;<>()".toList := by simpa [isOperatorChar] using hc
      have hspecial := List.all_eq_true.mp hsub c hmem
      rw [not_isSpecial_of_isPlain h] at hspecial
      cases hspecial
  have hblank : isBlank c = false := by
    simp [isBlank, hne (d := ' ') (by decide), hne (d := '\t') (by decide)]
  have hsub : r.substitution? .bare c = none := by
    rw [Reader.substitution?, if_neg (hne (by decide))]
    simp [hne (d := '(') (by decide), hne (d := '\x7b') (by decide)]
  rw [Reader.step, hr]
  dsimp only [Reader.stepBare]
  rw [if_neg (hne (by decide)), if_neg (hne (by decide)), if_neg (hne (by decide)),
    if_neg (hne (by decide)), hblank, hsub, hop]
  simp [hne (d := '#') (by decide)]

namespace Reader

def read (r : Reader) (cs : List Char) : Reader := cs.foldl step r

@[simp] theorem read_nil (r : Reader) : r.read [] = r := rfl

@[simp] theorem read_cons (r : Reader) (c : Char) (cs : List Char) :
    r.read (c :: cs) = (r.step c).read cs := rfl

theorem read_append (r : Reader) (cs ds : List Char) : r.read (cs ++ ds) = (r.read cs).read ds :=
  List.foldl_append

end Reader

theorem read_of_isPlain {cs : List Char} (h : ∀ c ∈ cs, isPlain c = true) :
    (Reader.mk .bare (.word marks) tokens).read cs =
      ⟨.bare, .word ((cs.map (⟨·, .bare⟩)).reverse ++ marks), tokens⟩ := by
  induction cs generalizing marks with
  | nil => rfl
  | cons c r ih =>
    obtain ⟨hc, hr⟩ := List.forall_mem_cons.mp h
    rw [Reader.read_cons, step_of_isPlain rfl hc]
    apply (ih hr).trans
    simp

theorem read_quoteInside (cs : List Char) :
    (Reader.mk .single (.word marks) tokens).read (quoteInside cs) =
      ⟨.single, .word ((cs.map (⟨·, .literal⟩)).reverse ++ marks), tokens⟩ := by
  induction cs generalizing marks with
  | nil => rfl
  | cons c r ih =>
    have hpush : (Reader.mk .single (.word (⟨c, .literal⟩ :: marks)) tokens).read (quoteInside r) =
        ⟨.single, .word (((c :: r).map (⟨·, .literal⟩)).reverse ++ marks), tokens⟩ := by
      rw [ih]
      simp
    rw [quoteInside, ← hpush]
    split
    · rename_i h
      -- out of the quotes, the character behind a backslash, and in again
      obtain rfl | rfl : c = '\'' ∨ c = '!' := by simpa using h
      · rfl
      · rfl
    · rename_i h
      have hquote : c ≠ '\'' := by
        rintro rfl
        simp at h
      rw [Reader.read_cons, Reader.step]
      simp only [if_neg hquote]
      rfl

theorem read_quote (s : String) :
    (Reader.mk .bare .nothing tokens).read (quote s).toList =
      ⟨.bare, .word (valueWord s).reverse, tokens⟩ := by
  rw [quote, String.toList_ofList, quoteChars, valueWord]
  cases s.toList with
  | nil => rfl
  | cons c r =>
    split
    · rename_i h
      obtain ⟨hc, hr⟩ : isPlain c = true ∧ ∀ c ∈ r, isPlain c = true := by simpa using h
      rw [Reader.read_cons, step_of_isPlain rfl hc]
      have hread : (Reader.mk .bare (.word [⟨c, .bare⟩]) tokens).read r = _ := read_of_isPlain hr
      apply hread.trans
      simp
    · rw [Reader.read_cons, Reader.read_append]
      change ((Reader.mk .single (.word []) tokens).read (quoteInside (c :: r))).read ['\''] = _
      rw [read_quoteInside]
      simp [Reader.step]

def spaced (texts : List String) : List Char := texts.flatMap fun s => ' ' :: (quote s).toList

theorem read_spaced (texts : List String) :
    ((Reader.mk .bare pending tokens).read (spaced texts)).finish =
      some ((Reader.mk .bare pending tokens).flush.tokens.reverse ++
        texts.map fun s => .word (valueWord s)) := by
  induction texts generalizing pending tokens with
  | nil => simp [spaced, Reader.finish]
  | cons s rest ih =>
    have hspace : (Reader.mk .bare pending tokens).step ' ' =
        ⟨.bare, .nothing, (Reader.mk .bare pending tokens).flush.tokens⟩ := by
      cases pending <;> rfl
    rw [spaced, List.flatMap_cons, ← spaced, List.cons_append, Reader.read_cons, hspace,
      Reader.read_append, read_quote, ih]
    simp [Reader.flush]

theorem quote_of_isPlain {s : String} (h : s.toList.all isPlain = true) (hne : s ≠ "") :
    quote s = s := by
  rw [quote, quoteChars_of_isPlain h (by simpa using hne), String.ofList_toList]

theorem isPlain_of_isDigit {c : Char} (h : c.isDigit = true) : isPlain c = true := by
  simp only [Char.isDigit, Bool.and_eq_true, decide_eq_true_eq] at h
  simp only [isPlain, Bool.or_eq_true, Bool.and_eq_true, decide_eq_true_eq, Char.le_def]
  exact .inl (.inr h)

theorem quote_repr (n : Nat) : quote n.repr = n.repr := by
  apply quote_of_isPlain _ Nat.repr_ne_empty
  rw [Nat.toList_repr, List.all_eq_true]
  intro c hc
  exact isPlain_of_isDigit (Nat.isDigit_of_mem_toDigits (by decide) (by decide) hc)

end Reading

/-- Behind the script and one space the line holds just the words that spell the texts, whatever
outside quotes a shell has read before. -/
def Passes (script line : String) (texts : List String) : Prop :=
  ∃ args words, line.toList = script.toList ++ ' ' :: args ∧ List.Forall₂ Spells words texts ∧
    ∀ r : Reader, r.mode = .bare →
      (r.read (' ' :: args)).finish = r.finish.map (· ++ words.map .word)

theorem Passes.unique {script line : String} {texts texts' : List String}
    (h : Passes script line texts) (h' : Passes script line texts') : texts = texts' := by
  obtain ⟨args, words, hline, hwords, hread⟩ := h
  obtain ⟨args', words', hline', hwords', hread'⟩ := h'
  obtain rfl : args = args' := by simpa using hline.symm.trans hline'
  have heq := (hread {} rfl).symm.trans (hread' {} rfl)
  obtain rfl : words = words' := by simpa [Reader.finish, List.map_inj_right] using heq
  exact texts_unique hwords hwords'

def andList : List (List Word) → List Token
  | [] => []
  | [c] => c.map .word
  | c :: rest => c.map .word ++ .operator ['&', '&'] :: andList rest

namespace Command

theorem passes_of_spaced {script line text : String} {texts : List String}
    (h : line.toList = script.toList ++ spaced (text :: texts)) :
    Passes script line (text :: texts) := by
  refine ⟨_, (text :: texts).map valueWord, h, ?_, ?_⟩
  · rw [List.forall₂_map_left_iff, List.forall₂_same]
    exact fun s _ => spells_valueWord s
  · rintro ⟨_, pending, tokens⟩ rfl
    rw [List.map_map]
    exact read_spaced (text :: texts)

theorem passes_lockoutClaim (script domain shard holder : String) (minutes : UInt32) (note : String) :
    Passes script (lockoutClaim script domain shard holder minutes note)
      [domain, "claim", shard, holder, toString minutes.toNat, note] := by
  apply passes_of_spaced
  have hclaim : quote "claim" = "claim" := by decide
  simp [lockoutClaim, spaced, hclaim, quote_repr]

theorem passes_lockoutCheck (script domain shard : String) :
    Passes script (lockoutCheck script domain shard) [domain, "check", shard] := by
  apply passes_of_spaced
  have hcheck : quote "check" = "check" := by decide
  simp [lockoutCheck, spaced, hcheck]

end Command

section AndList

variable {tokens : List Token} {marks : List Mark}

theorem read_space :
    (Reader.mk .bare (.word marks) tokens).read [' '] =
      ⟨.bare, .nothing, .word marks.reverse :: tokens⟩ := rfl

theorem read_and :
    (Reader.mk .bare (.word marks) tokens).read [' ', '&', '&', ' '] =
      ⟨.bare, .nothing, .operator ['&', '&'] :: .word marks.reverse :: tokens⟩ := by
  have hlong : ['&', '&'] ∈ longOperators := by decide
  simp [Reader.step, Reader.stepBare, Reader.substitution?, Reader.pushOperator, Reader.flush,
    isBlank, isOperatorChar, hlong]

theorem read_star : (Reader.mk .bare (.word marks) tokens).read ['*'] =
    ⟨.bare, .word (star :: marks), tokens⟩ := by
  simp [Reader.step, Reader.stepBare, Reader.substitution?, Reader.push, Reader.openWord, isBlank,
    isOperatorChar, star]

theorem read_jar : (Reader.mk .bare (.word marks) tokens).read ['.', 'j', 'a', 'r'] =
    ⟨.bare, .word ((valueWord ".jar").reverse ++ marks), tokens⟩ :=
  read_of_isPlain (List.all_eq_true.mp (by decide))

end AndList

namespace Command

theorem tokens?_clean (dir base : String) :
    tokens? (clean dir base).toList = some (andList
      [[valueWord "cd", valueWord dir],
        [valueWord "rm", valueWord "-f", valueWord base ++ star :: valueWord ".jar"]]) := by
  have hline : (clean dir base).toList = (quote "cd").toList ++ ([' '] ++ ((quote dir).toList ++
      ([' ', '&', '&', ' '] ++ ((quote "rm").toList ++ ([' '] ++ ((quote "-f").toList ++
        ([' '] ++ ((quote base).toList ++ (['*'] ++ ['.', 'j', 'a', 'r']))))))))) := by
    have hcd : quote "cd" = "cd" := by decide
    have hrm : quote "rm" = "rm" := by decide
    have hforce : quote "-f" = "-f" := by decide
    simp [clean, hcd, hrm, hforce]
  change (({} : Reader).read (clean dir base).toList).finish = _
  rw [hline]
  simp only [Reader.read_append, read_quote, read_space, read_and, read_star, read_jar]
  simp [Reader.finish, Reader.flush, andList]

theorem tokens?_relink (dir link archive : String) :
    tokens? (relink dir link archive).toList = some (andList
      [[valueWord "cd", valueWord dir],
        [valueWord "rm", valueWord "-f", valueWord link ++ valueWord ".jar"],
        [valueWord "ln", valueWord "-s", valueWord archive, valueWord link ++ valueWord ".jar"]]) := by
  have hline : (relink dir link archive).toList = (quote "cd").toList ++ ([' '] ++
      ((quote dir).toList ++ ([' ', '&', '&', ' '] ++ ((quote "rm").toList ++ ([' '] ++
        ((quote "-f").toList ++ ([' '] ++ ((quote link).toList ++ (['.', 'j', 'a', 'r'] ++
          ([' ', '&', '&', ' '] ++ ((quote "ln").toList ++ ([' '] ++ ((quote "-s").toList ++
            ([' '] ++ ((quote archive).toList ++ ([' '] ++ ((quote link).toList ++
              ['.', 'j', 'a', 'r']))))))))))))))))) := by
    have hcd : quote "cd" = "cd" := by decide
    have hrm : quote "rm" = "rm" := by decide
    have hforce : quote "-f" = "-f" := by decide
    have hln : quote "ln" = "ln" := by decide
    have hsoft : quote "-s" = "-s" := by decide
    simp [relink, hcd, hrm, hforce, hln, hsoft]
  change (({} : Reader).read (relink dir link archive).toList).finish = _
  rw [hline]
  simp only [Reader.read_append, read_quote, read_space, read_and, read_jar]
  simp [Reader.finish, Reader.flush, andList]

theorem valueWord_inj {s t : String} : valueWord s = valueWord t ↔ s = t :=
  ⟨fun h => (spells_valueWord s).unique (h ▸ spells_valueWord t), congrArg _⟩

theorem lockoutClaim_inj {script domain domain' shard shard' holder holder' note note' : String}
    {minutes minutes' : UInt32}
    (h : lockoutClaim script domain shard holder minutes note =
      lockoutClaim script domain' shard' holder' minutes' note') :
    domain = domain' ∧ shard = shard' ∧ holder = holder' ∧ minutes = minutes' ∧ note = note' := by
  have hclaim := passes_lockoutClaim script domain shard holder minutes note
  rw [h] at hclaim
  have htexts := hclaim.unique (passes_lockoutClaim script domain' shard' holder' minutes' note')
  simp only [List.cons.injEq, true_and, and_true] at htexts
  obtain ⟨hdomain, hshard, hholder, hminutes, hnote⟩ := htexts
  have hdigits := String.ofList_injective hminutes
  have hnumber := congrArg (Nat.ofDigitChars 10 · 0) hdigits
  simp only [Nat.ofDigitChars_ten_toDigits] at hnumber
  exact ⟨hdomain, hshard, hholder, UInt32.toNat_inj.mp hnumber, hnote⟩

theorem lockoutCheck_inj {script domain domain' shard shard' : String}
    (h : lockoutCheck script domain shard = lockoutCheck script domain' shard') :
    domain = domain' ∧ shard = shard' := by
  have hcheck := passes_lockoutCheck script domain shard
  rw [h] at hcheck
  simpa using hcheck.unique (passes_lockoutCheck script domain' shard')

theorem clean_inj {dir dir' base base' : String} (h : clean dir base = clean dir' base') :
    dir = dir' ∧ base = base' := by
  have htokens := tokens?_clean dir' base'
  rw [← h, tokens?_clean] at htokens
  have hwords : valueWord base ++ star :: valueWord ".jar" =
      valueWord base' ++ star :: valueWord ".jar" ↔ base = base' := by
    rw [List.append_left_inj, valueWord_inj]
  simpa [andList, hwords, valueWord_inj] using htokens

theorem relink_inj {dir dir' link link' archive archive' : String}
    (h : relink dir link archive = relink dir' link' archive') :
    dir = dir' ∧ link = link' ∧ archive = archive' := by
  have htokens := tokens?_relink dir' link' archive'
  rw [← h, tokens?_relink] at htokens
  simp only [Option.some.injEq, andList, List.map_cons, List.map_nil, List.cons_append,
    List.nil_append, List.cons.injEq, Token.word.injEq, List.append_left_inj, valueWord_inj,
    true_and, and_true] at htokens
  obtain ⟨hdir, hlink, harchive, -⟩ := htokens
  exact ⟨hdir, hlink, harchive⟩

/-- Each line holds the written words and operators and none besides, every value as one word that
no shell reads as anything else; lines of other values differ. -/
theorem lines_exact (script domain shard holder note dir base link archive : String)
    (minutes : UInt32) :
    Passes script (lockoutClaim script domain shard holder minutes note)
      [domain, "claim", shard, holder, toString minutes.toNat, note] ∧
    Passes script (lockoutCheck script domain shard) [domain, "check", shard] ∧
    (∃ cd place rm force archives,
      tokens? (clean dir base).toList = some (andList [[cd, place], [rm, force, archives]]) ∧
      List.Forall₂ Spells [cd, place, rm, force] ["cd", dir, "rm", "-f"] ∧
      Globs archives base ".jar") ∧
    (∃ commands, tokens? (relink dir link archive).toList = some (andList commands) ∧
      List.Forall₂ (List.Forall₂ Spells) commands
        [["cd", dir], ["rm", "-f", link ++ ".jar"], ["ln", "-s", archive, link ++ ".jar"]]) ∧
    (∀ domain' shard' holder' minutes' note',
      lockoutClaim script domain shard holder minutes note =
        lockoutClaim script domain' shard' holder' minutes' note' →
      domain = domain' ∧ shard = shard' ∧ holder = holder' ∧ minutes = minutes' ∧ note = note') ∧
    (∀ domain' shard', lockoutCheck script domain shard = lockoutCheck script domain' shard' →
      domain = domain' ∧ shard = shard') ∧
    (∀ dir' base', clean dir base = clean dir' base' → dir = dir' ∧ base = base') ∧
    (∀ dir' link' archive', relink dir link archive = relink dir' link' archive' →
      dir = dir' ∧ link = link' ∧ archive = archive') := by
  have hword := spells_valueWord
  have hlink : Spells (valueWord link ++ valueWord ".jar") (link ++ ".jar") :=
    (hword link).append (hword ".jar")
  refine ⟨passes_lockoutClaim .., passes_lockoutCheck .., ?_, ?_, fun _ _ _ _ _ => lockoutClaim_inj,
    fun _ _ => lockoutCheck_inj, fun _ _ => clean_inj, fun _ _ _ => relink_inj⟩
  · refine ⟨_, _, _, _, _, tokens?_clean dir base, ?_, .of_spells (hword base) (hword ".jar")⟩
    exact .cons (hword "cd") (.cons (hword dir) (.cons (hword "rm") (.cons (hword "-f") .nil)))
  · refine ⟨_, tokens?_relink dir link archive, ?_⟩
    apply List.Forall₂.cons
    · exact .cons (hword "cd") (.cons (hword dir) .nil)
    apply List.Forall₂.cons
    · exact .cons (hword "rm") (.cons (hword "-f") (.cons hlink .nil))
    apply List.Forall₂.cons _ .nil
    exact .cons (hword "ln") (.cons (hword "-s") (.cons (hword archive) (.cons hlink .nil)))

end Command

end Rollout.Shell
