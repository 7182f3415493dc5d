import Mathlib.Data.String.Basic
import Rollout.Proofs.Except
import Rollout.Toml.Reader

/-!
The tables of a document. In whatever order its lines come, each table lists its entries by ascending
keys, so that it holds a key at most once; what is read out of such a table by name is a map.
-/

namespace Rollout.Toml

def Ascending {α : Type} (entries : List (String × α)) : Prop := (entries.map (·.1)).Pairwise (· < ·)

inductive Value.Ordered : Value → Prop
  | text {s} : Ordered (.text s)
  | integer {n} : Ordered (.integer n)
  | garbled : Ordered .garbled
  | float {literal} : Ordered (.float literal)
  | boolean {b} : Ordered (.boolean b)
  | moment {literal} : Ordered (.moment literal)
  | list {growing items} : (∀ v ∈ items, Ordered v) → Ordered (.list growing items)
  | table {origin entries} : Ascending entries → (∀ entry ∈ entries, Ordered entry.2) →
      Ordered (.table origin entries)

namespace Entries

structure Ordered (entries : Entries) : Prop where
  ascending : Ascending entries
  inner : ∀ entry ∈ entries, entry.2.Ordered

theorem Ordered.table {entries : Entries} (h : entries.Ordered) (origin : Origin) :
    (Value.table origin entries).Ordered := .table h.ascending h.inner

theorem ordered_of_table {origin : Origin} {entries : Entries}
    (h : (Value.table origin entries).Ordered) : entries.Ordered := by
  cases h with
  | table ascending inner => exact ⟨ascending, inner⟩

theorem ordered_nil : Ordered [] := ⟨.nil, by simp⟩

theorem Ordered.get? {entries : Entries} {key : String} {v : Value} (h : entries.Ordered)
    (hv : entries.get? key = some v) : v.Ordered := by
  obtain ⟨entry, hentry, rfl⟩ := Option.map_eq_some_iff.mp hv
  exact h.inner entry (List.mem_of_find?_eq_some hentry)

theorem mem_of_mem_put {key : String} {value : Value} {entries : Entries} {entry : String × Value}
    (h : entry ∈ entries.put key value) : entry = (key, value) ∨ entry ∈ entries := by
  induction entries with
  | nil => simpa [put] using h
  | cons first rest ih =>
    obtain ⟨k, v⟩ := first
    rw [put] at h
    split_ifs at h with heq hlt
    · exact (List.mem_cons.mp h).imp id (List.mem_cons_of_mem _)
    · exact List.mem_cons.mp h
    · rcases List.mem_cons.mp h with rfl | h
      · exact .inr List.mem_cons_self
      · exact (ih h).imp id (List.mem_cons_of_mem _)

theorem ascending_put {key : String} {value : Value} {entries : Entries} (h : Ascending entries) :
    Ascending (entries.put key value) := by
  induction entries with
  | nil => exact List.pairwise_singleton ..
  | cons first rest ih =>
    obtain ⟨k, v⟩ := first
    obtain ⟨hfirst, hrest⟩ := List.pairwise_cons.mp h
    rw [put]
    split_ifs with heq hlt
    · subst heq
      exact .cons hfirst hrest
    · refine .cons (List.forall_mem_cons.mpr ⟨hlt, fun k' hk' => ?_⟩) h
      exact hlt.trans (hfirst k' hk')
    · refine .cons (fun k' hk' => ?_) (ih hrest)
      obtain ⟨entry, hentry, rfl⟩ := List.mem_map.mp hk'
      rcases mem_of_mem_put hentry with rfl | hentry
      · exact lt_of_le_of_ne (not_lt.mp hlt) (Ne.symm heq)
      · exact hfirst entry.1 (List.mem_map_of_mem hentry)

theorem Ordered.put {entries : Entries} {key : String} {value : Value} (h : entries.Ordered)
    (hvalue : value.Ordered) : (entries.put key value).Ordered := by
  refine ⟨ascending_put h.ascending, fun entry hentry => ?_⟩
  rcases mem_of_mem_put hentry with rfl | hentry
  · exact hvalue
  · exact h.inner entry hentry

def Keeps (change : Entries → Option Entries) : Prop :=
  ∀ entries now, entries.Ordered → change entries = some now → now.Ordered

theorem keeps_add (key : String) {value : Value} (hvalue : value.Ordered) : Keeps (add key value) := by
  intro entries now h hnow
  rw [add] at hnow
  split at hnow
  · cases hnow
  · cases hnow
    exact h.put hvalue

theorem Keeps.within {change : Entries → Option Entries} (h : Keeps change) (dotted : Bool)
    (path : List String) : Keeps (within dotted change path) := by
  induction path with
  | nil => exact h
  | cons key path ih =>
    intro entries now hentries hnow
    rw [Entries.within] at hnow
    split at hnow
    · obtain ⟨inner, hinner, hnow⟩ := Option.bind_eq_some_iff.mp hnow
      cases hnow
      exact hentries.put ((ih [] inner ordered_nil hinner).table _)
    · next origin old hget =>
      split at hnow
      · obtain ⟨inner, hinner, hnow⟩ := Option.bind_eq_some_iff.mp hnow
        cases hnow
        have hold := ordered_of_table (hentries.get? hget)
        exact hentries.put ((ih old inner hold hinner).table _)
      · cases hnow
    · next items hget =>
      have hitems : ∀ v ∈ items, v.Ordered := by
        cases hentries.get? hget with
        | list hitems => exact hitems
      split at hnow
      · next origin old hlast =>
        split at hnow
        · cases hnow
        · obtain ⟨inner, hinner, hnow⟩ := Option.bind_eq_some_iff.mp hnow
          cases hnow
          have hold := ordered_of_table (hitems _ (List.mem_of_getLast? hlast))
          refine hentries.put (.list fun v hv => ?_)
          rcases List.mem_append.mp hv with hv | hv
          · exact hitems v (List.dropLast_subset _ hv)
          · rw [List.mem_singleton.mp hv]
            exact (ih old inner hold hinner).table origin
      · cases hnow
    · cases hnow

end Entries

open Entries (Keeps)

theorem keeps_beginTable (name : String) : Keeps (beginTable name) := by
  intro entries now h hnow
  rw [beginTable] at hnow
  split at hnow
  · cases hnow
    exact h.put (Entries.ordered_nil.table _)
  · next inner hget =>
    cases hnow
    exact h.put ((Entries.ordered_of_table (h.get? hget)).table _)
  · cases hnow

theorem keeps_beginItem (name : String) : Keeps (beginItem name) := by
  intro entries now h hnow
  have hnew : (Value.table .header []).Ordered := Entries.ordered_nil.table _
  rw [beginItem] at hnow
  split at hnow
  · cases hnow
    exact h.put (.list (by simpa using hnew))
  · next before hget =>
    cases hnow
    cases h.get? hget with
    | list hbefore =>
      refine h.put (.list fun v hv => ?_)
      rcases List.mem_append.mp hv with hv | hv
      · exact hbefore v hv
      · rw [List.mem_singleton.mp hv]
        exact hnew
  · cases hnow

/-! ### Scanners -/

namespace Scan

variable {α β : Type}

def Yields (scan : Scan α) (P : α → Prop) : Prop :=
  ∀ cs a rest, scan.run cs = some (a, rest) → P a

theorem yields_pure {P : α → Prop} {a : α} (h : P a) : Yields (pure a) P := by
  intro cs a' rest hrun
  cases hrun
  exact h

theorem yields_failure {P : α → Prop} : Yields (failure : Scan α) P := by
  intro cs a rest hrun
  cases hrun

theorem yields_bind {scan : Scan α} {f : α → Scan β} {P : α → Prop} {Q : β → Prop}
    (h : scan.Yields P) (hf : ∀ a, P a → (f a).Yields Q) : (scan >>= f).Yields Q := by
  intro cs b rest hrun
  obtain ⟨⟨a, mid⟩, ha, hb⟩ := Option.bind_eq_some_iff.mp hrun
  exact hf a (h cs a mid ha) mid b rest hb

theorem yields_then {scan : Scan α} {f : α → Scan β} {Q : β → Prop} (hf : ∀ a, (f a).Yields Q) :
    (scan >>= f).Yields Q :=
  yields_bind (P := fun _ => True) (fun _ _ _ _ => trivial) fun a _ => hf a

theorem yields_liftM {P : α → Prop} {o : Option α} (h : ∀ a, o = some a → P a) :
    Yields (liftM o) P := by
  intro cs a rest hrun
  obtain ⟨a', ha, he⟩ := Option.bind_eq_some_iff.mp hrun
  cases he
  exact h a ha

theorem yields_ite {c : Prop} [Decidable c] {x y : Scan α} {P : α → Prop} (hx : x.Yields P)
    (hy : y.Yields P) : (if c then x else y).Yields P := by
  split
  · exact hx
  · exact hy

end Scan

open Scan

theorem ordered_of_based? {base : Nat} {cs : List Char} {v : Value} (h : based? base cs = some v) :
    v.Ordered := by
  rw [based?] at h
  split at h
  · cases h
    split
    · exact .garbled
    · exact .integer
  · cases h

theorem ordered_of_grouped? {before : Bool} {word : List Char} {v : Value}
    (h : grouped? before word = some v) : v.Ordered := by
  rw [grouped?] at h
  split at h
  · cases h
    split
    · exact .integer
    · exact .garbled
  · cases h

theorem ordered_of_number? {edition : Edition} {word : List Char} {v : Value}
    (h : number? edition word = some v) : v.Ordered := by
  unfold number? at h
  split at h
  · exact ordered_of_based? h
  · exact ordered_of_based? h
  · exact ordered_of_based? h
  · dsimp only at h
    split_ifs at h
    · cases h
      exact .float
    · cases h
      exact .integer
    · cases h
      exact .moment
    · cases h
      exact .float
    · exact ordered_of_grouped? h

theorem yields_bareValue (edition : Edition) : (bareValue edition).Yields Value.Ordered := by
  rw [bareValue]
  refine yields_then fun word => yields_then fun rest => ?_
  -- both ways of taking the word lead to the same end
  extract_lets finish
  have hfinish (word : List Char) : (finish word).Yields Value.Ordered := by
    refine yields_ite (yields_pure .boolean) (yields_ite (yields_pure .boolean) ?_)
    split
    · next v hv => exact yields_pure (ordered_of_number? hv)
    · exact yields_failure
  refine yields_ite (yields_then fun _ => yields_then fun _ => ?_) ?_
  · exact yields_then hfinish
  · exact yields_then hfinish

theorem yields_ordered (edition : Edition) (fuel : Nat) :
    (∀ depth, (value edition fuel depth).Yields Value.Ordered) ∧
      (∀ depth, (items edition fuel depth).Yields fun vs => ∀ v ∈ vs, v.Ordered) ∧
      ∀ depth before, before.Ordered → (entries edition fuel depth before).Yields Entries.Ordered := by
  induction fuel with
  | zero => exact ⟨fun _ => yields_failure, fun _ => yields_failure, fun _ _ _ => yields_failure⟩
  | succ fuel ih =>
    obtain ⟨hvalue, hitems, hentries⟩ := ih
    refine ⟨fun depth => ?_, fun depth => ?_, fun depth before hbefore => ?_⟩
    · rw [value]
      refine yields_then fun c => ?_
      split
      · exact yields_then fun _ => yields_pure .text
      · exact yields_then fun _ => yields_pure .text
      · refine yields_then fun _ => yields_ite yields_failure ?_
        exact yields_bind (hitems _) fun vs hvs => yields_pure (.list hvs)
      · refine yields_then fun _ => yields_ite yields_failure ?_
        exact yields_bind (hentries _ [] Entries.ordered_nil) fun es hes => yields_pure (hes.table _)
      · exact yields_bareValue edition
    · rw [items]
      refine yields_then fun _ => yields_then fun _ => yields_ite (yields_pure (by simp)) ?_
      refine yields_bind (hvalue depth) fun v hv => yields_then fun _ => yields_then fun _ => ?_
      refine yields_ite (yields_bind (hitems depth) fun vs hvs => ?_) (yields_then fun _ => ?_)
      · exact yields_pure (List.forall_mem_cons.mpr ⟨hv, hvs⟩)
      · exact yields_pure (by simpa using hv)
    · rw [entries]
      refine yields_then fun _ => yields_then fun _ => ?_
      refine yields_ite (yields_ite (yields_pure hbefore) yields_failure) (yields_then fun named => ?_)
      refine yields_then fun _ => yields_then fun _ => yields_then fun _ => ?_
      refine yields_bind (hvalue depth) fun v hv => ?_
      have hkeeps := (Entries.keeps_add named.2 hv).within true named.1
      refine yields_bind (yields_liftM fun now hnow => hkeeps before now hbefore hnow) fun now hnow => ?_
      refine yields_then fun _ => yields_then fun _ => yields_ite (hentries depth now hnow) ?_
      exact yields_then fun _ => yields_pure hnow

theorem yields_lines (edition : Edition) (fuel : Nat) (current : List String) (before : Entries)
    (hbefore : before.Ordered) : (lines edition fuel current before).Yields Entries.Ordered := by
  induction fuel generalizing current before with
  | zero => exact yields_failure
  | succ fuel ih =>
    rw [lines]
    refine yields_then fun _ => yields_then fun _ => yields_ite (yields_pure hbefore) ?_
    refine yields_then fun _ => yields_ite (yields_then fun named => ?item) ?_
    case item =>
      have hkeeps := (keeps_beginItem named.2).within false named.1
      exact yields_bind (yields_liftM fun now hnow => hkeeps before now hbefore hnow)
        fun now hnow => ih _ now hnow
    refine yields_then fun _ => yields_ite (yields_then fun named => ?table) ?_
    case table =>
      have hkeeps := (keeps_beginTable named.2).within false named.1
      exact yields_bind (yields_liftM fun now hnow => hkeeps before now hbefore hnow)
        fun now hnow => ih _ now hnow
    refine yields_then fun named => yields_then fun _ => yields_then fun _ => yields_then fun _ => ?_
    refine yields_bind ((yields_ordered edition fuel).1 _) fun v hv => yields_then fun _ => ?_
    have hkeeps := ((Entries.keeps_add named.2 hv).within true named.1).within false current
    exact yields_bind (yields_liftM fun now hnow => hkeeps before now hbefore hnow)
      fun now hnow => ih _ now hnow

theorem ordered_of_document {edition : Edition} {text : String} {entries : Entries}
    (h : document edition text = some entries) : entries.Ordered := by
  rw [document] at h
  obtain ⟨⟨es, rest⟩, hrun, rfl⟩ := Option.map_eq_some_iff.mp h
  exact yields_lines _ _ _ [] Entries.ordered_nil _ _ _ hrun

/-! ### Maps -/

theorem ascending_of_named {α : Type} {item : Reader α} {v : Value} {read : List (String × α)}
    (hv : v.Ordered) (h : Reader.named item v = .ok read) : Ascending read := by
  rw [Reader.named] at h
  split at h
  · next entries hentries =>
    have hkeys : Ascending entries := by
      cases v with
      | table origin es =>
        cases hentries
        exact (Entries.ordered_of_table hv).ascending
      | moment literal =>
        cases hentries
        exact List.pairwise_singleton ..
      | _ => cases hentries
    have hnames : entries.map (·.1) = read.map (·.1) := by
      refine map_eq_map (forall₂_of_mapM h) fun entry _ named _ hnamed => ?_
      obtain ⟨_, _, rfl⟩ := ok_of_map hnamed
      rfl
    rw [Ascending, ← hnames]
    exact hkeys
  · cases h

end Rollout.Toml
