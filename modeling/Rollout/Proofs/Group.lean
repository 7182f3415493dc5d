import Mathlib.Data.List.Nodup
import Mathlib.Data.List.Perm.Basic
import Mathlib.Data.List.Range
import Rollout.Batch

/-! The groups of a batch, and the way back from their outcomes to the positions of its jobs. -/

namespace Rollout

namespace Target.Key

theorem compare_eq_compareLex :
    Key.compare = compareLex (compareOn Key.host)
      (compareLex (compareOn fun k => k.port.toNat) (compareOn Key.user)) := by
  funext a b
  obtain ⟨host, port, user⟩ := a
  obtain ⟨host', port', user'⟩ := b
  cases user <;> cases user' <;> rfl

instance : Std.TransCmp Key.compare := by
  rw [compare_eq_compareLex]
  infer_instance

@[simp] theorem compare_eq_iff {a b : Key} : a.compare b = .eq ↔ a = b := by
  obtain ⟨host, port, user⟩ := a
  obtain ⟨host', port', user'⟩ := b
  rw [compare_eq_compareLex]
  simp [compareLex_eq_eq, compareOn, UInt16.toNat_inj]

end Target.Key

namespace Batch

def number (jobs : List Job) : List Entry := jobs.zipIdx.map fun (job, i) => (i, job)

theorem mem_number {jobs : List Job} {i : Nat} {job : Job} :
    (i, job) ∈ number jobs ↔ jobs[i]? = some job := by
  simp [number, List.mem_zipIdx_iff_getElem?]

theorem number_map_fst (jobs : List Job) : (number jobs).map (·.1) = List.range jobs.length := by
  simp [number, Function.comp_def, List.zipIdx_map_snd, List.range_eq_range']

theorem number_map_snd (jobs : List Job) : (number jobs).map (·.2) = jobs := by
  simp [number, Function.comp_def, List.zipIdx_map_fst]

theorem insert_flatten_perm (entry : Entry) (acc : List (Target.Key × List Entry)) :
    ((insert entry acc).map (·.2)).flatten.Perm (entry :: (acc.map (·.2)).flatten) := by
  induction acc with
  | nil => exact .refl _
  | cons group rest ih =>
    rw [insert]
    cases entry.2.target.key.compare group.1 with
    | lt => exact .refl _
    | eq => simp
    | gt => exact (ih.append_left group.2).trans List.perm_middle

theorem groups_flatten_perm (jobs : List Job) : (groups jobs).flatten.Perm (number jobs) := by
  have step (entries : List Entry) (acc : List (Target.Key × List Entry)) :
      ((entries.foldl (fun acc entry => insert entry acc) acc).map (·.2)).flatten.Perm
        (entries ++ (acc.map (·.2)).flatten) := by
    induction entries generalizing acc with
    | nil => exact .refl _
    | cons entry rest ih =>
      exact (ih _).trans
        (((insert_flatten_perm entry acc).append_left rest).trans List.perm_middle)
  exact (step (number jobs) []).trans (by simp)

def insertKey (key : Target.Key) : List Target.Key → List Target.Key
  | [] => [key]
  | k :: keys =>
    match key.compare k with
    | .lt => key :: k :: keys
    | .eq => k :: keys
    | .gt => k :: insertKey key keys

@[simp] theorem mem_insertKey {key k : Target.Key} {keys : List Target.Key} :
    k ∈ insertKey key keys ↔ k = key ∨ k ∈ keys := by
  induction keys with
  | nil => simp [insertKey]
  | cons k' keys ih =>
    rw [insertKey]
    cases h : key.compare k' with
    | lt => simp
    | eq =>
      obtain rfl := Target.Key.compare_eq_iff.mp h
      simp
    | gt => simp [ih, or_left_comm]

def Ascending (keys : List Target.Key) : Prop := keys.Pairwise fun a b => a.compare b = .lt

theorem Ascending.insertKey {key : Target.Key} {keys : List Target.Key} (h : Ascending keys) :
    Ascending (insertKey key keys) := by
  induction keys with
  | nil => exact List.pairwise_singleton ..
  | cons k keys ih =>
    obtain ⟨hk, hkeys⟩ := List.pairwise_cons.mp h
    rw [Batch.insertKey]
    cases hc : key.compare k with
    | lt =>
      refine List.pairwise_cons.mpr ⟨?_, h⟩
      rintro k' (_ | ⟨_, hk'⟩)
      · exact hc
      · exact Std.TransCmp.lt_trans hc (hk k' hk')
    | eq => exact h
    | gt =>
      refine List.pairwise_cons.mpr ⟨fun k' hk' => ?_, ih hkeys⟩
      obtain rfl | hk' := mem_insertKey.mp hk'
      · exact Std.OrientedCmp.gt_iff_lt.mp hc
      · exact hk k' hk'

theorem Ascending.nodup {keys : List Target.Key} (h : Ascending keys) : keys.Nodup := by
  refine List.Pairwise.imp (fun {a b} hlt hab => ?_) h
  simp [Target.Key.compare_eq_iff.mpr hab] at hlt

theorem Ascending.not_mem {key k : Target.Key} {keys : List Target.Key}
    (h : Ascending (k :: keys)) (hk : key.compare k = .lt) : key ∉ k :: keys := by
  intro hmem
  have hlt : key.compare key = .lt := by
    obtain rfl | hmem := List.mem_cons.mp hmem
    · exact hk
    · exact Std.TransCmp.lt_trans hk ((List.pairwise_cons.mp h).1 key hmem)
  simp [Target.Key.compare_eq_iff.mpr] at hlt

theorem insert_map {entry : Entry} {keys : List Target.Key} {f : Target.Key → List Entry}
    (hkeys : Ascending keys) (hf : entry.2.target.key ∉ keys → f entry.2.target.key = []) :
    insert entry (keys.map fun key => (key, f key)) =
      (insertKey entry.2.target.key keys).map fun key =>
        (key, f key ++ if entry.2.target.key = key then [entry] else []) := by
  have absent {l : List Target.Key} (h : entry.2.target.key ∉ l) :
      l.map (fun key => (key, f key ++ if entry.2.target.key = key then [entry] else [])) =
        l.map fun key => (key, f key) := by
    refine List.map_congr_left fun k hk => ?_
    have hne : entry.2.target.key ≠ k := by rintro rfl; exact h hk
    rw [if_neg hne, List.append_nil]
  induction keys with
  | nil => simp [insert, insertKey, hf]
  | cons k keys ih =>
    obtain ⟨hk, hrest⟩ := List.pairwise_cons.mp hkeys
    rw [List.map_cons, insert, insertKey]
    cases hc : entry.2.target.key.compare k with
    | lt =>
      have hnew := hkeys.not_mem hc
      rw [List.map_cons (a := entry.2.target.key), absent hnew, hf hnew, if_pos rfl]
      rfl
    | eq =>
      obtain rfl := Target.Key.compare_eq_iff.mp hc
      have hnew : entry.2.target.key ∉ keys := fun hmem => by
        simpa [Target.Key.compare_eq_iff.mpr] using hk _ hmem
      simp only [List.map_cons, absent hnew, if_true]
    | gt =>
      have hne : entry.2.target.key ≠ k := fun h => by
        simp [Target.Key.compare_eq_iff.mpr h] at hc
      have hrest' := ih hrest fun hnew => hf (by simp [hne, hnew])
      simp only [hrest', List.map_cons, if_neg hne, List.append_nil]

theorem groups_eq_map (jobs : List Job) : ∃ keys : List Target.Key, Ascending keys ∧
    (∀ job ∈ jobs, job.target.key ∈ keys) ∧
    groups jobs = keys.map fun key => (number jobs).filter (·.2.target.key = key) := by
  -- from the end: the last entry is the one that is inserted last
  have step (entries : List Entry) : ∃ keys : List Target.Key, Ascending keys ∧
      (∀ entry ∈ entries, entry.2.target.key ∈ keys) ∧
      entries.foldl (fun acc entry => insert entry acc) [] =
        keys.map fun key => (key, entries.filter (·.2.target.key = key)) := by
    induction entries using List.reverseRecOn with
    | nil => exact ⟨[], .nil, by simp, rfl⟩
    | append_singleton entries entry ih =>
      obtain ⟨keys, hkeys, hmem, hfold⟩ := ih
      refine ⟨insertKey entry.2.target.key keys, hkeys.insertKey, ?_, ?_⟩
      · intro e he
        obtain he | he := List.mem_append.mp he
        · exact mem_insertKey.mpr (.inr (hmem e he))
        · obtain rfl := List.mem_singleton.mp he
          exact mem_insertKey.mpr (.inl rfl)
      · rw [List.foldl_append, hfold, List.foldl_cons, List.foldl_nil, insert_map hkeys]
        · refine List.map_congr_left fun k _ => ?_
          rw [List.filter_append, List.filter_singleton]
          by_cases h : entry.2.target.key = k <;> simp [h]
        · intro hnew
          refine List.filter_eq_nil_iff.mpr fun e he => ?_
          have hne : e.2.target.key ≠ entry.2.target.key := fun h => hnew (h ▸ hmem e he)
          simpa using hne
  obtain ⟨keys, hkeys, hmem, hfold⟩ := step (number jobs)
  refine ⟨keys, hkeys, fun job hjob => ?_, ?_⟩
  · rw [← number_map_snd jobs] at hjob
    obtain ⟨entry, he, rfl⟩ := List.mem_map.mp hjob
    exact hmem entry he
  · rw [groups, ← number, hfold, List.map_map]
    rfl

theorem number_split {jobs : List Job} {i : Nat} {job : Job} (h : jobs[i]? = some job) :
    ∃ rest, number jobs = number (jobs.take i) ++ (i, job) :: rest := by
  obtain ⟨hi, rfl⟩ := List.getElem?_eq_some_iff.mp h
  refine ⟨((jobs.drop (i + 1)).zipIdx (i + 1)).map fun (job, i) => (i, job), ?_⟩
  have hsplit : jobs = jobs.take i ++ jobs[i] :: jobs.drop (i + 1) := by simp
  have hlen : (jobs.take i).length = i := List.length_take_of_le (Nat.le_of_lt hi)
  conv_lhs => rw [number, hsplit, List.zipIdx_append, hlen, List.zipIdx_cons]
  simp [number]

theorem before_in_group {jobs : List Job} {group before after : List Entry} {i : Nat} {job : Job}
    (hgroup : group ∈ groups jobs) (h : group = before ++ (i, job) :: after) :
    before = (number (jobs.take i)).filter (·.2.target.key = job.target.key) := by
  obtain ⟨keys, -, -, hgroups⟩ := groups_eq_map jobs
  rw [hgroups] at hgroup
  obtain ⟨key, -, rfl⟩ := List.mem_map.mp hgroup
  have hmem : (i, job) ∈ (number jobs).filter (·.2.target.key = key) := h ▸ by simp
  obtain ⟨hnumber, hkey⟩ := List.mem_filter.mp hmem
  obtain rfl : job.target.key = key := of_decide_eq_true hkey
  obtain ⟨rest, hrest⟩ := number_split (mem_number.mp hnumber)
  have hnodup : (number jobs).Nodup :=
    List.Nodup.of_map (·.1) (number_map_fst jobs ▸ List.nodup_range)
  -- no position occurs twice, so that the group splits at this job in one way only
  have hsplit := List.nodup_cons.mp (List.nodup_middle.mp (h ▸ hnodup.filter _))
  obtain ⟨hbefore, hafter⟩ := not_or.mp (List.mem_append.not.mp hsplit.1)
  rw [hrest, List.filter_append, List.filter_cons_of_pos (by simp)] at h
  exact ((List.append_cons_inj_of_notMem hbefore hafter).mp h.symm).1

def fill (slots : List (Option Outcome)) (results : List (Nat × Outcome)) : List (Option Outcome) :=
  results.foldl (fun slots (i, outcome) => slots.set i (some outcome)) slots

theorem fill_length (slots : List (Option Outcome)) (results : List (Nat × Outcome)) :
    (fill slots results).length = slots.length := by
  induction results generalizing slots with
  | nil => rfl
  | cons r rest ih => exact (ih _).trans List.length_set

theorem fill_of_not_mem {slots : List (Option Outcome)} {results : List (Nat × Outcome)} {i : Nat}
    (h : i ∉ results.map (·.1)) : (fill slots results)[i]? = slots[i]? := by
  induction results generalizing slots with
  | nil => rfl
  | cons r rest ih =>
    obtain ⟨hne, hrest⟩ : i ≠ r.1 ∧ i ∉ rest.map (·.1) := by simpa using h
    exact (ih hrest).trans (List.getElem?_set_ne hne.symm)

theorem fill_of_mem {slots : List (Option Outcome)} {results : List (Nat × Outcome)} {i : Nat}
    {o : Outcome} (h : (results.map (·.1)).Nodup) (hi : i < slots.length) (hmem : (i, o) ∈ results) :
    (fill slots results)[i]? = some (some o) := by
  induction results generalizing slots with
  | nil => cases hmem
  | cons r rest ih =>
    obtain ⟨hr, hrest⟩ := List.nodup_cons.mp h
    obtain rfl | hmem := List.mem_cons.mp hmem
    · exact (fill_of_not_mem hr).trans (List.getElem?_set_self hi)
    · exact ih hrest (by rwa [List.length_set]) hmem

theorem eq_map_some {slots : List (Option Outcome)} (h : ∀ slot ∈ slots, slot.isSome) :
    slots = (slots.filterMap id).map some := by
  induction slots with
  | nil => rfl
  | cons slot rest ih =>
    obtain ⟨hslot, hrest⟩ := List.forall_mem_cons.mp h
    obtain ⟨o, rfl⟩ := Option.isSome_iff_exists.mp hslot
    exact congrArg (some o :: ·) (ih hrest)

theorem collect_getElem? {total : Nat} {results : List (Nat × Outcome)}
    (h : (results.map (·.1)).Perm (List.range total)) :
    (collect total results).length = total ∧
      ∀ {i o}, (i, o) ∈ results → (collect total results)[i]? = some o := by
  have hnodup : (results.map (·.1)).Nodup := h.nodup_iff.mpr List.nodup_range
  have hslot {i : Nat} {o : Outcome} (hmem : (i, o) ∈ results) :
      (fill (List.replicate total none) results)[i]? = some (some o) := by
    have hi : i ∈ List.range total := h.mem_iff.mp (List.mem_map_of_mem hmem)
    exact fill_of_mem hnodup (by simpa using hi) hmem
  have hlen : (fill (List.replicate total none) results).length = total :=
    (fill_length ..).trans List.length_replicate
  have hall : ∀ x ∈ fill (List.replicate total none) results, x.isSome := by
    intro x hx
    obtain ⟨i, hi, rfl⟩ := List.getElem_of_mem hx
    obtain ⟨r, hr, rfl⟩ := List.mem_map.mp
      (h.mem_iff.mpr (List.mem_range.mpr (hlen ▸ hi)))
    have hget := hslot hr
    rw [List.getElem?_eq_getElem hi] at hget
    simp [Option.some.inj hget]
  change ((fill (List.replicate total none) results).filterMap id).length = total ∧
    ∀ {i o}, (i, o) ∈ results →
      ((fill (List.replicate total none) results).filterMap id)[i]? = some o
  generalize fill (List.replicate total none) results = slots at hslot hlen hall
  obtain ⟨os, rfl⟩ : ∃ os, slots = List.map some os := ⟨_, eq_map_some hall⟩
  refine ⟨by simpa using hlen, fun hmem => ?_⟩
  simpa using hslot hmem

end Batch

end Rollout
