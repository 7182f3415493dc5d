import Rollout.Proofs.Destination

/-!
The last name of a path and what stands before it. A path passes through names, from the root or from
wherever it begins; its parent passes through the same ones but for the last.
-/

namespace Rollout.Path

def passes (cs : List Char) : List (List Char) := (segments cs).filter counts

theorem counts_iff {s : List Char} : counts s = true ↔ s ≠ [] ∧ s ≠ ['.'] := by simp [counts]

theorem passes_append (cs ds : List Char) : passes (cs ++ '/' :: ds) = passes cs ++ passes ds := by
  rw [passes, segments_append, List.filter_append]
  rfl

theorem passes_slash (cs : List Char) : passes (cs ++ ['/']) = passes cs := by
  rw [passes_append]
  exact List.append_nil _

theorem passes_slash_dot (cs : List Char) : passes (cs ++ ['/', '.']) = passes cs := by
  rw [passes_append]
  exact List.append_nil _

theorem passes_of_counts {cs : List Char} (hslash : '/' ∉ cs) (h : counts cs = true) :
    passes cs = [cs] := by
  rw [passes, segments_of_notMem hslash, List.filter_singleton, h]
  rfl

theorem exists_mem_segments {c : Char} {cs : List Char} (h : c ∈ cs) (hslash : c ≠ '/') :
    ∃ s ∈ segments cs, c ∈ s := by
  induction cs with
  | nil => cases h
  | cons d cs ih =>
    rw [segments]
    split
    · next hd =>
      obtain ⟨s, hs, hc⟩ := ih ((List.mem_cons.mp h).resolve_left (hd ▸ hslash))
      exact ⟨s, .tail _ hs, hc⟩
    · obtain ⟨first, rest, hcs⟩ := List.exists_cons_of_ne_nil (segments_ne_nil cs)
      rw [hcs] at ih ⊢
      obtain rfl | h := List.mem_cons.mp h
      · exact ⟨_, .head _, .head _⟩
      · obtain ⟨s, hs, hc⟩ := ih h
        obtain rfl | hs := List.mem_cons.mp hs
        · exact ⟨_, .head _, .tail _ hc⟩
        · exact ⟨s, .tail _ hs, hc⟩

theorem exists_mem_passes {c : Char} {cs : List Char} (h : c ∈ cs) (hslash : c ≠ '/')
    (hdot : c ≠ '.') : ∃ s ∈ passes cs, c ∈ s := by
  obtain ⟨s, hs, hc⟩ := exists_mem_segments h hslash
  have hne : s ≠ [] := List.ne_nil_of_mem hc
  have hname : s ≠ ['.'] := by
    rintro rfl
    exact hdot (List.mem_singleton.mp hc)
  exact ⟨s, List.mem_filter.mpr ⟨hs, counts_iff.mpr ⟨hne, hname⟩⟩, hc⟩

def origin (cs : List Char) : List Component :=
  if cs.head? = some '/' then [.root] else if (segments cs).head? = some ['.'] then [.here] else []

theorem componentsOf_eq_origin (cs : List Char) :
    componentsOf cs = origin cs ++ (passes cs).map .ofSegment := by
  cases cs with
  | nil => rfl
  | cons c r =>
    by_cases hc : c = '/'
    · subst hc
      have hsegments : segments ('/' :: r) = [] :: segments r := by rw [segments, if_pos rfl]
      rw [componentsOf_eq (List.cons_ne_nil '/' r) hsegments, passes, hsegments]
      rfl
    · obtain ⟨s, rest, hr⟩ := List.exists_cons_of_ne_nil (segments_ne_nil r)
      have hsegments : segments (c :: r) = (c :: s) :: rest := by rw [segments, if_neg hc, hr]
      have horigin : origin (c :: r) = if c :: s = ['.'] then [.here] else [] := by
        simp [origin, hsegments, hc]
      rw [componentsOf_eq (List.cons_ne_nil c r) hsegments, horigin, passes, hsegments]
      by_cases hdot : c :: s = ['.']
      · rw [hdot]
        rfl
      · have hcounts : counts (c :: s) = true := counts_iff.mpr ⟨List.cons_ne_nil c s, hdot⟩
        rw [if_neg hdot, List.filter_cons_of_pos hcounts]
        rfl

theorem origin_append {q : List Char} (h : q ≠ []) (t : List Char) :
    origin (q ++ '/' :: t) = origin q := by
  rw [origin, origin, segments_append, List.head?_append_of_ne_nil _ h,
    List.head?_append_of_ne_nil _ (segments_ne_nil q)]

theorem origin_of_counts {s : List Char} (hslash : '/' ∉ s) (h : counts s = true) :
    origin s = [] := by
  rw [origin, segments_of_notMem hslash, if_neg fun hs => hslash (List.mem_of_head? hs)]
  exact if_neg (by simpa using (counts_iff.mp h).2)

theorem origin_eq_root {cs : List Char} : origin cs = [.root] ↔ cs.head? = some '/' := by
  rw [origin]
  split_ifs <;> simp_all

theorem nameOf_eq (cs : List Char) : nameOf cs = (passes cs).getLast?.filter (· ≠ ['.', '.']) := by
  rw [nameOf, componentsOf_eq_origin]
  obtain hnone | ⟨init, last, hlast⟩ := List.eq_nil_or_concat' (passes cs)
  · rw [hnone, List.map_nil, List.append_nil, origin]
    split_ifs <;> rfl
  · have hmem : last ∈ passes cs := hlast ▸ List.mem_concat_self
    obtain ⟨-, hdot⟩ := counts_iff.mp (List.mem_filter.mp hmem).2
    rw [hlast, List.map_append, List.map_singleton, ← List.append_assoc, List.getLast?_concat,
      List.getLast?_concat, Component.ofSegment, if_neg hdot]
    by_cases hdots : last = ['.', '.'] <;> simp [Option.filter, hdots]

@[simp] theorem dropEnding_nil : dropEnding [] = [] := by rw [dropEnding]

@[simp] theorem dropEnding_slash (r : List Char) : dropEnding ('/' :: r) = dropEnding r := by
  rw [dropEnding]

@[simp] theorem dropEnding_dot_slash (r : List Char) :
    dropEnding ('.' :: '/' :: r) = dropEnding r := by
  rw [dropEnding, dropEnding_slash]

theorem passes_dropEnding (r : List Char) : passes (dropEnding r).reverse = passes r.reverse := by
  fun_induction dropEnding r with
  | case1 => rfl
  | case2 r ih => rw [ih, List.reverse_cons, passes_slash]
  | case3 r ih => rw [ih, List.reverse_cons, passes_slash, List.reverse_cons, List.reverse_cons,
      List.append_assoc, List.singleton_append, passes_slash_dot]
  | case4 => rfl

structure Bared (r : List Char) : Prop where
  slash : ∀ rest, r ≠ '/' :: rest
  dot : ∀ rest, r ≠ '.' :: '/' :: rest

theorem bared_dropEnding (r : List Char) : Bared (dropEnding r) := by
  fun_induction dropEnding r with
  | case1 => exact ⟨nofun, nofun⟩
  | case2 r ih => exact ih
  | case3 r ih => exact ih
  | case4 r h₁ h₂ h₃ => exact ⟨h₂, h₃⟩

theorem exists_ending (r : List Char) : ∃ ending, r.reverse = (dropEnding r).reverse ++ ending ∧
    (ending = [] ∨ ∃ t, ending = '/' :: t) := by
  fun_induction dropEnding r with
  | case1 => exact ⟨[], rfl, .inl rfl⟩
  | case2 r ih =>
    obtain ⟨ending, hr, hending⟩ := ih
    refine ⟨ending ++ ['/'], by rw [List.reverse_cons, hr, List.append_assoc], .inr ?_⟩
    obtain rfl | ⟨t, rfl⟩ := hending
    · exact ⟨[], rfl⟩
    · exact ⟨t ++ ['/'], rfl⟩
  | case3 r ih =>
    obtain ⟨ending, hr, hending⟩ := ih
    refine ⟨ending ++ ['.'], by rw [List.reverse_cons, hr, List.append_assoc], .inr ?_⟩
    obtain rfl | ⟨t, rfl⟩ := hending
    · rw [List.append_nil] at hr
      exact absurd (List.reverse_injective hr).symm ((bared_dropEnding _).slash r)
    · exact ⟨t ++ ['.'], rfl⟩
  | case4 r => exact ⟨[], (List.append_nil _).symm, .inl rfl⟩

theorem Bared.dropEnding_eq {r : List Char} (h : Bared r) : dropEnding r = r := by
  unfold dropEnding
  split
  · rfl
  · exact absurd rfl (h.slash _)
  · exact absurd rfl (h.dot _)
  · rfl

theorem Bared.append {r : List Char} (h : Bared r) (hnil : r ≠ []) (hdot : r ≠ ['.']) (t : List Char) :
    Bared (r ++ t) := by
  obtain ⟨c, r, rfl⟩ := List.exists_cons_of_ne_nil hnil
  constructor
  · rintro rest heq
    obtain ⟨rfl, -⟩ := List.cons.inj heq
    exact h.slash r rfl
  · intro rest heq
    obtain ⟨rfl, hrest⟩ := List.cons.inj heq
    cases r with
    | nil => exact hdot rfl
    | cons d r =>
      obtain ⟨rfl, -⟩ := List.cons.inj hrest
      exact h.dot r rfl

theorem dropEnding_append {r : List Char} (hnil : dropEnding r ≠ []) (hdot : dropEnding r ≠ ['.'])
    (t : List Char) : dropEnding (r ++ t) = dropEnding r ++ t := by
  fun_induction dropEnding r with
  | case1 => exact absurd rfl hnil
  | case2 r ih =>
    rw [List.cons_append, dropEnding_slash]
    exact ih hnil hdot
  | case3 r ih =>
    rw [List.cons_append, List.cons_append, dropEnding_dot_slash, ← dropEnding_slash]
    exact ih hnil hdot
  | case4 r h₁ h₂ h₃ => exact ((Bared.mk h₂ h₃).append hnil hdot t).dropEnding_eq

theorem Bared.split {r : List Char} (h : Bared r) (hnil : r ≠ []) (hdot : r ≠ ['.']) :
    ∃ s base, r = s.reverse ++ base ∧ '/' ∉ s ∧ counts s = true ∧
      (base = [] ∨ ∃ rest, base = '/' :: rest) := by
  obtain ⟨name, base, rfl, hname, hbase⟩ : ∃ name base, r = name ++ base ∧ '/' ∉ name ∧
      (base = [] ∨ ∃ rest, base = '/' :: rest) := by
    refine ⟨r.takeWhile (· != '/'), r.dropWhile (· != '/'), List.takeWhile_append_dropWhile.symm, ?_, ?_⟩
    · intro hmem
      simpa using List.mem_takeWhile_imp hmem
    · have hhead := List.head?_dropWhile_not (· != '/') r
      revert hhead
      cases r.dropWhile (· != '/') with
      | nil => exact fun _ => .inl rfl
      | cons c rest =>
        intro hc
        obtain rfl : c = '/' := by simpa using hc
        exact .inr ⟨rest, rfl⟩
  have hne : name ≠ [] := by
    rintro rfl
    obtain rfl | ⟨rest, rfl⟩ := hbase
    · exact hnil rfl
    · exact h.slash rest rfl
  have hnodot : name ≠ ['.'] := by
    rintro rfl
    obtain rfl | ⟨rest, rfl⟩ := hbase
    · exact hdot rfl
    · exact h.dot rest rfl
  refine ⟨name.reverse, base, by rw [List.reverse_reverse], by rwa [List.mem_reverse], ?_, hbase⟩
  simp [counts_iff, hne, hnodot]

theorem ends_of_nameOf {cs name : List Char} (h : nameOf cs = some name) :
    ∃ base, dropEnding cs.reverse = name.reverse ++ base ∧ '/' ∉ name ∧ counts name = true ∧
      (base = [] ∨ ∃ rest, base = '/' :: rest) ∧ passes cs = passes base.reverse ++ [name] := by
  have hlast : (passes cs).getLast? = some name := by
    rw [nameOf_eq, Option.filter_eq_some_iff] at h
    exact h.1
  have hdrop := passes_dropEnding cs.reverse
  rw [List.reverse_reverse] at hdrop
  have hnil : dropEnding cs.reverse ≠ [] := by
    intro hnil
    rw [← hdrop, hnil] at hlast
    cases hlast
  have hdot : dropEnding cs.reverse ≠ ['.'] := by
    intro hdot
    rw [← hdrop, hdot] at hlast
    cases hlast
  obtain ⟨s, base, hends, hslash, hcounts, hbase⟩ := (bared_dropEnding cs.reverse).split hnil hdot
  have hpasses : passes cs = passes base.reverse ++ [s] := by
    rw [← hdrop, hends, List.reverse_append, List.reverse_reverse]
    obtain rfl | ⟨rest, rfl⟩ := hbase
    · exact passes_of_counts hslash hcounts
    · rw [List.reverse_cons, List.append_assoc, List.singleton_append, passes_append, passes_slash,
        passes_of_counts hslash hcounts]
  obtain rfl : s = name := by
    rw [hpasses, List.getLast?_concat] at hlast
    exact Option.some_inj.mp hlast
  exact ⟨base, hends, hslash, hcounts, hbase, hpasses⟩

theorem parentOf_eq {cs name base : List Char} (h : nameOf cs = some name)
    (hends : dropEnding cs.reverse = name.reverse ++ base) :
    parentOf cs = if dropEnding base = [] ∧ base ≠ [] then some ['/']
      else some (dropEnding base).reverse := by
  have hlast : (componentsOf cs).getLast? = some (.name name) := by
    rw [nameOf] at h
    split at h
    · next hlast => exact Option.some_inj.mp h ▸ hlast
    · cases h
  have hdrop : (name.reverse ++ base).drop name.length = base := by
    rw [← List.length_reverse, List.drop_left]
  rw [parentOf, hlast]
  simp [Component.chars, hends, hdrop]

theorem passes_parentOf {cs name : List Char} (h : nameOf cs = some name) :
    ∃ q, parentOf cs = some q ∧ origin cs = origin q ∧ passes cs = passes q ++ [name] := by
  obtain ⟨base, hends, hslash, hcounts, hbase, hpasses⟩ := ends_of_nameOf h
  obtain ⟨ending, hcs, hending⟩ := exists_ending cs.reverse
  rw [List.reverse_reverse, hends, List.reverse_append, List.reverse_reverse] at hcs
  rw [parentOf_eq h hends]
  obtain rfl | ⟨rest, hrest⟩ := hbase
  · -- Nothing stands before the name, so that the path has no origin either.
    refine ⟨[], by simp, ?_, hpasses⟩
    have hname : origin name = [] := origin_of_counts hslash hcounts
    have hne : name ≠ [] := (counts_iff.mp hcounts).1
    rw [hcs, List.reverse_nil, List.nil_append]
    obtain rfl | ⟨t, rfl⟩ := hending
    · rw [List.append_nil, hname]
      rfl
    · rw [origin_append hne, hname]
      rfl
  · obtain ⟨slashes, hbase, hslashes⟩ := exists_ending base
    obtain rfl | ⟨t, rfl⟩ := hslashes
    · rw [List.append_nil] at hbase
      exact absurd ((List.reverse_injective hbase).symm.trans hrest) ((bared_dropEnding _).slash rest)
    · rw [← passes_dropEnding] at hpasses
      rw [hbase, List.append_assoc, List.append_assoc, List.cons_append] at hcs
      -- The parent is cut off at a slash, or it is the slash that the path begins with.
      split
      · next hroot =>
        rw [hroot.1] at hcs hpasses
        exact ⟨_, rfl, by rw [hcs]; rfl, hpasses⟩
      · next hroot =>
        have hne : base ≠ [] := hrest ▸ List.cons_ne_nil _ _
        have hq : (dropEnding base).reverse ≠ [] :=
          fun hnil => hroot ⟨List.reverse_eq_nil_iff.mp hnil, hne⟩
        exact ⟨_, rfl, by rw [hcs, origin_append hq], hpasses⟩

theorem componentsOf_parentOf {cs name : List Char} (h : nameOf cs = some name) :
    ∃ q, parentOf cs = some q ∧ componentsOf cs = componentsOf q ++ [.name name] := by
  obtain ⟨q, hq, horigin, hpasses⟩ := passes_parentOf h
  obtain ⟨-, -, hdots⟩ := isEntryName_of_nameOf h
  have hname : Component.ofSegment name = .name name := ofSegment_eq_name.mpr ⟨rfl, hdots⟩
  refine ⟨q, hq, ?_⟩
  rw [componentsOf_eq_origin, componentsOf_eq_origin, horigin, hpasses, List.map_append,
    List.append_assoc, List.map_singleton, hname]

theorem componentsOf_eq_nil {cs : List Char} : componentsOf cs = [] ↔ cs = [] := by
  constructor
  · intro h
    by_contra hne
    obtain ⟨first, rest, hcs⟩ := List.exists_cons_of_ne_nil (segments_ne_nil cs)
    rw [componentsOf_eq hne hcs] at h
    cases h
  · rintro rfl
    rfl

theorem parentOf_eq_nil_iff {cs name : List Char} (h : nameOf cs = some name) :
    parentOf cs = some [] ↔ (componentsOf cs).length = 1 := by
  obtain ⟨q, hq, hcomponents⟩ := componentsOf_parentOf h
  rw [hq, hcomponents, Option.some_inj, List.length_append, List.length_singleton, Nat.add_eq_right,
    List.length_eq_zero_iff, componentsOf_eq_nil]

theorem parentOf_behind_dot {cs name : List Char} (h : nameOf cs = some name)
    (hparent : parentOf cs = some []) :
    nameOf ('.' :: '/' :: cs) = some name ∧ parentOf ('.' :: '/' :: cs) = some ['.'] := by
  obtain ⟨base, hends, -, hcounts, -, -⟩ := ends_of_nameOf h
  obtain rfl : base = [] := by
    rw [parentOf_eq h hends] at hparent
    split at hparent
    · cases hparent
    · next hroot =>
      by_contra hne
      exact hroot ⟨List.reverse_eq_nil_iff.mp (Option.some_inj.mp hparent), hne⟩
  rw [List.append_nil] at hends
  have hname : nameOf ('.' :: '/' :: cs) = some name := by
    have hpasses : passes ('.' :: '/' :: cs) = passes cs := passes_append ['.'] cs
    rw [nameOf_eq, hpasses, ← nameOf_eq, h]
  refine ⟨hname, ?_⟩
  have hends' : dropEnding ('.' :: '/' :: cs).reverse = name.reverse ++ ['/', '.'] := by
    rw [List.reverse_cons, List.reverse_cons, List.append_assoc, dropEnding_append, hends]
    · rfl
    · rintro hnil
      rw [List.reverse_eq_nil_iff.mp (hends.symm.trans hnil)] at hcounts
      cases hcounts
    · rintro hdot
      rw [List.reverse_eq_iff.mp (hends.symm.trans hdot)] at hcounts
      cases hcounts
  have hbared : Bared ['.'] := ⟨nofun, nofun⟩
  rw [parentOf_eq hname hends', dropEnding_slash, hbared.dropEnding_eq]
  rfl

end Rollout.Path
