import Mathlib.Data.List.DropRight
import Mathlib.Data.List.TakeWhile
import Rollout.Path
import Rollout.Shell.Command

/-!
Where an upload goes. The path that is put together from a directory and a file name leads to that
directory, however it is written, and from there to the file.
-/

namespace Rollout

namespace Path

/-- A text that may be the name of an entry of a directory. -/
def IsEntryName (cs : List Char) : Prop := cs ≠ [] ∧ '/' ∉ cs ∧ cs ≠ ['.'] ∧ cs ≠ ['.', '.']

instance : DecidablePred IsEntryName := fun _ => inferInstanceAs (Decidable (_ ∧ _))

theorem segments_ne_nil (cs : List Char) : segments cs ≠ [] := by
  cases cs with
  | nil => simp [segments]
  | cons c r =>
    rw [segments]
    split
    · simp
    · split <;> simp

theorem segments_append (cs ds : List Char) :
    segments (cs ++ '/' :: ds) = segments cs ++ segments ds := by
  induction cs with
  | nil => simp [segments]
  | cons c r ih =>
    rw [List.cons_append, segments, segments, ih]
    split
    · rfl
    · cases h : segments r with
      | nil => exact absurd h (segments_ne_nil r)
      | cons s rest => rfl

theorem segments_of_notMem {cs : List Char} (h : '/' ∉ cs) : segments cs = [cs] := by
  induction cs with
  | nil => rfl
  | cons c r ih =>
    obtain ⟨hc, hr⟩ := not_or.mp (mt List.mem_cons.mpr h)
    rw [segments, if_neg (Ne.symm hc), ih hr]

theorem segments_slashes (n : Nat) :
    segments (List.replicate n '/') = List.replicate (n + 1) [] := by
  induction n with
  | zero => rfl
  | succ n ih =>
    rw [List.replicate_succ, segments, if_pos rfl, ih]
    rfl

theorem componentsOf_eq {cs : List Char} (h : cs ≠ []) {s : List Char} {rest : List (List Char)}
    (hs : segments cs = s :: rest) :
    componentsOf cs = (if s.isEmpty then .root else .ofSegment s) ::
      (rest.filter counts).map .ofSegment := by
  rw [componentsOf, hs]
  split
  · next hnil => cases hnil
  · next hcons =>
    cases hcons
    have hcs : cs.isEmpty = false := by simpa using h
    rw [hcs]
    split <;> rfl

theorem notMem_of_mem_segments {cs s : List Char} (h : s ∈ segments cs) : '/' ∉ s := by
  induction cs generalizing s with
  | nil =>
    rw [List.mem_singleton.mp h]
    exact List.not_mem_nil
  | cons c r ih =>
    rw [segments] at h
    split at h
    · obtain rfl | h := List.mem_cons.mp h
      · exact List.not_mem_nil
      · exact ih h
    · next hc =>
      split at h
      · next hnil => exact absurd hnil (segments_ne_nil r)
      · next first others hr =>
        obtain rfl | h := List.mem_cons.mp h
        · exact mt List.mem_cons.mp (not_or.mpr ⟨Ne.symm hc, ih (hr ▸ List.mem_cons_self)⟩)
        · exact ih (hr ▸ List.mem_cons_of_mem _ h)

theorem ofSegment_eq_name {cs s : List Char} :
    Component.ofSegment cs = .name s ↔ cs = s ∧ cs ≠ ['.'] ∧ cs ≠ ['.', '.'] := by
  rw [Component.ofSegment]
  split
  · simp_all
  · split <;> simp_all

theorem isEntryName_of_mem {cs s : List Char} (h : .name s ∈ componentsOf cs) : IsEntryName s := by
  cases hcs : segments cs with
  | nil => exact absurd hcs (segments_ne_nil cs)
  | cons first rest =>
    have hslash : ∀ t ∈ first :: rest, '/' ∉ t := fun t ht => notMem_of_mem_segments (hcs ▸ ht)
    by_cases hne : cs = []
    · subst hne
      cases h
    · rw [componentsOf_eq hne hcs] at h
      obtain h | h := List.mem_cons.mp h
      · split at h
        · cases h
        · next hfirst =>
          obtain ⟨rfl, hdots⟩ := ofSegment_eq_name.mp h.symm
          exact ⟨by simpa using hfirst, hslash _ List.mem_cons_self, hdots⟩
      · obtain ⟨t, ht, hname⟩ := List.mem_map.mp h
        obtain ⟨rfl, hdots⟩ := ofSegment_eq_name.mp hname
        obtain ⟨hmem, hcounts⟩ := List.mem_filter.mp ht
        refine ⟨?_, hslash _ (List.mem_cons_of_mem _ hmem), hdots⟩
        rintro rfl
        cases hcounts

theorem isEntryName_of_nameOf {cs name : List Char} (h : nameOf cs = some name) :
    IsEntryName name := by
  rw [nameOf] at h
  split at h
  · next s hlast =>
    cases h
    exact isEntryName_of_mem (List.mem_of_getLast? hlast)
  · cases h

theorem isEntryName_of_fileName {p : Path} {file : String} (h : p.fileName = some file) :
    IsEntryName file.toList := by
  obtain ⟨cs, hname, rfl⟩ := Option.map_eq_some_iff.mp h
  rw [String.toList_ofList]
  exact isEntryName_of_nameOf hname

theorem isEntryName_jar {s : String} (h : '/' ∉ s.toList) : IsEntryName (s ++ ".jar").toList := by
  refine ⟨by simp, by simp [h], ?_, ?_⟩
  · intro heq
    simpa using congrArg List.length heq
  · intro heq
    simpa using congrArg List.length heq

theorem IsEntryName.componentsOf {cs : List Char} (h : IsEntryName cs) :
    Path.componentsOf cs = [.name cs] := by
  obtain ⟨hne, hslash, hdots⟩ := h
  have hname : Component.ofSegment cs = .name cs := ofSegment_eq_name.mpr ⟨rfl, hdots⟩
  rw [componentsOf_eq hne (segments_of_notMem hslash), hname, if_neg (by simpa using hne)]
  rfl

theorem componentsOf_append (cs ds : List Char) :
    componentsOf (cs ++ '/' :: ds) =
      componentsOf (cs ++ ['/']) ++ ((segments ds).filter counts).map .ofSegment := by
  cases hcs : segments cs with
  | nil => exact absurd hcs (segments_ne_nil cs)
  | cons first rest =>
    have hmore : segments (cs ++ '/' :: ds) = first :: (rest ++ segments ds) := by
      rw [segments_append, hcs]
      rfl
    have hone : segments (cs ++ ['/']) = first :: (rest ++ [[]]) := by
      rw [segments_append, hcs]
      rfl
    have hnone : [[]].filter counts = [] := rfl
    rw [componentsOf_eq (by simp) hmore, componentsOf_eq (by simp) hone]
    simp [List.filter_append, hnone]

theorem IsEntryName.componentsOf_append {cs file : List Char} (h : IsEntryName file) :
    Path.componentsOf (cs ++ '/' :: file) = Path.componentsOf (cs ++ ['/']) ++ [.name file] := by
  obtain ⟨hne, hslash, hdots⟩ := h
  have hname : Component.ofSegment file = .name file := ofSegment_eq_name.mpr ⟨rfl, hdots⟩
  have hcounts : counts file = true := by simp [counts, hne, hdots.1]
  rw [Path.componentsOf_append, segments_of_notMem hslash, List.filter_cons_of_pos hcounts]
  exact congrArg (_ ++ [·]) hname

theorem componentsOf_slashes (cs : List Char) (n : Nat) :
    componentsOf (cs ++ List.replicate (n + 1) '/') = componentsOf (cs ++ ['/']) := by
  rw [List.replicate_succ, componentsOf_append, segments_slashes]
  simp [counts]

theorem componentsOf_slash {cs : List Char} (h : cs ≠ []) :
    componentsOf (cs ++ ['/']) = componentsOf cs := by
  cases hcs : segments cs with
  | nil => exact absurd hcs (segments_ne_nil cs)
  | cons first rest =>
    have hone : segments (cs ++ ['/']) = first :: (rest ++ [[]]) := by
      rw [segments_append, hcs]
      rfl
    rw [componentsOf_eq (by simp) hone, componentsOf_eq h hcs]
    simp [List.filter_append, counts]

def folder (s : String) : String := .ofList (s.toList.rdropWhile (· != '/'))

def leaf (s : String) : String := .ofList (s.toList.rtakeWhile (· != '/'))

@[simp] theorem folder_append_leaf (s : String) : folder s ++ leaf s = s := by
  rw [folder, leaf, ← String.ofList_append, List.rdropWhile_append_rtakeWhile, String.ofList_toList]

theorem notMem_leaf (s : String) : '/' ∉ (leaf s).toList := by
  intro h
  rw [leaf, String.toList_ofList] at h
  exact absurd (List.mem_rtakeWhile_imp h) (by simp)

theorem folder_append {s t : String} (h : '/' ∉ t.toList) : folder (s ++ t) = folder s := by
  have hall : ∀ c ∈ t.toList.reverse, (c != '/') = true := by
    intro c hc
    rw [bne_iff_ne]
    rintro rfl
    exact h (List.mem_reverse.mp hc)
  rw [folder, folder, String.toList_append, List.rdropWhile, List.rdropWhile, List.reverse_append,
    List.dropWhile_append_of_pos hall]

theorem leaf_append {s t : String} (h : '/' ∉ t.toList) : leaf (s ++ t) = leaf s ++ t := by
  have hwhole : folder s ++ (leaf s ++ t) = folder s ++ leaf (s ++ t) := by
    rw [← String.append_assoc, folder_append_leaf, ← folder_append h, folder_append_leaf]
  exact (String.append_right_inj _ |>.mp hwhole).symm

theorem folder_of_notMem {s : String} (h : '/' ∉ s.toList) : folder s = "" := by
  simpa [folder] using folder_append (s := "") h

theorem leaf_of_notMem {s : String} (h : '/' ∉ s.toList) : leaf s = s := by
  simpa [folder_of_notMem h] using folder_append_leaf s

theorem folder_eq (s : String) : folder s = "" ∨ ∃ dir : List Char, folder s = .ofList (dir ++ ['/']) := by
  by_cases hne : s.toList.rdropWhile (· != '/') = []
  · exact .inl (by rw [folder, hne])
  · have hslash : (s.toList.rdropWhile (· != '/')).getLast hne = '/' := by
      simpa using List.rdropWhile_last_not (· != '/') s.toList hne
    have hdir := List.dropLast_append_getLast hne
    rw [hslash] at hdir
    exact .inr ⟨_, congrArg String.ofList hdir.symm⟩

theorem folder_slash (dir : List Char) : folder (.ofList (dir ++ ['/'])) = .ofList (dir ++ ['/']) := by
  rw [folder, String.toList_ofList, List.rdropWhile_concat, if_neg (by simp)]

theorem componentsOf_folder {s : String} (h : IsEntryName (leaf s).toList) :
    componentsOf s.toList = componentsOf (folder s).toList ++ [.name (leaf s).toList] := by
  conv_lhs => rw [← folder_append_leaf s, String.toList_append]
  obtain hnone | ⟨dir, hdir⟩ := folder_eq s
  · rw [hnone]
    exact h.componentsOf
  · rw [hdir, String.toList_ofList, List.append_assoc]
    exact h.componentsOf_append

end Path

namespace Shell.Command

theorem withoutSlashes_append (cs : List Char) :
    ∃ n, cs = withoutSlashes cs ++ List.replicate n '/' := by
  refine ⟨(cs.reverse.takeWhile (· == '/')).length, ?_⟩
  have hslashes : cs.reverse.takeWhile (· == '/') =
      List.replicate (cs.reverse.takeWhile (· == '/')).length '/' := by
    rw [List.eq_replicate_iff]
    exact ⟨rfl, fun c hc => by simpa using List.mem_takeWhile_imp hc⟩
  rw [withoutSlashes, ← List.reverse_replicate, ← hslashes, ← List.reverse_append,
    List.takeWhile_append_dropWhile, List.reverse_reverse]

theorem getLast?_withoutSlashes (cs : List Char) : (withoutSlashes cs).getLast? ≠ some '/' := by
  intro hlast
  rw [withoutSlashes, List.getLast?_reverse] at hlast
  have hhead := List.head?_dropWhile_not (· == '/') cs.reverse
  rw [hlast] at hhead
  cases hhead

theorem componentsOf_withoutSlashes {dir : String} (hdir : dir ≠ "") :
    Path.componentsOf (withoutSlashes dir.toList ++ ['/']) = Path.componentsOf dir.toList := by
  have hne : dir.toList ≠ [] := by simpa using hdir
  obtain ⟨n, hn⟩ := withoutSlashes_append dir.toList
  cases n with
  | zero =>
    rw [List.replicate_zero, List.append_nil] at hn
    rw [← hn, Path.componentsOf_slash hne]
  | succ n =>
    rw [hn, Path.componentsOf_slashes, ← hn]

theorem componentsOf_joinRemote {dir file : String} (hdir : dir ≠ "")
    (hfile : Path.IsEntryName file.toList) :
    Path.componentsOf (joinRemote dir file).toList =
      Path.componentsOf dir.toList ++ [.name file.toList] := by
  rw [joinRemote, String.toList_ofList, hfile.componentsOf_append, componentsOf_withoutSlashes hdir]

theorem isAbsolute_joinRemote {dir : String} (hdir : dir ≠ "") (file : String) :
    (⟨joinRemote dir file⟩ : Path).isAbsolute = (⟨dir⟩ : Path).isAbsolute := by
  obtain ⟨n, hn⟩ := withoutSlashes_append dir.toList
  rw [Path.isAbsolute, Path.isAbsolute, decide_eq_decide, joinRemote, String.toList_ofList]
  cases hstart : withoutSlashes dir.toList with
  | nil =>
    -- Slashes alone are the root, and are written as the one before the file.
    rw [hstart, List.nil_append] at hn
    cases n with
    | zero => exact absurd hn (by simpa using hdir)
    | succ n => simp [hn, List.replicate_succ]
  | cons c rest =>
    rw [hn, hstart]
    rfl

theorem joinRemote_slash (dir file : String) :
    ∃ start : String, joinRemote dir file = start ++ "/" ++ file ∧ start.toList.getLast? ≠ some '/' := by
  refine ⟨.ofList (withoutSlashes dir.toList), ?_, ?_⟩
  · rw [← String.toList_inj]
    simp [joinRemote]
  · rw [String.toList_ofList]
    exact getLast?_withoutSlashes dir.toList

theorem joinRemote_append (dir s t : String) : joinRemote dir (s ++ t) = joinRemote dir s ++ t := by
  simp [joinRemote, String.append_assoc]

theorem folder_joinRemote (dir file : String) :
    Path.folder (joinRemote dir file) = joinRemote dir (Path.folder file) := by
  conv_lhs => rw [← Path.folder_append_leaf file, joinRemote_append,
    Path.folder_append (Path.notMem_leaf file)]
  obtain hnone | ⟨inner, hinner⟩ := Path.folder_eq file
  · rw [hnone]
    exact Path.folder_slash _
  · rw [hinner, joinRemote, String.toList_ofList, ← List.cons_append, ← List.append_assoc]
    exact Path.folder_slash _

theorem leaf_joinRemote (dir file : String) :
    Path.leaf (joinRemote dir file) = Path.leaf file := by
  apply String.append_right_inj (joinRemote dir (Path.folder file)) |>.mp
  rw [← folder_joinRemote, Path.folder_append_leaf, folder_joinRemote, ← joinRemote_append,
    Path.folder_append_leaf]

theorem componentsOf_joinRemote_nothing {dir : String} (hdir : dir ≠ "") :
    Path.componentsOf (joinRemote dir "").toList = Path.componentsOf dir.toList := by
  rw [joinRemote, String.toList_ofList]
  exact componentsOf_withoutSlashes hdir

end Shell.Command

end Rollout
