import Rollout.Credential
import Rollout.Plan.Locator
import Rollout.Proofs.Except
import Rollout.Proofs.Parent
import Rollout.Ssh.Transport

/-!
Local files that are opened by name: archives, keys and plans. What a path names is said without
limits and without opening anything, by following its names from one directory to the next; the file
that is opened has to be that one.
-/

namespace Rollout

namespace Path

def hops (p : Path) : List String := (passes p.text.toList).map String.ofList

def IsBare (p : Path) : Prop := p.components.length = 1 ∧ p.fileName ≠ none

instance : DecidablePred IsBare := fun _ => inferInstanceAs (Decidable (_ ∧ _))

def behindDot (p : Path) : Path := ⟨"./" ++ p.text⟩

def holder (p : Path) : Path := (p.parent.filter (!·.text.isEmpty)).getD ⟨"."⟩

theorem hops_steps (p : Path) : (FileSystem.steps p).filter (· ≠ ".") = p.hops := by
  have hdot : ((fun name => decide (name ≠ ".")) ∘ String.ofList) = fun cs => decide (cs ≠ ['.']) := by
    funext cs
    have hname : String.ofList cs = "." ↔ cs = ['.'] := String.ofList_inj
    exact decide_eq_decide.mpr (not_congr hname)
  have hcounts : counts = fun cs => !cs.isEmpty && decide (cs ≠ ['.']) := by
    funext cs
    rw [counts, bne, beq_eq_decide, decide_not]
  rw [FileSystem.steps, List.filter_map, hdot, hops, passes, hcounts]
  refine congrArg _ ?_
  -- The dot that a slash at the end stands for is no name.
  split <;> simp [List.filter_append, List.filter_filter, Bool.and_comm]

theorem fileName_ne_dot {p : Path} {name : String} (h : p.fileName = some name) : name ≠ "." := by
  rintro rfl
  exact (isEntryName_of_fileName h).2.2.1 rfl

theorem holder_eq {p : Path} {q : List Char} (h : parentOf p.text.toList = some q) :
    p.holder = if q = [] then ⟨"."⟩ else ⟨.ofList q⟩ := by
  rw [holder, parent, h]
  split
  · next hq =>
    subst hq
    rfl
  · next hq => simp [Option.filter, hq]

theorem holder_ne_empty (p : Path) : p.holder.text.isEmpty = false := by
  rw [holder]
  cases hfilter : p.parent.filter (!·.text.isEmpty) with
  | none => rfl
  | some q => simpa using (Option.filter_eq_some_iff.mp hfilter).2

theorem hops_holder {p : Path} {name : String} (h : p.fileName = some name) :
    p.hops = p.holder.hops ++ [name] := by
  obtain ⟨cs, hcs, rfl⟩ := Option.map_eq_some_iff.mp h
  obtain ⟨q, hq, -, hpasses⟩ := passes_parentOf hcs
  rw [holder_eq hq, hops, hpasses, List.map_append]
  split
  · next hnil =>
    subst hnil
    rfl
  · rw [hops, String.toList_ofList]
    rfl

theorem isAbsolute_holder {p : Path} {name : String} (h : p.fileName = some name) :
    p.holder.isAbsolute = p.isAbsolute := by
  obtain ⟨cs, hcs, rfl⟩ := Option.map_eq_some_iff.mp h
  obtain ⟨q, hq, horigin, -⟩ := passes_parentOf hcs
  rw [holder_eq hq, isAbsolute, isAbsolute, decide_eq_decide, ← origin_eq_root, ← origin_eq_root,
    horigin]
  split
  · next hnil =>
    subst hnil
    decide
  · rw [String.toList_ofList]

theorem nul_notMem {p : Path} (h : ∀ name ∈ p.hops, '\x00' ∉ name.toList) :
    '\x00' ∉ p.text.toList := by
  intro hmem
  obtain ⟨s, hs, hnul⟩ := exists_mem_passes hmem (by decide) (by decide)
  exact h _ (List.mem_map_of_mem hs) (by rwa [String.toList_ofList])

theorem getD_parent {p : Path} {name : String} (h : p.fileName = some name) (hbare : ¬ p.IsBare) :
    p.parent.getD ⟨"."⟩ = p.holder := by
  obtain ⟨cs, hcs, rfl⟩ := Option.map_eq_some_iff.mp h
  obtain ⟨q, hq, -⟩ := passes_parentOf hcs
  have hne : q ≠ [] := by
    rintro rfl
    exact hbare ⟨(parentOf_eq_nil_iff hcs).mp hq, by rw [h]; exact Option.some_ne_none _⟩
  rw [holder_eq hq, if_neg hne, parent, hq]
  rfl

theorem IsBare.parentOf_eq {p : Path} (h : p.IsBare) : parentOf p.text.toList = some [] := by
  obtain ⟨name, hname⟩ := Option.ne_none_iff_exists'.mp h.2
  obtain ⟨cs, hcs, rfl⟩ := Option.map_eq_some_iff.mp hname
  exact (parentOf_eq_nil_iff hcs).mpr h.1

theorem holder_of_isBare {p : Path} (h : p.IsBare) : p.holder = ⟨"."⟩ :=
  holder_eq h.parentOf_eq

theorem IsBare.behindDot {p : Path} (h : p.IsBare) :
    ¬ p.behindDot.IsBare ∧ p.behindDot.fileName = p.fileName ∧ p.behindDot.holder = p.holder := by
  obtain ⟨name, hname⟩ := Option.ne_none_iff_exists'.mp h.2
  obtain ⟨cs, hcs, rfl⟩ := Option.map_eq_some_iff.mp hname
  have htext : p.behindDot.text.toList = '.' :: '/' :: p.text.toList := String.toList_append
  obtain ⟨hlast, hparent⟩ := parentOf_behind_dot hcs h.parentOf_eq
  rw [← htext] at hlast hparent
  refine ⟨fun hbare => ?_, ?_, ?_⟩
  · cases hparent.symm.trans hbare.parentOf_eq
  · rw [fileName, hlast, fileName, hcs]
  · rw [holder_eq hparent, holder_eq h.parentOf_eq]
    rfl

theorem isBare_of_isEntryName {name : String} (h : IsEntryName name.toList) :
    fileName ⟨name⟩ = some name ∧ IsBare ⟨name⟩ := by
  have hname : fileName ⟨name⟩ = some name := by
    rw [fileName, nameOf, h.componentsOf]
    exact congrArg some String.ofList_toList
  refine ⟨hname, ?_, by rw [hname]; exact Option.some_ne_none _⟩
  rw [components, h.componentsOf]
  rfl

end Path

namespace FileSystem

structure IsName (name : String) : Prop where
  dot : name ≠ "."
  dots : name ≠ ".."
  nul : '\x00' ∉ name.toList
  short : name.utf8ByteSize ≤ 255

/-- Where names lead from a place, and how many links are followed on the way. -/
inductive Leads (fs : FileSystem) : Nat → Place → List String → Place → Prop
  | done {here} : Leads fs 0 here [] here
  | up {n here rest place} : fs.isDirectory here → Leads fs n here.dropLast rest place →
      Leads fs n here (".." :: rest) place
  | into {n here name node rest place} : fs.isDirectory here → IsName name →
      fs.node? (here ++ [name]) = some node → (∀ target, node ≠ .link target) →
      Leads fs n (here ++ [name]) rest place → Leads fs n here (name :: rest) place
  | follow {n here name target rest place} : fs.isDirectory here → IsName name →
      fs.node? (here ++ [name]) = some (.link target) →
      Leads fs n (if target.isAbsolute then [] else here) (target.hops ++ rest) place →
      Leads fs (n + 1) here (name :: rest) place

variable {fs : FileSystem}

theorem Leads.append {n m : Nat} {here mid place : Place} {names more : List String}
    (h : fs.Leads n here names mid) (h' : fs.Leads m mid more place) :
    fs.Leads (n + m) here (names ++ more) place := by
  induction h with
  | done => simpa using h'
  | up hdir _ ih => exact .up hdir (ih h')
  | into hdir hname hnode hlink _ ih => exact .into hdir hname hnode hlink (ih h')
  | follow hdir hname hnode _ ih =>
    rw [Nat.add_right_comm, List.cons_append]
    refine .follow hdir hname hnode ?_
    rw [← List.append_assoc]
    exact ih h'

theorem Leads.unique {n m : Nat} {here place place' : Place} {names : List String}
    (h : fs.Leads n here names place) (h' : fs.Leads m here names place') :
    n = m ∧ place = place' := by
  induction h generalizing m with
  | done =>
    cases h'
    exact ⟨rfl, rfl⟩
  | up hdir _ ih =>
    cases h' with
    | up _ h' => exact ih h'
    | into _ hname => exact absurd rfl hname.dots
    | follow _ hname => exact absurd rfl hname.dots
  | into hdir hname hnode hlink _ ih =>
    cases h' with
    | up => exact absurd rfl hname.dots
    | into _ _ _ _ h' => exact ih h'
    | follow _ _ hnode' =>
      rw [hnode] at hnode'
      exact absurd (Option.some_inj.mp hnode') (hlink _)
  | follow hdir hname hnode _ ih =>
    cases h' with
    | up => exact absurd rfl hname.dots
    | into _ _ hnode' hlink =>
      rw [hnode] at hnode'
      exact absurd (Option.some_inj.mp hnode').symm (hlink _)
    | follow _ _ hnode' h' =>
      rw [hnode] at hnode'
      cases hnode'
      obtain ⟨rfl, rfl⟩ := ih h'
      exact ⟨rfl, rfl⟩

theorem filter_dot_cons {name : String} (h : name ≠ ".") (rest : List String) :
    (name :: rest).filter (· ≠ ".") = name :: rest.filter (· ≠ ".") :=
  List.filter_cons_of_pos (by simpa using h)

theorem filter_steps_append (target : Path) (rest : List String) :
    (steps target ++ rest).filter (· ≠ ".") = target.hops ++ rest.filter (· ≠ ".") := by
  rw [List.filter_append, target.hops_steps]

theorem IsName.of_checks {name : String} (hdot : name ≠ ".") (hdots : name ≠ "..")
    (hnul : ¬ name.toList.contains '\x00') (hshort : ¬ 255 < name.utf8ByteSize) : IsName name :=
  ⟨hdot, hdots, by simpa using hnul, Nat.le_of_not_lt hshort⟩

theorem leads_of_walk {floor : Option Place} {links : Nat} {here place : Place} {names : List String}
    (h : fs.walk floor links here names = .ok place) :
    ∃ n ≤ links, fs.Leads n here (names.filter (· ≠ ".")) place := by
  -- Only the four ways to go on are left of the cases; all others are faults.
  fun_induction FileSystem.walk fs floor links here names <;> try cases h
  case case1 here => exact ⟨0, Nat.zero_le _, .done⟩
  case case3 rest hdir ih => exact ih h
  case case5 rest hdir hfloor hdot ih =>
    obtain ⟨n, hn, hleads⟩ := ih h
    rw [filter_dot_cons hdot]
    exact ⟨n, hn, .up (by simpa using hdir) hleads⟩
  case case10 name rest hdir hdot hdots hnul hshort target hnode links hrelative ih =>
    obtain ⟨n, hn, hleads⟩ := ih h
    have hname := IsName.of_checks hdot hdots hnul hshort
    rw [filter_steps_append] at hleads
    rw [filter_dot_cons hdot]
    refine ⟨n + 1, Nat.succ_le_succ hn, .follow (by simpa using hdir) hname hnode ?_⟩
    rwa [if_neg (by simpa using hrelative)]
  case case12 name rest hdir hdot hdots hnul hshort target hnode links habsolute hfloor ih =>
    obtain ⟨n, hn, hleads⟩ := ih h
    have hname := IsName.of_checks hdot hdots hnul hshort
    rw [filter_steps_append] at hleads
    rw [filter_dot_cons hdot]
    refine ⟨n + 1, Nat.succ_le_succ hn, .follow (by simpa using hdir) hname hnode ?_⟩
    rwa [if_pos (by simpa using habsolute)]
  case case13 name rest hdir hdot hdots hnul hshort node hlink hnode ih =>
    obtain ⟨n, hn, hleads⟩ := ih h
    have hname := IsName.of_checks hdot hdots hnul hshort
    rw [filter_dot_cons hdot]
    exact ⟨n, hn, .into (by simpa using hdir) hname hnode hlink hleads⟩

theorem walk_dots {floor : Option Place} {links : Nat} {here : Place} {dots : List String}
    (hdir : fs.isDirectory here) (hdots : ∀ name ∈ dots, name = ".") (rest : List String) :
    fs.walk floor links here (dots ++ rest) = fs.walk floor links here rest := by
  induction dots with
  | nil => rfl
  | cons name dots ih =>
    obtain ⟨rfl, hrest⟩ := List.forall_mem_cons.mp hdots
    rw [List.cons_append, walk, if_neg (by simpa using hdir), if_pos rfl]
    exact ih hrest

theorem walk_into {floor : Option Place} {links : Nat} {here : Place} {name : String} {node : Node}
    (hdir : fs.isDirectory here) (hname : IsName name) (hnode : fs.node? (here ++ [name]) = some node)
    (hlink : ∀ target, node ≠ .link target) (rest : List String) :
    fs.walk floor links here (name :: rest) = fs.walk floor links (here ++ [name]) rest := by
  rw [walk, if_neg (by simpa using hdir), if_neg hname.dot, if_neg hname.dots,
    if_neg (by simpa using hname.nul), if_neg (Nat.not_lt.mpr hname.short), hnode]
  split
  · next heq => cases heq
  · next target heq => exact absurd (Option.some_inj.mp heq) (hlink target)
  · rfl

theorem walk_follow {links : Nat} {here : Place} {name : String} {target : Path}
    (hdir : fs.isDirectory here) (hname : IsName name)
    (hnode : fs.node? (here ++ [name]) = some (.link target)) (rest : List String) :
    fs.walk none (links + 1) here (name :: rest) =
      fs.walk none links (if target.isAbsolute then [] else here) (steps target ++ rest) := by
  rw [walk, if_neg (by simpa using hdir), if_neg hname.dot, if_neg hname.dots,
    if_neg (by simpa using hname.nul), if_neg (Nat.not_lt.mpr hname.short), hnode]
  cases habsolute : target.isAbsolute <;> simp [habsolute]

theorem walk_of_leads {n links : Nat} {here place : Place} {names names' : List String}
    (h : fs.Leads n here names place) (hplace : fs.isDirectory place) (hn : n ≤ links)
    (hnames : names'.filter (· ≠ ".") = names) : fs.walk none links here names' = .ok place := by
  induction h generalizing links names' with
  | done =>
    have hdots : ∀ name ∈ names', name = "." := by simpa using hnames
    rw [← List.append_nil names', walk_dots hplace hdots, walk]
  | up hdir _ ih =>
    obtain ⟨dots, rest, rfl, hdots, -, hrest⟩ := List.filter_eq_cons_iff.mp hnames
    rw [walk_dots hdir (by simpa using hdots), walk, if_neg (by simpa using hdir),
      if_neg (by decide), if_pos rfl, if_neg (Option.some_ne_none _).symm]
    exact ih hplace hn hrest
  | into hdir hname hnode hlink _ ih =>
    obtain ⟨dots, rest, rfl, hdots, -, hrest⟩ := List.filter_eq_cons_iff.mp hnames
    rw [walk_dots hdir (by simpa using hdots), walk_into hdir hname hnode hlink]
    exact ih hplace hn hrest
  | @follow n here name target more place hdir hname hnode _ ih =>
    obtain ⟨dots, rest, rfl, hdots, -, hrest⟩ := List.filter_eq_cons_iff.mp hnames
    obtain ⟨links, rfl⟩ : ∃ k, links = k + 1 := ⟨links - 1, by omega⟩
    have hnames' : (steps target ++ rest).filter (· ≠ ".") = target.hops ++ more := by
      rw [filter_steps_append, hrest]
    rw [walk_dots hdir (by simpa using hdots), walk_follow hdir hname hnode]
    exact ih hplace (Nat.le_of_succ_le_succ hn) hnames'

theorem Leads.nul_notMem {n : Nat} {here place : Place} {names : List String}
    (h : fs.Leads n here names place) : ∀ name ∈ names, '\x00' ∉ name.toList := by
  induction h with
  | done => exact nofun
  | up _ _ ih => exact List.forall_mem_cons.mpr ⟨by decide, ih⟩
  | into _ hname _ _ _ ih => exact List.forall_mem_cons.mpr ⟨hname.nul, ih⟩
  | follow _ hname _ _ ih =>
    exact List.forall_mem_cons.mpr ⟨hname.nul, fun name h => ih name (List.mem_append_right _ h)⟩

def start (fs : FileSystem) (p : Path) : Place := if p.isAbsolute then [] else fs.workingDirectory

theorem start_holder {p : Path} {name : String} (h : p.fileName = some name) :
    fs.start p.holder = fs.start p := by
  rw [start, start, Path.isAbsolute_holder h]

def Names (fs : FileSystem) (p : Path) (node : Node) : Prop :=
  ∃ n place, fs.Leads n (fs.start p) p.hops place ∧ fs.node? place = some node

theorem Names.unique {p : Path} {node node' : Node} (h : fs.Names p node) (h' : fs.Names p node') :
    node = node' := by
  obtain ⟨n, place, hleads, hnode⟩ := h
  obtain ⟨m, place', hleads', hnode'⟩ := h'
  obtain ⟨-, rfl⟩ := hleads.unique hleads'
  exact Option.some_inj.mp (hnode.symm.trans hnode')

/-- The directory, and the entry of it, that a path stands for. -/
structure Holds (fs : FileSystem) (p : Path) (directory : Place) (name : String) : Prop where
  last : p.fileName = some name
  short : p.holder.text.utf8ByteSize < 4096
  leads : ∃ n ≤ maxLinks, fs.Leads n (fs.start p) p.hops.dropLast directory
  isDirectory : fs.isDirectory directory

theorem openDirectory_holder_iff {p : Path} {name : String} {directory : Place}
    (h : p.fileName = some name) :
    fs.openDirectory p.holder = .ok directory ↔ fs.Holds p directory name := by
  have hhops : p.hops.dropLast = p.holder.hops := by rw [Path.hops_holder h, List.dropLast_concat]
  constructor
  · intro hopen
    obtain ⟨place, hresolve, hopen⟩ := ok_of_bind hopen
    split at hopen
    · next hdir =>
      cases hopen
      rw [resolve] at hresolve
      split at hresolve
      · cases hresolve
      · split at hresolve
        · cases hresolve
        · split at hresolve
          · cases hresolve
          · next hshort =>
            obtain ⟨n, hn, hleads⟩ := leads_of_walk hresolve
            rw [Path.hops_steps, ← hhops] at hleads
            refine ⟨h, Nat.lt_of_not_le hshort, ⟨n, hn, ?_⟩, hdir⟩
            rwa [← start_holder h]
    · cases hopen
  · rintro ⟨-, hshort, ⟨n, hn, hleads⟩, hdir⟩
    rw [hhops, ← start_holder h] at hleads
    have hnul : '\x00' ∉ p.holder.text.toList := Path.nul_notMem hleads.nul_notMem
    have hwalk := walk_of_leads hleads hdir hn p.holder.hops_steps
    have hne : p.holder.text.isEmpty = false := p.holder_ne_empty
    rw [openDirectory, resolve, if_neg (by simpa using hnul), if_neg (by simpa using hne),
      if_neg (Nat.not_le.mpr hshort)]
    rw [start] at hwalk
    rw [hwalk]
    exact if_pos hdir

def readable (node : Node) : Except Fault String := do
  match Utf8.decode? (← contentOf node) with
  | some text => .ok text
  | none => .error .notText

/-- The node that a path names, opened by name in the directory that holds it. -/
def opened (fs : FileSystem) (p : Path) : Except Fault Node :=
  match p.fileName with
  | none => .error .noFileName
  | some name => do fs.entry (← fs.openDirectory p.holder) name

theorem opened_eq_ok_iff {p : Path} {node : Node} : fs.opened p = .ok node ↔
    ∃ directory name, fs.Holds p directory name ∧ fs.entry directory name = .ok node := by
  rw [opened]
  constructor
  · intro h
    split at h
    · cases h
    · next name hname =>
      obtain ⟨directory, hopen, hentry⟩ := ok_of_bind h
      exact ⟨directory, name, (openDirectory_holder_iff hname).mp hopen, hentry⟩
  · rintro ⟨directory, name, hholds, hentry⟩
    rw [hholds.last]
    dsimp only
    rw [(openDirectory_holder_iff hholds.last).mpr hholds]
    exact hentry

theorem names_of_entry {p : Path} {directory : Place} {name : String} {node : Node}
    (hholds : fs.Holds p directory name) (h : fs.entry directory name = .ok node) :
    fs.Names p node := by
  obtain ⟨n, -, hleads⟩ := hholds.leads
  obtain ⟨place, hwalk, hnode⟩ := ok_of_bind h
  obtain ⟨m, -, hleads'⟩ := leads_of_walk hwalk
  rw [filter_dot_cons (Path.fileName_ne_dot hholds.last)] at hleads'
  refine ⟨n + m, place, ?_, ?_⟩
  · rw [Path.hops_holder hholds.last] at hleads ⊢
    rw [List.dropLast_concat] at hleads
    exact hleads.append hleads'
  · split at hnode
    · next heq => exact heq.trans (congrArg some (Except.ok.inj hnode))
    · cases hnode

theorem entry_of_node {directory : Place} {name : String} {node : Node}
    (hdir : fs.isDirectory directory) (hname : IsName name)
    (hnode : fs.node? (directory ++ [name]) = some node) (hlink : ∀ target, node ≠ .link target) :
    fs.entry directory name = .ok node := by
  have hwalk : fs.walk (some directory) maxLinks directory [name] = .ok (directory ++ [name]) := by
    rw [walk_into hdir hname hnode hlink, walk]
  rw [entry, hwalk]
  dsimp only [bind, Except.bind]
  rw [hnode]

theorem entry_of_missing {directory : Place} {name : String} (hdir : fs.isDirectory directory)
    (hname : IsName name) (hnode : fs.node? (directory ++ [name]) = none) :
    fs.entry directory name = .error .notFound := by
  rw [entry, walk, if_neg (by simpa using hdir), if_neg hname.dot, if_neg hname.dots,
    if_neg (by simpa using hname.nul), if_neg (Nat.not_lt.mpr hname.short), hnode]
  rfl

theorem opened_behindDot {p : Path} (h : p.IsBare) : fs.opened p.behindDot = fs.opened p := by
  obtain ⟨-, hname, hholder⟩ := h.behindDot
  rw [opened, opened, hname, hholder]

theorem openDirectory_parent_of_isBare {p : Path} (h : p.IsBare) :
    fs.openDirectory (p.parent.getD ⟨"."⟩) = .error .notFound := by
  rw [Path.parent, h.parentOf_eq]
  rfl

theorem openSource_eq (p : Path) :
    Ssh.openSource fs p = if p.IsBare then .error .notFound else fs.opened p := by
  rw [Ssh.openSource, opened]
  cases hname : p.fileName with
  | none => rw [if_neg fun hbare => hbare.2 hname]
  | some name =>
    dsimp only
    split
    · next hbare => rw [openDirectory_parent_of_isBare hbare]; rfl
    · next hbare => rw [Path.getD_parent hname hbare]

theorem readKey_eq (p : Path) :
    Credential.readKey fs p = if p.IsBare then .error .notFound else fs.opened p >>= readable := by
  rw [Credential.readKey, opened]
  cases hname : p.fileName with
  | none => rw [if_neg fun hbare => hbare.2 hname]; rfl
  | some name =>
    dsimp only
    split
    · next hbare => rw [openDirectory_parent_of_isBare hbare]; rfl
    · next hbare => rw [Path.getD_parent hname hbare, bind_assoc]; rfl

theorem plan_read_eq (p : Path) : ∃ place ∈ [p, p.holder],
    Plan.read fs p = (fs.opened p >>= readable).mapError (.io place) := by
  rw [Plan.read, Plan.split, opened]
  cases hname : p.fileName with
  | none => exact ⟨p, .head _, rfl⟩
  | some name =>
    -- A fault names the directory when there is nothing to look the name up in.
    cases hopen : fs.openDirectory p.holder with
    | error fault =>
      refine ⟨p.holder, .tail _ (.head _), ?_⟩
      change ((fs.openDirectory p.holder).mapError _ >>= _) = _
      rw [hopen]
      rfl
    | ok directory =>
      refine ⟨p, .head _, ?_⟩
      change ((fs.openDirectory p.holder).mapError _ >>= _) = _
      rw [hopen]
      rfl

/-- Every path names one file for all that open it, but to an upload and to a key a name alone names
none: its empty parent is taken for a directory and never found. It is found behind a dot. -/
theorem opened_unless_bare (fs : FileSystem) (p : Path) :
    Ssh.openSource fs p = (if p.IsBare then .error .notFound else fs.opened p) ∧
    Credential.readKey fs p =
      (if p.IsBare then .error .notFound else fs.opened p >>= readable) ∧
    (∃ place ∈ [p, p.holder],
      Plan.read fs p = (fs.opened p >>= readable).mapError (.io place)) ∧
    (p.IsBare → ¬ p.behindDot.IsBare ∧ fs.opened p.behindDot = fs.opened p) ∧
    (∀ node, fs.opened p = .ok node ↔
      ∃ directory name, fs.Holds p directory name ∧ fs.entry directory name = .ok node) ∧
    (∀ directory name node, fs.Holds p directory name → IsName name →
      fs.node? (directory ++ [name]) = some node → (∀ target, node ≠ .link target) →
      fs.opened p = .ok node) ∧
    ∀ node, fs.opened p = .ok node → fs.Names p node ∧ ∀ other, fs.Names p other → other = node := by
  refine ⟨openSource_eq p, readKey_eq p, plan_read_eq p, ?_, fun _ => opened_eq_ok_iff, ?_, ?_⟩
  · intro hbare
    exact ⟨hbare.behindDot.1, opened_behindDot hbare⟩
  · intro directory name node hholds hname hnode hlink
    exact opened_eq_ok_iff.mpr
      ⟨directory, name, hholds, entry_of_node hholds.isDirectory hname hnode hlink⟩
  · intro node hopened
    obtain ⟨directory, name, hholds, hentry⟩ := opened_eq_ok_iff.mp hopened
    have hnames := names_of_entry hholds hentry
    exact ⟨hnames, fun other hother => hother.unique hnames⟩

theorem openDirectory_dot (hdir : fs.isDirectory fs.workingDirectory) :
    fs.openDirectory ⟨"."⟩ = .ok fs.workingDirectory := by
  have hwalk : fs.walk none maxLinks fs.workingDirectory (steps ⟨"."⟩) = .ok fs.workingDirectory :=
    walk_of_leads .done hdir (Nat.zero_le _) (by decide)
  rw [openDirectory, resolve, if_neg (by decide), if_neg (by decide), if_neg (by decide),
    if_neg (by decide), hwalk]
  exact if_pos hdir

theorem openDirectory_holder_name {name : String} (hname : Path.IsEntryName name.toList)
    (hdir : fs.isDirectory fs.workingDirectory) :
    fs.openDirectory (Path.holder ⟨name⟩) = .ok fs.workingDirectory := by
  rw [Path.holder_of_isBare (Path.isBare_of_isEntryName hname).2, openDirectory_dot hdir]

theorem opened_name {name : String} (hname : Path.IsEntryName name.toList)
    (hdir : fs.isDirectory fs.workingDirectory) :
    fs.opened ⟨name⟩ = fs.entry fs.workingDirectory name := by
  rw [opened, (Path.isBare_of_isEntryName hname).1]
  dsimp only
  rw [openDirectory_holder_name hname hdir]
  rfl

/-- A key in the working directory is read only behind a dot, though a plan of the same name is
read. -/
theorem bare_not_opened :
    let fs : FileSystem := ⟨[(["alpha"], .file [107] false)], []⟩
    Ssh.openSource fs ⟨"alpha"⟩ = .error .notFound ∧
    Ssh.openSource fs ⟨"./alpha"⟩ = .ok (.file [107] false) ∧
    Credential.readKey fs ⟨"alpha"⟩ = .error .notFound ∧
    Credential.readKey fs ⟨"./alpha"⟩ = .ok "k" ∧
    Plan.read fs ⟨"alpha"⟩ = .ok "k" := by
  intro fs
  have hname : IsName "alpha" := ⟨by decide, by decide, by decide, by decide⟩
  have hopened : fs.opened ⟨"alpha"⟩ = .ok (.file [107] false) :=
    (opened_name (by decide) rfl).trans (entry_of_node rfl hname rfl nofun)
  have hbare : Path.IsBare ⟨"alpha"⟩ := (Path.isBare_of_isEntryName (by decide)).2
  have hdotted : ¬ Path.IsBare ⟨"./alpha"⟩ := hbare.behindDot.1
  have hopened' : fs.opened ⟨"./alpha"⟩ = .ok (.file [107] false) :=
    (opened_behindDot hbare).trans hopened
  have htext : readable (.file [107] false) = .ok "k" := by
    have hpieces : Utf8.pieces [107] = [some 'k'] := by
      rw [Utf8.pieces]
      change some 'k' :: Utf8.pieces [] = _
      rw [Utf8.pieces]
    have hdecode : Utf8.decode? [107] = some "k" := by
      rw [Utf8.decode?, Utf8.isValid, Utf8.decode, hpieces]
      rfl
    rw [readable, contentOf]
    dsimp only [bind, Except.bind]
    rw [hdecode]
  refine ⟨?_, ?_, ?_, ?_, ?_⟩
  · rw [openSource_eq, if_pos hbare]
  · rw [openSource_eq, if_neg hdotted, hopened']
  · rw [readKey_eq, if_pos hbare]
  · rw [readKey_eq, if_neg hdotted, hopened']
    exact htext
  · obtain ⟨place, -, hread⟩ := fs.plan_read_eq ⟨"alpha"⟩
    rw [hread, hopened]
    exact congrArg (Except.mapError _) htext

end FileSystem

end Rollout
