import Rollout.Plan.Document
import Rollout.Proofs.Document

/-!
Which written plans are plans. The checks accept exactly what is consistent: remotes that can be
reached and logged in to, and destinations that stand on a known remote, have somewhere to put an
archive and a lock that can be asked for. Of several faults the one that is reported belongs to the
first remote by name that has any, and to the first destination only when all remotes are in order.
-/

namespace Rollout.Plan

/-! ### What is consistent -/

/-- A written plan whose remotes and destinations are maps: in the order of the names, each name
once. -/
structure Spec.Mapped (spec : Spec) : Prop where
  remotes : Toml.Ascending spec.remotes
  destinations : Toml.Ascending spec.destinations

def CredentialSpec.Keyed (c : CredentialSpec) : Prop :=
  c.kind = .conventionalKeyFile → ∃ key, c.key = some key ∧ Text.isVoid key = false

structure RemoteSpec.Consistent (r : RemoteSpec) : Prop where
  host : Text.isVoid r.host = false
  listed : r.credentials ≠ some []
  keyed : ∀ specs, r.credentials = some specs → ∀ c ∈ specs, c.Keyed

structure LockSpec.Consistent (l : LockSpec) : Prop where
  domain : Text.isVoid l.domain = false
  shard : Text.isVoid l.shard = false
  bounded : l.checkOnly = true ∨ 1 ≤ l.minutes

structure DestinationSpec.Consistent (remotes : List String) (d : DestinationSpec) : Prop where
  remote : d.remote ∈ remotes
  somewhere : d.paths ≠ []
  paths : ∀ path ∈ d.paths, Text.isVoid path = false
  lock : ∀ l, d.lock = some l → l.Consistent

def Spec.remoteNames (spec : Spec) : List String := spec.remotes.map (·.1)

structure Spec.Consistent (spec : Spec) : Prop where
  remotes : ∀ entry ∈ spec.remotes, entry.2.Consistent
  destinations : ∀ entry ∈ spec.destinations, entry.2.Consistent spec.remoteNames

/-! ### Which fault is the first -/

inductive RemoteSpec.Fails (name : String) (r : RemoteSpec) : Flaw → Prop
  | host : Text.isVoid r.host = true → Fails name r (.emptyHost name)
  | key {specs c} : Text.isVoid r.host = false → r.credentials = some specs → c ∈ specs →
      ¬ c.Keyed → Fails name r (.namelessKey name)
  | unlisted : Text.isVoid r.host = false → r.credentials = some [] →
      Fails name r (.noCredentials name)

inductive LockSpec.Fails (destination : String) (l : LockSpec) : Flaw → Prop
  | vague : Text.isVoid l.domain = true ∨ Text.isVoid l.shard = true →
      Fails destination l (.vagueLock destination)
  | endless : Text.isVoid l.domain = false → Text.isVoid l.shard = false → l.checkOnly = false →
      l.minutes = 0 → Fails destination l (.endlessClaim destination)

inductive DestinationSpec.Fails (remotes : List String) (name : String) (d : DestinationSpec) :
    Flaw → Prop
  | remote : d.remote ∉ remotes → Fails remotes name d (.unknownRemote name d.remote)
  | paths : d.remote ∈ remotes → (d.paths = [] ∨ ∃ path ∈ d.paths, Text.isVoid path = true) →
      Fails remotes name d (.badPaths name)
  | lock {l flaw} : d.remote ∈ remotes → d.paths ≠ [] →
      (∀ path ∈ d.paths, Text.isVoid path = false) → d.lock = some l → l.Fails name flaw →
      Fails remotes name d flaw

/-- The flaw of the first remote by name that has one, else that of the first destination. -/
inductive Spec.Fails (spec : Spec) : Flaw → Prop
  | remote {name r flaw} : (name, r) ∈ spec.remotes → r.Fails name flaw →
      (∀ other ∈ spec.remotes, other.1 < name → other.2.Consistent) → Fails spec flaw
  | destination {name d flaw} : (∀ other ∈ spec.remotes, other.2.Consistent) →
      (name, d) ∈ spec.destinations → d.Fails spec.remoteNames name flaw →
      (∀ other ∈ spec.destinations, other.1 < name → other.2.Consistent spec.remoteNames) →
      Fails spec flaw

theorem RemoteSpec.Fails.not_consistent {name : String} {r : RemoteSpec} {flaw : Flaw}
    (h : r.Fails name flaw) : ¬ r.Consistent := by
  rintro ⟨hhost, hlisted, hkeyed⟩
  cases h with
  | host h => simp [h] at hhost
  | key _ hspecs hc hkey => exact hkey (hkeyed _ hspecs _ hc)
  | unlisted _ h => exact hlisted h

theorem LockSpec.Fails.not_consistent {name : String} {l : LockSpec} {flaw : Flaw}
    (h : l.Fails name flaw) : ¬ l.Consistent := by
  rintro ⟨hdomain, hshard, hbounded⟩
  cases h with
  | vague h => simp [hdomain, hshard] at h
  | endless _ _ hclaim hminutes => simp [hclaim, hminutes] at hbounded

theorem DestinationSpec.Fails.not_consistent {remotes : List String} {name : String}
    {d : DestinationSpec} {flaw : Flaw} (h : d.Fails remotes name flaw) : ¬ d.Consistent remotes := by
  rintro ⟨hremote, hsomewhere, hpaths, hlock⟩
  cases h with
  | remote h => exact h hremote
  | paths _ h =>
    rcases h with h | ⟨path, hpath, hblank⟩
    · exact hsomewhere h
    · simp [hpaths path hpath] at hblank
  | lock _ _ _ hl hfails => exact hfails.not_consistent (hlock _ hl)

theorem Spec.Fails.not_consistent {spec : Spec} {flaw : Flaw} (h : spec.Fails flaw) :
    ¬ spec.Consistent := by
  rintro ⟨hremotes, hdestinations⟩
  cases h with
  | remote hmem hfails _ => exact hfails.not_consistent (hremotes _ hmem)
  | destination _ hmem hfails _ => exact hfails.not_consistent (hdestinations _ hmem)

/-! ### What is made of it -/

/-- A blank value counts as absent, any other is kept as it stands. -/
inductive Kept : Option String → Option String → Prop
  | absent : Kept none none
  | blank {s} : Text.isVoid s = true → Kept (some s) none
  | given {s} : Text.isVoid s = false → Kept (some s) (some s)

inductive CredentialSpec.Names (c : CredentialSpec) : Credential.Source → Prop
  | environmentKeyFile : c.kind = .environmentKeyFile → Names c .environmentKeyFile
  | conventionalKeyFile {key} : c.kind = .conventionalKeyFile → c.key = some key →
      Text.isVoid key = false → Names c (.conventionalKeyFile key)
  | agentSocket : c.kind = .agentSocket → Names c .agentSocket
  | platformAgent : c.kind = .platformAgent → Names c .platformAgent

structure CredentialSpec.Makes (c : CredentialSpec) (p : Credential.Provider) : Prop where
  source : c.Names p.source
  given : ∀ b, c.continueOnSuccess = some b → p.continueOnSuccess = b
  unsaid : c.continueOnSuccess = none → p.continueOnSuccess = p.source.continues

inductive Offers : Option (List CredentialSpec) → Credential.Chain → Prop
  | standard : Offers none .standard
  | listed {specs providers} : List.Forall₂ CredentialSpec.Makes specs providers →
      Offers (some specs) ⟨providers⟩

structure RemoteSpec.Makes (name : String) (r : RemoteSpec) (remote : Remote) : Prop where
  name : remote.target.name = name
  host : remote.target.host = Text.trim r.host
  port : remote.target.port = r.port
  user : Kept r.user remote.target.user
  timeout : remote.target.connectTimeout = .ofMillis r.connectTimeout
  policy : remote.target.hostKeyPolicy = r.hostKeyPolicy
  credentials : Offers r.credentials remote.credentials

structure DestinationSpec.Makes (name : String) (d : DestinationSpec) (made : Destination) : Prop where
  name : made.name = name
  remote : made.remote = d.remote
  mode : made.mode = d.mode
  paths : made.paths = d.paths
  lock : made.lock = d.lock
  link : Kept d.linkName made.linkName

structure Spec.Makes (origin : Origin) (spec : Spec) (plan : Plan) : Prop where
  origin : plan.origin = origin
  remoteNames : plan.remotes.map (·.1) = spec.remotes.map (·.1)
  remotes : ∀ name r, (name, r) ∈ spec.remotes →
    ∃ remote, plan.remote? name = some remote ∧ r.Makes name remote
  destinationNames : plan.destinations.map (·.name) = spec.destinations.map (·.1)
  destinations : ∀ name d, (name, d) ∈ spec.destinations →
    ∃ made, plan.destination? name = some made ∧ d.Makes name made

/-! ### One entry at a time -/

theorem nonVoid_eq_some {value : Option String} {s : String} :
    nonVoid value = some s ↔ value = some s ∧ Text.isVoid s = false := by
  simp [nonVoid, Option.filter_eq_some_iff]

theorem Kept.not_void {written kept : Option String} {value : String} (h : Kept written kept)
    (hvalue : kept = some value) : Text.isVoid value = false := by
  cases h with
  | absent => cases hvalue
  | blank => cases hvalue
  | given hs =>
    cases hvalue
    exact hs

theorem kept_nonVoid (value : Option String) : Kept value (nonVoid value) := by
  cases value with
  | none => exact .absent
  | some s =>
    cases h : Text.isVoid s with
    | true =>
      rw [nonVoid, Option.filter_some, h]
      exact .blank h
    | false =>
      rw [nonVoid, Option.filter_some, h]
      exact .given h

theorem CredentialSpec.names_of_source? {c : CredentialSpec} {source : Credential.Source}
    (h : c.source? = some source) : c.Keyed ∧ c.Names source := by
  rw [source?] at h
  cases hkind : c.kind with
  | conventionalKeyFile =>
    rw [hkind] at h
    obtain ⟨key, hkey, rfl⟩ := Option.map_eq_some_iff.mp h
    obtain ⟨hkey, hvoid⟩ := nonVoid_eq_some.mp hkey
    exact ⟨fun _ => ⟨key, hkey, hvoid⟩, .conventionalKeyFile hkind hkey hvoid⟩
  | environmentKeyFile =>
    rw [hkind] at h
    cases h
    exact ⟨by simp [Keyed, hkind], .environmentKeyFile hkind⟩
  | agentSocket =>
    rw [hkind] at h
    cases h
    exact ⟨by simp [Keyed, hkind], .agentSocket hkind⟩
  | platformAgent =>
    rw [hkind] at h
    cases h
    exact ⟨by simp [Keyed, hkind], .platformAgent hkind⟩

theorem CredentialSpec.not_keyed_of_source? {c : CredentialSpec} (h : c.source? = none) :
    ¬ c.Keyed := by
  rw [source?] at h
  split at h
  · cases h
  · next hkind =>
    intro hkeyed
    obtain ⟨key, hkey⟩ := hkeyed hkind
    rw [nonVoid_eq_some.mpr hkey] at h
    cases h
  · cases h
  · cases h

theorem CredentialSpec.makes_of_provider {c : CredentialSpec} {remote : String}
    {p : Credential.Provider} (h : c.provider remote = .ok p) : c.Keyed ∧ c.Makes p := by
  rw [provider] at h
  split at h
  · next source hsource =>
    cases h
    obtain ⟨hkeyed, hnames⟩ := names_of_source? hsource
    exact ⟨hkeyed, hnames, fun b hb => by rw [hb]; rfl, fun hb => by rw [hb]; rfl⟩
  · cases h

theorem CredentialSpec.fails_of_provider {c : CredentialSpec} {remote : String} {flaw : Flaw}
    (h : c.provider remote = .error flaw) : ¬ c.Keyed ∧ flaw = .namelessKey remote := by
  rw [provider] at h
  split at h
  · cases h
  · next hsource =>
    cases h
    exact ⟨not_keyed_of_source? hsource, rfl⟩

theorem offers_of_chain {remote : String} {written : Option (List CredentialSpec)}
    {credentials : Credential.Chain} (h : chain remote written = .ok credentials) :
    written ≠ some [] ∧ (∀ specs, written = some specs → ∀ c ∈ specs, c.Keyed) ∧
      Offers written credentials := by
  cases written with
  | none =>
    cases h
    exact ⟨nofun, nofun, .standard⟩
  | some specs =>
    obtain ⟨providers, hproviders, h⟩ := ok_of_bind h
    obtain ⟨hkeyed, hmade⟩ := (List.forall₂_and_left _ _).mp
      ((forall₂_of_mapM hproviders).imp fun _ _ => CredentialSpec.makes_of_provider)
    split at h
    · cases h
    · next hne =>
      cases h
      refine ⟨?_, ?_, .listed hmade⟩
      · rintro ⟨⟩
        cases hmade
        exact hne rfl
      · rintro _ ⟨⟩
        exact hkeyed

theorem fails_of_chain {remote : String} {written : Option (List CredentialSpec)} {flaw : Flaw}
    (h : chain remote written = .error flaw) :
    (∃ specs c, written = some specs ∧ c ∈ specs ∧ ¬ c.Keyed ∧ flaw = .namelessKey remote) ∨
      written = some [] ∧ flaw = .noCredentials remote := by
  cases written with
  | none => cases h
  | some specs =>
    rcases error_of_bind h with h | ⟨providers, hproviders, h⟩
    · obtain ⟨before, c, after, rfl, -, hc⟩ := error_of_mapM h
      obtain ⟨hkeyed, rfl⟩ := CredentialSpec.fails_of_provider hc
      exact .inl ⟨_, c, rfl, by simp, hkeyed, rfl⟩
    · split at h
      · next hempty =>
        cases h
        rw [List.isEmpty_iff.mp hempty] at hproviders
        cases forall₂_of_mapM hproviders
        exact .inr ⟨rfl, rfl⟩
      · cases h

theorem RemoteSpec.makes_of_remote {r : RemoteSpec} {name : String} {remote : Remote}
    (h : r.remote name = .ok remote) : r.Consistent ∧ r.Makes name remote := by
  rw [RemoteSpec.remote] at h
  split at h
  · cases h
  · next hhost =>
    obtain ⟨credentials, hchain, h⟩ := ok_of_bind h
    cases h
    obtain ⟨hlisted, hkeyed, hoffers⟩ := offers_of_chain hchain
    exact ⟨⟨Bool.not_eq_true _ ▸ hhost, hlisted, hkeyed⟩,
      ⟨rfl, rfl, rfl, kept_nonVoid r.user, rfl, rfl, hoffers⟩⟩

theorem RemoteSpec.fails_of_remote {r : RemoteSpec} {name : String} {flaw : Flaw}
    (h : r.remote name = .error flaw) : r.Fails name flaw := by
  rw [RemoteSpec.remote] at h
  split at h
  · next hhost =>
    cases h
    exact .host hhost
  · next hhost =>
    rw [Bool.not_eq_true] at hhost
    rcases error_of_bind h with h | ⟨_, _, h⟩
    · rcases fails_of_chain h with ⟨specs, c, hspecs, hc, hkeyed, rfl⟩ | ⟨hempty, rfl⟩
      · exact .key hhost hspecs hc hkeyed
      · exact .unlisted hhost hempty
    · cases h

theorem LockSpec.consistent_of_flaw? {l : LockSpec} {destination : String}
    (h : l.flaw? destination = none) : l.Consistent := by
  rw [flaw?] at h
  split_ifs at h with hvague hendless
  rw [Bool.or_eq_true, not_or, Bool.not_eq_true, Bool.not_eq_true] at hvague
  refine ⟨hvague.1, hvague.2, ?_⟩
  cases hcheck : l.checkOnly with
  | true => exact .inl rfl
  | false =>
    have hminutes : l.minutes ≠ 0 := by simpa [hcheck] using hendless
    refine .inr (UInt32.le_iff_toNat_le.mpr (Nat.one_le_iff_ne_zero.mpr fun h => hminutes ?_))
    exact UInt32.toNat_inj.mp h

theorem LockSpec.fails_of_flaw? {l : LockSpec} {destination : String} {flaw : Flaw}
    (h : l.flaw? destination = some flaw) : l.Fails destination flaw := by
  rw [flaw?] at h
  split_ifs at h with hvague hendless
  · cases h
    exact .vague (Bool.or_eq_true _ _ ▸ hvague)
  · cases h
    rw [Bool.or_eq_true, not_or, Bool.not_eq_true, Bool.not_eq_true] at hvague
    simp only [Bool.and_eq_true, Bool.not_eq_true', decide_eq_true_eq] at hendless
    exact .endless hvague.1 hvague.2 hendless.1 hendless.2

section Destination

variable {knows : String → Bool} {remotes : List String} {d : DestinationSpec} {name : String}

theorem DestinationSpec.paths_iff :
    (d.paths.isEmpty || d.paths.any Text.isVoid) = true ↔
      d.paths = [] ∨ ∃ path ∈ d.paths, Text.isVoid path = true := by
  simp [List.any_eq_true]

theorem DestinationSpec.makes_of_destination (hknows : ∀ remote, knows remote = true ↔ remote ∈ remotes)
    {made : Destination} (h : d.destination knows name = .ok made) :
    d.Consistent remotes ∧ d.Makes name made := by
  rw [DestinationSpec.destination] at h
  split_ifs at h with hremote hpaths
  rw [Bool.not_eq_true', Bool.not_eq_false, hknows] at hremote
  rw [paths_iff, not_or, not_exists] at hpaths
  split at h
  · cases h
  · next hlock =>
    cases h
    refine ⟨⟨hremote, hpaths.1, fun path hpath => ?_, fun l hl => ?_⟩,
      ⟨rfl, rfl, rfl, rfl, rfl, kept_nonVoid d.linkName⟩⟩
    · simpa [hpath] using hpaths.2 path
    · rw [hl] at hlock
      exact LockSpec.consistent_of_flaw? hlock

theorem DestinationSpec.fails_of_destination (hknows : ∀ remote, knows remote = true ↔ remote ∈ remotes)
    {flaw : Flaw} (h : d.destination knows name = .error flaw) : d.Fails remotes name flaw := by
  rw [DestinationSpec.destination] at h
  split_ifs at h with hremote hpaths
  · cases h
    rw [Bool.not_eq_true', ← Bool.not_eq_true, hknows] at hremote
    exact .remote hremote
  · cases h
    rw [Bool.not_eq_true', Bool.not_eq_false, hknows] at hremote
    exact .paths hremote (paths_iff.mp hpaths)
  · rw [Bool.not_eq_true', Bool.not_eq_false, hknows] at hremote
    rw [paths_iff, not_or, not_exists] at hpaths
    split at h
    · next flaw' hlock =>
      cases h
      obtain ⟨l, hl, hflaw⟩ := Option.bind_eq_some_iff.mp hlock
      refine .lock hremote hpaths.1 (fun path hpath => ?_) hl (LockSpec.fails_of_flaw? hflaw)
      simpa [hpath] using hpaths.2 path
    · cases h

end Destination

/-! ### All entries -/

theorem find?_of_ascending {α : Type} (name : α → String) {entries : List α} {a : α}
    (h : (entries.map name).Pairwise (· < ·)) (ha : a ∈ entries) :
    entries.find? (name · == name a) = some a := by
  induction entries with
  | nil => cases ha
  | cons first rest ih =>
    obtain ⟨hfirst, hrest⟩ := List.pairwise_cons.mp h
    rcases List.mem_cons.mp ha with rfl | ha
    · rw [List.find?_cons_of_pos (by simp)]
    · have hne := (hfirst (name a) (List.mem_map_of_mem ha)).ne
      rw [List.find?_cons_of_neg (by simpa using hne)]
      exact ih hrest ha

theorem mem_before_of_lt {α : Type} {before after : List (String × α)} {entry other : String × α}
    (h : Toml.Ascending (before ++ entry :: after)) (hother : other ∈ before ++ entry :: after)
    (hlt : other.1 < entry.1) : other ∈ before := by
  rw [Toml.Ascending, List.map_append, List.map_cons, List.pairwise_append] at h
  obtain ⟨hafter, -⟩ := List.pairwise_cons.mp h.2.1
  rcases List.mem_append.mp hother with hother | hother
  · exact hother
  · rcases List.mem_cons.mp hother with rfl | hother
    · exact absurd hlt (lt_irrefl _)
    · exact absurd (hlt.trans (hafter other.1 (List.mem_map_of_mem hother))) (lt_irrefl _)

section Made

variable {origin : Origin} {spec : Spec} {plan : Plan} {flaw : Flaw}

def namedRemote (entry : String × RemoteSpec) : Except Flaw (String × Remote) := do
  return (entry.1, ← entry.2.remote entry.1)

theorem ok_of_namedRemote {entry : String × RemoteSpec} {made : String × Remote}
    (h : namedRemote entry = .ok made) : made.1 = entry.1 ∧ entry.2.remote entry.1 = .ok made.2 := by
  obtain ⟨remote, hremote, h⟩ := ok_of_bind h
  cases h
  exact ⟨rfl, hremote⟩

theorem fails_of_namedRemote {entry : String × RemoteSpec} (h : namedRemote entry = .error flaw) :
    entry.2.Fails entry.1 flaw := by
  rcases error_of_bind h with h | ⟨_, _, h⟩
  · exact RemoteSpec.fails_of_remote h
  · cases h

def destinationAmong (remotes : List (String × Remote)) (entry : String × DestinationSpec) :
    Except Flaw Destination :=
  entry.2.destination (fun remote => remotes.any (·.1 == remote)) entry.1

theorem plan_eq : spec.plan origin = (do
    let remotes ← spec.remotes.mapM namedRemote
    let destinations ← spec.destinations.mapM (destinationAmong remotes)
    return { origin, remotes, destinations }) := rfl

theorem names_of_remotes {remotes : List (String × Remote)}
    (h : spec.remotes.mapM namedRemote = .ok remotes) :
    spec.remoteNames = remotes.map (·.1) :=
  map_eq_map (forall₂_of_mapM h) fun _ _ _ _ hmade => (ok_of_namedRemote hmade).1.symm

theorem knows_iff {remotes : List (String × Remote)} (h : spec.remoteNames = remotes.map (·.1))
    (remote : String) : (remotes.any (·.1 == remote)) = true ↔ remote ∈ spec.remoteNames := by
  rw [h]
  simp

theorem consistent_of_remotes {remotes : List (String × Remote)}
    (h : spec.remotes.mapM namedRemote = .ok remotes) :
    ∀ entry ∈ spec.remotes, entry.2.Consistent := by
  intro entry hentry
  obtain ⟨made, -, hmade⟩ := exists_mem_zip (forall₂_of_mapM h) hentry
  exact (RemoteSpec.makes_of_remote (ok_of_namedRemote hmade).2).1

theorem makes_of_plan (hspec : spec.Mapped) (h : spec.plan origin = .ok plan) :
    spec.Consistent ∧ spec.Makes origin plan := by
  rw [plan_eq] at h
  obtain ⟨remotes, hremotes, h⟩ := ok_of_bind h
  obtain ⟨destinations, hdestinations, h⟩ := ok_of_bind h
  cases h
  have hnames := names_of_remotes hremotes
  have hknows := knows_iff hnames
  have hmade (entry : String × DestinationSpec) (made : Destination)
      (h : destinationAmong remotes entry = .ok made) :=
    DestinationSpec.makes_of_destination hknows h
  have hdestinationNames : spec.destinations.map (·.1) = destinations.map (·.name) :=
    map_eq_map (forall₂_of_mapM hdestinations) fun entry _ made _ h =>
      (hmade entry made h).2.name.symm
  refine ⟨⟨consistent_of_remotes hremotes, fun entry hentry => ?_⟩,
    ⟨rfl, hnames.symm, fun name r hr => ?_, hdestinationNames.symm, fun name d hd => ?_⟩⟩
  · obtain ⟨made, -, h⟩ := exists_mem_zip (forall₂_of_mapM hdestinations) hentry
    exact (hmade entry made h).1
  · obtain ⟨made, hmem, h⟩ := exists_mem_zip (forall₂_of_mapM hremotes) hr
    obtain ⟨hname, h⟩ := ok_of_namedRemote h
    have hfound := find?_of_ascending Prod.fst (hnames ▸ hspec.remotes) (List.of_mem_zip hmem).2
    rw [hname] at hfound
    exact ⟨made.2, by rw [remote?, hfound]; rfl, (RemoteSpec.makes_of_remote h).2⟩
  · obtain ⟨made, hmem, h⟩ := exists_mem_zip (forall₂_of_mapM hdestinations) hd
    have hmakes := (hmade (name, d) made h).2
    have hfound := find?_of_ascending Destination.name
      (hdestinationNames ▸ hspec.destinations) (List.of_mem_zip hmem).2
    rw [hmakes.name] at hfound
    exact ⟨made, hfound, hmakes⟩

theorem fails_of_plan (hspec : spec.Mapped) (h : spec.plan origin = .error flaw) :
    spec.Fails flaw := by
  rw [plan_eq] at h
  rcases error_of_bind h with h | ⟨remotes, hremotes, h⟩
  · obtain ⟨before, entry, after, hentries, hbefore, hentry⟩ := error_of_mapM h
    -- the remotes before it by name stand before it in the list, where they went through
    refine .remote (r := entry.2) (by simp [hentries]) (fails_of_namedRemote hentry) ?_
    intro other hother hlt
    have hascending := hspec.remotes
    rw [hentries] at hother hascending
    obtain ⟨made, hmade⟩ := hbefore other (mem_before_of_lt hascending hother hlt)
    exact (RemoteSpec.makes_of_remote (ok_of_namedRemote hmade).2).1
  · have hknows := knows_iff (names_of_remotes hremotes)
    rcases error_of_bind h with h | ⟨_, _, h⟩
    · obtain ⟨before, entry, after, hentries, hbefore, hentry⟩ := error_of_mapM h
      refine .destination (d := entry.2) (consistent_of_remotes hremotes) (by simp [hentries])
        (DestinationSpec.fails_of_destination hknows hentry) ?_
      intro other hother hlt
      have hascending := hspec.destinations
      rw [hentries] at hother hascending
      obtain ⟨made, hmade⟩ := hbefore other (mem_before_of_lt hascending hother hlt)
      exact (DestinationSpec.makes_of_destination hknows hmade).1
    · cases h

theorem consistent_iff (hspec : spec.Mapped) :
    (∃ plan, spec.plan origin = .ok plan) ↔ spec.Consistent := by
  constructor
  · rintro ⟨plan, h⟩
    exact (makes_of_plan hspec h).1
  · intro h
    cases hplan : spec.plan origin with
    | ok plan => exact ⟨plan, rfl⟩
    | error flaw => exact absurd h (fails_of_plan hspec hplan).not_consistent

end Made

/-! ### Plans in documents -/

theorem mapped_of_run {text : String} {written : Spec} (h : spec.run text = .ok written) :
    written.Mapped := by
  rw [Toml.Reader.run] at h
  split at h
  · next entries hentries =>
    have hordered := Toml.ordered_of_document hentries
    obtain ⟨read, hread, h⟩ := ok_of_bind (ok_of_mapError h)
    cases h
    have hblank : Spec.Mapped {} := ⟨.nil, .nil⟩
    refine keeps_of_foldlM (fun acc entry next hentry hacc hnext => ?_) hblank hread
    have hvalue := hordered.inner entry hentry
    rw [Toml.Reader.readEntry] at hnext
    split at hnext
    · next field hfield =>
      rcases List.mem_cons.mp (List.mem_of_find?_eq_some hfield) with rfl | hfield
      · obtain ⟨remotes, hremotes, rfl⟩ := ok_of_map hnext
        exact ⟨Toml.ascending_of_named hvalue hremotes, hacc.destinations⟩
      · rw [List.mem_singleton.mp hfield] at hnext
        obtain ⟨destinations, hdestinations, rfl⟩ := ok_of_map hnext
        exact ⟨hacc.remotes, Toml.ascending_of_named hvalue hdestinations⟩
    · cases hnext
  · cases h

theorem parse_of_run {origin : Origin} {text : String} {written : Spec}
    (h : spec.run text = .ok written) :
    parse origin text = (written.plan origin).mapError (.invalid origin) := by
  rw [parse, h]
  rfl

/-- A written plan is made into a plan exactly when it is consistent; the plan has what is written
under every name, and otherwise the flaw that comes first is reported. -/
theorem plan_settles (origin : Origin) (written : Spec) (hwritten : written.Mapped) :
    ((∃ plan, written.plan origin = .ok plan) ↔ written.Consistent) ∧
      (∀ plan, written.plan origin = .ok plan → written.Makes origin plan) ∧
      (∀ flaw, written.plan origin = .error flaw → written.Fails flaw) ∧
      ∀ text, spec.run text = .ok written →
        parse origin text = (written.plan origin).mapError (.invalid origin) :=
  ⟨consistent_iff hwritten, fun _ h => (makes_of_plan hwritten h).2,
    fun _ h => fails_of_plan hwritten h, fun _ h => parse_of_run h⟩

def hostless : Spec where
  remotes :=
    [("alpha", { host := "alpha.example.net" }), ("beta", { host := " \t" }), ("gamma", { host := "" })]
  destinations := [("dev1", { remote := "delta", mode := .overwrite, paths := [] })]

theorem plan_settles_of_hostless :
    hostless.Mapped ∧ ¬ hostless.Consistent ∧ hostless.Fails (.emptyHost "beta") := by
  have hmapped : hostless.Mapped := ⟨by unfold Toml.Ascending; decide, by unfold Toml.Ascending; decide⟩
  obtain ⟨hiff, -, hfails, -⟩ := plan_settles .standard hostless hmapped
  have hplan : hostless.plan .standard = .error (.emptyHost "beta") := by rfl
  refine ⟨hmapped, fun h => ?_, hfails _ hplan⟩
  obtain ⟨plan, hmade⟩ := hiff.mpr h
  rw [hplan] at hmade
  cases hmade

/-! ### Plans at rest -/

/-- What later stages rely on in a plan. -/
structure Coherent (plan : Plan) : Prop where
  ascending : (plan.destinations.map (·.name)).Pairwise (· < ·)
  hosted : ∀ d ∈ plan.destinations, ∃ remote, plan.remote? d.remote = some remote
  somewhere : ∀ d ∈ plan.destinations, d.paths ≠ []
  paths : ∀ d ∈ plan.destinations, ∀ path ∈ d.paths, Text.isVoid path = false
  locks : ∀ d ∈ plan.destinations, ∀ l, d.lock = some l → l.Consistent
  links : ∀ d ∈ plan.destinations, ∀ link, d.linkName = some link → Text.isVoid link = false

theorem Coherent.destination?_eq_some {plan : Plan} (h : plan.Coherent) {name : String}
    {d : Destination} : plan.destination? name = some d ↔ d ∈ plan.destinations ∧ d.name = name := by
  constructor
  · intro hd
    exact ⟨List.mem_of_find?_eq_some hd, by simpa using List.find?_some hd⟩
  · rintro ⟨hd, rfl⟩
    exact find?_of_ascending Destination.name h.ascending hd

theorem Spec.Makes.coherent {origin : Origin} {written : Spec} {plan : Plan}
    (h : written.Makes origin plan) (hwritten : written.Mapped) (hc : written.Consistent) :
    plan.Coherent := by
  have hascending : (plan.destinations.map (·.name)).Pairwise (· < ·) := by
    rw [h.destinationNames]
    exact hwritten.destinations
  have hsource (d : Destination) (hd : d ∈ plan.destinations) :
      ∃ w : DestinationSpec, w.Consistent written.remoteNames ∧ w.Makes d.name d := by
    have hname : d.name ∈ written.destinations.map (·.1) :=
      h.destinationNames ▸ List.mem_map_of_mem hd
    obtain ⟨⟨name, w⟩, hw, hname⟩ := List.mem_map.mp hname
    obtain ⟨made, hmade, hmakes⟩ := h.destinations name w hw
    have hfound := find?_of_ascending Destination.name hascending hd
    rw [← hname] at hfound ⊢
    obtain rfl : made = d := Option.some.inj (hmade.symm.trans hfound)
    exact ⟨w, hc.destinations _ hw, hmakes⟩
  refine ⟨hascending, fun d hd => ?_, fun d hd => ?_, fun d hd => ?_, fun d hd => ?_,
    fun d hd link hlink => ?_⟩
  · obtain ⟨w, hw, hmakes⟩ := hsource d hd
    obtain ⟨⟨name, r⟩, hr, hname⟩ := List.mem_map.mp hw.remote
    obtain ⟨remote, hremote, -⟩ := h.remotes name r hr
    exact ⟨remote, by rw [hmakes.remote, ← hname]; exact hremote⟩
  · obtain ⟨w, hw, hmakes⟩ := hsource d hd
    exact hmakes.paths ▸ hw.somewhere
  · obtain ⟨w, hw, hmakes⟩ := hsource d hd
    exact hmakes.paths ▸ hw.paths
  · obtain ⟨w, hw, hmakes⟩ := hsource d hd
    exact hmakes.lock ▸ hw.lock
  · obtain ⟨w, -, hmakes⟩ := hsource d hd
    exact hmakes.link.not_void hlink

/-- A plan that was made from a written one, however that was read. -/
def Accepted (plan : Plan) : Prop :=
  ∃ (origin : Origin) (written : Spec), written.Mapped ∧ written.plan origin = .ok plan

theorem Accepted.coherent {plan : Plan} (h : plan.Accepted) : plan.Coherent := by
  obtain ⟨origin, written, hmapped, hplan⟩ := h
  obtain ⟨hconsistent, hmakes⟩ := makes_of_plan hmapped hplan
  exact hmakes.coherent hmapped hconsistent

theorem accepted_of_parse {origin : Origin} {text : String} {plan : Plan}
    (h : parse origin text = .ok plan) : plan.Accepted := by
  obtain ⟨written, hwritten, hplan⟩ := ok_of_bind h
  exact ⟨origin, written, mapped_of_run (ok_of_mapError hwritten), ok_of_mapError hplan⟩

end Rollout.Plan
