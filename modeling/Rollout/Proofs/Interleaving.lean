import Rollout.Proofs.Program

/-!
Programs side by side. Before each move the world says who makes it, and what is done by many
workers is a weaving of what each of them does: any weaving, for the world may ask for every one.
-/

namespace Rollout

/-- The third list holds the elements of the first two, those of each in their order. -/
inductive Weave {ε : Type} : List ε → List ε → List ε → Prop
  | nil : Weave [] [] []
  | first {x s t u} : Weave s t u → Weave (x :: s) t (x :: u)
  | second {x s t u} : Weave s t u → Weave s (x :: t) (x :: u)

inductive Weaves {ε : Type} : List (List ε) → List ε → Prop
  | nil : Weaves [] []
  | cons {t ts u v} : Weaves ts u → Weave t u v → Weaves (t :: ts) v

namespace Weave

variable {ε : Type} {s t u : List ε}

theorem swap (h : Weave s t u) : Weave t s u := by
  induction h with
  | nil => exact .nil
  | first _ ih => exact .second ih
  | second _ ih => exact .first ih

@[simp] theorem nil_left_iff : Weave [] t u ↔ u = t := by
  constructor
  · intro h
    induction t generalizing u with
    | nil => cases h; rfl
    | cons x t ih => cases h with | second h => rw [ih h]
  · rintro rfl
    induction u with
    | nil => exact .nil
    | cons x u ih => exact .second ih

@[simp] theorem nil_right_iff : Weave s [] u ↔ u = s :=
  ⟨fun h => nil_left_iff.mp h.swap, fun h => (nil_left_iff.mpr h).swap⟩

theorem append_first (h : Weave s t u) (l : List ε) : Weave (l ++ s) t (l ++ u) := by
  induction l with
  | nil => exact h
  | cons x l ih => exact ih.first

theorem append_second (h : Weave s t u) (l : List ε) : Weave s (l ++ t) (l ++ u) :=
  (h.swap.append_first l).swap

theorem mem_iff (h : Weave s t u) {x : ε} : x ∈ u ↔ x ∈ s ∨ x ∈ t := by
  induction h with
  | nil => simp
  | first _ ih => simp only [List.mem_cons, ih, or_assoc]
  | second _ ih => simp only [List.mem_cons, ih, or_left_comm]

theorem filterMap {δ : Type} (h : Weave s t u) (f : ε → Option δ) :
    Weave (s.filterMap f) (t.filterMap f) (u.filterMap f) := by
  induction h with
  | nil => exact .nil
  | @first x _ _ _ _ ih =>
    cases hx : f x with
    | some y => simpa [hx] using ih.first
    | none => simpa [hx] using ih
  | @second x _ _ _ _ ih =>
    cases hx : f x with
    | some y => simpa [hx] using ih.second
    | none => simpa [hx] using ih

end Weave

namespace Weaves

variable {ε : Type} {ts : List (List ε)} {u : List ε}

theorem mem_iff (h : Weaves ts u) {x : ε} : x ∈ u ↔ ∃ t ∈ ts, x ∈ t := by
  induction h with
  | nil => simp
  | cons _ hw ih => simp [hw.mem_iff, ih]

theorem filterMap {δ : Type} (h : Weaves ts u) (f : ε → Option δ) :
    Weaves (ts.map (·.filterMap f)) (u.filterMap f) := by
  induction h with
  | nil => exact .nil
  | cons _ hw ih => exact .cons ih (hw.filterMap f)

theorem eq_of_single {κ : Type} [DecidableEq κ] {keys : List κ} {key : κ} {l : List ε}
    (hkeys : keys.Nodup) (h : Weaves (keys.map fun k => if k = key then l else []) u) :
    u = if key ∈ keys then l else [] := by
  induction keys generalizing u with
  | nil =>
    cases h
    rfl
  | cons k keys ih =>
    obtain ⟨hk, hrest⟩ := List.nodup_cons.mp hkeys
    obtain _ | ⟨h, hw⟩ := h
    rw [ih hrest h] at hw
    by_cases hkey : k = key
    · subst hkey
      simpa [hk] using hw
    · simpa [hkey, Ne.symm hkey] using hw

end Weaves

variable {ι α β : Type}

namespace Program

def attempt : Program ι α → Program ι (Option α)
  | .done a => .done (some a)
  | .stop => .done none
  | .ask a next => .ask a fun r => (next r).attempt

def map (f : α → β) : Program ι α → Program ι β
  | .done a => .done (f a)
  | .stop => .stop
  | .ask a next => .ask a fun r => (next r).map f

def besideAsk (a : Ask ι) (next : a.Reply → Program ι α)
    (rest : a.Reply → Program ι β → Program ι (Option α × Option β)) :
    Program ι β → Program ι (Option α × Option β)
  | .done b => (ask a next).attempt.map (·, some b)
  | .stop => (ask a next).attempt.map (·, none)
  | .ask b next' => .ask .turn fun
    | true => .ask a fun r => rest r (.ask b next')
    | false => .ask b fun r => besideAsk a next rest (next' r)

/-- Two programs side by side; while both have something to ask, the world takes turns with them. -/
def beside : Program ι α → Program ι β → Program ι (Option α × Option β)
  | .done a => fun q => q.attempt.map (some a, ·)
  | .stop => fun q => q.attempt.map (none, ·)
  | .ask a next => besideAsk a next fun r => (next r).beside

def gather : List (Program ι α) → Program ι (List (Option α))
  | [] => .done []
  | p :: rest => (p.beside (gather rest)).map fun (o, os) => o :: os.getD []

instance : Stage (Program ι) where
  note e := .ask (.note e) .done
  gather := gather

theorem does_note_bind {e : Event} {f : Unit → Program ι β} {cs : List (Exchange ι)} {o : Option β} :
    ((Stage.note e : Program ι Unit) >>= f).Does cs o ↔ (f ()).Does cs o := by
  change (ask (.note e) f).Does cs o ↔ _
  rw [does_ask]
  constructor
  · rintro ⟨⟨⟩, _, rfl, h⟩
    exact h
  · intro h
    exact ⟨(), cs, rfl, h⟩

theorem does_attempt_map {p : Program ι α} {f : Option α → β} {cs : List (Exchange ι)}
    {o : Option β} : (p.attempt.map f).Does cs o ↔ ∃ r, p.Does cs r ∧ o = some (f r) := by
  induction p generalizing cs with
  | done a => simp [attempt, map]
  | stop => simp [attempt, map]
  | ask a next ih =>
    simp only [attempt, map, does_ask, ih]
    constructor
    · rintro ⟨r, s, rfl, x, hp, rfl⟩
      exact ⟨x, ⟨r, s, rfl, hp⟩, rfl⟩
    · rintro ⟨x, ⟨r, s, rfl, hp⟩, rfl⟩
      exact ⟨r, s, rfl, x, hp, rfl⟩

theorem does_map {p : Program ι α} {f : α → β} {cs : List (Exchange ι)} {o : Option β} :
    (p.map f).Does cs o ↔ ∃ r, p.Does cs r ∧ o = r.map f := by
  induction p generalizing cs with
  | done a => simp [map]
  | stop => simp [map]
  | ask a next ih =>
    simp only [map, does_ask, ih]
    constructor
    · rintro ⟨r, s, rfl, x, hp, rfl⟩
      exact ⟨x, ⟨r, s, rfl, hp⟩, rfl⟩
    · rintro ⟨x, ⟨r, s, rfl, hp⟩, rfl⟩
      exact ⟨r, s, rfl, x, hp, rfl⟩

theorem beside_done (p : Program ι α) (b : β) :
    p.beside (done b) = p.attempt.map (·, some b) := by
  cases p <;> rfl

theorem beside_stop (p : Program ι α) :
    p.beside (stop : Program ι β) = p.attempt.map (·, none) := by
  cases p <;> rfl

theorem does_beside_ask {a b : Ask ι} {next : a.Reply → Program ι α}
    {next' : b.Reply → Program ι β} {cs : List (Exchange ι)} {o : Option (Option α × Option β)} :
    ((ask a next).beside (ask b next')).Does cs o ↔
      (ask a fun r => (next r).beside (ask b next')).Does cs o ∨
        (ask b fun r => (ask a next).beside (next' r)).Does cs o := by
  simp only [beside]
  rw [besideAsk, does_ask]
  constructor
  · rintro ⟨_ | _, _, rfl, h⟩
    · exact .inr h
    · exact .inl h
  · rintro (h | h)
    · exact ⟨true, cs, rfl, h⟩
    · exact ⟨false, cs, rfl, h⟩

theorem weave_of_does_beside {p : Program ι α} {q : Program ι β} {cs : List (Exchange ι)}
    {o : Option (Option α × Option β)} (h : (p.beside q).Does cs o) :
    ∃ s u x y, p.Does s x ∧ q.Does u y ∧ Weave s u cs ∧ o = some (x, y) := by
  induction p generalizing q cs with
  | done a =>
    obtain ⟨y, hq, rfl⟩ := does_attempt_map.mp h
    exact ⟨[], cs, some a, y, does_done.mpr ⟨rfl, rfl⟩, hq, by simp, rfl⟩
  | stop =>
    obtain ⟨y, hq, rfl⟩ := does_attempt_map.mp h
    exact ⟨[], cs, none, y, does_stop.mpr ⟨rfl, rfl⟩, hq, by simp, rfl⟩
  | ask a next ihp =>
    induction q generalizing cs with
    | done b =>
      rw [beside_done] at h
      obtain ⟨x, hp, rfl⟩ := does_attempt_map.mp h
      exact ⟨cs, [], x, some b, hp, does_done.mpr ⟨rfl, rfl⟩, by simp, rfl⟩
    | stop =>
      rw [beside_stop] at h
      obtain ⟨x, hp, rfl⟩ := does_attempt_map.mp h
      exact ⟨cs, [], x, none, hp, does_stop.mpr ⟨rfl, rfl⟩, by simp, rfl⟩
    | ask b next' ihq =>
      obtain hd | hd := does_beside_ask.mp h
      · obtain ⟨r, _, rfl, hr⟩ := does_ask.mp hd
        obtain ⟨s, u, x, y, hp, hq, hw, rfl⟩ := ihp r hr
        exact ⟨_, u, x, y, does_ask.mpr ⟨r, s, rfl, hp⟩, hq, hw.append_first _, rfl⟩
      · obtain ⟨r, _, rfl, hr⟩ := does_ask.mp hd
        obtain ⟨s, u, x, y, hp, hq, hw, rfl⟩ := ihq r hr
        exact ⟨s, _, x, y, hp, does_ask.mpr ⟨r, u, rfl, hq⟩, hw.append_second _, rfl⟩

theorem does_beside_of_weave {p : Program ι α} {q : Program ι β} {s u cs : List (Exchange ι)}
    {x : Option α} {y : Option β} (hp : p.Does s x) (hq : q.Does u y) (hw : Weave s u cs) :
    (p.beside q).Does cs (some (x, y)) := by
  induction p generalizing q s u cs with
  | done a =>
    obtain ⟨rfl, rfl⟩ := does_done.mp hp
    obtain rfl := Weave.nil_left_iff.mp hw
    exact does_attempt_map.mpr ⟨y, hq, rfl⟩
  | stop =>
    obtain ⟨rfl, rfl⟩ := does_stop.mp hp
    obtain rfl := Weave.nil_left_iff.mp hw
    exact does_attempt_map.mpr ⟨y, hq, rfl⟩
  | ask a next ihp =>
    induction q generalizing u cs with
    | done b =>
      obtain ⟨rfl, rfl⟩ := does_done.mp hq
      obtain rfl := Weave.nil_right_iff.mp hw
      exact beside_done (ask a next) b ▸ does_attempt_map.mpr ⟨x, hp, rfl⟩
    | stop =>
      obtain ⟨rfl, rfl⟩ := does_stop.mp hq
      obtain rfl := Weave.nil_right_iff.mp hw
      exact beside_stop (ask a next) ▸ does_attempt_map.mpr ⟨x, hp, rfl⟩
    | ask b next' ihq =>
      obtain ⟨r, s, rfl, hp'⟩ := does_ask.mp hp
      obtain ⟨r', u, rfl, hq'⟩ := does_ask.mp hq
      have first {v} (hv : Weave s (calls [⟨b, r'⟩] ++ u) v) :
          ((ask a next).beside (ask b next')).Does (calls [⟨a, r⟩] ++ v) (some (x, y)) :=
        does_beside_ask.mpr (.inl (does_ask.mpr ⟨r, v, rfl, ihp r hp' hq hv⟩))
      have second {v} (hv : Weave (calls [⟨a, r⟩] ++ s) u v) :
          ((ask a next).beside (ask b next')).Does (calls [⟨b, r'⟩] ++ v) (some (x, y)) :=
        does_beside_ask.mpr (.inr (does_ask.mpr ⟨r', v, rfl, ihq r' hq' hv⟩))
      -- what is no call may come first; otherwise the weaving says which call does
      cases ha : a.isCall with
      | false =>
        have hnil : calls [(⟨a, r⟩ : Exchange ι)] = [] := by simp [calls_cons, ha]
        simp only [hnil, List.nil_append] at hw first
        exact first hw
      | true =>
        cases hb : b.isCall with
        | false =>
          have hnil : calls [(⟨b, r'⟩ : Exchange ι)] = [] := by simp [calls_cons, hb]
          simp only [hnil, List.nil_append] at hw second
          exact second hw
        | true =>
          simp only [calls_cons, ha, hb, calls_nil, if_true, List.cons_append, List.nil_append]
            at hw first second
          cases hw with
          | first hw => exact first hw
          | second hw => exact second hw

theorem does_beside {p : Program ι α} {q : Program ι β} {cs : List (Exchange ι)}
    {o : Option (Option α × Option β)} :
    (p.beside q).Does cs o ↔
      ∃ s u x y, p.Does s x ∧ q.Does u y ∧ Weave s u cs ∧ o = some (x, y) := by
  constructor
  · exact weave_of_does_beside
  · rintro ⟨s, u, x, y, hp, hq, hw, rfl⟩
    exact does_beside_of_weave hp hq hw

theorem does_gather {ps : List (Program ι α)} {cs : List (Exchange ι)}
    {o : Option (List (Option α))} :
    (gather ps).Does cs o ↔ ∃ rs : List (List (Exchange ι) × Option α),
      List.Forall₂ (fun p r => p.Does r.1 r.2) ps rs ∧ Weaves (rs.map (·.1)) cs ∧
        o = some (rs.map (·.2)) := by
  induction ps generalizing cs o with
  | nil =>
    rw [gather, does_done]
    constructor
    · rintro ⟨rfl, rfl⟩
      exact ⟨[], .nil, .nil, rfl⟩
    · rintro ⟨_, ⟨⟩, ⟨⟩, rfl⟩
      exact ⟨rfl, rfl⟩
  | cons p ps ih =>
    simp only [gather, does_map, does_beside]
    constructor
    · rintro ⟨_, ⟨s, u, x, y, hp, hq, hw, rfl⟩, rfl⟩
      obtain ⟨rs, hrs, hws, rfl⟩ := ih.mp hq
      exact ⟨(s, x) :: rs, .cons hp hrs, .cons hws hw, rfl⟩
    · rintro ⟨_, _ | ⟨hp, hrs⟩, _ | ⟨hws, hw⟩, rfl⟩
      exact ⟨_, ⟨_, _, _, _, hp, ih.mpr ⟨_, hrs, hws, rfl⟩, hw, rfl⟩, rfl⟩

end Program

end Rollout
