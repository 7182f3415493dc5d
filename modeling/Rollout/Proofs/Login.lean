import Mathlib.Data.List.Find
import Rollout.Proofs.First
import Rollout.Proofs.Mode

/-!
Logging in. What a peer lets in goes by keys: a key file is unlocked to one, and an agent holds some.
The keys of all identities are offered one after the other, and the first that is admitted is the last
that is offered.
-/

namespace Rollout

namespace Ssh

/-- Who is let in by a peer, and with what. -/
structure Door (κ : Type) where
  unlock : Path → (passphrase : Option String) → Option κ
  agent : Option (List Handle)
  held : Handle → Option κ
  admits : (user : String) → κ → Bool

namespace Door

variable {κ : Type} (d : Door κ)

def key : Call → Option κ
  | .offerKeyFile _ _ path passphrase => d.unlock path passphrase
  | .offerAgentKey _ _ key => d.held key
  | _ => none

def lets : Call → Bool
  | .offerKeyFile _ user path passphrase => (d.unlock path passphrase).any (d.admits user)
  | .offerAgentKey _ user key => (d.held key).any (d.admits user)
  | _ => false

def keys : Identity → List κ
  | .keyFile path passphrase => (d.unlock path passphrase).toList
  | .agentSocket _ | .platformAgent => (d.agent.getD []).filterMap d.held

def tries (session : Handle) (user : String) : Identity → List Call
  | .keyFile path passphrase => [.offerKeyFile session user path passphrase]
  | .agentSocket _ | .platformAgent =>
    .agentKeys session :: (d.agent.getD []).map (.offerAgentKey session user)

theorem filterMap_key_tries (session : Handle) (user : String) (i : Identity) :
    (d.tries session user i).filterMap d.key = d.keys i := by
  have hagent (ks : List Handle) :
      (Call.agentKeys session :: ks.map (.offerAgentKey session user)).filterMap d.key =
        ks.filterMap d.held := by
    rw [List.filterMap_cons_none rfl, List.filterMap_map]
    rfl
  cases i with
  | keyFile path passphrase => cases h : d.unlock path passphrase <;> simp [tries, key, keys, h]
  | agentSocket path => exact hagent _
  | platformAgent => exact hagent _

theorem lets_of_mem_tries {session : Handle} {user : String} {i : Identity} {c : Call}
    (h : c ∈ d.tries session user i) : d.lets c = (d.key c).any (d.admits user) := by
  have hagent (ks : List Handle)
      (h : c ∈ Call.agentKeys session :: ks.map (.offerAgentKey session user)) :
      d.lets c = (d.key c).any (d.admits user) := by
    obtain rfl | h := List.mem_cons.mp h
    · rfl
    · obtain ⟨k, -, rfl⟩ := List.mem_map.mp h
      rfl
  cases i with
  | keyFile path passphrase =>
    obtain rfl := List.mem_singleton.mp h
    rfl
  | agentSocket path => exact hagent _ h
  | platformAgent => exact hagent _ h

theorem exists_key_of_lets {c : Call} (h : d.lets c) : ∃ k, d.key c = some k := by
  cases c <;> first
    | cases h
    | exact Option.isSome_iff_exists.mp (Option.isSome_of_any h)

section Identities

variable (session : Handle) (user : String) (rs : List Credential.Resolved)

theorem find?_keys :
    (rs.flatMap fun r => d.keys r.identity).find? (d.admits user) =
      ((rs.flatMap fun r => d.tries session user r.identity).find? d.lets).bind d.key := by
  have hlets : ∀ c ∈ rs.flatMap fun r => d.tries session user r.identity,
      d.lets c = (d.key c).any (d.admits user) := by
    intro c hc
    obtain ⟨r, -, hr⟩ := List.mem_flatMap.mp hc
    exact d.lets_of_mem_tries hr
  rw [List.find?_congr hlets, ← List.find?_filterMap, List.filterMap_flatMap]
  simp only [filterMap_key_tries]

theorem map_key_find? :
    ((rs.flatMap fun r => d.tries session user r.identity).find? d.lets).map d.key =
      ((rs.flatMap fun r => d.keys r.identity).find? (d.admits user)).map some := by
  rw [find?_keys d session]
  cases h : (rs.flatMap fun r => d.tries session user r.identity).find? d.lets with
  | none => rfl
  | some c =>
    obtain ⟨k, hk⟩ := d.exists_key_of_lets (List.find?_some h)
    simp [hk]

theorem any_lets :
    (rs.flatMap fun r => d.tries session user r.identity).any d.lets =
      ((rs.flatMap fun r => d.keys r.identity).find? (d.admits user)).isSome := by
  have h := congrArg Option.isSome (d.map_key_find? session user rs)
  rwa [Option.isSome_map, Option.isSome_map, List.isSome_find?] at h

end Identities

end Door

def Call.isTry : Call → Bool
  | .offerKeyFile .. | .agentKeys _ | .offerAgentKey .. => true
  | _ => false

def Answered.accepted : Answered → Bool
  | ⟨.offerKeyFile .., reply⟩ => reply.isOk
  | ⟨.offerAgentKey .., reply⟩ => reply.isOk
  | _ => false

/-- A peer that lets in whoever offers a key that is admitted, and nobody else. -/
class Doorkeeper (σ : Type) (κ : outParam Type) [Peer σ] where
  door : σ → Door κ
  isIn : Handle → σ → Bool
  door_answer : ∀ {s c w}, Call.LogsIn s c → door (Peer.answer c w).2 = door w
  isIn_answer : ∀ {s c w}, Call.LogsIn s c →
    isIn s (Peer.answer c w).2 = (isIn s w || (door w).lets c)
  accepted_answer : ∀ c w, Answered.accepted ⟨c, (Peer.answer c w).1⟩ = (door w).lets c
  answer_agentKeys : ∀ s w, (Peer.answer (.agentKeys s) w).1.toOption = (door w).agent
  answer_isAuthenticated : ∀ s w, (Peer.answer (.isAuthenticated s) w).1 = isIn s w

theorem bind_apply {σ α β : Type} (p : StateM σ α) (f : α → StateM σ β) (w : σ) :
    (p >>= f) w = f (p w).1 (p w).2 := rfl

theorem ask_of_answer {σ : Type} [Peer σ] {c : Call} {w v : σ} {reply : c.Reply} (log : List Answered)
    (h : Peer.answer c w = (reply, v)) :
    ask c (Recorded.mk w log) = (reply, ⟨v, log ++ [⟨c, reply⟩]⟩) := by
  change ((Peer.answer c w).1, Recorded.mk (Peer.answer c w).2 (log ++ [⟨c, (Peer.answer c w).1⟩])) = _
  rw [h]

theorem Operation.pure_apply {σ α : Type} (a : α) (w : σ) :
    (pure a : Operation σ α) w = (.ok a, w) := rfl

end Ssh

namespace Rehearsal.Host

open Ssh

def door (h : Host) : Door Bytes where
  unlock path passphrase :=
    if hasNul path.text || passphrase.any hasNul then none else (h.unlock path passphrase).toOption
  agent := h.agentKeys.toOption.map fun keys => List.range keys.length
  held key := h.site.agent.bind fun agent => agent.keys[key]?
  admits user key := !hasNul user && (h.site.users.isEmpty || h.site.users.contains user) &&
    (h.site.authorized.find? (·.publicPart == key)).isSome

inductive Offered (h : Host) (session : Handle) (user : String) :
    Option Bytes → Except Fault Unit × Host → Prop
  | refused {key fault} : hasNul user ∨ key = none → Offered h session user key (.error fault, h)
  | shown {key} : hasNul user = false → Offered h session user (some key) (h.letIn session user key)

variable {h : Host} {session : Handle} {user : String}

theorem offered_keyFile (path : Path) (passphrase : Option String) :
    Offered h session user (h.door.unlock path passphrase)
      (h.offerKeyFile session user path passphrase) := by
  rw [offerKeyFile]
  cases huser : hasNul user with
  | true => exact .refused (.inl huser)
  | false =>
    cases hpath : hasNul path.text with
    | true => exact .refused (.inr (by simp [door, hpath]))
    | false =>
      cases hpass : passphrase.any hasNul with
      | true => exact .refused (.inr (by simp [door, hpass]))
      | false =>
        cases hkey : h.unlock path passphrase with
        | error fault => exact .refused (.inr (by simp [door, hkey, Except.toOption]))
        | ok key =>
          have hunlock : h.door.unlock path passphrase = some key := by
            simp [door, hpath, hpass, hkey, Except.toOption]
          rw [hunlock]
          exact .shown huser

theorem offered_agentKey (key : Handle) :
    Offered h session user (h.door.held key) (h.offerAgentKey session user key) := by
  rw [offerAgentKey]
  cases huser : hasNul user with
  | true => exact .refused (.inl huser)
  | false =>
    cases hkey : h.site.agent.bind fun agent => agent.keys[key]? with
    | none => exact .refused (.inr hkey)
    | some shown =>
      have hheld : h.door.held key = some shown := hkey
      rw [hheld]
      exact .shown huser

theorem Offered.settles {key : Option Bytes} {result : Except Fault Unit × Host}
    (ho : Offered h session user key result) :
    result.2.door = h.door ∧ result.1.isOk = key.any (h.door.admits user) ∧
      result.2.admitted.contains session =
        (h.admitted.contains session || key.any (h.door.admits user)) := by
  cases ho with
  | refused hno =>
    have hany : key.any (h.door.admits user) = false := by
      obtain huser | rfl := hno
      · cases key <;> simp [door, huser]
      · rfl
    simp [hany, Except.isOk, Except.toBool]
  | @shown key huser =>
    have hadmits : h.door.admits user key = ((h.site.users.isEmpty || h.site.users.contains user) &&
        (h.site.authorized.find? (·.publicPart == key)).isSome) := by
      simp [door, huser]
    rw [letIn, Option.any_some, hadmits]
    cases h.site.authorized.find? (·.publicPart == key) with
    | none => simp [Except.isOk, Except.toBool]
    | some known =>
      cases h.site.users.isEmpty || h.site.users.contains user with
      | false => simp [Except.isOk, Except.toBool]
      | true => exact ⟨rfl, rfl, by simp⟩

instance : Doorkeeper Host Bytes where
  door := door
  isIn session h := h.admitted.contains session
  door_answer {s c w} hc := by
    cases c with
    | offerKeyFile session user path passphrase => exact (offered_keyFile path passphrase).settles.1
    | offerAgentKey session user key => exact (offered_agentKey key).settles.1
    | handshake => rfl
    | agentKeys => rfl
    | leaveAgent => rfl
    | isAuthenticated => rfl
    | _ => cases hc
  isIn_answer {s c w} hc := by
    cases c with
    | offerKeyFile session user path passphrase =>
      obtain rfl : session = s := hc
      exact (offered_keyFile path passphrase).settles.2.2
    | offerAgentKey session user key =>
      obtain rfl : session = s := hc
      exact (offered_agentKey key).settles.2.2
    | handshake => exact (Bool.or_false _).symm
    | agentKeys => exact (Bool.or_false _).symm
    | leaveAgent => exact (Bool.or_false _).symm
    | isAuthenticated => exact (Bool.or_false _).symm
    | _ => cases hc
  accepted_answer c w := by
    cases c with
    | offerKeyFile session user path passphrase => exact (offered_keyFile path passphrase).settles.2.1
    | offerAgentKey session user key => exact (offered_agentKey key).settles.2.1
    | _ => rfl
  answer_agentKeys _ w := by
    change (w.agentKeys.map _).toOption = w.agentKeys.toOption.map _
    cases w.agentKeys <;> rfl
  answer_isAuthenticated _ _ := rfl

theorem greet_run {h : Host} (target : Target) {address : Address} {socket : Handle}
    (hresolve : resolve target.host target.port = some [address]) (hdial : h.dial address = .ok socket)
    (hshake : h.handshake = .ok ()) :
    (Login.greet target).run (Recorded.mk h []) =
      (.ok h.sessions, ⟨h.setUp.2,
        [⟨.resolve target.host target.port, some [address]⟩,
         ⟨.dial address target.connectTimeout, .ok socket⟩, ⟨.setUp socket, .ok h.sessions⟩,
         ⟨.setTimeout h.sessions (timeoutFor target.connectTimeout), ()⟩,
         ⟨.handshake h.sessions, .ok ()⟩]⟩) := by
  have hresolved : Peer.answer (.resolve target.host target.port) h = (some [address], h) :=
    congrArg (·, h) hresolve
  have hdialled : Peer.answer (.dial address target.connectTimeout) h = (.ok socket, h) :=
    congrArg (·, h) hdial
  have hset : Peer.answer (.setUp socket) h = (.ok h.sessions, h.setUp.2) := rfl
  have htimeout : Peer.answer (.setTimeout h.sessions (timeoutFor target.connectTimeout))
      h.setUp.2 = ((), h.setUp.2) := rfl
  have hshaken : Peer.answer (.handshake h.sessions) h.setUp.2 = (.ok (), h.setUp.2) :=
    congrArg (·, h.setUp.2) hshake
  change Login.greet target _ = _
  simp only [Login.greet, Login.dial, Login.dialEach, Operation.bind_apply, Operation.pure_apply,
    call_apply, attempt_apply, ask_of_answer _ hresolved, ask_of_answer _ hdialled, ask_of_answer _ hset,
    ask_of_answer _ hshaken, ask_of_answer _ htimeout, Option.getD_some, Except.mapError]
  rfl

end Rehearsal.Host

namespace Ssh

/-- What was tried between two moments of a login, and what came of it. -/
structure Tried {σ κ : Type} [Peer σ] [Doorkeeper σ κ] (s : Handle) (w w' : Recorded σ)
    (tries : List Call) : Prop where
  door : Doorkeeper.door w'.peer = Doorkeeper.door w.peer
  isIn : Doorkeeper.isIn s w'.peer =
    (Doorkeeper.isIn s w.peer || tries.any (Doorkeeper.door w.peer).lets)
  log : ∃ more, w'.log = w.log ++ more ∧ (more.map (·.1)).filter Call.isTry = tries ∧
    (more.filter Answered.accepted).map (·.1) = tries.filter (Doorkeeper.door w.peer).lets

namespace Tried

variable {σ κ : Type} [Peer σ] [Doorkeeper σ κ] {s : Handle} {u v w : Recorded σ} {a b : List Call}

theorem refl (w : Recorded σ) : Tried s w w [] :=
  ⟨rfl, by simp, [], by simp, rfl, rfl⟩

theorem trans (h : Tried s u v a) (h' : Tried s v w b) : Tried s u w (a ++ b) := by
  obtain ⟨more, hlog, hmore, haccepted⟩ := h.log
  obtain ⟨later, hlog', hlater, haccepted'⟩ := h'.log
  refine ⟨h'.door.trans h.door, ?_, more ++ later, ?_, ?_, ?_⟩
  · rw [h'.isIn, h.isIn, h.door, List.any_append, Bool.or_assoc]
  · rw [hlog', hlog, List.append_assoc]
  · rw [List.map_append, List.filter_append, hmore, hlater]
  · rw [List.filter_append, List.map_append, haccepted, haccepted', h.door, List.filter_append]

theorem ask (c : Call) (hc : c.LogsIn s) (w : Recorded σ) :
    Tried s w (Ssh.ask c w).2 (if c.isTry then [c] else []) := by
  have hlets (htry : c.isTry = false) : (Doorkeeper.door w.peer).lets c = false := by
    cases c <;> first | rfl | cases htry
  refine ⟨Doorkeeper.door_answer hc, (Doorkeeper.isIn_answer hc).trans ?_, [_], rfl, ?_, ?_⟩
  · cases htry : c.isTry with
    | true => simp
    | false => simp [hlets htry]
  · cases htry : c.isTry <;> simp [htry]
  · rw [List.filter_singleton, Doorkeeper.accepted_answer]
    cases htry : c.isTry with
    | true => cases h : (Doorkeeper.door w.peer).lets c <;> simp [h]
    | false => simp [hlets htry]

end Tried

namespace Login

open Doorkeeper (door isIn)

variable {σ κ : Type} [Peer σ] [Doorkeeper σ κ] {session : Handle} {w : Recorded σ}

theorem tried_offerAgentKeys (user : String) (keys : List Handle)
    (hout : isIn session w.peer = false) :
    Tried session w (offerAgentKeys session user keys w).2
      (upTo (door w.peer).lets (keys.map (.offerAgentKey session user))) := by
  induction keys generalizing w with
  | nil => exact .refl w
  | cons key rest ih =>
    let c : Call := .offerAgentKey session user key
    have hoffer : Tried session w (ask c w).2 [c] := .ask c rfl w
    have hreply : (ask c w).1.isOk = (door w.peer).lets c := Doorkeeper.accepted_answer c w.peer
    have hin : isIn session (ask c w).2.peer = (door w.peer).lets c := by
      simp [hoffer.isIn, hout]
    rw [List.map_cons, upTo_cons, offerAgentKeys, bind_apply]
    cases hr : (ask c w).1 with
    | error fault =>
      rw [hr] at hreply
      rw [← hreply] at hin ⊢
      exact hoffer.trans (hoffer.door ▸ ih hin)
    | ok _ =>
      rw [hr] at hreply
      rw [← hreply] at hin ⊢
      dsimp only
      rw [bind_apply]
      have hasked : (ask (.isAuthenticated session) (ask c w).2).1 = true :=
        (Doorkeeper.answer_isAuthenticated session (ask c w).2.peer).trans hin
      rw [hasked]
      exact hoffer.trans (.ask (.isAuthenticated session) rfl _)

theorem tried_offerAgent (user : String) (hout : isIn session w.peer = false) :
    let tries := .agentKeys session ::
      ((door w.peer).agent.getD []).map (.offerAgentKey session user)
    Tried session w (offerAgent session user w).2 (upTo (door w.peer).lets tries) ∧
      ((offerAgent session user w).1.isOk = false → tries.any (door w.peer).lets = false) := by
  let c : Call := .agentKeys session
  have hasked : Tried session w (ask c w).2 [c] := .ask c rfl w
  have hreply : (ask c w).1.toOption = (door w.peer).agent :=
    Doorkeeper.answer_agentKeys session w.peer
  have hin : isIn session (ask c w).2.peer = false := by
    simp [hasked.isIn, hout, Door.lets, c]
  rw [offerAgent, bind_apply, ← hreply]
  cases hr : (ask c w).1 with
  | error fault => exact ⟨hasked, fun _ => rfl⟩
  | ok keys =>
    have hkeys := hasked.trans (hasked.door ▸ tried_offerAgentKeys user keys hin)
    have hleft := hkeys.trans (.ask (.leaveAgent session) rfl _)
    rw [show (Call.leaveAgent session).isTry = false from rfl, if_neg Bool.false_ne_true,
      List.append_nil] at hleft
    dsimp only
    rw [bind_apply, bind_apply, upTo_cons]
    cases (ask (.leaveAgent session) (offerAgentKeys session user keys (ask c w).2).2).1 with
    | ok _ => exact ⟨hleft, fun hr => by cases hr⟩
    | error fault => exact ⟨hleft, fun hr => by cases hr⟩

theorem tried_offer (user : String) (i : Identity) (hout : isIn session w.peer = false) :
    let tries := (door w.peer).tries session user i
    Tried session w (offer session user i w).2 (upTo (door w.peer).lets tries) ∧
      ((offer session user i w).1.isOk = false → tries.any (door w.peer).lets = false) := by
  intro tries
  cases i with
  | keyFile path passphrase =>
    let c : Call := .offerKeyFile session user path passphrase
    have hreply : (ask c w).1.isOk = (door w.peer).lets c := Doorkeeper.accepted_answer c w.peer
    have hmap : (offer session user (.keyFile path passphrase) w).1.isOk = (ask c w).1.isOk := by
      change ((ask c w).1.map _).isOk = _
      cases (ask c w).1 <;> rfl
    have htries : tries = [c] := rfl
    rw [htries, upTo_cons, upTo_nil, ite_self, List.any_cons, List.any_nil, Bool.or_false, ← hreply,
      hmap]
    exact ⟨.ask c rfl w, id⟩
  | agentSocket path => exact tried_offerAgent user hout
  | platformAgent => exact tried_offerAgent user hout

theorem tried_offerEach (user : String) (rs : List Credential.Resolved)
    (hout : isIn session w.peer = false) :
    Tried session w (offerEach session user rs w).2 (upTo (door w.peer).lets
      (rs.flatMap fun r => (door w.peer).tries session user r.identity)) := by
  induction rs generalizing w with
  | nil => exact .refl w
  | cons r rest ih =>
    obtain ⟨hoffer, hfault⟩ := tried_offer user r.identity hout
    have hin := hoffer.isIn
    rw [hout, any_upTo, Bool.false_or] at hin
    rw [List.flatMap_cons, upTo_append, offerEach, bind_apply]
    cases hr : (offer session user r.identity w).1 with
    | error fault =>
      rw [hr] at hfault
      rw [hfault rfl] at hin ⊢
      exact hoffer.trans (hoffer.door ▸ ih hin)
    | ok notes =>
      let v := (offer session user r.identity w).2
      have hlook : Tried session v (ask (.isAuthenticated session) v).2 [] :=
        .ask (.isAuthenticated session) rfl v
      have hasked : (ask (.isAuthenticated session) v).1 = isIn session v.peer :=
        Doorkeeper.answer_isAuthenticated session v.peer
      dsimp only
      rw [bind_apply, hasked, hin]
      cases hany : ((door w.peer).tries session user r.identity).any
          (door w.peer).lets with
      | true => exact hoffer.trans hlook
      | false =>
        have hseen := hoffer.trans hlook
        rw [List.append_nil] at hseen
        have hin : isIn session (ask (.isAuthenticated session) v).2.peer = false := by
          rw [hseen.isIn, hout, any_upTo, hany, Bool.or_false]
        exact hseen.trans (hseen.door ▸ ih hin)

end Login

variable {σ κ : Type} [Peer σ] [Doorkeeper σ κ]

/-- After a handshake the session is let in with the first key that is admitted, in the order of the
identities and of the keys that the agent holds; nothing is tried after it. There is one login, or none
when no key is admitted, and then the user is told so. -/
theorem connect_first_admitted (request : ConnectRequest) (w w₁ : Recorded σ) (session : Handle)
    (hverify : request.verifyHostKey = false)
    (hgreet : (Login.greet request.target).run w = (.ok session, w₁))
    (hout : Doorkeeper.isIn session w₁.peer = false) :
    let door := Doorkeeper.door w₁.peer
    let tries := request.identities.flatMap fun r => door.tries session request.user r.identity
    let keys := request.identities.flatMap fun r => door.keys r.identity
    let admitted := keys.find? (door.admits request.user)
    let login := connect request w
    login.1.outcome =
        (if admitted.isSome then .ok session else .error (.authRejected request.user)) ∧
      ∃ more, login.2.log = w₁.log ++ more ∧
        (more.filter Answered.accepted).map (fun a => door.key a.1) = admitted.toList.map some ∧
        (more.map (·.1)).filter Call.isTry = tries.take (tries.findIdx door.lets + 1) := by
  intro door tries keys admitted login
  let offered := Login.offerEach session request.user request.identities w₁
  have htried : Tried session w₁ offered.2 (upTo door.lets tries) :=
    Login.tried_offerEach request.user request.identities hout
  have hlook : Tried session w₁ (ask (.isAuthenticated session) offered.2).2 (upTo door.lets tries) :=
    List.append_nil (upTo door.lets tries) ▸ htried.trans (.ask (.isAuthenticated session) rfl _)
  have hasked : (ask (.isAuthenticated session) offered.2).1 = admitted.isSome := by
    rw [← Door.any_lets door session, ← any_upTo, ← Bool.false_or (List.any _ _), ← hout, ← htried.isIn]
    exact Doorkeeper.answer_isAuthenticated session offered.2.peer
  obtain ⟨more, hlog, hmore, haccepted⟩ := hlook.log
  have hlogins : (more.filter Answered.accepted).map (fun a => door.key a.1) =
      admitted.toList.map some := by
    calc (more.filter Answered.accepted).map (fun a => door.key a.1)
        = ((more.filter Answered.accepted).map (·.1)).map door.key := by
          rw [List.map_map, Function.comp_def]
      _ = (tries.find? door.lets).toList.map door.key := by rw [haccepted, filter_upTo]
      _ = admitted.toList.map some := by
        rw [← Option.toList_map, door.map_key_find?, Option.toList_map]
  have hconnect : login = connect request w := rfl
  rw [connect, hverify, if_neg Bool.false_ne_true, bind_apply, hgreet] at hconnect
  dsimp only at hconnect
  rw [bind_apply, bind_apply, hasked] at hconnect
  rw [hconnect]
  clear_value admitted
  cases admitted with
  | none => exact ⟨rfl, more, hlog, hlogins, hmore⟩
  | some k =>
    refine ⟨rfl, more ++ [⟨.setTimeout session 0, ()⟩], ?_, ?_, ?_⟩
    · rw [← List.append_assoc, ← hlog]
      rfl
    · rw [List.filter_append, List.map_append, hlogins]
      rfl
    · rw [List.map_append, List.filter_append, hmore]
      exact List.append_nil _

open FileSystem in
theorem connect_first_admitted_with_agent :
    let host : Rehearsal.Host :=
      { site :=
          { port := 22
            authorized := [⟨[2], "second"⟩, ⟨[3], "third"⟩]
            agent := some { place := ["a"], keys := [[1], [2], [3]] }
            files := { nodes := [(["a"], .file [] false)] }
            environment := { bindings := [("SSH_AUTH_SOCK", [97])] } } }
    let request : ConnectRequest :=
      ⟨{ name := "lab", host := "localhost" }, "jane",
        [⟨"IdentityFileEnv", .keyFile ⟨"a"⟩ none⟩, ⟨"SSHAgent", .agentSocket ⟨"/agent"⟩⟩], false⟩
    let login := connect request (Recorded.mk host [])
    login.1.outcome = .ok 0 ∧
      (login.2.log.map (·.1)).filter Call.isTry =
        [.offerKeyFile 0 "jane" ⟨"a"⟩ none, .agentKeys 0, .offerAgentKey 0 "jane" 0,
         .offerAgentKey 0 "jane" 1] := by
  intro host request login
  have hdial : host.dial "127.0.0.1:22" = .ok 0 := by
    have hnear : Rehearsal.Host.isNear "127.0.0.1:22" = true := by decide +kernel
    have haddress : "127.0.0.1:22" = "127.0.0.1:" ++ toString host.site.port.toNat := by decide +kernel
    rw [Rehearsal.Host.dial, hnear, ← haddress]
    rfl
  have hgreet := Rehearsal.Host.greet_run request.target (by decide +kernel) hdial rfl
  have hvar : host.site.environment.text? "SSH_AUTH_SOCK" = some "a" := by
    simp [host, Environment.text?, Environment.get?, Utf8.decode?, Utf8.isValid, Utf8.decode, Utf8.pieces,
      Utf8.lead?, Utf8.tail]
  have hplace : host.site.files.resolve ⟨"a"⟩ = .ok ["a"] := by
    have hsteps : steps ⟨"a"⟩ = ["a"] := by decide +kernel
    rw [FileSystem.resolve, if_neg (by decide), if_neg (by decide), if_neg (by decide), hsteps]
    have hsize : "a".utf8ByteSize = 1 := rfl
    simp [walk, FileSystem.isDirectory, FileSystem.node?, host, hsize]
  have hagent : host.agentKeys = .ok [[1], [2], [3]] := by
    rw [Rehearsal.Host.agentKeys, hvar]
    simp only [hplace]
    rfl
  have hunlock : (host.unlock ⟨"a"⟩ none).toOption = none := by
    have hfind : host.site.files.find? ⟨"a"⟩ = some (.file [] false) := by
      rw [find?, hplace]
      rfl
    rw [Rehearsal.Host.unlock, hfind]
    rfl
  obtain ⟨houtcome, more, hlog, -, htries⟩ := connect_first_admitted request _ _ 0 rfl hgreet rfl
  generalize hdoor : (Doorkeeper.door host.setUp.2 : Door Bytes) = door at houtcome htries
  have hheld : door.agent = some [0, 1, 2] := by
    rw [← hdoor]
    change host.agentKeys.toOption.map (fun keys => List.range keys.length) = _
    rw [hagent]
    rfl
  have hmissing : door.unlock ⟨"a"⟩ none = none := by
    rw [← hdoor]
    change (if Rehearsal.Host.hasNul "a" || false then none else (host.unlock ⟨"a"⟩ none).toOption) = none
    rw [hunlock, ite_self]
  have hkey (k : Handle) : door.held k = [[1], [2], [3]][k]? := by
    rw [← hdoor]
    rfl
  have hkeys : (request.identities.flatMap fun r => door.keys r.identity) = [[1], [2], [3]] := by
    simp [request, Door.keys, hheld, hmissing, hkey]
  have htried : (request.identities.flatMap fun r => door.tries 0 "jane" r.identity) =
      [.offerKeyFile 0 "jane" ⟨"a"⟩ none, .agentKeys 0, .offerAgentKey 0 "jane" 0,
       .offerAgentKey 0 "jane" 1, .offerAgentKey 0 "jane" 2] := by
    simp [request, Door.tries, hheld]
  have hadmits : door.admits "jane" [1] = false ∧ door.admits "jane" [2] = true := by
    rw [← hdoor]
    decide
  constructor
  · refine houtcome.trans ?_
    rw [hkeys]
    simp [request, hadmits]
  · refine (congrArg (fun log => (log.map (·.1)).filter Call.isTry) hlog).trans ?_
    rw [List.map_append, List.filter_append, htries, htried]
    simp [List.findIdx_cons, Door.lets, hmissing, hkey, hadmits, Call.isTry]

end Ssh

end Rollout
