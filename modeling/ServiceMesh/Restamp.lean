import ServiceMesh.Entries
import ServiceMesh.FixedInfra
import ServiceMesh.Persistence

/-! Which identity a restart brings a peer back with. First registers, moves and departures save
the roster; a register that refreshes a peer in place stamps its tags and saves nothing. -/

namespace ServiceMesh

open StdNet (Ipv6Addr SocketAddr)

def PeerEntry.identity (e : PeerEntry) : NodeIdentity := ⟨e.network, e.tags⟩

def PeerJoined.identity (p : PeerJoined) : NodeIdentity := ⟨p.network, p.tags⟩

def RosterState.identityOf (m : RosterState) (id : Uuid) : Option NodeIdentity :=
  (m.roster.lookup id).map PeerEntry.identity

section

variable [Crates] {G : Uuid → Ipv6Addr → Prop}

def savedIdentity (peers : List PeerJoined) (id : Uuid) : Option NodeIdentity :=
  (peers.find? (fun p => p.peerId == id.toString)).map PeerJoined.identity

theorem savedIdentity_eq_some_iff {l : List PeerEntry} (hl : (l.map PeerEntry.peerId).Nodup)
    {id : Uuid} {identity : NodeIdentity} :
    savedIdentity (l.map PeerEntry.toJoinedEvent) id = some identity ↔
      ∃ e ∈ l, e.peerId = id ∧ e.identity = identity := by
  induction l with
  | nil => simp [savedIdentity]
  | cons a l ih =>
    obtain ⟨hnew, hrest⟩ := List.nodup_cons.mp hl
    have hkey : (a.toJoinedEvent.peerId == id.toString) = decide (a.peerId = id) := by
      rw [Bool.eq_iff_iff, beq_iff_eq, decide_eq_true_iff]
      exact Uuid.toString_inj
    by_cases ha : a.peerId = id
    · have hfirst : savedIdentity ((a :: l).map PeerEntry.toJoinedEvent) id = some a.identity := by
        simp only [savedIdentity, List.map_cons, List.find?_cons, hkey, ha, decide_true]
        rfl
      rw [hfirst]
      constructor
      · intro h
        exact ⟨a, List.mem_cons_self, ha, Option.some.inj h⟩
      · rintro ⟨e, he, hid, hident⟩
        rcases List.mem_cons.mp he with rfl | he
        · exact congrArg some hident
        · exact absurd (List.mem_map.mpr ⟨e, he, hid.trans ha.symm⟩) hnew
    · have hskip : savedIdentity ((a :: l).map PeerEntry.toJoinedEvent) id =
          savedIdentity (l.map PeerEntry.toJoinedEvent) id := by
        simp only [savedIdentity, List.map_cons, List.find?_cons, hkey, ha, decide_false]
      rw [hskip, ih hrest]
      simp [ha]

theorem savedIdentity_rosterSnapshot {m : RosterState} (h : m.Inv G) (id : Uuid) :
    savedIdentity m.rosterSnapshot id = m.identityOf id := by
  apply Option.ext
  intro identity
  rw [RosterState.rosterSnapshot, savedIdentity_eq_some_iff h.distinct.peerId,
    RosterState.identityOf, Option.map_eq_some_iff]
  constructor
  · rintro ⟨e, he, hid, hident⟩
    obtain ⟨k, hk⟩ := AList.mem_values_iff.mp he
    have hkid : k = id := (h.keyed hk).symm.trans hid
    exact ⟨e, hkid ▸ hk, hident⟩
  · rintro ⟨e, he, hident⟩
    exact ⟨e, AList.lookup_mem_values he, h.keyed he, hident⟩

namespace RosterState

def IdentitiesSaved (m : RosterState) : Prop :=
  ∀ id, savedIdentity (m.rosterStore.head?.getD []) id = m.identityOf id

theorem IdentitiesSaved.kept {m m' : RosterState} (h : m.IdentitiesSaved)
    (hstore : m'.rosterStore = m.rosterStore) (hident : ∀ id, m'.identityOf id = m.identityOf id) :
    m'.IdentitiesSaved := by
  intro id
  rw [hstore, hident id]
  exact h id

theorem identitiesSaved_persistRoster {m : RosterState} (h : (m.persistRoster true).Inv G) :
    (m.persistRoster true).IdentitiesSaved :=
  fun id => savedIdentity_rosterSnapshot h id

theorem identitiesSaved_restart {m : RosterState} (h : m.Inv G) (now : Nat) :
    (m.restart now (some 0)).rosterStore = m.rosterStore ∧
      ∀ id, (m.restart now (some 0)).identityOf id =
        savedIdentity (m.rosterStore.head?.getD []) id := by
  obtain ⟨l, hl, -, hload, hr⟩ := h.restart_restoredFrom now (some 0)
  have hfile : m.rosterStore.head?.getD [] = l.map PeerEntry.toJoinedEvent := by
    rw [← hload, load, Option.bind_some, List.head?_eq_getElem?]
  refine ⟨by rw [restart, rosterStore_restoreEvents]; rfl, ?_⟩
  intro id
  apply Option.ext
  intro identity
  rw [hfile, savedIdentity_eq_some_iff hl.peerId, identityOf, Option.map_eq_some_iff]
  constructor
  · rintro ⟨e', he', hident⟩
    obtain ⟨e, he, hid, rfl⟩ := hr.roster.mp he'
    exact ⟨e, he, hid, hident⟩
  · rintro ⟨e, he, hid, hident⟩
    exact ⟨restoredEntry now e, hr.roster.mpr ⟨e, he, hid, rfl⟩, hident⟩

end RosterState

omit [Crates] in
theorem tags_beaten (req : HeartbeatRequest) (now : Nat) (observed : Option SocketAddr)
    (e : PeerEntry) : (req.beaten now observed e).tags = e.tags := by
  simp only [HeartbeatRequest.beaten, beatenEntry, roamedEntry]
  split
  · rfl
  · split
    · rfl
    · split
      · rfl
      · split <;> rfl

theorem EntryStep.identity {c : Coordinator} {k : Uuid} {op : Op} {reply : Reply}
    {before after : Option PeerEntry} (h : EntryStep c k op reply before after)
    (hreply : reply.grantedId ≠ some k) :
    after = none ∨ after.map PeerEntry.identity = before.map PeerEntry.identity := by
  cases h with
  | absent | removed => exact .inl rfl
  | kept op reply h =>
    obtain ⟨htags, hnet⟩ := h.identity
    right
    simp only [Option.map_some, PeerEntry.identity, htags, hnet]
  | @beaten amb req observed reply e e' hk h =>
    obtain ⟨htags, hnet⟩ := h.identity
    have hseat : (req.beaten amb.now observed e).network = e.network :=
      (sameSeat_beatenEntry _ _ _ _ _ _ _ e).network
    right
    simp only [Option.map_some, PeerEntry.identity, htags, hnet, hseat, tags_beaten]
  | registered _ hk => exact absurd (congrArg some hk) hreply

theorem EntryStep.presence {c : Coordinator} {k : Uuid} {op : Op} {reply : Reply}
    {before after : Option PeerEntry} (h : EntryStep c k op reply before after)
    (hop : op.savesNothing = true) : after = none → before = none := by
  cases h with
  | removed hop' => simp [hop'] at hop
  | _ => simp

def Op.SavesSucceed : Op → Prop
  | .register amb _ _ _ | .deregister amb _ | .sweep amb => ∀ id, amb.saved id = true
  | .restart _ _ file => file = some 0
  | _ => True

/-- A register that refreshes a peer in place stamps the tags the peer has already. -/
def RestampsSameTags (s : Mesh) : Op → Prop
  | .register amb req bearer _ =>
    match s.coordinator.admission amb req bearer with
    | .error _ => True
    | .ok (claims, pubkey) =>
      ∀ old ∈ (s.coordinator.byPubkey.lookup pubkey).bind (fun id => s.coordinator.roster.lookup id),
        (claims.isSome → (stampIdentity req claims).network = old.network) →
        (stampIdentity req claims).tags = old.tags
  | _ => True

namespace Coordinator

variable {c : Coordinator} {amb : Ambient}

theorem evictStaleUlaHolder_identities (h : c.toRosterState.Inv G)
    (hs : c.toRosterState.IdentitiesSaved) (hsaved : ∀ id, amb.saved id = true)
    (requestedUla : Option String) :
    (c.evictStaleUlaHolder amb requestedUla).toRosterState.IdentitiesSaved := by
  have hinv := (c.evictStaleUlaHolder_steps amb requestedUla).inv_quiet h
  rcases c.evictStaleUlaHolder_cases amb requestedUla with ⟨-, he⟩ | ⟨id, -, he⟩
  · rw [he]
    exact hs
  · rw [he, hsaved] at hinv ⊢
    exact RosterState.identitiesSaved_persistRoster hinv

theorem deregister_identities (h : c.toRosterState.Inv G) (hs : c.toRosterState.IdentitiesSaved)
    (hsaved : ∀ id, amb.saved id = true) (id : Uuid) (reason : String) :
    (c.deregister amb id reason).1.toRosterState.IdentitiesSaved := by
  have hinv := (c.deregister_steps amb id reason).inv_quiet h
  unfold deregister at hinv ⊢
  split at hinv
  · exact hs
  · rw [hsaved] at hinv ⊢
    exact RosterState.identitiesSaved_persistRoster hinv

theorem sweepOnce_identities (h : c.toRosterState.Inv G) (hs : c.toRosterState.IdentitiesSaved)
    (hsaved : ∀ id, amb.saved id = true) : (c.sweepOnce amb).toRosterState.IdentitiesSaved := by
  refine (c.sweepOnce_induction amb
    (P := fun c => c.toRosterState.Inv G ∧ c.toRosterState.IdentitiesSaved) ⟨h, hs⟩ ?_).2
  rintro c' ⟨h, hs⟩ id _
  exact ⟨(c'.deregister_steps amb id _).inv_quiet h, deregister_identities h hs hsaved id _⟩

theorem Registers.identities {s : Mesh} {req : RegisterRequest} {bearer : Option String}
    {observed : Option SocketAddr}
    {r : Coordinator × Except CoordinatorError (PeerEntry × RegisterOutcome)}
    (hr : s.coordinator.Registers amb req bearer observed r) (h : s.coordinator.toRosterState.Inv G)
    {G' : Uuid → Ipv6Addr → Prop} (h' : r.1.toRosterState.Inv G')
    (hs : s.coordinator.toRosterState.IdentitiesSaved) (hsaved : ∀ id, amb.saved id = true)
    (hstamp : RestampsSameTags s (.register amb req bearer observed)) :
    r.1.toRosterState.IdentitiesSaved := by
  cases hr with
  | refused | exhausted => exact hs
  | @refreshed claims pubkey id old hadm hk hold hstay =>
    have hnet : claims.isSome → (stampIdentity req claims).network = old.network := by
      intro hclaims
      by_contra hne
      exact hstay ⟨hclaims, hne⟩
    simp only [RestampsSameTags, hadm] at hstamp
    have htags := hstamp old (Option.bind_eq_some_iff.mpr ⟨id, hk, hold⟩) hnet
    refine hs.kept rfl ?_
    intro k
    change ((s.coordinator.roster.modify id _).lookup k).map PeerEntry.identity = _
    rw [AList.lookup_modify]
    by_cases hki : k = id
    · subst hki
      rw [if_pos rfl, RosterState.identityOf, hold]
      exact congrArg (fun tags => some (NodeIdentity.mk old.network tags)) htags
    · rw [if_neg hki]
      rfl
  | moved =>
    rw [hsaved] at h' ⊢
    exact RosterState.identitiesSaved_persistRoster h'
  | turnedAway => exact evictStaleUlaHolder_identities h hs hsaved req.requestedUla
  | joined =>
    rw [hsaved] at h' ⊢
    exact RosterState.identitiesSaved_persistRoster h'

end Coordinator

theorem Mesh.step_identities {s : Mesh} (h : s.coordinator.toRosterState.Inv G) {op : Op}
    {G' : Uuid → Ipv6Addr → Prop} (h' : (s.step op).1.coordinator.toRosterState.Inv G')
    (hs : s.coordinator.toRosterState.IdentitiesSaved) (hsaved : op.SavesSucceed)
    (hstamp : RestampsSameTags s op) :
    (s.step op).1.coordinator.toRosterState.IdentitiesSaved := by
  by_cases hquiet : op.savesNothing = true
  · refine hs.kept (s.step_seatsKept hquiet).rosterStore ?_
    intro id
    have hreply : (s.step op).2.grantedId ≠ some id := by
      intro hg
      obtain ⟨_, _, _, _, _, rfl, -⟩ := Mesh.step_grantedId hg
      cases hquiet
    have hentry := s.step_entry h (.of_savesNothing hquiet) id
    rcases hentry.identity hreply with hnone | hsame
    · have hbefore := hentry.presence hquiet hnone
      rw [RosterState.identityOf, RosterState.identityOf, hnone, hbefore]
    · exact hsame
  · cases op with
    | register amb req bearer observed =>
      have hr := Coordinator.registers amb req bearer observed h
      simp only [step, withCoordinator, Coordinator.registerHandler_fst] at h' ⊢
      exact hr.identities h h' hs hsaved hstamp
    | deregister amb peerId =>
      simp only [step, Coordinator.deregisterHandler]
      split
      · exact hs
      · exact Coordinator.deregister_identities h hs hsaved _ _
    | sweep amb => exact Coordinator.sweepOnce_identities h hs hsaved
    | restart cfg now file =>
      have hfile : file = some 0 := hsaved
      subst hfile
      obtain ⟨hstore, hident⟩ := RosterState.identitiesSaved_restart h now
      intro id
      change savedIdentity ((s.coordinator.toRosterState.restart now (some 0)).rosterStore.head?.getD
        []) id = (s.coordinator.toRosterState.restart now (some 0)).identityOf id
      rw [hident, hstore]
    | _ => exact absurd rfl hquiet

def Stamps (s₀ : Mesh) (op : Op) (id : Uuid) (identity : NodeIdentity) : Prop :=
  ∃ amb req bearer observed claims r, op = .register amb req bearer observed ∧
    (s₀.step op).2 = .register (.ok r) ∧ r.entry.peerId = id ∧ r.entry.identity = identity ∧
    s₀.coordinator.Writes amb req bearer observed claims r.entry

def LatestStamp (cfg : Config) (tr : List (Op × Reply)) (id : Uuid) (identity : NodeIdentity) :
    Prop :=
  ∃ later tr₀ s₀ op, tr = later ++ (op, (s₀.step op).2) :: tr₀ ∧ (mesh cfg).Reach tr₀ s₀ ∧
    Stamps s₀ op id identity ∧ ∀ x ∈ later, x.2.grantedId ≠ some id

theorem LatestStamp.cons {cfg : Config} {tr : List (Op × Reply)} {id : Uuid}
    {identity : NodeIdentity} (h : LatestStamp cfg tr id identity) {x : Op × Reply}
    (hx : x.2.grantedId ≠ some id) : LatestStamp cfg (x :: tr) id identity := by
  obtain ⟨later, tr₀, s₀, op, rfl, hreach, hstamps, hlater⟩ := h
  refine ⟨x :: later, tr₀, s₀, op, rfl, hreach, hstamps, ?_⟩
  intro y hy
  rcases List.mem_cons.mp hy with rfl | hy
  · exact hx
  · exact hlater y hy

theorem stamps_of_grantedId {s : Mesh} (h : s.coordinator.toRosterState.Inv G) {op : Op} {id : Uuid}
    (hg : (s.step op).2.grantedId = some id) :
    ∃ identity, Stamps s op id identity ∧
      (s.step op).1.coordinator.identityOf id = some identity := by
  obtain ⟨amb, req, bearer, observed, r, rfl, hr, rfl⟩ := Mesh.step_grantedId hg
  have hans := Reply.register.inj hr
  have hregisters := Coordinator.registers amb req bearer observed h
  obtain ⟨claims, hwrites⟩ := hregisters.writes (Coordinator.registerHandler_eq_ok hans).1
  have hstored := Coordinator.registerHandler_lookup amb req observed bearer h hans
  refine ⟨r.entry.identity, ⟨amb, req, bearer, observed, claims, r, rfl, hr, rfl, rfl, hwrites⟩, ?_⟩
  exact congrArg (Option.map PeerEntry.identity) hstored

structure StampedByLatest (cfg : Config) (tr : List (Op × Reply)) (s : Mesh) : Prop where
  saved : s.coordinator.toRosterState.IdentitiesSaved
  latest : ∀ id identity, s.coordinator.identityOf id = some identity →
    LatestStamp cfg tr id identity

theorem stampedByLatest_of_run {cfg : Config} {tr : List (Op × Reply)} {s : Mesh}
    (h : (mesh cfg).Run (fun s op => op.SavesSucceed ∧ RestampsSameTags s op) tr s) :
    StampedByLatest cfg tr s := by
  have hstart : StampedByLatest cfg [] (mesh cfg).init := by
    refine ⟨fun _ => rfl, ?_⟩
    intro id identity hnone
    cases hnone
  refine Machine.Run.invariant hstart ?_ h
  · intro tr s op hr ih hadmits hc
    have hi := inv_of_run hr
    have hi' := inv_of_run (hr.step op hadmits hc)
    have hsaved := Mesh.step_identities hi hi' ih.saved hc.1 hc.2
    refine ⟨hsaved, ?_⟩
    intro id identity hident
    by_cases hg : (s.step op).2.grantedId = some id
    · obtain ⟨identity', hstamps, hident'⟩ := stamps_of_grantedId hi hg
      have hsame : identity' = identity := Option.some.inj (hident'.symm.trans hident)
      exact ⟨[], tr, s, op, rfl, hr.reach, hsame ▸ hstamps, by simp⟩
    · have hbefore : s.coordinator.identityOf id = some identity := by
        by_cases hlive : op.Live
        · rcases (s.step_entry hi hlive id).identity hg with hnone | hsame
          · have hnone' : (s.step op).1.coordinator.identityOf id = none :=
              congrArg (Option.map PeerEntry.identity) hnone
            cases hnone'.symm.trans hident
          · exact hsame.symm.trans hident
        · -- a restart reads back what the file says, which is what the roster said
          cases op with
          | restart cfg' now file =>
            have hfile : file = some 0 := hc.1
            subst hfile
            have hrestored := (RosterState.identitiesSaved_restart hi now).2 id
            exact ((ih.saved id).symm.trans hrestored.symm).trans hident
          | _ => exact absurd trivial hlive
      exact (ih.latest id identity hbefore).cons hg

/-- A restart from the newest file brings back the peers of the roster with the identity their
latest registers stamped, where saves succeed and registers stamp no other tags on a peer they
refresh in place. -/
theorem restart_keeps_latest_stamp {cfg : Config} {tr : List (Op × Reply)} {s : Mesh}
    (h : (mesh cfg).Run (fun s op => op.SavesSucceed ∧ RestampsSameTags s op) tr s)
    (cfg' : Config) (now : Nat) :
    (∀ id, (s.step (.restart cfg' now (some 0))).1.coordinator.identityOf id =
      s.coordinator.identityOf id) ∧
    ∀ id e, (s.step (.restart cfg' now (some 0))).1.coordinator.roster.lookup id = some e →
      LatestStamp cfg tr id e.identity := by
  have hstamped := stampedByLatest_of_run h
  have hsame : ∀ id, (s.step (.restart cfg' now (some 0))).1.coordinator.identityOf id =
      s.coordinator.identityOf id := by
    intro id
    have hrestored := (RosterState.identitiesSaved_restart (inv_of_run h) now).2 id
    exact hrestored.trans (hstamped.saved id)
  refine ⟨hsame, ?_⟩
  intro id e he
  apply hstamped.latest
  rw [← hsame id]
  exact congrArg (Option.map PeerEntry.identity) he

end

instance [Crates] (s : Mesh) : (op : Op) → Decidable (RestampsSameTags s op)
  | .register amb req bearer _ =>
    match h : s.coordinator.admission amb req bearer with
    | .error _ => .isTrue (by simp only [RestampsSameTags, h])
    | .ok (claims, pubkey) =>
      decidable_of_iff
        (∀ old ∈ (s.coordinator.byPubkey.lookup pubkey).bind
            (fun id => s.coordinator.roster.lookup id),
          (claims.isSome → (stampIdentity req claims).network = old.network) →
          (stampIdentity req claims).tags = old.tags)
        (by simp only [RestampsSameTags, h])
  | .heartbeat .. | .deregister .. | .sweep .. | .putPolicy .. | .postDirect ..
  | .setProactive .. | .postCommand .. | .openStream .. | .pollStream .. | .closeStream ..
  | .relayConnect .. | .relayUplink .. | .relayDeliver .. | .relaySendEnd ..
  | .relayDisconnect .. | .reorderRoster .. | .restart .. => .isTrue trivial

def stampOp (nowV7 : Uuid) (tags : List String) : Op :=
  tokenOp 0 nowV7 { claimsFor "" [] with tags := tags }
    (plainRequest keyOne "" (some "fd5a:1f02:1::1"))

theorem savesSucceed_stampOp {op : Op} (nowV7 nowV7' : Uuid) (tags tags' : List String)
    (h : op ∈ [stampOp nowV7 tags, stampOp nowV7' tags']) : op.SavesSucceed := by
  rcases List.mem_pair.mp h with rfl | rfl <;> exact fun _ => rfl

def stampOps (tags tags' : List String) : List Op := [stampOp 1 tags, stampOp 2 tags']

attribute [local instance] referenceCrates

/-- The peer's token was narrowed and the peer registered again; all saves succeed, and a restart
brings back the tags it had before. -/
theorem restart_resurrects_tags :
    ∃ tr s id identity e, (mesh guardedConfig).Run (fun _ op => op.SavesSucceed) tr s ∧
      LatestStamp guardedConfig tr id identity ∧
      (s.step (.restart guardedConfig 0 (some 0))).1.coordinator.roster.lookup id = some e ∧
      identity.tags = [] ∧ e.tags = [tagSystem] := by
  have hall : (mesh guardedConfig).Admissible (fun _ _ => True) [] (Mesh.init guardedConfig)
        (stampOps [tagSystem] []) ∧
      ((stateAfter guardedConfig [stampOp 1 [tagSystem]]).step (stampOp 2 [])).2.grantedId = some 1 ∧
      (stateAfter guardedConfig (stampOps [tagSystem] [])).coordinator.identityOf 1 =
        some ⟨"", []⟩ ∧
      (((stateAfter guardedConfig (stampOps [tagSystem] [])).step
        (.restart guardedConfig 0 (some 0))).1.coordinator.roster.lookup 1).map PeerEntry.tags =
        some [tagSystem] := by decide
  obtain ⟨hadm, hg, hident, htags⟩ := hall
  have hrun : (mesh guardedConfig).Run (fun _ op => op.SavesSucceed)
      (traceAfter guardedConfig (stampOps [tagSystem] []))
      (stateAfter guardedConfig (stampOps [tagSystem] [])) :=
    (Machine.Run.start.exec
      (hadm.with_inputs fun op hop => savesSucceed_stampOp 1 2 _ _ hop)).mono (fun _ _ h => h.1)
  have hbefore : (mesh guardedConfig).Reach (traceAfter guardedConfig [stampOp 1 [tagSystem]])
      (stateAfter guardedConfig [stampOp 1 [tagSystem]]) :=
    reach_of_admissible ⟨hadm.1, trivial, trivial⟩
  obtain ⟨identity, hstamps, hident'⟩ := stamps_of_grantedId (inv_of_reach hbefore) hg
  have hnone : identity.tags = [] :=
    congrArg NodeIdentity.tags (Option.some.inj (hident'.symm.trans hident))
  obtain ⟨e, he, hold⟩ := Option.map_eq_some_iff.mp htags
  exact ⟨_, _, 1, identity, e, hrun, ⟨[], _, _, _, rfl, hbefore, hstamps, by simp⟩, he, hnone, hold⟩

theorem restart_keeps_latest_stamp_same :
    ∃ e, ((stateAfter guardedConfig (stampOps ["tag:ops"] ["tag:ops"])).step
        (.restart guardedConfig 0 (some 0))).1.coordinator.roster.lookup 1 = some e ∧
      LatestStamp guardedConfig (traceAfter guardedConfig (stampOps ["tag:ops"] ["tag:ops"])) 1
        e.identity := by
  have hall : (mesh guardedConfig).Admissible RestampsSameTags [] (Mesh.init guardedConfig)
        (stampOps ["tag:ops"] ["tag:ops"]) ∧
      (((stateAfter guardedConfig (stampOps ["tag:ops"] ["tag:ops"])).step
        (.restart guardedConfig 0 (some 0))).1.coordinator.roster.lookup 1).isSome = true := by
    decide
  have hrun : (mesh guardedConfig).Run (fun s op => op.SavesSucceed ∧ RestampsSameTags s op)
      (traceAfter guardedConfig (stampOps ["tag:ops"] ["tag:ops"]))
      (stateAfter guardedConfig (stampOps ["tag:ops"] ["tag:ops"])) :=
    Machine.Run.start.exec (hall.1.with_inputs fun op hop => savesSucceed_stampOp 1 2 _ _ hop)
  obtain ⟨e, he⟩ := Option.isSome_iff_exists.mp hall.2
  exact ⟨e, he, (restart_keeps_latest_stamp hrun guardedConfig 0).2 1 e he⟩

end ServiceMesh
