import ServiceMesh.Entries

/-! The endpoint a peer is advertised with, as the peer's own requests determine it: a register sets
it, and a heartbeat moves it unless a register supplied it. -/

namespace ServiceMesh

open StdNet (Ipv6Addr IpAddr SocketAddr)

def PeerEntry.advert (e : PeerEntry) : ResolvedEndpoint := ⟨e.listenEndpoint, e.endpointIsReflexive⟩

def ResolvedEndpoint.roam (a : ResolvedEndpoint) (observed : Option SocketAddr)
    (wgListenPort : Option UInt16) (relayOnly : Bool) : ResolvedEndpoint :=
  if relayOnly = true ∨ (a.endpoint.isSome = true ∧ a.reflexive = false) then a
  else
    match observed, wgListenPort with
    | some obs, some port =>
      if isPublic obs.ip then ⟨some (reflexiveEndpoint obs.ip port), true⟩ else a
    | _, _ => a

theorem SameStanding.advert {e e' : PeerEntry} (h : SameStanding e e') : e'.advert = e.advert := by
  rw [h]
  rfl

theorem advert_restored (event : PeerJoined) (id : Uuid) (ula : Ipv6Addr) (now : Nat) :
    (RosterState.joinedEntry event id ula now).advert =
      ⟨if event.listenEndpoint = "" then none else some event.listenEndpoint, false⟩ := rfl

theorem parse_observed (obs : SocketAddr) :
    ∃ obs', SocketAddr.parse obs.toString = some obs' ∧ obs'.ip = obs.ip := by
  cases obs with
  | v4 ip port => exact ⟨_, StdNet.SocketAddr.parse_toString_v4 ip port, rfl⟩
  | v6 ip port flowinfo scopeId =>
    exact ⟨_, StdNet.SocketAddr.parse_toString_v6 ip port flowinfo scopeId, rfl⟩

theorem resolve_public {obs : SocketAddr} (h : isPublic obs.ip = true) (port : UInt16) :
    resolveListenEndpoint none (some obs) (some port) false =
      ⟨some (reflexiveEndpoint obs.ip port), true⟩ :=
  if_pos h

theorem resolve_private {obs : SocketAddr} (h : ¬ isPublic obs.ip = true) (port : UInt16) :
    resolveListenEndpoint none (some obs) (some port) false = ⟨none, false⟩ :=
  if_neg h

theorem advert_roamedEntry (observed : Option SocketAddr) (wgListenPort : Option UInt16)
    (relayOnly : Bool) (e : PeerEntry) :
    (roamedEntry ((observed.map SocketAddr.toString).getD "") wgListenPort relayOnly e).advert =
      e.advert.roam observed wgListenPort relayOnly := by
  unfold roamedEntry ResolvedEndpoint.roam
  have hsticky : (!e.endpointIsReflexive && e.listenEndpoint.any isStickyExplicitEndpoint) =
      true ↔ e.advert.endpoint.isSome = true ∧ e.advert.reflexive = false := by
    cases hend : e.listenEndpoint <;> simp [PeerEntry.advert, isStickyExplicitEndpoint, hend]
  cases relayOnly with
  | true => rfl
  | false =>
    simp only [Bool.false_eq_true, if_false, false_or]
    cases observed with
    | none =>
      have hnone : SocketAddr.parse ((Option.map SocketAddr.toString none).getD "") = none := rfl
      simp only [hnone]
      split <;> rfl
    | some obs =>
      obtain ⟨obs', hparse, hip⟩ := parse_observed obs
      simp only [Option.map_some, Option.getD_some, hparse]
      by_cases hs : e.advert.endpoint.isSome = true ∧ e.advert.reflexive = false
      · rw [if_pos (hsticky.mpr hs), if_pos hs]
      · rw [if_neg (fun hc => hs (hsticky.mp hc)), if_neg hs]
        cases wgListenPort with
        | none => simp [resolveListenEndpoint]
        | some port =>
          by_cases hpub : isPublic obs.ip = true
          · simp only [resolve_public (hip ▸ hpub), hip, hpub, if_true, true_and]
            by_cases hsame : some (reflexiveEndpoint obs.ip port) = e.listenEndpoint
            · -- the address has not changed, so the entry was marked before
              have hmarked : e.endpointIsReflexive = true := by
                by_contra hc
                apply hs
                simp only [PeerEntry.advert, ← hsame]
                exact ⟨rfl, Bool.eq_false_iff.mpr hc⟩
              rw [if_neg (fun hc => hc hsame)]
              simp only [PeerEntry.advert, ← hsame, hmarked]
            · rw [if_pos hsame]
              rfl
          · have hpub' : ¬ isPublic obs'.ip = true := by
              rw [hip]
              exact hpub
            simp [resolve_private hpub', hpub]

section

variable [Crates] {G : Uuid → Ipv6Addr → Prop}

omit [Crates] in
theorem advert_beaten (req : HeartbeatRequest) (now : Nat) (observed : Option SocketAddr)
    (e : PeerEntry) : (req.beaten now observed e).advert =
      e.advert.roam observed req.wgListenPort req.relayOnly :=
  advert_roamedEntry observed req.wgListenPort req.relayOnly _

theorem Coordinator.Registers.advert {c : Coordinator} {amb : Ambient} {req : RegisterRequest}
    {bearer : Option String} {observed : Option SocketAddr}
    {r : Coordinator × Except CoordinatorError (PeerEntry × RegisterOutcome)}
    (hr : c.Registers amb req bearer observed r) {entry : PeerEntry} {outcome : RegisterOutcome}
    (hans : r.2 = .ok (entry, outcome)) : entry.advert = req.resolved observed := by
  obtain ⟨claims, hwrites⟩ := hr.writes hans
  have hmark : entry.endpointIsReflexive = (req.resolved observed).reflexive := by
    cases hr with
    | refused | exhausted | turnedAway => simp at hans
    | refreshed | moved | joined =>
      obtain ⟨rfl, -⟩ := Prod.mk.inj (Except.ok.inj hans)
      rfl
  rw [PeerEntry.advert, hwrites.listenEndpoint, hmark]

def advertAfter (k : Uuid) (a : Option ResolvedEndpoint) : Op → Reply → Option ResolvedEndpoint
  | .register _ req _ observed, .register (.ok r) =>
    if r.entry.peerId = k then some (req.resolved observed) else a
  | .heartbeat _ req observed, .heartbeat (.ok _) =>
    if Uuid.parseStr req.peerId = .ok k then
      a.map (fun a => a.roam observed req.wgListenPort req.relayOnly)
    else a
  | _, _ => a

theorem Mesh.step_advert {s : Mesh} (h : s.coordinator.toRosterState.Inv G) {op : Op}
    (hlive : op.Live) {k : Uuid} {e' : PeerEntry}
    (he' : (s.step op).1.coordinator.roster.lookup k = some e') :
    advertAfter k ((s.coordinator.roster.lookup k).map PeerEntry.advert) op (s.step op).2 =
      some e'.advert := by
  cases op with
  | register amb req bearer observed =>
    have hr := Coordinator.registers amb req bearer observed h
    change (s.coordinator.registerHandler amb req bearer observed).1.roster.lookup k = some e' at he'
    change advertAfter k _ _ (.register (s.coordinator.registerHandler amb req bearer observed).2) = _
    by_cases hk : ∃ reg, (s.coordinator.registerHandler amb req bearer observed).2 = .ok reg ∧
        reg.entry.peerId = k
    · obtain ⟨reg, hans, rfl⟩ := hk
      have hentry := Coordinator.registerHandler_lookup amb req observed bearer h hans
      obtain rfl := Option.some.inj (he'.symm.trans hentry)
      rw [hans]
      simp only [advertAfter, if_true]
      rw [hr.advert (Coordinator.registerHandler_eq_ok hans).1]
    · have hkept : s.coordinator.roster.lookup k = some e' := by
        rw [Coordinator.registerHandler_fst] at he'
        have hothers := hr.others h (k := k) (fun entry outcome hans hid => by
          obtain ⟨reg, hreg, rfl⟩ := Coordinator.registerHandler_of_ok hans
          exact hk ⟨reg, hreg, hid⟩)
        rcases hothers with hgone | hsame
        · rw [hgone] at he'
          cases he'
        · rw [← hsame]
          exact he'
      rw [hkept]
      cases hans : (s.coordinator.registerHandler amb req bearer observed).2 with
      | error err => rfl
      | ok reg =>
        have hne : reg.entry.peerId ≠ k := fun hid => hk ⟨reg, hans, hid⟩
        simp only [advertAfter, if_neg hne]
        rfl
  | heartbeat amb req observed =>
    change (s.coordinator.heartbeatHandler amb req observed).1.roster.lookup k = some e' at he'
    change advertAfter k _ _ (.heartbeat (s.coordinator.heartbeatHandler amb req observed).2) = _
    rcases s.coordinator.heartbeatHandler_cases amb req observed with
      ⟨err, hsame⟩ | ⟨id, e, hid, he⟩
    · rw [hsame] at he' ⊢
      rw [he']
      rfl
    · have hans : ∃ resp, (s.coordinator.heartbeatHandler amb req observed).2 = .ok resp := by
        rw [Coordinator.heartbeatHandler_eq amb observed hid he]
        exact ⟨_, rfl⟩
      obtain ⟨resp, hans⟩ := hans
      rw [Coordinator.heartbeatHandler_roster h amb observed hid he, AList.lookup_modify] at he'
      rw [hans]
      simp only [advertAfter, hid]
      by_cases hk : k = id
      · subst hk
        rw [if_pos rfl, he] at he'
        rw [if_pos rfl, he, ← Option.some.inj he']
        simp only [Option.map_some]
        rw [← advert_beaten req amb.now observed e]
        rfl
      · have hne : ¬ (Except.ok id : Except String Uuid) = .ok k :=
          fun hc => hk (Except.ok.inj hc).symm
        rw [if_neg hk] at he'
        rw [if_neg hne, he']
        rfl
  | _ =>
    have hentry := s.step_entry h hlive k
    rw [he'] at hentry
    generalize s.coordinator.roster.lookup k = before at hentry
    cases hentry with
    | kept _ _ hsame => exact congrArg some hsame.advert.symm

end

end ServiceMesh
