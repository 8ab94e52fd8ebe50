import ServiceMesh.DialableEndpoints
import ServiceMesh.Restamp

/-! Whether an endpoint follows its peer's heartbeats is a matter of where it came from. The
requests of a run say it; the saved snapshot does not, and it may hold an older endpoint too. -/

namespace ServiceMesh

open StdNet (Ipv6Addr SocketAddr)

def RegisterRequest.Supplies (req : RegisterRequest) (text : String) : Prop :=
  req.relayOnly = false ∧ req.listenEndpoint = some text ∧ text ≠ ""

theorem RegisterRequest.Supplies.resolved {req : RegisterRequest} {text : String}
    (h : req.Supplies text) (observed : Option SocketAddr) :
    req.resolved observed = ⟨some text, false⟩ := by
  obtain ⟨hrelay, hend, hne⟩ := h
  have hkept : (some text).filter (fun s => decide (s ≠ "")) = some text := by
    simp [Option.filter, hne]
  simp only [RegisterRequest.resolved, resolveListenEndpoint, hrelay, hend]
  rw [hkept]
  rfl

theorem roam_supplied (text : String) (observed : Option SocketAddr) (wgListenPort : Option UInt16)
    (relayOnly : Bool) :
    (⟨some text, false⟩ : ResolvedEndpoint).roam observed wgListenPort relayOnly =
      ⟨some text, false⟩ :=
  if_pos (.inr ⟨rfl, rfl⟩)

theorem roam_derived (text : String) {obs : SocketAddr} (hpublic : isPublic obs.ip = true)
    (port : UInt16) :
    (⟨some text, true⟩ : ResolvedEndpoint).roam (some obs) (some port) false =
      ⟨some (reflexiveEndpoint obs.ip port), true⟩ := by
  simp [ResolvedEndpoint.roam, hpublic]

section

variable [Crates] {G : Uuid → Ipv6Addr → Prop}

def adverts (k : Uuid) : List (Op × Reply) → Option ResolvedEndpoint
  | [] => none
  | (op, reply) :: tr => advertAfter k (adverts k tr) op reply

def latestRegister (k : Uuid) : List (Op × Reply) → Option RegisterRequest
  | [] => none
  | (.register _ req _ _, .register (.ok r)) :: tr =>
    if r.entry.peerId = k then some req else latestRegister k tr
  | _ :: tr => latestRegister k tr

theorem adverts_of_supplied {k : Uuid} {req : RegisterRequest} {text : String}
    (hsup : req.Supplies text) {tr : List (Op × Reply)} (h : latestRegister k tr = some req) :
    adverts k tr = some ⟨some text, false⟩ := by
  induction tr with
  | nil => cases h
  | cons x tr ih =>
    obtain ⟨op, reply⟩ := x
    change advertAfter k (adverts k tr) op reply = _
    unfold latestRegister at h
    split at h
    · cases h
    · rename_i heq
      obtain ⟨hx, rfl⟩ := List.cons.inj heq
      obtain ⟨rfl, rfl⟩ := Prod.mk.inj hx
      simp only [advertAfter]
      split at h
      · rename_i hk
        rw [if_pos hk, Option.some.inj h, hsup.resolved]
      · rename_i hk
        rw [if_neg hk]
        exact ih h
    · rename_i hother heq
      obtain ⟨hx, rfl⟩ := List.cons.inj heq
      subst hx
      rw [ih h]
      unfold advertAfter
      split
      · exact (hother _ _ _ _ _ rfl).elim
      · split
        · rw [Option.map_some, roam_supplied]
        · rfl
      · rfl

theorem advertAfter_of_none {k : Uuid} {op : Op} {reply : Reply} {a : ResolvedEndpoint}
    (h : advertAfter k none op reply = some a) (before : Option ResolvedEndpoint) :
    advertAfter k before op reply = some a := by
  unfold advertAfter at h ⊢
  split at h
  · split at h
    · rename_i hk
      simp only [if_pos hk]
      exact h
    · cases h
  · split at h <;> cases h
  · cases h

def PeerJoined.endpoint (p : PeerJoined) : Option String :=
  if p.listenEndpoint = "" then none else some p.listenEndpoint

/-- A restart brings back only live peers, none of them with a derived endpoint, and the file has
each one's endpoint. -/
def RestoresEndpoints (s : Mesh) : Op → Prop
  | .restart _ _ file =>
    ∀ p ∈ s.coordinator.load file, ∃ e ∈ s.coordinator.roster.values,
      e.toJoinedEvent.peerId = p.peerId ∧ e.endpointIsReflexive = false ∧
        e.listenEndpoint = p.endpoint
  | _ => True

theorem Mesh.restart_advert {s : Mesh} (h : s.coordinator.toRosterState.Inv G) {cfg : Config}
    {now : Nat} {file : Option Nat} (hkeep : RestoresEndpoints s (.restart cfg now file)) {k : Uuid}
    {e' : PeerEntry}
    (he' : (s.step (.restart cfg now file)).1.coordinator.roster.lookup k = some e') :
    ∃ e, s.coordinator.roster.lookup k = some e ∧ e.advert = e'.advert := by
  obtain ⟨l, -, -, hload, hfrom⟩ := h.restart_restoredFrom now file
  obtain ⟨old, hold, hid, rfl⟩ := hfrom.roster.mp he'
  have hevent : old.toJoinedEvent ∈ s.coordinator.load file := by
    rw [hload]
    exact List.mem_map_of_mem hold
  obtain ⟨e, he, hpeer, hmark, hend⟩ := hkeep _ hevent
  obtain ⟨k', hk'⟩ := AList.mem_values_iff.mp he
  have hsame : e.peerId = old.peerId := Uuid.toString_inj.mp hpeer
  have hk : k' = k := (h.keyed hk').symm.trans (hsame.trans hid)
  subst hk
  refine ⟨e, hk', ?_⟩
  rw [restoredEntry, advert_restored, PeerEntry.advert, hmark, hend]
  rfl

theorem adverts_of_run {cfg : Config} {tr : List (Op × Reply)} {s : Mesh}
    (h : (mesh cfg).Run RestoresEndpoints tr s) :
    ∀ k e, s.coordinator.roster.lookup k = some e → adverts k tr = some e.advert := by
  refine Machine.Run.invariant
    (I := fun tr s => ∀ k e, s.coordinator.roster.lookup k = some e →
      adverts k tr = some e.advert) ?_ ?_ h
  · intro k e he
    cases he
  · intro tr s op hrun ih _ hkeep k e' he'
    have hinv := inv_of_run hrun
    by_cases hlive : op.Live
    · have hstep := Mesh.step_advert hinv hlive he'
      change advertAfter k (adverts k tr) op _ = _
      cases he : s.coordinator.roster.lookup k with
      | none =>
        rw [he] at hstep
        exact advertAfter_of_none hstep _
      | some e =>
        rw [he] at hstep
        rw [ih k e he]
        exact hstep
    · cases op with
      | restart cfg' now file =>
        obtain ⟨e, he, hsame⟩ := Mesh.restart_advert hinv hkeep he'
        change adverts k tr = _
        rw [ih k e he, hsame]
      | _ => exact absurd trivial hlive

/-- In every run whose snapshots know the endpoints of the peers they bring back, a peer is
advertised as its own requests determine, restarts or not. -/
theorem endpoint_stickiness_survives_restart {cfg : Config} {tr : List (Op × Reply)} {s : Mesh}
    (h : (mesh cfg).Run RestoresEndpoints tr s) {k : Uuid} {e : PeerEntry}
    (he : s.coordinator.roster.lookup k = some e) :
    adverts k tr = some e.advert ∧
      ∀ (amb : Ambient) (req : HeartbeatRequest) (obs : SocketAddr) (port : UInt16),
        Uuid.parseStr req.peerId = .ok k → req.relayOnly = false → req.wgListenPort = some port →
        isPublic obs.ip = true →
        ∃ e', (s.step (.heartbeat amb req (some obs))).1.coordinator.roster.lookup k = some e' ∧
          (∀ text, adverts k tr = some ⟨some text, true⟩ →
            e'.listenEndpoint = some (reflexiveEndpoint obs.ip port)) ∧
          ∀ reg text, latestRegister k tr = some reg → reg.Supplies text →
            e'.listenEndpoint = some text ∧ e.listenEndpoint = some text := by
  have hinv := inv_of_run h
  have hadverts := adverts_of_run h k e he
  refine ⟨hadverts, ?_⟩
  intro amb req obs port hid hrelay hport hpublic
  have hroster := Coordinator.heartbeatHandler_roster hinv amb (some obs) hid he
  have he' : (s.step (.heartbeat amb req (some obs))).1.coordinator.roster.lookup k =
      some (Coordinator.reported req (req.beaten amb.now (some obs) e)) := by
    change (s.coordinator.heartbeatHandler amb req (some obs)).1.roster.lookup k = _
    rw [hroster, AList.lookup_modify, if_pos rfl, he]
    rfl
  have hroam : (Coordinator.reported req (req.beaten amb.now (some obs) e)).advert =
      e.advert.roam (some obs) (some port) false := by
    change (req.beaten amb.now (some obs) e).advert = _
    rw [advert_beaten, hport, hrelay]
  refine ⟨_, he', ?_, ?_⟩
  · intro text hderived
    rw [Option.some.inj (hadverts.symm.trans hderived), roam_derived text hpublic] at hroam
    exact congrArg ResolvedEndpoint.endpoint hroam
  · intro reg text hreg hsup
    have hsupplied := Option.some.inj (hadverts.symm.trans (adverts_of_supplied hsup hreg))
    rw [hsupplied, roam_supplied] at hroam
    exact ⟨congrArg ResolvedEndpoint.endpoint hroam, congrArg ResolvedEndpoint.endpoint hsupplied⟩

end

instance [Crates] (s : Mesh) : (op : Op) → Decidable (RestoresEndpoints s op)
  | .restart _ _ file =>
    inferInstanceAs (Decidable (∀ p ∈ s.coordinator.load file, ∃ e ∈ s.coordinator.roster.values,
      e.toJoinedEvent.peerId = p.peerId ∧ e.endpointIsReflexive = false ∧
        e.listenEndpoint = p.endpoint))
  | .register .. | .heartbeat .. | .deregister .. | .sweep .. | .putPolicy .. | .postDirect ..
  | .setProactive .. | .postCommand .. | .openStream .. | .pollStream .. | .closeStream ..
  | .relayConnect .. | .relayUplink .. | .relayDeliver .. | .relaySendEnd ..
  | .relayDisconnect .. | .reorderRoster .. => .isTrue trivial

section Example

attribute [local instance] referenceCrates

def supplyOp (nowV7 : Uuid) (text : String) : Op :=
  .register (ambientAt 0 nowV7)
    { plainRequest keyOne "" none with listenEndpoint := some text, wgListenPort := some 51820 } none
    (some (.v4 ⟨10, 0, 0, 5⟩ 999))

def rebootOp : Op := .restart openConfig 0 (some 0)

def roamRequest : HeartbeatRequest :=
  ⟨Uuid.toString 1, some 51820, [], none, none, false, [], true, []⟩

def roamOp : Op := .heartbeat (ambientAt 0 0) roamRequest (some (.v4 ⟨9, 9, 9, 9⟩ 999))

theorem endpoint_stickiness_survives_restart_supplied :
    ∃ e', ((stateAfter openConfig [supplyOp 1 "10.0.0.5:51820", rebootOp]).step
        roamOp).1.coordinator.roster.lookup 1 = some e' ∧
      e'.listenEndpoint = some "10.0.0.5:51820" := by
  have hall : (mesh openConfig).Admissible RestoresEndpoints [] (Mesh.init openConfig)
        [supplyOp 1 "10.0.0.5:51820", rebootOp] ∧
      ((stateAfter openConfig [supplyOp 1 "10.0.0.5:51820", rebootOp]).coordinator.roster.lookup
        1).isSome = true ∧
      (latestRegister 1 (traceAfter openConfig [supplyOp 1 "10.0.0.5:51820", rebootOp])).map
        (fun req => (req.relayOnly, req.listenEndpoint)) = some (false, some "10.0.0.5:51820") := by
    decide +kernel
  obtain ⟨hadm, hlive, hreg⟩ := hall
  have hrun : (mesh openConfig).Run RestoresEndpoints
      (traceAfter openConfig [supplyOp 1 "10.0.0.5:51820", rebootOp])
      (stateAfter openConfig [supplyOp 1 "10.0.0.5:51820", rebootOp]) :=
    Machine.Run.start.exec hadm
  obtain ⟨e, he⟩ := Option.isSome_iff_exists.mp hlive
  obtain ⟨reg, hreg, hpair⟩ := Option.map_eq_some_iff.mp hreg
  obtain ⟨hrelay, hend⟩ := Prod.mk.inj hpair
  obtain ⟨e', he', -, hkept⟩ := (endpoint_stickiness_survives_restart hrun he).2 (ambientAt 0 0)
    roamRequest (.v4 ⟨9, 9, 9, 9⟩ 999) 51820 (by decide) rfl rfl (by decide)
  exact ⟨e', he', (hkept reg "10.0.0.5:51820" hreg ⟨hrelay, hend, by decide⟩).1⟩

def derivedOps : List Op := [natOp 1 keyOne (.v4 ⟨8, 8, 8, 8⟩ 999) 51820, rebootOp]

def suppliedOps : List Op :=
  [natOp 1 keyOne (.v4 ⟨10, 0, 0, 5⟩ 999) 51820, supplyOp 2 "10.0.0.5:51820", rebootOp]

theorem savesSucceed_derivedOps : ∀ op ∈ derivedOps, op.SavesSucceed := by
  intro op hop
  rcases List.mem_pair.mp hop with rfl | rfl
  · exact fun _ => rfl
  · rfl

theorem savesSucceed_suppliedOps : ∀ op ∈ suppliedOps, op.SavesSucceed := by
  intro op hop
  rcases List.mem_cons.mp hop with rfl | hop
  · exact fun _ => rfl
  · rcases List.mem_pair.mp hop with rfl | rfl
    · exact fun _ => rfl
    · rfl

/-- Every save succeeds; yet after a restart a derived endpoint no longer follows its peer, and an
endpoint that a register supplied is overwritten. -/
theorem restart_forgets_provenance :
    (∃ tr s e', (mesh openConfig).Run (fun _ op => op.SavesSucceed) tr s ∧
      adverts 1 tr = some ⟨some "8.8.8.8:51820", true⟩ ∧
      (s.step roamOp).1.coordinator.roster.lookup 1 = some e' ∧
      e'.listenEndpoint = some "8.8.8.8:51820") ∧
    ∃ tr s reg e', (mesh openConfig).Run (fun _ op => op.SavesSucceed) tr s ∧
      latestRegister 1 tr = some reg ∧ reg.Supplies "10.0.0.5:51820" ∧
      (s.step roamOp).1.coordinator.roster.lookup 1 = some e' ∧
      e'.listenEndpoint = some "9.9.9.9:51820" := by
  have hall : ((mesh openConfig).Admissible (fun _ _ => True) [] (Mesh.init openConfig) derivedOps ∧
        adverts 1 (traceAfter openConfig derivedOps) = some ⟨some "8.8.8.8:51820", true⟩ ∧
        (((stateAfter openConfig derivedOps).step roamOp).1.coordinator.roster.lookup 1).map
          PeerEntry.listenEndpoint = some (some "8.8.8.8:51820")) ∧
      (mesh openConfig).Admissible (fun _ _ => True) [] (Mesh.init openConfig) suppliedOps ∧
        (latestRegister 1 (traceAfter openConfig suppliedOps)).map
          (fun req => (req.relayOnly, req.listenEndpoint)) = some (false, some "10.0.0.5:51820") ∧
        (((stateAfter openConfig suppliedOps).step roamOp).1.coordinator.roster.lookup 1).map
          PeerEntry.listenEndpoint = some (some "9.9.9.9:51820") := by decide +kernel
  obtain ⟨⟨hadm, hderived, hend⟩, hadm', hreg, hend'⟩ := hall
  obtain ⟨e, he, hend⟩ := Option.map_eq_some_iff.mp hend
  obtain ⟨e', he', hend'⟩ := Option.map_eq_some_iff.mp hend'
  obtain ⟨reg, hreg, hpair⟩ := Option.map_eq_some_iff.mp hreg
  obtain ⟨hrelay, hsupplied⟩ := Prod.mk.inj hpair
  have hrun : (mesh openConfig).Run (fun _ op => op.SavesSucceed)
      (traceAfter openConfig derivedOps) (stateAfter openConfig derivedOps) :=
    (Machine.Run.start.exec (hadm.with_inputs savesSucceed_derivedOps)).mono (fun _ _ h => h.1)
  have hrun' : (mesh openConfig).Run (fun _ op => op.SavesSucceed)
      (traceAfter openConfig suppliedOps) (stateAfter openConfig suppliedOps) :=
    (Machine.Run.start.exec (hadm'.with_inputs savesSucceed_suppliedOps)).mono (fun _ _ h => h.1)
  exact ⟨⟨_, _, e, hrun, hderived, he, hend⟩,
    ⟨_, _, reg, e', hrun', hreg, ⟨hrelay, hsupplied, by decide⟩, he', hend'⟩⟩

end Example

end ServiceMesh
