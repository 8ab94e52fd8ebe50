import ServiceMesh.Disclosure

/-! Who is told to punch: a heartbeat emits one pair of directives for each other peer that
passes the gates on both sides, and the admin overrides do not depend on the order in which
the two peers of a pair are named. -/

namespace ServiceMesh

open StdNet (Ipv6Addr SocketAddr)

theorem canonicalPair_comm (a b : Uuid) : canonicalPair a b = canonicalPair b a := by
  unfold canonicalPair
  by_cases hab : a ≤ b
  · by_cases hba : b ≤ a
    · have heq : a = b := BitVec.le_antisymm hab hba
      rw [heq]
    · rw [if_pos hab, if_neg hba]
  · have hba : b ≤ a := BitVec.le_of_lt (BitVec.not_le.mp hab)
    rw [if_neg hab, if_pos hba]

theorem canonicalPair_eq_iff {a b x y : Uuid} :
    canonicalPair x y = canonicalPair a b ↔ x = a ∧ y = b ∨ x = b ∧ y = a := by
  constructor
  · intro h
    unfold canonicalPair at h
    by_cases hxy : x ≤ y <;> by_cases hab : a ≤ b
    · rw [if_pos hxy, if_pos hab] at h
      exact .inl (Prod.mk.inj h)
    · rw [if_pos hxy, if_neg hab] at h
      exact .inr (Prod.mk.inj h)
    · rw [if_neg hxy, if_pos hab] at h
      exact .inr (Prod.mk.inj h).symm
    · rw [if_neg hxy, if_neg hab] at h
      exact .inl (Prod.mk.inj h).symm
  · rintro (⟨rfl, rfl⟩ | ⟨rfl, rfl⟩)
    · rfl
    · exact canonicalPair_comm _ _

namespace DirectPairFlags

inductive Override
  | direct
  | relayPin
deriving DecidableEq, Repr

def overridden (f : DirectPairFlags) : Override → Uuid → Uuid → Bool
  | .direct => f.isDirect
  | .relayPin => f.isPinnedToRelay

structure Call where
  override : Override
  a : Uuid
  b : Uuid
  on : Bool
deriving DecidableEq, Repr

def call (f : DirectPairFlags) (c : Call) : DirectPairFlags :=
  match c.override with
  | .direct => f.setDirect c.a c.b c.on
  | .relayPin => f.setPinnedToRelay c.a c.b c.on

def Call.value (o : Override) (a b : Uuid) (c : Call) : Option Bool :=
  if c.override = o ∧ (c.a = a ∧ c.b = b ∨ c.a = b ∧ c.b = a) then some c.on else none

theorem overridden_comm (f : DirectPairFlags) (o : Override) (a b : Uuid) :
    f.overridden o a b = f.overridden o b a := by
  cases o with
  | direct =>
    simp only [overridden, isDirect]
    rw [canonicalPair_comm a b]
  | relayPin =>
    simp only [overridden, isPinnedToRelay]
    rw [canonicalPair_comm a b]

theorem lookup_set (m : DashMap PunchPair Bool) (x y a b : Uuid) (on : Bool) :
    ((if on then m.insert (canonicalPair x y) true else m.erase (canonicalPair x y)).lookup
        (canonicalPair a b)).getD false =
      if x = a ∧ y = b ∨ x = b ∧ y = a then on else (m.lookup (canonicalPair a b)).getD false := by
  by_cases hpair : x = a ∧ y = b ∨ x = b ∧ y = a
  · have hkey := canonicalPair_eq_iff.mpr hpair
    rw [if_pos hpair, hkey]
    cases on with
    | true => simp
    | false => simp
  · have hkey : canonicalPair a b ≠ canonicalPair x y :=
      fun h => hpair (canonicalPair_eq_iff.mp h.symm)
    rw [if_neg hpair]
    cases on with
    | true => simp [AList.lookup_insert_ne hkey]
    | false => simp [AList.lookup_erase_ne hkey]

theorem overridden_call (f : DirectPairFlags) (c : Call) (o : Override) (a b : Uuid) :
    (f.call c).overridden o a b = (c.value o a b).getD (f.overridden o a b) := by
  obtain ⟨kind, x, y, on⟩ := c
  have hset := fun m => lookup_set m x y a b on
  cases kind with
  | direct =>
    cases o with
    | direct =>
      have h := hset f.direct
      simp only [call, overridden, isDirect, setDirect, Call.value, true_and]
      rw [h]
      split <;> rfl
    | relayPin =>
      simp only [call, overridden, isPinnedToRelay, setDirect, Call.value, reduceCtorEq, false_and,
        if_false, Option.getD_none]
  | relayPin =>
    cases o with
    | direct =>
      simp only [call, overridden, isDirect, setPinnedToRelay, Call.value, reduceCtorEq, false_and,
        if_false, Option.getD_none]
    | relayPin =>
      have h := hset f.pinnedToRelay
      simp only [call, overridden, isPinnedToRelay, setPinnedToRelay, Call.value, true_and]
      rw [h]
      split <;> rfl

theorem overridden_calls (f : DirectPairFlags) (calls : List Call) (o : Override) (a b : Uuid) :
    (calls.foldl call f).overridden o a b =
      ((calls.filterMap (Call.value o a b)).getLast?).getD (f.overridden o a b) := by
  induction calls generalizing f with
  | nil => rfl
  | cons c calls ih =>
    rw [List.foldl_cons, ih, overridden_call]
    cases hv : c.value o a b with
    | none => rw [List.filterMap_cons_none hv, Option.getD_none]
    | some on =>
      rw [List.filterMap_cons_some hv, Option.getD_some, List.getLast?_cons]
      rfl

end DirectPairFlags

structure PeerEntry.Dialable (e : PeerEntry) (dial : String) : Prop where
  notRelayOnly : e.relayOnly = false
  observed : e.observedExternal ≠ ""
  endpoint : e.listenEndpoint = some dial
  nonempty : dial ≠ ""

namespace Coordinator

structure GateOpen (c : Coordinator) (a b : Uuid) : Prop where
  unpinned : c.directPairFlags.isPinnedToRelay a b = false
  enabled : c.proactive = true ∨ c.directPairFlags.isDirect a b = true

theorem punchPeerForPair_grounds {c : Coordinator} {e : PeerEntry} {other : Uuid} {p : PunchPeer}
    (h : c.punchPeerForPair e other = some p) :
    p.peerId = e.peerId ∧ e.Dialable p.dialEndpoint ∧ c.GateOpen e.peerId other := by
  have hpid := punchPeerForPair_eq_some h
  unfold punchPeerForPair at h
  by_cases hobs : e.observedExternal = ""
  · simp [hobs] at h
  · rw [if_neg hobs] at h
    cases hrelay : e.relayOnly with
    | true => simp [hrelay] at h
    | false =>
      cases hpin : c.directPairFlags.isPinnedToRelay e.peerId other with
      | true => simp [hrelay, hpin] at h
      | false =>
        simp only [hrelay, hpin, Bool.false_eq_true, if_false] at h
        by_cases hgate : (!c.proactive && !c.directPairFlags.isDirect e.peerId other) = true
        · simp [hgate] at h
        · rw [if_neg hgate] at h
          obtain ⟨dial, hdial, rfl⟩ := Option.map_eq_some_iff.mp h
          obtain ⟨hend, hne⟩ := Option.filter_eq_some_iff.mp hdial
          have henabled : c.proactive = true ∨
              c.directPairFlags.isDirect e.peerId other = true := by
            by_contra hc
            simp only [not_or, Bool.not_eq_true] at hc
            simp [hc.1, hc.2] at hgate
          exact ⟨hpid, ⟨hrelay, hobs, hend, by simpa using hne⟩, hpin, henabled⟩

end Coordinator

structure Emission where
  a : PunchPeer
  b : PunchPeer
  timestampMicros : Int
deriving DecidableEq, Repr

section

variable [Crates]

def Emission.directives (e : Emission) : List HolePunchInitiate :=
  [⟨e.a.peerId.toString, e.b.peerId.toString, e.b.dialEndpoint, e.timestampMicros⟩,
    ⟨e.b.peerId.toString, e.a.peerId.toString, e.a.dialEndpoint, e.timestampMicros⟩]

namespace Coordinator

structure Emits (c : Coordinator) (now : Int) (a b : PeerEntry) (e : Emission) : Prop where
  left : e.a.peerId = a.peerId
  right : e.b.peerId = b.peerId
  leftDialable : a.Dialable e.a.dialEndpoint
  rightDialable : b.Dialable e.b.dialEndpoint
  gate : c.GateOpen a.peerId b.peerId
  now : e.timestampMicros = now

theorem tryEmitPair_emits (t : PunchTracker) (pa pb : PunchPeer) (now : Int) :
    ∃ emission : Option Emission,
      (tryEmitPair t pa pb now).2.getD [] =
        emission.toList.flatMap (fun e => e.directives.map PeerEvent.holePunch) ∧
      ∀ e ∈ emission, e = ⟨pa, pb, now⟩ := by
  cases hemit : (tryEmitPair t pa pb now).2 with
  | none => exact ⟨none, rfl, by simp⟩
  | some events =>
    refine ⟨some ⟨pa, pb, now⟩, ?_, by simp⟩
    have hevents : events = punchDirectives pa pb now := by
      unfold tryEmitPair at hemit
      split at hemit
      · simp at hemit
      · split at hemit
        · simp at hemit
        · split at hemit
          · exact (Option.some.inj hemit).symm
          · simp at hemit
    rw [hevents]
    rfl

theorem tryEmitHolepunchPair_emits (now : Int) (a : PeerEntry) (c : Coordinator) (b : PeerEntry) :
    ∃ emission : Option Emission,
      (tryEmitHolepunchPair now a c b).broadcaster = c.broadcaster ++
        emission.toList.flatMap (fun e => e.directives.map PeerEvent.holePunch) ∧
      ∀ e ∈ emission, c.Emits now a b e := by
  unfold tryEmitHolepunchPair
  split
  · rename_i pa pb ha hb
    obtain ⟨hpa, hda, hgate⟩ := punchPeerForPair_grounds ha
    obtain ⟨hpb, hdb, -⟩ := punchPeerForPair_grounds hb
    obtain ⟨emission, hevents, hform⟩ := tryEmitPair_emits c.punchTracker pa pb now
    refine ⟨emission, ?_, ?_⟩
    · rw [← hevents]
      split
      · rename_i hemit
        rw [hemit]
        rfl
      · rename_i hemit
        rw [hemit]
        exact (List.append_nil _).symm
    · intro e he
      rw [hform e he]
      exact ⟨hpa, hpb, hda, hdb, hgate, rfl⟩
  · exact ⟨none, (List.append_nil _).symm, by simp⟩

theorem foldl_tryEmitHolepunchPair_emits (now : Int) (a : PeerEntry) (c : Coordinator)
    (candidates : List PeerEntry) (c' : Coordinator) (hgates : c.SameGates c') :
    ∃ emissions : List Emission,
      (candidates.foldl (tryEmitHolepunchPair now a) c').broadcaster = c'.broadcaster ++
        emissions.flatMap (fun e => e.directives.map PeerEvent.holePunch) ∧
      (emissions.map (fun e => e.b.peerId)).Sublist (candidates.map PeerEntry.peerId) ∧
      ∀ e ∈ emissions, ∃ b ∈ candidates, c.Emits now a b e := by
  induction candidates generalizing c' with
  | nil => exact ⟨[], (List.append_nil _).symm, List.Sublist.refl _, by simp⟩
  | cons b candidates ih =>
    have hnext := sameGates_tryEmitHolepunchPair now a c' b
    obtain ⟨emission, hlog, hemits⟩ := tryEmitHolepunchPair_emits now a c' b
    obtain ⟨emissions, hlogs, hsub, hall⟩ := ih (tryEmitHolepunchPair now a c' b)
      ⟨hnext.1.trans hgates.1, hnext.2.trans hgates.2⟩
    refine ⟨emission.toList ++ emissions, ?_, ?_, ?_⟩
    · rw [List.foldl_cons, hlogs, hlog, List.flatMap_append, List.append_assoc]
    · rw [List.map_append, List.map_cons, ← List.singleton_append]
      refine List.Sublist.append ?_ hsub
      cases emission with
      | none => exact List.nil_sublist _
      | some e =>
        have hb := (hemits e rfl).right
        simp only [Option.toList_some, List.map_cons, List.map_nil, hb]
        exact List.Sublist.refl _
    · intro e he
      rcases List.mem_append.mp he with hnew | hold
      · obtain ⟨hl, hr, hdl, hdr, hgate, hnow⟩ := hemits e (Option.mem_toList.mp hnew)
        have hgate' : c.GateOpen a.peerId b.peerId := by
          obtain ⟨hpin, hen⟩ := hgate
          rw [hgates.1] at hpin hen
          rw [hgates.2] at hen
          exact ⟨hpin, hen⟩
        exact ⟨b, List.mem_cons_self, hl, hr, hdl, hdr, hgate', hnow⟩
      · obtain ⟨b', hb', hemit⟩ := hall e hold
        exact ⟨b', List.mem_cons_of_mem b hb', hemit⟩

def DialableAt (c : Coordinator) (id : Uuid) (dial : String) : Prop :=
  ∃ e, c.roster.lookup id = some e ∧ e.Dialable dial

structure Punchable (c : Coordinator) (e : Emission) : Prop where
  distinct : e.a.peerId ≠ e.b.peerId
  left : c.DialableAt e.a.peerId e.a.dialEndpoint
  right : c.DialableAt e.b.peerId e.b.dialEndpoint
  gate : c.GateOpen e.a.peerId e.b.peerId

omit [Crates] in
theorem DialableAt.modify {c : Coordinator} {id : Uuid} {dial : String} (h : c.DialableAt id dial)
    (k : Uuid) {f : PeerEntry → PeerEntry} (hf : ∀ e, e.Dialable dial → (f e).Dialable dial) :
    ({ c with roster := c.roster.modify k f } : Coordinator).DialableAt id dial := by
  obtain ⟨e, he, hdial⟩ := h
  by_cases hk : id = k
  · refine ⟨f e, ?_, hf e hdial⟩
    rw [AList.lookup_modify, if_pos hk, he]
    rfl
  · refine ⟨e, ?_, hdial⟩
    rw [AList.lookup_modify, if_neg hk, he]

theorem DialableAt.recordReports {c : Coordinator} {id : Uuid} {dial : String}
    (h : c.DialableAt id dial) (k : Uuid) (req : HeartbeatRequest) :
    (c.recordReports k req).1.DialableAt id dial := by
  have hkeeps : ∀ (e e' : PeerEntry), e'.relayOnly = e.relayOnly →
      e'.observedExternal = e.observedExternal → e'.listenEndpoint = e.listenEndpoint →
      e.Dialable dial → e'.Dialable dial := by
    intro e e' hrelay hobs hend hd
    exact ⟨hrelay.trans hd.notRelayOnly, hobs ▸ hd.observed, hend.trans hd.endpoint, hd.nonempty⟩
  have hpaths : (c.recordPeerPaths k req.peerPaths).DialableAt id dial := by
    unfold recordPeerPaths
    split
    · exact h
    · exact h.modify k (fun e => hkeeps e _ rfl rfl rfl)
  have hhealth : ((c.recordPeerPaths k req.peerPaths).recordDataplaneHealth k
      req.dataplaneHealthy).DialableAt id dial :=
    hpaths.modify k (fun e => hkeeps e _ rfl rfl rfl)
  have hacks : (((c.recordPeerPaths k req.peerPaths).recordDataplaneHealth k
      req.dataplaneHealthy).ackCommands k req.executedCommandIds).DialableAt id dial := by
    unfold ackCommands
    split
    · exact hhealth
    · exact hhealth.modify k (fun e => hkeeps e _ rfl rfl rfl)
  exact hacks.modify k (fun e => hkeeps e _ rfl rfl rfl)

theorem sameGates_recordReports (c : Coordinator) (k : Uuid) (req : HeartbeatRequest) :
    c.SameGates (c.recordReports k req).1 := by
  simp only [recordReports, drainCommands, ackCommands, recordDataplaneHealth, recordPeerPaths]
  split <;> split <;> exact ⟨rfl, rfl⟩

omit [Crates] in
theorem SameGates.gateOpen {c c' : Coordinator} (h : c.SameGates c') {a b : Uuid}
    (hgate : c.GateOpen a b) : c'.GateOpen a b := by
  obtain ⟨hpin, hen⟩ := hgate
  refine ⟨?_, ?_⟩
  · rw [h.1]
    exact hpin
  · rw [h.1, h.2]
    exact hen

theorem sameGates_tryEmitHolepunchPairs (c : Coordinator) (now : Int) (a : PeerEntry) :
    c.SameGates (c.tryEmitHolepunchPairs now a) := by
  have hloop : ∀ (candidates : List PeerEntry) (c' : Coordinator), c.SameGates c' →
      c.SameGates (candidates.foldl (tryEmitHolepunchPair now a) c') := by
    intro candidates
    induction candidates with
    | nil => exact fun c' h => h
    | cons b candidates ih =>
      intro c' h
      have hnext := sameGates_tryEmitHolepunchPair now a c' b
      exact ih _ ⟨hnext.1.trans h.1, hnext.2.trans h.2⟩
  exact hloop _ c ⟨rfl, rfl⟩

/-- The heartbeat of `id` announces it and then emits pairs, each for another peer and each
through gates that are open once the heartbeat is done. -/
theorem heartbeatHandler_emits {G : Uuid → Ipv6Addr → Prop} {c : Coordinator}
    (h : c.toRosterState.Inv G) (amb : Ambient) {req : HeartbeatRequest}
    (observed : Option SocketAddr) {id : Uuid} {old : PeerEntry}
    (hid : Uuid.parseStr req.peerId = .ok id) (hold : c.roster.lookup id = some old) :
    ∃ (info : PeerInfo) (emissions : List Emission),
      (c.heartbeatHandler amb req observed).1.broadcaster = c.broadcaster ++
        .updated info :: emissions.flatMap (fun e => e.directives.map PeerEvent.holePunch) ∧
      (emissions.map (fun e => e.b.peerId)).Nodup ∧
      ∀ e ∈ emissions, e.a.peerId = id ∧ e.timestampMicros = amb.nowUnixMicros ∧
        (c.heartbeatHandler amb req observed).1.Punchable e := by
  let a := req.beaten amb.now observed old
  let c₁ : Coordinator := (({ c with roster := c.roster.modify id (req.beaten amb.now observed) } :
    Coordinator).broadcast (.updated a.toInfo))
  have haid : a.peerId = id := (sameSeat_beatenEntry _ _ _ _ _ _ _ old).peerId.trans (h.keyed hold)
  have hkept : RosterState.SeatsKept c.toRosterState c₁.toRosterState :=
    c.seatsKept_modify id (sameSeat_beatenEntry _ _ _ _ _ _ _)
  have hinv : c₁.toRosterState.Inv G := hkept.steps.inv_quiet h
  obtain ⟨emissions, hlogs, hsub, hemits⟩ := foldl_tryEmitHolepunchPair_emits amb.nowUnixMicros a
    c₁ (c₁.roster.values.filter (fun e => e.peerId != a.peerId)) c₁ ⟨rfl, rfl⟩
  have hans : (c.heartbeatHandler amb req observed).1 =
      ((c₁.tryEmitHolepunchPairs amb.nowUnixMicros a).recordReports a.peerId req).1 := by
    rw [heartbeatHandler_eq amb observed hid hold]
    rfl
  have hgates : c₁.SameGates (c.heartbeatHandler amb req observed).1 := by
    have h₁ := c₁.sameGates_tryEmitHolepunchPairs amb.nowUnixMicros a
    have h₂ := (c₁.tryEmitHolepunchPairs amb.nowUnixMicros a).sameGates_recordReports a.peerId req
    rw [hans]
    exact ⟨h₂.1.trans h₁.1, h₂.2.trans h₁.2⟩
  have hdialable : ∀ {k dial e}, c₁.roster.lookup k = some e → e.Dialable dial →
      (c.heartbeatHandler amb req observed).1.DialableAt k dial := by
    intro k dial e he hd
    rw [hans]
    refine DialableAt.recordReports ⟨e, ?_, hd⟩ _ _
    rw [toRosterState_tryEmitHolepunchPairs]
    exact he
  refine ⟨a.toInfo, emissions, ?_, ?_, ?_⟩
  · rw [hans, broadcaster_recordReports]
    exact hlogs.trans (List.append_assoc _ _ _)
  · have hids : (c₁.roster.values.map PeerEntry.peerId).Nodup := by
      refine AList.nodup_map_values _ ?_
      intro k k' e e' he he' heq
      rw [← hinv.keyed he, ← hinv.keyed he', heq]
    exact (hids.sublist (List.filter_sublist.map _)).sublist hsub
  · intro e he
    obtain ⟨b, hb, hl, hr, hdl, hdr, hgate, hnow⟩ := hemits e he
    obtain ⟨hmem, hne⟩ := List.mem_filter.mp hb
    obtain ⟨k, hk⟩ := AList.mem_values_iff.mp hmem
    have hla : c₁.roster.lookup a.peerId = some a := by
      show (c.roster.modify id _).lookup a.peerId = some a
      rw [haid, AList.lookup_modify, if_pos rfl, hold]
      rfl
    have hlb : c₁.roster.lookup b.peerId = some b := by
      rw [hinv.keyed hk]
      exact hk
    refine ⟨hl.trans haid, hnow, ?_, ?_, ?_, ?_⟩
    · rw [hl, hr]
      exact fun hc => by simp [hc] at hne
    · rw [hl]
      exact hdialable hla hdl
    · rw [hr]
      exact hdialable hlb hdr
    · rw [hl, hr]
      exact hgates.gateOpen hgate

end Coordinator

def PeerEvent.punch : PeerEvent → Option HolePunchInitiate
  | .holePunch hp => some hp
  | _ => none

def Mesh.punches (s : Mesh) (op : Op) : List HolePunchInitiate :=
  ((s.step op).1.coordinator.broadcaster.drop s.coordinator.broadcaster.length).filterMap
    PeerEvent.punch

theorem punch_directives (emissions : List Emission) :
    (emissions.flatMap (fun e => e.directives.map PeerEvent.holePunch)).filterMap PeerEvent.punch =
      emissions.flatMap Emission.directives := by
  induction emissions with
  | nil => rfl
  | cons e emissions ih =>
    rw [List.flatMap_cons, List.flatMap_cons, List.filterMap_append, ih]
    rfl

theorem Mesh.punches_eq_nil {G : Uuid → Ipv6Addr → Prop} {s : Mesh}
    (h : s.coordinator.toRosterState.Inv G) {op : Op}
    (hop : ∀ amb req observed id old, op = .heartbeat amb req observed →
      Uuid.parseStr req.peerId = .ok id → s.coordinator.roster.lookup id ≠ some old) :
    s.punches op = [] := by
  by_cases hlive : op.Live
  · obtain ⟨new, hnew, hjust⟩ := s.step_logs h hlive
    rw [Mesh.punches, hnew, List.drop_left, List.filterMap_eq_nil_iff]
    intro event hevent
    rcases hjust event hevent with hann | ⟨amb, req, observed, a, b, rfl, hfind, -⟩ | ⟨rw, rfl, -⟩
    · cases event with
      | holePunch hp => exact hann.elim
      | _ => rfl
    · obtain ⟨id, hid, hlook⟩ := hfind.beats
      exact absurd hlook (hop amb req observed id a rfl hid)
    · rfl
  · cases op with
    | restart cfg now file => simp [Mesh.punches, Mesh.step, Coordinator.restart, Coordinator.new]
    | _ => exact absurd trivial hlive

structure Emission.Gated (s : Mesh) (op : Op) (e : Emission) : Prop where
  beats : ∃ amb req observed, op = .heartbeat amb req observed ∧
    Uuid.parseStr req.peerId = .ok e.a.peerId ∧ e.timestampMicros = amb.nowUnixMicros
  punchable : (s.step op).1.coordinator.Punchable e

theorem Mesh.punches_emitted {G : Uuid → Ipv6Addr → Prop} {s : Mesh}
    (h : s.coordinator.toRosterState.Inv G) (op : Op) :
    ∃ emissions : List Emission, s.punches op = emissions.flatMap Emission.directives ∧
      (emissions.map (fun e => e.b.peerId)).Nodup ∧ ∀ e ∈ emissions, e.Gated s op := by
  by_cases hop : ∃ amb req observed id old, op = .heartbeat amb req observed ∧
      Uuid.parseStr req.peerId = .ok id ∧ s.coordinator.roster.lookup id = some old
  · obtain ⟨amb, req, observed, id, old, rfl, hid, hold⟩ := hop
    obtain ⟨info, emissions, hlog, hnd, hgated⟩ :=
      Coordinator.heartbeatHandler_emits h amb observed hid hold
    refine ⟨emissions, ?_, hnd, ?_⟩
    · have hstep : (s.step (.heartbeat amb req observed)).1.coordinator =
          (s.coordinator.heartbeatHandler amb req observed).1 := rfl
      rw [Mesh.punches, hstep, hlog, List.drop_left]
      exact punch_directives emissions
    · intro e he
      obtain ⟨ha, hnow, hpunch⟩ := hgated e he
      exact ⟨⟨amb, req, observed, rfl, by rw [ha]; exact hid, hnow⟩, hpunch⟩
  · refine ⟨[], ?_, List.nodup_nil, by simp⟩
    apply Mesh.punches_eq_nil h
    intro amb req observed id old hop' hid hold
    exact hop ⟨amb, req, observed, id, old, hop', hid, hold⟩

theorem punches_gated (cfg : Config) :
    (∀ tr s, (mesh cfg).Reach tr s → ∀ op, ∃ emissions : List Emission,
      s.punches op = emissions.flatMap Emission.directives ∧
      (emissions.map (fun e => e.b.peerId)).Nodup ∧ ∀ e ∈ emissions, e.Gated s op) ∧
    (∀ (flags : DirectPairFlags) (calls : List DirectPairFlags.Call)
        (o : DirectPairFlags.Override) (a b : Uuid),
      (calls.foldl DirectPairFlags.call flags).overridden o a b =
        (calls.foldl DirectPairFlags.call flags).overridden o b a ∧
      (calls.foldl DirectPairFlags.call flags).overridden o a b =
        ((calls.filterMap (DirectPairFlags.Call.value o a b)).getLast?).getD (flags.overridden o a b)) := by
  refine ⟨?_, ?_⟩
  · intro tr s h op
    exact Mesh.punches_emitted (inv_of_reach h) op
  · intro flags calls o a b
    exact ⟨DirectPairFlags.overridden_comm _ o a b, flags.overridden_calls calls o a b⟩

end

attribute [local instance] referenceCrates

theorem punches_gated_beat :
    (stateAfter eagerConfig (pairOps [tagSystem])).punches beatOp =
        [⟨Uuid.toString 1, Uuid.toString 2, "1.1.1.2:1", 0⟩,
          ⟨Uuid.toString 2, Uuid.toString 1, "1.1.1.1:1", 0⟩] ∧
      ∃ emissions : List Emission, (stateAfter eagerConfig (pairOps [tagSystem])).punches beatOp =
        emissions.flatMap Emission.directives ∧
        ∀ e ∈ emissions, e.Gated (stateAfter eagerConfig (pairOps [tagSystem])) beatOp := by
  have hall : (mesh eagerConfig).Admissible (fun _ _ => True) [] (Mesh.init eagerConfig)
        (pairOps [tagSystem]) ∧
      (stateAfter eagerConfig (pairOps [tagSystem])).punches beatOp =
        [⟨Uuid.toString 1, Uuid.toString 2, "1.1.1.2:1", 0⟩,
          ⟨Uuid.toString 2, Uuid.toString 1, "1.1.1.1:1", 0⟩] := by decide +kernel
  obtain ⟨emissions, hpunches, -, hgated⟩ :=
    (punches_gated eagerConfig).1 _ _ (reach_of_admissible hall.1) beatOp
  exact ⟨hall.2, emissions, hpunches, hgated⟩

end ServiceMesh
