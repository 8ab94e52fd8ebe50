import ServiceMesh.DataPlane

/-! The peer id that a session carries. A session gets its id when it is built; a record that
finds a session with its own key leaves the id as it was. Removals, punch directives and path
reports find a session by that id. -/

namespace ServiceMesh

open StdNet (Ipv6Addr SocketAddr)
open PeerSession (SameSession)

structure PunchPlan where
  session : SessionId × PeerSession
  endpoint : SocketAddr
deriving DecidableEq

def SessionTable.planPunch [Crates] (t : SessionTable) (order : SessionId → Nat) (myPeerId : Uuid)
    (event : HolePunchInitiate) : Option PunchPlan :=
  if event.initiatorPeerId ≠ myPeerId.toString then none
  else
    (SocketAddr.parse event.targetExternalEndpoint).bind (fun endpoint =>
      (Uuid.parseStr event.targetPeerId).toOption.bind (fun targetId =>
        ((t.visited order).find? (fun c => c.2.peerId = targetId)).map
          (fun session => ⟨session, endpoint⟩)))

def SyncOp.records [Crates] : SyncOp → List Client.PeerInfo
  | .event lookupHost (.added r) | .event lookupHost (.updated r) =>
    (Client.remoteToInfo lookupHost r).toOption.toList
  | .event _ (.removed _) => []
  | .reconcile lookupHost remote => Client.decodeRoster lookupHost remote
  | .learn _ _ | .downgrade _ => []

def recordId (ids : Ipv6Addr → Option Uuid) (info : Client.PeerInfo) : Ipv6Addr → Option Uuid :=
  Function.update ids info.ula (some info.peerId)

def recorded [Crates] : List (SyncOp × Unit) → Ipv6Addr → Option Uuid
  | [] => fun _ => none
  | (op, _) :: tr => op.records.foldl recordId (recorded tr)

namespace SessionTable

/-- A record whose key the session at its address has names the peer of that session. -/
def Renews (t : SessionTable) (info : Client.PeerInfo) : Prop :=
  ∀ id s, t.sessionAt info.ula = some (id, s) → s.peerPubkey = info.wgPublicKey →
    s.peerId = info.peerId

def RenewsAll (t : SessionTable) : List Client.PeerInfo → Prop
  | [] => True
  | info :: infos => t.Renews info ∧ (t.follow info).RenewsAll infos

def CarriesIds (t : SessionTable) (ids : Ipv6Addr → Option Uuid) : Prop :=
  ∀ ula id s, t.sessionAt ula = some (id, s) → ids ula = some s.peerId

variable {t : SessionTable} {ids : Ipv6Addr → Option Uuid}

theorem CarriesIds.of_sub (h : t.CarriesIds ids) {t' : SessionTable}
    (hsub : ∀ ula id s', t'.sessionAt ula = some (id, s') →
      ∃ s, t.sessionAt ula = some (id, s) ∧ s'.peerId = s.peerId) : t'.CarriesIds ids := by
  intro ula id s' hat'
  obtain ⟨s, hat, hid⟩ := hsub ula id s' hat'
  rw [hid]
  exact h ula id s hat

def idAfter (t : SessionTable) (info : Client.PeerInfo) : Uuid :=
  match t.sessionAt info.ula with
  | some (_, old) => if old.peerPubkey = info.wgPublicKey then old.peerId else info.peerId
  | none => info.peerId

variable {info : Client.PeerInfo}

theorem idAfter_eq_iff : t.idAfter info = info.peerId ↔ t.Renews info := by
  unfold idAfter Renews
  cases hat : t.sessionAt info.ula with
  | none => simp
  | some c =>
    obtain ⟨id, old⟩ := c
    by_cases hkey : old.peerPubkey = info.wgPublicKey
    · simp [hkey]
    · simp [hkey]

theorem freshSession_peerId (t : SessionTable) (info : Client.PeerInfo) (isNew : Bool) :
    (t.freshSession info isNew).peerId = info.peerId := by
  cases isNew <;> simp [freshSession, PeerSession.foldl_addAllowedSource]

theorem upsert_peerId {id : SessionId} {s : PeerSession}
    (hat : (t.upsert info).sessionAt info.ula = some (id, s)) : s.peerId = t.idAfter info := by
  have hu := t.upserts info
  generalize t.upsert info = t' at hu hat
  cases hu with
  | @kept id' old hold hkey =>
    obtain ⟨hid', hs'⟩ := sessionAt_eq_some_iff.mp hold
    obtain ⟨hid, hs⟩ := sessionAt_eq_some_iff.mp hat
    have htouched : Touched t.heap ((t.addRoute info.ula).updateInPlace id' old info).heap :=
      touched_modify _ _ ((t.addRoute info.ula).sameSession_updated info)
    obtain ⟨s₀, hs₀, hsame⟩ := htouched.lookup_back hs
    have hids : id' = id := Option.some.inj (hid'.symm.trans hid)
    rw [hids] at hs'
    rw [hsame.peerId, Option.some.inj (hs₀.symm.trans hs')]
    simp [idAfter, hold, hkey]
  | @rotated id' old hold hkey =>
    rw [sessionAt_install, Option.some.injEq, Prod.mk.injEq] at hat
    rw [← hat.2, freshSession_peerId]
    simp [idAfter, hold, hkey]
  | inserted hold =>
    rw [sessionAt_install, Option.some.injEq, Prod.mk.injEq] at hat
    rw [← hat.2, freshSession_peerId]
    simp [idAfter, hold]

theorem follow_peerId {id : SessionId} {s : PeerSession}
    (hat : (t.follow info).sessionAt info.ula = some (id, s)) : s.peerId = t.idAfter info := by
  have hspec := (t.upsert info).reconcileAppRoutes_spec info.ula info.hostedAppUlas
  obtain ⟨hid, hs⟩ := sessionAt_eq_some_iff.mp hat
  have htouched : Touched (t.upsert info).heap (t.follow info).heap := by
    rw [SessionTable.follow, hspec.heap]
    exact touched_modifyAt _ _ (fun s => ⟨rfl, rfl, rfl⟩)
  obtain ⟨s₀, hs₀, hsame⟩ := htouched.lookup_back hs
  rw [SessionTable.follow, hspec.byUla] at hid
  rw [hsame.peerId]
  exact upsert_peerId (sessionAt_eq_some_iff.mpr ⟨hid, hs₀⟩)

theorem Inv.renews_iff (h : t.Inv) :
    t.Renews info ↔
      ∀ id s, (t.follow info).sessionAt info.ula = some (id, s) → s.peerId = info.peerId := by
  rw [← idAfter_eq_iff]
  constructor
  · intro hid id s hat
    rw [follow_peerId hat, hid]
  · intro hall
    obtain ⟨id, s, hat, -⟩ := (h.follow_spec info).here
    rw [← follow_peerId hat]
    exact hall id s hat

theorem Inv.carriesIds_follow (h : t.Inv) (hids : t.CarriesIds ids) (hrenews : t.Renews info) :
    (t.follow info).CarriesIds (recordId ids info) := by
  have hf := h.follow_spec info
  intro ula id s' hat'
  by_cases hula : ula = info.ula
  · rw [hula] at hat'
    rw [recordId, hula, Function.update_self, h.renews_iff.mp hrenews id s' hat']
  · rw [recordId, Function.update_of_ne hula]
    obtain ⟨hid', hs'⟩ := sessionAt_eq_some_iff.mp hat'
    rw [hf.others hula] at hid'
    obtain ⟨s, hat, -⟩ := h.sessionAt hid'
    obtain ⟨s₁, hs₁, hsame⟩ := hf.sessions (sessionAt_eq_some_iff.mp hat).2
    rw [Option.some.inj (hs'.symm.trans hs₁), hsame.peerId]
    exact hids ula id s hat

theorem Inv.mem_foldl_follow (h : t.Inv) (infos : List Client.PeerInfo) {ula : Ipv6Addr} :
    ula ∈ (infos.foldl SessionTable.follow t).byUla ↔
      ula ∈ infos.map Client.PeerInfo.ula ∨ ula ∈ t.byUla := by
  induction infos generalizing t with
  | nil => simp
  | cons info infos ih =>
    rw [List.foldl_cons, ih (h.follow info), (h.follow_spec info).mem, List.map_cons,
      List.mem_cons]
    tauto

theorem Inv.carriesIds_foldl_follow (h : t.Inv) (hids : t.CarriesIds ids)
    {infos : List Client.PeerInfo} (hrenews : t.RenewsAll infos) :
    (infos.foldl SessionTable.follow t).CarriesIds (infos.foldl recordId ids) := by
  induction infos generalizing t ids with
  | nil => exact hids
  | cons info infos ih =>
    exact ih (h.follow info) (h.carriesIds_follow hids hrenews.1) hrenews.2

theorem SyncInv.sessionAt_remove (h : t.SyncInv) (gone ula : Ipv6Addr) :
    (t.remove gone).1.sessionAt ula = if ula = gone then none else t.sessionAt ula := by
  have hr := h.removed gone
  unfold SessionTable.sessionAt
  rw [hr.byUla, hr.heap]
  by_cases hula : ula = gone
  · simp [hula]
  · simp [hula]

theorem SyncInv.sessionAt_removeStale (h : t.SyncInv) (peerId : Uuid)
    (candidate : SessionId × PeerSession) (ula : Ipv6Addr) :
    (SessionTable.removeStale peerId t candidate).sessionAt ula =
      if ula = candidate.2.ula then (t.sessionAt ula).filter (fun c => c.2.peerId ≠ peerId)
      else t.sessionAt ula := by
  by_cases hula : ula = candidate.2.ula
  · rw [if_pos hula, SessionTable.removeStale, SessionTable.carrier, ← hula]
    cases hat : t.sessionAt ula with
    | none =>
      -- the address has no session any more, so there is nothing to remove at it
      have hremove : (t.remove ula).1 = t := by simp [SessionTable.remove, hat]
      rw [hremove, Option.none_or]
      split
      · simp [hat]
      · simp [hat]
    | some c =>
      obtain ⟨id, live⟩ := c
      by_cases hlive : live.peerId = peerId
      · simp [hlive, h.sessionAt_remove, Option.filter]
      · simp [hlive, hat, Option.filter]
  · rw [if_neg hula, SessionTable.removeStale]
    split
    · split
      · rw [h.sessionAt_remove, if_neg hula]
      · rfl
    · rfl

theorem SyncInv.sessionAt_foldl_removeStale (h : t.SyncInv) (peerId : Uuid)
    (candidates : List (SessionId × PeerSession)) (ula : Ipv6Addr) :
    (candidates.foldl (SessionTable.removeStale peerId) t).sessionAt ula =
      if ∃ c ∈ candidates, ula = c.2.ula then
        (t.sessionAt ula).filter (fun c => c.2.peerId ≠ peerId)
      else t.sessionAt ula := by
  induction candidates generalizing t with
  | nil => simp
  | cons c candidates ih =>
    rw [List.foldl_cons, ih (h.removeStale peerId c), h.sessionAt_removeStale]
    by_cases hula : ula = c.2.ula
    · simp [hula, Option.filter_filter]
    · have hrest : (∃ d ∈ c :: candidates, ula = d.2.ula) ↔ ∃ d ∈ candidates, ula = d.2.ula := by
        simp [hula]
      simp only [hula, if_false, hrest]

theorem SyncInv.sessionAt_removePeer (h : t.SyncInv) (peerId : Uuid) (ula : Ipv6Addr) :
    (t.removePeer peerId).sessionAt ula =
      (t.sessionAt ula).filter (fun c => c.2.peerId ≠ peerId) := by
  rw [SessionTable.removePeer, h.sessionAt_foldl_removeStale]
  split
  · rfl
  · rename_i hnone
    cases hat : t.sessionAt ula with
    | none => rfl
    | some c =>
      have hula : c.2.ula = ula := by
        obtain ⟨s, hs, hula⟩ := h.inv.sessionAt (sessionAt_eq_some_iff.mp hat).1
        rw [hat, Option.some.injEq] at hs
        rw [hs]
        exact hula
      have hother : c.2.peerId ≠ peerId := by
        intro hid
        refine hnone ⟨c, List.mem_filter.mpr ⟨mem_snapshot_iff.mpr ⟨ula, hat⟩, ?_⟩, hula.symm⟩
        simpa using hid
      simp [Option.filter, hother]

theorem SyncInv.sessionAt_prune (h : t.SyncInv) {remoteUlas : List Ipv6Addr} {ula : Ipv6Addr}
    {c : SessionId × PeerSession} (hat : (t.prune remoteUlas).sessionAt ula = some c) :
    t.sessionAt ula = some c := by
  have hp := h.foldl_pruneAt_spec remoteUlas t.ulas
  obtain ⟨hid, hs⟩ := sessionAt_eq_some_iff.mp hat
  rw [SessionTable.prune] at hid hs
  by_cases hgone : ula ∈ t.ulas ∧ ula ∉ remoteUlas
  · rw [hp.absent ula hgone] at hid
    simp at hid
  · rw [hp.byUla ula hgone] at hid
    rw [hp.heap] at hs
    exact sessionAt_eq_some_iff.mpr ⟨hid, hs⟩

theorem exists_planPunch [Crates] (order : SessionId → Nat) {ula : Ipv6Addr}
    {c : SessionId × PeerSession} (hat : t.sessionAt ula = some c) {myPeerId : Uuid}
    {event : HolePunchInitiate} (hinitiator : event.initiatorPeerId = myPeerId.toString)
    {endpoint : SocketAddr}
    (hendpoint : SocketAddr.parse event.targetExternalEndpoint = some endpoint)
    (htarget : Uuid.parseStr event.targetPeerId = .ok c.2.peerId) :
    ∃ ula' c', t.planPunch order myPeerId event = some ⟨c', endpoint⟩ ∧
      t.sessionAt ula' = some c' ∧ c'.2.peerId = c.2.peerId := by
  have hmem : c ∈ t.visited order := by
    rw [visited, List.mem_mergeSort]
    exact mem_snapshot_iff.mpr ⟨ula, hat⟩
  cases hfind : (t.visited order).find? (fun c' => c'.2.peerId = c.2.peerId) with
  | none =>
    have hnot := List.find?_eq_none.mp hfind c hmem
    simp at hnot
  | some c' =>
    have hmem' := List.mem_of_find?_eq_some hfind
    rw [visited, List.mem_mergeSort] at hmem'
    obtain ⟨ula', hat'⟩ := mem_snapshot_iff.mp hmem'
    have hid : c'.2.peerId = c.2.peerId := by simpa using List.find?_some hfind
    refine ⟨ula', c', ?_, hat', hid⟩
    simp [planPunch, hinitiator, hendpoint, htarget, Except.toOption, hfind]

variable [Crates]

def KeepsIds (t : SessionTable) (op : SyncOp) : Prop := t.RenewsAll op.records

theorem SyncInv.carriesIds_step (h : t.SyncInv) (hids : t.CarriesIds ids) {op : SyncOp}
    (hkeeps : t.KeepsIds op) : (t.syncStep op).1.CarriesIds (op.records.foldl recordId ids) := by
  cases op with
  | event lookupHost e =>
    cases e with
    | added r | updated r =>
      simp only [KeepsIds, SyncOp.records] at hkeeps
      simp only [syncStep, applyEvent, SyncOp.records]
      cases hinfo : Client.remoteToInfo lookupHost r with
      | error e => exact hids
      | ok info =>
        rw [hinfo] at hkeeps
        exact h.inv.carriesIds_follow hids hkeeps.1
    | removed peerId =>
      refine hids.of_sub ?_
      intro ula id s hat
      change (t.removePeer peerId).sessionAt ula = some (id, s) at hat
      rw [h.sessionAt_removePeer, Option.filter_eq_some_iff] at hat
      exact ⟨s, hat.1, rfl⟩
  | reconcile lookupHost remote =>
    refine (h.inv.carriesIds_foldl_follow hids hkeeps).of_sub ?_
    intro ula id s hat
    exact ⟨s, (h.foldl_follow _).sessionAt_prune hat, rfl⟩
  | learn ula source =>
    refine hids.of_sub ?_
    intro ula' id s' hat'
    simp only [syncStep] at hat'
    cases hid : t.byUla.lookup ula with
    | none =>
      rw [hid] at hat'
      exact ⟨s', hat', rfl⟩
    | some id' =>
      rw [hid] at hat'
      obtain ⟨hid', hs'⟩ := sessionAt_eq_some_iff.mp hat'
      have htouched : Touched t.heap (t.learnEndpoint id' source).heap :=
        touched_modify _ _ (fun s => s.sameSession_learn source)
      obtain ⟨s, hs, hsame⟩ := htouched.lookup_back hs'
      exact ⟨s, sessionAt_eq_some_iff.mpr ⟨hid', hs⟩, hsame.peerId⟩
  | downgrade ula =>
    refine hids.of_sub ?_
    intro ula' id s' hat'
    obtain ⟨hid', hs'⟩ := sessionAt_eq_some_iff.mp hat'
    have htouched : Touched t.heap (t.downgrade ula).heap :=
      touched_modifyAt t ula (fun _ => ⟨rfl, rfl, rfl⟩)
    obtain ⟨s, hs, hsame⟩ := htouched.lookup_back hs'
    exact ⟨s, sessionAt_eq_some_iff.mpr ⟨hid', hs⟩, hsame.peerId⟩

theorem SyncInv.seated_of_record (h : t.SyncInv) {op : SyncOp} (hinfo : info ∈ op.records) :
    (t.syncStep op).1.sessionAt info.ula ≠ none := by
  have hmem : info.ula ∈ (t.syncStep op).1.byUla := by
    cases op with
    | event lookupHost e =>
      cases e with
      | added r | updated r =>
        simp only [SyncOp.records, Option.mem_toList] at hinfo
        simp only [syncStep, applyEvent]
        cases hread : Client.remoteToInfo lookupHost r with
        | error e => simp [hread, Except.toOption] at hinfo
        | ok info' =>
          simp only [hread, Except.toOption, Option.some.injEq] at hinfo
          rw [← hinfo]
          exact (h.inv.follow_spec info').mem.mpr (.inl rfl)
      | removed peerId => simp [SyncOp.records] at hinfo
    | reconcile lookupHost remote =>
      have hfollowed := (h.inv.mem_foldl_follow (Client.decodeRoster lookupHost remote)).mpr
        (.inl (List.mem_map_of_mem hinfo))
      have hp := (h.foldl_follow (Client.decodeRoster lookupHost remote)).foldl_pruneAt_spec
        ((Client.decodeRoster lookupHost remote).map Client.PeerInfo.ula)
        ((Client.decodeRoster lookupHost remote).foldl SessionTable.follow t).ulas
      -- the address is in the roster, so the pruning passes over it
      have hkeep := hp.byUla info.ula (fun hgone => hgone.2 (List.mem_map_of_mem hinfo))
      rw [← AList.lookup_isSome] at hfollowed ⊢
      simp only [syncStep, reconcileRoster, SessionTable.prune]
      rw [hkeep]
      exact hfollowed
    | learn ula source | downgrade ula => simp [SyncOp.records] at hinfo
  rw [Ne, (h.step op).inv.sessionAt_eq_none_iff, AList.lookup_eq_none, not_not]
  exact hmem

end SessionTable

theorem carriesIds_of_run [Crates] {tr : List (SyncOp × Unit)} {t : SessionTable}
    (h : sync.Run SessionTable.KeepsIds tr t) : t.CarriesIds (recorded tr) := by
  refine h.invariant (I := fun tr t => t.CarriesIds (recorded tr)) ?_ ?_
  · intro ula id s hat
    simp [sync, SessionTable.new, SessionTable.sessionAt] at hat
  · intro tr t op hr ih _ hkeeps
    exact (syncInv_of_reach hr.reach).carriesIds_step ih hkeeps

/-- In a run whose records rename no session in place, every session carries the id of the last
record for its address; removals and directives find it by that id. -/
theorem sessions_carry_recorded_ids [Crates] {tr : List (SyncOp × Unit)} {t : SessionTable}
    (h : sync.Run SessionTable.KeepsIds tr t) :
    (∀ op, ∀ info ∈ op.records, (t.syncStep op).1.sessionAt info.ula ≠ none) ∧
    (∀ ula id s, t.sessionAt ula = some (id, s) → recorded tr ula = some s.peerId) ∧
    (∀ ula peerId, recorded tr ula ≠ some peerId →
      (t.removePeer peerId).sessionAt ula = t.sessionAt ula) ∧
    (∀ ula peerId, recorded tr ula = some peerId → (t.removePeer peerId).sessionAt ula = none) ∧
    (∀ order ula peerId myPeerId event endpoint, t.sessionAt ula ≠ none →
      recorded tr ula = some peerId → event.initiatorPeerId = myPeerId.toString →
      SocketAddr.parse event.targetExternalEndpoint = some endpoint →
      Uuid.parseStr event.targetPeerId = .ok peerId →
      ∃ ula' session, t.planPunch order myPeerId event = some ⟨session, endpoint⟩ ∧
        t.sessionAt ula' = some session ∧ recorded tr ula' = some peerId) := by
  have hinv := syncInv_of_reach h.reach
  have hids := carriesIds_of_run h
  refine ⟨fun op info hinfo => hinv.seated_of_record hinfo, hids, ?_, ?_, ?_⟩
  · intro ula peerId hother
    rw [hinv.sessionAt_removePeer]
    cases hat : t.sessionAt ula with
    | none => rfl
    | some c =>
      have hne : c.2.peerId ≠ peerId := by
        intro hid
        rw [hids ula c.1 c.2 hat, hid] at hother
        exact hother rfl
      simp [Option.filter, hne]
  · intro ula peerId hcurrent
    rw [hinv.sessionAt_removePeer]
    cases hat : t.sessionAt ula with
    | none => rfl
    | some c =>
      rw [hids ula c.1 c.2 hat, Option.some.injEq] at hcurrent
      simp [Option.filter, hcurrent]
  · intro order ula peerId myPeerId event endpoint hsome hcurrent hinitiator hendpoint htarget
    obtain ⟨c, hat⟩ := Option.ne_none_iff_exists'.mp hsome
    rw [hids ula c.1 c.2 hat, Option.some.injEq] at hcurrent
    rw [← hcurrent] at htarget ⊢
    obtain ⟨ula', c', hplan, hat', hid'⟩ :=
      SessionTable.exists_planPunch order hat hinitiator hendpoint htarget
    refine ⟨ula', c', hplan, hat', ?_⟩
    rw [hids ula' c'.1 c'.2 hat', hid']

section Example

attribute [local instance] referenceCrates

def renamedRun : List (SyncOp × Unit) × SessionTable :=
  sync.exec [] sync.init [.event (fun _ => none) (.added (homeRecord [])),
    .event (fun _ => none) (.added { homeRecord [] with peerId := 3 })]

def homeUla : Ipv6Addr := ⟨0xfd00, 0, 0, 0, 0, 0, 0, 1⟩

def renamedDirective : HolePunchInitiate := ⟨Uuid.toString 9, Uuid.toString 3, "192.0.2.1:7", 0⟩

theorem renamed_session_keeps_old_id :
    recorded renamedRun.1 homeUla = some 3 ∧
      (renamedRun.2.sessionAt homeUla).map (fun c => c.2.peerId) = some 1 ∧
      (renamedRun.2.removePeer 1).sessionAt homeUla = none ∧
      (renamedRun.2.removePeer 3).sessionAt homeUla ≠ none ∧
      renamedRun.2.planPunch (fun _ => 0) 9 renamedDirective = none := by
  refine ⟨by decide, by decide, by decide, by decide,
    by decide +kernel⟩

def rekeyedOps : List SyncOp :=
  [.event (fun _ => none) (.added (homeRecord [])),
    .event (fun _ => none) (.added { homeRecord [] with
      peerId := 3, wgPublicKey := (awayRecord []).wgPublicKey })]

theorem sessions_carry_recorded_ids_rekeyed :
    ((sync.exec [] sync.init rekeyedOps).2.removePeer 1).sessionAt homeUla =
      (sync.exec [] sync.init rekeyedOps).2.sessionAt homeUla := by
  have hadmissible : sync.Admissible SessionTable.KeepsIds [] sync.init rekeyedOps := by
    refine ⟨trivial, ⟨?_, trivial⟩, trivial, ⟨?_, trivial⟩, trivial⟩
    · exact SessionTable.idAfter_eq_iff.mp (by decide)
    · exact SessionTable.idAfter_eq_iff.mp (by decide)
  exact (sessions_carry_recorded_ids (Machine.Run.exec .start hadmissible)).2.2.1 homeUla 1
    (by decide)

end Example

end ServiceMesh
