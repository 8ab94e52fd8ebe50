import ServiceMesh.Topology

/-! The roster and each peer's reports are hash maps, whose iteration order is not fixed. The
projections sort by the peer index, which is unique inside one network only: among equal indexes
the map's order shows through. -/

namespace ServiceMesh

open Coordinator (sortByPeerIndex)

theorem sortByPeerIndex_perm (l : List PeerEntry) : (sortByPeerIndex l).Perm l :=
  List.perm_insertionSort _ l

theorem sortByPeerIndex_sorted (l : List PeerEntry) :
    (sortByPeerIndex l).Pairwise (fun a b => a.peerIndex ≤ b.peerIndex) := by
  have : Std.Total (fun a b : PeerEntry => a.peerIndex ≤ b.peerIndex) :=
    ⟨fun a b => UInt16.le_total a.peerIndex b.peerIndex⟩
  have : IsTrans PeerEntry (fun a b => a.peerIndex ≤ b.peerIndex) := ⟨fun _ _ _ => UInt16.le_trans⟩
  exact List.pairwise_insertionSort _ l

theorem sortByPeerIndex_eq_of_perm {l l' : List PeerEntry} (h : l.Perm l')
    (hnodup : (l.map PeerEntry.peerIndex).Nodup) : sortByPeerIndex l = sortByPeerIndex l' := by
  have hperm := (sortByPeerIndex_perm l).trans (h.trans (sortByPeerIndex_perm l').symm)
  refine List.Perm.eq_of_pairwise ?_ (sortByPeerIndex_sorted l) (sortByPeerIndex_sorted l') hperm
  intro a b ha hb hab hba
  have ha' := (sortByPeerIndex_perm l).mem_iff.mp ha
  have hb' := h.mem_iff.mpr ((sortByPeerIndex_perm l').mem_iff.mp hb)
  exact List.inj_on_of_nodup_map hnodup ha' hb' (UInt16.le_antisymm hab hba)

theorem sortByPeerIndex_map {f : PeerEntry → PeerEntry}
    (hf : ∀ e, (f e).peerIndex = e.peerIndex) (l : List PeerEntry) :
    sortByPeerIndex (l.map f) = (sortByPeerIndex l).map f := by
  refine (List.map_insertionSort _ _ f l ?_).symm
  intro a _ b _
  rw [hf, hf]

theorem not_sublist_swap {α : Type} {l : List α} (h : l.Nodup) {a b : α}
    (hab : [a, b].Sublist l) : ¬ [b, a].Sublist l := by
  induction l with
  | nil => cases hab
  | cons x l ih =>
    obtain ⟨hx, hl⟩ := List.nodup_cons.mp h
    intro hba
    rcases List.sublist_cons_iff.mp hab with htail | ⟨rest, heq, hrest⟩
    · rcases List.sublist_cons_iff.mp hba with hba | ⟨rest', heq', -⟩
      · exact ih hl htail hba
      · obtain ⟨rfl, -⟩ := List.cons.inj heq'
        exact hx (htail.subset (List.mem_cons_of_mem a List.mem_cons_self))
    · obtain ⟨rfl, rfl⟩ := List.cons.inj heq
      rcases List.sublist_cons_iff.mp hba with hba | ⟨rest', heq', -⟩
      · exact hx (hba.subset (List.mem_cons_of_mem b List.mem_cons_self))
      · obtain ⟨rfl, -⟩ := List.cons.inj heq'
        exact hx (hrest.subset List.mem_cons_self)

theorem indexes_nodup_of_reverse {l : List PeerEntry} (hids : (l.map PeerEntry.peerId).Nodup)
    (h : (sortByPeerIndex l.reverse).map PeerEntry.peerId =
      (sortByPeerIndex l).map PeerEntry.peerId) : (l.map PeerEntry.peerIndex).Nodup := by
  rw [List.nodup_iff_sublist]
  intro index hpair
  obtain ⟨pair, hsub, heq⟩ := List.sublist_map_iff.mp hpair
  obtain ⟨a, rest, rfl, ha, hrest⟩ := List.map_eq_cons_iff.mp heq.symm
  obtain ⟨b, rest, rfl, hb, hrest⟩ := List.map_eq_cons_iff.mp hrest
  obtain rfl := List.map_eq_nil_iff.mp hrest
  have hle : a.peerIndex ≤ b.peerIndex := by
    rw [ha, hb]
    exact UInt16.le_refl index
  have hge : b.peerIndex ≤ a.peerIndex := by
    rw [ha, hb]
    exact UInt16.le_refl index
  have hforth : [a, b].Sublist (sortByPeerIndex l) := List.pair_sublist_insertionSort hle hsub
  have hback : [b, a].Sublist (sortByPeerIndex l.reverse) :=
    List.pair_sublist_insertionSort hge (by simpa using hsub.reverse)
  have hsorted : ((sortByPeerIndex l).map PeerEntry.peerId).Nodup :=
    ((sortByPeerIndex_perm l).map PeerEntry.peerId).nodup_iff.mpr hids
  have hback' := hback.map PeerEntry.peerId
  rw [h] at hback'
  exact not_sublist_swap hsorted (hforth.map PeerEntry.peerId) hback'

def PeerEntry.SameReports (e e' : PeerEntry) : Prop :=
  e' = { e with paths := e'.paths } ∧ e'.paths.entries.Perm e.paths.entries

theorem PeerEntry.SameReports.agree {β : Type} {f : PeerEntry → β}
    (hf : ∀ (e : PeerEntry) (paths : DashMap Uuid PathEdge), f { e with paths := paths } = f e)
    {e e' : PeerEntry} (h : e.SameReports e') : f e' = f e :=
  (congrArg f h.1).trans (hf e e'.paths)

def RosterReordered (r r' : DashMap Uuid PeerEntry) : Prop :=
  ∃ (l : List (Sigma fun _ : Uuid => PeerEntry)) (g : PeerEntry → PeerEntry),
    l.Perm r.entries ∧ (∀ e : PeerEntry, e.SameReports (g e)) ∧ r'.entries = l.map (fun s => ⟨s.1, g s.2⟩)

section

variable [Crates]

def Coordinator.OrderFree (c : Coordinator) (viewerId : Uuid) (viewerTags : List String) : Prop :=
  ∀ r', RosterReordered c.roster r' →
    ({ c with roster := r' } : Coordinator).topology = c.topology ∧
      ({ c with roster := r' } : Coordinator).visiblePeers viewerId viewerTags =
        c.visiblePeers viewerId viewerTags

def Coordinator.visibleEntries (c : Coordinator) (viewerId : Uuid) (viewerTags : List String) :
    List PeerEntry :=
  c.roster.values.filter
    (fun e => e.peerId != viewerId && c.policy.current.canSee viewerTags e.tags)

omit [Crates] in
theorem RosterReordered.reverse (r : DashMap Uuid PeerEntry) :
    RosterReordered r (r.reorder r.entries.reverse (List.reverse_perm r.entries)) := by
  refine ⟨r.entries.reverse, id, List.reverse_perm _, fun e => ⟨rfl, List.Perm.refl _⟩, ?_⟩
  exact (List.map_id _).symm

omit [Crates] in
theorem sorted_reordered {r r' : DashMap Uuid PeerEntry}
    {l : List (Sigma fun _ : Uuid => PeerEntry)} {g : PeerEntry → PeerEntry}
    (hperm : l.Perm r.entries) (hg : ∀ e : PeerEntry, e.SameReports (g e))
    (heq : r'.entries = l.map (fun s => ⟨s.1, g s.2⟩)) {p : PeerEntry → Bool}
    (hp : ∀ e, p (g e) = p e) (hnodup : ((r.values.filter p).map PeerEntry.peerIndex).Nodup) :
    sortByPeerIndex (r'.values.filter p) = (sortByPeerIndex (r.values.filter p)).map g := by
  have hvalues : r'.values = (l.map Sigma.snd).map g := by
    rw [AList.values, heq, List.map_map, List.map_map]
    rfl
  have hlive : r.values.Perm (l.map Sigma.snd) := by
    rw [AList.values]
    exact hperm.symm.map Sigma.snd
  have hsel : p ∘ g = p := funext hp
  have hsorted : sortByPeerIndex (r.values.filter p) = sortByPeerIndex ((l.map Sigma.snd).filter p) :=
    sortByPeerIndex_eq_of_perm (hlive.filter p) hnodup
  rw [hvalues, List.filter_map, hsel, hsorted]
  exact sortByPeerIndex_map (fun e => (hg e).agree (fun _ _ => rfl)) _

def ownReports (ids : List Uuid) (reporter : Uuid) (key : String × String)
    (paths : List (Sigma fun _ : Uuid => PathEdge)) : List PathEdge :=
  (paths.filter (fun s => decide (edgeKey reporter.toString s.1.toString = key) &&
    decide (s.1 ∈ ids))).map Sigma.snd

theorem reportsUnder_eq (entries : List PeerEntry) (key : String × String) :
    reportsUnder entries key = entries.flatMap (fun r =>
      ownReports (entries.map PeerEntry.peerId) r.peerId key r.paths.entries) := by
  rw [reportsUnder, directedReports, List.filter_flatMap, List.map_flatMap]
  simp only [List.filter_map, List.map_map, List.filter_filter]
  rfl

theorem length_ownReports_le (ids : List Uuid) (reporter : Uuid) (key : String × String)
    (paths : DashMap Uuid PathEdge) :
    (ownReports ids reporter key paths.entries).length ≤ 1 := by
  rw [ownReports, List.length_map]
  generalize hsel : paths.entries.filter (fun s => decide (edgeKey reporter.toString s.1.toString =
    key) && decide (s.1 ∈ ids)) = sel
  have hkeys : (sel.map Sigma.fst).Nodup := by
    rw [← hsel]
    exact paths.keys_nodup.sublist (List.filter_sublist.map Sigma.fst)
  have hkey : ∀ s ∈ sel, edgeKey reporter.toString s.1.toString = key := by
    intro s hs
    rw [← hsel, List.mem_filter, Bool.and_eq_true] at hs
    exact of_decide_eq_true hs.2.1
  match sel with
  | [] | [_] => simp
  | s :: t :: rest =>
    have hsame := (hkey s (by simp)).trans (hkey t (by simp)).symm
    have heq : s.1 = t.1 := by
      rcases edgeKey_eq_iff.mp hsame with ⟨-, h⟩ | ⟨h, h'⟩
      · exact Uuid.toString_inj.mp h
      · exact Uuid.toString_inj.mp (h'.trans h)
    simp [heq] at hkeys

theorem reportsUnder_map {g : PeerEntry → PeerEntry} (hg : ∀ e : PeerEntry, e.SameReports (g e))
    (entries : List PeerEntry) (key : String × String) :
    reportsUnder (entries.map g) key = reportsUnder entries key := by
  have hids : (entries.map g).map PeerEntry.peerId = entries.map PeerEntry.peerId := by
    rw [List.map_map]
    exact List.map_congr_left (fun e _ => (hg e).agree (fun _ _ => rfl))
  rw [reportsUnder_eq, reportsUnder_eq, hids, List.flatMap_map]
  apply List.flatMap_congr
  intro r _
  have hid : (g r).peerId = r.peerId := (hg r).agree (fun _ _ => rfl)
  have hperm : (ownReports (entries.map PeerEntry.peerId) r.peerId key (g r).paths.entries).Perm
      (ownReports (entries.map PeerEntry.peerId) r.peerId key r.paths.entries) := by
    unfold ownReports
    exact (List.Perm.filter _ (hg r).2).map Sigma.snd
  rw [hid]
  have hlen := length_ownReports_le (entries.map PeerEntry.peerId) r.peerId key r.paths
  -- at most one report, so its order is no matter
  match hown : ownReports (entries.map PeerEntry.peerId) r.peerId key r.paths.entries with
  | [] =>
    rw [hown] at hperm
    exact List.perm_nil.mp hperm
  | [edge] =>
    rw [hown] at hperm
    exact List.perm_singleton.mp hperm
  | _ :: _ :: _ => simp [hown] at hlen

theorem topologyEdges_map {g : PeerEntry → PeerEntry} (hg : ∀ e : PeerEntry, e.SameReports (g e))
    (entries : List PeerEntry) : topologyEdges (entries.map g) = topologyEdges entries := by
  have hpairs : (pathPairs (entries.map g)).entries.Perm (pathPairs entries).entries := by
    rw [List.perm_ext_iff_of_nodup (pathPairs _).nodupKeys.nodup (pathPairs _).nodupKeys.nodup]
    intro s
    rw [← AList.lookup_eq_some_iff, ← AList.lookup_eq_some_iff, lookup_pathPairs, lookup_pathPairs,
      reportsUnder_map hg]
  have hperm : (topologyEdges (entries.map g)).Perm (topologyEdges entries) :=
    (List.perm_insertionSort _ _).trans ((hpairs.map topologyEdge).trans
      (List.perm_insertionSort _ _).symm)
  refine List.Perm.eq_of_pairwise ?_ (topologyEdges_increasing _) (topologyEdges_increasing _) hperm
  intro x y _ _ hlt hgt
  exact absurd hgt hlt.asymm

omit [Crates] in
theorem lookup_reordered {r r' : DashMap Uuid PeerEntry}
    {l : List (Sigma fun _ : Uuid => PeerEntry)} {g : PeerEntry → PeerEntry}
    (hperm : l.Perm r.entries) (heq : r'.entries = l.map (fun s => ⟨s.1, g s.2⟩)) (id : Uuid) :
    r'.lookup id = (r.lookup id).map g := by
  apply Option.ext
  intro e'
  rw [AList.lookup_eq_some_iff, heq, Option.map_eq_some_iff, List.mem_map]
  constructor
  · intro h
    obtain ⟨⟨id', e⟩, hs, hmap⟩ := h
    obtain ⟨rfl, rfl⟩ := Sigma.mk.inj_iff.mp hmap
    exact ⟨e, AList.lookup_eq_some_iff.mpr (hperm.mem_iff.mp hs), rfl⟩
  · intro h
    obtain ⟨e, he, rfl⟩ := h
    exact ⟨⟨id, e⟩, hperm.mem_iff.mpr (AList.lookup_eq_some_iff.mp he), rfl⟩

namespace Coordinator

omit [Crates] in
theorem selfConnectivityAged_reordered {c : Coordinator} {r' : DashMap Uuid PeerEntry}
    {l : List (Sigma fun _ : Uuid => PeerEntry)} {g : PeerEntry → PeerEntry}
    (hperm : l.Perm c.roster.entries) (hg : ∀ e : PeerEntry, e.SameReports (g e))
    (heq : r'.entries = l.map (fun s => ⟨s.1, g s.2⟩)) (id : Uuid) :
    ({ c with roster := r' } : Coordinator).selfConnectivityAged id =
      c.selfConnectivityAged id := by
  have hlookup : r'.lookup id = (c.roster.lookup id).map g := lookup_reordered hperm heq id
  simp only [selfConnectivityAged, hlookup]
  cases c.roster.lookup id with
  | none => rfl
  | some e =>
    have hhealth : (g e).dataplaneHealthy = e.dataplaneHealthy := (hg e).agree (fun _ _ => rfl)
    have hvalues : (g e).paths.values.Perm e.paths.values := by
      simp only [AList.values]
      exact (hg e).2.map Sigma.snd
    have hempty : (g e).paths.values.isEmpty = e.paths.values.isEmpty := by
      rw [Bool.eq_iff_iff, List.isEmpty_iff, List.isEmpty_iff]
      constructor
      · intro hnil
        exact List.nil_perm.mp (hnil ▸ hvalues)
      · intro hnil
        exact List.perm_nil.mp (hnil ▸ hvalues)
    have hdirect : (g e).paths.values.any (fun e => e.direct) =
        e.paths.values.any (fun e => e.direct) := by
      rw [Bool.eq_iff_iff, List.any_eq_true, List.any_eq_true]
      simp only [hvalues.mem_iff]
    have hage := min?_eq_of_perm (hvalues.map PathEdge.lastRxAgeMs)
    simp only [Option.map_some, hhealth, hempty, hdirect, hage]

theorem topology_eq (c : Coordinator) :
    c.topology = ⟨c.machineEntries.map c.topologyMachine, topologyEdges c.machineEntries⟩ := rfl

theorem orderFree_of_nodup {c : Coordinator} {viewerId : Uuid} {viewerTags : List String}
    (hmachines : ((c.roster.values.filter isMachine).map PeerEntry.peerIndex).Nodup)
    (hvisible : ((c.visibleEntries viewerId viewerTags).map PeerEntry.peerIndex).Nodup) :
    c.OrderFree viewerId viewerTags := by
  intro r' hr'
  obtain ⟨l, g, hperm, hg, heq⟩ := hr'
  have hentries : ({ c with roster := r' } : Coordinator).machineEntries = c.machineEntries.map g :=
    sorted_reordered hperm hg heq (fun e => (hg e).agree (fun _ _ => rfl)) hmachines
  have hlisted := sorted_reordered hperm hg heq (fun e => (hg e).agree (fun _ _ => rfl)) hvisible
  constructor
  · have hmachine : ∀ e, ({ c with roster := r' } : Coordinator).topologyMachine (g e) =
        c.topologyMachine e := by
      intro e
      have hrest : ({ c with roster := r' } : Coordinator).topologyMachine (g e) =
          ({ c with roster := r' } : Coordinator).topologyMachine e :=
        (hg e).agree (fun _ _ => rfl)
      rw [hrest, topologyMachine, topologyMachine,
        selfConnectivityAged_reordered hperm hg heq e.peerId]
    rw [topology_eq, topology_eq, hentries, topologyEdges_map hg, List.map_map]
    congr 1
    exact List.map_congr_left (fun e _ => hmachine e)
  · have hinfo : PeerEntry.toInfo ∘ g = PeerEntry.toInfo :=
      funext (fun e => (hg e).agree (fun _ _ => rfl))
    have hsort := congrArg (List.map PeerEntry.toInfo) hlisted
    rw [List.map_map, hinfo] at hsort
    exact hsort

theorem nodup_of_orderFree {c : Coordinator} (hids : (c.roster.values.map PeerEntry.peerId).Nodup)
    {viewerId : Uuid} {viewerTags : List String} (h : c.OrderFree viewerId viewerTags) :
    ((c.roster.values.filter isMachine).map PeerEntry.peerIndex).Nodup ∧
      ((c.visibleEntries viewerId viewerTags).map PeerEntry.peerIndex).Nodup := by
  obtain ⟨htopology, hvisible⟩ := h _ (RosterReordered.reverse c.roster)
  have hvalues : (c.roster.reorder c.roster.entries.reverse
      (List.reverse_perm c.roster.entries)).values = c.roster.values.reverse := by
    simp [AList.values, AList.reorder]
  have hids' : ∀ p : PeerEntry → Bool, ((c.roster.values.filter p).map PeerEntry.peerId).Nodup :=
    fun p => hids.sublist (List.filter_sublist.map PeerEntry.peerId)
  constructor
  · apply indexes_nodup_of_reverse (hids' isMachine)
    have hlist := congrArg (fun t => t.machines.map TopologyMachine.peerId) htopology
    simp only [topology_machines, machineEntries, hvalues, List.filter_reverse] at hlist
    apply List.map_injective_iff.mpr Uuid.toString_injective
    rw [List.map_map, List.map_map]
    exact hlist
  · apply indexes_nodup_of_reverse (hids' _)
    have hlist := congrArg (List.map PeerInfo.peerId) hvisible
    simp only [visiblePeers, hvalues, List.filter_reverse, List.map_map] at hlist
    apply List.map_injective_iff.mpr Uuid.toString_injective
    rw [List.map_map, List.map_map]
    exact hlist

end Coordinator

/-- The projections depend on the order of the maps just when two listed peers share an index. -/
theorem projections_order_free {cfg : Config} {tr : List (Op × Reply)} {s : Mesh}
    (h : (mesh cfg).Reach tr s) (viewerId : Uuid) (viewerTags : List String) :
    s.coordinator.OrderFree viewerId viewerTags ↔
      ((s.coordinator.roster.values.filter isMachine).map PeerEntry.peerIndex).Nodup ∧
        ((s.coordinator.visibleEntries viewerId viewerTags).map PeerEntry.peerIndex).Nodup := by
  constructor
  · exact Coordinator.nodup_of_orderFree (inv_of_reach h).distinct.peerId
  · intro hnodup
    exact Coordinator.orderFree_of_nodup hnodup.1 hnodup.2

end

section Example

attribute [local instance] referenceCrates

def sameNetworkOps : List Op :=
  [registerOp 0 1 (plainRequest keyOne "" none), registerOp 0 2 (plainRequest keyTwo "" none)]

theorem projections_order_free_same_network :
    (stateAfter openConfig sameNetworkOps).coordinator.OrderFree 3 [tagSystem] := by
  have hall : (mesh openConfig).Admissible (fun _ _ => True) [] (Mesh.init openConfig)
        sameNetworkOps ∧
      (((stateAfter openConfig sameNetworkOps).coordinator.roster.values.filter isMachine).map
        PeerEntry.peerIndex).Nodup ∧
      (((stateAfter openConfig sameNetworkOps).coordinator.visibleEntries 3 [tagSystem]).map
        PeerEntry.peerIndex).Nodup := by decide +kernel
  obtain ⟨hadm, hnodup⟩ := hall
  exact (projections_order_free (reach_of_admissible hadm) 3 [tagSystem]).mpr hnodup

def reversed (c : Coordinator) : Coordinator :=
  { c with roster := c.roster.reorder c.roster.entries.reverse (List.reverse_perm c.roster.entries) }

/-- Two machines of two networks share the index 1; read in the reverse order, the roster gives
other lists. -/
theorem equal_indexes_show_map_order :
    ∃ tr s, (mesh openConfig).Reach tr s ∧
      RosterReordered s.coordinator.roster (reversed s.coordinator).roster ∧
      (reversed s.coordinator).topology.machines ≠ s.coordinator.topology.machines ∧
      (reversed s.coordinator).topology.edges ≠ s.coordinator.topology.edges ∧
      (reversed s.coordinator).visiblePeers 3 [tagSystem] ≠
        s.coordinator.visiblePeers 3 [tagSystem] := by
  have hall : (mesh openConfig).Admissible (fun _ _ => True) [] (Mesh.init openConfig) pathOps ∧
      (reversed (stateAfter openConfig pathOps).coordinator).topology.machines ≠
        (stateAfter openConfig pathOps).coordinator.topology.machines ∧
      (reversed (stateAfter openConfig pathOps).coordinator).topology.edges ≠
        (stateAfter openConfig pathOps).coordinator.topology.edges ∧
      (reversed (stateAfter openConfig pathOps).coordinator).visiblePeers 3 [tagSystem] ≠
        (stateAfter openConfig pathOps).coordinator.visiblePeers 3 [tagSystem] := by decide +kernel
  obtain ⟨hadm, hmachines, hedges, hvisible⟩ := hall
  exact ⟨_, _, reach_of_admissible hadm, RosterReordered.reverse _, hmachines, hedges, hvisible⟩

end Example

end ServiceMesh
