import Mathlib.Data.Prod.Lex
import Mathlib.Data.String.Basic
import ServiceMesh.RosterIntegrity

/-! The machine graph: every roster peer that is no app-runner, and the directed path reports of
their heartbeats collapsed into undirected pairs. -/

namespace ServiceMesh

section

variable [Crates]

def runnerUlaHextet : UInt16 := 0x1f02

def isMachine (entry : PeerEntry) : Bool :=
  let runnerUla := entry.ula.seg1 == runnerUlaHextet
  let runnerTag := entry.tags.any (fun t => t == "runner")
  let runnerKind := entry.kind == "runner"
  !(runnerUla || runnerTag || runnerKind)

structure TopologyMachine where
  peerId : String
  name : String
  ula : String
  tags : List String
  relayOnly : Bool
  softwareVersion : Option String
  meshVersion : Option String
  connectivity : Option String
deriving DecidableEq

structure TopologyEdge where
  from_ : String
  to_ : String
  direct : Bool
  ageMs : UInt64
  lastHandshakeDirect : Option Bool
  lastHandshakeAgeMs : Option UInt64
  handshakeRxTotal : UInt64
deriving DecidableEq

structure TopologyResponse where
  machines : List TopologyMachine
  edges : List TopologyEdge
deriving DecidableEq

def u64SaturatingAdd (a b : UInt64) : UInt64 :=
  if a.toNat + b.toNat < 2 ^ 64 then a + b else 0xffffffffffffffff

def PathEdge.collapse (acc edge : PathEdge) : PathEdge :=
  let fresher := match acc.lastHandshakeAgeMs, edge.lastHandshakeAgeMs with
    | none, some _ => true
    | some accAge, some newAge => decide (newAge < accAge)
    | _, _ => false
  { direct := acc.direct || edge.direct
    lastRxAgeMs := min acc.lastRxAgeMs edge.lastRxAgeMs
    lastHandshakeDirect := if fresher then edge.lastHandshakeDirect else acc.lastHandshakeDirect
    lastHandshakeAgeMs := if fresher then edge.lastHandshakeAgeMs else acc.lastHandshakeAgeMs
    handshakeRxTotal := u64SaturatingAdd acc.handshakeRxTotal edge.handshakeRxTotal }

def edgeKey (a b : String) : String × String := if a < b then (a, b) else (b, a)

def pathPairs (entries : List PeerEntry) : DashMap (String × String) PathEdge :=
  let machineIds := entries.map PeerEntry.peerId
  entries.foldl
    (fun pairs reporter =>
      reporter.paths.entries.foldl
        (fun pairs s =>
          if s.1 ∈ machineIds then
            pairs.merge PathEdge.collapse (edgeKey reporter.peerId.toString s.1.toString) s.2
          else pairs)
        pairs)
    ∅

def topologyEdge (s : Sigma fun _ : String × String => PathEdge) : TopologyEdge where
  from_ := s.1.1
  to_ := s.1.2
  direct := s.2.direct
  ageMs := s.2.lastRxAgeMs
  lastHandshakeDirect := s.2.lastHandshakeDirect
  lastHandshakeAgeMs := s.2.lastHandshakeAgeMs
  handshakeRxTotal := s.2.handshakeRxTotal

def TopologyEdge.key (x : TopologyEdge) : Lex (String × String) := toLex (x.from_, x.to_)

def topologyEdges (entries : List PeerEntry) : List TopologyEdge :=
  ((pathPairs entries).entries.map topologyEdge).insertionSort (fun x y => x.key ≤ y.key)

namespace Coordinator

def topologyMachine (c : Coordinator) (e : PeerEntry) : TopologyMachine where
  peerId := e.peerId.toString
  name := e.displayName
  ula := e.ula.toString
  tags := e.tags
  relayOnly := e.relayOnly
  softwareVersion := e.softwareVersion
  meshVersion := e.meshVersion
  connectivity := (c.selfConnectivityAged e.peerId).1

def topology (c : Coordinator) : TopologyResponse :=
  let entries := sortByPeerIndex (c.roster.values.filter isMachine)
  ⟨entries.map c.topologyMachine, topologyEdges entries⟩

end Coordinator

omit [Crates] in
theorem toNat_u64SaturatingAdd (a b : UInt64) :
    (u64SaturatingAdd a b).toNat = min (a.toNat + b.toNat) (2 ^ 64 - 1) := by
  unfold u64SaturatingAdd
  split
  · rename_i h
    rw [UInt64.toNat_add, Nat.mod_eq_of_lt h]
    omega
  · have hmax : (0xffffffffffffffff : UInt64).toNat = 2 ^ 64 - 1 := rfl
    rw [hmax]
    omega

structure TopologyEdge.Summarises (x : TopologyEdge) (reports : List PathEdge) : Prop where
  direct : x.direct = reports.any PathEdge.direct
  ageMs : (reports.map PathEdge.lastRxAgeMs).min? = some x.ageMs
  handshakeRxTotal : x.handshakeRxTotal.toNat =
    min ((reports.map (fun r => r.handshakeRxTotal.toNat)).sum) (2 ^ 64 - 1)
  lastHandshakeAgeMs : x.lastHandshakeAgeMs =
    (reports.filterMap PathEdge.lastHandshakeAgeMs).min?

omit [Crates] in
theorem lastHandshakeAgeMs_collapse (acc edge : PathEdge) (rest : List PathEdge) :
    (((acc.collapse edge) :: rest).filterMap PathEdge.lastHandshakeAgeMs).min? =
      ((acc :: edge :: rest).filterMap PathEdge.lastHandshakeAgeMs).min? := by
  cases hacc : acc.lastHandshakeAgeMs with
  | none =>
    cases hedge : edge.lastHandshakeAgeMs with
    | none => simp [PathEdge.collapse, hacc, hedge]
    | some newAge => simp [PathEdge.collapse, hacc, hedge]
  | some accAge =>
    cases hedge : edge.lastHandshakeAgeMs with
    | none => simp [PathEdge.collapse, hacc, hedge]
    | some newAge =>
      have hmin : (acc.collapse edge).lastHandshakeAgeMs = some (min accAge newAge) := by
        by_cases hlt : newAge < accAge
        · have hnot : ¬ accAge ≤ newAge := by
            rw [UInt64.not_le]
            exact hlt
          simp [PathEdge.collapse, hacc, hedge, hlt, UInt64.min_def, hnot]
        · have hle : accAge ≤ newAge := by
            rw [← UInt64.not_lt]
            exact hlt
          simp [PathEdge.collapse, hacc, hedge, hlt, UInt64.min_def, hle]
      rw [List.filterMap_cons_some hmin, List.filterMap_cons_some hacc,
        List.filterMap_cons_some hedge]
      rfl

omit [Crates] in
theorem summarises_collapse (key : String × String) (edge : PathEdge) (rest : List PathEdge) :
    (topologyEdge ⟨key, rest.foldl PathEdge.collapse edge⟩).Summarises (edge :: rest) := by
  induction rest generalizing edge with
  | nil =>
    refine ⟨?_, rfl, ?_, ?_⟩
    · exact (Bool.or_false edge.direct).symm
    · have hlt := edge.handshakeRxTotal.toNat_lt
      simp only [List.foldl_nil, topologyEdge, List.map_cons, List.map_nil, List.sum_cons,
        List.sum_nil]
      omega
    · cases hage : edge.lastHandshakeAgeMs <;> simp [topologyEdge, hage]
  | cons next rest ih =>
    obtain ⟨hdirect, hage, htotal, hhandshake⟩ := ih (edge.collapse next)
    refine ⟨?_, hage, ?_, ?_⟩
    · rw [List.foldl_cons, hdirect]
      exact Bool.or_assoc _ _ _
    · rw [List.foldl_cons, htotal]
      simp only [List.map_cons, List.sum_cons, PathEdge.collapse, toNat_u64SaturatingAdd]
      omega
    · rw [List.foldl_cons, hhandshake, lastHandshakeAgeMs_collapse]

omit [Crates] in
theorem min?_eq_of_perm {l l' : List UInt64} (h : l.Perm l') : l.min? = l'.min? := by
  apply Option.ext
  intro a
  rw [List.min?_eq_some_iff, List.min?_eq_some_iff]
  simp only [h.mem_iff]

omit [Crates] in
theorem TopologyEdge.Summarises.perm {x : TopologyEdge} {reports reports' : List PathEdge}
    (h : x.Summarises reports) (hperm : reports.Perm reports') : x.Summarises reports' := by
  refine ⟨?_, ?_, ?_, ?_⟩
  · rw [h.direct, Bool.eq_iff_iff, List.any_eq_true, List.any_eq_true]
    simp only [hperm.mem_iff]
  · rw [← h.ageMs]
    exact (min?_eq_of_perm (hperm.map _)).symm
  · rw [h.handshakeRxTotal, (hperm.map _).sum_eq]
  · rw [h.lastHandshakeAgeMs]
    exact min?_eq_of_perm (hperm.filterMap _)

def directedReports (entries : List PeerEntry) : List ((Uuid × Uuid) × PathEdge) :=
  entries.flatMap (fun r =>
    (r.paths.entries.filter (fun s => s.1 ∈ entries.map PeerEntry.peerId)).map
      (fun s => ((r.peerId, s.1), s.2)))

def reportKey (x : (Uuid × Uuid) × PathEdge) : String × String :=
  edgeKey x.1.1.toString x.1.2.toString

theorem pathPairs_eq (entries : List PeerEntry) :
    pathPairs entries = ((directedReports entries).map (fun x => (reportKey x, x.2))).foldl
      (fun pairs x => pairs.merge PathEdge.collapse x.1 x.2) ∅ := by
  rw [pathPairs, directedReports, List.foldl_map, List.foldl_flatMap]
  simp only [List.foldl_map, List.foldl_filter, decide_eq_true_eq]
  rfl

def reportsUnder (entries : List PeerEntry) (key : String × String) : List PathEdge :=
  ((directedReports entries).filter (fun x => reportKey x = key)).map Prod.snd

theorem lookup_pathPairs (entries : List PeerEntry) (key : String × String) :
    (pathPairs entries).lookup key =
      (reportsUnder entries key).foldl (AList.absorb PathEdge.collapse) none := by
  rw [pathPairs_eq, AList.lookup_foldl_merge, List.filter_map, List.map_map]
  rfl

variable {entries : List PeerEntry}

omit [Crates] in
theorem mem_directedReports {a b : Uuid} {edge : PathEdge} :
    ((a, b), edge) ∈ directedReports entries ↔
      (∃ r ∈ entries, r.peerId = a ∧ r.paths.lookup b = some edge) ∧
        b ∈ entries.map PeerEntry.peerId := by
  simp only [directedReports, List.mem_flatMap, List.mem_map (f := fun s : Sigma _ => _),
    List.mem_filter, decide_eq_true_eq]
  constructor
  · intro h
    obtain ⟨r, hr, ⟨target, edge'⟩, ⟨hs, hmem⟩, heq⟩ := h
    obtain ⟨hpair, rfl⟩ := Prod.mk.inj heq
    obtain ⟨rfl, rfl⟩ := Prod.mk.inj hpair
    exact ⟨⟨r, hr, rfl, AList.lookup_eq_some_iff.mpr hs⟩, hmem⟩
  · intro h
    obtain ⟨⟨r, hr, rfl, hlookup⟩, hmem⟩ := h
    exact ⟨r, hr, ⟨b, edge⟩, ⟨AList.lookup_eq_some_iff.mp hlookup, hmem⟩, rfl⟩

omit [Crates] in
theorem nodup_directedReports (h : (entries.map PeerEntry.peerId).Nodup) :
    (directedReports entries).Nodup := by
  rw [directedReports, List.nodup_flatMap]
  constructor
  · intro r _
    apply List.Nodup.map_on
    · intro s _ t _ heq
      obtain ⟨hpair, hedge⟩ := Prod.mk.inj heq
      exact Sigma.ext (Prod.mk.inj hpair).2 (heq_of_eq hedge)
    · exact r.paths.nodupKeys.nodup.filter _
  · have hpairwise := List.pairwise_map.mp h
    refine hpairwise.imp ?_
    intro r r' hne x hx hx'
    obtain ⟨s, -, rfl⟩ := List.mem_map.mp hx
    obtain ⟨s', -, heq⟩ := List.mem_map.mp hx'
    exact hne (congrArg (fun x => x.1.1) heq).symm

omit [Crates] in
theorem edgeKey_eq_or (a b : String) : edgeKey a b = (a, b) ∨ edgeKey a b = (b, a) := by
  unfold edgeKey
  split
  · exact .inl rfl
  · exact .inr rfl

omit [Crates] in
theorem edgeKey_comm (a b : String) : edgeKey a b = edgeKey b a := by
  unfold edgeKey
  rcases lt_trichotomy a b with h | rfl | h
  · rw [if_pos h, if_neg h.asymm]
  · rfl
  · rw [if_neg h.asymm, if_pos h]

omit [Crates] in
theorem edgeKey_eq_iff {a b a' b' : String} :
    edgeKey a b = edgeKey a' b' ↔ (a = a' ∧ b = b') ∨ (a = b' ∧ b = a') := by
  constructor
  · intro h
    rcases edgeKey_eq_or a b with hab | hab <;> rcases edgeKey_eq_or a' b' with hab' | hab' <;>
      rw [hab, hab'] at h
    · exact .inl (Prod.mk.inj h)
    · exact .inr (Prod.mk.inj h)
    · exact .inr (Prod.mk.inj h).symm
    · exact .inl (Prod.mk.inj h).symm
  · intro h
    rcases h with ⟨rfl, rfl⟩ | ⟨rfl, rfl⟩
    · rfl
    · exact edgeKey_comm a b

def reportsBetween (a b : PeerEntry) : List PathEdge :=
  (a.paths.lookup b.peerId).toList ++ (b.paths.lookup a.peerId).toList

omit [Crates] in
theorem mem_directedReports_of_mem (h : (entries.map PeerEntry.peerId).Nodup) {a b : PeerEntry}
    (ha : a ∈ entries) (hb : b ∈ entries) {edge : PathEdge} :
    ((a.peerId, b.peerId), edge) ∈ directedReports entries ↔
      a.paths.lookup b.peerId = some edge := by
  rw [mem_directedReports]
  constructor
  · intro hmem
    obtain ⟨⟨r, hr, hid, hlookup⟩, -⟩ := hmem
    have hsame : r = a := List.inj_on_of_nodup_map h hr ha hid
    rw [← hsame]
    exact hlookup
  · intro hlookup
    exact ⟨⟨a, ha, rfl, hlookup⟩, List.mem_map_of_mem hb⟩

theorem reportsUnder_perm (h : (entries.map PeerEntry.peerId).Nodup) {a b : PeerEntry}
    (ha : a ∈ entries) (hb : b ∈ entries) (hne : a.peerId ≠ b.peerId) :
    (reportsUnder entries (edgeKey a.peerId.toString b.peerId.toString)).Perm
      (reportsBetween a b) := by
  -- with the direction as a tag, both sides are lists without repetition
  let forth := (a.paths.lookup b.peerId).toList.map (fun edge => ((a.peerId, b.peerId), edge))
  let back := (b.paths.lookup a.peerId).toList.map (fun edge => ((b.peerId, a.peerId), edge))
  have hnodup : (forth ++ back).Nodup := by
    apply List.Nodup.append
    · exact (Option.toList_nodup _).map (fun _ _ heq => (Prod.mk.inj heq).2)
    · exact (Option.toList_nodup _).map (fun _ _ heq => (Prod.mk.inj heq).2)
    · intro x hx hx'
      obtain ⟨edge, -, rfl⟩ := List.mem_map.mp hx
      obtain ⟨edge', -, heq⟩ := List.mem_map.mp hx'
      exact hne (congrArg (fun x => x.1.2) heq)
  have htagged : ((directedReports entries).filter
      (fun x => reportKey x = edgeKey a.peerId.toString b.peerId.toString)).Perm
      (forth ++ back) := by
    rw [List.perm_ext_iff_of_nodup ((nodup_directedReports h).filter _) hnodup]
    intro x
    obtain ⟨⟨p, q⟩, edge⟩ := x
    simp only [List.mem_filter, decide_eq_true_eq, reportKey, edgeKey_eq_iff, Uuid.toString_inj,
      List.mem_append, forth, back, List.mem_map, Option.mem_toList]
    constructor
    · intro hx
      obtain ⟨hmem, ⟨rfl, rfl⟩ | ⟨rfl, rfl⟩⟩ := hx
      · exact .inl ⟨edge, (mem_directedReports_of_mem h ha hb).mp hmem, rfl⟩
      · exact .inr ⟨edge, (mem_directedReports_of_mem h hb ha).mp hmem, rfl⟩
    · intro hx
      rcases hx with ⟨edge', hlookup, heq⟩ | ⟨edge', hlookup, heq⟩
      · obtain ⟨hpair, rfl⟩ := Prod.mk.inj heq
        obtain ⟨rfl, rfl⟩ := Prod.mk.inj hpair
        exact ⟨(mem_directedReports_of_mem h ha hb).mpr hlookup, .inl ⟨rfl, rfl⟩⟩
      · obtain ⟨hpair, rfl⟩ := Prod.mk.inj heq
        obtain ⟨rfl, rfl⟩ := Prod.mk.inj hpair
        exact ⟨(mem_directedReports_of_mem h hb ha).mpr hlookup, .inr ⟨rfl, rfl⟩⟩
  have hmap := htagged.map Prod.snd
  have hsnd : (forth ++ back).map Prod.snd = reportsBetween a b := by
    simp [forth, back, reportsBetween, Function.comp_def]
  rw [hsnd] at hmap
  exact hmap

/-- The edges are the pairs somebody reported about, each with the summary of its reports. -/
theorem mem_topologyEdges {x : TopologyEdge} (hx : x ∈ topologyEdges entries) :
    reportsUnder entries (x.from_, x.to_) ≠ [] ∧
      x.Summarises (reportsUnder entries (x.from_, x.to_)) := by
  rw [topologyEdges, List.mem_insertionSort, List.mem_map] at hx
  obtain ⟨⟨key, edge⟩, hs, rfl⟩ := hx
  have hlookup := AList.lookup_eq_some_iff.mpr hs
  rw [lookup_pathPairs] at hlookup
  change reportsUnder entries key ≠ [] ∧ (topologyEdge ⟨key, edge⟩).Summarises _
  cases hreports : reportsUnder entries key with
  | nil =>
    rw [hreports] at hlookup
    cases hlookup
  | cons first rest =>
    rw [hreports, List.foldl_cons, AList.absorb, AList.foldl_absorb_some] at hlookup
    rw [← Option.some.inj hlookup]
    refine ⟨List.cons_ne_nil _ _, ?_⟩
    have hkey : ((topologyEdge ⟨key, rest.foldl PathEdge.collapse first⟩).from_,
        (topologyEdge ⟨key, rest.foldl PathEdge.collapse first⟩).to_) = key := rfl
    rw [hkey, hreports]
    exact summarises_collapse key first rest

theorem exists_topologyEdge {key : String × String} (h : reportsUnder entries key ≠ []) :
    ∃ x ∈ topologyEdges entries, x.from_ = key.1 ∧ x.to_ = key.2 := by
  have hsome : (pathPairs entries).lookup key ≠ none := by
    rw [lookup_pathPairs]
    exact fun hnone => h (AList.foldl_absorb_eq_none.mp hnone)
  obtain ⟨edge, hedge⟩ := Option.ne_none_iff_exists'.mp hsome
  refine ⟨topologyEdge ⟨key, edge⟩, ?_, rfl, rfl⟩
  rw [topologyEdges, List.mem_insertionSort]
  exact List.mem_map_of_mem (AList.lookup_eq_some_iff.mp hedge)

theorem topologyEdges_increasing (entries : List PeerEntry) :
    (topologyEdges entries).Pairwise (fun x y => x.key < y.key) := by
  have : Std.Total (fun x y : TopologyEdge => x.key ≤ y.key) := ⟨fun x y => le_total x.key y.key⟩
  have : IsTrans TopologyEdge (fun x y => x.key ≤ y.key) := ⟨fun _ _ _ => le_trans⟩
  have hsorted := List.pairwise_insertionSort (fun x y : TopologyEdge => x.key ≤ y.key)
    ((pathPairs entries).entries.map topologyEdge)
  have hkeys : ((topologyEdges entries).map TopologyEdge.key).Nodup := by
    have hperm := (List.perm_insertionSort (fun x y : TopologyEdge => x.key ≤ y.key)
      ((pathPairs entries).entries.map topologyEdge)).map TopologyEdge.key
    rw [topologyEdges, hperm.nodup_iff, List.map_map]
    have hnodup : ((pathPairs entries).entries.map Sigma.fst).Nodup := (pathPairs entries).nodupKeys
    have hlex := List.Nodup.map toLex.injective hnodup
    rw [List.map_map] at hlex
    exact hlex
  have hne := List.pairwise_map.mp hkeys
  exact (hsorted.and hne).imp (fun h => lt_of_le_of_ne h.1 h.2)

theorem exists_report {key : String × String} (h : reportsUnder entries key ≠ []) :
    ∃ a ∈ entries, ∃ b ∈ entries, b.peerId ∈ a.paths ∧
      edgeKey a.peerId.toString b.peerId.toString = key := by
  obtain ⟨edge, hedge⟩ := List.exists_mem_of_ne_nil _ h
  obtain ⟨⟨⟨p, q⟩, edge'⟩, hx, -⟩ := List.mem_map.mp hedge
  obtain ⟨hmem, hkey⟩ := List.mem_filter.mp hx
  obtain ⟨⟨a, ha, rfl, hlookup⟩, hq⟩ := mem_directedReports.mp hmem
  obtain ⟨b, hb, rfl⟩ := List.mem_map.mp hq
  exact ⟨a, ha, b, hb, AList.mem_of_lookup hlookup, of_decide_eq_true hkey⟩

omit [Crates] in
theorem reportsBetween_ne_nil {a b : PeerEntry} :
    reportsBetween a b ≠ [] ↔ b.peerId ∈ a.paths ∨ a.peerId ∈ b.paths := by
  rw [reportsBetween, Ne, List.append_eq_nil_iff, Option.toList_eq_nil_iff,
    Option.toList_eq_nil_iff, ← AList.lookup_isSome, ← AList.lookup_isSome]
  cases a.paths.lookup b.peerId <;> cases b.paths.lookup a.peerId <;> simp

namespace Coordinator

/-- The edge list is sorted without repetition, its edges lead from the smaller to the larger of
two listed machines, there is one exactly where one of the two reported a path to the other, and
its attributes summarise those reports. -/
structure EdgesExact (c : Coordinator) : Prop where
  increasing : c.topology.edges.Pairwise (fun x y => x.key < y.key)
  listed : ∀ x ∈ c.topology.edges, x.from_ < x.to_ ∧
    x.from_ ∈ c.topology.machines.map TopologyMachine.peerId ∧
    x.to_ ∈ c.topology.machines.map TopologyMachine.peerId
  reported : ∀ a ∈ c.roster.values, ∀ b ∈ c.roster.values, isMachine a = true →
    isMachine b = true → a.peerId.toString < b.peerId.toString →
    ((∃ x ∈ c.topology.edges, x.from_ = a.peerId.toString ∧ x.to_ = b.peerId.toString) ↔
      b.peerId ∈ a.paths ∨ a.peerId ∈ b.paths)
  summarises : ∀ a ∈ c.roster.values, ∀ b ∈ c.roster.values, isMachine a = true →
    isMachine b = true → ∀ x ∈ c.topology.edges, x.from_ = a.peerId.toString →
    x.to_ = b.peerId.toString → x.Summarises (reportsBetween a b)

def machineEntries (c : Coordinator) : List PeerEntry :=
  sortByPeerIndex (c.roster.values.filter isMachine)

omit [Crates] in
theorem mem_machineEntries {c : Coordinator} {e : PeerEntry} :
    e ∈ c.machineEntries ↔ e ∈ c.roster.values ∧ isMachine e = true := by
  rw [machineEntries, sortByPeerIndex, List.mem_insertionSort, List.mem_filter]

theorem topology_machines (c : Coordinator) :
    c.topology.machines.map TopologyMachine.peerId =
      c.machineEntries.map (fun e => e.peerId.toString) := by
  change (c.machineEntries.map c.topologyMachine).map TopologyMachine.peerId = _
  rw [List.map_map]
  rfl

omit [Crates] in
theorem nodup_machineEntries {c : Coordinator} (h : (c.roster.values.map PeerEntry.peerId).Nodup) :
    (c.machineEntries.map PeerEntry.peerId).Nodup := by
  have hperm := (List.perm_insertionSort (fun a b : PeerEntry => a.peerIndex ≤ b.peerIndex)
    (c.roster.values.filter isMachine)).map PeerEntry.peerId
  rw [machineEntries, sortByPeerIndex, hperm.nodup_iff]
  exact h.sublist (List.filter_sublist.map PeerEntry.peerId)

omit [Crates] in
theorem edgeKey_of_lt {a b : String} (h : a < b) : edgeKey a b = (a, b) := if_pos h

theorem listed_of_irreflexive {c : Coordinator}
    (hself : ∀ e ∈ c.roster.values, isMachine e = true → e.peerId ∉ e.paths) {x : TopologyEdge}
    (hx : x ∈ c.topology.edges) : x.from_ < x.to_ ∧
      x.from_ ∈ c.topology.machines.map TopologyMachine.peerId ∧
      x.to_ ∈ c.topology.machines.map TopologyMachine.peerId := by
  obtain ⟨a, ha, b, hb, hmem, hkey⟩ := exists_report (mem_topologyEdges hx).1
  have hne : a.peerId.toString ≠ b.peerId.toString := by
    intro heq
    have hid := Uuid.toString_inj.mp heq
    obtain ⟨hlive, hmachine⟩ := mem_machineEntries.mp ha
    exact hself a hlive hmachine (hid ▸ hmem)
  have ha' := List.mem_map_of_mem (f := fun e : PeerEntry => e.peerId.toString) ha
  have hb' := List.mem_map_of_mem (f := fun e : PeerEntry => e.peerId.toString) hb
  rw [topology_machines]
  rcases lt_or_gt_of_ne hne with hlt | hlt
  · rw [edgeKey_of_lt hlt] at hkey
    obtain ⟨hfrom, hto⟩ := Prod.mk.inj hkey
    rw [← hfrom, ← hto]
    exact ⟨hlt, ha', hb'⟩
  · rw [edgeKey_comm, edgeKey_of_lt hlt] at hkey
    obtain ⟨hfrom, hto⟩ := Prod.mk.inj hkey
    rw [← hfrom, ← hto]
    exact ⟨hlt, hb', ha'⟩

theorem edgesExact_of_irreflexive {c : Coordinator}
    (h : (c.roster.values.map PeerEntry.peerId).Nodup)
    (hself : ∀ e ∈ c.roster.values, isMachine e = true → e.peerId ∉ e.paths) : c.EdgesExact := by
  -- for an ordered pair of machines the folded reports are those of its two directions
  have hperm : ∀ a ∈ c.roster.values, ∀ b ∈ c.roster.values, isMachine a = true →
      isMachine b = true → a.peerId.toString < b.peerId.toString →
      (reportsUnder c.machineEntries (a.peerId.toString, b.peerId.toString)).Perm
        (reportsBetween a b) := by
    intro a ha b hb hma hmb hlt
    have hne : a.peerId ≠ b.peerId := fun heq => hlt.ne (congrArg Uuid.toString heq)
    rw [← edgeKey_of_lt hlt]
    exact reportsUnder_perm (nodup_machineEntries h) (mem_machineEntries.mpr ⟨ha, hma⟩)
      (mem_machineEntries.mpr ⟨hb, hmb⟩) hne
  refine ⟨topologyEdges_increasing _, fun x hx => listed_of_irreflexive hself hx, ?_, ?_⟩
  · intro a ha b hb hma hmb hlt
    have hreports := hperm a ha b hb hma hmb hlt
    rw [← reportsBetween_ne_nil]
    constructor
    · intro hx hnil
      obtain ⟨x, hx, hfrom, hto⟩ := hx
      apply (mem_topologyEdges hx).1
      rw [hfrom, hto]
      exact List.perm_nil.mp (hnil ▸ hreports)
    · intro hsome
      have hunder : reportsUnder c.machineEntries (a.peerId.toString, b.peerId.toString) ≠ [] :=
        fun hnil => hsome (List.nil_perm.mp (hnil ▸ hreports))
      exact exists_topologyEdge hunder
  · intro a ha b hb hma hmb x hx hfrom hto
    have hlt : a.peerId.toString < b.peerId.toString := by
      rw [← hfrom, ← hto]
      exact (listed_of_irreflexive hself hx).1
    have hsum := (mem_topologyEdges hx).2
    rw [hfrom, hto] at hsum
    exact hsum.perm (hperm a ha b hb hma hmb hlt)

theorem exists_loop {c : Coordinator} (h : (c.roster.values.map PeerEntry.peerId).Nodup)
    {e : PeerEntry} (he : e ∈ c.roster.values) (hmachine : isMachine e = true)
    (hmem : e.peerId ∈ e.paths) :
    ∃ x ∈ c.topology.edges, x.from_ = e.peerId.toString ∧ x.to_ = e.peerId.toString := by
  have he' := mem_machineEntries.mpr ⟨he, hmachine⟩
  obtain ⟨edge, hlookup⟩ := AList.exists_lookup_of_mem hmem
  have hreport := (mem_directedReports_of_mem (nodup_machineEntries h) he' he').mpr hlookup
  have hkey : reportKey ((e.peerId, e.peerId), edge) = (e.peerId.toString, e.peerId.toString) :=
    (edgeKey_eq_or _ _).elim id id
  have hunder : edge ∈ reportsUnder c.machineEntries (e.peerId.toString, e.peerId.toString) :=
    List.mem_map_of_mem (List.mem_filter.mpr ⟨hreport, decide_eq_true hkey⟩)
  exact exists_topologyEdge (List.ne_nil_of_mem hunder)

end Coordinator

/-- The edges are exactly the reported machine pairs just as long as no machine has reported a path
to itself. -/
theorem topology_edges_exact {cfg : Config} {tr : List (Op × Reply)} {s : Mesh}
    (h : (mesh cfg).Reach tr s) :
    s.coordinator.EdgesExact ↔
      ∀ e ∈ s.coordinator.roster.values, isMachine e = true → e.peerId ∉ e.paths := by
  have hids := (inv_of_reach h).distinct.peerId
  constructor
  · intro hexact e he hmachine hmem
    obtain ⟨x, hx, hfrom, hto⟩ := Coordinator.exists_loop hids he hmachine hmem
    have hlt := (hexact.listed x hx).1
    rw [hfrom, hto] at hlt
    exact lt_irrefl _ hlt
  · exact Coordinator.edgesExact_of_irreflexive hids

end

section Example

attribute [local instance] referenceCrates

def pathOp (id target : Uuid) (direct : Bool) : Op :=
  .heartbeat (ambientAt 0 0)
    ⟨id.toString, none, [], none, none, false,
      [⟨target.toString, direct, 7, some direct, some 5, 3⟩], true, []⟩ none

def pathOps : List Op :=
  [registerOp 0 1 { plainRequest keyOne "" none with tags := [tagSystem] },
    registerOp 0 2 { plainRequest keyTwo "bob" none with tags := [tagSystem] },
    pathOp 1 2 true, pathOp 2 1 false]

theorem topology_edges_exact_pair :
    (stateAfter openConfig pathOps).coordinator.roster.values.map
        (fun e => (isMachine e, e.paths.keys)) = [(true, [1]), (true, [2])] ∧
      (stateAfter openConfig pathOps).coordinator.EdgesExact := by
  have hall : (mesh openConfig).Admissible (fun _ _ => True) [] (Mesh.init openConfig) pathOps ∧
      (stateAfter openConfig pathOps).coordinator.roster.values.map
        (fun e => (isMachine e, e.paths.keys)) = [(true, [1]), (true, [2])] ∧
      ∀ e ∈ (stateAfter openConfig pathOps).coordinator.roster.values, isMachine e = true →
        e.peerId ∉ e.paths := by decide +kernel
  obtain ⟨hadm, hpaths, hself⟩ := hall
  exact ⟨hpaths, (topology_edges_exact (reach_of_admissible hadm)).mpr hself⟩

def loopOps : List Op := [registerOp 0 1 (plainRequest keyOne "" none), pathOp 1 1 true]

/-- A machine that reports a path to itself gets an edge from itself to itself. -/
theorem self_report_makes_loop :
    ∃ tr s x, (mesh openConfig).Reach tr s ∧ x ∈ s.coordinator.topology.edges ∧ x.from_ = x.to_ ∧
      ¬ s.coordinator.EdgesExact := by
  have hall : (mesh openConfig).Admissible (fun _ _ => True) [] (Mesh.init openConfig) loopOps ∧
      ∃ e ∈ (stateAfter openConfig loopOps).coordinator.roster.values, isMachine e = true ∧
        e.peerId ∈ e.paths := by decide +kernel
  obtain ⟨hadm, e, he, hmachine, hmem⟩ := hall
  have hreach := reach_of_admissible hadm
  obtain ⟨x, hx, hfrom, hto⟩ :=
    Coordinator.exists_loop (inv_of_reach hreach).distinct.peerId he hmachine hmem
  have heq : x.from_ = x.to_ := hfrom.trans hto.symm
  refine ⟨_, _, x, hreach, hx, heq, ?_⟩
  intro hexact
  exact (hexact.listed x hx).1.ne heq

end Example

end ServiceMesh
