import ServiceMesh.Relay
import ServiceMesh.RosterSync

/-! The receiving side of the data plane: a datagram or a relayed frame finds a session through
one of the indexes, its tunnel opens it, and the packet inside is written to the TUN device if the
session may use its source address. -/

namespace ServiceMesh

open StdNet (Ipv6Addr SocketAddr)

def ipv6Source (bytes : List UInt8) : Option Ipv6Addr :=
  if bytes.length < 40 ∨ (bytes.headD 0).toNat / 16 ≠ 6 then none
  else some (.ofOctets ((bytes.drop 8).take 16))

def directProbePacket (src dst : Ipv6Addr) : List UInt8 :=
  [0x60, 0, 0, 0, 0, 0, 59, 0] ++ src.octets ++ dst.octets

theorem ipv6Source_directProbePacket (src dst : Ipv6Addr) :
    ipv6Source (directProbePacket src dst) = some src := by
  have hsource : ((directProbePacket src dst).drop 8).take 16 = src.octets := rfl
  have hlen : (directProbePacket src dst).length = 40 := rfl
  rw [ipv6Source, hsource, hlen, if_neg, Ipv6Addr.ofOctets_octets]
  simp [directProbePacket]

inductive WgAction
  | sendToPeer (bytes : List UInt8)
  | deliverToTun (packet : List UInt8)
  | nothing
  | error (message : String)
deriving DecidableEq, Repr

def WgAction.passedOver : WgAction → Bool
  | .nothing | .error _ => true
  | .sendToPeer _ | .deliverToTun _ => false

/-- The WireGuard tunnels of a node, each known by the key of its peer. Handshake state and
replay windows are abstracted away: a tunnel accepts exactly what its peer produced. What a tunnel
held back during a handshake leaves for the network only, so the draining that follows a datagram
has no part here. -/
class Tunnels where
  decapsulate : (peerPubkey datagram : List UInt8) → WgAction
  producer : (datagram : List UInt8) → Option (List UInt8)
  accepts_iff : ∀ peerPubkey datagram,
    (∀ message, decapsulate peerPubkey datagram ≠ .error message) ↔
      producer datagram = some peerPubkey
  encapsulate : (peerPubkey packet : List UInt8) → List UInt8
  decapsulate_probe : ∀ peerPubkey src dst,
    decapsulate peerPubkey (encapsulate peerPubkey (directProbePacket src dst)) =
      .deliverToTun (directProbePacket src dst)

structure Delivery where
  session : SessionId
  packet : List UInt8
deriving DecidableEq, Repr

def PeerSession.innerSourceAllowed (s : PeerSession) (packet : List UInt8) : Bool :=
  (ipv6Source packet).elim false s.isAllowedSource

def applyWgAction (id : SessionId) (s : PeerSession) : WgAction → Option Delivery
  | .deliverToTun packet => if s.innerSourceAllowed packet then some ⟨id, packet⟩ else none
  | .nothing | .error _ | .sendToPeer _ => none

namespace SessionTable

def deref (t : SessionTable) (id : Option SessionId) : Option (SessionId × PeerSession) :=
  id.bind (fun id => (t.heap.lookup id).map (fun s => (id, s)))

def visited (t : SessionTable) (order : SessionId → Nat) : List (SessionId × PeerSession) :=
  t.snapshot.mergeSort (fun a b => order a.1 ≤ order b.1)

end SessionTable

section Receiving

variable [Tunnels]

def processInboundDatagram (id : SessionId) (s : PeerSession) (datagram : List UInt8) :
    Option Delivery :=
  applyWgAction id s (Tunnels.decapsulate s.peerPubkey datagram)

inductive RelayInbound
  | malformed
  | noSession (src : List UInt8)
  | injected (delivery : Option Delivery)
deriving DecidableEq, Repr

def RelayInbound.delivery : RelayInbound → Option Delivery
  | .injected delivery => delivery
  | .malformed | .noSession _ => none

namespace SessionTable

def udpRecv (t : SessionTable) (order : SessionId → Nat) (source : SocketAddr)
    (datagram : List UInt8) : SessionTable × Option Delivery :=
  match t.deref (t.byEndpoint.lookup source) with
  | some (id, s) => (t, processInboundDatagram id s datagram)
  | none =>
    match (t.visited order).find? (fun c =>
        !(Tunnels.decapsulate c.2.peerPubkey datagram).passedOver) with
    | some (id, s) => (t.learnEndpoint id source, processInboundDatagram id s datagram)
    | none => (t, none)

def handleInbound (t : SessionTable) (buf : List UInt8) : RelayInbound :=
  match decodeRelayFrame buf with
  | none => .malformed
  | some (src, payload) =>
    match t.deref (t.byPubkey.lookup src) with
    | none => .noSession src
    | some (id, s) => .injected (processInboundDatagram id s payload)

end SessionTable

inductive TableOp
  | upsert (info : Client.PeerInfo)
  | remove (ula : Ipv6Addr)
  | appRoutes (hostUla : Ipv6Addr) (advertised : List Ipv6Addr)
  | datagram (order : SessionId → Nat) (source : SocketAddr) (bytes : List UInt8)
  | relayed (buf : List UInt8)
  | downgrade (ula : Ipv6Addr)

def SessionTable.tableStep (t : SessionTable) : TableOp → SessionTable × Option Delivery
  | .upsert info => (t.upsert info, none)
  | .remove ula => ((t.remove ula).1, none)
  | .appRoutes hostUla advertised => (t.reconcileAppRoutes hostUla advertised, none)
  | .datagram order source bytes => t.udpRecv order source bytes
  | .relayed buf => (t, (t.handleInbound buf).delivery)
  | .downgrade ula => (t.downgrade ula, none)

def dataPlane : Machine SessionTable TableOp (Option Delivery) where
  init := .new
  step := SessionTable.tableStep
  admits _ _ := True

end Receiving

namespace SessionTable

variable {t : SessionTable}

theorem deref_eq_some_iff {o : Option SessionId} {id : SessionId} {s : PeerSession} :
    t.deref o = some (id, s) ↔ o = some id ∧ t.heap.lookup id = some s := by
  simp only [deref, Option.bind_eq_some_iff, Option.map_eq_some_iff, Prod.mk.injEq]
  constructor
  · rintro ⟨id', hid, s', hs, rfl, rfl⟩
    exact ⟨hid, hs⟩
  · rintro ⟨hid, hs⟩
    exact ⟨id, hid, s, hs, rfl, rfl⟩

theorem mem_snapshot_iff {c : SessionId × PeerSession} :
    c ∈ t.snapshot ↔ ∃ ula, t.sessionAt ula = some c := by
  simp only [snapshot, List.mem_filterMap, AList.mem_values_iff]
  constructor
  · rintro ⟨id, ⟨ula, hid⟩, hs⟩
    exact ⟨ula, by rw [sessionAt, hid]; exact hs⟩
  · rintro ⟨ula, hat⟩
    obtain ⟨id, hid, hs⟩ := Option.bind_eq_some_iff.mp hat
    exact ⟨id, ⟨ula, hid⟩, hs⟩

theorem applyWgAction_eq_some {id : SessionId} {s : PeerSession} {action : WgAction}
    {d : Delivery} (h : applyWgAction id s action = some d) :
    d.session = id ∧ ∃ source, ipv6Source d.packet = some source ∧ source ∈ s.allowedIps := by
  cases action with
  | deliverToTun packet =>
    simp only [applyWgAction, PeerSession.innerSourceAllowed] at h
    cases hsource : ipv6Source packet with
    | none => simp [hsource] at h
    | some source =>
      simp only [hsource, Option.elim_some, PeerSession.isAllowedSource, decide_eq_true_eq,
        Option.ite_none_right_eq_some, Option.some.injEq] at h
      obtain ⟨hallowed, rfl⟩ := h
      exact ⟨rfl, source, hsource, hallowed⟩
  | _ => simp [applyWgAction] at h

variable [Tunnels]

inductive Received (t : SessionTable) (source : SocketAddr) (datagram : List UInt8) :
    SessionTable × Option Delivery → Prop
  | known {id : SessionId} {s : PeerSession} (hid : t.byEndpoint.lookup source = some id)
      (hs : t.heap.lookup id = some s) :
      Received t source datagram (t, processInboundDatagram id s datagram)
  | learned {ula : Ipv6Addr} {id : SessionId} {s : PeerSession}
      (hat : t.sessionAt ula = some (id, s)) :
      Received t source datagram (t.learnEndpoint id source, processInboundDatagram id s datagram)
  | unclaimed : Received t source datagram (t, none)

theorem received (t : SessionTable) (order : SessionId → Nat) (source : SocketAddr)
    (datagram : List UInt8) : Received t source datagram (t.udpRecv order source datagram) := by
  unfold udpRecv
  split
  · rename_i id s hfast
    obtain ⟨hid, hs⟩ := deref_eq_some_iff.mp hfast
    exact .known hid hs
  · split
    · rename_i id s hslow
      have hmem := List.mem_of_find?_eq_some hslow
      rw [visited, List.mem_mergeSort] at hmem
      obtain ⟨ula, hat⟩ := mem_snapshot_iff.mp hmem
      exact .learned hat
    · exact .unclaimed

theorem udpRecv_induction {P : SessionTable → Prop} (h : P t) {source : SocketAddr}
    (hlearned : ∀ {ula id s}, t.sessionAt ula = some (id, s) → P (t.learnEndpoint id source))
    (order : SessionId → Nat) (datagram : List UInt8) : P (t.udpRecv order source datagram).1 := by
  have hr := t.received order source datagram
  generalize t.udpRecv order source datagram = out at hr
  cases hr with
  | known => exact h
  | learned hat => exact hlearned hat
  | unclaimed => exact h

theorem handleInbound_eq_some {buf : List UInt8} {d : Delivery}
    (h : (t.handleInbound buf).delivery = some d) :
    ∃ key id s payload, t.byPubkey.lookup key = some id ∧ t.heap.lookup id = some s ∧
      processInboundDatagram id s payload = some d := by
  unfold handleInbound at h
  split at h
  · simp [RelayInbound.delivery] at h
  · split at h
    · simp [RelayInbound.delivery] at h
    · rename_i src payload _ _ id s hderef
      obtain ⟨hid, hs⟩ := deref_eq_some_iff.mp hderef
      exact ⟨src, id, s, payload, hid, hs, h⟩

theorem exists_delivered {s : PeerSession} {source : Ipv6Addr} (h : source ∈ s.allowedIps)
    (id : SessionId) :
    ∃ datagram packet, processInboundDatagram id s datagram = some ⟨id, packet⟩ := by
  refine ⟨Tunnels.encapsulate s.peerPubkey (directProbePacket source source),
    directProbePacket source source, ?_⟩
  rw [processInboundDatagram, Tunnels.decapsulate_probe]
  simp [applyWgAction, PeerSession.innerSourceAllowed, ipv6Source_directProbePacket,
    PeerSession.isAllowedSource, h]

theorem Inv.tableStep (h : t.Inv) (op : TableOp) : (t.tableStep op).1.Inv := by
  cases op with
  | upsert info => exact h.upsert info
  | remove ula => exact h.remove ula
  | appRoutes hostUla advertised => exact h.reconcileAppRoutes hostUla advertised
  | datagram order source bytes =>
    refine udpRecv_induction h ?_ order bytes
    exact fun hat => h.learnEndpoint (sessionAt_eq_some_iff.mp hat).2 source
  | relayed buf => exact h
  | downgrade ula => exact h.downgrade ula

end SessionTable

section Runs

variable [Tunnels]

theorem tableInv_of_run {C : SessionTable → TableOp → Prop} {tr : List (TableOp × Option Delivery)}
    {t : SessionTable} (h : dataPlane.Run C tr t) : t.Inv :=
  h.invariant (I := fun _ t => t.Inv) SessionTable.inv_new (fun _ _ op _ hinv _ _ => hinv.tableStep op)

def Reachable (t : SessionTable) : Prop := ∃ tr, dataPlane.Reach tr t

variable {t : SessionTable}

theorem Reachable.step (h : Reachable t) (op : TableOp) : Reachable (t.tableStep op).1 := by
  obtain ⟨tr, hr⟩ := h
  exact ⟨_, .step op hr trivial trivial⟩

theorem Reachable.follow (h : Reachable t) (info : Client.PeerInfo) : Reachable (t.follow info) :=
  (h.step (.upsert info)).step (.appRoutes info.ula info.hostedAppUlas)

theorem Reachable.foldl {α : Type} {f : SessionTable → α → SessionTable}
    (hf : ∀ {t}, Reachable t → ∀ a, Reachable (f t a)) (h : Reachable t) (l : List α) :
    Reachable (l.foldl f t) := by
  induction l generalizing t with
  | nil => exact h
  | cons a l ih => exact ih (hf h a)

theorem Reachable.pruneAt (h : Reachable t) (remoteUlas : List Ipv6Addr) (ula : Ipv6Addr) :
    Reachable (SessionTable.pruneAt remoteUlas t ula) := by
  unfold SessionTable.pruneAt
  split
  · exact h
  · exact h.step (.remove ula)

theorem Reachable.removeStale (h : Reachable t) (peerId : Uuid)
    (candidate : SessionId × PeerSession) :
    Reachable (SessionTable.removeStale peerId t candidate) := by
  unfold SessionTable.removeStale
  split
  · split
    · exact h.step (.remove candidate.2.ula)
    · exact h
  · exact h

def SyncOp.rosterDriven : SyncOp → Prop
  | .learn _ _ => False
  | .event _ _ | .reconcile _ _ | .downgrade _ => True

/-- Every roster history is a run of single steps. -/
theorem reachable_of_sync [Crates] {tr : List (SyncOp × Unit)}
    (h : sync.Run (fun _ op => op.rosterDriven) tr t) : Reachable t := by
  induction h with
  | start => exact ⟨[], .start⟩
  | @step tr t op _ _ hop ih =>
    cases op with
    | event lookupHost e =>
      show Reachable (t.applyEvent lookupHost e)
      cases e with
      | added r =>
        simp only [SessionTable.applyEvent]
        split
        · exact ih
        · exact ih.follow _
      | updated r =>
        simp only [SessionTable.applyEvent]
        split
        · exact ih
        · exact ih.follow _
      | removed peerId => exact ih.foldl (fun h c => h.removeStale peerId c) _
    | reconcile lookupHost remote =>
      exact (ih.foldl (fun h info => h.follow info) _).foldl (fun h ula => h.pruneAt _ ula) _
    | learn ula source => exact hop.elim
    | downgrade ula => exact ih.step (.downgrade ula)

end Runs

namespace Reference

def encapsulate : List UInt8 → List UInt8 → List UInt8
  | [], packet => 0 :: packet
  | b :: key, packet => 1 :: b :: encapsulate key packet

def parseDatagram : List UInt8 → Option (List UInt8 × List UInt8)
  | 0 :: packet => some ([], packet)
  | 1 :: b :: rest => (parseDatagram rest).map (fun d => (b :: d.1, d.2))
  | _ => none

theorem parseDatagram_encapsulate (key packet : List UInt8) :
    parseDatagram (encapsulate key packet) = some (key, packet) := by
  induction key with
  | nil => rfl
  | cons b key ih => simp [encapsulate, parseDatagram, ih]

def decapsulate (peerPubkey datagram : List UInt8) : WgAction :=
  match parseDatagram datagram with
  | some (key, packet) => if key = peerPubkey then .deliverToTun packet else .error "WrongKey"
  | none => .error "InvalidPacket"

end Reference

@[reducible] def referenceTunnels : Tunnels where
  decapsulate := Reference.decapsulate
  producer datagram := (Reference.parseDatagram datagram).map Prod.fst
  accepts_iff peerPubkey datagram := by
    cases hparse : Reference.parseDatagram datagram with
    | none => simp [Reference.decapsulate, hparse]
    | some d =>
      by_cases hkey : d.1 = peerPubkey
      · simp [Reference.decapsulate, hparse, hkey]
      · simp [Reference.decapsulate, hparse, hkey]
  encapsulate := Reference.encapsulate
  decapsulate_probe := by
    intro peerPubkey src dst
    simp [Reference.decapsulate, Reference.parseDatagram_encapsulate]

section Example

attribute [local instance] referenceCrates referenceTunnels

theorem reachable_of_sync_home : Reachable homeTable :=
  reachable_of_sync (.exec .start (show sync.Admissible _ [] _ [_] from ⟨trivial, trivial, trivial⟩))

end Example

end ServiceMesh
