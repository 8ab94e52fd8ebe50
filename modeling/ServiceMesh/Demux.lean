import ServiceMesh.DataPlane

/-! Which session a datagram is processed under. The index of source addresses is asked first, and
what it says is final; without an entry every live session is tried. -/

namespace ServiceMesh

open StdNet (Ipv6Addr SocketAddr)

namespace SessionTable

variable [Tunnels] {t : SessionTable}

def takes (datagram : List UInt8) (c : SessionId × PeerSession) : Bool :=
  !(Tunnels.decapsulate c.2.peerPubkey datagram).passedOver

def receiver (t : SessionTable) (order : SessionId → Nat) (source : SocketAddr)
    (datagram : List UInt8) : Option (SessionId × PeerSession) :=
  match t.deref (t.byEndpoint.lookup source) with
  | some c => some c
  | none => (t.visited order).find? (takes datagram)

variable (order : SessionId → Nat)

theorem udpRecv_delivery (source : SocketAddr) (datagram : List UInt8) :
    (t.udpRecv order source datagram).2 =
      (t.receiver order source datagram).bind (fun c => processInboundDatagram c.1 c.2 datagram) := by
  unfold udpRecv receiver
  cases t.deref (t.byEndpoint.lookup source) with
  | some c => rfl
  | none =>
    have htakes : (fun c : SessionId × PeerSession =>
        !(Tunnels.decapsulate c.2.peerPubkey datagram).passedOver) = takes datagram := rfl
    simp only [htakes]
    cases (t.visited order).find? (takes datagram) with
    | some c => rfl
    | none => rfl

def unindexed (t : SessionTable) : SessionTable := { t with byEndpoint := ∅ }

def OnlyTaker (t : SessionTable) (datagram : List UInt8) (c : SessionId × PeerSession) : Prop :=
  ∀ ula c', t.sessionAt ula = some c' → takes datagram c' = true → c' = c

theorem find_taker {datagram : List UInt8} {ula : Ipv6Addr} {c : SessionId × PeerSession}
    (hat : t.sessionAt ula = some c) (htakes : takes datagram c = true)
    (honly : t.OnlyTaker datagram c) : (t.visited order).find? (takes datagram) = some c := by
  have hmem : c ∈ t.visited order := by
    rw [visited, List.mem_mergeSort]
    exact mem_snapshot_iff.mpr ⟨ula, hat⟩
  cases hfind : (t.visited order).find? (takes datagram) with
  | none =>
    have hnot := List.find?_eq_none.mp hfind c hmem
    exact absurd htakes hnot
  | some c' =>
    have hmem' := List.mem_of_find?_eq_some hfind
    rw [visited, List.mem_mergeSort] at hmem'
    obtain ⟨ula', hat'⟩ := mem_snapshot_iff.mp hmem'
    have hc' := honly ula' c' hat' (List.find?_some hfind)
    rw [hc']

theorem receiver_unindexed (source : SocketAddr) {datagram : List UInt8} {ula : Ipv6Addr}
    {c : SessionId × PeerSession} (hat : t.sessionAt ula = some c)
    (htakes : takes datagram c = true) (honly : t.OnlyTaker datagram c) :
    t.unindexed.receiver order source datagram = some c :=
  find_taker order hat htakes honly

theorem Inv.receiver_iff (h : t.Inv) (order : SessionId → Nat) (source : SocketAddr)
    {datagram : List UInt8} {ula : Ipv6Addr} {c : SessionId × PeerSession}
    (hat : t.sessionAt ula = some c) (htakes : takes datagram c = true)
    (honly : t.OnlyTaker datagram c) :
    t.receiver order source datagram = some c ↔
      ∀ id, t.byEndpoint.lookup source = some id → id = c.1 := by
  have hs := (sessionAt_eq_some_iff.mp hat).2
  cases hlook : t.byEndpoint.lookup source with
  | none =>
    have hfind := find_taker order hat htakes honly
    refine iff_of_true ?_ (by simp)
    rw [receiver, hlook]
    exact hfind
  | some id =>
    obtain ⟨s, hid⟩ := h.aliases hlook
    have hderef : t.deref (some id) = some (id, s) := deref_eq_some_iff.mpr ⟨rfl, hid⟩
    have hrecv : t.receiver order source datagram = some (id, s) := by
      rw [receiver, hlook, hderef]
    rw [hrecv]
    constructor
    · intro heq id' hid'
      rw [← Option.some.inj hid', ← Option.some.inj heq]
    · intro hid'
      have heq := hid' id rfl
      rw [heq] at hid
      rw [heq, Option.some.inj (hid.symm.trans hs)]

end SessionTable

/-- A datagram that one live session takes is processed under it exactly if the index has nothing
else to say about its source. -/
theorem indexing_hides_no_peer_iff [Tunnels] {tr : List (TableOp × Option Delivery)}
    {t : SessionTable} (h : dataPlane.Reach tr t) (order : SessionId → Nat) (source : SocketAddr)
    {datagram : List UInt8} {ula : Ipv6Addr} {c : SessionId × PeerSession}
    (hat : t.sessionAt ula = some c) (htakes : SessionTable.takes datagram c = true)
    (honly : t.OnlyTaker datagram c) :
    (t.receiver order source datagram = some c ∧
      t.receiver order source datagram = t.unindexed.receiver order source datagram) ↔
      ∀ id, t.byEndpoint.lookup source = some id → id = c.1 := by
  rw [SessionTable.receiver_unindexed order source hat htakes honly, and_self]
  exact (tableInv_of_run h).receiver_iff order source hat htakes honly

section Example

attribute [local instance] referenceTunnels

def sharedAddr : SocketAddr := .v4 ⟨192, 0, 2, 1⟩ 7

def settledPeer : Client.PeerInfo :=
  ⟨1, List.replicate 32 1, ⟨0xfd00, 0, 0, 0, 0, 0, 0, 1⟩, some sharedAddr, []⟩

def movingPeer : Client.PeerInfo :=
  ⟨2, List.replicate 32 2, ⟨0xfd00, 0, 0, 0, 0, 0, 0, 2⟩, none, []⟩

def sharedTable : SessionTable :=
  (dataPlane.exec [] dataPlane.init [.upsert settledPeer, .upsert movingPeer]).2

def movingSession : SessionId × PeerSession :=
  (1, ⟨2, movingPeer.ula, List.replicate 32 2, {movingPeer.ula}, none, false⟩)

def movingDatagram : List UInt8 :=
  Tunnels.encapsulate movingPeer.wgPublicKey (directProbePacket movingPeer.ula settledPeer.ula)

theorem sessionAt_movingPeer : sharedTable.sessionAt movingPeer.ula = some movingSession := by
  decide

theorem takes_movingDatagram : SessionTable.takes movingDatagram movingSession = true := by
  decide

theorem onlyTaker_movingSession : sharedTable.OnlyTaker movingDatagram movingSession := by
  have hothers : ∀ c ∈ sharedTable.snapshot,
      SessionTable.takes movingDatagram c = true → c = movingSession := by decide
  intro ula c hc
  exact hothers c (SessionTable.mem_snapshot_iff.mpr ⟨ula, hc⟩)

/-- The second peer sends from the address that the first one advertises. -/
theorem shared_address_hides_peer :
    sharedTable.sessionAt movingPeer.ula = some movingSession ∧
      SessionTable.takes movingDatagram movingSession = true ∧
      (sharedTable.receiver (fun _ => 0) sharedAddr movingDatagram).map Prod.fst = some 0 ∧
      (sharedTable.udpRecv (fun _ => 0) sharedAddr movingDatagram).2 = none ∧
      (sharedTable.unindexed.udpRecv (fun _ => 0) sharedAddr movingDatagram).2 =
        some ⟨1, directProbePacket movingPeer.ula settledPeer.ula⟩ := by
  refine ⟨sessionAt_movingPeer, takes_movingDatagram, by decide, by decide, ?_⟩
  rw [SessionTable.udpRecv_delivery, SessionTable.receiver_unindexed (fun _ => 0) sharedAddr
    sessionAt_movingPeer takes_movingDatagram onlyTaker_movingSession]
  decide

theorem indexing_hides_no_peer_elsewhere :
    sharedTable.receiver (fun _ => 0) (.v4 ⟨192, 0, 2, 2⟩ 7) movingDatagram =
      some movingSession := by
  have hrun : dataPlane.Reach (dataPlane.exec [] dataPlane.init
      [.upsert settledPeer, .upsert movingPeer]).1 sharedTable :=
    Machine.Run.exec .start (Machine.Admissible.of_free (fun _ _ => trivial) [] _ _)
  have hfree : sharedTable.byEndpoint.lookup (.v4 ⟨192, 0, 2, 2⟩ 7) = none := by decide
  have hgeneral := indexing_hides_no_peer_iff hrun (fun _ => 0) (.v4 ⟨192, 0, 2, 2⟩ 7)
    sessionAt_movingPeer takes_movingDatagram onlyTaker_movingSession
  refine (hgeneral.mpr ?_).1
  intro id hid
  rw [hfree] at hid
  simp at hid

end Example

end ServiceMesh
