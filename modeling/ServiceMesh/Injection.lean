import ServiceMesh.Transmit

/-! An attacker who puts datagrams of any content under any source address on the socket of a node,
and what becomes of the node without them. -/

namespace ServiceMesh

open StdNet (Ipv6Addr SocketAddr)

inductive ContestedOp
  | own (op : WireOp)
  | injected (order : SessionId → Nat) (source : SocketAddr) (bytes : List UInt8)

namespace ContestedOp

def toWireOp : ContestedOp → WireOp
  | .own op => op
  | .injected order source bytes => .datagram order source bytes

def honest : Int × ContestedOp → Option (Int × WireOp)
  | (now, .own op) => some (now, op)
  | (_, .injected ..) => none

end ContestedOp

def contested [Crates] [Tunnels] (cfg : WireConfig) : Machine WireNode (Int × ContestedOp) Bool where
  init := (wireNode cfg).init
  step n op := (wireNode cfg).step n (op.1, op.2.toWireOp)
  admits _ _ := True

namespace WireNode

variable [Tunnels] {cfg : WireConfig} {now : Int} {n : WireNode}

/-- The peers are behind none of the attacker's datagrams, and nothing waits in the queue that one
would set off. -/
def Harmless (n : WireNode) : Int × ContestedOp → Prop
  | (_, .own _) => True
  | (_, .injected _ source bytes) =>
    match n.table.deref (n.table.byEndpoint.lookup source) with
    | some (id, s) => bytes ≠ [] ∧ Tunnels.producer bytes ≠ some s.peerPubkey ∧ n.queues id = []
    | none => ∀ ula id s, n.table.sessionAt ula = some (id, s) →
        if bytes = [] then n.queues id = [] else Tunnels.producer bytes ≠ some s.peerPubkey

theorem decapsulate_foreign {id : SessionId} {s : PeerSession} {bytes : List UInt8}
    (hs : n.table.heap.lookup id = some s) (hne : bytes ≠ [])
    (hforeign : Tunnels.producer bytes ≠ some s.peerPubkey) :
    ∃ message, n.decapsulate id bytes = (n, .error message) := by
  have hrefused : ∃ message, Tunnels.decapsulate s.peerPubkey bytes = .error message := by
    by_contra hno
    push Not at hno
    exact hforeign ((Tunnels.accepts_iff s.peerPubkey bytes).mp hno)
  obtain ⟨message, hmessage⟩ := hrefused
  refine ⟨message, ?_⟩
  cases bytes with
  | nil => exact absurd rfl hne
  | cons byte rest => simp [decapsulate, hs, hmessage]

theorem processInboundDatagram_foreign {id : SessionId} {s : PeerSession} {source : SocketAddr}
    {bytes : List UInt8} (hs : n.table.heap.lookup id = some s) (hne : bytes ≠ [])
    (hforeign : Tunnels.producer bytes ≠ some s.peerPubkey) (hqueue : n.queues id = []) :
    n.processInboundDatagram cfg now id (some source) bytes = n := by
  obtain ⟨message, hrefused⟩ := decapsulate_foreign hs hne hforeign
  simp [processInboundDatagram, hrefused, WgAction.isError, act, applyWgAction, hqueue, drain]

theorem udpRecv_harmless {order : SessionId → Nat} {source : SocketAddr} {bytes : List UInt8}
    (h : n.Harmless (now, .injected order source bytes)) :
    n.udpRecv cfg now order source bytes = n := by
  cases hfast : n.table.deref (n.table.byEndpoint.lookup source) with
  | some c =>
    simp only [Harmless, hfast] at h
    obtain ⟨hne, hforeign, hqueue⟩ := h
    have hs := (SessionTable.deref_eq_some_iff.mp hfast).2
    simp only [udpRecv, hfast]
    exact processInboundDatagram_foreign hs hne hforeign hqueue
  | none =>
    simp only [Harmless, hfast] at h
    -- every session passes the datagram over
    have hpassed : (n.table.visited order).find?
        (fun c => !(n.decapsulate c.1 bytes).2.passedOver) = none := by
      rw [List.find?_eq_none]
      intro c hc
      rw [SessionTable.visited, List.mem_mergeSort] at hc
      obtain ⟨ula, hat⟩ := SessionTable.mem_snapshot_iff.mp hc
      have hharmless := h ula c.1 c.2 hat
      by_cases hempty : bytes = []
      · rw [if_pos hempty] at hharmless
        simp [hempty, decapsulate, hharmless, WgAction.passedOver]
      · rw [if_neg hempty] at hharmless
        have hs := (SessionTable.sessionAt_eq_some_iff.mp hat).2
        obtain ⟨message, hrefused⟩ := decapsulate_foreign hs hempty hharmless
        simp [hrefused, WgAction.passedOver]
    simp only [udpRecv, hfast, hpassed]

end WireNode

section Example

attribute [local instance] referenceCrates referenceTunnels

def attackedConfig : WireConfig := ⟨some ⟨false⟩, wireUla⟩

def attackedRun (ops : List (Int × ContestedOp)) : WireNode :=
  ((contested attackedConfig).exec [] (contested attackedConfig).init ops).2

def attackerAddr : SocketAddr := .v4 ⟨203, 0, 113, 1⟩ 7

def heldOps : List (Int × ContestedOp) :=
  [(1, .own (.upsert { wirePeer with listenEndpoint := none })),
    (2, .own (.tun (directProbePacket wireUla wirePeer.ula) .nothing [4]))]

end Example

end ServiceMesh
