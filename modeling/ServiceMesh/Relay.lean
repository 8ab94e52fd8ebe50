import ServiceMesh.Wire

/-! The relay registry: two lanes per public key backed by bounded channels, a short-lived
spool for keys without a lane, the wake cool-down, and the frame layout. -/

namespace ServiceMesh

inductive Lane
  | hi
  | lo
deriving DecidableEq, Repr

/-- A bounded `mpsc` channel; `closed` once its receiver is gone. -/
structure Channel where
  cap : Nat
  queue : List (List UInt8)
  closed : Bool
deriving DecidableEq, Repr

structure LaneConn where
  id : UInt64
  tx : Nat
deriving DecidableEq, Repr

structure PeerConns where
  hi : Option LaneConn
  lo : Option LaneConn
deriving DecidableEq, Repr

namespace PeerConns

def empty : PeerConns := ⟨none, none⟩

def slot (c : PeerConns) : Lane → Option LaneConn
  | .hi => c.hi
  | .lo => c.lo

def setSlot (c : PeerConns) : Lane → Option LaneConn → PeerConns
  | .hi, conn => { c with hi := conn }
  | .lo, conn => { c with lo := conn }

def pick (c : PeerConns) (hiPrio : Bool) : Option Nat :=
  if hiPrio then (c.hi.or c.lo).map LaneConn.tx else c.lo.map LaneConn.tx

def isEmpty (c : PeerConns) : Bool := c.hi.isNone && c.lo.isNone

end PeerConns

structure SpooledFrame where
  at_ : Nat
  hiPrio : Bool
  frame : List UInt8
deriving DecidableEq, Repr

/-- Instants and durations count nanoseconds. -/
def secs (n : Nat) : Nat := n * 1000000000

def spoolCap : Nat := 16
def spoolTtl : Nat := secs 2
def wakeCooldown : Nat := secs 5

structure RelayRegistry where
  conns : DashMap (List UInt8) PeerConns
  spool : DashMap (List UInt8) (List SpooledFrame)
  nextId : UInt64
  wakeCooldown : DashMap (List UInt8) Nat
  channels : List Channel
deriving DecidableEq

inductive TrySendError
  | full
  | closed
deriving DecidableEq, Repr

namespace RelayRegistry

def new : RelayRegistry := ⟨∅, ∅, 0, ∅, []⟩

def trySend (r : RelayRegistry) (tx : Nat) (frame : List UInt8) :
    Except TrySendError RelayRegistry :=
  match r.channels[tx]? with
  | none => .error .closed
  | some ch =>
    if ch.closed then .error .closed
    else if ch.cap ≤ ch.queue.length then .error .full
    else
      .ok { r with channels := r.channels.set tx { ch with queue := ch.queue ++ [frame] } }

def isClosed (r : RelayRegistry) (tx : Nat) : Bool :=
  match r.channels[tx]? with
  | none => true
  | some ch => ch.closed

def pushSpool (r : RelayRegistry) (now : Nat) (pubkey : List UInt8) (hiPrio : Bool)
    (frame : List UInt8) : RelayRegistry :=
  let q := (r.spool.lookup pubkey).getD []
  let q := if spoolCap ≤ q.length then q.drop 1 else q
  { r with spool := r.spool.insert pubkey (q ++ [⟨now, hiPrio, frame⟩]) }

def forward (r : RelayRegistry) (now : Nat) (pubkey frame : List UInt8) (hiPrio : Bool) :
    RelayRegistry × Bool :=
  match (r.conns.lookup pubkey).bind (fun c => c.pick hiPrio) with
  | some tx =>
    match r.trySend tx frame with
    | .ok r => (r, true)
    | .error .full => (r, false)
    | .error .closed => (r.pushSpool now pubkey hiPrio frame, false)
  | none => (r.pushSpool now pubkey hiPrio frame, false)

def flush (r : RelayRegistry) (now : Nat) (pubkey : List UInt8) (held : List SpooledFrame) :
    RelayRegistry :=
  held.foldl
    (fun r sf => if now - sf.at_ > spoolTtl then r else (r.forward now pubkey sf.frame sf.hiPrio).1) r

def register (r : RelayRegistry) (now : Nat) (pubkey : List UInt8) (lane : Lane) (cap : Nat) :
    RelayRegistry × UInt64 :=
  let id := r.nextId
  let conns := (r.conns.lookup pubkey).getD PeerConns.empty
  let connected : RelayRegistry :=
    { r with
      nextId := r.nextId + 1
      channels := r.channels ++ [⟨cap, [], false⟩]
      conns := r.conns.insert pubkey (conns.setSlot lane (some ⟨id, r.channels.length⟩)) }
  match r.spool.lookup pubkey with
  | none => (connected, id)
  | some held => ({ connected with spool := r.spool.erase pubkey }.flush now pubkey held, id)

def unregister (r : RelayRegistry) (pubkey : List UInt8) (lane : Lane) (id : UInt64) :
    RelayRegistry :=
  match r.conns.lookup pubkey with
  | none => r
  | some c =>
    let c := if (c.slot lane).any (fun conn => conn.id == id) then c.setSlot lane none else c
    { r with
      conns := if c.isEmpty then r.conns.erase pubkey else r.conns.modify pubkey (fun _ => c) }

def dropPubkey (r : RelayRegistry) (pubkey : List UInt8) : RelayRegistry :=
  { r with conns := r.conns.erase pubkey, spool := r.spool.erase pubkey }

def closedToNone (r : RelayRegistry) (conn : Option LaneConn) : Option LaneConn :=
  conn.filter (fun c => !r.isClosed c.tx)

def reapClosed (r : RelayRegistry) : RelayRegistry :=
  let live (c : PeerConns) : PeerConns := ⟨r.closedToNone c.hi, r.closedToNone c.lo⟩
  let conns := r.conns.keys.foldl (fun conns k => conns.modify k live) r.conns
  { r with conns := conns.retain (fun _ c => !c.isEmpty) }

def reapExpiredSpool (r : RelayRegistry) (now : Nat) : RelayRegistry :=
  let fresh (q : List SpooledFrame) := q.filter (fun sf => decide (now - sf.at_ ≤ spoolTtl))
  let spool := r.spool.keys.foldl (fun spool k => spool.modify k fresh) r.spool
  { r with spool := spool.retain (fun _ q => !q.isEmpty) }

def takeWakeSlot (r : RelayRegistry) (now : Nat) (dst : List UInt8) : RelayRegistry × Bool :=
  match r.wakeCooldown.lookup dst with
  | some last =>
    if now - last ≥ ServiceMesh.wakeCooldown then
      ({ r with wakeCooldown := r.wakeCooldown.insert dst now }, true)
    else (r, false)
  | none => ({ r with wakeCooldown := r.wakeCooldown.insert dst now }, true)

def deliver (r : RelayRegistry) (tx : Nat) : RelayRegistry × Option (List UInt8) :=
  match r.channels[tx]? with
  | some ⟨cap, frame :: rest, closed⟩ =>
    ({ r with channels := r.channels.set tx ⟨cap, rest, closed⟩ }, some frame)
  | _ => (r, none)

def close (r : RelayRegistry) (tx : Nat) : RelayRegistry :=
  match r.channels[tx]? with
  | some ch => { r with channels := r.channels.set tx { ch with queue := [], closed := true } }
  | none => r

end RelayRegistry

def relayHiCap : Nat := 1024
def relayLoCap : Nat := 256

def laneChannelCap : Lane → Nat
  | .hi => relayHiCap
  | .lo => relayLoCap

def parseLane (lane : Option String) : Lane := if lane = some "hi" then .hi else .lo

def encodeRelayFrame (peerPubkey payload : List UInt8) : List UInt8 := peerPubkey ++ payload

def decodeRelayFrame (buf : List UInt8) : Option (List UInt8 × List UInt8) :=
  if buf.length < 33 then none else some (buf.take 32, buf.drop 32)

end ServiceMesh
