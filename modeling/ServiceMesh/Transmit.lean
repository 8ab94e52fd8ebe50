import ServiceMesh.DirectPath
import ServiceMesh.PeerIds

/-! The data plane of a node as a whole: the session table with the direct paths of its sessions,
and everything that sends. What the tunnels answer when they seal a packet or look at their timers
is left to the surroundings; what they make of a datagram is not. -/

namespace ServiceMesh

open StdNet (Ipv6Addr SocketAddr)

def isWgKeepalive (bytes : List UInt8) : Bool := bytes.length = 32 && bytes.head? = some 4

def isWgDataFrame (bytes : List UInt8) : Bool := 32 < bytes.length && bytes.head? = some 4

def ipv6Destination (bytes : List UInt8) : Option Ipv6Addr :=
  if bytes.length < 40 ∨ (bytes.headD 0).toNat / 16 ≠ 6 then none
  else some (.ofOctets ((bytes.drop 24).take 16))

def isEphemeralPeer (ula : Ipv6Addr) : Bool := ula.seg1 = 0x1f02

structure RelayHandle where
  relayOnly : Bool
deriving DecidableEq, Repr

structure WireConfig where
  relay : Option RelayHandle
  myUla : Ipv6Addr
deriving DecidableEq, Repr

inductive Site
  | wire
  | floored
  | dataProbe
  | punch
deriving DecidableEq, Repr

/-- One frame on its way out: the address it was handed to the socket for, if it was, and the keys
it was queued on the relay for. -/
structure Sending where
  site : Site
  session : SessionId
  bytes : List UInt8
  udp : Option SocketAddr
  relayed : List (List UInt8)
deriving DecidableEq, Repr

inductive WireEvent
  | sent (s : Sending)
  | delivered (now : Int) (session : SessionId) (source : Option SocketAddr) (packet : List UInt8)
deriving DecidableEq, Repr

/-- `queues` has the frames that a tunnel held back and gives out when it is drained. The log is
there for the theorems: it has everything that was sent and delivered, the latest first. -/
structure WireNode where
  table : SessionTable
  paths : SessionId → PathState
  queues : SessionId → List (List UInt8)
  kicks : List SessionId
  clocks : LivenessClocks
  log : List WireEvent

namespace WireNode

def init : WireNode := ⟨.new, fun _ => .fresh, fun _ => [], [], .unset, []⟩

def hasPeers (n : WireNode) : Bool := !n.table.ulas.isEmpty

def setPath (n : WireNode) (id : SessionId) (p : PathState) : WireNode :=
  { n with paths := Function.update n.paths id p }

def setQueue (n : WireNode) (id : SessionId) (frames : List (List UInt8)) : WireNode :=
  { n with queues := Function.update n.queues id frames }

def setClocks (n : WireNode) (c : LivenessClocks) : WireNode := { n with clocks := c }

def setTable (n : WireNode) (t : SessionTable) : WireNode := { n with table := t }

def emit (n : WireNode) (e : WireEvent) : WireNode := { n with log := e :: n.log }

def probeBeside (relay : RelayHandle) (now : Int) (endpoint : Option SocketAddr) (p : PathState) :
    PathState × Option SocketAddr :=
  if relay.relayOnly || p.directSuppressed now then (p, none)
  else
    match endpoint with
    | none => (p, none)
    | some endpoint =>
      match p.shouldProbeDirect now directProbeInterval with
      | (p, true) => (p.noteHandshakeFailure now, some endpoint)
      | (p, false) => (p, none)

def noteSend (now : Int) (bytes : List UInt8) (n : WireNode) : WireNode :=
  if isWgKeepalive bytes then n else n.setClocks (n.clocks.noteSendAttempt now)

def sendWire (cfg : WireConfig) (now : Int) (id : SessionId) (bytes : List UInt8) (n : WireNode) :
    WireNode :=
  match n.table.heap.lookup id with
  | none => n
  | some s =>
    let n := n.noteSend now bytes
    match (n.paths id).directConfirmed, s.endpoint with
    | true, some endpoint =>
      let n := if isWgDataFrame bytes then n.setPath id ((n.paths id).noteDirectTx now) else n
      n.emit (.sent ⟨.wire, id, bytes, some endpoint, []⟩)
    | _, endpoint =>
      match cfg.relay with
      | some relay =>
        let probed := probeBeside relay now endpoint (n.paths id)
        (n.setPath id probed.1).emit (.sent ⟨.wire, id, bytes, probed.2, [s.peerPubkey]⟩)
      | none =>
        match endpoint with
        | some endpoint => n.emit (.sent ⟨.wire, id, bytes, some endpoint, []⟩)
        | none => n

def sendWireRelayFloored (cfg : WireConfig) (now : Int) (id : SessionId) (bytes : List UInt8)
    (n : WireNode) : WireNode :=
  match n.table.heap.lookup id with
  | none => n
  | some s =>
    let n := n.noteSend now bytes
    match cfg.relay with
    | some _ => n.emit (.sent ⟨.floored, id, bytes, none, [s.peerPubkey]⟩)
    | none => n

def deliver (now : Int) (id : SessionId) (source : Option SocketAddr) (packet : List UInt8)
    (n : WireNode) : WireNode :=
  let n := n.setClocks (n.clocks.noteInboundDataFrame now)
  let n := if source.isSome then n.setPath id ((n.paths id).confirmDirect now) else n
  n.emit (.delivered now id source packet)

def applyWgAction (cfg : WireConfig) (now : Int) (id : SessionId) (source : Option SocketAddr)
    (action : WgAction) (n : WireNode) : WireNode :=
  match action with
  | .nothing | .error _ => n
  | .sendToPeer bytes => n.sendWire cfg now id bytes
  | .deliverToTun packet =>
    match n.table.heap.lookup id with
    | none => n
    | some s => if s.innerSourceAllowed packet then n.deliver now id source packet else n

def drain (cfg : WireConfig) (now : Int) (id : SessionId) (source : Option SocketAddr) :
    List (List UInt8) → WireNode → WireNode
  | [], n => n
  | frame :: rest, n =>
    drain cfg now id source rest
      ((n.setQueue id rest).applyWgAction cfg now id source (.sendToPeer frame))

end WireNode

def WgAction.isError : WgAction → Bool
  | .error _ => true
  | _ => false

section Receiving

variable [Tunnels]

namespace WireNode

def decapsulate (n : WireNode) (id : SessionId) (datagram : List UInt8) : WireNode × WgAction :=
  match datagram with
  | [] =>
    match n.queues id with
    | [] => (n, .nothing)
    | frame :: rest => (n.setQueue id rest, .sendToPeer frame)
  | _ =>
    (n, (n.table.heap.lookup id).elim .nothing (fun s =>
      Tunnels.decapsulate s.peerPubkey datagram))

def act (cfg : WireConfig) (now : Int) (id : SessionId) (source : Option SocketAddr)
    (action : WgAction) (n : WireNode) : WireNode :=
  let n := n.applyWgAction cfg now id source action
  n.drain cfg now id source (n.queues id)

def processInboundDatagram (cfg : WireConfig) (now : Int) (id : SessionId)
    (source : Option SocketAddr) (datagram : List UInt8) (n : WireNode) : WireNode :=
  let (n, first) := n.decapsulate id datagram
  let n := if source.isSome && !first.isError then n.setPath id ((n.paths id).noteDirectRx now)
    else n
  n.act cfg now id source first

def udpRecv (cfg : WireConfig) (now : Int) (order : SessionId → Nat) (source : SocketAddr)
    (datagram : List UInt8) (n : WireNode) : WireNode :=
  match n.table.deref (n.table.byEndpoint.lookup source) with
  | some (id, _) => n.processInboundDatagram cfg now id (some source) datagram
  | none =>
    match (n.table.visited order).find? (fun c => !(n.decapsulate c.1 datagram).2.passedOver) with
    | some (id, _) =>
      let (n, attempt) := n.decapsulate id datagram
      let n := n.setTable (n.table.learnEndpoint id source)
      let n := n.setPath id ((n.paths id).noteDirectRx now)
      n.act cfg now id (some source) attempt
    | none => n

def handleInbound (cfg : WireConfig) (now : Int) (buf : List UInt8) (n : WireNode) : WireNode :=
  match decodeRelayFrame buf with
  | none => n
  | some (src, payload) =>
    match n.table.deref (n.table.byPubkey.lookup src) with
    | none => n
    | some (id, _) => n.processInboundDatagram cfg now id none payload

end WireNode

end Receiving

/-- What a tunnel says to the timer: whether it has given up, its first frame after a re-arm, what
its own timers emit, whether it has a session, and the frame a probe is sealed into. -/
structure TimerAnswers where
  expired : Bool
  rearmed : WgAction
  timers : Option (List UInt8)
  established : Bool
  probe : WgAction

namespace WireNode

def rearmBase (eager : Bool) : Int := if eager then convergenceRearmBackoff else expiredRearmBackoff

def downgradePath (now : Int) (id : SessionId) (n : WireNode) : WireNode :=
  (n.setTable { n.table with
    heap := n.table.heap.modify id (fun s => { s with endpointLearned := false }) }).setPath id
      ((n.paths id).downgrade now)

def downgradeDirectIfStale (now : Int) (id : SessionId) (n : WireNode) : WireNode :=
  if (n.paths id).stale now directPathTtl then n.downgradePath now id else n

def downgradeDirectIfTxBlackholed (now : Int) (id : SessionId) (n : WireNode) : WireNode :=
  if (n.paths id).txBlackholed now directTxBlackholeTtl then n.downgradePath now id else n

def sendSealed (send : List UInt8 → WireNode → WireNode) (answer : WgAction) (n : WireNode) :
    WireNode :=
  match answer with
  | .sendToPeer bytes => send bytes n
  | _ => n

def maybeRearmExpiredSession (cfg : WireConfig) (now : Int) (id : SessionId) (a : TimerAnswers)
    (n : WireNode) : WireNode × Bool :=
  match n.table.heap.lookup id with
  | none => (n, false)
  | some s =>
    if a.expired && cfg.relay.isSome then
      match (n.paths id).shouldRearmExpired now (rearmBase (!isEphemeralPeer s.ula))
          expiredRearmBackoffCap with
      | (_, false) => (n, false)
      | (p, true) =>
        (sendSealed (sendWireRelayFloored cfg now id) a.rearmed (n.setPath id p), true)
    else (n, false)

def maybeDirectDataProbe (cfg : WireConfig) (now : Int) (id : SessionId) (a : TimerAnswers)
    (n : WireNode) : WireNode :=
  match cfg.relay, (n.table.heap.lookup id).bind PeerSession.endpoint with
  | some relay, some endpoint =>
    if relay.relayOnly || (n.paths id).directConfirmed || (n.paths id).directSuppressed now then n
    else
      match (n.paths id).shouldProbeDirect now directProbeInterval with
      | (_, false) => n
      | (p, true) =>
        let n := n.setPath id p
        if a.established then
          match a.probe with
          | .sendToPeer bytes =>
            (n.setPath id ((n.paths id).noteHandshakeFailure now)).emit
              (.sent ⟨.dataProbe, id, bytes, some endpoint, []⟩)
          | _ => n
        else n
  | _, _ => n

def tickSession (cfg : WireConfig) (now : Int) (answers : SessionId → TimerAnswers)
    (n : WireNode) (id : SessionId) : WireNode :=
  let n := (n.downgradeDirectIfStale now id).downgradeDirectIfTxBlackholed now id
  match n.maybeRearmExpiredSession cfg now id (answers id) with
  | (n, true) => n
  | (n, false) =>
    let n := (answers id).timers.elim n (fun bytes => n.sendWire cfg now id bytes)
    n.maybeDirectDataProbe cfg now id (answers id)

def idleProbeTarget (n : WireNode) : Option SessionId :=
  let better (cur : Option (SessionId × PeerSession)) (c : SessionId × PeerSession) :
      Option (SessionId × PeerSession) :=
    match cur with
    | none => some c
    | some best => if c.2.ula.toNat < best.2.ula.toNat then some c else some best
  let anchored := (n.table.snapshot.filter (fun c => !(n.paths c.1).directConfirmed)).foldl better none
  (anchored.or (n.table.snapshot.foldl better none)).map Prod.fst

def maybeIdleProbe (cfg : WireConfig) (now : Int) (idle : SessionId → WgAction) (n : WireNode) :
    WireNode :=
  match n.clocks.shouldEmitIdleProbe n.hasPeers now idleProbeAfter with
  | (_, false) => n
  | (c, true) =>
    let n := n.setClocks c
    match n.idleProbeTarget with
    | none => n
    | some id => sendSealed (sendWire cfg now id) (idle id) n

def tick (cfg : WireConfig) (now : Int) (order : SessionId → Nat)
    (answers : SessionId → TimerAnswers) (idle : SessionId → WgAction) (n : WireNode) : WireNode :=
  let n := ((n.table.visited order).map Prod.fst).foldl (tickSession cfg now answers) n
  let n := n.setClocks (n.clocks.seed n.hasPeers now)
  n.maybeIdleProbe cfg now idle

def tunRead (cfg : WireConfig) (now : Int) (packet : List UInt8) (answer : WgAction)
    (held : List UInt8) (n : WireNode) : WireNode :=
  match ipv6Destination packet with
  | none => n
  | some dst =>
    if dst = cfg.myUla then n
    else
      match n.table.carrier dst with
      | none => n
      | some (id, _) =>
        match answer with
        | .sendToPeer bytes => n.sendWire cfg now id bytes
        -- the tunnel keeps the packet until it has a session
        | .nothing => n.setQueue id (n.queues id ++ [held])
        | .error _ | .deliverToTun _ => n

def converge (cfg : WireConfig) (now : Int) (answer : WgAction) (n : WireNode) : WireNode :=
  match n.kicks with
  | [] => n
  | id :: kicks => sendSealed (sendWireRelayFloored cfg now id) answer { n with kicks := kicks }

def punchBurst : Nat := 5

def executePunch (cfg : WireConfig) (plan : PunchPlan) (inits : List WgAction) (n : WireNode) :
    WireNode :=
  let relayed := if !(n.paths plan.session.1).directConfirmed && cfg.relay.isSome
    then [plan.session.2.peerPubkey] else []
  (inits.take punchBurst).foldl (fun n init =>
    sendSealed (fun bytes n =>
      n.emit (.sent ⟨.punch, plan.session.1, bytes, some plan.endpoint, relayed⟩)) init n) n

def upsert (info : Client.PeerInfo) (n : WireNode) : WireNode :=
  let isNew := (n.table.sessionAt info.ula).isNone
  { n with
    table := n.table.upsert info
    kicks := if isNew && !isEphemeralPeer info.ula then n.kicks ++ [n.table.nextId] else n.kicks }

def requestConvergenceKick (ula : Ipv6Addr) (n : WireNode) : WireNode :=
  { n with kicks := n.kicks ++ (n.table.byUla.lookup ula).toList }

end WireNode

inductive WireOp
  | upsert (info : Client.PeerInfo)
  | remove (ula : Ipv6Addr)
  | appRoutes (hostUla : Ipv6Addr) (advertised : List Ipv6Addr)
  | relayWake (ula : Ipv6Addr)
  | datagram (order : SessionId → Nat) (source : SocketAddr) (bytes : List UInt8)
  | relayed (buf : List UInt8)
  | tun (packet : List UInt8) (answer : WgAction) (held : List UInt8)
  | tick (order : SessionId → Nat) (answers : SessionId → TimerAnswers)
      (idle : SessionId → WgAction)
  | converge (answer : WgAction)
  | punch (order : SessionId → Nat) (myPeerId : Uuid) (event : HolePunchInitiate)
      (inits : List WgAction)

namespace WireNode

def Follows (cfg : WireConfig) (n : WireNode) (f : Sending) : Prop :=
  ∃ s, n.table.heap.lookup f.session = some s ∧
    match f.site with
    | .wire =>
      ((n.paths f.session).directConfirmed = true ∧ f.udp = s.endpoint ∧ f.udp.isSome ∧
        f.relayed = []) ∨
      (¬ ((n.paths f.session).directConfirmed = true ∧ s.endpoint.isSome) ∧
        ∃ relay, cfg.relay = some relay ∧ f.relayed = [s.peerPubkey] ∧
          (f.udp = none ∨ relay.relayOnly = false ∧ f.udp = s.endpoint)) ∨
      (cfg.relay = none ∧ f.udp = s.endpoint ∧ f.relayed = [])
    | .floored => f.udp = none ∧ f.relayed = [s.peerPubkey]
    | .dataProbe =>
      (n.paths f.session).directConfirmed = false ∧ f.udp = s.endpoint ∧ f.relayed = [] ∧
        ∃ relay, cfg.relay = some relay ∧ relay.relayOnly = false
    | .punch => False

/-- A stretch of work in which frames are sent, but no punches, and nothing else happens that a
claim about paths, sessions or deliveries could see. -/
structure Sends (cfg : WireConfig) (n n' : WireNode) : Prop where
  table : n'.table = n.table
  confirmed : ∀ id, (n'.paths id).directConfirmed = (n.paths id).directConfirmed
  lastRx : n'.clocks.lastInboundDataFrame = n.clocks.lastInboundDataFrame
  log : ∃ sent : List Sending, n'.log = sent.map WireEvent.sent ++ n.log ∧
    ∀ f ∈ sent, Follows cfg n f

variable {cfg : WireConfig} {now : Int} {id : SessionId} {source : Option SocketAddr}
  {n n' n'' : WireNode}

theorem Follows.congr {f : Sending} (h : Follows cfg n' f) (htable : n'.table = n.table)
    (hconfirmed : ∀ id, (n'.paths id).directConfirmed = (n.paths id).directConfirmed) :
    Follows cfg n f := by
  unfold Follows at h ⊢
  simpa only [htable, hconfirmed] using h

theorem Sends.of_eq (htable : n'.table = n.table)
    (hconfirmed : ∀ id, (n'.paths id).directConfirmed = (n.paths id).directConfirmed)
    (hrx : n'.clocks.lastInboundDataFrame = n.clocks.lastInboundDataFrame)
    (hlog : n'.log = n.log) : Sends cfg n n' :=
  ⟨htable, hconfirmed, hrx, [], hlog, by simp⟩

theorem Sends.refl (n : WireNode) : Sends cfg n n := .of_eq rfl (fun _ => rfl) rfl rfl

theorem Sends.trans (h : Sends cfg n n') (h' : Sends cfg n' n'') : Sends cfg n n'' := by
  obtain ⟨sent, hlog, hsent⟩ := h.log
  obtain ⟨sent', hlog', hsent'⟩ := h'.log
  refine ⟨h'.table.trans h.table, fun id => (h'.confirmed id).trans (h.confirmed id),
    h'.lastRx.trans h.lastRx, sent' ++ sent, ?_, ?_⟩
  · rw [hlog', hlog, List.map_append, List.append_assoc]
  · intro f hf
    rcases List.mem_append.mp hf with hf | hf
    · exact (hsent' f hf).congr h.table h.confirmed
    · exact hsent f hf

theorem Sends.emit (h : Sends cfg n n') {f : Sending} (hf : Follows cfg n f) :
    Sends cfg n (n'.emit (.sent f)) := by
  refine h.trans ⟨rfl, fun _ => rfl, rfl, [f], rfl, ?_⟩
  intro f' hf'
  obtain rfl := List.mem_singleton.mp hf'
  exact hf.congr h.table.symm (fun id => (h.confirmed id).symm)

theorem sends_setPath {p : PathState}
    (hp : p.directConfirmed = (n.paths id).directConfirmed) : Sends cfg n (n.setPath id p) := by
  refine .of_eq rfl ?_ rfl rfl
  intro id'
  show (Function.update n.paths id p id').directConfirmed = (n.paths id').directConfirmed
  by_cases hid : id' = id
  · rw [hid, Function.update_self, hp]
  · rw [Function.update_of_ne hid]

theorem sends_setQueue (frames : List (List UInt8)) : Sends cfg n (n.setQueue id frames) :=
  .of_eq rfl (fun _ => rfl) rfl rfl

theorem sends_noteSend (bytes : List UInt8) : Sends cfg n (n.noteSend now bytes) := by
  unfold noteSend
  split
  · exact .refl n
  · exact .of_eq rfl (fun _ => rfl) rfl rfl

theorem probeBeside_spec (relay : RelayHandle) (now : Int) (endpoint : Option SocketAddr)
    (p : PathState) :
    (probeBeside relay now endpoint p).1.directConfirmed = p.directConfirmed ∧
      ((probeBeside relay now endpoint p).2 = none ∨
        relay.relayOnly = false ∧ (probeBeside relay now endpoint p).2 = endpoint) := by
  unfold probeBeside
  split
  · exact ⟨rfl, .inl rfl⟩
  · rename_i hopen
    have hdirect : relay.relayOnly = false := by
      simp only [Bool.or_eq_true, not_or, Bool.not_eq_true] at hopen
      exact hopen.1
    cases endpoint with
    | none => exact ⟨rfl, .inl rfl⟩
    | some endpoint =>
      have hconfirmed := p.directConfirmed_shouldProbeDirect now directProbeInterval
      generalize p.shouldProbeDirect now directProbeInterval = q at hconfirmed
      obtain ⟨p', due⟩ := q
      cases due with
      | true => exact ⟨hconfirmed, .inr ⟨hdirect, rfl⟩⟩
      | false => exact ⟨hconfirmed, .inl rfl⟩

theorem sends_sendWire (bytes : List UInt8) : Sends cfg n (n.sendWire cfg now id bytes) := by
  unfold sendWire
  split
  · exact .refl n
  · rename_i s hs
    have hnoted : Sends cfg n (n.noteSend now bytes) := sends_noteSend bytes
    have hpath := hnoted.confirmed id
    simp only
    generalize n.noteSend now bytes = n₁ at hnoted hpath
    split
    · rename_i endpoint hconfirmed hendpoint
      have hfollows : Follows cfg n ⟨.wire, id, bytes, some endpoint, []⟩ :=
        ⟨s, hs, .inl ⟨by rw [← hpath, hconfirmed], hendpoint.symm, rfl, rfl⟩⟩
      split
      · have hstamped : Sends cfg n₁ (n₁.setPath id ((n₁.paths id).noteDirectTx now)) :=
          sends_setPath rfl
        exact (hnoted.trans hstamped).emit hfollows
      · exact hnoted.emit hfollows
    · rename_i hunconfirmed
      have hfloor : ¬ ((n.paths id).directConfirmed = true ∧ s.endpoint.isSome) := by
        rintro ⟨hconfirmed, hsome⟩
        obtain ⟨endpoint, hendpoint⟩ := Option.isSome_iff_exists.mp hsome
        exact hunconfirmed endpoint (hpath.trans hconfirmed) hendpoint
      split
      · rename_i relay hrelay
        obtain ⟨hsame, hprobe⟩ := probeBeside_spec relay now s.endpoint (n₁.paths id)
        exact (hnoted.trans (sends_setPath hsame)).emit
          ⟨s, hs, .inr (.inl ⟨hfloor, relay, hrelay, rfl, hprobe⟩)⟩
      · rename_i hrelay
        split
        · rename_i endpoint hendpoint
          exact hnoted.emit ⟨s, hs, .inr (.inr ⟨hrelay, hendpoint.symm, rfl⟩)⟩
        · exact hnoted

theorem sends_sendWireRelayFloored (bytes : List UInt8) :
    Sends cfg n (n.sendWireRelayFloored cfg now id bytes) := by
  unfold sendWireRelayFloored
  split
  · exact .refl n
  · rename_i s hs
    simp only
    split
    · exact (sends_noteSend bytes).emit ⟨s, hs, rfl, rfl⟩
    · exact sends_noteSend bytes

theorem sends_sendSealed {send : List UInt8 → WireNode → WireNode}
    (hsend : ∀ bytes, Sends cfg n (send bytes n)) (answer : WgAction) :
    Sends cfg n (sendSealed send answer n) := by
  cases answer with
  | sendToPeer bytes => exact hsend bytes
  | deliverToTun packet | nothing | error message => exact .refl n

theorem sends_drain (frames : List (List UInt8)) : Sends cfg n (n.drain cfg now id source frames) := by
  induction frames generalizing n with
  | nil => exact .refl n
  | cons frame rest ih => exact ((sends_setQueue rest).trans (sends_sendWire frame)).trans ih

theorem sends_maybeDirectDataProbe (a : TimerAnswers) :
    Sends cfg n (n.maybeDirectDataProbe cfg now id a) := by
  unfold maybeDirectDataProbe
  split
  · rename_i relay endpoint hrelay hendpoint
    split
    · exact .refl n
    · rename_i hopen
      have hconfirmed := (n.paths id).directConfirmed_shouldProbeDirect now directProbeInterval
      generalize (n.paths id).shouldProbeDirect now directProbeInterval = q at hconfirmed
      obtain ⟨p, due⟩ := q
      cases due with
      | false => exact .refl n
      | true =>
        have hstamped : Sends cfg n (n.setPath id p) := sends_setPath hconfirmed
        simp only
        split
        · split
          · rename_i bytes _
            obtain ⟨s, hs, hs'⟩ := Option.bind_eq_some_iff.mp hendpoint
            simp only [Bool.or_eq_true, not_or, Bool.not_eq_true] at hopen
            have hfollows : Follows cfg n ⟨.dataProbe, id, bytes, some endpoint, []⟩ :=
              ⟨s, hs, hopen.1.2, hs'.symm, rfl, relay, hrelay, hopen.1.1⟩
            have hfailed : Sends cfg (n.setPath id p) ((n.setPath id p).setPath id
                (((n.setPath id p).paths id).noteHandshakeFailure now)) := sends_setPath rfl
            exact (hstamped.trans hfailed).emit hfollows
          · exact hstamped
        · exact hstamped
  · exact .refl n

theorem sends_maybeRearmExpiredSession (a : TimerAnswers) :
    Sends cfg n (n.maybeRearmExpiredSession cfg now id a).1 := by
  unfold maybeRearmExpiredSession
  split
  · exact .refl n
  · rename_i s _
    split
    · have hconfirmed := (n.paths id).directConfirmed_shouldRearmExpired now
        (rearmBase (!isEphemeralPeer s.ula)) expiredRearmBackoffCap
      generalize (n.paths id).shouldRearmExpired now (rearmBase (!isEphemeralPeer s.ula))
        expiredRearmBackoffCap = q at hconfirmed
      obtain ⟨p, due⟩ := q
      cases due with
      | false => exact .refl n
      | true =>
        exact (sends_setPath hconfirmed).trans
          (sends_sendSealed (fun bytes => sends_sendWireRelayFloored bytes) a.rearmed)
    · exact .refl n

theorem sends_maybeIdleProbe (idle : SessionId → WgAction) :
    Sends cfg n (n.maybeIdleProbe cfg now idle) := by
  unfold maybeIdleProbe
  have hrx := n.clocks.lastInboundDataFrame_shouldEmitIdleProbe n.hasPeers now idleProbeAfter
  generalize n.clocks.shouldEmitIdleProbe n.hasPeers now idleProbeAfter = q at hrx
  obtain ⟨c, due⟩ := q
  cases due with
  | false => exact .refl n
  | true =>
    have hclaimed : Sends cfg n (n.setClocks c) := .of_eq rfl (fun _ => rfl) hrx rfl
    simp only
    split
    · exact hclaimed
    · exact hclaimed.trans (sends_sendSealed (fun bytes => sends_sendWire bytes) _)

theorem sends_tunRead (packet : List UInt8) (answer : WgAction) (held : List UInt8) :
    Sends cfg n (n.tunRead cfg now packet answer held) := by
  unfold tunRead
  split
  · exact .refl n
  · split
    · exact .refl n
    · split
      · exact .refl n
      · split
        · exact sends_sendWire _
        · exact sends_setQueue _
        · exact .refl n
        · exact .refl n

theorem sends_converge (answer : WgAction) : Sends cfg n (n.converge cfg now answer) := by
  unfold converge
  split
  · exact .refl n
  · rename_i id kicks _
    have hpopped : Sends cfg n { n with kicks := kicks } := .of_eq rfl (fun _ => rfl) rfl rfl
    exact hpopped.trans (sends_sendSealed (fun bytes => sends_sendWireRelayFloored bytes) answer)

theorem executePunch_spec (cfg : WireConfig) (plan : PunchPlan) (inits : List WgAction)
    (n : WireNode) :
    ∃ sent : List Sending,
      n.executePunch cfg plan inits = { n with log := sent.map WireEvent.sent ++ n.log } ∧
      ∀ f ∈ sent, f.site = .punch ∧ .sendToPeer f.bytes ∈ inits.take punchBurst := by
  unfold executePunch
  simp only
  generalize (if !(n.paths plan.session.1).directConfirmed && cfg.relay.isSome
    then [plan.session.2.peerPubkey] else []) = relayed
  generalize inits.take punchBurst = burst
  induction burst generalizing n with
  | nil => exact ⟨[], rfl, by simp⟩
  | cons init burst ih =>
    rw [List.foldl_cons]
    cases init with
    | sendToPeer bytes =>
      obtain ⟨sent, heq, hsent⟩ :=
        ih (n.emit (.sent ⟨.punch, plan.session.1, bytes, some plan.endpoint, relayed⟩))
      refine ⟨sent ++ [⟨.punch, plan.session.1, bytes, some plan.endpoint, relayed⟩], ?_, ?_⟩
      · rw [List.map_append, List.append_assoc]
        exact heq
      · intro f hf
        rcases List.mem_append.mp hf with hf | hf
        · exact ⟨(hsent f hf).1, List.mem_cons_of_mem _ (hsent f hf).2⟩
        · rw [List.mem_singleton.mp hf]
          exact ⟨rfl, List.mem_cons_self⟩
    | deliverToTun packet | nothing | error message =>
      obtain ⟨sent, heq, hsent⟩ := ih n
      exact ⟨sent, heq, fun f hf => ⟨(hsent f hf).1, List.mem_cons_of_mem _ (hsent f hf).2⟩⟩

theorem tick_induction {P : WireNode → Prop} (hsends : ∀ {n n'}, Sends cfg n n' → P n → P n')
    (hdowngrade : ∀ {n} id, P n → P (n.downgradePath now id))
    (hseed : ∀ {n}, P n → P (n.setClocks (n.clocks.seed n.hasPeers now)))
    (order : SessionId → Nat) (answers : SessionId → TimerAnswers) (idle : SessionId → WgAction)
    (h : P n) : P (n.tick cfg now order answers idle) := by
  have hsession : ∀ {n} id, P n → P (n.tickSession cfg now answers id) := by
    intro n id h
    have hstale : P (n.downgradeDirectIfStale now id) := by
      unfold downgradeDirectIfStale
      split
      · exact hdowngrade id h
      · exact h
    have hblack : P ((n.downgradeDirectIfStale now id).downgradeDirectIfTxBlackholed now id) := by
      unfold downgradeDirectIfTxBlackholed
      split
      · exact hdowngrade id hstale
      · exact hstale
    unfold tickSession
    simp only
    generalize (n.downgradeDirectIfStale now id).downgradeDirectIfTxBlackholed now id = n₁ at hblack
    have hrearmed : P (n₁.maybeRearmExpiredSession cfg now id (answers id)).1 :=
      hsends (sends_maybeRearmExpiredSession (answers id)) hblack
    generalize n₁.maybeRearmExpiredSession cfg now id (answers id) = r at hrearmed
    obtain ⟨n₂, rearmed⟩ := r
    cases rearmed with
    | true => exact hrearmed
    | false =>
      have htimers : P ((answers id).timers.elim n₂ (fun bytes => n₂.sendWire cfg now id bytes)) := by
        cases (answers id).timers with
        | none => exact hrearmed
        | some bytes => exact hsends (sends_sendWire bytes) hrearmed
      exact hsends (sends_maybeDirectDataProbe (answers id)) htimers
  have hfold : ∀ {n} (ids : List SessionId), P n →
      P (ids.foldl (tickSession cfg now answers) n) := by
    intro n ids
    induction ids generalizing n with
    | nil => exact id
    | cons id ids ih => exact fun h => ih (hsession id h)
  exact hsends (sends_maybeIdleProbe idle) (hseed (hfold _ h))

theorem act_cases (cfg : WireConfig) (now : Int) (id : SessionId) (source : Option SocketAddr)
    (n : WireNode) (action : WgAction) :
    (∀ s packet, action = .deliverToTun packet → n.table.heap.lookup id = some s →
        s.innerSourceAllowed packet = false) ∧ Sends cfg n (n.act cfg now id source action) ∨
      ∃ s packet, action = .deliverToTun packet ∧ n.table.heap.lookup id = some s ∧
        s.innerSourceAllowed packet = true ∧
        Sends cfg (n.deliver now id source packet) (n.act cfg now id source action) := by
  unfold act applyWgAction
  cases action with
  | nothing | error message => exact .inl ⟨by simp, sends_drain _⟩
  | sendToPeer bytes => exact .inl ⟨by simp, (sends_sendWire bytes).trans (sends_drain _)⟩
  | deliverToTun packet =>
    simp only
    cases hs : n.table.heap.lookup id with
    | none => exact .inl ⟨by simp, sends_drain _⟩
    | some s =>
      by_cases hallowed : s.innerSourceAllowed packet = true
      · right
        refine ⟨s, packet, rfl, rfl, hallowed, ?_⟩
        simp only [hallowed, if_true]
        exact sends_drain _
      · left
        refine ⟨by simpa using hallowed, ?_⟩
        simp only [hallowed]
        exact sends_drain _

variable [Tunnels]

variable (datagram : List UInt8)

theorem log_decapsulate : (n.decapsulate id datagram).1.log = n.log := by
  unfold decapsulate
  split
  · split <;> rfl
  · rfl

theorem sends_decapsulate : Sends cfg n (n.decapsulate id datagram).1 := by
  unfold decapsulate
  split
  · split
    · exact .refl n
    · exact sends_setQueue _
  · exact .refl n

theorem sends_learned {addr : SocketAddr} :
    Sends cfg (n.setTable (n.table.learnEndpoint id addr))
      ((n.decapsulate id datagram).1.setTable
        ((n.decapsulate id datagram).1.table.learnEndpoint id addr)) := by
  unfold decapsulate
  split
  · split
    · exact .refl _
    · exact .of_eq rfl (fun _ => rfl) rfl rfl
  · exact .refl _

theorem decapsulate_eq_deliverToTun_iff {datagram packet : List UInt8} :
    (n.decapsulate id datagram).2 = .deliverToTun packet ↔
      datagram ≠ [] ∧ ∃ s, n.table.heap.lookup id = some s ∧
        Tunnels.decapsulate s.peerPubkey datagram = .deliverToTun packet := by
  cases datagram with
  | nil =>
    simp only [decapsulate]
    split <;> simp
  | cons byte rest => cases hs : n.table.heap.lookup id <;> simp [decapsulate, hs]

def Opens (n : WireNode) (id : SessionId) (datagram packet : List UInt8) : Prop :=
  datagram ≠ [] ∧ ∃ s, n.table.heap.lookup id = some s ∧
    Tunnels.decapsulate s.peerPubkey datagram = .deliverToTun packet ∧
    s.innerSourceAllowed packet = true

theorem opens_learnEndpoint {source : SocketAddr} {datagram packet : List UInt8} :
    (n.setTable (n.table.learnEndpoint id source)).Opens id datagram packet ↔
      n.Opens id datagram packet := by
  have hkeeps : ∀ s : PeerSession, (s.learn source).peerPubkey = s.peerPubkey ∧
      (s.learn source).innerSourceAllowed packet = s.innerSourceAllowed packet := by
    intro s
    unfold PeerSession.learn
    split <;> exact ⟨rfl, rfl⟩
  cases hs : n.table.heap.lookup id <;>
    simp [Opens, setTable, SessionTable.learnEndpoint, AList.lookup_modify, hs, hkeeps]

def Handled (cfg : WireConfig) (now : Int) (id : SessionId) (source : Option SocketAddr)
    (datagram : List UInt8) (n n' : WireNode) : Prop :=
  (¬ ∃ packet, n.Opens id datagram packet) ∧ Sends cfg n n' ∨
    ∃ packet n₁, n.Opens id datagram packet ∧ Sends cfg n n₁ ∧ n₁.log = n.log ∧
      Sends cfg (n₁.deliver now id source packet) n'

theorem handled_act {datagram : List UInt8} {n₀ n₁ : WireNode} (h : Sends cfg n₀ n₁)
    (hlog : n₁.log = n₀.log)
    (htable : n.table.heap.lookup id = n₀.table.heap.lookup id ∨
      ∃ f, n₀.table.heap.lookup id = (n.table.heap.lookup id).map f ∧
        ∀ s, (f s).peerPubkey = s.peerPubkey) :
    Handled cfg now id source datagram n₀
      (n₁.act cfg now id source (n.decapsulate id datagram).2) := by
  have hkey : ∀ {s₀ s}, n.table.heap.lookup id = some s₀ → n₀.table.heap.lookup id = some s →
      s.peerPubkey = s₀.peerPubkey := by
    intro s₀ s hs₀ hs
    rcases htable with heq | ⟨f, heq, hf⟩
    · rw [heq, hs, Option.some.injEq] at hs₀
      rw [hs₀]
    · rw [heq, hs₀, Option.map_some, Option.some.injEq] at hs
      rw [← hs, hf]
  have hacted := act_cases cfg now id source n₁ (n.decapsulate id datagram).2
  rw [h.table] at hacted
  rcases hacted with ⟨hno, hsends⟩ | ⟨s, packet, haction, hs, hallowed, hsends⟩
  · refine .inl ⟨?_, h.trans hsends⟩
    rintro ⟨packet, hne, s, hs, hopen, hallowed⟩
    obtain ⟨s₀, hs₀⟩ : ∃ s₀, n.table.heap.lookup id = some s₀ := by
      rcases htable with heq | ⟨f, heq, -⟩
      · exact ⟨s, heq.trans hs⟩
      · obtain ⟨s₀, hs₀, -⟩ := Option.map_eq_some_iff.mp (heq.symm.trans hs)
        exact ⟨s₀, hs₀⟩
    have haction : (n.decapsulate id datagram).2 = .deliverToTun packet :=
      decapsulate_eq_deliverToTun_iff.mpr ⟨hne, s₀, hs₀, hkey hs₀ hs ▸ hopen⟩
    rw [hno s packet haction hs] at hallowed
    exact Bool.false_ne_true hallowed
  · right
    obtain ⟨hne, s₀, hs₀, hopen⟩ := decapsulate_eq_deliverToTun_iff.mp haction
    exact ⟨packet, n₁, ⟨hne, s, hs, hkey hs₀ hs ▸ hopen, hallowed⟩, h, hlog, hsends⟩

theorem handled_processInboundDatagram :
    Handled cfg now id source datagram n (n.processInboundDatagram cfg now id source datagram) := by
  unfold processInboundDatagram
  have hdecapped : Sends cfg n (n.decapsulate id datagram).1 := sends_decapsulate datagram
  have hheard : Sends cfg (n.decapsulate id datagram).1 ((n.decapsulate id datagram).1.setPath id
      (((n.decapsulate id datagram).1.paths id).noteDirectRx now)) := sends_setPath rfl
  simp only
  split
  · exact handled_act (hdecapped.trans hheard) (log_decapsulate datagram) (.inl rfl)
  · exact handled_act hdecapped (log_decapsulate datagram) (.inl rfl)

inductive Received (cfg : WireConfig) (now : Int) (source : SocketAddr) (datagram : List UInt8)
    (n : WireNode) : WireNode → Prop
  | known {id : SessionId} {s : PeerSession} {n' : WireNode}
      (hid : n.table.byEndpoint.lookup source = some id) (hs : n.table.heap.lookup id = some s)
      (h : Handled cfg now id (some source) datagram n n') : Received cfg now source datagram n n'
  | learned {ula : Ipv6Addr} {id : SessionId} {s : PeerSession} {n' : WireNode}
      (hunknown : n.table.deref (n.table.byEndpoint.lookup source) = none)
      (hat : n.table.sessionAt ula = some (id, s))
      (htaken : (n.decapsulate id datagram).2.passedOver = false)
      (h : Handled cfg now id (some source) datagram
        (n.setTable (n.table.learnEndpoint id source)) n') : Received cfg now source datagram n n'
  | unclaimed : Received cfg now source datagram n n

theorem received (cfg : WireConfig) (now : Int) (n : WireNode) (order : SessionId → Nat)
    (source : SocketAddr) (datagram : List UInt8) :
    Received cfg now source datagram n (n.udpRecv cfg now order source datagram) := by
  unfold udpRecv
  split
  · rename_i id s hfast
    obtain ⟨hid, hs⟩ := SessionTable.deref_eq_some_iff.mp hfast
    exact .known hid hs (handled_processInboundDatagram datagram)
  · rename_i hunknown
    split
    · rename_i id s hslow
      have hmem := List.mem_of_find?_eq_some hslow
      rw [SessionTable.visited, List.mem_mergeSort] at hmem
      obtain ⟨ula, hat⟩ := SessionTable.mem_snapshot_iff.mp hmem
      have htaken : (n.decapsulate id datagram).2.passedOver = false := by
        simpa using List.find?_some hslow
      refine .learned hunknown hat htaken (handled_act (n := n) ?_ (log_decapsulate datagram) ?_)
      · exact (sends_learned datagram).trans (sends_setPath rfl)
      · right
        refine ⟨fun s => s.learn source, ?_, fun s => (s.sameSession_learn source).peerPubkey⟩
        simp [setTable, SessionTable.learnEndpoint, AList.lookup_modify]
    · exact .unclaimed

theorem handled_handleInbound (cfg : WireConfig) (now : Int) (n : WireNode) (buf : List UInt8) :
    n.handleInbound cfg now buf = n ∨ ∃ id payload,
      Handled cfg now id none payload n (n.handleInbound cfg now buf) := by
  unfold handleInbound
  split
  · exact .inl rfl
  · split
    · exact .inl rfl
    · exact .inr ⟨_, _, handled_processInboundDatagram _⟩

end WireNode

variable [Crates] [Tunnels]

def WireNode.step (cfg : WireConfig) (n : WireNode) (now : Int) : WireOp → WireNode
  | .upsert info => n.upsert info
  | .remove ula => n.setTable (n.table.remove ula).1
  | .appRoutes hostUla advertised => n.setTable (n.table.reconcileAppRoutes hostUla advertised)
  | .relayWake ula => n.requestConvergenceKick ula
  | .datagram order source bytes => n.udpRecv cfg now order source bytes
  | .relayed buf => n.handleInbound cfg now buf
  | .tun packet answer held => n.tunRead cfg now packet answer held
  | .tick order answers idle => n.tick cfg now order answers idle
  | .converge answer => n.converge cfg now answer
  | .punch order myPeerId event inits =>
    (n.table.planPunch order myPeerId event).elim n (fun plan => n.executePunch cfg plan inits)

theorem WireNode.punch_cases (cfg : WireConfig) (n : WireNode) (now : Int) (order : SessionId → Nat)
    (myPeerId : Uuid) (event : HolePunchInitiate) (inits : List WgAction) :
    ∃ sent : List Sending, n.step cfg now (.punch order myPeerId event inits) =
        { n with log := sent.map WireEvent.sent ++ n.log } ∧
      ∀ f ∈ sent, f.site = .punch ∧ n.table.planPunch order myPeerId event ≠ none ∧
        .sendToPeer f.bytes ∈ inits.take punchBurst := by
  show ∃ sent : List Sending, (n.table.planPunch order myPeerId event).elim n _ = _ ∧ _
  cases n.table.planPunch order myPeerId event with
  | none => exact ⟨[], rfl, by simp⟩
  | some plan =>
    obtain ⟨sent, heq, hsent⟩ := executePunch_spec cfg plan inits n
    exact ⟨sent, heq, fun f hf => ⟨(hsent f hf).1, by simp, (hsent f hf).2⟩⟩

def wireNode (cfg : WireConfig) : Machine WireNode (Int × WireOp) Bool where
  init := .init
  step n op := (n.step cfg op.1 op.2, (n.step cfg op.1 op.2).hasPeers)
  admits _ _ := True

section Example

attribute [local instance] referenceTunnels

def wireUla : Ipv6Addr := ⟨0xfd00, 0, 0, 0, 0, 0, 0, 9⟩

def wireAddr : SocketAddr := .v4 ⟨192, 0, 2, 1⟩ 7

def wirePeer : Client.PeerInfo :=
  ⟨1, List.replicate 32 1, ⟨0xfd00, 0, 0, 0, 0, 0, 0, 1⟩, some wireAddr, []⟩

def wirePacket : List UInt8 := directProbePacket wirePeer.ula wireUla

def wireDatagram : List UInt8 := Tunnels.encapsulate wirePeer.wgPublicKey wirePacket

def wireOutbound : WireOp := .tun (directProbePacket wireUla wirePeer.ula) (.sendToPeer [4]) []

end Example

end ServiceMesh
