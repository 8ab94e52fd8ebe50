import ServiceMesh.IdleTimer
import ServiceMesh.Machine
import ServiceMesh.Pulses

/-! A mesh in which nothing happens but the timers of its nodes: the nodes, the time, and the
frames with data that are on their way. -/

namespace ServiceMesh

open StdNet (Ipv6Addr SocketAddr)

structure Members (ι : Type) where
  cfg : ι → WireConfig
  key : ι → List UInt8
  owner : List UInt8 → Option ι

structure Flight (ι : Type) where
  src : ι
  dst : ι
  sentAt : Int
  frame : Sending
deriving DecidableEq

structure Net (ι : Type) where
  now : Int
  node : ι → WireNode
  nextTick : ι → Int
  inFlight : List (Flight ι)

/-- The frames come and go one at a time. A frame arrives off the socket, with its source, or off
the relay. Control frames are those that carry no data: handshakes, keepalives, and copies of
frames that have arrived already. -/
inductive NetOp (ι : Type)
  | wait (t : Int)
  | tick (i : ι) (order : SessionId → Nat) (answers : SessionId → TimerAnswers)
      (idle : SessionId → WgAction)
  | arrive (m : Flight ι) (order : SessionId → Nat) (source : Option SocketAddr)
  | control (i : ι) (op : WireOp)

def timerInterval : Int := 200000

def maxDelay : Int := 1000000

def WireEvent.sending : WireEvent → Option Sending
  | .sent f => some f
  | .delivered .. => none

def WireNode.sentSince (n n' : WireNode) : List Sending :=
  (n'.log.take (n'.log.length - n.log.length)).filterMap WireEvent.sending

theorem WireNode.sentSince_eq {n n' : WireNode} {sent : List Sending}
    (h : n'.log = sent.map .sent ++ n.log) : n.sentSince n' = sent := by
  have hlength : n'.log.length - n.log.length = (sent.map WireEvent.sent).length := by
    rw [h, List.length_append]
    omega
  unfold sentSince
  rw [hlength, h, List.take_left, List.filterMap_map]
  exact List.filterMap_some

def WireOp.isInbound : WireOp → Bool
  | .datagram .. | .relayed _ => true
  | _ => false

section Net

variable {ι : Type}

def Members.addressee (ms : Members ι) (n : WireNode) (id : SessionId) : Option ι :=
  (n.table.heap.lookup id).bind (fun s => ms.owner s.peerPubkey)

def Members.flight (ms : Members ι) (now : Int) (i : ι) (n : WireNode) (f : Sending) :
    Option (Flight ι) :=
  if isWgDataFrame f.bytes = true then (ms.addressee n f.session).map (fun dst => ⟨i, dst, now, f⟩)
  else none

def Members.flights (ms : Members ι) (now : Int) (i : ι) (n n' : WireNode) : List (Flight ι) :=
  (n.sentSince n').filterMap (ms.flight now i n')

def Members.arrival (ms : Members ι) (m : Flight ι) (order : SessionId → Nat) :
    Option SocketAddr → WireOp
  | some source => .datagram order source m.frame.bytes
  | none => .relayed (encodeRelayFrame (ms.key m.src) m.frame.bytes)

namespace Net

def target (ms : Members ι) (net : Net ι) (i : ι) : Option ι :=
  (net.node i).idleProbeTarget.bind (ms.addressee (net.node i))

variable [DecidableEq ι] [Crates] [Tunnels]

def work (ms : Members ι) (net : Net ι) (i : ι) (op : WireOp) : Net ι :=
  let n := (net.node i).step (ms.cfg i) net.now op
  { net with
    node := Function.update net.node i n
    inFlight := ms.flights net.now i (net.node i) n ++ net.inFlight }

def step (ms : Members ι) (net : Net ι) : NetOp ι → Net ι
  | .wait t => { net with now := t }
  | .tick i order answers idle =>
    { net.work ms i (.tick order answers idle) with
      nextTick := Function.update net.nextTick i (net.now + timerInterval) }
  | .arrive m order source =>
    { net with inFlight := net.inFlight.erase m }.work ms m.dst (ms.arrival m order source)
  | .control i op => net.work ms i op

end Net

structure Established (answers : SessionId → TimerAnswers) (idle : SessionId → WgAction) : Prop where
  awake : ∀ id, (answers id).expired = false
  timers : ∀ id bytes, (answers id).timers = some bytes → isWgDataFrame bytes = false
  probe : ∀ id, ∃ bytes, idle id = .sendToPeer bytes ∧ isWgDataFrame bytes = true

structure Takes [Crates] [Tunnels] (ms : Members ι) (net : Net ι) (i : ι) (op : WireOp)
    (packets : Nat) : Prop where
  silent : ms.flights net.now i (net.node i) ((net.node i).step (ms.cfg i) net.now op) = []
  delivered : ((net.node i).step (ms.cfg i) net.now op).deliveries =
    (net.node i).deliveries + packets

/-- No applications and no losses: the time passes until the next timer or the next arrival at
most, a timer goes off when it is time, and a frame arrives in time on one of the ways it was sent.
Only the probe of a path that is not confirmed may get lost. -/
def Net.Permits [Crates] [Tunnels] (ms : Members ι) (net : Net ι) : NetOp ι → Prop
  | .wait t => net.now ≤ t ∧ (∀ i, t ≤ net.nextTick i) ∧
      ∀ m ∈ net.inFlight, m.frame.site = .wire → t ≤ m.sentAt + maxDelay
  | .tick i _ answers idle => net.nextTick i = net.now ∧ Established answers idle
  | .arrive m order source => m ∈ net.inFlight ∧
      (if source.isSome then m.frame.udp.isSome = true else m.frame.relayed ≠ []) ∧
      Takes ms net m.dst (ms.arrival m order source) 1
  | .control i op => op.isInbound = true ∧ Takes ms net i op 0

/-- A frame only reaches a node that has probed since it last heard something. -/
def Net.Ready (net : Net ι) : NetOp ι → Prop
  | .arrive m _ _ => (net.node m.dst).clocks.lastInboundDataFrame <
      (net.node m.dst).clocks.lastIdleProbe
  | _ => True

/-- A timer finds no path broken, and has the same node to probe every time. -/
def Net.Steady (ms : Members ι) (target : ι → ι) (net : Net ι) : NetOp ι → Prop
  | .tick i order _ _ =>
    (∀ id ∈ ((net.node i).table.visited order).map Prod.fst,
      ((net.node i).paths id).broken net.now = false) ∧ net.target ms i = some (target i)
  | _ => True

def idleNet [DecidableEq ι] [Crates] [Tunnels] (ms : Members ι) (start : Net ι) :
    Machine (Net ι) (NetOp ι) Unit where
  init := start
  step net op := (net.step ms op, ())
  admits _ _ := True

def WireNode.HasPaths (cfg : WireConfig) (n : WireNode) : Prop :=
  ∀ id s, n.table.heap.lookup id = some s → cfg.relay.isSome = true ∨ s.endpoint.isSome = true

structure Net.Start (ms : Members ι) (start : Int) (net : Net ι) : Prop where
  positive : 0 < start
  now : net.now = start
  lastRx : ∀ i, (net.node i).clocks.lastInboundDataFrame = start
  lastIdleProbe : ∀ i, (net.node i).clocks.lastIdleProbe ≤ start
  ticks : ∀ i, start ≤ net.nextTick i ∧ net.nextTick i ≤ start + timerInterval
  inFlight : net.inFlight = []
  tables : ∀ i, (net.node i).table.Inv
  sessions : ∀ i j, i ≠ j → ∃ ula id s, (net.node i).table.sessionAt ula = some (id, s) ∧
    ms.addressee (net.node i) id = some j
  paths : ∀ i, (net.node i).HasPaths (ms.cfg i)

end Net

def idleTiming : Pulses.Timing := ⟨idleProbeAfter, timerInterval, maxDelay⟩

theorem idleTiming_sound : idleTiming.Sound := by
  constructor <;> decide

section Sim

variable {ι : Type}

def Flight.pulse (m : Flight ι) : Pulses.Pulse ι (Flight ι) :=
  ⟨m.dst, m.sentAt, decide (m.frame.site = .wire), m⟩

theorem Flight.pulse_injective : Function.Injective (@Flight.pulse ι) :=
  fun _ _ h => congrArg Pulses.Pulse.load h

def Net.pulses (net : Net ι) : Pulses.State ι (Flight ι) where
  now := net.now
  heard i := (net.node i).clocks.lastInboundDataFrame
  pulsed i := (net.node i).clocks.lastIdleProbe
  nextTick := net.nextTick
  inFlight := net.inFlight.map Flight.pulse

structure WireNode.Tended (cfg : WireConfig) (n : WireNode) : Prop where
  table : n.table.Inv
  paths : n.HasPaths cfg
  heard : 0 < n.clocks.lastInboundDataFrame

variable {ms : Members ι} {net : Net ι} {τ : ι → ι} {start : Int}

theorem Net.Start.pulses (h : net.Start ms start) : Pulses.Start idleTiming start net.pulses :=
  ⟨h.now, h.lastRx, h.lastIdleProbe, h.ticks, by simp [Net.pulses, h.inFlight]⟩

theorem Net.Start.tended (h : net.Start ms start) (i : ι) : (net.node i).Tended (ms.cfg i) := by
  refine ⟨h.tables i, h.paths i, ?_⟩
  rw [h.lastRx]
  exact h.positive

theorem Members.mem_flights {now : Int} {i : ι} {n' : WireNode} {sent : List Sending} {m : Flight ι}
    (h : m ∈ sent.filterMap (ms.flight now i n')) :
    m.src = i ∧ m.sentAt = now ∧ m.frame ∈ sent ∧ isWgDataFrame m.frame.bytes = true := by
  obtain ⟨f, hf, hm⟩ := List.mem_filterMap.mp h
  unfold Members.flight at hm
  split at hm
  · rename_i hdata
    obtain ⟨dst, -, rfl⟩ := Option.map_eq_some_iff.mp hm
    exact ⟨rfl, rfl, hf, hdata⟩
  · simp at hm

theorem Members.isInbound_arrival (m : Flight ι) (order : SessionId → Nat)
    (source : Option SocketAddr) : (ms.arrival m order source).isInbound = true := by
  cases source <;> rfl

namespace WireNode

variable {cfg : WireConfig} {now : Int} {n n' : WireNode} {j : ι}

theorem HasPaths.of_table (h : n.HasPaths cfg) (htable : n'.table = n.table) : n'.HasPaths cfg := by
  intro id s hs
  rw [htable] at hs
  exact h id s hs

theorem Tended.tick (h : n.Tended cfg) (ms : Members ι) (i : ι) {order : SessionId → Nat}
    {answers : SessionId → TimerAnswers} {idle : SessionId → WgAction} (hup : Established answers idle)
    (hsound : ∀ id ∈ (n.table.visited order).map Prod.fst, (n.paths id).broken now = false)
    (htarget : n.idleProbeTarget.bind (ms.addressee n) = some j)
    (hn' : n' = n.tick cfg now order answers idle) :
    Sends cfg n n' ∧ ∃ extra : List (Flight ι),
      (∀ m ∈ extra, m.src = i ∧ m.sentAt = now ∧ m.frame.site = .dataProbe ∧
        Follows cfg n m.frame) ∧
      (¬ n.Silent now ∧ n'.clocks.lastIdleProbe = n.clocks.lastIdleProbe ∧
          ms.flights now i n n' = extra ∨
        n.Silent now ∧ n'.clocks.lastIdleProbe = now ∧
          ∃ f : Sending, f.site = .wire ∧ Follows cfg n f ∧
            ms.flights now i n n' = ⟨i, j, now, f⟩ :: extra) := by
  obtain ⟨w, hw, haddressee⟩ := Option.bind_eq_some_iff.mp htarget
  obtain ⟨s, hs, -⟩ := Option.bind_eq_some_iff.mp haddressee
  obtain ⟨bytes, hidle, hdata⟩ := hup.probe w
  obtain ⟨n₁, hidles, hcases⟩ := tick_eq h.table (Int.ne_of_gt h.heard) hsound hup.awake hup.timers
    hw hidle
  rw [← hn'] at hcases
  obtain ⟨sent, hlog, hsent⟩ := hidles.log
  have hfollows := hidles.sends.follows hlog
  have hextra : ∀ m ∈ sent.filterMap (ms.flight now i n'), m.src = i ∧ m.sentAt = now ∧
      m.frame.site = .dataProbe ∧ Follows cfg n m.frame := by
    intro m hm
    obtain ⟨hsrc, hat, hf, hframe⟩ := ms.mem_flights hm
    exact ⟨hsrc, hat, hsent _ hf hframe, hfollows _ hf⟩
  rcases hcases with ⟨hheard, heq⟩ | ⟨hsilent, heq⟩
  · subst heq
    refine ⟨hidles.sends, _, hextra, .inl ⟨hheard, hidles.lastIdleProbe, ?_⟩⟩
    unfold Members.flights
    rw [sentSince_eq hlog]
  · generalize hclaimed : n₁.setClocks { n₁.clocks with lastIdleProbe := now } = n₂ at heq
    have hclaims : Sends cfg n₁ n₂ := by
      subst hclaimed
      exact .of_eq rfl (fun _ => rfl) rfl rfl
    have hsends : Sends cfg n n' := by
      rw [heq]
      exact (hidles.sends.trans hclaims).trans (sends_sendWire bytes)
    have hs₂ : n₂.table.heap.lookup w = some s := by
      rw [hclaims.table, hidles.sends.table]
      exact hs
    obtain ⟨udp, relayed, hprobe⟩ : ∃ udp relayed, (n₂.sendWire cfg now w bytes).log =
        .sent ⟨.wire, w, bytes, udp, relayed⟩ :: n₂.log :=
      log_sendWire_of_path hs₂ (h.paths w s hs) bytes
    have hlog' : n'.log = (⟨.wire, w, bytes, udp, relayed⟩ :: sent).map .sent ++ n.log := by
      rw [heq, hprobe, ← hclaimed]
      exact congrArg (List.cons _) hlog
    refine ⟨hsends, _, hextra, .inr ⟨hsilent, ?_, ⟨.wire, w, bytes, udp, relayed⟩, rfl,
      hsends.follows hlog' _ List.mem_cons_self, ?_⟩⟩
    · rw [heq, lastIdleProbe_sendWire, ← hclaimed]
      rfl
    · have haddressee' : ms.addressee n' w = some j := by
        unfold Members.addressee at haddressee ⊢
        rw [hsends.table, haddressee]
      unfold Members.flights
      rw [sentSince_eq hlog', List.filterMap_cons]
      simp [Members.flight, hdata, haddressee']

variable [Crates] [Tunnels]

theorem inbound_arrival (m : Flight ι) (order : SessionId → Nat) (source : Option SocketAddr) :
    Inbound now source.isSome n (n.step cfg now (ms.arrival m order source)) := by
  cases source with
  | none => exact inbound_handleInbound _
  | some source => exact inbound_udpRecv order source _

theorem inbound_step {op : WireOp} (hop : op.isInbound = true) :
    ∃ direct, Inbound now direct n (n.step cfg now op) := by
  cases op with
  | datagram order source bytes => exact ⟨true, inbound_udpRecv order source bytes⟩
  | relayed buf => exact ⟨false, inbound_handleInbound buf⟩
  | upsert | remove | appRoutes | relayWake | tun | tick | converge | punch =>
    simp [WireOp.isInbound] at hop

theorem HasPaths.inbound (h : n.HasPaths cfg) {op : WireOp} (hop : op.isInbound = true) :
    (n.step cfg now op).HasPaths cfg := by
  cases op with
  | datagram order source bytes =>
    intro id s hs
    replace hs : (n.udpRecv cfg now order source bytes).table.heap.lookup id = some s := hs
    rw [session_udpRecv] at hs
    obtain ⟨s₀, hs₀, rfl⟩ := Option.map_eq_some_iff.mp hs
    split
    · right
      rw [PeerSession.endpoint_learn]
      rfl
    · exact h id s₀ hs₀
  | relayed buf => exact h.of_table (table_handleInbound buf)
  | upsert | remove | appRoutes | relayWake | tun | tick | converge | punch =>
    simp [WireOp.isInbound] at hop

theorem Tended.inbound (h : n.Tended cfg) {op : WireOp} (hop : op.isInbound = true) :
    (n.step cfg now op).Tended cfg := by
  refine ⟨inv_step h.table op, h.paths.inbound hop, ?_⟩
  have hheard := h.heard
  obtain ⟨direct, hinbound⟩ : ∃ direct, Inbound now direct n (n.step cfg now op) := inbound_step hop
  cases hinbound with
  | nothing hunheard =>
    rw [hunheard.lastRx]
    exact hheard
  | packet id hs hdelivered hrx hprobe hdataRx =>
    rw [hrx]
    omega

end WireNode

namespace Net

variable [DecidableEq ι] [Crates] [Tunnels] {stray : Pulses.Pulse ι (Flight ι) → Prop}

theorem pulses_work (net : Net ι) (i : ι) {op : WireOp} {n' : WireNode} {rx probe : Int}
    {sent : List (Flight ι)} (hn' : (net.node i).step (ms.cfg i) net.now op = n')
    (hrx : n'.clocks.lastInboundDataFrame = rx) (hprobe : n'.clocks.lastIdleProbe = probe)
    (hsent : ms.flights net.now i (net.node i) n' = sent) :
    (net.work ms i op).pulses = { net.pulses with
      heard := Function.update net.pulses.heard i rx
      pulsed := Function.update net.pulses.pulsed i probe
      inFlight := sent.map Flight.pulse ++ net.pulses.inFlight } := by
  have hfield : ∀ field : WireNode → Int,
      (fun k => field (Function.update net.node i n' k)) =
        Function.update (fun k => field (net.node k)) i (field n') := by
    intro field
    funext k
    by_cases hk : k = i
    · rw [hk, Function.update_self, Function.update_self]
    · rw [Function.update_of_ne hk, Function.update_of_ne hk]
  subst hn' hrx hprobe hsent
  unfold Net.pulses Net.work
  simp only [List.map_append, hfield fun n => n.clocks.lastInboundDataFrame,
    hfield fun n => n.clocks.lastIdleProbe]

/-- A step of the mesh is one of the net of pulses, or none. -/
theorem sim_step (hnodes : ∀ i, (net.node i).Tended (ms.cfg i))
    (hstray : ∀ m : Flight ι, m.frame.site = .dataProbe →
      WireNode.Follows (ms.cfg m.src) (net.node m.src) m.frame → stray m.pulse)
    {op : NetOp ι} (hpermits : net.Permits ms op) (hready : net.Ready op)
    (hsteady : net.Steady ms τ op) :
    Pulses.Reach idleTiming τ stray net.pulses (net.step ms op).pulses := by
  cases op with
  | wait t =>
    obtain ⟨hlater, hticks, hflights⟩ := hpermits
    refine .single (.wait net.pulses t hlater hticks ?_)
    intro m hm hsure
    obtain ⟨f, hf, rfl⟩ := List.mem_map.mp hm
    exact hflights f hf (by simpa [Flight.pulse] using hsure)
  | tick i order answers idle =>
    obtain ⟨htick, hup⟩ := hpermits
    obtain ⟨hsends, extra, hextra, hcases⟩ :=
      (hnodes i).tick ms i hup hsteady.1 hsteady.2 rfl
    have hrx := hsends.lastRx
    have hstrays : net.pulses.Sends stray (extra.map Flight.pulse) := by
      intro m hm
      obtain ⟨f, hf, rfl⟩ := List.mem_map.mp hm
      obtain ⟨hsrc, hat, hsite, hfollows⟩ := hextra f hf
      subst hsrc
      exact ⟨hstray f hsite hfollows, hat⟩
    have hn' : (net.node i).step (ms.cfg i) net.now (.tick order answers idle) =
        (net.node i).tick (ms.cfg i) net.now order answers idle := rfl
    generalize (net.node i).tick (ms.cfg i) net.now order answers idle = n' at hn' hrx hcases
    have hheard : Function.update net.pulses.heard i (net.node i).clocks.lastInboundDataFrame =
        net.pulses.heard := Function.update_eq_self i net.pulses.heard
    have hpulsed : Function.update net.pulses.pulsed i (net.node i).clocks.lastIdleProbe =
        net.pulses.pulsed := Function.update_eq_self i net.pulses.pulsed
    show Pulses.Reach idleTiming τ stray net.pulses
      { (net.work ms i (.tick order answers idle)).pulses with
        nextTick := Function.update net.nextTick i (net.now + timerInterval) }
    rcases hcases with ⟨hrest, hprobe, hflights⟩ | ⟨hdue, hprobe, f, hsite, -, hflights⟩
    · rw [net.pulses_work i hn' hrx hprobe hflights, hheard, hpulsed]
      exact .single (.rest net.pulses i _ hstrays htick hrest)
    · rw [net.pulses_work i hn' hrx hprobe hflights, hheard, List.map_cons]
      have hfirst : (⟨i, τ i, net.now, f⟩ : Flight ι).pulse =
          ⟨τ i, net.now, true, ⟨i, τ i, net.now, f⟩⟩ := by
        simp [Flight.pulse, hsite]
      rw [hfirst]
      exact .single (.pulse net.pulses i _ _ hstrays htick hdue)
  | arrive m order source =>
    obtain ⟨hm, -, hsilent, hone⟩ := hpermits
    have hinbound : WireNode.Inbound net.now source.isSome (net.node m.dst)
        ((net.node m.dst).step (ms.cfg m.dst) net.now (ms.arrival m order source)) :=
      WireNode.inbound_arrival m order source
    show Pulses.Reach idleTiming τ stray net.pulses
      ({ net with inFlight := net.inFlight.erase m }.work ms m.dst (ms.arrival m order source)).pulses
    generalize hn' : (net.node m.dst).step (ms.cfg m.dst) net.now (ms.arrival m order source) = n'
      at hinbound hsilent hone
    cases hinbound with
    | nothing hunheard =>
      have hnone := hunheard.deliveries
      omega
    | packet id hs hdelivered hrx hprobe hdataRx =>
      have hpulsed : Function.update net.pulses.pulsed m.dst
          (net.node m.dst).clocks.lastIdleProbe = net.pulses.pulsed :=
        Function.update_eq_self m.dst net.pulses.pulsed
      have herase : (net.inFlight.erase m).map Flight.pulse = net.pulses.inFlight.erase m.pulse :=
        List.map_erase Flight.pulse_injective net.inFlight
      rw [pulses_work { net with inFlight := net.inFlight.erase m } m.dst hn' hrx hprobe hsilent]
      show Pulses.Reach idleTiming τ stray net.pulses ⟨net.now, Function.update net.pulses.heard m.dst _,
        Function.update net.pulses.pulsed m.dst _, net.nextTick, (net.inFlight.erase m).map Flight.pulse⟩
      rw [hpulsed, herase]
      exact .single (.hear net.pulses m.pulse (List.mem_map_of_mem hm) hready)
  | control i op =>
    obtain ⟨hop, hsilent, hnone⟩ := hpermits
    obtain ⟨direct, hinbound⟩ : ∃ direct, WireNode.Inbound net.now direct (net.node i)
        ((net.node i).step (ms.cfg i) net.now op) := WireNode.inbound_step hop
    show Pulses.Reach idleTiming τ stray net.pulses (net.work ms i op).pulses
    generalize hn' : (net.node i).step (ms.cfg i) net.now op = n' at hinbound hsilent hnone
    cases hinbound with
    | nothing hunheard =>
      have hheard : Function.update net.pulses.heard i (net.node i).clocks.lastInboundDataFrame =
          net.pulses.heard := Function.update_eq_self i net.pulses.heard
      have hpulsed : Function.update net.pulses.pulsed i (net.node i).clocks.lastIdleProbe =
          net.pulses.pulsed := Function.update_eq_self i net.pulses.pulsed
      rw [net.pulses_work i hn' hunheard.lastRx hunheard.lastIdleProbe hsilent, hheard, hpulsed]
      exact .refl
    | packet id hs hdelivered => omega

theorem tended_step (hnodes : ∀ i, (net.node i).Tended (ms.cfg i)) {op : NetOp ι}
    (hpermits : net.Permits ms op) (hsteady : net.Steady ms τ op) (k : ι) :
    ((net.step ms op).node k).Tended (ms.cfg k) := by
  have hupdate : ∀ i n', n'.Tended (ms.cfg i) →
      (Function.update net.node i n' k).Tended (ms.cfg k) := by
    intro i n' hn'
    exact (Function.forall_update_iff net.node fun k n => n.Tended (ms.cfg k)).mpr
      ⟨hn', fun k _ => hnodes k⟩ k
  cases op with
  | wait t => exact hnodes k
  | tick i order answers idle =>
    obtain ⟨hsends, -⟩ := (hnodes i).tick ms i hpermits.2 hsteady.1 hsteady.2 rfl
    refine hupdate i _ ⟨?_, (hnodes i).paths.of_table hsends.table, ?_⟩
    · exact hsends.table ▸ (hnodes i).table
    · exact lt_of_lt_of_eq (hnodes i).heard hsends.lastRx.symm
  | arrive m order source =>
    exact hupdate m.dst _ ((hnodes m.dst).inbound (ms.isInbound_arrival m order source))
  | control i op => exact hupdate i _ ((hnodes i).inbound hpermits.1)

end Net

end Sim

end ServiceMesh
