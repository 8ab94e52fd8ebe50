import ServiceMesh.CommandCarrier
import ServiceMesh.Rejoin

/-! The address a node takes for its own and the address the coordinator has for it. A node learns
its address when it starts; a register it makes later only brings a new peer id. -/

namespace ServiceMesh

open StdNet (Ipv6Addr SocketAddr)

structure JoinConfig where
  identityPath : Option String
  keypairPath : Option String
  requestedUla : Option String
  advertiseEndpoint : Option String
  displayName : String
  tags : List String
  joinToken : Option String
  kind : Option String
  parent : Option String
  appUuid : Option String
  relayOnly : Bool
  softwareVersion : Option String
deriving DecidableEq, Repr

structure PeerIdentity where
  publicKey : List UInt8
  ula : Ipv6Addr
deriving DecidableEq, Repr

structure Disk where
  identities : String → Except String (Option PeerIdentity)
  keypairs : String → Except String (Option (List UInt8))
  defaultKeypairPath : String

structure ResolvedIdentity where
  publicKey : List UInt8
  stickyUla : Option Ipv6Addr
  effectiveRequestedUla : Option String
deriving DecidableEq, Repr

namespace Disk

def empty : Disk := ⟨fun _ => .ok none, fun _ => .ok none, ".tabbify-mesh/keypair"⟩

def loadOrFresh (d : Disk) (path : String) (fresh : List UInt8) :
    Except String (List UInt8 × Option Ipv6Addr) :=
  match d.identities path with
  | .error e => .error ("load identity " ++ path ++ ": " ++ e)
  | .ok none => .ok (fresh, none)
  | .ok (some identity) => .ok (identity.publicKey, some identity.ula)

def loadOrGenerate (d : Disk) (path : String) (fresh : List UInt8) :
    Disk × Except String (List UInt8) :=
  match d.keypairs path with
  | .error e => (d, .error ("load keypair " ++ path ++ ": " ++ e))
  | .ok (some key) => (d, .ok key)
  | .ok none =>
    ({ d with keypairs := Function.update d.keypairs path (.ok (some fresh)) }, .ok fresh)

def loadIdentity (d : Disk) (config : JoinConfig) (fresh : List UInt8) :
    Disk × Except String (List UInt8 × Option Ipv6Addr) :=
  match config.identityPath with
  | some path => (d, d.loadOrFresh path fresh)
  | none =>
    let (d, key) := d.loadOrGenerate (config.keypairPath.getD d.defaultKeypairPath) fresh
    (d, key.map (fun key => (key, none)))

def resolveIdentity (d : Disk) (config : JoinConfig) (fresh : List UInt8) :
    Disk × Except String ResolvedIdentity :=
  match d.loadIdentity config fresh with
  | (d, .error e) => (d, .error e)
  | (d, .ok (publicKey, stickyUla)) =>
    match config.requestedUla, stickyUla with
    | some requested, some sticky =>
      if requested ≠ sticky.toString then
        (d, .error ("explicit requested ULA " ++ requested ++
          " differs from persisted identity ULA " ++ sticky.toString))
      else (d, .ok ⟨publicKey, some sticky, some requested⟩)
    | some requested, none => (d, .ok ⟨publicKey, none, some requested⟩)
    | none, some sticky => (d, .ok ⟨publicKey, some sticky, some sticky.toString⟩)
    | none, none => (d, .ok ⟨publicKey, none, none⟩)

def persistIdentityIfFresh (d : Disk) (config : JoinConfig) (identity : ResolvedIdentity)
    (myUla : Ipv6Addr) (stored : Bool) : Option Disk :=
  match config.identityPath, identity.stickyUla with
  | some path, none =>
    if stored then
      some { d with
        identities := Function.update d.identities path (.ok (some ⟨identity.publicKey, myUla⟩)) }
    else none
  | _, _ => some d

end Disk

def buildReregisterInputs (config : JoinConfig) (ourPublic : List UInt8)
    (effectiveRequestedUla : Option String) : ReregisterInputs where
  ourPublic := ourPublic
  advertiseEndpoint := config.advertiseEndpoint
  displayName := config.displayName
  tags := config.tags
  joinToken := config.joinToken
  requestedUla := effectiveRequestedUla
  strictRequestedUla := config.requestedUla.isSome
  kind := config.kind
  parent := config.parent
  appUuid := config.appUuid
  relayOnly := config.relayOnly

def joinerVersion : String := "0.1.0"

namespace ReregisterInputs

def request [Crates] (inputs : ReregisterInputs) (wgListenPort : UInt16) (args : RegisterArgs) :
    RegisterRequest where
  wgPublicKey := Crates.base64Encode inputs.ourPublic
  listenEndpoint := inputs.advertiseEndpoint
  wgListenPort := some wgListenPort
  displayName := inputs.displayName
  network := ""
  tags := inputs.tags
  hostedAppUlas := []
  kind := inputs.kind.getD "peer"
  parent := inputs.parent
  appUuid := inputs.appUuid
  requestedUla := args.requestedUla
  softwareVersion := args.softwareVersion
  meshVersion := args.meshVersion
  relayOnly := inputs.relayOnly

def bearer (inputs : ReregisterInputs) : Option String :=
  (inputs.joinToken.map trim).filter (fun token => token ≠ "")

end ReregisterInputs

section

variable [Crates]

def Reply.readRegister : Reply → Except HeartbeatFailure Client.RegisterResponse
  | .register (.error e) => .error (.httpStatus e.status)
  | .register (.ok reg) =>
    match Uuid.parseStr reg.response.peerId with
    | .ok peerId => .ok ⟨peerId, reg.response.ula⟩
    | .error _ => .error .other
  | _ => .error .other

def Reply.readHeartbeat : Reply → Except HeartbeatFailure (List NodeCommand)
  | .heartbeat answer => receivedCommands answer
  | _ => .error .other

def Mesh.post {α : Type} (s : Mesh) (op : Op) (read : Reply → Except HeartbeatFailure α) :
    Fate → Mesh × List (Op × Reply) × Except HeartbeatFailure α
  | .requestLost => (s, [], .error .other)
  | .responseLost => ((s.step op).1, [(op, (s.step op).2)], .error .other)
  | .arrives => ((s.step op).1, [(op, (s.step op).2)], read (s.step op).2)

end

structure Startup where
  config : JoinConfig
  identity : ResolvedIdentity
  wgListenPort : UInt16
  gate : CommandGate

structure Joiner where
  node : Node
  myUla : Ipv6Addr
  inputs : ReregisterInputs
  wgListenPort : UInt16

inductive Stage
  | down
  | joining (startup : Startup) (fallback : Bool)
  | up (joiner : Joiner) (register : Option Bool)

structure JoinWorld where
  server : Mesh
  disk : Disk
  stage : Stage

structure Attempt where
  amb : Ambient
  observed : Option SocketAddr
  fate : Fate
  stored : Bool
  opened : Bool

inductive JoinMove
  | coordinator (op : Op)
  | start (config : JoinConfig) (fresh : List UInt8) (wgListenPort : UInt16) (gate : CommandGate)
  | attempt (attempt : Attempt)
  | beat (amb : Ambient) (report : TickReport) (observed : Option SocketAddr) (fate : Fate)
      (nowMicros : Int) (saved : String → Bool)
  | stop

structure JoinOutput where
  served : List (Op × Reply)
  registered : Option Client.RegisterResponse

def freeArgs : RegisterArgs := ⟨none, none, none⟩

namespace Startup

def inputs (u : Startup) : ReregisterInputs :=
  buildReregisterInputs u.config u.identity.publicKey u.identity.effectiveRequestedUla

def args (u : Startup) (fallback : Bool) : RegisterArgs :=
  if fallback then freeArgs
  else ⟨u.config.softwareVersion, some joinerVersion, u.identity.effectiveRequestedUla⟩

def comeUp (u : Startup) (disk : Disk) (stored opened : Bool) (resp : Client.RegisterResponse) :
    Stage × Disk :=
  match Ipv6Addr.parse resp.ula with
  | none => (.down, disk)
  | some myUla =>
    match disk.persistIdentityIfFresh u.config u.identity myUla stored with
    | none => (.down, disk)
    | some disk =>
      (if opened then .up ⟨Node.joined resp.peerId u.gate, myUla, u.inputs, u.wgListenPort⟩ none
        else .down, disk)

end Startup

def Joiner.args (j : Joiner) (fallback : Bool) : RegisterArgs :=
  if fallback then freeArgs else ⟨none, none, j.inputs.requestedUla⟩

def Stage.answered (disk : Disk) (stored opened : Bool)
    (answer : Except HeartbeatFailure Client.RegisterResponse) : Stage → Stage × Disk
  | .down => (.down, disk)
  | .joining u fallback =>
    match answer with
    | .ok resp => u.comeUp disk stored opened resp
    | .error _ =>
      if !fallback && u.inputs.fallsBack answer then (.joining u true, disk) else (.down, disk)
  | .up j register =>
    if register = some false && j.inputs.fallsBack answer then (.up j (some true), disk)
    else (.up { j with node := j.node.adopt answer } none, disk)

section

variable [Crates]

def Stage.request : Stage → Option (RegisterRequest × Option String)
  | .joining u fallback =>
    some (u.inputs.request u.wgListenPort (u.args fallback), u.inputs.bearer)
  | .up j (some fallback) =>
    some (j.inputs.request j.wgListenPort (j.args fallback), j.inputs.bearer)
  | _ => none

def Stage.recovering : Stage → Option (Joiner × Bool)
  | .up j (some fallback) => some (j, fallback)
  | _ => none

namespace JoinWorld

def step [CommandCrates] (w : JoinWorld) : JoinMove → JoinWorld × JoinOutput
  | .coordinator op =>
    ({ w with server := (w.server.step op).1 }, ⟨[(op, (w.server.step op).2)], none⟩)
  | .start config fresh wgListenPort gate =>
    match w.disk.resolveIdentity config fresh with
    | (disk, .error _) => ({ w with disk := disk, stage := .down }, ⟨[], none⟩)
    | (disk, .ok identity) =>
      ({ w with disk := disk, stage := .joining ⟨config, identity, wgListenPort, gate⟩ false },
        ⟨[], none⟩)
  | .attempt a =>
    match w.stage.request with
    | none => (w, ⟨[], none⟩)
    | some (req, bearer) =>
      let (server, served, answer) :=
        w.server.post (.register a.amb req bearer a.observed) Reply.readRegister a.fate
      let (stage, disk) := w.stage.answered w.disk a.stored a.opened answer
      (⟨server, disk, stage⟩, ⟨served, answer.toOption⟩)
  | .beat amb report observed fate nowMicros saved =>
    match w.stage with
    | .up j none =>
      let (server, served, answer) :=
        w.server.post (.heartbeat amb (j.node.request report) observed) Reply.readHeartbeat fate
      let (node, reregisters) := j.node.heard nowMicros saved answer
      ({ w with
          server := server
          stage := .up { j with node := node } (if reregisters then some false else none) },
        ⟨served, none⟩)
    | _ => (w, ⟨[], none⟩)
  | .stop => ({ w with stage := .down }, ⟨[], none⟩)

def Agrees (w : JoinWorld) : Prop :=
  match w.stage with
  | .up j _ =>
    (w.server.coordinator.roster.lookup j.node.peerId).map (fun e => (e.ula, e.toInfo.ula)) =
      some (j.myUla, j.myUla.toString)
  | _ => True

end JoinWorld

/-- The address an admitted register comes to: the one the key is stored under, the next one of
another network it moves to, the one it asks for, or the next one of its network. -/
def Coordinator.Grants (c : Coordinator) (amb : Ambient) (req : RegisterRequest)
    (bearer : Option String) (ula : Ipv6Addr) : Prop :=
  ∃ claims pubkey, c.admission amb req bearer = .ok (claims, pubkey) ∧
    ((∃ id old, c.byPubkey.lookup pubkey = some id ∧ c.roster.lookup id = some old ∧
        ¬ (claims.isSome ∧ (stampIdentity req claims).network ≠ old.network) ∧ old.ula = ula) ∨
      (∃ raw, c.byPubkey.lookup pubkey = none ∧ req.requestedUla = some raw ∧
        Ipv6Addr.parse raw = some ula) ∨
      c.Allocates req claims pubkey ∧
        c.toRosterState.NextUla (stampIdentity req claims).network ula)

def JoinWorld.Keeps (w : JoinWorld) : JoinMove → Prop
  | .attempt a =>
    ∀ j fallback, w.stage.recovering = some (j, fallback) →
      w.server.coordinator.Grants a.amb (j.inputs.request j.wgListenPort (j.args fallback))
        j.inputs.bearer j.myUla
  | _ => True

def served (tr : List (JoinMove × JoinOutput)) : List (Op × Reply) :=
  tr.flatMap (fun x => x.2.served)

def JoinMove.Fresh (log : List (Op × Reply)) : JoinMove → Prop
  | .coordinator op => op.Fresh log
  | .attempt a => ∀ ula, ¬ Granted log a.amb.nowV7 ula
  | _ => True

instance (log : List (Op × Reply)) : (mv : JoinMove) → Decidable (mv.Fresh log)
  | .coordinator op => inferInstanceAs (Decidable (op.Fresh log))
  | .attempt a =>
    decidable_of_iff (∀ x ∈ log, x.2.grantedId ≠ some a.amb.nowV7) forall_grantedId_ne_iff
  | .start .. | .beat .. | .stop => .isTrue trivial

def joinWorld [CommandCrates] (cfg : Config) (disk : Disk) : Machine JoinWorld JoinMove JoinOutput where
  init := ⟨Mesh.init cfg, disk, .down⟩
  step := JoinWorld.step
  admits tr mv := mv.Fresh (served tr)

instance [CommandCrates] (cfg : Config) (disk : Disk) (tr : List (JoinMove × JoinOutput))
    (mv : JoinMove) : Decidable ((joinWorld cfg disk).admits tr mv) :=
  inferInstanceAs (Decidable (mv.Fresh (served tr)))

instance (w : JoinWorld) : Decidable w.Agrees := by
  unfold JoinWorld.Agrees
  split <;> infer_instance

omit [Crates] in
theorem RosterState.NextUla.unique {m : RosterState} {network : String} {u v : Ipv6Addr}
    (hu : m.NextUla network u) (hv : m.NextUla network v) : u = v := by
  obtain ⟨allocator, i, hu⟩ := hu
  obtain ⟨allocator', i', hv⟩ := hv
  have heq := Except.ok.inj (hu.symm.trans hv)
  simp only [Prod.mk.injEq] at heq
  exact heq.2.2

namespace Coordinator

variable {c : Coordinator} {amb : Ambient} {req : RegisterRequest} {bearer : Option String}
  {G : Uuid → Ipv6Addr → Prop}

theorem Grants.unique {u v : Ipv6Addr} (hu : c.Grants amb req bearer u)
    (hv : c.Grants amb req bearer v) : u = v := by
  obtain ⟨claims, pubkey, hadm, hu⟩ := hu
  obtain ⟨claims', pubkey', hadm', hv⟩ := hv
  obtain ⟨rfl, rfl⟩ := Prod.mk.inj (Except.ok.inj (hadm.symm.trans hadm'))
  cases hk : c.byPubkey.lookup pubkey with
  | none =>
    simp only [hk, reduceCtorEq, false_and, exists_false, false_or, true_and, Allocates] at hu hv
    rcases hu with ⟨raw, hraw, hu⟩ | ⟨hfree, hu⟩ <;> rcases hv with ⟨raw', hraw', hv⟩ | ⟨hfree', hv⟩
    · obtain rfl := Option.some.inj (hraw.symm.trans hraw')
      exact Option.some.inj (hu.symm.trans hv)
    · simp [hraw] at hfree'
    · simp [hraw'] at hfree
    · exact hu.unique hv
  | some id =>
    simp only [hk, reduceCtorEq, false_and, exists_false, false_or, Allocates, Option.some.injEq]
      at hu hv
    rcases hu with ⟨_, old, rfl, hold, hstay, rfl⟩ | ⟨⟨old, hold, hmove⟩, hu⟩ <;>
      rcases hv with ⟨_, old', rfl, hold', hstay', rfl⟩ | ⟨⟨old', hold', hmove'⟩, hv⟩
    · obtain rfl := Option.some.inj (hold.symm.trans hold')
      rfl
    · obtain rfl := Option.some.inj (hold.symm.trans hold')
      exact absurd hmove' hstay
    · obtain rfl := Option.some.inj (hold.symm.trans hold')
      exact absurd hmove hstay'
    · exact hu.unique hv

theorem grants_of_registers {observed : Option SocketAddr} (h : c.toRosterState.Inv G)
    {entry : PeerEntry} {outcome : RegisterOutcome}
    (hr : (c.registerAuthenticated amb req bearer observed).2 = .ok (entry, outcome)) :
    c.Grants amb req bearer entry.ula := by
  have hreg := registers amb req bearer observed h
  generalize c.registerAuthenticated amb req bearer observed = x at hreg hr
  cases hreg with
  | refused | exhausted | turnedAway => simp at hr
  | @refreshed claims pubkey id old hadm hk hold hstay =>
    obtain ⟨rfl, -⟩ := Prod.mk.inj (Except.ok.inj hr)
    exact ⟨claims, pubkey, hadm, .inl ⟨id, old, hk, hold, hstay, rfl⟩⟩
  | @moved claims pubkey id old allocator idx ula hadm hk hold hmove ha =>
    obtain ⟨rfl, -⟩ := Prod.mk.inj (Except.ok.inj hr)
    refine ⟨claims, pubkey, hadm, .inr (.inr ⟨?_, allocator, idx, ha⟩)⟩
    simp only [Allocates, hk]
    exact ⟨old, hold, hmove⟩
  | @joined claims pubkey ula hadm hk hres =>
    obtain ⟨rfl, -⟩ := Prod.mk.inj (Except.ok.inj hr)
    refine ⟨claims, pubkey, hadm, .inr ?_⟩
    cases hraw : req.requestedUla with
    | some raw => exact .inl ⟨raw, hk, rfl, hres.requested raw hraw⟩
    | none =>
      -- no address is asked for, so no holder is evicted
      have hnext := hres.next hraw
      rw [hraw] at hnext
      refine .inr ⟨?_, hnext⟩
      simp only [Allocates, hk]
      exact hraw

theorem ula_eq_iff_grants {observed : Option SocketAddr} (h : c.toRosterState.Inv G)
    {reg : Registered} (hr : (c.registerHandler amb req bearer observed).2 = .ok reg)
    (ula : Ipv6Addr) : reg.entry.ula = ula ↔ c.Grants amb req bearer ula := by
  have hgrants := grants_of_registers h (registerHandler_eq_ok hr).1
  constructor
  · rintro rfl
    exact hgrants
  · intro hula
    exact hgrants.unique hula

end Coordinator

theorem Coordinator.registerHandler_response {c : Coordinator} {amb : Ambient}
    {req : RegisterRequest} {bearer : Option String} {observed : Option SocketAddr}
    {reg : Registered} (h : (c.registerHandler amb req bearer observed).2 = .ok reg) :
    reg.response.peerId = reg.entry.peerId.toString ∧
      reg.response.ula = reg.entry.ula.toString := by
  simp only [registerHandler] at h
  generalize c.registerAuthenticated amb req bearer observed = x at h
  obtain ⟨c', err | ⟨entry, outcome⟩⟩ := x
  · simp at h
  · obtain rfl := Except.ok.inj h
    exact ⟨rfl, rfl⟩

theorem Mesh.post_register_ok {s : Mesh} {amb : Ambient} {req : RegisterRequest}
    {bearer : Option String} {observed : Option SocketAddr} {fate : Fate}
    {resp : Client.RegisterResponse}
    (h : (s.post (.register amb req bearer observed) Reply.readRegister fate).2.2 = .ok resp) :
    ∃ reg, (s.coordinator.registerHandler amb req bearer observed).2 = .ok reg ∧
      resp = ⟨reg.entry.peerId, reg.entry.ula.toString⟩ ∧
      (s.post (.register amb req bearer observed) Reply.readRegister fate).1.coordinator =
        (s.coordinator.registerHandler amb req bearer observed).1 := by
  cases fate with
  | requestLost | responseLost => simp [Mesh.post] at h
  | arrives =>
    have h : Reply.readRegister
        (.register (s.coordinator.registerHandler amb req bearer observed).2) = .ok resp := h
    cases hans : (s.coordinator.registerHandler amb req bearer observed).2 with
    | error e => simp [hans, Reply.readRegister] at h
    | ok reg =>
      refine ⟨reg, rfl, ?_, rfl⟩
      obtain ⟨hid, hula⟩ := Coordinator.registerHandler_response hans
      simp only [hans, Reply.readRegister, hid, hula, Uuid.parseStr_toString] at h
      exact (Except.ok.inj h).symm

theorem Mesh.reach_post {α : Type} {cfg : Config} {log : List (Op × Reply)} {s : Mesh}
    (h : (mesh cfg).Reach log s) {op : Op} (hfresh : op.Fresh log)
    (read : Reply → Except HeartbeatFailure α) (fate : Fate) :
    (mesh cfg).Reach ((s.post op read fate).2.1 ++ log) (s.post op read fate).1 := by
  cases fate with
  | requestLost => exact h
  | responseLost | arrives => exact reach_step h op hfresh

section

variable [CommandCrates] {cfg : Config} {disk : Disk} {tr : List (JoinMove × JoinOutput)}
  {w : JoinWorld}

theorem JoinWorld.reach_step {log : List (Op × Reply)} (h : (mesh cfg).Reach log w.server)
    {mv : JoinMove} (hfresh : mv.Fresh log) :
    (mesh cfg).Reach ((w.step mv).2.served ++ log) (w.step mv).1.server := by
  cases mv with
  | coordinator op => exact ServiceMesh.reach_step h op hfresh
  | start config fresh wgListenPort gate =>
    simp only [JoinWorld.step]
    split <;> exact h
  | attempt a =>
    simp only [JoinWorld.step]
    split
    · exact h
    · refine Mesh.reach_post h ?_ _ _
      exact hfresh
  | beat amb report observed fate nowMicros saved =>
    simp only [JoinWorld.step]
    split
    · refine Mesh.reach_post h ?_ _ _
      trivial
    · exact h
  | stop => exact h

theorem reach_server (h : (joinWorld cfg disk).Reach tr w) :
    (mesh cfg).Reach (served tr) w.server := by
  refine h.invariant (I := fun tr w => (mesh cfg).Reach (served tr) w.server) .start ?_
  intro tr w mv _ ih hfresh _
  exact JoinWorld.reach_step ih hfresh

omit [CommandCrates] in
theorem Startup.comeUp_agrees (u : Startup) (server : Mesh) (disk : Disk) (stored opened : Bool)
    {e : PeerEntry} (he : server.coordinator.roster.lookup e.peerId = some e) :
    (JoinWorld.mk server (u.comeUp disk stored opened ⟨e.peerId, e.ula.toString⟩).2
      (u.comeUp disk stored opened ⟨e.peerId, e.ula.toString⟩).1).Agrees := by
  simp only [Startup.comeUp, Ipv6Addr.parse_toString]
  split
  · trivial
  · cases opened with
    | false => trivial
    | true =>
      simp only [JoinWorld.Agrees, Node.joined, he, Option.map_some, if_true]
      rfl

theorem agrees_iff_of_attempt (hi : ∃ G, w.server.coordinator.toRosterState.Inv G) {a : Attempt}
    {resp : Client.RegisterResponse} (hr : (w.step (.attempt a)).2.registered = some resp) :
    (w.step (.attempt a)).1.Agrees ↔ w.Keeps (.attempt a) := by
  obtain ⟨G, hi⟩ := hi
  obtain ⟨server, disk, stage⟩ := w
  simp only [JoinWorld.step] at hr ⊢
  cases hreq : stage.request with
  | none => simp [hreq] at hr
  | some sent =>
    obtain ⟨req, bearer⟩ := sent
    simp only [hreq] at hr ⊢
    cases hans : (server.post (.register a.amb req bearer a.observed) Reply.readRegister a.fate).2.2 with
    | error e => simp [hans, Except.toOption] at hr
    | ok resp =>
      obtain ⟨reg, hreg, rfl, hserver⟩ := Mesh.post_register_ok hans
      have hstored := Coordinator.registerHandler_lookup a.amb req a.observed bearer hi hreg
      rw [← hserver] at hstored
      cases stage with
      | down => simp [Stage.request] at hreq
      | joining u fallback =>
        have hagrees := u.comeUp_agrees _ disk a.stored a.opened hstored
        refine iff_of_true hagrees ?_
        intro j fallback hstage
        simp [Stage.recovering] at hstage
      | up j register =>
        cases register with
        | none => simp [Stage.request] at hreq
        | some fallback =>
          obtain ⟨rfl, rfl⟩ := Prod.mk.inj (Option.some.inj hreq)
          have hkeeps : JoinWorld.Keeps ⟨server, disk, .up j (some fallback)⟩ (.attempt a) ↔
              reg.entry.ula = j.myUla := by
            rw [Coordinator.ula_eq_iff_grants hi hreg]
            constructor
            · intro h
              exact h j fallback rfl
            · intro h j' fallback' hstage
              obtain ⟨rfl, rfl⟩ := Prod.mk.inj (Option.some.inj hstage)
              exact h
          rw [hkeeps]
          simp only [Stage.answered, ReregisterInputs.fallsBack, Bool.and_false,
            Bool.false_eq_true, if_false, JoinWorld.Agrees, Node.adopt, hstored, Option.map_some]
          constructor
          · intro h
            exact (Prod.mk.inj (Option.some.inj h)).1
          · intro hula
            rw [← hula]
            rfl

/-- After every register that succeeds: the node's own address is the one the coordinator has
stored and announces, exactly when the node was only starting or the register came to the address
the node had. -/
theorem own_address_agrees_iff (h : (joinWorld cfg disk).Reach tr w) {mv : JoinMove}
    {resp : Client.RegisterResponse} (hr : (w.step mv).2.registered = some resp) :
    (w.step mv).1.Agrees ↔ w.Keeps mv := by
  cases mv with
  | attempt a => exact agrees_iff_of_attempt ⟨_, inv_of_reach (reach_server h)⟩ hr
  | coordinator op => simp [JoinWorld.step] at hr
  | start config fresh wgListenPort gate =>
    simp only [JoinWorld.step] at hr
    split at hr <;> simp at hr
  | beat amb report observed fate nowMicros saved =>
    simp only [JoinWorld.step] at hr
    split at hr <;> simp at hr
  | stop => simp [JoinWorld.step] at hr

end

end
section

variable [Crates]

def JoinWorld.AsksForOwn (w : JoinWorld) (a : Attempt) : Prop :=
  w.stage.recovering.any (fun x =>
    x.2 = false ∧ x.1.inputs.requestedUla.bind Ipv6Addr.parse = some x.1.myUla ∧
      (w.server.coordinator.admission a.amb (x.1.inputs.request x.1.wgListenPort (x.1.args false))
        x.1.inputs.bearer).toOption.any
          (fun admitted => w.server.coordinator.byPubkey.lookup admitted.2 = none)) = true

instance (w : JoinWorld) (a : Attempt) : Decidable (w.AsksForOwn a) :=
  inferInstanceAs (Decidable (_ = true))

theorem JoinWorld.AsksForOwn.keeps {w : JoinWorld} {a : Attempt} (h : w.AsksForOwn a) :
    w.Keeps (.attempt a) := by
  intro j fallback hstage
  simp only [AsksForOwn, hstage, Option.any_some, decide_eq_true_eq] at h
  obtain ⟨rfl, hula, hadmitted⟩ := h
  obtain ⟨raw, hraw, hparse⟩ := Option.bind_eq_some_iff.mp hula
  cases hadm : w.server.coordinator.admission a.amb
      (j.inputs.request j.wgListenPort (j.args false)) j.inputs.bearer with
  | error e => simp [hadm, Except.toOption] at hadmitted
  | ok admitted =>
    simp only [hadm, Except.toOption, Option.any_some, decide_eq_true_eq] at hadmitted
    exact ⟨admitted.1, admitted.2, hadm, .inr (.inl ⟨raw, hadmitted, hraw, hparse⟩)⟩

end

attribute [local instance] referenceCrates

@[reducible] local instance unsignedCommandCrates : CommandCrates := referenceCommandCrates []

def laptopConfig (requestedUla : Option String) : JoinConfig where
  identityPath := some "identity.json"
  keypairPath := none
  requestedUla := requestedUla
  advertiseEndpoint := none
  displayName := "laptop"
  tags := []
  joinToken := none
  kind := none
  parent := none
  appUuid := none
  relayOnly := false
  softwareVersion := none

def attemptAt (now : Nat) (nowV7 : Uuid) : Attempt :=
  ⟨ambientAt now nowV7, none, .arrives, true, true⟩

def quietReport : TickReport := ⟨51820, [], none, none, false, [], true⟩

def forgottenMoves (requestedUla : Option String) : List JoinMove :=
  [.start (laptopConfig requestedUla) (List.replicate 32 1) 51820 (CommandGate.new none []),
    .attempt (attemptAt 0 1),
    .coordinator (.restart openConfig 10 none),
    .coordinator (registerOp 10 2 (plainRequest keyTwo "" none)),
    .beat (ambientAt 20 3) quietReport none .arrives 0 (fun _ => true)]

def joinRun (moves : List JoinMove) : List (JoinMove × JoinOutput) × JoinWorld :=
  (joinWorld openConfig Disk.empty).exec [] ⟨Mesh.init openConfig, Disk.empty, .down⟩ moves

theorem reach_joinRun (moves : List JoinMove)
    (h : (joinWorld openConfig Disk.empty).Admissible (fun _ _ => True) []
      ⟨Mesh.init openConfig, Disk.empty, .down⟩ moves) :
    (joinWorld openConfig Disk.empty).Reach (joinRun moves).1 (joinRun moves).2 :=
  Machine.Run.exec .start h

def requestedRun : List (JoinMove × JoinOutput) × JoinWorld :=
  joinRun (forgottenMoves (some "fd00::1"))

theorem reach_requestedRun :
    (joinWorld openConfig Disk.empty).Reach requestedRun.1 requestedRun.2 :=
  reach_joinRun _ (by decide)

theorem own_address_agrees_requested :
    (requestedRun.2.step (.attempt (attemptAt 20 4))).1.Agrees := by
  have hgeneral : ∀ tr w a, (joinWorld openConfig Disk.empty).Reach tr w →
      (w.step (.attempt a)).2.registered.isSome = true → w.AsksForOwn a →
      (w.step (.attempt a)).1.Agrees := by
    intro tr w a h hsome hasks
    obtain ⟨resp, hr⟩ := Option.isSome_iff_exists.mp hsome
    exact (own_address_agrees_iff h hr).mpr hasks.keeps
  have hsome : (requestedRun.2.step (.attempt (attemptAt 20 4))).2.registered.isSome = true := by
    decide
  have hasks : requestedRun.2.AsksForOwn (attemptAt 20 4) := by decide
  exact hgeneral requestedRun.1 requestedRun.2 (attemptAt 20 4) reach_requestedRun hsome hasks

def forgottenRun : List (JoinMove × JoinOutput) × JoinWorld := joinRun (forgottenMoves none)

/-- The coordinator gives the first address of the network to the node that came first this time,
and the next one to the node that still goes by the first. -/
theorem own_address_lost :
    (forgottenRun.2.step (.attempt (attemptAt 20 4))).2.registered.isSome ∧
      ¬ (forgottenRun.2.step (.attempt (attemptAt 20 4))).1.Agrees := by
  decide +kernel

end ServiceMesh
