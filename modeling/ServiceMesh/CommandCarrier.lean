import ServiceMesh.Node
import ServiceMesh.RosterIntegrity
import ServiceMesh.Entries

/-! The heartbeat as the carrier of queued commands: the coordinator and one of its nodes, with
requests and responses that may get lost between them. -/

namespace ServiceMesh

open StdNet (SocketAddr)

structure Link where
  server : Mesh
  node : Node

inductive Fate
  | requestLost
  | responseLost
  | arrives
deriving DecidableEq, Repr

inductive LinkMove
  | enqueue (peerId : String) (command : NodeCommandDto)
  | beat (amb : Ambient) (req : HeartbeatRequest) (observed : Option SocketAddr)
  | tick (amb : Ambient) (report : TickReport) (observed : Option SocketAddr) (fate : Fate)
      (nowMicros : Int) (saved : String → Bool)

/-- What a log of the exchange shows: a command queued for the node, an id that reached the
coordinator in `executed_command_ids`, a command in a response the node received and decoded. -/
inductive Carried
  | enqueued (command : NodeCommandDto)
  | reported (commandId : String)
  | received (command : NodeCommandDto)
deriving DecidableEq, Repr

section

variable [Crates]

def receivedCommands : Except CoordinatorError HeartbeatResponse →
    Except HeartbeatFailure (List NodeCommand)
  | .error e => .error (.httpStatus e.status)
  | .ok resp =>
    match decodeCommands resp.pendingCommands with
    | none => .error .other
    | some commands => .ok commands

def receivedLog : Except CoordinatorError HeartbeatResponse → List Carried
  | .error _ => []
  | .ok resp =>
    match decodeCommands resp.pendingCommands with
    | none => []
    | some _ => resp.pendingCommands.map .received

namespace Link

def answer (s : Link) (amb : Ambient) (report : TickReport) (observed : Option SocketAddr) :
    Except CoordinatorError HeartbeatResponse :=
  (s.server.coordinator.heartbeatHandler amb (s.node.request report) observed).2

def asked (s : Link) (amb : Ambient) (report : TickReport) (observed : Option SocketAddr) : Mesh :=
  (s.server.step (.heartbeat amb (s.node.request report) observed)).1

def step [CommandCrates] (s : Link) : LinkMove → Link × Bool
  | .enqueue peerId command => (⟨(s.server.step (.postCommand peerId command)).1, s.node⟩, false)
  | .beat amb req observed => (⟨(s.server.step (.heartbeat amb req observed)).1, s.node⟩, false)
  | .tick amb report observed fate nowMicros saved =>
    match fate with
    | .requestLost =>
      let (node, reregisters) := s.node.heard nowMicros saved (.error .other)
      (⟨s.server, node⟩, reregisters)
    | .responseLost =>
      let (node, reregisters) := s.node.heard nowMicros saved (.error .other)
      (⟨s.asked amb report observed, node⟩, reregisters)
    | .arrives =>
      let (node, reregisters) :=
        s.node.heard nowMicros saved (receivedCommands (s.answer amb report observed))
      (⟨s.asked amb report observed, node⟩, reregisters)

def log (s : Link) : LinkMove → List Carried
  | .enqueue peerId command =>
    if (Uuid.parseStr peerId).toOption = some s.node.peerId then [.enqueued command] else []
  | .beat .. => []
  | .tick amb report observed fate _ _ =>
    match fate with
    | .requestLost => []
    | .responseLost => s.node.pendingAcks.map .reported
    | .arrives =>
      s.node.pendingAcks.map .reported ++ receivedLog (s.answer amb report observed)

def pending (s : Link) : List NodeCommandDto :=
  ((s.server.coordinator.roster.lookup s.node.peerId).map PeerEntry.pendingCommands).getD []

def outgoing (s : Link) : List NodeCommandDto :=
  s.pending.filter (fun command => command.commandId ∉ s.node.pendingAcks)

/-- A response that the node does not receive, or cannot decode, carries no command. -/
def NothingAtStake (s : Link) : LinkMove → Prop
  | .tick _ _ _ .responseLost _ _ => s.outgoing = []
  | .tick _ _ _ .arrives _ _ => (decodeCommands s.outgoing).isSome
  | _ => True

end Link

def LinkMove.OfOthers (id : Uuid) : LinkMove → Prop
  | .beat _ req _ => (Uuid.parseStr req.peerId).toOption ≠ some id
  | _ => True

def link [CommandCrates] (s : Mesh) (node : Node) : Machine Link LinkMove Bool where
  init := ⟨s, node⟩
  step := Link.step
  admits _ move := move.OfOthers node.peerId

theorem Coordinator.heartbeatHandler_answer {c : Coordinator} {G : Uuid → StdNet.Ipv6Addr → Prop}
    (h : c.toRosterState.Inv G) {id : Uuid} {e : PeerEntry} (amb : Ambient) {req : HeartbeatRequest}
    (observed : Option SocketAddr) (hid : Uuid.parseStr req.peerId = .ok id)
    (he : c.roster.lookup id = some e) :
    ∃ resp, (c.heartbeatHandler amb req observed).2 = .ok resp ∧
      resp.pendingCommands =
        e.pendingCommands.filter (fun cmd => cmd.commandId ∉ req.executedCommandIds) := by
  have hpid : (req.beaten amb.now observed e).peerId = id :=
    (sameSeat_beatenEntry _ _ _ _ _ _ _ e).peerId.trans (h.keyed he)
  have hqueue : (req.beaten amb.now observed e).pendingCommands = e.pendingCommands := by
    simp only [HeartbeatRequest.beaten, beatenEntry, roamedEntry]
    repeat' split
    all_goals rfl
  rw [heartbeatHandler_eq amb observed hid he]
  refine ⟨_, rfl, ?_⟩
  simp only [hpid, (recordReports_eq req (lookup_beat amb req observed he)).2, hqueue]

namespace Link

variable {cfg : Config} {tr : List (Op × Reply)} {s : Link}

theorem answer_eq (h : (mesh cfg).Reach tr s.server) {e : PeerEntry}
    (he : s.server.coordinator.roster.lookup s.node.peerId = some e) (amb : Ambient)
    (report : TickReport) (observed : Option SocketAddr) :
    ∃ resp, s.answer amb report observed = .ok resp ∧ resp.pendingCommands = s.outgoing := by
  have hid : Uuid.parseStr (s.node.request report).peerId = .ok s.node.peerId :=
    Uuid.parseStr_toString _
  obtain ⟨resp, hresp, hcommands⟩ :=
    Coordinator.heartbeatHandler_answer (inv_of_reach h) amb observed hid he
  refine ⟨resp, hresp, hcommands.trans ?_⟩
  simp only [outgoing, pending, he, Option.map_some, Option.getD_some]
  exact List.filter_congr (fun _ _ => decide_eq_decide.mpr Iff.rfl)

theorem lookup_asked (h : (mesh cfg).Reach tr s.server) {e : PeerEntry}
    (he : s.server.coordinator.roster.lookup s.node.peerId = some e) (amb : Ambient)
    (report : TickReport) (observed : Option SocketAddr) :
    ∃ e', (s.asked amb report observed).coordinator.roster.lookup s.node.peerId = some e' := by
  have hid : Uuid.parseStr (s.node.request report).peerId = .ok s.node.peerId :=
    Uuid.parseStr_toString _
  have hroster : (s.asked amb report observed).coordinator.roster = _ :=
    Coordinator.heartbeatHandler_roster (inv_of_reach h) amb observed hid he
  rw [hroster, AList.lookup_modify, if_pos rfl, he]
  exact ⟨_, rfl⟩

theorem lookup_beat_other (h : (mesh cfg).Reach tr s.server) (amb : Ambient) (req : HeartbeatRequest)
    (observed : Option SocketAddr) (hother : (Uuid.parseStr req.peerId).toOption ≠ some s.node.peerId) :
    (s.server.step (.heartbeat amb req observed)).1.coordinator.roster.lookup s.node.peerId =
      s.server.coordinator.roster.lookup s.node.peerId := by
  change (s.server.coordinator.heartbeatHandler amb req observed).1.roster.lookup _ = _
  rcases s.server.coordinator.heartbeatHandler_cases amb req observed with
    ⟨err, hsame⟩ | ⟨id, e, hid, he⟩
  · rw [hsame]
  · have hne : s.node.peerId ≠ id := by
      intro heq
      rw [hid, heq] at hother
      exact hother rfl
    rw [Coordinator.heartbeatHandler_roster (inv_of_reach h) amb observed hid he,
      AList.lookup_modify, if_neg hne]

theorem lookup_enqueue {e : PeerEntry} (peerId : String) (command : NodeCommandDto)
    (he : s.server.coordinator.roster.lookup s.node.peerId = some e) :
    ∃ e', (s.server.step (.postCommand peerId command)).1.coordinator.roster.lookup s.node.peerId =
        some e' ∧
      e'.pendingCommands = e.pendingCommands ++
        if (Uuid.parseStr peerId).toOption = some s.node.peerId then [command] else [] := by
  change ∃ e', (s.server.coordinator.postCommandHandler peerId command).roster.lookup _ = _ ∧ _
  unfold Coordinator.postCommandHandler
  cases hid : Uuid.parseStr peerId with
  | error err => exact ⟨e, he, by simp [Except.toOption]⟩
  | ok id =>
    simp only [Coordinator.enqueueCommand, AList.lookup_modify, Except.toOption, Option.some.injEq]
    by_cases hk : s.node.peerId = id
    · subst hk
      rw [if_pos rfl, he, if_pos rfl]
      exact ⟨_, rfl, rfl⟩
    · rw [if_neg hk, if_neg (Ne.symm hk)]
      exact ⟨e, he, by simp⟩

end Link

variable [CommandCrates]

@[simp] theorem Node.heard_peerId (n : Node) (nowMicros : Int) (saved : String → Bool)
    (answer : Except HeartbeatFailure (List NodeCommand)) :
    (n.heard nowMicros saved answer).1.peerId = n.peerId := by
  unfold Node.heard
  split
  · split <;> rfl
  · rfl
  · rfl

namespace Link

variable {cfg : Config} {tr : List (Op × Reply)} {s : Link}

theorem step_peerId (s : Link) (move : LinkMove) : (s.step move).1.node.peerId = s.node.peerId := by
  cases move with
  | enqueue peerId command => rfl
  | beat amb req observed => rfl
  | tick amb report observed fate nowMicros saved => cases fate <;> simp [step]

theorem step_reach (h : (mesh cfg).Reach tr s.server) (move : LinkMove) :
    ∃ tr', (mesh cfg).Reach tr' (s.step move).1.server := by
  cases move with
  | enqueue peerId command => exact ⟨_, reach_step h (.postCommand peerId command) trivial⟩
  | beat amb req observed => exact ⟨_, reach_step h (.heartbeat amb req observed) trivial⟩
  | tick amb report observed fate nowMicros saved =>
    cases fate with
    | requestLost => exact ⟨tr, h⟩
    | responseLost | arrives =>
      exact ⟨_, reach_step h (.heartbeat amb (s.node.request report) observed) trivial⟩

structure Kept (x : Link × List Carried) : Prop where
  known : ∃ e, x.1.server.coordinator.roster.lookup x.1.node.peerId = some e
  carried : ∀ command, Carried.enqueued command ∈ x.2 →
    Carried.reported command.commandId ∉ x.2 →
    command ∈ x.1.pending ∨ Carried.received command ∈ x.2

theorem kept_enqueue {log : List Carried} (hk : Kept (s, log)) (peerId : String)
    (command : NodeCommandDto) :
    Kept ((s.step (.enqueue peerId command)).1, log ++ s.log (.enqueue peerId command)) := by
  obtain ⟨e, he⟩ := hk.known
  obtain ⟨e', he', hqueue⟩ := lookup_enqueue peerId command he
  have hpending : (s.step (.enqueue peerId command)).1.pending = s.pending ++
      if (Uuid.parseStr peerId).toOption = some s.node.peerId then [command] else [] := by
    simp only [pending, step, he, he', hqueue, Option.map_some, Option.getD_some]
  refine ⟨⟨e', he'⟩, ?_⟩
  intro other henq hrep
  rw [hpending]
  simp only [Link.log] at henq hrep ⊢
  rcases List.mem_append.mp henq with hold | hnew
  · have hrep : Carried.reported other.commandId ∉ log := by
      intro hmem
      exact hrep (List.mem_append_left _ hmem)
    rcases hk.carried other hold hrep with hqueued | hreceived
    · exact .inl (List.mem_append_left _ hqueued)
    · exact .inr (List.mem_append_left _ hreceived)
  · left
    split at hnew
    · rename_i hown
      rw [List.mem_singleton, Carried.enqueued.injEq] at hnew
      simp [hown, hnew]
    · simp at hnew

omit [CommandCrates] in
theorem kept_asked {log : List Carried} (hk : Kept (s, log)) {amb : Ambient} {report : TickReport}
    {observed : Option SocketAddr} {node : Node} (hnode : node.peerId = s.node.peerId)
    (h : (mesh cfg).Reach tr s.server) {new : List Carried}
    (hreported : ∀ id ∈ s.node.pendingAcks, Carried.reported id ∈ new)
    (hold : ∀ command, Carried.enqueued command ∉ new)
    (hreceived : ∀ command ∈ s.outgoing, Carried.received command ∈ new) :
    Kept (⟨s.asked amb report observed, node⟩, log ++ new) := by
  obtain ⟨e, he⟩ := hk.known
  refine ⟨?_, ?_⟩
  · rw [hnode]
    exact lookup_asked h he amb report observed
  · intro command henq hrep
    have henq : Carried.enqueued command ∈ log := by
      rcases List.mem_append.mp henq with henq | henq
      · exact henq
      · exact absurd henq (hold command)
    have hlog : Carried.reported command.commandId ∉ log := by
      intro hmem
      exact hrep (List.mem_append_left _ hmem)
    have hacks : command.commandId ∉ s.node.pendingAcks := by
      intro hmem
      exact hrep (List.mem_append_right _ (hreported _ hmem))
    right
    rcases hk.carried command henq hlog with hqueued | hdone
    · have hout : command ∈ s.outgoing := List.mem_filter.mpr ⟨hqueued, by simpa using hacks⟩
      exact List.mem_append_right _ (hreceived command hout)
    · exact List.mem_append_left _ hdone

omit [Crates] [CommandCrates] in
theorem kept_same {log : List Carried} (hk : Kept (s, log)) {s' : Link}
    (hnode : s'.node.peerId = s.node.peerId)
    (hlookup : s'.server.coordinator.roster.lookup s.node.peerId =
      s.server.coordinator.roster.lookup s.node.peerId) : Kept (s', log ++ []) := by
  rw [List.append_nil]
  refine ⟨?_, ?_⟩
  · rw [hnode, hlookup]
    exact hk.known
  · intro command henq hrep
    have hpending : s'.pending = s.pending := by
      unfold pending
      rw [hnode, hlookup]
    rw [hpending]
    exact hk.carried command henq hrep

theorem kept_step {log : List Carried} (hk : Kept (s, log)) (h : (mesh cfg).Reach tr s.server)
    {move : LinkMove} (hothers : move.OfOthers s.node.peerId)
    (hstake : s.NothingAtStake move) : Kept ((s.step move).1, log ++ s.log move) := by
  obtain ⟨e, he⟩ := hk.known
  cases move with
  | enqueue peerId command => exact kept_enqueue hk peerId command
  | beat amb req observed =>
    exact kept_same hk rfl (lookup_beat_other h amb req observed hothers)
  | tick amb report observed fate nowMicros saved =>
    cases fate with
    | requestLost => exact kept_same hk (s.step_peerId (.tick amb report observed .requestLost nowMicros saved)) rfl
    | responseLost =>
      have hstake : s.outgoing = [] := hstake
      refine kept_asked hk (s.step_peerId (.tick amb report observed .responseLost nowMicros saved)) h ?_ ?_ ?_
      · intro id hmem
        exact List.mem_map_of_mem hmem
      · intro command hmem
        obtain ⟨id, -, hid⟩ := List.mem_map.mp hmem
        cases hid
      · simp [hstake]
    | arrives =>
      obtain ⟨commands, hdecoded⟩ := Option.isSome_iff_exists.mp hstake
      obtain ⟨resp, hresp, hcommands⟩ := answer_eq h he amb report observed
      have hlog : s.log (.tick amb report observed .arrives nowMicros saved) =
          s.node.pendingAcks.map .reported ++ s.outgoing.map .received := by
        simp only [Link.log, hresp, receivedLog, hcommands, hdecoded]
      rw [hlog]
      refine kept_asked hk (s.step_peerId (.tick amb report observed .arrives nowMicros saved)) h ?_ ?_ ?_
      · intro id hmem
        exact List.mem_append_left _ (List.mem_map_of_mem hmem)
      · simp
      · intro command hmem
        exact List.mem_append_right _ (List.mem_map_of_mem hmem)

end Link

/-- In every run in which no response with a command in it gets lost or fails to decode, a command
queued for a known node is queued, received or reported. -/
theorem queued_until_reported {cfg : Config} {tr₀ : List (Op × Reply)} {s₀ : Mesh} {node : Node}
    (h₀ : (mesh cfg).Reach tr₀ s₀) (hknown : (s₀.coordinator.roster.lookup node.peerId).isSome)
    {tr : List (LinkMove × Bool)} {x : Link × List Carried}
    (h : ((link s₀ node).observed Link.log).Run (fun x move => x.1.NothingAtStake move) tr x)
    {command : NodeCommandDto} (henq : Carried.enqueued command ∈ x.2)
    (hrep : Carried.reported command.commandId ∉ x.2) :
    command ∈ x.1.pending ∨ Carried.received command ∈ x.2 := by
  have hinv : x.1.node.peerId = node.peerId ∧ (∃ tr', (mesh cfg).Reach tr' x.1.server) ∧
      Link.Kept x := by
    refine h.invariant (I := fun _ x => x.1.node.peerId = node.peerId ∧
      (∃ tr', (mesh cfg).Reach tr' x.1.server) ∧ Link.Kept x) ?_ ?_
    · refine ⟨rfl, ⟨tr₀, h₀⟩, Option.isSome_iff_exists.mp hknown, ?_⟩
      intro command henq
      simp [Machine.observed] at henq
    · rintro _ ⟨s, log⟩ move - ⟨hown, ⟨tr', hreach⟩, hkept⟩ hadmits hstake
      refine ⟨(s.step_peerId move).trans hown, Link.step_reach hreach move, ?_⟩
      refine Link.kept_step hkept hreach ?_ hstake
      rw [hown]
      exact hadmits
  exact hinv.2.2.carried command henq hrep

instance (s : Link) : (move : LinkMove) → Decidable (s.NothingAtStake move)
  | .tick _ _ _ .responseLost _ _ => inferInstanceAs (Decidable (s.outgoing = []))
  | .tick _ _ _ .arrives _ _ => inferInstanceAs (Decidable (decodeCommands s.outgoing).isSome)
  | .tick _ _ _ .requestLost _ _ | .enqueue .. | .beat .. => .isTrue trivial

instance (id : Uuid) : (move : LinkMove) → Decidable (move.OfOthers id)
  | .beat _ req _ => inferInstanceAs (Decidable ((Uuid.parseStr req.peerId).toOption ≠ some id))
  | .enqueue .. | .tick .. => .isTrue trivial

end

attribute [local instance] referenceCrates

@[reducible] def unsignedCrates : CommandCrates := referenceCommandCrates []

attribute [local instance] unsignedCrates

def idleNode : Node := ⟨1, false, CommandGate.new none [], []⟩

def resetCommand (id : Uuid) : NodeCommandDto :=
  ⟨Uuid.toString id, "reset_wg", Uuid.toString 1, "nonce", 0, 60000000, ""⟩

def enqueueMove (id : Uuid) : LinkMove := .enqueue (Uuid.toString 1) (resetCommand id)

def tickMove (fate : Fate) : LinkMove :=
  .tick (ambientAt 1 0) ⟨51820, [], none, none, false, [], true⟩ none fate 0 (fun _ => true)

def aliceLink : Machine (Link × List Carried) LinkMove Bool :=
  (link (stateAfter openConfig aliceOps) idleNode).observed Link.log

instance (tr : List (LinkMove × Bool)) (move : LinkMove) : Decidable (aliceLink.admits tr move) :=
  inferInstanceAs (Decidable (move.OfOthers 1))

def linkRun (moves : List LinkMove) : List (LinkMove × Bool) × (Link × List Carried) :=
  aliceLink.exec [] aliceLink.init moves

/-- The response that carried the command gets lost: the queue is empty, and the command was
neither received nor reported. -/
theorem lost_response_loses_command :
    (mesh openConfig).Reach (traceAfter openConfig aliceOps) (stateAfter openConfig aliceOps) ∧
    aliceLink.Reach (linkRun [enqueueMove 7, tickMove .responseLost]).1
      (linkRun [enqueueMove 7, tickMove .responseLost]).2 ∧
    ((linkRun [enqueueMove 7, tickMove .responseLost]).2.1.server.coordinator.roster.lookup
      1).isSome ∧
    (linkRun [enqueueMove 7, tickMove .responseLost]).2.2 = [.enqueued (resetCommand 7)] ∧
    (linkRun [enqueueMove 7, tickMove .responseLost]).2.1.pending = [] := by
  have hrun : aliceLink.Admissible (fun _ _ => True) [] aliceLink.init
      [enqueueMove 7, tickMove .responseLost] := by
    decide
  exact ⟨reach_aliceOps, Machine.Run.start.exec hrun, by decide⟩

def carriedMoves : List LinkMove :=
  [enqueueMove 7, tickMove .arrives, tickMove .responseLost, enqueueMove 8, tickMove .requestLost]

theorem queued_until_reported_carried :
    resetCommand 8 ∈ (linkRun carriedMoves).2.1.pending ∨
      Carried.received (resetCommand 8) ∈ (linkRun carriedMoves).2.2 := by
  have hfacts : aliceLink.Admissible (fun x move => x.1.NothingAtStake move) [] aliceLink.init
        carriedMoves ∧
      ((stateAfter openConfig aliceOps).coordinator.roster.lookup 1).isSome ∧
      Carried.enqueued (resetCommand 8) ∈ (linkRun carriedMoves).2.2 ∧
      Carried.reported (resetCommand 8).commandId ∉ (linkRun carriedMoves).2.2 := by
    decide
  exact queued_until_reported reach_aliceOps hfacts.2.1 (Machine.Run.start.exec hfacts.1)
    hfacts.2.2.1 hfacts.2.2.2

end ServiceMesh
