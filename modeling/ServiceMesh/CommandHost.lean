import ServiceMesh.Node
import ServiceMesh.Machine

/-! The command loop of one node over its whole life. It is cut wherever the process can die: after
a verdict, between the dispatch of a verb and the record of its nonce, between two commands. -/

namespace ServiceMesh

structure Batch where
  commands : List NodeCommand
  nowMicros : Int
  todo : List NodeCommand
  /-- The command whose verb was dispatched and whose nonce is not recorded yet. -/
  running : Option NodeCommand
  acks : List String
deriving DecidableEq, Repr

structure Host where
  peerId : Uuid
  gate : CommandGate
  batch : Option Batch
deriving DecidableEq, Repr

inductive HostMove
  | deliver (nowMicros : Int) (commands : List NodeCommand)
  | advance (saved : Bool)
  | restart (peerId : Uuid)
  | rejoin (peerId : Uuid)
deriving DecidableEq, Repr

inductive HostDeed
  | quiet
  | dispatched (cmd : NodeCommand) (nowMicros : Int)
  | finished (commands : List NodeCommand) (acks : List String)
  | restarted (forgotten : List String)
deriving DecidableEq, Repr

namespace Host

def boot (peerId : Uuid) (superAdminPubkey : Option (List UInt8)) (file : List String) : Host :=
  ⟨peerId, CommandGate.new superAdminPubkey file, none⟩

def known (s : Host) : List String :=
  ((s.batch.bind Batch.running).map NodeCommand.nonce).toList ++ s.gate.nonces.nonces

def forgotten (s : Host) : List String :=
  s.known.filter (fun nonce => nonce ∉ s.gate.nonces.file)

variable [Crates] [CommandCrates]

def advance (s : Host) (b : Batch) (saved : Bool) : Host × HostDeed :=
  match b.running with
  | some cmd =>
    ({ s with
      gate := s.gate.markExecuted cmd.nonce saved
      batch := some { b with running := none, acks := b.acks ++ [Uuid.toString cmd.commandId] } },
      .quiet)
  | none =>
    match b.todo with
    | [] => ({ s with batch := none }, .finished b.commands b.acks)
    | cmd :: rest =>
      match s.gate.evaluate cmd b.nowMicros with
      | .accept =>
        ({ s with batch := some { b with todo := rest, running := some cmd } },
          .dispatched cmd b.nowMicros)
      | .replay | .reject _ =>
        ({ s with
          batch := some { b with todo := rest, acks := b.acks ++ [Uuid.toString cmd.commandId] } },
          .quiet)

def step (s : Host) : HostMove → Host × HostDeed
  | .deliver nowMicros commands =>
    if s.batch.isNone ∧ commands ≠ [] then
      ({ s with batch := some ⟨commands, nowMicros, commands, none, []⟩ }, .quiet)
    else (s, .quiet)
  | .advance saved =>
    match s.batch with
    | none => (s, .quiet)
    | some b => s.advance b saved
  | .restart peerId =>
    (boot peerId s.gate.superAdminPubkey s.gate.nonces.file, .restarted s.forgotten)
  | .rejoin peerId =>
    if s.batch.isNone then ({ s with peerId := peerId }, .quiet) else (s, .quiet)

inductive Moves (s : Host) : HostMove → HostDeed → Host → Prop
  | still (move : HostMove) : Moves s move .quiet s
  | delivered (nowMicros : Int) (commands : List NodeCommand) : s.batch = none →
      Moves s (.deliver nowMicros commands) .quiet
        { s with batch := some ⟨commands, nowMicros, commands, none, []⟩ }
  | rejoined (peerId : Uuid) : s.batch = none →
      Moves s (.rejoin peerId) .quiet { s with peerId := peerId }
  | restarted (peerId : Uuid) :
      Moves s (.restart peerId) (.restarted s.forgotten)
        (boot peerId s.gate.superAdminPubkey s.gate.nonces.file)
  | recorded (saved : Bool) {b : Batch} {cmd : NodeCommand} : s.batch = some b →
      b.running = some cmd →
      Moves s (.advance saved) .quiet
        { s with
          gate := s.gate.markExecuted cmd.nonce saved
          batch := some
            { b with running := none, acks := b.acks ++ [Uuid.toString cmd.commandId] } }
  | finished (saved : Bool) {b : Batch} : s.batch = some b → b.running = none → b.todo = [] →
      Moves s (.advance saved) (.finished b.commands b.acks) { s with batch := none }
  | dispatched (saved : Bool) {b : Batch} {cmd : NodeCommand} {rest : List NodeCommand} :
      s.batch = some b → b.running = none → b.todo = cmd :: rest →
      s.gate.evaluate cmd b.nowMicros = .accept →
      Moves s (.advance saved) (.dispatched cmd b.nowMicros)
        { s with batch := some { b with todo := rest, running := some cmd } }
  | skipped (saved : Bool) {b : Batch} {cmd : NodeCommand} {rest : List NodeCommand} :
      s.batch = some b → b.running = none → b.todo = cmd :: rest →
      s.gate.evaluate cmd b.nowMicros ≠ .accept →
      Moves s (.advance saved) .quiet
        { s with
          batch := some
            { b with
              todo := rest
              running := none
              acks := b.acks ++ [Uuid.toString cmd.commandId] } }

theorem moves_advance {s : Host} {b : Batch} (saved : Bool) (hb : s.batch = some b) :
    s.Moves (.advance saved) (s.advance b saved).2 (s.advance b saved).1 := by
  cases hrunning : b.running with
  | some cmd =>
    simp only [advance, hrunning]
    exact .recorded saved hb hrunning
  | none =>
    cases htodo : b.todo with
    | nil =>
      simp only [advance, hrunning, htodo]
      exact .finished saved hb hrunning htodo
    | cons cmd rest =>
      cases hverdict : s.gate.evaluate cmd b.nowMicros with
      | accept =>
        simp only [advance, hrunning, htodo, hverdict]
        exact .dispatched saved hb hrunning htodo hverdict
      | replay | reject e =>
        have hrefused : s.gate.evaluate cmd b.nowMicros ≠ .accept := by simp [hverdict]
        simp only [advance, hrunning, htodo, hverdict]
        exact .skipped saved hb hrunning htodo hrefused

theorem moves (s : Host) (move : HostMove) : s.Moves move (s.step move).2 (s.step move).1 := by
  cases move with
  | deliver nowMicros commands =>
    simp only [step]
    split
    · rename_i h
      exact .delivered nowMicros commands (Option.isNone_iff_eq_none.mp h.1)
    · exact .still _
  | advance saved =>
    simp only [step]
    split
    · exact .still _
    · rename_i b hb
      exact moves_advance saved hb
  | restart peerId => exact .restarted peerId
  | rejoin peerId =>
    simp only [step]
    split
    · rename_i h
      exact .rejoined peerId (Option.isNone_iff_eq_none.mp h)
    · exact .still _

end Host

section

variable [Crates] [CommandCrates]

def host (peerId : Uuid) (superAdminPubkey : Option (List UInt8)) (file : List String) :
    Machine Host HostMove HostDeed where
  init := Host.boot peerId superAdminPubkey file
  step := Host.step
  admits _ _ := True

variable {peerId : Uuid} {superAdminPubkey : Option (List UInt8)} {file : List String}

def HostDeed.command? : HostDeed → Option NodeCommand
  | .dispatched cmd _ => some cmd
  | _ => none

def dispatchLog (tr : List (HostMove × HostDeed)) : List NodeCommand :=
  tr.filterMap (fun x => x.2.command?)

variable (peerId superAdminPubkey file) in
theorem host_completes (saved : String → Bool) (id : Uuid) (commands : List NodeCommand)
    (nowMicros : Int) (todo : List NodeCommand) (p : Processed) (old : List NodeCommand)
    (tr : List (HostMove × HostDeed)) (hlog : dispatchLog tr = p.dispatched.reverse ++ old) :
    ∃ moves, (∀ move ∈ moves, ∃ flag, move = .advance flag) ∧
      let q := todo.foldl (processCommand nowMicros saved) p
      let run := (host peerId superAdminPubkey file).exec tr
        ⟨id, p.gate, some ⟨commands, nowMicros, todo, none, p.acks⟩⟩ moves
      run.2 = ⟨id, q.gate, none⟩ ∧ dispatchLog run.1 = q.dispatched.reverse ++ old ∧
        ∃ move, run.1.head? = some (move, .finished commands q.acks) := by
  induction todo generalizing p tr with
  | nil =>
    refine ⟨[.advance true], by simp, rfl, ?_, .advance true, rfl⟩
    exact hlog
  | cons cmd rest ih =>
    cases hverdict : p.gate.evaluate cmd nowMicros with
    | accept =>
      -- the dispatch and the record of the nonce are two steps
      have hp : processCommand nowMicros saved p cmd =
          ⟨p.gate.markExecuted cmd.nonce (saved cmd.nonce), p.dispatched ++ [cmd],
            p.acks ++ [Uuid.toString cmd.commandId]⟩ := by
        simp only [processCommand, hverdict]
      have hlog' : dispatchLog ((.advance (saved cmd.nonce), .quiet) ::
          (.advance true, .dispatched cmd nowMicros) :: tr) =
          (processCommand nowMicros saved p cmd).dispatched.reverse ++ old := by
        rw [hp, List.reverse_append]
        exact congrArg (cmd :: ·) hlog
      obtain ⟨moves, hmoves, hrun⟩ := ih _ _ hlog'
      refine ⟨.advance true :: .advance (saved cmd.nonce) :: moves, ?_, ?_⟩
      · intro move hmove
        rcases List.mem_cons.mp hmove with rfl | hmove
        · exact ⟨true, rfl⟩
        rcases List.mem_cons.mp hmove with rfl | hmove
        · exact ⟨saved cmd.nonce, rfl⟩
        · exact hmoves move hmove
      · rw [hp] at hrun
        simpa only [Machine.exec, host, Host.step, Host.advance, hverdict, List.foldl_cons, hp]
          using hrun
    | replay | reject e =>
      have hp : processCommand nowMicros saved p cmd =
          { p with acks := p.acks ++ [Uuid.toString cmd.commandId] } := by
        simp only [processCommand, hverdict]
      have hlog' : dispatchLog ((.advance true, .quiet) :: tr) =
          (processCommand nowMicros saved p cmd).dispatched.reverse ++ old := by
        rw [hp]
        exact hlog
      obtain ⟨moves, hmoves, hrun⟩ := ih _ _ hlog'
      refine ⟨.advance true :: moves, ?_, ?_⟩
      · intro move hmove
        rcases List.mem_cons.mp hmove with rfl | hmove
        · exact ⟨true, rfl⟩
        · exact hmoves move hmove
      · rw [hp] at hrun
        simpa only [Machine.exec, host, Host.step, Host.advance, hverdict, List.foldl_cons, hp]
          using hrun

/-- A batch that no restart cuts short ends as `process_commands` does: the same gate, the same
verbs in the same order, the same acknowledgements. -/
theorem host_batch (saved : String → Bool) {s : Host} (hidle : s.batch = none) {nowMicros : Int}
    {commands : List NodeCommand} (hne : commands ≠ []) (tr : List (HostMove × HostDeed)) :
    ∃ moves, (∀ move ∈ moves, ∃ flag, move = .advance flag) ∧
      let p := processCommands commands s.gate nowMicros saved
      let run := (host peerId superAdminPubkey file).exec tr s (.deliver nowMicros commands :: moves)
      run.2 = { s with gate := p.gate } ∧
        dispatchLog run.1 = p.dispatched.reverse ++ dispatchLog tr ∧
        ∃ move, run.1.head? = some (move, .finished commands p.acks) := by
  have hlog : dispatchLog ((.deliver nowMicros commands, .quiet) :: tr) =
      ([] : List NodeCommand).reverse ++ dispatchLog tr := rfl
  obtain ⟨moves, hmoves, hrun⟩ := host_completes peerId superAdminPubkey file saved s.peerId
    commands nowMicros commands ⟨s.gate, [], []⟩ (dispatchLog tr) _ hlog
  refine ⟨moves, hmoves, ?_⟩
  obtain ⟨id, gate, batch⟩ := s
  have hbatch : batch = none := hidle
  subst hbatch
  simpa only [Machine.exec, host, Host.step, Option.isNone_none, hne, ne_eq, not_false_eq_true,
    and_self, if_true, processCommands] using hrun

/-- No signature verifies under `pubkey` but on the bytes of a command that its owner signed. -/
def Unforgeable (pubkey : List UInt8) (signed : NodeCommand → Prop) : Prop :=
  ∀ msg sig, CommandCrates.verifies pubkey msg sig = true →
    ∃ cmd, signed cmd ∧ msg = cmd.signingBytes

/-- A response names the node it is delivered to in every command that verifies. -/
def Host.Addressed (s : Host) : HostMove → Prop
  | .deliver _ commands =>
    ∀ cmd ∈ commands, s.gate.Verifies cmd → cmd.peerId = Uuid.toString s.peerId
  | _ => True

namespace Host

variable {s s' : Host} {move : HostMove} {deed : HostDeed}

theorem Moves.same_pubkey (h : s.Moves move deed s') :
    s'.gate.superAdminPubkey = s.gate.superAdminPubkey := by
  cases h <;> rfl

theorem Moves.accepted {cmd : NodeCommand} {nowMicros : Int}
    (h : s.Moves move (.dispatched cmd nowMicros) s') :
    s.gate.evaluate cmd nowMicros = .accept ∧ ∃ b, s.batch = some b ∧ cmd ∈ b.todo := by
  cases h with
  | dispatched saved hb hrunning htodo haccept => exact ⟨haccept, _, hb, by simp [htodo]⟩

def TodoAddressed (s : Host) : Prop :=
  ∀ b, s.batch = some b → ∀ cmd ∈ b.todo, s.gate.Verifies cmd →
    cmd.peerId = Uuid.toString s.peerId

theorem Moves.todoAddressed (h : s.Moves move deed s') (haddressed : s.Addressed move)
    (htodo : s.TodoAddressed) : s'.TodoAddressed := by
  cases h with
  | still move => exact htodo
  | delivered nowMicros commands hidle =>
    intro b hb
    obtain rfl := Option.some.inj hb
    exact haddressed
  | rejoined peerId hidle =>
    intro b hb
    have hb : s.batch = some b := hb
    rw [hidle] at hb
    cases hb
  | restarted peerId =>
    intro b hb
    cases hb
  | recorded saved hold hrunning =>
    intro b hb
    obtain rfl := Option.some.inj hb
    intro cmd hcmd hverifies
    exact htodo _ hold cmd hcmd hverifies
  | finished saved hold hrunning hdone =>
    intro b hb
    cases hb
  | dispatched saved hold hrunning hnext hverdict | skipped saved hold hrunning hnext hverdict =>
    intro b hb
    obtain rfl := Option.some.inj hb
    intro cmd hcmd
    refine htodo _ hold cmd ?_
    rw [hnext]
    exact List.mem_cons_of_mem _ hcmd

end Host

variable {tr : List (HostMove × HostDeed)}

theorem superAdminPubkey_of_reach {s : Host} (h : (host peerId superAdminPubkey file).Reach tr s) :
    s.gate.superAdminPubkey = superAdminPubkey := by
  refine h.invariant (I := fun _ s => s.gate.superAdminPubkey = superAdminPubkey) rfl ?_
  intro tr s move _ hs _ _
  exact (s.moves move).same_pubkey.trans hs

theorem todoAddressed_of_run {s : Host}
    (h : (host peerId superAdminPubkey file).Run (fun s move => s.Addressed move) tr s) :
    s.TodoAddressed := by
  refine h.invariant (I := fun _ s => s.TodoAddressed) ?_ ?_
  · intro b hb
    cases hb
  · intro tr s move _ hs _ haddressed
    exact (s.moves move).todoAddressed haddressed hs

/-- The verb a node dispatches is in a command that the super-admin signed, that is not past its
expiry and whose nonce is not recorded; and it is for this node if all commands it was sent are. -/
theorem dispatched_for_this_node {signed : NodeCommand → Prop}
    (hunforgeable : ∀ pubkey, superAdminPubkey = some pubkey → Unforgeable pubkey signed)
    {tr : List (HostMove × HostDeed)} {s : Host}
    (h : (host peerId superAdminPubkey file).Reach tr s) {move : HostMove} {cmd : NodeCommand}
    {nowMicros : Int} (hdispatched : (s.step move).2 = .dispatched cmd nowMicros) :
    (∃ pubkey, superAdminPubkey = some pubkey ∧ cmd.verify pubkey = .ok () ∧
      ∃ original, signed original ∧ original.bare = cmd.bare) ∧
    nowMicros ≤ cmd.expiry ∧
    cmd.nonce ∉ s.gate.nonces.nonces ∧ cmd.nonce ∉ s.gate.nonces.file ∧
    ((host peerId superAdminPubkey file).Run (fun s move => s.Addressed move) tr s →
      cmd.peerId = Uuid.toString s.peerId) := by
  have hmoves := s.moves move
  rw [hdispatched] at hmoves
  obtain ⟨haccept, b, hb, hcmd⟩ := hmoves.accepted
  obtain ⟨hverifies, hfresh, hnonce⟩ := CommandGate.evaluate_eq_accept haccept
  have hfile : cmd.nonce ∉ s.gate.nonces.file := by
    intro hmem
    exact hnonce (s.gate.nonces.file_subset hmem)
  refine ⟨?_, hfresh, hnonce, hfile, ?_⟩
  · have hverifies := hverifies
    rw [CommandGate.Verifies, superAdminPubkey_of_reach h] at hverifies
    split at hverifies
    · exact hverifies.elim
    · rename_i pubkey
      obtain ⟨sig, hsig⟩ := NodeCommand.verify_eq_ok hverifies
      obtain ⟨original, hsigned, hbytes⟩ := hunforgeable pubkey rfl _ sig hsig
      exact ⟨pubkey, rfl, hverifies, original, hsigned,
        NodeCommand.signingBytes_injective hbytes.symm⟩
  · intro hrun
    exact todoAddressed_of_run hrun b hb cmd hcmd hverifies

def HostDeed.lost : HostDeed → List String
  | .restarted forgotten => forgotten
  | _ => []

def dispatches (nonce : String) (tr : List (HostMove × HostDeed)) : Nat :=
  (dispatchLog tr).countP (fun cmd => cmd.nonce = nonce)

/-- The restarts that came when the nonce's verb had been dispatched and the sidecar did not hold
the nonce. -/
def losses (nonce : String) (tr : List (HostMove × HostDeed)) : Nat :=
  tr.countP (fun x => nonce ∈ x.2.lost)

omit [Crates] [CommandCrates] in
theorem dispatches_cons (nonce : String) (x : HostMove × HostDeed)
    (tr : List (HostMove × HostDeed)) :
    dispatches nonce (x :: tr) = dispatches nonce [x] + dispatches nonce tr := by
  have happend : dispatchLog ([x] ++ tr) = dispatchLog [x] ++ dispatchLog tr :=
    List.filterMap_append
  exact (congrArg (List.countP _) happend).trans List.countP_append

omit [Crates] [CommandCrates] in
theorem losses_cons (nonce : String) (x : HostMove × HostDeed) (tr : List (HostMove × HostDeed)) :
    losses nonce (x :: tr) = losses nonce [x] + losses nonce tr := by
  have happend : losses nonce ([x] ++ tr) = losses nonce [x] + losses nonce tr :=
    List.countP_append
  exact happend

namespace Host

variable {s s' : Host} {move : HostMove} {deed : HostDeed}

def knows (s : Host) (nonce : String) : Nat := if nonce ∈ s.known then 1 else 0

omit [Crates] [CommandCrates] in
theorem knows_le (h : s.known ⊆ s'.known) (nonce : String) : s.knows nonce ≤ s'.knows nonce := by
  unfold knows
  by_cases hn : nonce ∈ s.known
  · rw [if_pos hn, if_pos (h hn)]
  · rw [if_neg hn]
    exact Nat.zero_le _

omit [Crates] [CommandCrates] in
theorem known_of_running {b : Batch} (hb : s.batch = some b) :
    s.known = (b.running.map NodeCommand.nonce).toList ++ s.gate.nonces.nonces := by
  simp only [known, hb, Option.bind_some]

theorem Moves.known_of_quiet (h : s.Moves move .quiet s') : s.known ⊆ s'.known := by
  cases h with
  | still move => exact List.Subset.refl _
  | delivered nowMicros commands hidle =>
    simp only [known, hidle, Option.bind_none, Option.bind_some]
    exact List.Subset.refl _
  | rejoined peerId hidle => exact List.Subset.refl _
  | recorded saved hb hrunning =>
    rw [known_of_running hb, known_of_running rfl, hrunning]
    intro n hn
    simpa [CommandGate.markExecuted, NonceStore.record] using hn
  | skipped saved hb hrunning hnext hverdict =>
    rw [known_of_running hb, known_of_running rfl, hrunning]
    exact List.Subset.refl _

/-- One step: a dispatch makes an unknown nonce known, and a known one gets lost only by a
restart that counts as a loss. -/
theorem Moves.balance (h : s.Moves move deed s') (nonce : String) :
    dispatches nonce [(move, deed)] + s.knows nonce ≤
      losses nonce [(move, deed)] + s'.knows nonce := by
  cases deed with
  | quiet =>
    have hle := knows_le h.known_of_quiet nonce
    simpa [dispatches, dispatchLog, losses, HostDeed.command?, HostDeed.lost] using hle
  | finished commands acks =>
    cases h with
    | finished saved hb hrunning hdone =>
      have hsub : s.known ⊆ ({ s with batch := none } : Host).known := by
        rw [known_of_running hb, hrunning]
        exact List.Subset.refl _
      have hle := knows_le hsub nonce
      simpa [dispatches, dispatchLog, losses, HostDeed.command?, HostDeed.lost] using hle
  | dispatched cmd nowMicros =>
    cases h with
    | @dispatched saved b _ rest hb hrunning hnext hverdict =>
      have hknown : s.known = s.gate.nonces.nonces := by
        rw [known_of_running hb, hrunning]
        rfl
      by_cases hcmd : cmd.nonce = nonce
      · have hunknown : s.knows nonce = 0 := by
          refine if_neg ?_
          rw [hknown, ← hcmd]
          exact (CommandGate.evaluate_eq_accept hverdict).2.2
        rw [hunknown]
        simp [dispatches, dispatchLog, HostDeed.command?, hcmd, knows, known]
      · have hzero : dispatches nonce [(.advance saved, .dispatched cmd b.nowMicros)] = 0 := by
          simp [dispatches, dispatchLog, HostDeed.command?, hcmd]
        have hsub : s.known ⊆ cmd.nonce :: s.gate.nonces.nonces := by
          rw [hknown]
          exact List.subset_cons_self _ _
        rw [hzero]
        exact Nat.add_le_add (Nat.zero_le _) (knows_le hsub nonce)
  | restarted forgotten =>
    cases h with
    | restarted peerId =>
      by_cases hn : nonce ∈ s.known
      · by_cases hfile : nonce ∈ s.gate.nonces.file
        · have hkept : nonce ∈ (boot peerId s.gate.superAdminPubkey s.gate.nonces.file).known := hfile
          simp [dispatches, dispatchLog, HostDeed.command?, knows, hn, hkept]
        · simp [dispatches, dispatchLog, losses, HostDeed.command?, HostDeed.lost, knows, forgotten,
            hn, hfile]
      · simp [dispatches, dispatchLog, HostDeed.command?, knows, hn]

def Accounted (s : Host) : Prop :=
  ∀ b, s.batch = some b →
    b.acks ++ (b.running.toList ++ b.todo).map (fun cmd => Uuid.toString cmd.commandId) =
      b.commands.map (fun cmd => Uuid.toString cmd.commandId)

theorem Moves.accounted (h : s.Moves move deed s') (hacks : s.Accounted) : s'.Accounted := by
  cases h with
  | still move => exact hacks
  | delivered nowMicros commands hidle =>
    intro b hb
    obtain rfl := Option.some.inj hb
    rfl
  | rejoined peerId hidle => exact hacks
  | restarted peerId =>
    intro b hb
    cases hb
  | finished saved hold hrunning hdone =>
    intro b hb
    cases hb
  | recorded saved hold hrunning =>
    intro b hb
    obtain rfl := Option.some.inj hb
    have hb := hacks _ hold
    simpa [hrunning] using hb
  | dispatched saved hold hrunning hnext hverdict | skipped saved hold hrunning hnext hverdict =>
    intro b hb
    obtain rfl := Option.some.inj hb
    have hb := hacks _ hold
    simpa [hrunning, hnext] using hb

theorem Moves.finished_acks {commands : List NodeCommand} {acks : List String}
    (h : s.Moves move (.finished commands acks) s') (hacks : s.Accounted) :
    acks = commands.map (fun cmd => Uuid.toString cmd.commandId) := by
  cases h with
  | finished saved hb hrunning hdone =>
    have hb := hacks _ hb
    simpa [hrunning, hdone] using hb

end Host

theorem dispatches_le_of_reach {s : Host} (h : (host peerId superAdminPubkey file).Reach tr s)
    (nonce : String) : dispatches nonce tr ≤ losses nonce tr + s.knows nonce := by
  refine h.invariant
    (I := fun tr s => dispatches nonce tr ≤ losses nonce tr + s.knows nonce) (Nat.zero_le _) ?_
  intro tr s move _ hle _ _
  have hstep := (s.moves move).balance nonce
  rw [dispatches_cons, losses_cons]
  show dispatches nonce [(move, (s.step move).2)] + dispatches nonce tr ≤
    losses nonce [(move, (s.step move).2)] + losses nonce tr + (s.step move).1.knows nonce
  omega

theorem accounted_of_reach {s : Host} (h : (host peerId superAdminPubkey file).Reach tr s) :
    s.Accounted := by
  refine h.invariant (I := fun _ s => s.Accounted) ?_ ?_
  · intro b hb
    cases hb
  · intro tr s move _ hacks _ _
    exact (s.moves move).accounted hacks

theorem finished_acks_of_reach {s : Host} (h : (host peerId superAdminPubkey file).Reach tr s)
    {move : HostMove} {commands : List NodeCommand} {acks : List String}
    (hmem : (move, .finished commands acks) ∈ tr) :
    acks = commands.map (fun cmd => Uuid.toString cmd.commandId) := by
  induction h with
  | start => cases hmem
  | @step tr s i hr _ _ ih =>
    rcases List.mem_cons.mp hmem with hnow | hold
    · obtain ⟨rfl, hdeed⟩ := Prod.mk.inj hnow
      have hmoves := s.moves move
      have hdeed : (s.step move).2 = .finished commands acks := hdeed.symm
      rw [hdeed] at hmoves
      exact hmoves.finished_acks (accounted_of_reach hr)
    · exact ih hold

/-- A nonce's verb is dispatched once, and once more for each restart that finds it dispatched and
the nonce not in the sidecar; a batch that ends acknowledges each of its commands once, in order. -/
theorem dispatched_once_and_per_loss {tr : List (HostMove × HostDeed)} {s : Host}
    (h : (host peerId superAdminPubkey file).Reach tr s) :
    (∀ nonce, dispatches nonce tr ≤ 1 + losses nonce tr) ∧
    ∀ move commands acks, (move, .finished commands acks) ∈ tr →
      acks = commands.map (fun cmd => Uuid.toString cmd.commandId) := by
  refine ⟨?_, fun move commands acks hmem => finished_acks_of_reach h hmem⟩
  intro nonce
  have hle := dispatches_le_of_reach h nonce
  have hknows : s.knows nonce ≤ 1 := by
    unfold Host.knows
    split <;> omega
  omega

instance (s : Host) : (move : HostMove) → Decidable (s.Addressed move)
  | .deliver _ commands => inferInstanceAs (Decidable (∀ cmd ∈ commands, s.gate.Verifies cmd →
      cmd.peerId = Uuid.toString s.peerId))
  | .advance .. | .restart .. | .rejoin .. => .isTrue trivial

instance (tr : List (HostMove × HostDeed)) (move : HostMove) :
    Decidable ((host peerId superAdminPubkey file).admits tr move) := .isTrue trivial

end

attribute [local instance] referenceCrates

def adminKey : List UInt8 := List.replicate 32 1

def rebootCommand : NodeCommand :=
  ⟨9, .rebootHost, Uuid.toString 1, "nonce", 0, 60000000, String.ofList (List.replicate 128 '0')⟩

@[reducible] def rebootCrates : CommandCrates := referenceCommandCrates [rebootCommand.bare]

attribute [local instance] rebootCrates

theorem unforgeable_reboot (pubkey : List UInt8) : Unforgeable pubkey (· = rebootCommand) := by
  intro (msg : NodeCommand) sig hverifies
  have hmsg : decide (msg ∈ [rebootCommand.bare]) = true := hverifies
  have hmem : msg ∈ [rebootCommand.bare] := of_decide_eq_true hmsg
  exact ⟨rebootCommand, rfl, List.mem_singleton.mp hmem⟩

def hostRun (id : Uuid) (moves : List HostMove) : List (HostMove × HostDeed) × Host :=
  (host id (some adminKey) []).exec [] (Host.boot id (some adminKey) []) moves

theorem host_batch_reboot :
    ∃ moves, (∀ move ∈ moves, ∃ flag, move = .advance flag) ∧
      let p := processCommands [rebootCommand] (Host.boot 1 (some adminKey) []).gate 5 (fun _ => true)
      let run := hostRun 1 (.deliver 5 [rebootCommand] :: moves)
      run.2 = { Host.boot 1 (some adminKey) [] with gate := p.gate } ∧
        dispatchLog run.1 = p.dispatched.reverse ++ dispatchLog [] ∧
        ∃ move, run.1.head? = some (move, .finished [rebootCommand] p.acks) :=
  host_batch (fun _ => true) rfl (by simp) []

/-- The command for node 1 is delivered to node 2, which reboots. -/
theorem dispatched_on_other_node :
    (host 2 (some adminKey) []).Reach (hostRun 2 [.deliver 5 [rebootCommand]]).1
      (hostRun 2 [.deliver 5 [rebootCommand]]).2 ∧
    ((hostRun 2 [.deliver 5 [rebootCommand]]).2.step (.advance true)).2 =
      .dispatched rebootCommand 5 ∧
    rebootCommand.peerId ≠ Uuid.toString (hostRun 2 [.deliver 5 [rebootCommand]]).2.peerId ∧
    Unforgeable adminKey (· = rebootCommand) := by
  have hrun : (host 2 (some adminKey) []).Admissible (fun _ _ => True) []
      (Host.boot 2 (some adminKey) []) [.deliver 5 [rebootCommand]] := by
    decide +kernel
  exact ⟨Machine.Run.start.exec hrun, by decide +kernel, by decide +kernel, unforgeable_reboot _⟩

theorem dispatched_for_this_node_reboot :
    (∃ pubkey, some adminKey = some pubkey ∧ rebootCommand.verify pubkey = .ok () ∧
      ∃ original, original = rebootCommand ∧ original.bare = rebootCommand.bare) ∧
    5 ≤ rebootCommand.expiry ∧
    rebootCommand.nonce ∉ (hostRun 1 [.deliver 5 [rebootCommand]]).2.gate.nonces.nonces ∧
    rebootCommand.nonce ∉ (hostRun 1 [.deliver 5 [rebootCommand]]).2.gate.nonces.file ∧
    rebootCommand.peerId = Uuid.toString (hostRun 1 [.deliver 5 [rebootCommand]]).2.peerId := by
  have hfacts : (host 1 (some adminKey) []).Admissible (fun s move => s.Addressed move) []
        (Host.boot 1 (some adminKey) []) [.deliver 5 [rebootCommand]] ∧
      ((hostRun 1 [.deliver 5 [rebootCommand]]).2.step (.advance true)).2 =
        .dispatched rebootCommand 5 := by
    decide +kernel
  have hrun := Machine.Run.start.exec hfacts.1
  obtain ⟨hsigned, hfresh, hnonce, hfile, hown⟩ :=
    dispatched_for_this_node (fun pubkey _ => unforgeable_reboot pubkey) hrun.reach hfacts.2
  exact ⟨hsigned, hfresh, hnonce, hfile, hown hrun⟩

def rerunMoves : List HostMove :=
  [.deliver 5 [rebootCommand], .advance true, .restart 1,
    .deliver 6 [rebootCommand, rebootCommand], .advance true, .advance true, .advance true,
    .advance true]

theorem reach_rerun : (host 1 (some adminKey) []).Reach (hostRun 1 rerunMoves).1
    (hostRun 1 rerunMoves).2 := by
  have hrun : (host 1 (some adminKey) []).Admissible (fun _ _ => True) []
      (Host.boot 1 (some adminKey) []) rerunMoves := by
    decide +kernel
  exact Machine.Run.start.exec hrun

theorem dispatched_again_after_restart :
    (host 1 (some adminKey) []).Reach (hostRun 1 rerunMoves).1 (hostRun 1 rerunMoves).2 ∧
      dispatches "nonce" (hostRun 1 rerunMoves).1 = 2 :=
  ⟨reach_rerun, by decide +kernel⟩

theorem dispatched_once_and_per_loss_rerun :
    dispatches "nonce" (hostRun 1 rerunMoves).1 ≤ 1 + losses "nonce" (hostRun 1 rerunMoves).1 ∧
    losses "nonce" (hostRun 1 rerunMoves).1 = 1 ∧
    ∃ move acks, (move, .finished [rebootCommand, rebootCommand] acks) ∈ (hostRun 1 rerunMoves).1 ∧
      acks = [Uuid.toString 9, Uuid.toString 9] := by
  have hfinished : (HostMove.advance true, HostDeed.finished [rebootCommand, rebootCommand]
        [Uuid.toString 9, Uuid.toString 9]) ∈ (hostRun 1 rerunMoves).1 ∧
      losses "nonce" (hostRun 1 rerunMoves).1 = 1 := by
    decide +kernel
  obtain ⟨hcount, hacks⟩ := dispatched_once_and_per_loss reach_rerun
  exact ⟨hcount "nonce", hfinished.2, _, _, hfinished.1, hacks _ _ _ hfinished.1⟩

end ServiceMesh
