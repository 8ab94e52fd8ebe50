import ServiceMesh.Machine
import ServiceMesh.Node

/-! What a node does once the coordinator no longer knows its peer id: the register with its
fallback to a free address, and the guard that the heartbeat ticks share. -/

namespace ServiceMesh

structure ReregisterInputs where
  ourPublic : List UInt8
  advertiseEndpoint : Option String
  displayName : String
  tags : List String
  joinToken : Option String
  requestedUla : Option String
  strictRequestedUla : Bool
  kind : Option String
  parent : Option String
  appUuid : Option String
  relayOnly : Bool
deriving DecidableEq, Repr

structure RegisterArgs where
  softwareVersion : Option String
  meshVersion : Option String
  requestedUla : Option String
deriving DecidableEq, Repr

structure Client.RegisterResponse where
  peerId : Uuid
  ula : String
deriving DecidableEq, Repr

def ReregisterInputs.fallsBack {α : Type} (inputs : ReregisterInputs) :
    Except HeartbeatFailure α → Bool
  | .error (.httpStatus 409) => !inputs.strictRequestedUla
  | _ => false

def registerWith409Fallback {σ α : Type} (inputs : ReregisterInputs)
    (attempt : σ → RegisterArgs → σ × Except HeartbeatFailure α) (s : σ) (args : RegisterArgs) :
    σ × Except HeartbeatFailure α :=
  let (s, answer) := attempt s args
  -- no version, and an address of the coordinator's choice
  if inputs.fallsBack answer then attempt s ⟨none, none, none⟩ else (s, answer)

namespace Node

def adopt (n : Node) : Except HeartbeatFailure Client.RegisterResponse → Node
  | .ok resp => { n with peerId := resp.peerId }
  | .error _ => n

def reregisterAfterRosterLoss {σ : Type} (n : Node) (inputs : ReregisterInputs)
    (attempt : σ → RegisterArgs → σ × Except HeartbeatFailure Client.RegisterResponse) (s : σ) :
    Node × σ × Except HeartbeatFailure Client.RegisterResponse :=
  let (s, answer) := registerWith409Fallback inputs attempt s ⟨none, none, inputs.requestedUla⟩
  (n.adopt answer, s, answer)

def joined (peerId : Uuid) (gate : CommandGate) : Node := ⟨peerId, false, gate, []⟩

end Node

structure Tick where
  nowMicros : Int
  saved : String → Bool
  heartbeat : Except HeartbeatFailure (List NodeCommand)
  registers : List (Except HeartbeatFailure Client.RegisterResponse)

structure Ticked where
  asked : Uuid
  register : Option (Except HeartbeatFailure Client.RegisterResponse)
deriving DecidableEq, Repr

def nextAnswer : List (Except HeartbeatFailure Client.RegisterResponse) → RegisterArgs →
    List (Except HeartbeatFailure Client.RegisterResponse) ×
      Except HeartbeatFailure Client.RegisterResponse
  | [], _ => ([], .error .other)
  | answer :: rest, _ => (rest, answer)

namespace Tick

def Lost (t : Tick) : Prop := t.heartbeat = .error (.httpStatus 404)

instance (t : Tick) : Decidable t.Lost :=
  inferInstanceAs (Decidable (t.heartbeat = .error (.httpStatus 404)))

def Heard (t : Tick) : Prop := t.heartbeat.isOk

instance (t : Tick) : Decidable t.Heard := inferInstanceAs (Decidable (t.heartbeat.isOk = true))

theorem Lost.not_heard {t : Tick} (h : t.Lost) : ¬ t.Heard := by
  have h : t.heartbeat = .error (.httpStatus 404) := h
  simp [Heard, h, Except.isOk, Except.toBool]

end Tick

section

variable [Crates] [CommandCrates]

def Node.tickOnce (inputs : ReregisterInputs) (n : Node) (t : Tick) : Node × Ticked :=
  match n.heard t.nowMicros t.saved t.heartbeat with
  | (heard, false) => (heard, ⟨n.peerId, none⟩)
  | (heard, true) =>
    let (node, _, answer) := heard.reregisterAfterRosterLoss inputs nextAnswer t.registers
    (node, ⟨n.peerId, some answer⟩)

def rejoin (inputs : ReregisterInputs) (node : Node) : Machine Node Tick Ticked where
  init := node
  step := Node.tickOnce inputs
  admits _ _ := True

namespace Node

theorem heard_guard (n : Node) (nowMicros : Int) (saved : String → Bool)
    (answer : Except HeartbeatFailure (List NodeCommand)) :
    ((n.heard nowMicros saved answer).1.handlingRosterLoss ↔
        answer = .error (.httpStatus 404) ∨ ¬ answer.isOk ∧ n.handlingRosterLoss) ∧
      ((n.heard nowMicros saved answer).2 ↔
        answer = .error (.httpStatus 404) ∧ ¬ n.handlingRosterLoss) := by
  fun_cases heard n nowMicros saved answer <;> simp_all [Except.isOk, Except.toBool]

omit [Crates] [CommandCrates] in
theorem adopt_guard (n : Node) (answer : Except HeartbeatFailure Client.RegisterResponse) :
    (n.adopt answer).handlingRosterLoss = n.handlingRosterLoss := by
  cases answer <;> rfl

theorem tickOnce_guard (inputs : ReregisterInputs) (n : Node) (t : Tick) :
    ((n.tickOnce inputs t).1.handlingRosterLoss ↔ t.Lost ∨ ¬ t.Heard ∧ n.handlingRosterLoss) ∧
      ((n.tickOnce inputs t).2.register.isSome ↔ t.Lost ∧ ¬ n.handlingRosterLoss) := by
  have h := n.heard_guard t.nowMicros t.saved t.heartbeat
  unfold tickOnce
  split
  · rename_i heard heq
    rw [heq] at h
    exact ⟨h.1, by simpa [Tick.Lost] using h.2⟩
  · rename_i heard heq
    rw [heq] at h
    refine ⟨?_, by simpa [Tick.Lost] using h.2⟩
    simp only [reregisterAfterRosterLoss, adopt_guard]
    exact h.1

end Node

def LossOpen : List (Tick × Ticked) → Prop
  | [] => False
  | x :: tr => x.1.Lost ∨ ¬ x.1.Heard ∧ LossOpen tr

instance decidableLossOpen : ∀ tr : List (Tick × Ticked), Decidable (LossOpen tr)
  | [] => .isFalse id
  | x :: tr =>
    have := decidableLossOpen tr
    inferInstanceAs (Decidable (x.1.Lost ∨ ¬ x.1.Heard ∧ LossOpen tr))

def lastLoss (tr : List (Tick × Ticked)) : Option Ticked :=
  (tr.find? (fun x => x.1.Lost)).map Prod.snd

def MustRetry (tr : List (Tick × Ticked)) (n : Node) : Prop :=
  ∃ last ∈ lastLoss tr, (∃ e, last.register = some (.error e)) ∨ last.asked ≠ n.peerId

/-- From here on, and as long as no heartbeat is answered with success, no 404 makes the node
register. -/
def Node.Wedged (inputs : ReregisterInputs) (n : Node) : Prop :=
  ∀ ticks : List Tick, (∀ t ∈ ticks, ¬ t.Heard) →
    ∀ x ∈ ((rejoin inputs n).exec [] n ticks).1, x.2.register = none

structure NeverGivesUp (inputs : ReregisterInputs) (tr : List (Tick × Ticked)) (n : Node) :
    Prop where
  retries : ∀ t : Tick, t.Lost → MustRetry tr n → (n.tickOnce inputs t).2.register.isSome
  unwedged : ¬ n.Wedged inputs

theorem guard_iff_lossOpen {inputs : ReregisterInputs} {peerId : Uuid} {gate : CommandGate}
    {tr : List (Tick × Ticked)} {n : Node}
    (h : (rejoin inputs (Node.joined peerId gate)).Reach tr n) :
    n.handlingRosterLoss ↔ LossOpen tr := by
  refine h.invariant (I := fun tr n => n.handlingRosterLoss ↔ LossOpen tr) ?_ ?_
  · exact ⟨Bool.noConfusion, False.elim⟩
  · intro tr n t _ ih _ _
    rw [LossOpen, ← ih]
    exact (n.tickOnce_guard inputs t).1

theorem exec_of_guard {inputs : ReregisterInputs} {node n : Node} (hguard : n.handlingRosterLoss)
    {ticks : List Tick} (hticks : ∀ t ∈ ticks, ¬ t.Heard) {tr : List (Tick × Ticked)}
    (htr : ∀ x ∈ tr, x.2.register = none) :
    ∀ x ∈ ((rejoin inputs node).exec tr n ticks).1, x.2.register = none := by
  induction ticks generalizing n tr with
  | nil => exact htr
  | cons t ticks ih =>
    have hstep := n.tickOnce_guard inputs t
    have hnone : (n.tickOnce inputs t).2.register = none := by
      rw [← Option.not_isSome_iff_eq_none, hstep.2]
      rintro ⟨_, hfree⟩
      exact hfree hguard
    refine ih (hstep.1.mpr (.inr ⟨hticks t List.mem_cons_self, hguard⟩))
      (fun u hu => hticks u (List.mem_cons_of_mem t hu)) ?_
    intro x hx
    rcases List.mem_cons.mp hx with rfl | hx
    · exact hnone
    · exact htr x hx

theorem Node.wedged_iff (inputs : ReregisterInputs) (n : Node) :
    n.Wedged inputs ↔ n.handlingRosterLoss := by
  constructor
  · intro h
    by_contra hfree
    -- a single 404 is enough
    let t : Tick := ⟨0, fun _ => true, .error (.httpStatus 404), []⟩
    have hlost : t.Lost := rfl
    have hsome := (n.tickOnce_guard inputs t).2.mpr ⟨hlost, hfree⟩
    have hnone := h [t] (by simpa using hlost.not_heard) _ List.mem_cons_self
    rw [Option.isSome_iff_ne_none] at hsome
    exact hsome hnone
  · intro hguard ticks hticks
    exact exec_of_guard hguard hticks (by simp)

/-- After every run of ticks: a further 404 is handled, and the node is not wedged, exactly when
no 404 has been met since the last successful heartbeat. -/
theorem never_gives_up_iff {inputs : ReregisterInputs} {peerId : Uuid} {gate : CommandGate}
    {tr : List (Tick × Ticked)} {n : Node}
    (h : (rejoin inputs (Node.joined peerId gate)).Reach tr n) :
    NeverGivesUp inputs tr n ↔ ¬ LossOpen tr := by
  have hguard := guard_iff_lossOpen h
  constructor
  · intro hnever hopen
    exact hnever.unwedged ((n.wedged_iff inputs).mpr (hguard.mpr hopen))
  · intro hclosed
    have hfree : ¬ n.handlingRosterLoss := fun hset => hclosed (hguard.mp hset)
    refine ⟨fun t hlost _ => ?_, fun hwedged => hfree ((n.wedged_iff inputs).mp hwedged)⟩
    exact (n.tickOnce_guard inputs t).2.mpr ⟨hlost, hfree⟩

end

section

attribute [local instance] referenceCrates

@[reducible] local instance noCommandCrates : CommandCrates := referenceCommandCrates []

def plainInputs : ReregisterInputs :=
  ⟨List.replicate 32 1, none, "alice", [], none, none, false, none, none, none, false⟩

def plainNode : Node := Node.joined 1 (CommandGate.new none [])

def lostTick (registers : List (Except HeartbeatFailure Client.RegisterResponse)) : Tick :=
  ⟨0, fun _ => true, .error (.httpStatus 404), registers⟩

def heardTick : Tick := ⟨0, fun _ => true, .ok [], []⟩

def refusedTicks : List Tick := [lostTick [.error (.httpStatus 503)]]

def readmittedTicks : List Tick := [lostTick [.ok ⟨2, "fd5a:1f00::1"⟩]]

def rejoinRun (ticks : List Tick) : List (Tick × Ticked) × Node :=
  (rejoin plainInputs plainNode).exec [] plainNode ticks

theorem reach_rejoinRun (ticks : List Tick) :
    (rejoin plainInputs plainNode).Reach (rejoinRun ticks).1 (rejoinRun ticks).2 :=
  Machine.Run.exec .start (.of_free (fun _ _ => trivial) _ _ _)

theorem never_gives_up_iff_readmitted :
    NeverGivesUp plainInputs (rejoinRun (readmittedTicks ++ [heardTick])).1
      (rejoinRun (readmittedTicks ++ [heardTick])).2 :=
  (never_gives_up_iff (reach_rejoinRun _)).mpr (by decide)

/-- A register that failed, or an id that was forgotten again, is never made up for: the next 404
is ignored, and so is every one after it. -/
theorem rejoin_wedges :
    (MustRetry (rejoinRun refusedTicks).1 (rejoinRun refusedTicks).2 ∧
        ((rejoinRun refusedTicks).2.tickOnce plainInputs (lostTick [])).2.register = none ∧
        (rejoinRun refusedTicks).2.Wedged plainInputs) ∧
      MustRetry (rejoinRun readmittedTicks).1 (rejoinRun readmittedTicks).2 ∧
        ((rejoinRun readmittedTicks).2.tickOnce plainInputs (lostTick [])).2.register = none ∧
        (rejoinRun readmittedTicks).2.Wedged plainInputs := by
  refine ⟨⟨⟨⟨1, some (.error (.httpStatus 503))⟩, rfl, .inl ⟨_, rfl⟩⟩, by decide, ?_⟩,
    ⟨⟨1, some (.ok ⟨2, "fd5a:1f00::1"⟩)⟩, rfl, .inr (by decide)⟩, by decide, ?_⟩
  · exact (Node.wedged_iff _ _).mpr (by decide)
  · exact (Node.wedged_iff _ _).mpr (by decide)

end
end ServiceMesh
