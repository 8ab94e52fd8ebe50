import ServiceMesh.Wire

/-! The node's side of the heartbeat: commands signed by the super-admin, the gate that decides
on one, the batch loop that runs those a response carried, and the acknowledgements that ride
on the next request. -/

namespace ServiceMesh

inductive CommandVerb
  | restartJoiner
  | resetWg
  | rebootHost
deriving DecidableEq, Repr

structure NodeCommand where
  commandId : Uuid
  verb : CommandVerb
  peerId : String
  nonce : String
  issuedAt : Int
  expiry : Int
  signature : String
deriving DecidableEq, Repr

inductive CommandVerifyError
  | badSignature
  | expired
  | malformed
deriving DecidableEq, Repr

/-- What the node uses of `serde_json`, `hex` and `ed25519_dalek`. The only fact assumed is that
two different commands are never written as the same bytes. -/
class CommandCrates where
  Json : Type
  toVec : NodeCommand → Json
  toVec_injective : Function.Injective toVec
  hexDecode : String → Option (List UInt8)
  isVerifyingKey : List UInt8 → Bool
  verifies : List UInt8 → Json → List UInt8 → Bool

namespace NodeCommand

def bare (cmd : NodeCommand) : NodeCommand := { cmd with signature := "" }

def checkFresh (cmd : NodeCommand) (nowMicros : Int) : Except CommandVerifyError Unit :=
  if nowMicros > cmd.expiry then .error .expired else .ok ()

variable [CommandCrates]

def signingBytes (cmd : NodeCommand) : CommandCrates.Json := CommandCrates.toVec cmd.bare

def verify (cmd : NodeCommand) (pubkey : List UInt8) : Except CommandVerifyError Unit :=
  if pubkey.length ≠ 32 then .error .malformed
  else if !CommandCrates.isVerifyingKey pubkey then .error .malformed
  else
    match CommandCrates.hexDecode cmd.signature with
    | none => .error .malformed
    | some sig =>
      if sig.length ≠ 64 then .error .malformed
      else if CommandCrates.verifies pubkey cmd.signingBytes sig then .ok ()
      else .error .badSignature

theorem signingBytes_injective {a b : NodeCommand} (h : a.signingBytes = b.signingBytes) :
    a.bare = b.bare :=
  CommandCrates.toVec_injective h

theorem verify_eq_ok {cmd : NodeCommand} {pubkey : List UInt8} (h : cmd.verify pubkey = .ok ()) :
    ∃ sig, CommandCrates.verifies pubkey cmd.signingBytes sig = true := by
  unfold verify at h
  split at h
  · cases h
  · split at h
    · cases h
    · split at h
      · cases h
      · rename_i sig _
        split at h
        · cases h
        · split at h
          · rename_i hverifies
            exact ⟨sig, hverifies⟩
          · cases h

end NodeCommand

structure NonceStore where
  nonces : List String
  /-- What `load` reads from the sidecar now: nothing when it is absent or does not parse. -/
  file : List String
  file_subset : file ⊆ nonces
deriving DecidableEq, Repr

namespace NonceStore

def load (file : List String) : NonceStore := ⟨file, file, List.Subset.refl file⟩

def record (store : NonceStore) (nonce : String) (saved : Bool) : NonceStore :=
  { nonces := store.nonces.insert nonce
    file := if saved then store.nonces.insert nonce else store.file
    file_subset := by
      intro n hn
      split at hn
      · exact hn
      · exact List.mem_insert_of_mem (store.file_subset hn) }

end NonceStore

inductive CommandVerdict
  | accept
  | replay
  | reject (e : CommandVerifyError)
deriving DecidableEq, Repr

structure CommandGate where
  superAdminPubkey : Option (List UInt8)
  nonces : NonceStore
deriving DecidableEq, Repr

namespace CommandGate

def new (superAdminPubkey : Option (List UInt8)) (file : List String) : CommandGate :=
  ⟨superAdminPubkey, NonceStore.load file⟩

def evaluate [CommandCrates] (gate : CommandGate) (cmd : NodeCommand) (nowMicros : Int) :
    CommandVerdict :=
  match gate.superAdminPubkey with
  | none => .reject .badSignature
  | some pk =>
    match cmd.verify pk with
    | .error e => .reject e
    | .ok _ =>
      match cmd.checkFresh nowMicros with
      | .error e => .reject e
      | .ok _ => if cmd.nonce ∈ gate.nonces.nonces then .replay else .accept

def Verifies [CommandCrates] (gate : CommandGate) (cmd : NodeCommand) : Prop :=
  match gate.superAdminPubkey with
  | none => False
  | some pk => cmd.verify pk = .ok ()

instance [CommandCrates] (gate : CommandGate) (cmd : NodeCommand) :
    Decidable (gate.Verifies cmd) :=
  match h : gate.superAdminPubkey with
  | none => .isFalse (by simp [Verifies, h])
  | some pk => decidable_of_iff (cmd.verify pk = .ok ()) (by simp [Verifies, h])

def markExecuted (gate : CommandGate) (nonce : String) (saved : Bool) : CommandGate :=
  { gate with nonces := gate.nonces.record nonce saved }

theorem evaluate_eq_accept [CommandCrates] {gate : CommandGate} {cmd : NodeCommand}
    {nowMicros : Int} (h : gate.evaluate cmd nowMicros = .accept) :
    gate.Verifies cmd ∧ nowMicros ≤ cmd.expiry ∧ cmd.nonce ∉ gate.nonces.nonces := by
  unfold evaluate at h
  split at h
  · cases h
  · rename_i pk hpk
    split at h
    · cases h
    · rename_i hverify
      split at h
      · cases h
      · rename_i hfresh
        split at h
        · cases h
        · rename_i hnonce
          have hverifies : gate.Verifies cmd := by
            simp only [Verifies, hpk, hverify]
          refine ⟨hverifies, ?_, hnonce⟩
          by_contra hlate
          have hlate : nowMicros > cmd.expiry := by omega
          rw [NodeCommand.checkFresh, if_pos hlate] at hfresh
          cases hfresh

end CommandGate

structure Processed where
  gate : CommandGate
  dispatched : List NodeCommand
  acks : List String
deriving DecidableEq, Repr

section Batch

variable [Crates] [CommandCrates]

/-- The verb runs between the verdict and the record of its nonce; `saved` tells which records
reach the sidecar. -/
def processCommand (nowMicros : Int) (saved : String → Bool) (p : Processed) (cmd : NodeCommand) :
    Processed :=
  let id := Uuid.toString cmd.commandId
  match p.gate.evaluate cmd nowMicros with
  | .accept =>
    ⟨p.gate.markExecuted cmd.nonce (saved cmd.nonce), p.dispatched ++ [cmd], p.acks ++ [id]⟩
  | .replay => { p with acks := p.acks ++ [id] }
  | .reject _ => { p with acks := p.acks ++ [id] }

def processCommands (commands : List NodeCommand) (gate : CommandGate) (nowMicros : Int)
    (saved : String → Bool) : Processed :=
  commands.foldl (processCommand nowMicros saved) ⟨gate, [], []⟩

end Batch

def CommandVerb.parse : String → Option CommandVerb
  | "restart_joiner" => some .restartJoiner
  | "reset_wg" => some .resetWg
  | "reboot_host" => some .rebootHost
  | _ => none

def NodeCommandDto.decode [Crates] (dto : NodeCommandDto) : Option NodeCommand :=
  match Uuid.parseStr dto.commandId, CommandVerb.parse dto.verb with
  | .ok commandId, some verb =>
    some ⟨commandId, verb, dto.peerId, dto.nonce, dto.issuedAt, dto.expiry, dto.signature⟩
  | _, _ => none

def decodeCommands [Crates] (dtos : List NodeCommandDto) : Option (List NodeCommand) :=
  dtos.mapM NodeCommandDto.decode

structure TickReport where
  wgListenPort : UInt16
  hostedAppUlas : List String
  softwareVersion : Option String
  meshVersion : Option String
  relayOnly : Bool
  peerPaths : List PeerPathDto
  dataplaneHealthy : Bool
deriving DecidableEq, Repr

inductive HeartbeatFailure
  | httpStatus (status : Nat)
  | other
deriving DecidableEq, Repr

structure Node where
  peerId : Uuid
  handlingRosterLoss : Bool
  gate : CommandGate
  pendingAcks : List String
deriving DecidableEq, Repr

namespace Node

variable [Crates]

def request (n : Node) (report : TickReport) : HeartbeatRequest where
  peerId := Uuid.toString n.peerId
  wgListenPort := some report.wgListenPort
  hostedAppUlas := report.hostedAppUlas
  softwareVersion := report.softwareVersion
  meshVersion := report.meshVersion
  relayOnly := report.relayOnly
  peerPaths := report.peerPaths
  dataplaneHealthy := report.dataplaneHealthy
  executedCommandIds := n.pendingAcks

def heard [CommandCrates] (n : Node) (nowMicros : Int) (saved : String → Bool) :
    Except HeartbeatFailure (List NodeCommand) → Node × Bool
  | .ok commands =>
    if commands.isEmpty then ({ n with handlingRosterLoss := false, pendingAcks := [] }, false)
    else
      let p := processCommands commands n.gate nowMicros saved
      ({ n with handlingRosterLoss := false, gate := p.gate, pendingAcks := p.acks }, false)
  | .error (.httpStatus 404) =>
    ({ n with handlingRosterLoss := true, pendingAcks := [] }, !n.handlingRosterLoss)
  | .error _ => (n, false)

end Node

namespace Reference

def hexDecode : List Char → Option (List UInt8)
  | [] => some []
  | [_] => none
  | high :: low :: rest =>
    match StdNet.toDigit 16 high, StdNet.toDigit 16 low, hexDecode rest with
    | some high, some low, some bytes => some (UInt8.ofNat (16 * high + low) :: bytes)
    | _, _, _ => none

end Reference

@[reducible] def referenceCommandCrates (signed : List NodeCommand) : CommandCrates where
  Json := NodeCommand
  toVec := id
  toVec_injective := Function.injective_id
  hexDecode s := Reference.hexDecode s.toList
  isVerifyingKey key := key.length = 32
  verifies _ msg _ := decide (msg ∈ signed)

end ServiceMesh
