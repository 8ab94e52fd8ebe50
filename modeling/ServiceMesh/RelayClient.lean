import Mathlib.Data.List.DropRight
import ServiceMesh.RelayMoves

/-! The relay task of a joiner, one for each lane. It dials the relays of its list in turn, writes
the frames queued for its lane to the socket, and gives up a socket it hears nothing from. -/

namespace ServiceMesh

structure RelayOutbound where
  dstPubkey : List UInt8
  payload : List UInt8
deriving DecidableEq, Repr

namespace RelayOutbound

def lane (out : RelayOutbound) : Lane := if isHandshake out.payload then .hi else .lo

def frame (out : RelayOutbound) : List UInt8 := encodeRelayFrame out.dstPubkey out.payload

end RelayOutbound

def Lane.asStr : Lane → List Char
  | .hi => "hi".toList
  | .lo => "lo".toList

def splitOnce (sep : List Char) : List Char → Option (List Char × List Char)
  | [] => none
  | c :: rest =>
    if sep.isPrefixOf (c :: rest) then some ([], (c :: rest).drop sep.length)
    else (splitOnce sep rest).map (fun p => (c :: p.1, p.2))

def deriveRelayUrl (coordinatorUrl : List Char) : Option (List Char) → List Char
  | some url => url
  | none =>
    let trimmed := coordinatorUrl.rdropWhile (· = '/')
    let (scheme, rest) :=
      match splitOnce "://".toList trimmed with
      | none => ("ws".toList, trimmed)
      | some (s, r) => (if s = "https".toList ∨ s = "wss".toList then "wss".toList else "ws".toList, r)
    scheme ++ "://".toList ++ rest ++ "/v1/mesh/relay".toList

def resolveRelayUrls (coordinatorUrl : List Char) (configured : List (List Char)) :
    List (List Char) :=
  if configured.isEmpty then [deriveRelayUrl coordinatorUrl none]
  else configured.foldl (fun out url => if out.any (· == url) then out else out ++ [url]) []

/-- `pubkeyQ` is the public key as the query has it. -/
structure RelayTask where
  coordinatorUrl : List Char
  relayUrls : List (List Char)
  pubkeyQ : List Char
  insecureNoMtls : Bool
  lane : Lane

namespace RelayTask

variable (task : RelayTask)

def relays : List (List Char) := resolveRelayUrls task.coordinatorUrl task.relayUrls

def url (base : List Char) : List Char :=
  base ++ "?pubkey=".toList ++ task.pubkeyQ ++ "&lane=".toList ++ task.lane.asStr

end RelayTask

def relayBackoff : List Nat := [1, 2, 5, 10]

def livenessInterval : Nat := secs 15

def idleDeadline : Nat := secs 45

/-- Where the task is; a socket that is `up` was heard from and looked at last at these times. -/
inductive LinkPhase
  | dialing
  | up (lastRx lastTick : Nat)
  | waiting
  | stopped
deriving DecidableEq

inductive WsMessage
  | ended
  | failed
  | binary (buf : List UInt8)
  | close
  | other

/-- What happens next to the task, with the outcome of the call it makes on the socket. -/
inductive ClientMove
  | tryRelay (out : RelayOutbound)
  | connect (now : Nat) (ok : Bool)
  | tick (now : Nat) (ok : Bool)
  | drain (ok : Bool)
  | inbound (now : Nat) (message : WsMessage)
  | slept
  | shutdown (flag : Bool)

/-- `dialed none` is an index outside the list, where the task panics. -/
inductive ClientDeed
  | quiet
  | queued (out : RelayOutbound)
  | dialed (url : Option (List Char))
  | wrote (frame : List UInt8)
  | lost (frame : List UInt8)
  | injected (buf : List UInt8)
  | waited (seconds : Nat)

structure RelayClient where
  current : Nat
  attempt : Nat
  phase : LinkPhase
  outbound : List RelayOutbound

namespace RelayClient

def start (task : RelayTask) : RelayClient :=
  ⟨0, 0, if task.insecureNoMtls then .dialing else .stopped, []⟩

def delay (c : RelayClient) : Nat := relayBackoff.getD (min c.attempt (relayBackoff.length - 1)) 0

def failOver (task : RelayTask) (c : RelayClient) : RelayClient × ClientDeed :=
  let next := (c.current + 1) % task.relays.length
  let attempt := if next ≠ c.current then 0 else c.attempt + 1
  ({ c with current := next, attempt := attempt, phase := .dialing }, .waited c.delay)

def step (task : RelayTask) (c : RelayClient) : ClientMove → RelayClient × ClientDeed
  | .tryRelay out =>
    -- the channel goes with the task
    if c.phase = .stopped ∨ out.lane ≠ task.lane then (c, .quiet)
    else ({ c with outbound := c.outbound ++ [out] }, .queued out)
  | .connect now ok =>
    match c.phase with
    | .dialing =>
      ({ c with phase := if ok then .up now now else .waiting },
        .dialed (task.relays[c.current]?.map task.url))
    | _ => (c, .quiet)
  | .tick now ok =>
    match c.phase with
    | .up lastRx _ =>
      if now - lastRx ≥ idleDeadline then ({ c with phase := .waiting }, .quiet)
      else ({ c with phase := if ok then .up lastRx now else .waiting }, .quiet)
    | _ => (c, .quiet)
  | .drain ok =>
    match c.phase, c.outbound with
    | .up .., out :: rest =>
      if ok then ({ c with outbound := rest }, .wrote out.frame)
      else ({ c with outbound := rest, phase := .waiting }, .lost out.frame)
    | _, _ => (c, .quiet)
  | .inbound now message =>
    match c.phase, message with
    | .up _ lastTick, .binary buf => ({ c with phase := .up now lastTick }, .injected buf)
    | .up _ lastTick, .other => ({ c with phase := .up now lastTick }, .quiet)
    | .up .., .ended | .up .., .failed | .up .., .close => ({ c with phase := .waiting }, .quiet)
    | _, _ => (c, .quiet)
  | .slept =>
    match c.phase with
    | .waiting => c.failOver task
    | _ => (c, .quiet)
  | .shutdown true => ({ c with phase := .stopped }, .quiet)
  | .shutdown false =>
    match c.phase with
    | .dialing => ({ c with phase := .waiting }, .quiet)
    | .waiting => c.failOver task
    | _ => (c, .quiet)

end RelayClient

def relayClient (task : RelayTask) : Machine RelayClient ClientMove ClientDeed where
  init := .start task
  step := RelayClient.step task
  admits _ _ := True

theorem foldl_firstSeen (configured out : List (List Char)) (hout : out.Nodup) :
    let urls := configured.foldl (fun out url => if out.any (· == url) then out else out ++ [url]) out
    urls.Nodup ∧ ∀ url, url ∈ urls ↔ url ∈ out ∨ url ∈ configured := by
  induction configured generalizing out with
  | nil => exact ⟨hout, by simp⟩
  | cons head rest ih =>
    rw [List.foldl_cons]
    split
    · rename_i hseen
      have hmem : head ∈ out := by simpa using hseen
      obtain ⟨hnodup, hiff⟩ := ih out hout
      refine ⟨hnodup, fun url => ?_⟩
      rw [hiff, List.mem_cons]
      constructor
      · tauto
      · rintro (h | rfl | h)
        · exact .inl h
        · exact .inl hmem
        · exact .inr h
    · rename_i hnew
      have hmem : head ∉ out := by simpa using hnew
      have hnext : (out ++ [head]).Nodup := by
        rw [← List.concat_eq_append]
        exact hout.concat hmem
      obtain ⟨hnodup, hiff⟩ := ih _ hnext
      refine ⟨hnodup, fun url => ?_⟩
      rw [hiff, List.mem_append, List.mem_singleton, List.mem_cons, or_assoc]

namespace RelayTask

variable (task : RelayTask)

theorem nodup_relays : task.relays.Nodup := by
  unfold relays resolveRelayUrls
  split
  · simp
  · exact (foldl_firstSeen _ [] List.nodup_nil).1

theorem mem_relays (h : task.relayUrls ≠ []) (url : List Char) :
    url ∈ task.relays ↔ url ∈ task.relayUrls := by
  rw [relays, resolveRelayUrls, if_neg (by simpa using h)]
  simpa using (foldl_firstSeen task.relayUrls [] List.nodup_nil).2 url

theorem relays_length_pos : 0 < task.relays.length := by
  by_cases h : task.relayUrls = []
  · simp [relays, resolveRelayUrls, h]
  · obtain ⟨url, hurl⟩ := List.exists_mem_of_ne_nil _ h
    exact List.length_pos_of_mem ((task.mem_relays h url).mpr hurl)

end RelayTask

def ClientDeed.accepted : ClientDeed → List (List UInt8)
  | .queued out => [out.frame]
  | _ => []

def ClientDeed.taken : ClientDeed → List (List UInt8)
  | .wrote frame | .lost frame => [frame]
  | _ => []

def ClientDeed.isWait : ClientDeed → Bool
  | .waited _ => true
  | _ => false

namespace RelayClient

variable {task : RelayTask} {c : RelayClient} {move : ClientMove}

/-- Everything a step can do. -/
inductive Steps (task : RelayTask) (c : RelayClient) : RelayClient × ClientDeed → Prop
  | queued (out : RelayOutbound) :
      Steps task c ({ c with outbound := c.outbound ++ [out] }, .queued out)
  | took {out : RelayOutbound} {rest : List RelayOutbound} {phase : LinkPhase} {deed : ClientDeed}
      (hout : c.outbound = out :: rest) (haccepted : deed.accepted = [])
      (htaken : deed.taken = [out.frame]) (hwait : deed.isWait = false) :
      Steps task c ({ c with outbound := rest, phase := phase }, deed)
  | turned : Steps task c (c.failOver task)
  | moved {phase : LinkPhase} {deed : ClientDeed} (haccepted : deed.accepted = [])
      (htaken : deed.taken = []) (hwait : deed.isWait = false) :
      Steps task c ({ c with phase := phase }, deed)

theorem steps (task : RelayTask) (c : RelayClient) (move : ClientMove) :
    Steps task c (c.step task move) := by
  have hsame : Steps task c (c, .quiet) := .moved rfl rfl rfl
  unfold step
  split
  · split
    · exact hsame
    · exact .queued _
  · split
    · exact .moved rfl rfl rfl
    · exact hsame
  · split
    · split
      · exact .moved rfl rfl rfl
      · exact .moved rfl rfl rfl
    · exact hsame
  · split
    · rename_i hout
      split
      · exact .took hout rfl rfl rfl
      · exact .took hout rfl rfl rfl
    · exact hsame
  · split
    all_goals first | exact hsame | exact .moved rfl rfl rfl
  · split
    · exact .turned
    · exact hsame
  · exact .moved rfl rfl rfl
  · split
    · exact .moved rfl rfl rfl
    · exact .turned
    · exact hsame

end RelayClient

section

variable {task : RelayTask} {tr : List (ClientMove × ClientDeed)} {c : RelayClient}

def accepted (tr : List (ClientMove × ClientDeed)) : List (List UInt8) :=
  tr.reverse.flatMap (fun x => x.2.accepted)

def taken (tr : List (ClientMove × ClientDeed)) : List (List UInt8) :=
  tr.reverse.flatMap (fun x => x.2.taken)

def Conserved (tr : List (ClientMove × ClientDeed)) (c : RelayClient) : Prop :=
  accepted tr = taken tr ++ c.outbound.map RelayOutbound.frame

theorem Conserved.step (h : Conserved tr c) (task : RelayTask) (move : ClientMove) :
    Conserved ((move, (c.step task move).2) :: tr) (c.step task move).1 := by
  have hsteps := c.steps task move
  generalize c.step task move = next at hsteps
  have hlog : ∀ deed, accepted ((move, deed) :: tr) = accepted tr ++ deed.accepted ∧
      taken ((move, deed) :: tr) = taken tr ++ deed.taken := by simp [accepted, taken]
  rw [Conserved] at h
  rw [Conserved, (hlog _).1, (hlog _).2, h]
  cases hsteps with
  | queued out => simp [ClientDeed.accepted, ClientDeed.taken]
  | took hout haccepted htaken => simp [hout, haccepted, htaken]
  | turned => simp [RelayClient.failOver, ClientDeed.accepted, ClientDeed.taken]
  | moved haccepted htaken => simp [haccepted, htaken]

theorem reach_exec (task : RelayTask) (moves : List ClientMove) :
    (relayClient task).Reach ((relayClient task).exec [] (.start task) moves).1
      ((relayClient task).exec [] (.start task) moves).2 :=
  Machine.Run.exec .start (.of_free (fun _ _ => trivial) _ _ _)

/-- How often the task has waited in order to dial again. -/
def turns (tr : List (ClientMove × ClientDeed)) : Nat := tr.countP (fun x => x.2.isWait)

def InTurn (task : RelayTask) (tr : List (ClientMove × ClientDeed)) (c : RelayClient) : Prop :=
  c.current = turns tr % task.relays.length ∧
    c.attempt = if task.relays.length = 1 then turns tr else 0

theorem InTurn.failOver (h : InTurn task tr c) (move : ClientMove) :
    InTurn task ((move, (c.failOver task).2) :: tr) (c.failOver task).1 := by
  have hpos := task.relays_length_pos
  have hturns : turns ((move, (c.failOver task).2) :: tr) = turns tr + 1 := by
    simp [turns, RelayClient.failOver, ClientDeed.isWait]
  obtain ⟨hcurrent, hattempt⟩ := h
  have hlt : c.current < task.relays.length := hcurrent ▸ Nat.mod_lt _ hpos
  refine ⟨?_, ?_⟩
  · rw [hturns, RelayClient.failOver, hcurrent, Nat.mod_add_mod]
  · rw [hturns]
    simp only [RelayClient.failOver]
    by_cases hone : task.relays.length = 1
    · have hzero : c.current = 0 := by omega
      simp [hone, hzero, hattempt]
    · have hmoved : (c.current + 1) % task.relays.length ≠ c.current := by
        by_cases hlast : c.current + 1 = task.relays.length
        · rw [hlast, Nat.mod_self]
          omega
        · rw [Nat.mod_eq_of_lt (by omega)]
          omega
      simp [hmoved, hone]

theorem InTurn.step (h : InTurn task tr c) (move : ClientMove) :
    InTurn task ((move, (c.step task move).2) :: tr) (c.step task move).1 := by
  have hsteps := c.steps task move
  generalize c.step task move = next at hsteps
  have hquiet {deed : ClientDeed} (hdeed : deed.isWait = false) :
      turns ((move, deed) :: tr) = turns tr := by simp [turns, hdeed]
  cases hsteps with
  | queued => exact h
  | turned => exact h.failOver move
  | took _ _ _ hwait | moved _ _ hwait =>
    rw [InTurn, hquiet hwait]
    exact h

/-- The task goes round the list of relays, in which none stands twice. It waits a second each
time, and only a single relay makes it wait longer and longer. -/
theorem relays_dialed_in_turn (task : RelayTask) (moves : List ClientMove) (now : Nat) (ok : Bool) :
    let run := (relayClient task).exec [] (.start task) moves
    task.relays.Nodup ∧
      (∃ base, task.relays[turns run.1 % task.relays.length]? = some base ∧
        (run.2.phase = .dialing →
          (run.2.step task (.connect now ok)).2 = .dialed (some (task.url base)))) ∧
      (run.2.phase = .waiting → (run.2.step task .slept).2 =
        .waited (if task.relays.length = 1 then relayBackoff.getD (min (turns run.1) 3) 0 else 1)) := by
  intro run
  have hinit : InTurn task [] (.start task) := by simp [InTurn, turns, RelayClient.start]
  obtain ⟨hcurrent, hattempt⟩ : InTurn task run.1 run.2 :=
    (reach_exec task moves).invariant hinit (fun _ _ move _ hc _ _ => hc.step move)
  have hlt : turns run.1 % task.relays.length < task.relays.length :=
    Nat.mod_lt _ task.relays_length_pos
  refine ⟨task.nodup_relays, ⟨_, List.getElem?_eq_getElem hlt, ?_⟩, ?_⟩
  · intro hphase
    simp [RelayClient.step, hphase, hcurrent, List.getElem?_eq_getElem hlt]
  · intro hphase
    simp only [RelayClient.step, hphase, RelayClient.failOver, RelayClient.delay, hattempt]
    split
    · rfl
    · rfl

def ClientMove.time : ClientMove → Option Nat
  | .connect now _ | .tick now _ | .inbound now _ => some now
  | _ => none

/-- While a socket is up, the next look at it comes `slack` too late at most. -/
def Prompt (slack : Nat) (c : RelayClient) (move : ClientMove) : Prop :=
  ∀ lastRx lastTick now, c.phase = .up lastRx lastTick → move.time = some now →
    lastTick ≤ now ∧ now ≤ lastTick + livenessInterval + slack

def RelayClient.Fresh (c : RelayClient) : Prop :=
  ∀ lastRx lastTick, c.phase = .up lastRx lastTick → lastTick < lastRx + idleDeadline

theorem RelayClient.Fresh.step {slack : Nat} (h : c.Fresh) {move : ClientMove}
    (hprompt : Prompt slack c move) : (c.step task move).1.Fresh := by
  have hpos : 0 < idleDeadline := by decide
  intro lastRx lastTick hup
  cases move with
  | connect now ok | tick now ok =>
    simp only [RelayClient.step] at hup
    repeat' split at hup
    all_goals first | exact h _ _ hup | cases hup
    all_goals omega
  | inbound now message =>
    simp only [RelayClient.step] at hup
    split at hup
    case h_1 hphase | h_2 hphase =>
      have hbefore := (hprompt _ _ now hphase rfl).1
      obtain ⟨rfl, rfl⟩ := LinkPhase.up.inj hup
      omega
    all_goals first | exact h _ _ hup | cases hup
  | tryRelay | drain | slept =>
    simp only [RelayClient.step, RelayClient.failOver] at hup
    repeat' split at hup
    all_goals first | exact h _ _ hup | cases hup
  | shutdown flag =>
    cases flag <;> simp only [RelayClient.step, RelayClient.failOver] at hup
    · split at hup
      all_goals first | exact h _ _ hup | cases hup
    · cases hup

/-- A socket that nothing comes in from is given up within 60 seconds and the delay of the timer,
and one that is heard from every 45 seconds is not given up for its silence. -/
theorem half_open_socket_given_up {slack lastRx lastTick now : Nat} {ok : Bool}
    (h : (relayClient task).Run (Prompt slack) tr c) (hup : c.phase = .up lastRx lastTick)
    (hprompt : Prompt slack c (.tick now ok)) :
    now < lastRx + secs 60 + slack ∧
      (now < lastRx + idleDeadline → (c.step task (.tick now true)).1.phase = .up lastRx now) := by
  have hfresh : c.Fresh := by
    refine h.invariant (I := fun _ c => c.Fresh) ?_ (fun _ _ _ _ hc _ hprompt => hc.step hprompt)
    intro lastRx lastTick hstart
    simp only [relayClient, RelayClient.start] at hstart
    split at hstart <;> cases hstart
  have hlooked := hfresh lastRx lastTick hup
  have hnext := (hprompt lastRx lastTick now hup rfl).2
  refine ⟨?_, ?_⟩
  · simp only [livenessInterval, idleDeadline, secs] at hlooked hnext ⊢
    omega
  · intro hsoon
    simp only [RelayClient.step, hup]
    have hpos : 0 < idleDeadline := by decide
    rw [if_neg (by omega)]
    rfl

theorem half_open_socket_given_up_silent :
    let task : RelayTask := ⟨[], [], [], true, .hi⟩
    let c := ((relayClient task).exec [] (.start task) [.connect 0 true, .tick 0 true]).2
    secs 15 < 0 + secs 60 + 0 ∧ (secs 15 < 0 + idleDeadline →
      (c.step task (.tick (secs 15) true)).1.phase = .up 0 (secs 15)) := by
  intro task c
  have hdial : Prompt 0 (.start task) (.connect 0 true) := fun _ _ _ h => nomatch h
  have hlook : ∀ now ≤ secs 15, Prompt 0 ⟨0, 0, .up 0 0, []⟩ (.tick now true) := by
    intro now hle lastRx lastTick _ hup htime
    obtain ⟨rfl, rfl⟩ := LinkPhase.up.inj hup
    obtain rfl := Option.some.inj htime
    exact ⟨Nat.zero_le _, by simpa [livenessInterval] using hle⟩
  have hrun := Machine.Run.exec (m := relayClient task) .start
    (show Machine.Admissible _ (Prompt 0) [] _ [.connect 0 true, .tick 0 true] from
      ⟨trivial, hdial, trivial, hlook 0 (Nat.zero_le _), trivial⟩)
  exact half_open_socket_given_up hrun rfl (hlook (secs 15) le_rfl)

end

end ServiceMesh
