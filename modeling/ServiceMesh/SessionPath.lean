import ServiceMesh.PathTimer

/-! What a datagram makes of the path of a session, and from it what every step does. -/

namespace ServiceMesh

open StdNet (Ipv6Addr SocketAddr)

namespace WireNode

variable {cfg : WireConfig} {now : Int} {id w : SessionId} {n n' n'' : WireNode}

theorem shows_act (cfg : WireConfig) (now : Int) (id : SessionId) (source : Option SocketAddr)
    (n : WireNode) (action : WgAction) (w : SessionId)
    (hheard : source.isSome = true → action.isError = false → (n.paths id).failedHandshakes = 0) :
    ∃ rest, (∀ e ∈ rest, PathEvent.ofSending e = true) ∧
      (Shows now w n (n.act cfg now id source action) rest ∨
        (w = id ∧ source.isSome = true ∧ (∃ s packet, action = .deliverToTun packet ∧
          n.table.heap.lookup id = some s ∧ s.innerSourceAllowed packet = true) ∧
          Shows now w n (n.act cfg now id source action) (.confirmed :: rest))) := by
  have hdrained : ∀ m : WireNode, Shown PathEvent.ofSending now w n m →
      ∃ rest, (∀ e ∈ rest, PathEvent.ofSending e = true) ∧
        Shows now w n (m.drain cfg now id source (m.queues id)) rest := by
    intro m hm
    obtain ⟨rest, hshows, hkind⟩ := hm.trans (shown_drain (m.queues id) w)
    exact ⟨rest, hkind, hshows⟩
  unfold act applyWgAction
  cases action with
  | nothing | error message =>
    obtain ⟨rest, hkind, hshows⟩ := hdrained n (.refl n)
    exact ⟨rest, hkind, .inl hshows⟩
  | sendToPeer bytes =>
    obtain ⟨rest, hkind, hshows⟩ := hdrained _ (shown_sendWire bytes w)
    exact ⟨rest, hkind, .inl hshows⟩
  | deliverToTun packet =>
    simp only
    cases hs : n.table.heap.lookup id with
    | none =>
      obtain ⟨rest, hkind, hshows⟩ := hdrained n (.refl n)
      exact ⟨rest, hkind, .inl hshows⟩
    | some s =>
      by_cases hallowed : s.innerSourceAllowed packet = true
      swap
      · obtain ⟨rest, hkind, hshows⟩ := hdrained n (.refl n)
        refine ⟨rest, hkind, .inl ?_⟩
        simp only [hallowed]
        exact hshows
      simp only [hallowed, if_true]
      by_cases hconfirms : w = id ∧ source.isSome = true
      · obtain ⟨rfl, hsource⟩ := hconfirms
        obtain ⟨rest, hshows, hkind⟩ : Shown PathEvent.ofSending now w (n.deliver now w source packet)
            ((n.deliver now w source packet).drain cfg now w source
              ((n.deliver now w source packet).queues w)) := shown_drain _ w
        have hconfirmed : Shows now w n (n.deliver now w source packet) [.confirmed] := by
          refine ⟨?_, ?_⟩
          · have hpath : (n.deliver now w source packet).paths w = (n.paths w).after now .confirmed := by
              simp [deliver, hsource, emit, setClocks, setPath, PathState.after]
            rw [hpath]
            exact .single (hheard hsource rfl)
          · simp [deliver, hsource, emit, setClocks, setPath, probeCount, WireEvent.probes]
        exact ⟨rest, hkind, .inr ⟨rfl, hsource, ⟨s, packet, rfl, rfl, hallowed⟩,
          hconfirmed.trans hshows⟩⟩
      · have hother : Shown PathEvent.ofSending now w n (n.deliver now id source packet) := by
          refine .of_eq ?_ ?_
          · unfold deliver
            by_cases hsource : source.isSome = true
            · have hne : w ≠ id := fun hw => hconfirms ⟨hw, hsource⟩
              simp only [hsource, if_true]
              exact paths_setPath_of_ne hne
            · simp only [hsource]
              rfl
          · cases source <;> rfl
        obtain ⟨rest, hkind, hshows⟩ := hdrained _ hother
        exact ⟨rest, hkind, .inl hshows⟩

theorem shows_heard : Shows now id n (n.setPath id ((n.paths id).noteDirectRx now)) [.heard] := by
  refine ⟨?_, rfl⟩
  rw [paths_setPath_self]
  exact .single trivial

theorem failedHandshakes_heard (m : WireNode) (now : Int) (id : SessionId) :
    ((m.setPath id ((m.paths id).noteDirectRx now)).paths id).failedHandshakes = 0 := by
  rw [paths_setPath_self]
  rfl

theorem shows_setPath_other {p : PathState} (h : w ≠ id) : Shows now w n (n.setPath id p) [] :=
  .of_eq (paths_setPath_of_ne h) rfl

variable [Tunnels]

theorem Handled.table {source : Option SocketAddr} {datagram : List UInt8}
    (h : Handled cfg now id source datagram n n') : n'.table = n.table := by
  rcases h with ⟨-, hsends⟩ | ⟨packet, n₁, -, hsends₁, -, hsends⟩
  · exact hsends.table
  · have hdelivered : (n₁.deliver now id source packet).table = n₁.table := by
      cases source <;> rfl
    exact hsends.table.trans (hdelivered.trans hsends₁.table)

theorem decapsulate_frame (n : WireNode) (id : SessionId) (datagram : List UInt8) (w : SessionId) :
    (n.decapsulate id datagram).1.paths w = n.paths w ∧
      (n.decapsulate id datagram).1.probeCount w = n.probeCount w ∧
      (n.decapsulate id datagram).1.table = n.table := by
  unfold decapsulate
  split
  · split <;> exact ⟨rfl, rfl, rfl⟩
  · exact ⟨rfl, rfl, rfl⟩

def hears (n : WireNode) (order : SessionId → Nat) (source : SocketAddr) (datagram : List UInt8)
    (w : SessionId) : Bool :=
  match n.table.deref (n.table.byEndpoint.lookup source) with
  | some (id, _) => id = w && !(n.decapsulate id datagram).2.isError
  | none =>
    ((n.table.visited order).find? (fun c => !(n.decapsulate c.1 datagram).2.passedOver)).any
      (fun c => c.1 = w)

def Receives (direct : Bool) (now : Int) (w : SessionId) (datagram : List UInt8)
    (events : List PathEvent) (n n' : WireNode) : Prop :=
  ∃ rest, (∀ e ∈ rest, PathEvent.ofSending e = true) ∧
    (Shows now w n n' (events ++ rest) ∨
      direct = true ∧ (∃ packet, n.Opens w datagram packet) ∧
        Shows now w n n' (events ++ .confirmed :: rest))

theorem receives_act (cfg : WireConfig) (id : SessionId) (source : Option SocketAddr)
    (datagram : List UInt8) {n₁ : WireNode} {events : List PathEvent}
    (hshows : Shows now w n n₁ events)
    (hheard : source.isSome = true → (n.decapsulate id datagram).2.isError = false →
      (n₁.paths id).failedHandshakes = 0)
    (hsession : ∀ s packet, n₁.table.heap.lookup id = some s → s.innerSourceAllowed packet = true →
      ∃ s₀, n.table.heap.lookup id = some s₀ ∧ s₀.innerSourceAllowed packet = true) :
    Receives source.isSome now w datagram events n
      (n₁.act cfg now id source (n.decapsulate id datagram).2) := by
  obtain ⟨rest, hkind, hacted⟩ :=
    shows_act cfg now id source n₁ (n.decapsulate id datagram).2 w hheard
  refine ⟨rest, hkind, ?_⟩
  rcases hacted with hacted | ⟨rfl, hsource, ⟨s, packet, haction, hs, hallowed⟩, hacted⟩
  · exact .inl (hshows.trans hacted)
  · obtain ⟨s₀, hs₀, hallowed₀⟩ := hsession s packet hs hallowed
    obtain ⟨hne, s₀', hs₀', hopen⟩ := decapsulate_eq_deliverToTun_iff.mp haction
    obtain rfl := Option.some.inj (hs₀.symm.trans hs₀')
    exact .inr ⟨hsource, ⟨packet, hne, s₀, hs₀, hopen, hallowed₀⟩, hshows.trans hacted⟩

theorem receives_processInboundDatagram (cfg : WireConfig) (now : Int) (id : SessionId)
    (source : Option SocketAddr) (datagram : List UInt8) (n : WireNode) (w : SessionId) :
    Receives source.isSome now w datagram
      (if source.isSome = true ∧ id = w ∧ (n.decapsulate id datagram).2.isError = false
        then [.heard] else []) n (n.processInboundDatagram cfg now id source datagram) := by
  obtain ⟨hpath, hprobes, htable⟩ := decapsulate_frame n id datagram w
  have hdecapped : Shows now w n (n.decapsulate id datagram).1 [] := .of_eq hpath hprobes
  unfold processInboundDatagram
  simp only
  by_cases hvalid : (source.isSome && !(n.decapsulate id datagram).2.isError) = true
  · rw [if_pos hvalid]
    simp only [Bool.and_eq_true, Bool.not_eq_true'] at hvalid
    by_cases hw : id = w
    · subst hw
      rw [if_pos ⟨hvalid.1, rfl, hvalid.2⟩]
      refine receives_act cfg id source datagram (hdecapped.trans shows_heard)
        (fun _ _ => failedHandshakes_heard _ now id) ?_
      intro s packet hs hallowed
      exact ⟨s, htable ▸ hs, hallowed⟩
    · rw [if_neg (fun h => hw h.2.1)]
      have hother : w ≠ id := fun h => hw h.symm
      refine receives_act cfg id source datagram (hdecapped.trans (shows_setPath_other hother))
        (fun _ _ => failedHandshakes_heard _ now id) ?_
      intro s packet hs hallowed
      exact ⟨s, htable ▸ hs, hallowed⟩
  · rw [if_neg hvalid, if_neg]
    · refine receives_act cfg id source datagram hdecapped ?_ ?_
      · intro hsource herror
        simp [hsource, herror] at hvalid
      intro s packet hs hallowed
      exact ⟨s, htable ▸ hs, hallowed⟩
    · intro h
      simp [h.1, h.2.2] at hvalid

theorem receives_udpRecv (cfg : WireConfig) (now : Int) (order : SessionId → Nat)
    (source : SocketAddr) (datagram : List UInt8) (n : WireNode) (w : SessionId) :
    Receives true now w datagram (if n.hears order source datagram w = true then [.heard] else []) n
      (n.udpRecv cfg now order source datagram) := by
  unfold udpRecv hears
  cases hfast : n.table.deref (n.table.byEndpoint.lookup source) with
  | some c =>
    simpa using receives_processInboundDatagram cfg now c.1 (some source) datagram n w
  | none =>
    simp only
    cases hslow : (n.table.visited order).find?
        (fun c => !(n.decapsulate c.1 datagram).2.passedOver) with
    | none => exact ⟨[], by simp, .inl (.of_eq rfl rfl)⟩
    | some c =>
      obtain ⟨id, s⟩ := c
      obtain ⟨hpath, hprobes, htable⟩ := decapsulate_frame n id datagram w
      have hlearned : Shows now w n ((n.decapsulate id datagram).1.setTable
          ((n.decapsulate id datagram).1.table.learnEndpoint id source)) [] := .of_eq hpath hprobes
      have hsession : ∀ s packet, ((n.decapsulate id datagram).1.table.learnEndpoint id source).heap.lookup
          id = some s → s.innerSourceAllowed packet = true →
          ∃ s₀, n.table.heap.lookup id = some s₀ ∧ s₀.innerSourceAllowed packet = true := by
        intro s packet hs hallowed
        rw [htable, SessionTable.learnEndpoint, AList.lookup_modify, if_pos rfl,
          Option.map_eq_some_iff] at hs
        obtain ⟨s₀, hs₀, rfl⟩ := hs
        refine ⟨s₀, hs₀, ?_⟩
        unfold PeerSession.learn at hallowed
        split at hallowed <;> exact hallowed
      simp only [Option.any_some, decide_eq_true_eq]
      by_cases hw : id = w
      · subst hw
        rw [if_pos rfl]
        exact receives_act cfg id (some source) datagram (hlearned.trans shows_heard)
          (fun _ _ => failedHandshakes_heard _ now id) hsession
      · rw [if_neg hw]
        have hother : w ≠ id := fun h => hw h.symm
        exact receives_act cfg id (some source) datagram
          (hlearned.trans (shows_setPath_other hother))
          (fun _ _ => failedHandshakes_heard _ now id) hsession

theorem shown_handleInbound (buf : List UInt8) (w : SessionId) :
    Shown PathEvent.ofSending now w n (n.handleInbound cfg now buf) := by
  unfold handleInbound
  split
  · exact .refl n
  · split
    · exact .refl n
    · rename_i id _ _
      obtain ⟨rest, hkind, hshows | ⟨hdirect, -⟩⟩ :=
        receives_processInboundDatagram cfg now id none _ n w
      · exact ⟨rest, by simpa using hshows, hkind⟩
      · simp at hdirect

theorem table_handleInbound (buf : List UInt8) :
    (n.handleInbound cfg now buf).table = n.table := by
  rcases handled_handleInbound cfg now n buf with heq | ⟨id, payload, hhandled⟩
  · rw [heq]
  · exact hhandled.table

theorem inv_step [Crates] (hinv : n.table.Inv) (op : WireOp) : (n.step cfg now op).table.Inv := by
  cases op with
  | upsert info => exact hinv.upsert info
  | remove ula => exact hinv.remove ula
  | appRoutes hostUla advertised => exact hinv.reconcileAppRoutes hostUla advertised
  | relayWake ula => exact hinv
  | datagram order source bytes =>
    have hreceived := received cfg now n order source bytes
    show (n.udpRecv cfg now order source bytes).table.Inv
    generalize n.udpRecv cfg now order source bytes = n' at hreceived
    cases hreceived with
    | known hid hs hhandled => exact hhandled.table ▸ hinv
    | learned hunknown hat htaken hhandled =>
      have hs := (SessionTable.sessionAt_eq_some_iff.mp hat).2
      exact hhandled.table ▸ hinv.learnEndpoint hs source
    | unclaimed => exact hinv
  | relayed buf =>
    show (n.handleInbound cfg now buf).table.Inv
    rw [table_handleInbound]
    exact hinv
  | tun packet answer held =>
    have hsends : Sends cfg n (n.tunRead cfg now packet answer held) := sends_tunRead ..
    exact hsends.table ▸ hinv
  | tick order answers idle =>
    refine tick_induction (P := fun n => n.table.Inv) (fun hsends h => hsends.table ▸ h) ?_
      (fun h => h) order answers idle hinv
    intro n id h
    exact h.touched rfl rfl rfl (SessionTable.touched_modify _ _ (fun _ => ⟨rfl, rfl, rfl⟩)) h.aliases
  | converge answer =>
    have hsends : Sends cfg n (n.converge cfg now answer) := sends_converge ..
    exact hsends.table ▸ hinv
  | punch order myPeerId event inits =>
    obtain ⟨sent, heq, -⟩ := punch_cases cfg n now order myPeerId event inits
    rw [heq]
    exact hinv

def leading (n : WireNode) (now : Int) (w : SessionId) : WireOp → List PathEvent
  | .datagram order source bytes => if n.hears order source bytes w = true then [.heard] else []
  | .tick order _ _ =>
    if w ∈ (n.table.visited order).map Prod.fst ∧ (n.paths w).broken now = true
      then [.downgraded] else []
  | _ => []

def rearms (cfg : WireConfig) (n : WireNode) (now : Int) (w : SessionId) : WireOp → Bool
  | .tick order answers _ =>
    decide (w ∈ (n.table.visited order).map Prod.fst) &&
      (n.maybeRearmExpiredSession cfg now w (answers w)).2
  | _ => false

theorem shows_step [Crates] (hinv : n.table.Inv) (cfg : WireConfig) (now : Int) (op : WireOp)
    (w : SessionId) :
    ∃ rest, Shows now w n (n.step cfg now op) (n.leading now w op ++ rest) ∧
      (∀ e ∈ rest, PathEvent.isTurning e = false) ∧
      rest.countP PathEvent.isRearm = (n.rearms cfg now w op).toNat := by
  have hsending : ∀ m : WireNode, Shown PathEvent.ofSending now w n m →
      ∃ rest, Shows now w n m ([] ++ rest) ∧ (∀ e ∈ rest, PathEvent.isTurning e = false) ∧
        rest.countP PathEvent.isRearm = 0 := by
    rintro m ⟨rest, hshows, hkind⟩
    refine ⟨rest, hshows, fun e he => ?_, PathEvent.countP_isRearm_of_ofSending hkind⟩
    exact PathEvent.isTurning_of_ofTimer (PathEvent.ofTimer_of_ofSending (hkind e he))
  cases op with
  | upsert info => exact hsending _ (.of_eq rfl rfl)
  | remove ula => exact hsending _ (.of_eq rfl rfl)
  | appRoutes hostUla advertised => exact hsending _ (.of_eq rfl rfl)
  | relayWake ula => exact hsending _ (.of_eq rfl rfl)
  | datagram order source bytes =>
    obtain ⟨rest, hkind, hshows⟩ := receives_udpRecv cfg now order source bytes n w
    have hrest : ∀ e ∈ rest, PathEvent.isTurning e = false := fun e he =>
      PathEvent.isTurning_of_ofTimer (PathEvent.ofTimer_of_ofSending (hkind e he))
    have hno := PathEvent.countP_isRearm_of_ofSending hkind
    rcases hshows with hshows | ⟨-, -, hshows⟩
    · exact ⟨rest, hshows, hrest, hno⟩
    · refine ⟨.confirmed :: rest, hshows, ?_, ?_⟩
      · intro e he
        rcases List.mem_cons.mp he with rfl | he
        · rfl
        · exact hrest e he
      · rw [List.countP_cons, hno]
        rfl
  | relayed buf => exact hsending _ (shown_handleInbound buf w)
  | tun packet answer held => exact hsending _ (shown_tunRead packet answer held w)
  | tick order answers idle =>
    obtain ⟨⟨rest, hshows, hkind, hcount⟩, -⟩ := shows_tick hinv cfg now order answers idle w
    refine ⟨rest, hshows, fun e he => PathEvent.isTurning_of_ofTimer (hkind e he), ?_⟩
    rw [hcount, rearms]
    by_cases hvisited : w ∈ (n.table.visited order).map Prod.fst
    · cases hrearmed : (n.maybeRearmExpiredSession cfg now w (answers w)).2 <;> simp [hvisited]
    · simp [hvisited]
  | converge answer => exact hsending _ (.of_eq (converge_frame answer w).1 (converge_frame answer w).2)
  | punch order myPeerId event inits =>
    obtain ⟨sent, heq, hsent⟩ := punch_cases cfg n now order myPeerId event inits
    refine hsending _ ?_
    rw [heq]
    refine .of_eq rfl ?_
    show (sent.map WireEvent.sent ++ n.log).countP (WireEvent.probes w) = _
    rw [List.countP_append, List.countP_map]
    have hnone : sent.countP (WireEvent.probes w ∘ WireEvent.sent) = 0 := by
      rw [List.countP_eq_zero]
      intro f hf hprobe
      simp [WireEvent.probes, Sending.isProbe, (hsent f hf).1] at hprobe
    rw [hnone, Nat.zero_add]
    rfl

end WireNode

end ServiceMesh
