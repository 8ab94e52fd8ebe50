import ServiceMesh.PathEvents

/-! What a timer step makes of the path of a session. -/

namespace ServiceMesh

open StdNet (Ipv6Addr SocketAddr)

theorem SessionTable.Inv.nodup_visited {t : SessionTable} (h : t.Inv) (order : SessionId → Nat) :
    ((t.visited order).map Prod.fst).Nodup := by
  have hvalues : t.byUla.values.Nodup := by
    have hmap := AList.nodup_map_values (fun id : SessionId => id) (m := t.byUla)
      (fun {a a' b b'} hb hb' heq => h.ula_unique hb (hb'.trans (congrArg some heq.symm)))
    simpa using hmap
  have hperm := (List.mergeSort_perm t.snapshot (fun a b => order a.1 ≤ order b.1)).map Prod.fst
  refine hperm.nodup_iff.mpr ?_
  rw [snapshot, List.map_filterMap]
  refine hvalues.filterMap ?_
  intro id id' x hx hx'
  simp only [Option.map_map, Option.mem_def, Option.map_eq_some_iff, Function.comp_apply] at hx hx'
  obtain ⟨-, -, rfl⟩ := hx
  obtain ⟨-, -, rfl⟩ := hx'
  rfl

namespace WireNode

variable {cfg : WireConfig} {now : Int} {id w : SessionId} {n n' n'' : WireNode}

structure Apart (w : SessionId) (n n' : WireNode) : Prop where
  path : n'.paths w = n.paths w
  probes : n'.probeCount w = n.probeCount w
  session : n'.table.heap.lookup w = n.table.heap.lookup w

theorem Apart.trans (h : Apart w n n') (h' : Apart w n' n'') : Apart w n n'' :=
  ⟨h'.path.trans h.path, h'.probes.trans h.probes, h'.session.trans h.session⟩

theorem Apart.shows (h : Apart w n n') : Shows now w n n' [] := .of_eq h.path h.probes

theorem apart_sendWire (h : w ≠ id) (bytes : List UInt8) : Apart w n (n.sendWire cfg now id bytes) :=
  ⟨(sendWire_other h bytes).1, (sendWire_other h bytes).2,
    congrArg (fun t => t.heap.lookup w)
      (sends_sendWire bytes : Sends cfg n (n.sendWire cfg now id bytes)).table⟩

theorem downgrades_eq (now : Int) (id : SessionId) (n : WireNode) :
    (n.downgradeDirectIfStale now id).downgradeDirectIfTxBlackholed now id =
      if (n.paths id).broken now = true then n.downgradePath now id else n := by
  unfold downgradeDirectIfStale PathState.broken
  by_cases hstale : (n.paths id).stale now directPathTtl = true
  · have hunconfirmed : ((n.downgradePath now id).paths id).txBlackholed now directTxBlackholeTtl =
        false := by
      simp [downgradePath, PathState.txBlackholed]
    rw [if_pos hstale, downgradeDirectIfTxBlackholed, hunconfirmed, if_neg Bool.false_ne_true,
      if_pos (by simp [hstale])]
  · rw [if_neg hstale, downgradeDirectIfTxBlackholed]
    simp [hstale]

theorem shows_downgrades (now : Int) (id : SessionId) (n : WireNode) :
    Shows now id n ((n.downgradeDirectIfStale now id).downgradeDirectIfTxBlackholed now id)
      (if (n.paths id).broken now = true then [.downgraded] else []) := by
  rw [downgrades_eq]
  by_cases hbroken : (n.paths id).broken now = true
  · rw [if_pos hbroken, if_pos hbroken]
    refine ⟨?_, rfl⟩
    have hpath : (n.downgradePath now id).paths id = (n.paths id).after now .downgraded := by
      simp [downgradePath, PathState.after, setTable]
    rw [hpath]
    exact .single hbroken
  · rw [if_neg hbroken, if_neg hbroken]
    exact .of_eq rfl rfl

theorem session_downgrades (now : Int) (id : SessionId) (n : WireNode) :
    ((n.downgradeDirectIfStale now id).downgradeDirectIfTxBlackholed now id).table.heap.lookup id =
      (n.table.heap.lookup id).map (fun s =>
        if (n.paths id).broken now = true then { s with endpointLearned := false } else s) := by
  rw [downgrades_eq]
  by_cases hbroken : (n.paths id).broken now = true
  · simp only [hbroken, if_true]
    show (n.table.heap.modify id _).lookup id = _
    rw [AList.lookup_modify, if_pos rfl]
  · simp [hbroken]

theorem apart_downgrades (h : w ≠ id) :
    Apart w n ((n.downgradeDirectIfStale now id).downgradeDirectIfTxBlackholed now id) := by
  rw [downgrades_eq]
  split
  · refine ⟨paths_setPath_of_ne h, rfl, ?_⟩
    show (n.table.heap.modify id _).lookup w = _
    rw [AList.lookup_modify, if_neg h]
  · exact ⟨rfl, rfl, rfl⟩

theorem maybeRearmExpiredSession_cases (cfg : WireConfig) (now : Int) (id : SessionId)
    (a : TimerAnswers) (n : WireNode) :
    n.maybeRearmExpiredSession cfg now id a = (n, false) ∨
      ∃ base, (n.paths id).Allows now (.rearmed base) ∧
        n.maybeRearmExpiredSession cfg now id a =
          (sendSealed (sendWireRelayFloored cfg now id) a.rearmed
            (n.setPath id ((n.paths id).after now (.rearmed base))), true) := by
  unfold maybeRearmExpiredSession
  cases hs : n.table.heap.lookup id with
  | none => exact .inl rfl
  | some s =>
    simp only
    by_cases hexpired : (a.expired && cfg.relay.isSome) = true
    · rw [if_pos hexpired]
      by_cases hdue : rearmInterval (n.paths id).rearmStreak (rearmBase (!isEphemeralPeer s.ula))
          expiredRearmBackoffCap ≤ now - (n.paths id).lastRearm
      · refine .inr ⟨rearmBase (!isEphemeralPeer s.ula), hdue, ?_⟩
        simp only [PathState.shouldRearmExpired, if_pos hdue]
        rfl
      · simp [PathState.shouldRearmExpired, hdue]
    · exact .inl (if_neg hexpired)

theorem shows_maybeRearmExpiredSession (cfg : WireConfig) (now : Int) (id : SessionId)
    (a : TimerAnswers) (n : WireNode) :
    ∃ events, Shows now id n (n.maybeRearmExpiredSession cfg now id a).1 events ∧
      (∀ e ∈ events, PathEvent.ofTimer e = true) ∧
      events.countP PathEvent.isRearm =
        (n.maybeRearmExpiredSession cfg now id a).2.toNat := by
  rcases maybeRearmExpiredSession_cases cfg now id a n with hidle | ⟨base, hallows, hrearmed⟩
  · rw [hidle]
    exact ⟨[], .of_eq rfl rfl, by simp, rfl⟩
  · rw [hrearmed]
    obtain ⟨hpath, hprobes⟩ := sendSealed_floored_frame cfg now id a.rearmed
      (n.setPath id ((n.paths id).after now (.rearmed base))) id
    refine ⟨[.rearmed base], ⟨?_, hprobes⟩, by simp [PathEvent.ofTimer], rfl⟩
    rw [hpath, paths_setPath_self]
    exact .single hallows

theorem maybeDirectDataProbe_cases (cfg : WireConfig) (now : Int) (id : SessionId)
    (a : TimerAnswers) (n : WireNode) :
    n.maybeDirectDataProbe cfg now id a = n ∨
      (n.paths id).Probeable now ∧
        (n.maybeDirectDataProbe cfg now id a = n.setPath id ((n.paths id).after now .skipped) ∨
          ∃ endpoint bytes, n.maybeDirectDataProbe cfg now id a =
            (n.setPath id ((n.paths id).after now .probed)).emit
              (.sent ⟨.dataProbe, id, bytes, some endpoint, []⟩)) := by
  unfold maybeDirectDataProbe
  split
  · rename_i relay endpoint hrelay hendpoint
    split
    · exact .inl rfl
    · rename_i hopen
      simp only [Bool.or_eq_true, not_or, Bool.not_eq_true] at hopen
      rcases shouldProbeDirect_cases (n.paths id) now with ⟨hclaim, hdue⟩ | hclaim
      · right
        refine ⟨⟨hopen.1.2, directSuppressed_eq_false_iff.mp hopen.2, hdue⟩, ?_⟩
        simp only [hclaim]
        split
        · split
          · right
            rename_i bytes _
            refine ⟨endpoint, bytes, ?_⟩
            simp [setPath, Function.update_idem, PathState.after]
          · exact .inl rfl
        · exact .inl rfl
      · simp only [hclaim]
        exact .inl trivial
  · exact .inl rfl

theorem shows_maybeDirectDataProbe (cfg : WireConfig) (now : Int) (id : SessionId)
    (a : TimerAnswers) (n : WireNode) :
    ∃ events, Shows now id n (n.maybeDirectDataProbe cfg now id a) events ∧
      (∀ e ∈ events, PathEvent.ofTimer e = true) ∧ events.countP PathEvent.isRearm = 0 := by
  rcases maybeDirectDataProbe_cases cfg now id a n with
    hnone | ⟨hprobeable, hskipped | ⟨endpoint, bytes, hprobed⟩⟩
  · rw [hnone]
    exact ⟨[], .of_eq rfl rfl, by simp, rfl⟩
  · rw [hskipped]
    refine ⟨[.skipped], ⟨?_, rfl⟩, by simp [PathEvent.ofTimer], rfl⟩
    rw [paths_setPath_self]
    exact .single hprobeable
  · rw [hprobed]
    refine ⟨[.probed], ⟨?_, ?_⟩, by simp [PathEvent.ofTimer], rfl⟩
    · show PathState.Moves now (n.paths id) [.probed] ((n.setPath id _).paths id)
      rw [paths_setPath_self]
      exact .single hprobeable
    · rw [probeCount_emit]
      simp [Sending.isProbe, probeCount, setPath]

theorem maybeRearmExpiredSession_snd (cfg : WireConfig) (now : Int) (id : SessionId)
    (a : TimerAnswers) (n : WireNode) :
    (n.maybeRearmExpiredSession cfg now id a).2 = (n.table.heap.lookup id).any (fun s =>
      a.expired && cfg.relay.isSome && decide (rearmInterval (n.paths id).rearmStreak
        (rearmBase (!isEphemeralPeer s.ula)) expiredRearmBackoffCap ≤
          now - (n.paths id).lastRearm)) := by
  unfold maybeRearmExpiredSession
  cases n.table.heap.lookup id with
  | none => rfl
  | some s =>
    simp only [Option.any_some]
    by_cases hexpired : (a.expired && cfg.relay.isSome) = true
    · rw [if_pos hexpired, hexpired]
      by_cases hdue : rearmInterval (n.paths id).rearmStreak (rearmBase (!isEphemeralPeer s.ula))
          expiredRearmBackoffCap ≤ now - (n.paths id).lastRearm
      · simp [PathState.shouldRearmExpired, hdue]
      · simp [PathState.shouldRearmExpired, hdue]
    · rw [if_neg hexpired, Bool.eq_false_iff.mpr hexpired]
      rfl

theorem rearms_downgrades (cfg : WireConfig) (now : Int) (id : SessionId) (a : TimerAnswers)
    (n : WireNode) :
    (((n.downgradeDirectIfStale now id).downgradeDirectIfTxBlackholed now
      id).maybeRearmExpiredSession cfg now id a).2 = (n.maybeRearmExpiredSession cfg now id a).2 := by
  rw [maybeRearmExpiredSession_snd, maybeRearmExpiredSession_snd, session_downgrades, downgrades_eq,
    Option.any_map]
  split
  · have hpath : (n.downgradePath now id).paths id = (n.paths id).downgrade now := by
      simp [downgradePath, setTable]
    rw [hpath]
    rfl
  · rfl

theorem Apart.rearms (h : Apart w n n') (a : TimerAnswers) :
    (n'.maybeRearmExpiredSession cfg now w a).2 = (n.maybeRearmExpiredSession cfg now w a).2 := by
  rw [maybeRearmExpiredSession_snd, maybeRearmExpiredSession_snd, h.session, h.path]

theorem shows_tickSession (cfg : WireConfig) (now : Int) (answers : SessionId → TimerAnswers)
    (n : WireNode) (id : SessionId) :
    (∃ rest, Shows now id n (n.tickSession cfg now answers id)
        ((if (n.paths id).broken now = true then [.downgraded] else []) ++ rest) ∧
      (∀ e ∈ rest, PathEvent.ofTimer e = true) ∧
      rest.countP PathEvent.isRearm =
        (n.maybeRearmExpiredSession cfg now id (answers id)).2.toNat) ∧
    (n.tickSession cfg now answers id).table.heap.lookup id =
      (n.table.heap.lookup id).map (fun s =>
        if (n.paths id).broken now = true then { s with endpointLearned := false } else s) := by
  have hdowned := shows_downgrades now id n
  have hsession := session_downgrades now id n
  have hrearms := rearms_downgrades cfg now id (answers id) n
  unfold tickSession
  simp only
  generalize (n.downgradeDirectIfStale now id).downgradeDirectIfTxBlackholed now id = n₁
    at hdowned hsession hrearms
  obtain ⟨events, hshows, hkind, hcount⟩ :=
    shows_maybeRearmExpiredSession cfg now id (answers id) n₁
  have htable : (n₁.maybeRearmExpiredSession cfg now id (answers id)).1.table = n₁.table :=
    (sends_maybeRearmExpiredSession (answers id)).table
  rw [hrearms] at hcount
  generalize n₁.maybeRearmExpiredSession cfg now id (answers id) = r at hshows htable hrearms
  obtain ⟨n₂, rearmed⟩ := r
  cases rearmed with
  | true => exact ⟨⟨events, hdowned.trans hshows, hkind, hcount⟩, htable ▸ hsession⟩
  | false =>
    simp only
    have htimers : Shown PathEvent.ofSending now id n₂
        ((answers id).timers.elim n₂ (fun bytes => n₂.sendWire cfg now id bytes)) ∧
        ((answers id).timers.elim n₂ (fun bytes => n₂.sendWire cfg now id bytes)).table =
          n₂.table := by
      cases (answers id).timers with
      | none => exact ⟨.refl n₂, rfl⟩
      | some bytes =>
        exact ⟨shown_sendWire bytes id,
          (sends_sendWire bytes : Sends cfg n₂ (n₂.sendWire cfg now id bytes)).table⟩
    generalize (answers id).timers.elim n₂ (fun bytes => n₂.sendWire cfg now id bytes) = n₃
      at htimers
    obtain ⟨⟨sent, hsent, hsending⟩, htable'⟩ := htimers
    obtain ⟨probe, hprobe, hprobing, hno⟩ :=
      shows_maybeDirectDataProbe cfg now id (answers id) n₃
    have htable'' : (n₃.maybeDirectDataProbe cfg now id (answers id)).table = n₃.table :=
      (sends_maybeDirectDataProbe (answers id)).table
    refine ⟨⟨events ++ (sent ++ probe), hdowned.trans (hshows.trans (hsent.trans hprobe)), ?_, ?_⟩, ?_⟩
    · intro e he
      rcases List.mem_append.mp he with he | he
      · exact hkind e he
      rcases List.mem_append.mp he with he | he
      · exact PathEvent.ofTimer_of_ofSending (hsending e he)
      · exact hprobing e he
    · rw [List.countP_append, List.countP_append, hcount,
        PathEvent.countP_isRearm_of_ofSending hsending, hno, Nat.add_zero]
    · rw [htable'', htable', htable]
      exact hsession

theorem apart_maybeRearmExpiredSession (h : w ≠ id) (a : TimerAnswers) :
    Apart w n (n.maybeRearmExpiredSession cfg now id a).1 := by
  have htable : (n.maybeRearmExpiredSession cfg now id a).1.table = n.table :=
    (sends_maybeRearmExpiredSession a).table
  rcases maybeRearmExpiredSession_cases cfg now id a n with hidle | ⟨base, -, hrearmed⟩
  · rw [hidle]
    exact ⟨rfl, rfl, rfl⟩
  · rw [hrearmed] at htable ⊢
    have hframe := sendSealed_floored_frame cfg now id a.rearmed
      (n.setPath id ((n.paths id).after now (.rearmed base))) w
    exact ⟨hframe.1.trans (paths_setPath_of_ne h), hframe.2, by rw [htable]⟩

theorem apart_maybeDirectDataProbe (h : w ≠ id) (a : TimerAnswers) :
    Apart w n (n.maybeDirectDataProbe cfg now id a) := by
  rcases maybeDirectDataProbe_cases cfg now id a n with
    hnone | ⟨-, hskipped | ⟨endpoint, bytes, hprobed⟩⟩
  · rw [hnone]
    exact ⟨rfl, rfl, rfl⟩
  · rw [hskipped]
    exact ⟨paths_setPath_of_ne h, rfl, rfl⟩
  · rw [hprobed]
    exact ⟨paths_setPath_of_ne h, probeCount_emit_of_not (fun hw => h hw.1.symm), rfl⟩

theorem apart_tickSession (h : w ≠ id) (answers : SessionId → TimerAnswers) :
    Apart w n (n.tickSession cfg now answers id) := by
  have hdowned : Apart w n
      ((n.downgradeDirectIfStale now id).downgradeDirectIfTxBlackholed now id) := apart_downgrades h
  unfold tickSession
  simp only
  generalize (n.downgradeDirectIfStale now id).downgradeDirectIfTxBlackholed now id = n₁ at hdowned
  have hrearmed : Apart w n₁ (n₁.maybeRearmExpiredSession cfg now id (answers id)).1 :=
    apart_maybeRearmExpiredSession h (answers id)
  generalize n₁.maybeRearmExpiredSession cfg now id (answers id) = r at hrearmed
  obtain ⟨n₂, rearmed⟩ := r
  cases rearmed with
  | true => exact hdowned.trans hrearmed
  | false =>
    have htimers : Apart w n₂
        ((answers id).timers.elim n₂ (fun bytes => n₂.sendWire cfg now id bytes)) := by
      cases (answers id).timers with
      | none => exact ⟨rfl, rfl, rfl⟩
      | some bytes => exact apart_sendWire h bytes
    exact ((hdowned.trans hrearmed).trans htimers).trans (apart_maybeDirectDataProbe h (answers id))

theorem apart_foldl_tickSession (answers : SessionId → TimerAnswers) {ids : List SessionId}
    (h : w ∉ ids) : Apart w n (ids.foldl (tickSession cfg now answers) n) := by
  induction ids generalizing n with
  | nil => exact ⟨rfl, rfl, rfl⟩
  | cons id ids ih =>
    have hne : w ≠ id := fun hw => h (hw ▸ List.mem_cons_self)
    have hrest : w ∉ ids := fun hw => h (List.mem_cons_of_mem id hw)
    exact (apart_tickSession hne answers).trans (ih hrest)

theorem shows_tick (hinv : n.table.Inv) (cfg : WireConfig) (now : Int) (order : SessionId → Nat)
    (answers : SessionId → TimerAnswers) (idle : SessionId → WgAction) (w : SessionId) :
    (∃ rest, Shows now w n (n.tick cfg now order answers idle)
        ((if w ∈ (n.table.visited order).map Prod.fst ∧ (n.paths w).broken now = true
          then [.downgraded] else []) ++ rest) ∧
      (∀ e ∈ rest, PathEvent.ofTimer e = true) ∧
      rest.countP PathEvent.isRearm =
        if w ∈ (n.table.visited order).map Prod.fst ∧
          (n.maybeRearmExpiredSession cfg now w (answers w)).2 = true then 1 else 0) ∧
    (n.tick cfg now order answers idle).table.heap.lookup w =
      (n.table.heap.lookup w).map (fun s =>
        if w ∈ (n.table.visited order).map Prod.fst ∧ (n.paths w).broken now = true
          then { s with endpointLearned := false } else s) := by
  unfold tick
  simp only
  -- what comes after the sessions had their turns
  have hend : ∀ m : WireNode, ∃ sent,
      Shows now w m ((m.setClocks (m.clocks.seed m.hasPeers now)).maybeIdleProbe cfg now idle) sent ∧
      (∀ e ∈ sent, PathEvent.ofSending e = true) ∧
      ((m.setClocks (m.clocks.seed m.hasPeers now)).maybeIdleProbe cfg now idle).table = m.table := by
    intro m
    have hseeded : Shown PathEvent.ofSending now w m
        (m.setClocks (m.clocks.seed m.hasPeers now)) := .of_eq rfl rfl
    obtain ⟨sent, hshows, hkind⟩ := hseeded.trans (shown_maybeIdleProbe idle w)
    exact ⟨sent, hshows, hkind, (sends_maybeIdleProbe idle).table⟩
  by_cases hvisited : w ∈ (n.table.visited order).map Prod.fst
  · obtain ⟨before, later, hids⟩ := List.append_of_mem hvisited
    have hnodup := hinv.nodup_visited order
    rw [hids] at hnodup
    have hbefore : w ∉ before := by
      intro hw
      exact List.disjoint_of_nodup_append hnodup hw List.mem_cons_self
    have hlater : w ∉ later := (List.nodup_cons.mp (List.Nodup.of_append_right hnodup)).1
    simp only [hvisited, true_and]
    rw [hids, List.foldl_append, List.foldl_cons]
    -- nothing happens to the session before its own turn and after it
    have hapart : Apart w n (before.foldl (tickSession cfg now answers) n) :=
      apart_foldl_tickSession answers hbefore
    generalize before.foldl (tickSession cfg now answers) n = n₁ at hapart
    obtain ⟨⟨rest, hshows, hkind, hcount⟩, hsession⟩ := shows_tickSession cfg now answers n₁ w
    have hapart' : Apart w (n₁.tickSession cfg now answers w)
        (later.foldl (tickSession cfg now answers) (n₁.tickSession cfg now answers w)) :=
      apart_foldl_tickSession answers hlater
    obtain ⟨sent, hsent, hsending, htable⟩ :=
      hend (later.foldl (tickSession cfg now answers) (n₁.tickSession cfg now answers w))
    rw [hapart.path] at hshows hsession
    rw [hapart.rearms] at hcount
    refine ⟨⟨rest ++ sent, ?_, ?_, ?_⟩, ?_⟩
    · have hall := (hapart.shows.trans hshows).trans (hapart'.shows.trans hsent)
      simpa only [List.nil_append, List.append_assoc] using hall
    · intro e he
      rcases List.mem_append.mp he with he | he
      · exact hkind e he
      · exact PathEvent.ofTimer_of_ofSending (hsending e he)
    · rw [List.countP_append, hcount, PathEvent.countP_isRearm_of_ofSending hsending, Nat.add_zero]
      cases (n.maybeRearmExpiredSession cfg now w (answers w)).2 <;> rfl
    · rw [htable, hapart'.session, hsession, hapart.session]
  · simp only [hvisited, false_and, if_false]
    have hapart : Apart w n
        (((n.table.visited order).map Prod.fst).foldl (tickSession cfg now answers) n) :=
      apart_foldl_tickSession answers hvisited
    generalize ((n.table.visited order).map Prod.fst).foldl (tickSession cfg now answers) n = n₁
      at hapart
    obtain ⟨sent, hsent, hsending, htable⟩ := hend n₁
    refine ⟨⟨sent, hapart.shows.trans hsent, fun e he => PathEvent.ofTimer_of_ofSending (hsending e he),
      PathEvent.countP_isRearm_of_ofSending hsending⟩, ?_⟩
    rw [htable, hapart.session, Option.map_id']

end WireNode

end ServiceMesh
