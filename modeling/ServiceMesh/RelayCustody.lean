import ServiceMesh.Relay

/-! Where a frame can be in the relay registry. Forwarding and flushing move frames from the
caller or the spool into a channel, back into the spool or nowhere; everything else only loses
connections and frames. -/

namespace ServiceMesh

namespace RelayRegistry

def connAt (r : RelayRegistry) (pubkey : List UInt8) (lane : Lane) : Option LaneConn :=
  (r.conns.lookup pubkey).bind (fun c => c.slot lane)

def queue (r : RelayRegistry) (tx : Nat) : List (List UInt8) :=
  (r.channels[tx]?.map Channel.queue).getD []

def spooled (r : RelayRegistry) (pubkey : List UInt8) : List SpooledFrame :=
  (r.spool.lookup pubkey).getD []

structure Sheds (r r' : RelayRegistry) : Prop where
  conn : ∀ {pubkey lane conn}, r'.connAt pubkey lane = some conn → r.connAt pubkey lane = some conn
  spooled : ∀ pubkey, (r'.spooled pubkey).Sublist (r.spooled pubkey)
  queue : ∀ tx, (r'.queue tx).length ≤ (r.queue tx).length
  channels : r'.channels.length = r.channels.length
  nextId : r'.nextId = r.nextId

namespace Sheds

variable {r r' r'' : RelayRegistry}

theorem of_eq (hconns : r'.conns = r.conns) (hspool : r'.spool = r.spool)
    (hchannels : r'.channels = r.channels) (hid : r'.nextId = r.nextId) : r.Sheds r' where
  conn := by
    intro pubkey lane conn h
    rw [connAt, hconns] at h
    exact h
  spooled := by
    intro pubkey
    rw [RelayRegistry.spooled, hspool]
    exact List.Sublist.refl _
  queue := by
    intro tx
    rw [RelayRegistry.queue, hchannels]
    exact Nat.le_refl _
  channels := by rw [hchannels]
  nextId := hid

theorem refl (r : RelayRegistry) : r.Sheds r := of_eq rfl rfl rfl rfl

theorem trans (h : r.Sheds r') (h' : r'.Sheds r'') : r.Sheds r'' where
  conn := fun hc => h.conn (h'.conn hc)
  spooled := fun pubkey => (h'.spooled pubkey).trans (h.spooled pubkey)
  queue := fun tx => (h'.queue tx).trans (h.queue tx)
  channels := h'.channels.trans h.channels
  nextId := h'.nextId.trans h.nextId

end Sheds

variable (r : RelayRegistry) (now : Nat) (pubkey : List UInt8) (lane : Lane) (cap : Nat)

theorem sheds_conns {conns : DashMap (List UInt8) PeerConns}
    (h : ∀ {pubkey lane conn}, (conns.lookup pubkey).bind (fun c => c.slot lane) = some conn →
      r.connAt pubkey lane = some conn) : r.Sheds { r with conns := conns } where
  conn := h
  spooled := fun _ => List.Sublist.refl _
  queue := fun _ => Nat.le_refl _
  channels := rfl
  nextId := rfl

theorem slot_setSlot_none {c : PeerConns} {lane lane' : Lane} {conn : LaneConn}
    (h : (c.setSlot lane none).slot lane' = some conn) :
    c.slot lane' = some conn ∧ lane' ≠ lane := by
  cases lane with
  | hi =>
    cases lane' with
    | hi => cases h
    | lo => exact ⟨h, by decide⟩
  | lo =>
    cases lane' with
    | hi => exact ⟨h, by decide⟩
    | lo => cases h

theorem connAt_unregister (id : UInt64) {k : List UInt8} {l : Lane} {conn : LaneConn}
    (h : (r.unregister pubkey lane id).connAt k l = some conn) :
    r.connAt k l = some conn ∧ (k = pubkey → l = lane → conn.id ≠ id) := by
  unfold unregister at h
  cases hc : r.conns.lookup pubkey with
  | none =>
    rw [hc] at h
    refine ⟨h, ?_⟩
    intro hk
    rw [connAt, hk, hc] at h
    cases h
  | some c =>
    simp only [hc] at h
    obtain ⟨c', hc', hslot⟩ := Option.bind_eq_some_iff.mp h
    dsimp only at hc'
    generalize hleft : (if (c.slot lane).any (fun conn => conn.id == id) = true
      then c.setSlot lane none else c) = left at hc'
    by_cases hk : k = pubkey
    · subst hk
      split at hc'
      · rw [AList.lookup_erase_eq_ite, if_pos rfl] at hc'
        cases hc'
      · rw [AList.lookup_modify, if_pos rfl, hc, Option.map_some] at hc'
        rw [← Option.some.inj hc', ← hleft] at hslot
        by_cases hmatch : (c.slot lane).any (fun conn => conn.id == id) = true
        · rw [if_pos hmatch] at hslot
          obtain ⟨hold, hne⟩ := slot_setSlot_none hslot
          exact ⟨by rw [connAt, hc]; exact hold, fun _ hl => absurd hl hne⟩
        · rw [if_neg hmatch] at hslot
          refine ⟨by rw [connAt, hc]; exact hslot, ?_⟩
          intro _ hl hid
          apply hmatch
          rw [← hl, hslot, Option.any_some, hid]
          exact beq_self_eq_true id
    · have hsame : r.conns.lookup k = some c' := by
        split at hc'
        · rw [AList.lookup_erase_eq_ite, if_neg hk] at hc'
          exact hc'
        · rw [AList.lookup_modify, if_neg hk] at hc'
          exact hc'
      refine ⟨?_, fun hc => absurd hc hk⟩
      rw [connAt, hsame]
      exact hslot

theorem conns_unregister (id : UInt64) :
    r.unregister pubkey lane id = { r with conns := (r.unregister pubkey lane id).conns } := by
  unfold unregister
  split <;> rfl

theorem sheds_unregister (id : UInt64) : r.Sheds (r.unregister pubkey lane id) := by
  rw [conns_unregister]
  exact r.sheds_conns (fun h => (connAt_unregister r pubkey lane id h).1)

theorem sheds_dropPubkey : r.Sheds (r.dropPubkey pubkey) where
  conn := by
    intro k lane conn h
    rw [connAt, dropPubkey, AList.lookup_erase_eq_ite] at h
    by_cases hk : k = pubkey
    · rw [if_pos hk] at h
      cases h
    · rw [if_neg hk] at h
      exact h
  spooled := by
    intro k
    rw [spooled, dropPubkey, AList.lookup_erase_eq_ite]
    by_cases hk : k = pubkey
    · rw [if_pos hk]
      exact List.nil_sublist _
    · rw [if_neg hk]
      exact List.Sublist.refl _
  queue := fun _ => Nat.le_refl _
  channels := rfl
  nextId := rfl

theorem sheds_reapClosed : r.Sheds r.reapClosed := by
  have live : ∀ {c : PeerConns} {lane : Lane} {conn : LaneConn},
      (PeerConns.mk (r.closedToNone c.hi) (r.closedToNone c.lo)).slot lane = some conn →
      c.slot lane = some conn := by
    intro c lane conn h
    cases lane with
    | hi => exact (Option.filter_eq_some_iff.mp h).1
    | lo => exact (Option.filter_eq_some_iff.mp h).1
  have loop : ∀ (keys : List (List UInt8)) (conns : DashMap (List UInt8) PeerConns)
      {k : List UInt8} {lane : Lane} {conn : LaneConn},
      ((keys.foldl (fun conns k => conns.modify k
        (fun c => ⟨r.closedToNone c.hi, r.closedToNone c.lo⟩)) conns).lookup k).bind
        (fun c => c.slot lane) = some conn →
      (conns.lookup k).bind (fun c => c.slot lane) = some conn := by
    intro keys
    induction keys with
    | nil => exact fun _ _ _ _ h => h
    | cons key keys ih =>
      intro conns k lane conn h
      have hstep := ih _ h
      rw [AList.lookup_modify] at hstep
      by_cases hk : k = key
      · rw [if_pos hk] at hstep
        obtain ⟨c, hc, hslot⟩ := Option.bind_eq_some_iff.mp hstep
        obtain ⟨old, hold, rfl⟩ := Option.map_eq_some_iff.mp hc
        exact Option.bind_eq_some_iff.mpr ⟨old, hold, live hslot⟩
      · rw [if_neg hk] at hstep
        exact hstep
  refine r.sheds_conns ?_
  intro k lane conn h
  obtain ⟨c, hc, hslot⟩ := Option.bind_eq_some_iff.mp h
  have hbefore := AList.lookup_of_lookup_retain hc
  exact loop _ _ (Option.bind_eq_some_iff.mpr ⟨c, hbefore, hslot⟩)

theorem sheds_reapExpiredSpool : r.Sheds (r.reapExpiredSpool now) where
  conn := fun h => h
  spooled := by
    intro k
    have loop : ∀ (keys : List (List UInt8)) (spool : DashMap (List UInt8) (List SpooledFrame)),
        (((keys.foldl (fun spool k => spool.modify k
          (fun q => q.filter (fun sf => decide (now - sf.at_ ≤ spoolTtl)))) spool).lookup k).getD
          []).Sublist ((spool.lookup k).getD []) := by
      intro keys
      induction keys with
      | nil => exact fun _ => List.Sublist.refl _
      | cons key keys ih =>
        intro spool
        refine (ih _).trans ?_
        rw [AList.lookup_modify]
        by_cases hk : k = key
        · rw [if_pos hk]
          cases spool.lookup k with
          | none => exact List.Sublist.refl _
          | some q => exact List.filter_sublist
        · rw [if_neg hk]
    refine List.Sublist.trans ?_ (loop r.spool.keys r.spool)
    rw [spooled, reapExpiredSpool]
    dsimp only
    generalize r.spool.keys.foldl (fun spool k => spool.modify k
      (fun q => q.filter (fun sf => decide (now - sf.at_ ≤ spoolTtl)))) r.spool = fresh
    cases hkept : (fresh.retain (fun _ q => !q.isEmpty)).lookup k with
    | none => exact List.nil_sublist _
    | some q =>
      rw [AList.lookup_of_lookup_retain hkept]
  queue := fun _ => Nat.le_refl _
  channels := rfl
  nextId := rfl

theorem queue_set {tx : Nat} {ch : Channel} (h : r.channels[tx]? = some ch) (ch' : Channel)
    (k : Nat) : ({ r with channels := r.channels.set tx ch' } : RelayRegistry).queue k =
      if k = tx then ch'.queue else r.queue k := by
  obtain ⟨hlt, -⟩ := List.getElem?_eq_some_iff.mp h
  rw [queue, List.getElem?_set]
  by_cases hk : k = tx
  · rw [if_pos hk.symm, if_pos hk, if_pos hlt]
    rfl
  · rw [if_neg (fun hc => hk hc.symm), if_neg hk]
    rfl

theorem sheds_set {tx : Nat} {ch ch' : Channel} (h : r.channels[tx]? = some ch)
    (hle : ch'.queue.length ≤ ch.queue.length) :
    r.Sheds { r with channels := r.channels.set tx ch' } where
  conn := fun hc => hc
  spooled := fun _ => List.Sublist.refl _
  queue := by
    intro k
    rw [queue_set r h]
    by_cases hk : k = tx
    · rw [if_pos hk, hk, RelayRegistry.queue, h]
      exact hle
    · rw [if_neg hk]
  channels := List.length_set
  nextId := rfl

theorem sheds_deliver (tx : Nat) : r.Sheds (r.deliver tx).1 := by
  unfold deliver
  split
  · rename_i cap frame rest closed h
    exact r.sheds_set h (Nat.le_succ _)
  · exact .refl r

theorem sheds_close (tx : Nat) : r.Sheds (r.close tx) := by
  unfold close
  split
  · rename_i ch h
    exact r.sheds_set h (Nat.zero_le _)
  · exact .refl r

/-- The frames `offered` for the key, each with its priority, were taken care of: those in `sent`
entered a channel, in this order, and the others are in the spool or dropped. -/
structure Carries (r : RelayRegistry) (pubkey : List UInt8) (offered : List (Bool × List UInt8))
    (sent : List (Nat × List UInt8)) (r' : RelayRegistry) : Prop where
  conns : r'.conns = r.conns
  nextId : r'.nextId = r.nextId
  channels : r'.channels.length = r.channels.length
  queue : ∀ tx, r'.queue tx = r.queue tx ++ (sent.filter (fun x => x.1 = tx)).map Prod.snd
  conserved : (sent.map Prod.snd ++ (r'.spooled pubkey).map SpooledFrame.frame).Subperm
    ((r.spooled pubkey).map SpooledFrame.frame ++ offered.map Prod.snd)
  others : ∀ k, k ≠ pubkey → r'.spooled k = r.spooled k
  lane : ∀ x ∈ sent, ∃ hiPrio lane conn, (hiPrio, x.2) ∈ offered ∧
    r.connAt pubkey lane = some conn ∧ conn.tx = x.1 ∧ (lane = .hi → hiPrio = true)
  spool : ∀ sf ∈ r'.spooled pubkey, sf ∈ r.spooled pubkey ∨ (sf.hiPrio, sf.frame) ∈ offered
  cap : (r.spooled pubkey).length ≤ spoolCap → (r'.spooled pubkey).length ≤ spoolCap

namespace Carries

variable {r r' r'' : RelayRegistry} {pubkey : List UInt8} {offered offered' : List (Bool × List UInt8)}
  {sent sent' : List (Nat × List UInt8)}

theorem dropped (r : RelayRegistry) (pubkey : List UInt8) (offered : List (Bool × List UInt8)) :
    r.Carries pubkey offered [] r where
  conns := rfl
  nextId := rfl
  channels := rfl
  queue := by simp
  conserved := (List.sublist_append_left _ _).subperm
  others := fun _ _ => rfl
  lane := by simp
  spool := fun _ hsf => .inl hsf
  cap := fun h => h

theorem trans (h : r.Carries pubkey offered sent r') (h' : r'.Carries pubkey offered' sent' r'') :
    r.Carries pubkey (offered ++ offered') (sent ++ sent') r'' where
  conns := h'.conns.trans h.conns
  nextId := h'.nextId.trans h.nextId
  channels := h'.channels.trans h.channels
  queue := by
    intro tx
    rw [h'.queue, h.queue, List.filter_append, List.map_append, List.append_assoc]
  conserved := by
    have hfirst := (List.subperm_append_right (offered'.map Prod.snd)).mpr h.conserved
    have hsecond := (List.subperm_append_left (sent.map Prod.snd)).mpr h'.conserved
    rw [List.append_assoc] at hfirst
    rw [List.map_append, List.map_append, List.append_assoc]
    rw [List.append_assoc] at hfirst
    exact hsecond.trans hfirst
  others := fun k hk => (h'.others k hk).trans (h.others k hk)
  lane := by
    intro x hx
    rcases List.mem_append.mp hx with hx | hx
    · obtain ⟨hiPrio, lane, conn, hoff, hrest⟩ := h.lane x hx
      exact ⟨hiPrio, lane, conn, List.mem_append_left _ hoff, hrest⟩
    · obtain ⟨hiPrio, lane, conn, hoff, hconn, hrest⟩ := h'.lane x hx
      rw [connAt, h.conns] at hconn
      exact ⟨hiPrio, lane, conn, List.mem_append_right _ hoff, hconn, hrest⟩
  spool := by
    intro sf hsf
    rcases h'.spool sf hsf with hsf | hoff
    · rcases h.spool sf hsf with hsf | hoff
      · exact .inl hsf
      · exact .inr (List.mem_append_left _ hoff)
    · exact .inr (List.mem_append_right _ hoff)
  cap := fun hcap => h'.cap (h.cap hcap)

theorem congr (h : r.Carries pubkey offered sent r') (hconns : r''.conns = r'.conns)
    (hspool : r''.spool = r'.spool) (hchannels : r''.channels = r'.channels)
    (hid : r''.nextId = r'.nextId) : r.Carries pubkey offered sent r'' := by
  have hspooled : ∀ k, r''.spooled k = r'.spooled k := by
    intro k
    rw [spooled, hspool, spooled]
  have hqueue : ∀ tx, r''.queue tx = r'.queue tx := by
    intro tx
    rw [RelayRegistry.queue, hchannels, RelayRegistry.queue]
  refine ⟨hconns.trans h.conns, hid.trans h.nextId, ?_, ?_, ?_, ?_, h.lane, ?_, ?_⟩
  · rw [hchannels, h.channels]
  · intro tx
    rw [hqueue, h.queue]
  · rw [hspooled]
    exact h.conserved
  · intro k hk
    rw [hspooled, h.others k hk]
  · rw [hspooled]
    exact h.spool
  · rw [hspooled]
    exact h.cap

end Carries

theorem spooled_pushSpool (hiPrio : Bool) (frame : List UInt8) :
    ∃ kept, (r.pushSpool now pubkey hiPrio frame).spooled pubkey = kept ++ [⟨now, hiPrio, frame⟩] ∧
      kept.Sublist (r.spooled pubkey) ∧
      ((r.spooled pubkey).length ≤ spoolCap → kept.length + 1 ≤ spoolCap) := by
  refine ⟨_, by rw [spooled, pushSpool, AList.lookup_insert, Option.getD_some], ?_, ?_⟩
  · split
    · exact List.drop_sublist 1 _
    · exact List.Sublist.refl _
  · intro hcap
    have hpos : 0 < spoolCap := by decide
    by_cases hfull : spoolCap ≤ (r.spooled pubkey).length
    · have hdrop : ((r.spooled pubkey).drop 1).length + 1 ≤ spoolCap := by
        rw [List.length_drop]
        omega
      rw [spooled] at hfull hdrop
      rw [if_pos hfull]
      exact hdrop
    · have hroom : (r.spooled pubkey).length + 1 ≤ spoolCap := by omega
      rw [spooled] at hfull hroom
      rw [if_neg hfull]
      exact hroom

theorem carries_pushSpool (hiPrio : Bool) (frame : List UInt8) :
    r.Carries pubkey [(hiPrio, frame)] [] (r.pushSpool now pubkey hiPrio frame) := by
  obtain ⟨kept, hkept, hsub, hlen⟩ := r.spooled_pushSpool now pubkey hiPrio frame
  refine ⟨rfl, rfl, rfl, ?_, ?_, ?_, ?_, ?_, ?_⟩
  · intro tx
    exact (List.append_nil _).symm
  · rw [hkept, List.map_append]
    exact ((hsub.map _).append_right _).subperm
  · intro k hk
    rw [spooled, pushSpool, AList.lookup_insert_eq_ite, if_neg hk]
    rfl
  · intro x hx
    cases hx
  · rw [hkept]
    intro sf hsf
    rcases List.mem_append.mp hsf with hsf | hsf
    · exact .inl (hsub.subset hsf)
    · rw [List.mem_singleton.mp hsf]
      exact .inr (List.mem_singleton.mpr rfl)
  · intro hcap
    rw [hkept, List.length_append]
    exact hlen hcap

theorem pick_eq_some {c : PeerConns} {hiPrio : Bool} {tx : Nat} (h : c.pick hiPrio = some tx) :
    ∃ lane conn, c.slot lane = some conn ∧ conn.tx = tx ∧ (lane = .hi → hiPrio = true) := by
  cases hiPrio with
  | true =>
    obtain ⟨conn, hconn, htx⟩ := Option.map_eq_some_iff.mp h
    rcases Option.or_eq_some_iff.mp hconn with hhi | ⟨-, hlo⟩
    · exact ⟨.hi, conn, hhi, htx, fun _ => rfl⟩
    · exact ⟨.lo, conn, hlo, htx, fun _ => rfl⟩
  | false =>
    obtain ⟨conn, hconn, htx⟩ := Option.map_eq_some_iff.mp h
    exact ⟨.lo, conn, hconn, htx, by simp⟩

theorem carries_trySend {pubkey frame : List UInt8} {hiPrio : Bool} {tx : Nat} {ch : Channel}
    (hpick : (r.conns.lookup pubkey).bind (fun c => c.pick hiPrio) = some tx)
    (hch : r.channels[tx]? = some ch) :
    r.Carries pubkey [(hiPrio, frame)] [(tx, frame)]
      { r with channels := r.channels.set tx { ch with queue := ch.queue ++ [frame] } } := by
  obtain ⟨c, hc, hslot⟩ := Option.bind_eq_some_iff.mp hpick
  obtain ⟨lane, conn, hconn, htx, hlane⟩ := pick_eq_some hslot
  have hat : r.connAt pubkey lane = some conn := by
    rw [connAt, hc]
    exact hconn
  refine ⟨rfl, rfl, List.length_set, ?_, ?_, fun _ _ => rfl, ?_, fun _ hsf => .inl hsf,
    fun hcap => hcap⟩
  · intro k
    rw [queue_set r hch]
    by_cases hk : k = tx
    · have hold : r.queue tx = ch.queue := by
        rw [queue, hch]
        rfl
      simp [hk, hold]
    · have hk' : ¬ tx = k := fun hc => hk hc.symm
      simp [hk, hk']
  · exact List.perm_append_comm.subperm
  · intro x hx
    rw [List.mem_singleton.mp hx]
    exact ⟨hiPrio, lane, conn, List.mem_singleton.mpr rfl, hat, htx, hlane⟩

inductive Forwarded (r : RelayRegistry) (now : Nat) (pubkey frame : List UInt8) (hiPrio : Bool) :
    RelayRegistry × Bool → Prop
  | sent {tx : Nat} {ch : Channel}
      (hpick : (r.conns.lookup pubkey).bind (fun c => c.pick hiPrio) = some tx)
      (hch : r.channels[tx]? = some ch) :
      Forwarded r now pubkey frame hiPrio
        ({ r with channels := r.channels.set tx { ch with queue := ch.queue ++ [frame] } }, true)
  | full : Forwarded r now pubkey frame hiPrio (r, false)
  | held (hclosed : ∀ tx, (r.conns.lookup pubkey).bind (fun c => c.pick hiPrio) = some tx →
      r.isClosed tx = true) :
      Forwarded r now pubkey frame hiPrio (r.pushSpool now pubkey hiPrio frame, false)

theorem forward_forwarded (frame : List UInt8) (hiPrio : Bool) :
    r.Forwarded now pubkey frame hiPrio (r.forward now pubkey frame hiPrio) := by
  unfold forward
  cases hpick : (r.conns.lookup pubkey).bind (fun c => c.pick hiPrio) with
  | none =>
    apply Forwarded.held
    intro tx htx
    rw [hpick] at htx
    cases htx
  | some tx =>
    have gone : r.isClosed tx = true →
        r.Forwarded now pubkey frame hiPrio (r.pushSpool now pubkey hiPrio frame, false) := by
      intro hclosed
      apply Forwarded.held
      intro tx' htx'
      rw [hpick] at htx'
      rw [← Option.some.inj htx']
      exact hclosed
    dsimp only
    unfold trySend
    cases hch : r.channels[tx]? with
    | none =>
      apply gone
      rw [isClosed, hch]
    | some ch =>
      dsimp only
      by_cases hclosed : ch.closed = true
      · rw [if_pos hclosed]
        apply gone
        rw [isClosed, hch]
        exact hclosed
      · rw [if_neg hclosed]
        by_cases hfull : ch.cap ≤ ch.queue.length
        · rw [if_pos hfull]
          exact .full
        · rw [if_neg hfull]
          exact .sent hpick hch

theorem forward_carries (frame : List UInt8) (hiPrio : Bool) :
    ∃ sent, r.Carries pubkey [(hiPrio, frame)] sent (r.forward now pubkey frame hiPrio).1 := by
  have hf := r.forward_forwarded now pubkey frame hiPrio
  generalize r.forward now pubkey frame hiPrio = out at hf
  cases hf with
  | sent hpick hch => exact ⟨_, r.carries_trySend hpick hch⟩
  | full => exact ⟨[], .dropped r pubkey _⟩
  | held => exact ⟨[], r.carries_pushSpool now pubkey hiPrio frame⟩

theorem flush_carries (held : List SpooledFrame) :
    ∃ sent, r.Carries pubkey (held.map (fun sf => (sf.hiPrio, sf.frame))) sent
      (r.flush now pubkey held) := by
  induction held generalizing r with
  | nil => exact ⟨[], .dropped r pubkey []⟩
  | cons sf held ih =>
    have hfirst : ∃ sent, r.Carries pubkey [(sf.hiPrio, sf.frame)] sent
        (if now - sf.at_ > spoolTtl then r else (r.forward now pubkey sf.frame sf.hiPrio).1) := by
      by_cases hstale : now - sf.at_ > spoolTtl
      · rw [if_pos hstale]
        exact ⟨[], .dropped r pubkey _⟩
      · rw [if_neg hstale]
        exact r.forward_carries now pubkey sf.frame sf.hiPrio
    obtain ⟨sent, hsent⟩ := hfirst
    obtain ⟨rest, hrest⟩ := ih (if now - sf.at_ > spoolTtl then r
      else (r.forward now pubkey sf.frame sf.hiPrio).1)
    exact ⟨sent ++ rest, hsent.trans hrest⟩

def connected (r : RelayRegistry) (pubkey : List UInt8) (lane : Lane) (cap : Nat) :
    RelayRegistry :=
  { r with
    nextId := r.nextId + 1
    channels := r.channels ++ [⟨cap, [], false⟩]
    conns := r.conns.insert pubkey (((r.conns.lookup pubkey).getD PeerConns.empty).setSlot lane
      (some ⟨r.nextId, r.channels.length⟩))
    spool := r.spool.erase pubkey }

theorem register_eq : r.register now pubkey lane cap =
      ((r.connected pubkey lane cap).flush now pubkey (r.spooled pubkey), r.nextId) := by
  unfold register spooled
  cases hheld : r.spool.lookup pubkey with
  | none =>
    have hsame : r.spool.erase pubkey = r.spool := by
      apply AList.ext
      exact List.kerase_of_notMem_keys (AList.lookup_eq_none.mp hheld)
    rw [connected, hsame]
    rfl
  | some held => rfl

theorem register_carries :
    ∃ sent, (r.connected pubkey lane cap).Carries pubkey
      ((r.spooled pubkey).map (fun sf => (sf.hiPrio, sf.frame))) sent
      (r.register now pubkey lane cap).1 := by
  rw [register_eq]
  exact flush_carries _ now pubkey _

theorem register_id : (r.register now pubkey lane cap).2 = r.nextId := by
  rw [register_eq]

theorem queue_connected (tx : Nat) : (r.connected pubkey lane cap).queue tx = r.queue tx := by
  rw [queue, connected, queue, List.getElem?_append]
  by_cases htx : tx < r.channels.length
  · rw [if_pos htx]
  · have hnone : r.channels[tx]? = none := List.getElem?_eq_none (Nat.le_of_not_lt htx)
    rw [if_neg htx, hnone]
    cases tx - r.channels.length with
    | zero => rfl
    | succ n => rfl

theorem spooled_connected (k : List UInt8) :
    (r.connected pubkey lane cap).spooled k = if k = pubkey then [] else r.spooled k := by
  rw [spooled, connected, AList.lookup_erase_eq_ite]
  by_cases hk : k = pubkey
  · rw [if_pos hk, if_pos hk]
    rfl
  · rw [if_neg hk, if_neg hk]
    rfl

theorem connAt_connected (k : List UInt8) (l : Lane) :
    (r.connected pubkey lane cap).connAt k l =
      if k = pubkey ∧ l = lane then some ⟨r.nextId, r.channels.length⟩ else r.connAt k l := by
  rw [connAt, connected, AList.lookup_insert_eq_ite]
  by_cases hk : k = pubkey
  · subst hk
    rw [if_pos rfl, connAt]
    have hother : ∀ l, ((r.conns.lookup k).getD PeerConns.empty).slot l =
        (r.conns.lookup k).bind (fun c => c.slot l) := by
      intro l
      cases r.conns.lookup k with
      | some c => rfl
      | none => cases l <;> rfl
    rw [← hother l]
    cases lane <;> cases l <;> simp [PeerConns.setSlot, PeerConns.slot]
  · rw [if_neg hk, if_neg (fun hc => hk hc.1)]
    rfl

end RelayRegistry

end ServiceMesh
