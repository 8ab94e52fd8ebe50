import ServiceMesh.StreamIdentity
import ServiceMesh.ThreadSteps

/-! What a subscriber is left with once all threads are done. The last event about a peer is true
of the roster unless some thread still has to broadcast, as long as nobody broadcasts a copy that
the roster has moved away from. -/

namespace ServiceMesh

open StdNet (Ipv6Addr SocketAddr)

def PeerEvent.about (id : String) (event : PeerEvent) : Bool := (event.kindFor id).isSome

def latest (id : String) (events : List PeerEvent) : Option PeerEvent :=
  (events.filter (PeerEvent.about id)).getLast?

variable {id : String} {event : PeerEvent} {events : List PeerEvent}

theorem about_eq_false (h : event.kindFor id = none) : event.about id = false := by
  rw [PeerEvent.about, h]
  rfl

theorem latest_append_of_not {new : List PeerEvent} (h : ∀ event ∈ new, event.about id = false) :
    latest id (events ++ new) = latest id events := by
  have hnone : new.filter (PeerEvent.about id) = [] := by
    rw [List.filter_eq_nil_iff]
    intro event he
    rw [h event he]
    exact Bool.false_ne_true
  rw [latest, List.filter_append, hnone, List.append_nil, latest]

theorem latest_append_cons {new : List PeerEvent} (hevent : event.about id = true)
    (h : ∀ event ∈ new, event.about id = false) :
    latest id (events ++ event :: new) = some event := by
  rw [List.append_cons, latest_append_of_not h, latest, List.filter_append,
    List.filter_cons_of_pos hevent]
  simp

theorem latest_of_getElem {k : Nat} (hk : events[k]? = some event)
    (hevent : event.about id = true) (h : ∀ later ∈ events.drop (k + 1), later.about id = false) :
    latest id events = some event := by
  obtain ⟨hlt, hget⟩ := List.getElem?_eq_some_iff.mp hk
  have hsplit : events = events.take k ++ event :: events.drop (k + 1) := by
    rw [← hget, List.getElem_cons_drop, List.take_append_drop]
  rw [hsplit]
  exact latest_append_cons hevent h

theorem PeerEvent.peerId_of_info {info : PeerInfo} (h : event.about id = true)
    (hinfo : event.info = some info) : info.peerId = id := by
  cases event with
  | added shown | updated shown =>
    obtain rfl : shown = info := Option.some.inj hinfo
    by_contra hne
    simp [about, kindFor, hne] at h
  | removed | holePunch | relayWake => cases hinfo

theorem PeerEvent.about_of_info {info : PeerInfo} (h : event.info = some info) :
    event.about info.peerId = true := by
  cases event with
  | added shown | updated shown =>
    obtain rfl : shown = info := Option.some.inj h
    simp [about, kindFor]
  | removed | holePunch | relayWake => cases h

theorem about_of_latest (h : latest id events = some event) : event.about id = true := by
  have hmem := List.mem_of_getLast? h
  exact (List.mem_filter.mp hmem).2

def Deed.frames (handle : Nat) : Deed → List PeerEvent
  | .opened handle' frames => if handle' = handle then frames else []
  | .polled handle' frame => if handle' = handle then frame.toList else []
  | _ => []

def Deed.lags : Deed → Option Nat
  | .lagged handle => some handle
  | _ => Option.none

def received (handle : Nat) (tr : List (Move × Deed)) : List PeerEvent :=
  tr.reverse.flatMap (fun x => x.2.frames handle)

theorem received_cons (handle : Nat) (x : Move × Deed) (tr : List (Move × Deed)) :
    received handle (x :: tr) = received handle tr ++ x.2.frames handle := by
  simp [received]

section

variable [Crates]

namespace Process

abbrev coordinator (p : Process) : Coordinator := p.shared.coordinator

def log (p : Process) : List PeerEvent := p.coordinator.broadcaster

def Agrees (p : Process) (info : PeerInfo) : Prop :=
  ∃ e ∈ p.coordinator.roster.values,
    e.peerId.toString = info.peerId ∧ e.ula.toString = info.ula ∧ e.tags = info.tags

def Owed (p : Process) (id : String) : Prop :=
  ∃ t ∈ p.threads, t.owes.map Uuid.toString = some id

def Evicting (p : Process) (id : String) : Prop :=
  ∃ t ∈ p.threads, t.evicts.map Uuid.toString = some id

/-- Nothing that is true of the peer is missing from the log for good. -/
def Current (p : Process) (info : PeerInfo) : Prop :=
  (p.Agrees info ∨ p.Owed info.peerId) ∧ ¬ p.Evicting info.peerId

def Holds (p : Process) (position : Nat) (info : PeerInfo) : Prop :=
  (∃ event ∈ p.log.drop position, event.about info.peerId = true) ∨ p.Current info

instance (p : Process) (info : PeerInfo) : Decidable (p.Agrees info) :=
  inferInstanceAs (Decidable (∃ e ∈ p.coordinator.roster.values,
    e.peerId.toString = info.peerId ∧ e.ula.toString = info.ula ∧ e.tags = info.tags))

instance (p : Process) (id : String) : Decidable (p.Evicting id) :=
  inferInstanceAs (Decidable (∃ t ∈ p.threads, t.evicts.map Uuid.toString = some id))

end Process

def Thread.subscribes : Thread → Bool
  | .stream (.subscribe _) => true
  | _ => false

/-- A copy of an entry is broadcast only while the roster still has its address and tags and the
peer is not being evicted, and nobody subscribes between the broadcast of an eviction and the
removal. -/
def Timely (p : Process) : Move → Prop
  | .start _ => True
  | .advance handle _ =>
    match p.threads[handle]? with
    | none => True
    | some t =>
      (∀ info ∈ t.broadcasts.bind PeerEvent.info, p.Agrees info ∧ ¬ p.Evicting info.peerId) ∧
      (t.subscribes = true → ∀ t' ∈ p.threads, t'.evicts = none)

instance (p : Process) : (move : Move) → Decidable (Timely p move)
  | .start _ => .isTrue trivial
  | .advance handle amb =>
    match h : p.threads[handle]? with
    | none => .isTrue (by simp only [Timely, h])
    | some t =>
      decidable_of_iff
        ((∀ info ∈ t.broadcasts.bind PeerEvent.info, p.Agrees info ∧ ¬ p.Evicting info.peerId) ∧
          (t.subscribes = true → ∀ t' ∈ p.threads, t'.evicts = none))
        (by simp only [Timely, h])

namespace Thread

theorem owes_step {t : Thread} {id : Uuid} (h : t.owes = some id) (amb : Ambient) (s : Shared) :
    (∃ event, t.broadcasts = some event ∧ event.about id.toString = true) ∨
      (t.step amb s).2.owes = some id := by
  cases t with
  | enrol r pc =>
    cases pc with
    | announceMove peerId oldTags entry =>
      obtain rfl : peerId = id := Option.some.inj h
      exact .inl ⟨_, rfl, by simp [PeerEvent.about, PeerEvent.kindFor]⟩
    | announceRefreshed peerId entry =>
      obtain rfl : entry.peerId = id := Option.some.inj h
      have hinfo : (PeerEvent.updated entry.toInfo).info = some entry.toInfo := rfl
      exact .inl ⟨_, rfl, PeerEvent.about_of_info hinfo⟩
    | announceJoined peerId entry =>
      obtain rfl : entry.peerId = id := Option.some.inj h
      have hinfo : (PeerEvent.added entry.toInfo).info = some entry.toInfo := rfl
      exact .inl ⟨_, rfl, PeerEvent.about_of_info hinfo⟩
    | seed peerId entry => exact .inr h
    | _ => cases h
  | leave reason peerId pc rest reply =>
    cases pc with
    | announce tags =>
      obtain rfl : peerId = id := Option.some.inj h
      exact .inl ⟨_, rfl, by simp [PeerEvent.about, PeerEvent.kindFor]⟩
    | _ => cases h
  | _ => cases h

omit [Crates] in
theorem evicts_leaveAll (reason : LeaveReason) (reply : Reply) (rest : List Uuid) :
    (leaveAll reason reply rest).evicts = none := by
  cases rest <;> rfl

theorem evicts_step {t : Thread} {amb : Ambient} {s : Shared} {id : Uuid}
    (h : (t.step amb s).2.evicts = some id) :
    ∃ tags, t.broadcasts = some (.removed id.toString tags) := by
  cases t with
  | enrol r pc =>
    cases pc with
    | announceEvicted holderId tags leftAt =>
      obtain rfl : holderId = id := Option.some.inj h
      exact ⟨tags, rfl⟩
    | _ =>
      simp only [step, EnrolPc.step] at h
      repeat' split at h
      all_goals cases h
  | beat b pc =>
    cases pc with
    | punch snapshot now candidates => cases candidates <;> cases h
    | _ =>
      simp only [step, BeatPc.step] at h
      repeat' split at h
      all_goals cases h
  | leave reason peerId pc rest reply =>
    cases pc with
    | find =>
      simp only [step, LeavePc.step] at h
      split at h
      · rw [evicts_leaveAll] at h
        cases h
      · cases h
    | persist =>
      change (leaveAll reason reply rest).evicts = some id at h
      rw [evicts_leaveAll] at h
      cases h
    | _ => cases h
  | listStale =>
    change (leaveAll .timeout .done _).evicts = some id at h
    rw [evicts_leaveAll] at h
    cases h
  | resync peers => cases peers <;> cases h
  | stream pc =>
    cases pc with
    | findViewer peerId =>
      simp only [step, StreamPc.step] at h
      split at h <;> cases h
    | _ => cases h
  | arrive | replacePolicy =>
    simp only [step] at h
    split at h <;> cases h
  | _ => cases h

end Thread

namespace Process

def after (p : Process) (handle : Nat) (t : Thread) (amb : Ambient) : Process :=
  ⟨(t.step amb p.shared).1, p.threads.set handle (t.step amb p.shared).2⟩

variable {p : Process} {handle : Nat} {t : Thread}

theorem mem_after (ht : p.threads[handle]? = some t) (amb : Ambient) {u : Thread}
    (hu : u ∈ p.threads) : u = t ∨ u ∈ (p.after handle t amb).threads := by
  obtain ⟨k, hk⟩ := List.mem_iff_getElem?.mp hu
  by_cases hkh : k = handle
  · subst hkh
    exact .inl (Option.some.inj (hk.symm.trans ht))
  · right
    refine List.mem_of_getElem? (i := k) ?_
    rw [after, List.getElem?_set_ne (Ne.symm hkh)]
    exact hk

theorem next_mem_after (ht : p.threads[handle]? = some t) (amb : Ambient) :
    (t.step amb p.shared).2 ∈ (p.after handle t amb).threads := by
  obtain ⟨hlt, -⟩ := List.getElem?_eq_some_iff.mp ht
  exact List.mem_of_getElem? (List.getElem?_set_self hlt)

theorem of_mem_after {amb : Ambient} {u : Thread} (hu : u ∈ (p.after handle t amb).threads) :
    u ∈ p.threads ∨ u = (t.step amb p.shared).2 :=
  List.mem_or_eq_of_mem_set hu

theorem log_after (p : Process) (handle : Nat) (t : Thread) (amb : Ambient) :
    ∃ new, (p.after handle t amb).log = p.log ++ (t.broadcasts.toList ++ new) ∧
      ∀ event ∈ new, event.AboutNoPeer :=
  t.step_tells amb p.shared

theorem evicting_after {amb : Ambient} {id : String} (h : (p.after handle t amb).Evicting id) :
    p.Evicting id ∨ ∃ tags, t.broadcasts = some (.removed id tags) := by
  obtain ⟨u, hu, hid⟩ := h
  rcases of_mem_after hu with hu | rfl
  · exact .inl ⟨u, hu, hid⟩
  · obtain ⟨holder, hevicts, rfl⟩ := Option.map_eq_some_iff.mp hid
    exact .inr (Thread.evicts_step hevicts)

theorem owed_after (ht : p.threads[handle]? = some t) {id : String} (h : p.Owed id)
    (hquiet : ∀ event ∈ t.broadcasts, event.about id = false) (amb : Ambient) :
    (p.after handle t amb).Owed id := by
  obtain ⟨u, hu, hid⟩ := h
  rcases mem_after ht amb hu with rfl | hu
  · obtain ⟨peer, howes, rfl⟩ := Option.map_eq_some_iff.mp hid
    rcases Thread.owes_step howes amb p.shared with ⟨event, hevent, habout⟩ | hnext
    · rw [hquiet event hevent] at habout
      cases habout
    · exact ⟨_, next_mem_after ht amb, by rw [hnext, Option.map_some]⟩
  · exact ⟨u, hu, hid⟩

theorem agrees_after (hkeyed : ∀ {id e}, p.coordinator.roster.lookup id = some e → e.peerId = id)
    (ht : p.threads[handle]? = some t) {info : PeerInfo} (h : p.Agrees info)
    (hevict : ¬ p.Evicting info.peerId) (amb : Ambient) :
    (p.after handle t amb).Agrees info ∨ (p.after handle t amb).Owed info.peerId := by
  obtain ⟨e, he, hid, hula, htags⟩ := h
  obtain ⟨id, hlookup⟩ := AList.mem_values_iff.mp he
  have hpeer : e.peerId = id := hkeyed hlookup
  have howed : (t.step amb p.shared).2.owes = some id →
      (p.after handle t amb).Owed info.peerId := by
    intro howes
    refine ⟨_, next_mem_after ht amb, ?_⟩
    rw [howes, Option.map_some, ← hpeer, hid]
  have hstep := t.step_lookup amb p.shared id
  have hbefore : p.shared.coordinator.roster.lookup id = some e := hlookup
  rw [hbefore] at hstep
  generalize hafter : (t.step amb p.shared).1.coordinator.roster.lookup id = entry at hstep
  have hagrees : ∀ e', entry = some e' → e'.peerId = e.peerId → e'.ula = e.ula → e'.tags = e.tags →
      (p.after handle t amb).Agrees info := by
    intro e' he' hpeerId hula' htags'
    rw [he'] at hafter
    refine ⟨e', AList.lookup_mem_values hafter, ?_, ?_, ?_⟩
    · rw [hpeerId, hid]
    · rw [hula', hula]
    · rw [htags', htags]
  cases hstep with
  | kept hsame =>
    obtain ⟨e', he', hstanding⟩ := Option.map_eq_some_iff.mp hsame
    exact .inl (hagrees e' he' (congrArg Standing.peerId hstanding)
      (congrArg Standing.ula hstanding) (congrArg Standing.tags hstanding))
  | beaten _ hstanding =>
    exact .inl (hagrees _ rfl (congrArg Standing.peerId hstanding)
      (congrArg Standing.ula hstanding) (congrArg Standing.tags hstanding))
  | refreshed howes =>
    right
    rcases howes with howes | howes
    · exact howed (hpeer ▸ howes)
    · exact howed howes
  | inserted howes | left howes => exact .inr (howed howes)
  | evicted =>
    refine absurd ⟨_, List.mem_of_getElem? ht, ?_⟩ hevict
    rw [← hid, hpeer]
    rfl

theorem current_after (hkeyed : ∀ {id e}, p.coordinator.roster.lookup id = some e → e.peerId = id)
    (ht : p.threads[handle]? = some t) {info : PeerInfo} (h : p.Current info)
    (hquiet : ∀ event ∈ t.broadcasts, event.about info.peerId = false) (amb : Ambient) :
    (p.after handle t amb).Current info := by
  constructor
  · rcases h.1 with hagrees | howed
    · exact agrees_after hkeyed ht hagrees h.2 amb
    · exact .inr (owed_after ht howed hquiet amb)
  · intro hevict
    rcases evicting_after hevict with hevict | ⟨tags, hsaid⟩
    · exact h.2 hevict
    · have habout := hquiet _ hsaid
      simp [PeerEvent.about, PeerEvent.kindFor] at habout

theorem mem_drop_log_after (p : Process) (handle : Nat) (t : Thread) (amb : Ambient)
    {position : Nat} {event : PeerEvent} (h : event ∈ p.log.drop position) :
    event ∈ (p.after handle t amb).log.drop position := by
  obtain ⟨new, hlog, -⟩ := p.log_after handle t amb
  rw [hlog, List.drop_append]
  exact List.mem_append_left _ h

theorem broadcast_mem_drop_log_after {event : PeerEvent} (h : t.broadcasts = some event)
    {position : Nat} (hposition : position ≤ p.log.length) (amb : Ambient) :
    event ∈ (p.after handle t amb).log.drop position := by
  obtain ⟨new, hlog, -⟩ := p.log_after handle t amb
  rw [hlog, h, List.drop_append_of_le_length hposition]
  simp

theorem holds_after (hkeyed : ∀ {id e}, p.coordinator.roster.lookup id = some e → e.peerId = id)
    (ht : p.threads[handle]? = some t) {position : Nat} (hposition : position ≤ p.log.length)
    {info : PeerInfo} (h : p.Holds position info) (amb : Ambient) :
    (p.after handle t amb).Holds position info := by
  rcases h with ⟨event, hevent, habout⟩ | hcurrent
  · exact .inl ⟨event, mem_drop_log_after p handle t amb hevent, habout⟩
  · by_cases hsaid : ∃ event ∈ t.broadcasts, event.about info.peerId = true
    · obtain ⟨event, hevent, habout⟩ := hsaid
      exact .inl ⟨event, broadcast_mem_drop_log_after hevent hposition amb, habout⟩
    · refine .inr (current_after hkeyed ht hcurrent ?_ amb)
      intro event hevent
      by_contra habout
      exact hsaid ⟨event, hevent, Bool.of_not_eq_false habout⟩

theorem latest_current_after
    (hkeyed : ∀ {id e}, p.coordinator.roster.lookup id = some e → e.peerId = id)
    (ht : p.threads[handle]? = some t) (amb : Ambient)
    (htimely : ∀ info ∈ t.broadcasts.bind PeerEvent.info, p.Agrees info ∧ ¬ p.Evicting info.peerId)
    (hlog : ∀ id info, (latest id p.log).bind PeerEvent.info = some info → p.Current info)
    {id : String} {info : PeerInfo}
    (h : (latest id (p.after handle t amb).log).bind PeerEvent.info = some info) :
    (p.after handle t amb).Current info := by
  obtain ⟨new, hnew, hnone⟩ := p.log_after handle t amb
  have hnew' : ∀ event ∈ new, event.about id = false :=
    fun event he => about_eq_false (hnone event he id)
  cases hsaid : t.broadcasts with
  | none =>
    rw [hnew, hsaid, Option.toList_none, List.nil_append, latest_append_of_not hnew'] at h
    refine current_after hkeyed ht (hlog id info h) ?_ amb
    intro event hevent
    rw [hsaid] at hevent
    cases hevent
  | some said =>
    rw [hnew, hsaid, Option.toList_some, List.singleton_append] at h
    by_cases habout : said.about id = true
    · -- the event is the latest now, and it was true when the thread broadcast it
      rw [latest_append_cons habout hnew', Option.bind_some] at h
      obtain ⟨hagrees, hevict⟩ := htimely info (by rw [hsaid, Option.bind_some]; exact h)
      refine ⟨agrees_after hkeyed ht hagrees hevict amb, ?_⟩
      intro hevict'
      rcases evicting_after hevict' with hevict' | ⟨tags, hremoved⟩
      · exact hevict hevict'
      · obtain rfl := Option.some.inj (hsaid.symm.trans hremoved)
        cases h
    · have hquiet : ∀ event ∈ said :: new, event.about id = false := by
        intro event hevent
        rcases List.mem_cons.mp hevent with rfl | hevent
        · exact Bool.of_not_eq_true habout
        · exact hnew' event hevent
      rw [latest_append_of_not hquiet] at h
      obtain ⟨event, hevent, hinfo⟩ := Option.bind_eq_some_iff.mp h
      have hid : info.peerId = id := PeerEvent.peerId_of_info (about_of_latest hevent) hinfo
      refine current_after hkeyed ht (hlog id info h) ?_ amb
      intro other hother
      obtain rfl := Option.some.inj (hsaid.symm.trans hother)
      rw [hid]
      exact Bool.of_not_eq_true habout

end Process

theorem agrees_snapshot {p : Process} {info : PeerInfo} (h : info ∈ p.coordinator.snapshot) :
    p.Agrees info := by
  obtain ⟨e, he, rfl⟩ := List.mem_map.mp h
  have hmem := (List.perm_insertionSort _ p.coordinator.roster.values).mem_iff.mp he
  exact ⟨e, hmem, rfl, rfl, rfl⟩

def Shared.SameStreams (s s' : Shared) : Prop :=
  s'.mesh.streams = s.mesh.streams ∧ s'.mesh.nextHandle = s.mesh.nextHandle

namespace Thread

theorem frame_step (t : Thread) (amb : Ambient) (s : Shared)
    (hattach : ∀ viewer position bootstrap, t ≠ .stream (.attach viewer position bootstrap))
    (hsingle : ∀ op h, t ≠ .single op h) :
    s.SameStreams (t.step amb s).1 := by
  cases t with
  | enrol r pc =>
    cases pc with
    | _ =>
      simp only [step, EnrolPc.step]
      repeat' split
      all_goals exact ⟨rfl, rfl⟩
  | beat b pc =>
    cases pc with
    | punch snapshot now candidates => cases candidates <;> exact ⟨rfl, rfl⟩
    | _ =>
      simp only [step, BeatPc.step]
      repeat' split
      all_goals exact ⟨rfl, rfl⟩
  | leave reason peerId pc rest reply =>
    cases pc with
    | find =>
      simp only [step, LeavePc.step]
      split <;> exact ⟨rfl, rfl⟩
    | _ => exact ⟨rfl, rfl⟩
  | resync peers => cases peers <;> exact ⟨rfl, rfl⟩
  | stream pc =>
    cases pc with
    | findViewer peerId =>
      simp only [step, StreamPc.step]
      split <;> exact ⟨rfl, rfl⟩
    | attach viewer position bootstrap => exact absurd rfl (hattach viewer position bootstrap)
    | _ => exact ⟨rfl, rfl⟩
  | single op h => exact absurd rfl (hsingle op h)
  | arrive | replacePolicy =>
    simp only [step]
    split <;> exact ⟨rfl, rfl⟩
  | _ => exact ⟨rfl, rfl⟩

end Thread

inductive StreamMove (s : Shared) (handle : Nat) : Thread → Stream → Prop
  | kept {t : Thread} {stream : Stream} (hs : s.mesh.streams.lookup handle = some stream)
      (ht : ∀ h, t ≠ .single (.pollStream handle) h) : StreamMove s handle t stream
  | polled {h : (Op.pollStream handle).isSingle = true} {stream : Stream}
      (hs : s.mesh.streams.lookup handle = some stream) :
      StreamMove s handle (.single (.pollStream handle) h) (stream.next s.coordinator).1
  | attached (viewer : Option (Uuid × List String)) (position : Nat) (bootstrap : List PeerInfo)
      (hh : handle = s.mesh.nextHandle) :
      StreamMove s handle (.stream (.attach viewer position bootstrap))
        (Stream.attached s.coordinator viewer position bootstrap).1

theorem Thread.step_stream {t : Thread} {amb : Ambient} {s : Shared} {handle : Nat}
    {stream : Stream} (h : (t.step amb s).1.mesh.streams.lookup handle = some stream) :
    StreamMove s handle t stream := by
  have hframe : (∀ viewer position bootstrap, t ≠ .stream (.attach viewer position bootstrap)) →
      (∀ op h, t ≠ .single op h) → StreamMove s handle t stream := by
    intro hattach hsingle
    rw [(t.frame_step amb s hattach hsingle).1] at h
    exact .kept h (hsingle _)
  cases t with
  | single op hop =>
    have hmove : StreamStep s.mesh handle op stream := Mesh.step_stream h
    cases hmove with
    | kept hs hne =>
      refine .kept hs ?_
      intro h' heq
      cases heq
      exact hne rfl
    | polled hs => exact .polled hs
    | opened => cases hop
  | stream pc =>
    cases pc with
    | attach viewer position bootstrap =>
      change (s.mesh.streams.insert s.mesh.nextHandle _).lookup handle = some stream at h
      rw [AList.lookup_insert_eq_ite] at h
      by_cases hh : handle = s.mesh.nextHandle
      · rw [if_pos hh] at h
        obtain rfl := Option.some.inj h
        exact .attached viewer position bootstrap hh
      · rw [if_neg hh] at h
        exact .kept h (by simp)
    | _ => exact hframe (by simp) (by simp)
  | _ => exact hframe (by simp) (by simp)

theorem Thread.nextHandle_le_step (t : Thread) (amb : Ambient) (s : Shared) :
    s.mesh.nextHandle ≤ (t.step amb s).1.mesh.nextHandle := by
  cases t with
  | single op h => exact s.mesh.nextHandle_le_step op
  | stream pc =>
    cases pc with
    | attach viewer position bootstrap => exact Nat.le_succ _
    | _ => exact (frame_step _ amb s (by simp) (by simp)).2.ge
  | _ => exact (frame_step _ amb s (by simp) (by simp)).2.ge

theorem Thread.deed_frames {t : Thread} {s : Shared} {handle : Nat} {frame : PeerEvent}
    (h : frame ∈ (t.deed s).frames handle) :
    (∃ h, t = .single (.pollStream handle) h ∧ ∃ stream,
      s.mesh.streams.lookup handle = some stream) ∨
      ∃ viewer position bootstrap, t = .stream (.attach viewer position bootstrap) ∧
        handle = s.mesh.nextHandle := by
  have hpresent : ∀ (id : Uuid) (deed : Deed), deed.frames handle = [] →
      (s.ifPresent id deed).frames handle = [] := by
    intro id deed hdeed
    unfold Shared.ifPresent
    split
    · exact hdeed
    · rfl
  unfold deed at h
  split at h
  case h_6 viewer position bootstrap =>
    right
    refine ⟨viewer, position, bootstrap, rfl, ?_⟩
    by_contra hne
    simp [Deed.frames, Ne.symm hne] at h
  case h_7 handle' hop =>
    left
    cases hs : s.mesh.streams.lookup handle' with
    | none => simp [hs, Deed.frames] at h
    | some stream =>
      simp only [hs] at h
      split at h
      · cases h
      · by_cases hh : handle' = handle
        · subst hh
          exact ⟨hop, rfl, stream, hs⟩
        · simp [Deed.frames, hh] at h
  all_goals
    first
      | cases h
      | (rw [hpresent _ _ rfl] at h; cases h)

omit [Crates] in
theorem Thread.leaveAll_ne_stream (reason : LeaveReason) (reply : Reply) (rest : List Uuid)
    (pc : StreamPc) : leaveAll reason reply rest ≠ .stream pc := by
  cases rest <;> exact Thread.noConfusion

theorem Thread.stream_of_step {t : Thread} {amb : Ambient} {s : Shared} {pc : StreamPc}
    (h : (t.step amb s).2 = .stream pc) : ∃ pc₀, t = .stream pc₀ ∧ (pc₀.step s).2 = .stream pc := by
  cases t with
  | stream pc₀ => exact ⟨pc₀, rfl, h⟩
  | enrol r pc =>
    cases pc with
    | _ =>
      simp only [step, EnrolPc.step] at h
      repeat' split at h
      all_goals cases h
  | beat b pc =>
    cases pc with
    | punch snapshot now candidates => cases candidates <;> cases h
    | _ =>
      simp only [step, BeatPc.step] at h
      repeat' split at h
      all_goals cases h
  | leave reason peerId pc rest reply =>
    cases pc with
    | find =>
      simp only [step, LeavePc.step] at h
      split at h
      · exact absurd h (leaveAll_ne_stream _ _ _ _)
      · cases h
    | persist => exact absurd h (leaveAll_ne_stream _ _ _ _)
    | _ => cases h
  | listStale => exact absurd h (leaveAll_ne_stream _ _ _ _)
  | resync peers => cases peers <;> cases h
  | arrive | replacePolicy =>
    simp only [step] at h
    split at h <;> cases h
  | _ => cases h

theorem Thread.snapshot_of_step {t : Thread} {amb : Ambient} {s : Shared}
    {viewer : Option (Uuid × List String)} {position : Nat}
    (h : (t.step amb s).2 = .stream (.snapshot viewer position)) :
    t = .stream (.subscribe viewer) ∧ position = s.coordinator.broadcaster.length := by
  obtain ⟨pc₀, rfl, hpc⟩ := stream_of_step h
  cases pc₀ with
  | findViewer peerId =>
    simp only [StreamPc.step] at hpc
    split at hpc <;> cases hpc
  | subscribe viewer' =>
    cases hpc
    exact ⟨rfl, rfl⟩
  | snapshot | attach => cases hpc

theorem Thread.attach_of_step {t : Thread} {amb : Ambient} {s : Shared}
    {viewer : Option (Uuid × List String)} {position : Nat} {bootstrap : List PeerInfo}
    (h : (t.step amb s).2 = .stream (.attach viewer position bootstrap)) :
    t = .stream (.snapshot viewer position) ∧ bootstrap = s.coordinator.snapshot := by
  obtain ⟨pc₀, rfl, hpc⟩ := stream_of_step h
  cases pc₀ with
  | findViewer peerId =>
    simp only [StreamPc.step] at hpc
    split at hpc <;> cases hpc
  | snapshot viewer' position' =>
    cases hpc
    exact ⟨rfl, rfl⟩
  | subscribe | attach => cases hpc

namespace ViewerFilter

theorem not_about_of_quiet {f : ViewerFilter} (hself : f.viewerId.toString ∉ f.revealed)
    {c : Coordinator} {event : PeerEvent} {id : String} (hid : id ∈ f.revealed)
    (hquiet : (f.apply c event).2.bind (PeerEvent.kindFor id) = none) : event.about id = false := by
  have hinfo : ∀ info : PeerInfo, (f.applyInfo c info).2.bind (PeerEvent.kindFor id) = none →
      info.peerId ≠ id := by
    intro info hnone heq
    subst heq
    have hne : info.peerId ≠ f.viewerId.toString := fun hc => hself (hc ▸ hid)
    unfold applyInfo at hnone
    by_cases hsee : c.viewerCanSee f.viewerTags info.tags = true
    · simp [hne, hsee, hid, PeerEvent.kindFor] at hnone
    · simp [hne, hsee, hid, PeerEvent.kindFor] at hnone
  cases event with
  | added info => simp [PeerEvent.about, PeerEvent.kindFor, hinfo info hquiet]
  | updated info => simp [PeerEvent.about, PeerEvent.kindFor, hinfo info hquiet]
  | removed peerId tags =>
    by_cases heq : peerId = id
    · subst heq
      simp [apply, hid, PeerEvent.kindFor] at hquiet
    · simp [PeerEvent.about, PeerEvent.kindFor, heq]
  | holePunch | relayWake => rfl

theorem apply_info {f : ViewerFilter} {c : Coordinator} {event : PeerEvent} {id : String}
    (h : id ∈ (f.apply c event).1.revealed) :
    (id ∈ f.revealed ∧ (f.apply c event).2.bind (PeerEvent.kindFor id) = none) ∨
      ∃ frame info, (f.apply c event).2 = some frame ∧ frame.about id = true ∧
        frame.info = some info ∧ event.info = some info := by
  have htells := f.apply_tells c event id
  cases hkind : (f.apply c event).2.bind (PeerEvent.kindFor id) with
  | none =>
    rw [hkind] at htells
    exact .inl ⟨htells.mp h, rfl⟩
  | some kind =>
    rw [hkind] at htells
    obtain ⟨frame, hframe, hfor⟩ := Option.bind_eq_some_iff.mp hkind
    have habout : frame.about id = true := by rw [PeerEvent.about, hfor]; rfl
    obtain ⟨info, -, hshown⟩ := PeerEvent.shows_of_kindFor hfor (htells.2.mp h)
    have hpasses := apply_passes hframe
    refine .inr ⟨frame, info, hframe, habout, ?_⟩
    rcases hshown with rfl | rfl
    · rcases hpasses.1 with rfl | rfl
      · exact ⟨rfl, rfl⟩
      · exact ⟨rfl, rfl⟩
    · rcases hpasses.1 with rfl | rfl
      · exact ⟨rfl, rfl⟩
      · exact ⟨rfl, rfl⟩

theorem self_apply {f : ViewerFilter} (hself : f.viewerId.toString ∉ f.revealed)
    (c : Coordinator) (event : PeerEvent) :
    (f.apply c event).1.viewerId.toString ∉ (f.apply c event).1.revealed := by
  have htells := f.apply_tells c event f.viewerId.toString
  rw [apply_not_self hself] at htells
  rw [(f.apply_viewer c event).1]
  exact fun hmem => hself (htells.mp hmem)

theorem applyAll_info {f : ViewerFilter} (hself : f.viewerId.toString ∉ f.revealed)
    (c : Coordinator) (infos : List PeerInfo) (id : String) :
    let f' := (f.applyAll c (infos.map PeerEvent.added)).1
    let frames := (f.applyAll c (infos.map PeerEvent.added)).2
    f'.viewerId.toString ∉ f'.revealed ∧
      (id ∈ f'.revealed → (id ∈ f.revealed ∧ ∀ frame ∈ frames, frame.about id = false) ∨
        ∃ info ∈ infos, (latest id frames).bind PeerEvent.info = some info) := by
  induction infos generalizing f with
  | nil => exact ⟨hself, fun h => .inl ⟨h, by simp [applyAll]⟩⟩
  | cons info infos ih =>
    obtain ⟨hself', hrest⟩ := ih (self_apply hself c (.added info))
    refine ⟨hself', ?_⟩
    intro hmem
    simp only [List.map_cons, applyAll] at hmem ⊢
    rcases hrest hmem with ⟨hbefore, hquiet⟩ | ⟨info', hinfo', hlatest⟩
    · rcases apply_info hbefore with ⟨hfirst, hnone⟩ | ⟨frame, info', hframe, habout, hshown, hevent⟩
      · refine .inl ⟨hfirst, ?_⟩
        intro frame hframe
        rcases List.mem_append.mp hframe with hframe | hframe
        · rw [Option.mem_toList] at hframe
          rw [Option.mem_def.mp hframe, Option.bind_some] at hnone
          exact about_eq_false hnone
        · exact hquiet frame hframe
      · right
        obtain rfl : info = info' := Option.some.inj hevent
        refine ⟨info, List.mem_cons_self, ?_⟩
        have hlast : latest id ([] ++ frame :: _) = some frame := latest_append_cons habout hquiet
        rw [List.nil_append] at hlast
        rw [hframe, Option.toList_some, List.singleton_append, hlast, Option.bind_some, hshown]
    · refine .inr ⟨info', List.mem_cons_of_mem info hinfo', ?_⟩
      obtain ⟨frame, hframe, hshown⟩ := Option.bind_eq_some_iff.mp hlatest
      have hkeep : ∀ head : List PeerEvent, ∀ {rest : List PeerEvent},
          latest id rest = some frame → latest id (head ++ rest) = some frame := by
        intro head rest h
        rw [latest, List.filter_append, List.getLast?_append]
        rw [latest] at h
        rw [h]
        rfl
      rw [hkeep _ hframe, Option.bind_some, hshown]

end ViewerFilter

structure Told (p : Process) (frames : List PeerEvent) (stream : Stream) (f : ViewerFilter) :
    Prop where
  position : stream.cursor ≤ p.log.length
  self : f.viewerId.toString ∉ f.revealed
  revealed : ∀ id ∈ f.revealed, ∃ info, (latest id frames).bind PeerEvent.info = some info ∧
    p.Holds stream.cursor info

structure Faithful (tr : List (Move × Deed)) (p : Process) : Prop where
  keyed : ∀ {id e}, p.coordinator.roster.lookup id = some e → e.peerId = id
  latest : ∀ id info, (latest id p.log).bind PeerEvent.info = some info → p.Current info
  subscribed : ∀ {viewer position}, .stream (.snapshot viewer position) ∈ p.threads →
    position ≤ p.log.length ∧
      ∀ id, p.Evicting id → ∃ event ∈ p.log.drop position, event.about id = true
  attaching : ∀ {viewer position bootstrap},
    .stream (.attach viewer position bootstrap) ∈ p.threads →
    position ≤ p.log.length ∧ ∀ info ∈ bootstrap, p.Holds position info
  allocated : ∀ {handle stream}, p.shared.mesh.streams.lookup handle = some stream →
    handle < p.shared.mesh.nextHandle
  unused : ∀ handle, p.shared.mesh.nextHandle ≤ handle → received handle tr = []
  told : ∀ {handle stream f}, p.shared.mesh.streams.lookup handle = some stream →
    stream.filter = some f → (∀ x ∈ tr, x.2.lags ≠ some handle) →
    Told p (received handle tr) stream f

namespace Faithful

variable {tr : List (Move × Deed)} {p : Process} {handle : Nat} {t : Thread}

theorem length_log_after (p : Process) (handle : Nat) (t : Thread) (amb : Ambient) :
    p.log.length ≤ (p.after handle t amb).log.length := by
  obtain ⟨new, hlog, -⟩ := p.log_after handle t amb
  rw [hlog, List.length_append]
  omega

theorem keyed_after (h : Faithful tr p) (amb : Ambient) {id : Uuid} {e : PeerEntry}
    (he : (p.after handle t amb).coordinator.roster.lookup id = some e) : e.peerId = id := by
  have hstep := t.step_lookup amb p.shared id
  have he' : (t.step amb p.shared).1.coordinator.roster.lookup id = some e := he
  rw [he'] at hstep
  generalize hbefore : p.shared.coordinator.roster.lookup id = entry at hstep
  cases hstep with
  | kept hsame =>
    obtain ⟨e₀, he₀, hstanding⟩ := Option.map_eq_some_iff.mp hsame.symm
    rw [he₀] at hbefore
    have hpeer : e₀.peerId = e.peerId := congrArg Standing.peerId hstanding
    rw [← hpeer]
    exact h.keyed hbefore
  | beaten _ hstanding =>
    have hpeer : e.peerId = _ := congrArg Standing.peerId hstanding
    rw [hpeer]
    exact h.keyed hbefore
  | refreshed =>
    rw [(standing_refreshed _ _ _ _).1]
    exact h.keyed hbefore
  | inserted => rfl

variable {amb : Ambient} {stream : Stream} {f : ViewerFilter}

theorem subscribed_after (h : Faithful tr p)
    (hsubscribe : t.subscribes = true → ∀ u ∈ p.threads, u.evicts = none)
    {viewer : Option (Uuid × List String)} {position : Nat}
    (hmem : .stream (.snapshot viewer position) ∈ (p.after handle t amb).threads) :
    position ≤ (p.after handle t amb).log.length ∧
      ∀ id, (p.after handle t amb).Evicting id →
        ∃ event ∈ (p.after handle t amb).log.drop position, event.about id = true := by
  have hlength := length_log_after p handle t amb
  have hlate : ∀ {id}, position ≤ p.log.length → (p.after handle t amb).Evicting id →
      (p.Evicting id → ∃ event ∈ p.log.drop position, event.about id = true) →
      ∃ event ∈ (p.after handle t amb).log.drop position, event.about id = true := by
    intro id hposition hevict hbefore
    rcases p.evicting_after hevict with hevict | ⟨tags, hsaid⟩
    · obtain ⟨event, hevent, habout⟩ := hbefore hevict
      exact ⟨event, p.mem_drop_log_after handle t amb hevent, habout⟩
    · refine ⟨_, Process.broadcast_mem_drop_log_after hsaid hposition amb, ?_⟩
      simp [PeerEvent.about, PeerEvent.kindFor]
  rcases Process.of_mem_after hmem with hmem | hnext
  · obtain ⟨hposition, hbefore⟩ := h.subscribed hmem
    exact ⟨hposition.trans hlength, fun id hevict => hlate hposition hevict (hbefore id)⟩
  · obtain ⟨rfl, rfl⟩ := Thread.snapshot_of_step hnext.symm
    refine ⟨hlength, fun id hevict => hlate (Nat.le_refl _) hevict ?_⟩
    intro hbefore
    obtain ⟨u, hu, hid⟩ := hbefore
    rw [hsubscribe rfl u hu] at hid
    cases hid

theorem attaching_after (h : Faithful tr p) (ht : p.threads[handle]? = some t)
    {viewer : Option (Uuid × List String)} {position : Nat} {bootstrap : List PeerInfo}
    (hmem : .stream (.attach viewer position bootstrap) ∈ (p.after handle t amb).threads) :
    position ≤ (p.after handle t amb).log.length ∧
      ∀ info ∈ bootstrap, (p.after handle t amb).Holds position info := by
  have hlength := length_log_after p handle t amb
  rcases Process.of_mem_after hmem with hmem | hnext
  · obtain ⟨hposition, hholds⟩ := h.attaching hmem
    exact ⟨hposition.trans hlength,
      fun info hinfo => Process.holds_after h.keyed ht hposition (hholds info hinfo) amb⟩
  · obtain ⟨rfl, rfl⟩ := Thread.attach_of_step hnext.symm
    obtain ⟨hposition, hevicting⟩ := h.subscribed (List.mem_of_getElem? ht)
    refine ⟨hposition.trans hlength, fun info hinfo => ?_⟩
    refine Process.holds_after h.keyed ht hposition ?_ amb
    -- the snapshot is read from the roster; who is being evicted has its removal still to come
    by_cases hevict : p.Evicting info.peerId
    · exact .inl (hevicting _ hevict)
    · exact .inr ⟨.inl (agrees_snapshot hinfo), hevict⟩

theorem frames_eq_nil {other : Nat}
    (hpoll : ∀ h, t ≠ .single (.pollStream other) h) (hlt : other < p.shared.mesh.nextHandle) :
    (t.deed p.shared).frames other = [] := by
  rw [List.eq_nil_iff_forall_not_mem]
  intro frame hframe
  rcases Thread.deed_frames hframe with ⟨hop, rfl, -⟩ | ⟨viewer, position, bootstrap, -, rfl⟩
  · exact hpoll hop rfl
  · exact Nat.lt_irrefl _ hlt

theorem unused_after (h : Faithful tr p) {other : Nat}
    (hother : (p.after handle t amb).shared.mesh.nextHandle ≤ other) (move : Move) :
    received other ((move, t.deed p.shared) :: tr) = [] := by
  have hmono : p.shared.mesh.nextHandle ≤ (p.after handle t amb).shared.mesh.nextHandle :=
    t.nextHandle_le_step amb p.shared
  rw [received_cons, h.unused other (hmono.trans hother), List.nil_append,
    List.eq_nil_iff_forall_not_mem]
  intro frame hframe
  rcases Thread.deed_frames hframe with ⟨-, -, stream, hs⟩ | ⟨viewer, position, bootstrap, rfl, rfl⟩
  · have hlt := h.allocated hs
    omega
  · have hnext : (p.after handle (.stream (.attach viewer position bootstrap)) amb).shared.mesh.nextHandle =
        p.shared.mesh.nextHandle + 1 := rfl
    omega

theorem told_read (h : Faithful tr p) {frames : List PeerEvent} (htold : Told p frames stream f)
    {event : PeerEvent} (hevent : p.log[stream.cursor]? = some event) :
    let read := f.apply p.coordinator event
    Told p (frames ++ read.2.toList) ⟨some read.1, stream.cursor + 1⟩ read.1 := by
  intro read
  obtain ⟨hlt, hget⟩ := List.getElem?_eq_some_iff.mp hevent
  refine ⟨hlt, ViewerFilter.self_apply htold.self _ _, ?_⟩
  intro id hid
  rcases ViewerFilter.apply_info hid with ⟨hbefore, hquiet⟩ | ⟨frame, info, hframe, habout, hshown, hinfo⟩
  · obtain ⟨info, hlatest, hholds⟩ := htold.revealed id hbefore
    obtain ⟨last, hlast, hlastInfo⟩ := Option.bind_eq_some_iff.mp hlatest
    have hpeer : info.peerId = id := PeerEvent.peerId_of_info (about_of_latest hlast) hlastInfo
    have hnew : ∀ frame ∈ read.2.toList, frame.about id = false := by
      intro frame hframe
      have hframe' : read.2 = some frame := Option.mem_toList.mp hframe
      have hkind : read.2.bind (PeerEvent.kindFor id) = none := hquiet
      rw [hframe', Option.bind_some] at hkind
      exact about_eq_false hkind
    refine ⟨info, by rw [latest_append_of_not hnew, hlatest], ?_⟩
    rcases hholds with ⟨later, hlater, hlaterAbout⟩ | hcurrent
    · rw [List.drop_eq_getElem_cons hlt, hget] at hlater
      rcases List.mem_cons.mp hlater with rfl | hlater
      · rw [hpeer, ViewerFilter.not_about_of_quiet htold.self hbefore hquiet] at hlaterAbout
        cases hlaterAbout
      · exact .inl ⟨later, hlater, hlaterAbout⟩
    · exact .inr hcurrent
  · have hpeer : info.peerId = id := PeerEvent.peerId_of_info habout hshown
    have hread : read.2 = some frame := hframe
    refine ⟨info, ?_, ?_⟩
    · rw [hread, Option.toList_some, latest_append_cons habout (by simp), Option.bind_some, hshown]
    · by_cases hlater : ∃ later ∈ p.log.drop (stream.cursor + 1), later.about info.peerId = true
      · exact .inl hlater
      · right
        apply h.latest id
        have heventAbout : event.about id = true := hpeer ▸ PeerEvent.about_of_info hinfo
        rw [latest_of_getElem hevent heventAbout ?_, Option.bind_some, hinfo]
        intro later hmem
        by_contra hc
        exact hlater ⟨later, hmem, hpeer ▸ Bool.of_not_eq_false hc⟩

theorem Told.after (h : Faithful tr p) (ht : p.threads[handle]? = some t)
    {frames : List PeerEvent} (htold : Told p frames stream f) (amb : Ambient) :
    Told (p.after handle t amb) frames stream f := by
  refine ⟨htold.position.trans (length_log_after p handle t amb), htold.self, ?_⟩
  intro id hid
  obtain ⟨info, hlatest, hholds⟩ := htold.revealed id hid
  exact ⟨info, hlatest, Process.holds_after h.keyed ht htold.position hholds amb⟩

theorem next_read {c : Coordinator}
    (hlag : ¬ stream.cursor + peerBroadcastCapacity < c.broadcaster.length)
    (hf : stream.filter = some f) :
    stream.next c = (stream, none) ∨ ∃ event, c.broadcaster[stream.cursor]? = some event ∧
      stream.next c = (⟨some (f.apply c event).1, stream.cursor + 1⟩, (f.apply c event).2) := by
  unfold Stream.next
  rw [if_neg hlag]
  cases hevent : c.broadcaster[stream.cursor]? with
  | none => exact .inl rfl
  | some event =>
    right
    refine ⟨event, rfl, ?_⟩
    simp only [hf]

theorem told_polled (h : Faithful tr p) {other : Nat} (hop : (Op.pollStream other).isSingle = true)
    (hs : p.shared.mesh.streams.lookup other = some stream)
    (hf : (stream.next p.coordinator).1.filter = some f)
    (hlag : ((Thread.single (.pollStream other) hop).deed p.shared).lags ≠ some other)
    (hnolag : ∀ x ∈ tr, x.2.lags ≠ some other) :
    Told p (received other tr ++ ((Thread.single (.pollStream other) hop).deed p.shared).frames other)
      (stream.next p.coordinator).1 f := by
  cases hf₀ : stream.filter with
  | none => rw [Stream.next_unfiltered p.coordinator hf₀] at hf; cases hf
  | some f₀ =>
    have htold := h.told hs hf₀ hnolag
    by_cases hlagging : stream.cursor + peerBroadcastCapacity < p.coordinator.broadcaster.length
    · refine absurd ?_ hlag
      simp only [Thread.deed, hs, if_pos hlagging]
      rfl
    · have hframes : ((Thread.single (.pollStream other) hop).deed p.shared).frames other =
          (stream.next p.coordinator).2.toList := by
        simp only [Thread.deed, hs, if_neg hlagging]
        exact if_pos rfl
      rw [hframes]
      rcases next_read hlagging hf₀ with hnext | ⟨event, hevent, hnext⟩
      · rw [hnext] at hf ⊢
        obtain rfl : f₀ = f := Option.some.inj (hf₀.symm.trans hf)
        rw [Option.toList_none, List.append_nil]
        exact htold
      · rw [hnext] at hf ⊢
        obtain rfl := Option.some.inj hf
        exact told_read h htold hevent

theorem told_attached (h : Faithful tr p) {viewer : Option (Uuid × List String)} {position : Nat}
    {bootstrap : List PeerInfo} (hmem : .stream (.attach viewer position bootstrap) ∈ p.threads)
    (hf : (Stream.attached p.coordinator viewer position bootstrap).1.filter = some f) :
    Told p (Stream.attached p.coordinator viewer position bootstrap).2
      (Stream.attached p.coordinator viewer position bootstrap).1 f := by
  cases viewer with
  | none => cases hf
  | some viewer =>
    obtain ⟨hposition, hholds⟩ := h.attaching hmem
    obtain rfl := Option.some.inj hf
    have hself : (ViewerFilter.mk viewer.1 viewer.2 []).viewerId.toString ∉
        (ViewerFilter.mk viewer.1 viewer.2 []).revealed := by simp
    have hall := ViewerFilter.applyAll_info hself p.coordinator bootstrap
    refine ⟨hposition, (hall "").1, ?_⟩
    intro id hid
    rcases (hall id).2 hid with ⟨hnone, -⟩ | ⟨info, hinfo, hlatest⟩
    · cases hnone
    · exact ⟨info, hlatest, hholds info hinfo⟩

theorem told_after (h : Faithful tr p) (ht : p.threads[handle]? = some t) {move : Move}
    {other : Nat} (hs : (p.after handle t amb).shared.mesh.streams.lookup other = some stream)
    (hf : stream.filter = some f)
    (hlag : ∀ x ∈ (move, t.deed p.shared) :: tr, x.2.lags ≠ some other) :
    Told (p.after handle t amb) (received other ((move, t.deed p.shared) :: tr)) stream f := by
  have hnolag : ∀ x ∈ tr, x.2.lags ≠ some other :=
    fun x hx => hlag x (List.mem_cons_of_mem _ hx)
  have hnow := hlag _ List.mem_cons_self
  rw [received_cons]
  have hmove : StreamMove p.shared other t stream := Thread.step_stream hs
  cases hmove with
  | kept hs₀ hpoll =>
    rw [frames_eq_nil hpoll (h.allocated hs₀), List.append_nil]
    exact Told.after h ht (h.told hs₀ hf hnolag) amb
  | @polled hop stream hs₀ => exact Told.after h ht (told_polled h hop hs₀ hf hnow hnolag) amb
  | attached viewer position bootstrap hh =>
    have hframes : ((Thread.stream (.attach viewer position bootstrap)).deed p.shared).frames other =
        (Stream.attached p.coordinator viewer position bootstrap).2 := if_pos hh.symm
    rw [h.unused other hh.ge, hframes, List.nil_append]
    exact Told.after h ht (told_attached h (List.mem_of_getElem? ht) hf) amb

theorem allocated_after (h : Faithful tr p) {other : Nat}
    (hs : (p.after handle t amb).shared.mesh.streams.lookup other = some stream) :
    other < (p.after handle t amb).shared.mesh.nextHandle := by
  have hmono : p.shared.mesh.nextHandle ≤ (p.after handle t amb).shared.mesh.nextHandle :=
    t.nextHandle_le_step amb p.shared
  have hmove : StreamMove p.shared other t stream := Thread.step_stream hs
  cases hmove with
  | kept hs₀ | polled hs₀ => exact lt_of_lt_of_le (h.allocated hs₀) hmono
  | attached viewer position bootstrap hh =>
    rw [hh]
    exact Nat.lt_succ_self _

theorem advance (h : Faithful tr p) (ht : p.threads[handle]? = some t)
    (htimely : Timely p (.advance handle amb)) (move : Move) :
    Faithful ((move, t.deed p.shared) :: tr) (p.after handle t amb) := by
  simp only [Timely, ht] at htimely
  exact {
    keyed := h.keyed_after amb
    latest := fun id info => Process.latest_current_after h.keyed ht amb htimely.1 h.latest
    subscribed := h.subscribed_after htimely.2
    attaching := h.attaching_after ht
    allocated := h.allocated_after
    unused := fun other hother => h.unused_after hother move
    told := h.told_after ht }

theorem start (h : Faithful tr p) (call : Call) :
    Faithful ((.start call, .none) :: tr) { p with threads := p.threads ++ [call.thread] } := by
  have hthread : call.thread.evicts = none ∧
      (∀ viewer position, call.thread ≠ .stream (.snapshot viewer position)) ∧
      ∀ viewer position bootstrap, call.thread ≠ .stream (.attach viewer position bootstrap) := by
    cases call with
    | heartbeat req observed | deregister peerId =>
      simp only [Call.thread]
      split <;> exact ⟨rfl, by simp, by simp⟩
    | openStream peerId => cases peerId <;> exact ⟨rfl, by simp [Call.thread], by simp [Call.thread]⟩
    | _ => exact ⟨rfl, by simp [Call.thread], by simp [Call.thread]⟩
  obtain ⟨hevicts, hsnapshot, hattach⟩ := hthread
  have hevict : ∀ id, Process.Evicting { p with threads := p.threads ++ [call.thread] } id →
      p.Evicting id := by
    intro id hid
    obtain ⟨u, hu, hid⟩ := hid
    rcases List.mem_append.mp hu with hu | hu
    · exact ⟨u, hu, hid⟩
    · rw [List.mem_singleton.mp hu, hevicts] at hid
      cases hid
  have hcurrent : ∀ info, p.Current info →
      Process.Current { p with threads := p.threads ++ [call.thread] } info := by
    intro info hinfo
    refine ⟨?_, fun hc => hinfo.2 (hevict _ hc)⟩
    rcases hinfo.1 with hagrees | ⟨u, hu, howes⟩
    · exact .inl hagrees
    · exact .inr ⟨u, List.mem_append_left _ hu, howes⟩
  have hholds : ∀ position info, p.Holds position info →
      Process.Holds { p with threads := p.threads ++ [call.thread] } position info :=
    fun position info hinfo => hinfo.imp_right (hcurrent info)
  constructor
  case keyed => exact h.keyed
  case latest => exact fun id info hinfo => hcurrent info (h.latest id info hinfo)
  case subscribed =>
    intro viewer position hmem
    rcases List.mem_append.mp hmem with hmem | hmem
    · obtain ⟨hposition, hbefore⟩ := h.subscribed hmem
      exact ⟨hposition, fun id hid => hbefore id (hevict id hid)⟩
    · exact absurd (List.mem_singleton.mp hmem).symm (hsnapshot viewer position)
  case attaching =>
    intro viewer position bootstrap hmem
    rcases List.mem_append.mp hmem with hmem | hmem
    · obtain ⟨hposition, hbefore⟩ := h.attaching hmem
      exact ⟨hposition, fun info hinfo => hholds position info (hbefore info hinfo)⟩
    · exact absurd (List.mem_singleton.mp hmem).symm (hattach viewer position bootstrap)
  case allocated => exact h.allocated
  case unused =>
    intro other hother
    rw [received_cons, h.unused other hother]
    rfl
  case told =>
    intro other stream f hs hf hlag
    have htold := h.told hs hf (fun x hx => hlag x (List.mem_cons_of_mem _ hx))
    have hframes : received other ((.start call, .none) :: tr) = received other tr := by
      rw [received_cons]
      exact List.append_nil _
    rw [hframes]
    refine ⟨htold.position, htold.self, ?_⟩
    intro id hid
    obtain ⟨info, hlatest, hinfo⟩ := htold.revealed id hid
    exact ⟨info, hlatest, hholds _ info hinfo⟩

theorem step (h : Faithful tr p) {move : Move} (hmove : Timely p move) :
    Faithful ((move, (p.step move).2) :: tr) (p.step move).1 := by
  cases move with
  | start call => exact h.start call
  | advance handle amb =>
    simp only [Process.step]
    cases ht : p.threads[handle]? with
    | none =>
      refine ⟨h.keyed, h.latest, h.subscribed, h.attaching, h.allocated, ?_, ?_⟩
      · intro other hother
        rw [received_cons, h.unused other hother]
        rfl
      · intro other stream f hs hf hlag
        have hframes : received other ((.advance handle amb, .none) :: tr) = received other tr := by
          rw [received_cons]
          exact List.append_nil _
        rw [hframes]
        exact h.told hs hf (fun x hx => hlag x (List.mem_cons_of_mem _ hx))
    | some t => exact h.advance ht hmove (.advance handle amb)

end Faithful

theorem RosterState.keyed_restart (m : RosterState) (now : Nat) (file : Option Nat) {id : Uuid}
    {e : PeerEntry} (h : (m.restart now file).roster.lookup id = some e) : e.peerId = id := by
  have hloop : ∀ (peers : List PeerJoined) (m₀ : RosterState),
      (∀ {id e}, m₀.roster.lookup id = some e → e.peerId = id) →
      ∀ {id e}, (restoreEvents now m₀ peers).roster.lookup id = some e → e.peerId = id := by
    intro peers
    induction peers with
    | nil => exact fun m₀ hm₀ => hm₀
    | cons event peers ih =>
      intro m₀ hm₀
      refine ih _ ?_
      intro id e he
      dsimp only at he
      split at he
      · rename_i m' entry happly
        obtain ⟨-, rfl⟩ := applyPeerJoined_eq_ok happly
        change (m₀.roster.insert entry.peerId entry).lookup id = some e at he
        rw [AList.lookup_insert_eq_ite] at he
        by_cases hid : id = entry.peerId
        · rw [if_pos hid] at he
          rw [← Option.some.inj he, hid]
        · rw [if_neg hid] at he
          exact hm₀ he
      · exact hm₀ he
  have hfresh : ∀ {id e}, (fresh m.rosterStore).roster.lookup id = some e → e.peerId = id := by
    intro id e he
    cases he
  exact hloop _ _ hfresh h

theorem faithful_of_run {cfg : Config} {m : RosterState} {now : Nat} {file : Option Nat}
    {tr : List (Move × Deed)} {p : Process}
    (h : (threads (Mesh.booted cfg m now file)).Run Timely tr p) : Faithful tr p := by
  refine Machine.Run.invariant (I := Faithful) ?_ ?_ h
  · constructor
    case keyed => exact m.keyed_restart now file
    case latest =>
      intro id info hinfo
      cases hinfo
    case subscribed =>
      intro _ _ hmem
      cases hmem
    case attaching =>
      intro _ _ _ hmem
      cases hmem
    case allocated =>
      intro _ _ hs
      cases hs
    case told =>
      intro _ _ _ hs
      cases hs
    case unused => exact fun _ _ => rfl
  · intro tr p move _ hp _ hmove
    exact hp.step hmove

/-- Once every thread is done and a viewer that never lagged has read everything, each peer it
was shown is in the roster, and its last frame has the peer's address and tags. -/
theorem no_ghost_on_stream (cfg : Config) (m : RosterState) (now : Nat) (file : Option Nat)
    {tr : List (Move × Deed)} {p : Process}
    (h : (threads (Mesh.booted cfg m now file)).Run Timely tr p) (hdone : p.Finished)
    {handle : Nat} {stream : Stream} {f : ViewerFilter}
    (hs : p.shared.mesh.streams.lookup handle = some stream) (hf : stream.filter = some f)
    (hlag : ∀ x ∈ tr, x.2.lags ≠ some handle) (hread : stream.cursor = p.log.length) :
    ∀ id ∈ f.revealed, ∃ e ∈ p.coordinator.roster.values, e.peerId.toString = id ∧
      ∃ info, (latest id (received handle tr)).bind PeerEvent.info = some info ∧
        info.ula = e.ula.toString ∧ info.tags = e.tags := by
  intro id hid
  have hfaithful := faithful_of_run h
  obtain ⟨info, hlatest, hholds⟩ := (hfaithful.told hs hf hlag).revealed id hid
  obtain ⟨frame, hframe, hinfo⟩ := Option.bind_eq_some_iff.mp hlatest
  have hpeer : info.peerId = id := PeerEvent.peerId_of_info (about_of_latest hframe) hinfo
  rcases hholds with ⟨event, hevent, -⟩ | ⟨hagrees | ⟨t, ht, howes⟩, -⟩
  · rw [hread, List.drop_length] at hevent
    cases hevent
  · obtain ⟨e, he, heId, hula, htags⟩ := hagrees
    exact ⟨e, he, heId.trans hpeer, info, hlatest, hula.symm, htags.symm⟩
  · have hnone : t.owes = none := by
      cases t with
      | done => rfl
      | _ => cases hdone _ ht
    rw [hnone] at howes
    cases howes

end

def opsConfig : Config := { openConfig with policy := opsPolicy }

attribute [local instance] referenceCrates

def opsBeat (id : Uuid) : HeartbeatRequest :=
  { peerId := id.toString, wgListenPort := none, hostedAppUlas := [], softwareVersion := none,
    meshVersion := none, relayOnly := false, peerPaths := [], dataplaneHealthy := true,
    executedCommandIds := [] }

def opsStart : Mesh := Mesh.booted opsConfig (RosterState.fresh []) 0 none

def runOn (handle steps : Nat) (nowV7 : Uuid) : List Move :=
  List.replicate steps (.advance handle (ambientAt 0 nowV7))

def watchMoves : List Move :=
  [.start (.register (opsRequest keyOne "fd5a:1f02:1::1") none none)] ++ runOn 0 12 1 ++
  [.start (.register (opsRequest keyTwo "fd5a:1f02:2::1") none none)] ++ runOn 1 12 2 ++
  [.start (.openStream (some (Uuid.toString 1)))] ++ runOn 2 4 0

def pollMoves (first count : Nat) : List Move :=
  (List.range count).flatMap fun k =>
    [.start (.single (.pollStream 0) rfl), .advance (first + k) (ambientAt 0 0)]

def ghostMoves : List Move :=
  watchMoves ++ [.start (.heartbeat (opsBeat 2) none)] ++ runOn 3 5 0 ++
  [.start (.deregister (Uuid.toString 2))] ++ runOn 4 4 0 ++ runOn 3 9 0 ++ pollMoves 5 2

def movesRun (moves : List Move) : List (Move × Deed) × Process :=
  (threads opsStart).exec [] ⟨⟨opsStart, false⟩, []⟩ moves

def caughtUp (run : List (Move × Deed) × Process) : Option ViewerFilter :=
  match run.2.shared.mesh.streams.lookup 0 with
  | none => none
  | some stream =>
    if stream.cursor = run.2.log.length ∧ ∀ x ∈ run.1, x.2.lags ≠ some 0 then stream.filter else none

theorem caughtUp_eq_some {run : List (Move × Deed) × Process} {f : ViewerFilter}
    (h : caughtUp run = some f) :
    ∃ stream, run.2.shared.mesh.streams.lookup 0 = some stream ∧ stream.filter = some f ∧
      (∀ x ∈ run.1, x.2.lags ≠ some 0) ∧ stream.cursor = run.2.log.length := by
  unfold caughtUp at h
  split at h
  · cases h
  · rename_i stream hs
    split at h
    · rename_i hread
      exact ⟨stream, hs, h, hread.2, hread.1⟩
    · cases h

theorem deregistered_peer_haunts_stream :
    ∃ tr p, (threads opsStart).Reach tr p ∧ p.Finished ∧ ∃ stream f,
      p.shared.mesh.streams.lookup 0 = some stream ∧ stream.filter = some f ∧
      (∀ x ∈ tr, x.2.lags ≠ some 0) ∧ stream.cursor = p.log.length ∧
      ∃ id ∈ f.revealed, ∀ e ∈ p.coordinator.roster.values, e.peerId.toString ≠ id := by
  have hall : (threads opsStart).Admissible (fun _ _ => True) [] ⟨⟨opsStart, false⟩, []⟩ ghostMoves ∧
      (movesRun ghostMoves).2.Finished ∧
      (caughtUp (movesRun ghostMoves)).map ViewerFilter.revealed = some [Uuid.toString 2] ∧
      ∀ e ∈ (movesRun ghostMoves).2.coordinator.roster.values, e.peerId.toString ≠ Uuid.toString 2 := by
    decide +kernel
  obtain ⟨hadm, hdone, hshown, hgone⟩ := hall
  obtain ⟨f, hf, hrevealed⟩ := Option.map_eq_some_iff.mp hshown
  obtain ⟨stream, hs, hfilter, hlag, hread⟩ := caughtUp_eq_some hf
  have hrun : (threads opsStart).Reach (movesRun ghostMoves).1 (movesRun ghostMoves).2 :=
    Machine.Run.start.exec hadm
  refine ⟨_, _, hrun, hdone, stream, f, hs, hfilter, hlag, hread, Uuid.toString 2, ?_, hgone⟩
  rw [hrevealed]
  exact List.mem_cons_self

def crossingMoves : List Move :=
  [.start (.register (opsRequest keyOne "fd5a:1f02:1::1") none none)] ++ runOn 0 12 1 ++
  [.start (.register (opsRequest keyTwo "fd5a:1f02:2::1") none none)] ++ runOn 1 12 2 ++
  [.start (.heartbeat (opsBeat 2) none)] ++ runOn 2 5 0 ++
  [.start (.openStream (some (Uuid.toString 1)))] ++ runOn 3 3 0 ++ runOn 2 9 0 ++ runOn 3 1 0 ++
  pollMoves 4 1

theorem no_ghost_on_stream_crossing :
    ∃ tr p stream f, (threads opsStart).Run Timely tr p ∧
      p.shared.mesh.streams.lookup 0 = some stream ∧ stream.filter = some f ∧
      Uuid.toString 2 ∈ f.revealed ∧
      ∃ e ∈ p.coordinator.roster.values, e.peerId.toString = Uuid.toString 2 ∧
        ∃ info, (latest (Uuid.toString 2) (received 0 tr)).bind PeerEvent.info = some info ∧
          info.ula = e.ula.toString ∧ info.tags = e.tags := by
  have hall : (threads opsStart).Admissible Timely [] ⟨⟨opsStart, false⟩, []⟩ crossingMoves ∧
      (movesRun crossingMoves).2.Finished ∧
      (caughtUp (movesRun crossingMoves)).map ViewerFilter.revealed = some [Uuid.toString 2] := by
    decide +kernel
  obtain ⟨hadm, hdone, hshown⟩ := hall
  obtain ⟨f, hf, hrevealed⟩ := Option.map_eq_some_iff.mp hshown
  obtain ⟨stream, hs, hfilter, hlag, hread⟩ := caughtUp_eq_some hf
  have hrun : (threads opsStart).Run Timely (movesRun crossingMoves).1 (movesRun crossingMoves).2 :=
    Machine.Run.start.exec hadm
  have hmem : Uuid.toString 2 ∈ f.revealed := by
    rw [hrevealed]
    exact List.mem_cons_self
  exact ⟨_, _, stream, f, hrun, hs, hfilter, hmem, no_ghost_on_stream opsConfig (RosterState.fresh []) 0 none hrun hdone
    hs hfilter hlag hread _ hmem⟩

end ServiceMesh
