import ServiceMesh.OwnAddress
import ServiceMesh.PeerIds
import ServiceMesh.StreamIdentity

/-! A node, the coordinator and the event stream between them. The stream leaves out the peer id it
was opened under; the node takes every record that reaches it for a peer. -/

namespace ServiceMesh

open StdNet (Ipv6Addr SocketAddr)

section

variable [Crates]

def PeerInfo.toRemote (info : PeerInfo) : Option Client.RemotePeer :=
  (Uuid.parseStr info.peerId).toOption.map (fun peerId =>
    ⟨peerId, info.wgPublicKey, info.ula, info.listenEndpoint, info.hostedAppUlas⟩)

def Reply.readPeers : Reply → Option (List Client.RemotePeer)
  | .register (.ok reg) => reg.response.peers.mapM PeerInfo.toRemote
  | .heartbeat (.ok resp) => resp.peers.mapM PeerInfo.toRemote
  | _ => none

def Mesh.heardPeers {α : Type} (s : Mesh) (op : Op) (read : Reply → Except HeartbeatFailure α)
    (fate : Fate) : Option (List Client.RemotePeer) :=
  if (s.post op read fate).2.2.isOk then (s.step op).2.readPeers else none

namespace SessionTable

def seedInitialRoster (lookupHost : LookupHost) (remote : List Client.RemotePeer) : SessionTable :=
  (Client.decodeRoster lookupHost remote).foldl follow .new

def applyFrame (lookupHost : LookupHost) (t : SessionTable) : PeerEvent → SessionTable
  | .added info => info.toRemote.elim t (fun r => t.applyEvent lookupHost (.added r))
  | .updated info => info.toRemote.elim t (fun r => t.applyEvent lookupHost (.updated r))
  | .removed peerId _ =>
    (Uuid.parseStr peerId).toOption.elim t (fun peerId => t.applyEvent lookupHost (.removed peerId))
  | .holePunch _ | .relayWake _ => t

end SessionTable

end

structure Subscription where
  handle : Nat
  pending : List PeerEvent

structure PeerWorld where
  join : JoinWorld
  table : SessionTable
  stream : Option Subscription

inductive PeerMove
  | join (mv : JoinMove) (lookupHost : LookupHost)
  | connect
  | yield
  | receive (lookupHost : LookupHost)
  | disconnect

namespace PeerWorld

variable [Crates] [CommandCrates]

def tableAfter (w : PeerWorld) (lookupHost : LookupHost) : JoinMove → SessionTable
  | .coordinator _ => w.table
  | .start .. | .stop => .new
  | .attempt a =>
    match w.join.stage.request with
    | none => w.table
    | some (req, bearer) =>
      let heard := w.join.server.heardPeers (.register a.amb req bearer a.observed)
        Reply.readRegister a.fate
      match w.join.stage with
      | .joining .. => heard.elim .new (.seedInitialRoster lookupHost)
      | _ => heard.elim w.table (w.table.reconcileRoster lookupHost)
  | .beat amb report observed fate _ _ =>
    match w.join.stage with
    | .up j none =>
      (w.join.server.heardPeers (.heartbeat amb (j.node.request report) observed)
        Reply.readHeartbeat fate).elim w.table (w.table.reconcileRoster lookupHost)
    | _ => w.table

def streamAfter (w : PeerWorld) : JoinMove → Option Subscription
  | .start .. | .stop => none
  | _ => w.stream

def step (w : PeerWorld) : PeerMove → PeerWorld × JoinOutput
  | .join mv lookupHost =>
    (⟨(w.join.step mv).1, w.tableAfter lookupHost mv, w.streamAfter mv⟩, (w.join.step mv).2)
  | .connect =>
    match w.join.stage, w.stream with
    | .up j _, none =>
      let op := .openStream (some j.node.peerId.toString)
      let (server, reply) := w.join.server.step op
      (⟨{ w.join with server := server }, w.table,
        match reply with
        | .opened handle frames => some ⟨handle, frames⟩
        | _ => none⟩, ⟨[(op, reply)], none⟩)
    | _, _ => (w, ⟨[], none⟩)
  | .yield =>
    match w.stream with
    | none => (w, ⟨[], none⟩)
    | some sub =>
      let (server, reply) := w.join.server.step (.pollStream sub.handle)
      (⟨{ w.join with server := server }, w.table,
        some { sub with pending := sub.pending ++ reply.framed.toList }⟩,
        ⟨[(.pollStream sub.handle, reply)], none⟩)
  | .receive lookupHost =>
    match w.stream with
    | some ⟨handle, frame :: rest⟩ =>
      (⟨w.join, w.table.applyFrame lookupHost frame, some ⟨handle, rest⟩⟩, ⟨[], none⟩)
    | _ => (w, ⟨[], none⟩)
  | .disconnect => (⟨w.join, w.table, none⟩, ⟨[], none⟩)

end PeerWorld

def SessionTable.Apart (t : SessionTable) (key : List UInt8) (ula : Ipv6Addr) : Prop :=
  ∀ ula' id s, t.sessionAt ula' = some (id, s) → ula' ≠ ula ∧ s.peerPubkey ≠ key

def PeerWorld.NoSelfSession (w : PeerWorld) : Prop :=
  ∀ j register, w.join.stage = .up j register → w.table.Apart j.inputs.ourPublic j.myUla

def PeerMove.served (tr : List (PeerMove × JoinOutput)) : List (Op × Reply) :=
  tr.flatMap (fun x => x.2.served)

section

variable [Crates]

def PeerMove.Fresh (log : List (Op × Reply)) : PeerMove → Prop
  | .join mv _ => mv.Fresh log
  | _ => True

def peerWorld [CommandCrates] (cfg : Config) (disk : Disk) :
    Machine PeerWorld PeerMove JoinOutput where
  init := ⟨⟨Mesh.init cfg, disk, .down⟩, .new, none⟩
  step := PeerWorld.step
  admits tr mv := mv.Fresh (PeerMove.served tr)

structure RosterState.Seats (m : RosterState) (id : Uuid) (key : List UInt8) (ula : Ipv6Addr) :
    Prop where
  own : ∀ e, m.roster.lookup id = some e → e.wgPublicKey = key
  address : ∀ id' e, m.roster.lookup id' = some e → e.ula = ula → e.wgPublicKey = key

/-- A register under another key does not come to the node's address. One under the node's key
finds the key in the roster, or no stream of the node open. A restart brings nobody else back under
the node's id or address. -/
def Op.KeepsApart (server : Mesh) (stream : Option Subscription) (j : Joiner) : Op → Prop
  | .register amb req bearer _ =>
    ∀ claims pubkey, server.coordinator.admission amb req bearer = .ok (claims, pubkey) →
      (pubkey ≠ j.inputs.ourPublic → ¬ server.coordinator.Grants amb req bearer j.myUla) ∧
      (pubkey = j.inputs.ourPublic → pubkey ∈ server.coordinator.byPubkey ∨
        ∀ sub, stream = some sub → server.streams.lookup sub.handle = none)
  | .restart _ now file =>
    (server.coordinator.toRosterState.restart now file).Seats j.node.peerId j.inputs.ourPublic
      j.myUla
  | _ => True

def PeerWorld.KeepsApart (w : PeerWorld) : PeerMove → Prop
  | .join (.coordinator op) _ =>
    ∀ j register, w.join.stage = .up j register → op.KeepsApart w.join.server w.stream j
  | .join (.attempt a) _ =>
    ∀ j fallback, w.join.stage = .up j (some fallback) →
      (Op.register a.amb (j.inputs.request j.wgListenPort (j.args fallback)) j.inputs.bearer
        a.observed).KeepsApart w.join.server w.stream j
  | _ => True

end

namespace SessionTable

variable {t : SessionTable} {key : List UInt8} {ula : Ipv6Addr}

theorem apart_new : new.Apart key ula := by
  intro ula' id s hat
  simp [sessionAt, new] at hat

theorem Apart.follow (h : t.Apart key ula) (hinv : t.Inv) {info : Client.PeerInfo}
    (hula : info.ula ≠ ula) (hkey : info.wgPublicKey ≠ key) : (t.follow info).Apart key ula := by
  have hf := hinv.follow_spec info
  intro ula' id s hat
  by_cases hhere : ula' = info.ula
  · obtain ⟨id', s', hat', hkey'⟩ := hf.here
    rw [hhere] at hat ⊢
    obtain ⟨-, rfl⟩ := Prod.mk.inj (Option.some.inj (hat.symm.trans hat'))
    exact ⟨hula, hkey' ▸ hkey⟩
  · obtain ⟨hid, hs⟩ := sessionAt_eq_some_iff.mp hat
    rw [hf.others hhere] at hid
    obtain ⟨s₀, hs₀, -⟩ := hinv.seated hid
    obtain ⟨s', hs', hsame⟩ := hf.sessions hs₀
    obtain rfl := Option.some.inj (hs'.symm.trans hs)
    have hold := h ula' id s₀ (sessionAt_eq_some_iff.mpr ⟨hid, hs₀⟩)
    exact ⟨hold.1, hsame.peerPubkey ▸ hold.2⟩

def AllApart (infos : List Client.PeerInfo) (key : List UInt8) (ula : Ipv6Addr) : Prop :=
  ∀ info ∈ infos, info.ula ≠ ula ∧ info.wgPublicKey ≠ key

theorem Apart.foldl_follow (h : t.Apart key ula) (hsync : t.SyncInv) {infos : List Client.PeerInfo}
    (hinfos : AllApart infos key ula) : (infos.foldl SessionTable.follow t).Apart key ula := by
  induction infos generalizing t with
  | nil => exact h
  | cons info infos ih =>
    obtain ⟨hula, hkey⟩ := hinfos info List.mem_cons_self
    exact ih (h.follow hsync.inv hula hkey) (hsync.follow info)
      (fun i hi => hinfos i (List.mem_cons_of_mem info hi))

theorem Apart.removePeer (h : t.Apart key ula) (hsync : t.SyncInv) (peerId : Uuid) :
    (t.removePeer peerId).Apart key ula := by
  intro ula' id s hat
  rw [hsync.sessionAt_removePeer, Option.filter_eq_some_iff] at hat
  exact h ula' id s hat.1

variable [Crates]

theorem Apart.reconcileRoster (h : t.Apart key ula) (hsync : t.SyncInv) (lookupHost : LookupHost)
    {remote : List Client.RemotePeer}
    (hinfos : AllApart (Client.decodeRoster lookupHost remote) key ula) :
    (t.reconcileRoster lookupHost remote).Apart key ula := by
  intro ula' id s hat
  exact h.foldl_follow hsync hinfos ula' id s ((hsync.foldl_follow _).sessionAt_prune hat)

end SessionTable

section

variable [Crates] {key : List UInt8} {ula : Ipv6Addr}

def PeerInfo.Foreign (info : PeerInfo) (key : List UInt8) (ula : Ipv6Addr) : Prop :=
  ∀ lookupHost r i, info.toRemote = some r → Client.remoteToInfo lookupHost r = .ok i →
    i.ula ≠ ula ∧ i.wgPublicKey ≠ key

def Base64RoundTrip : Prop :=
  ∀ bytes, Crates.base64Decode (Crates.base64Encode bytes) = .ok bytes

theorem PeerEntry.foreign (hbase64 : Base64RoundTrip) {e : PeerEntry} (hula : e.ula ≠ ula)
    (hkey : e.wgPublicKey ≠ key) (connectivity : Option String) (age : Option UInt64) :
    (e.toInfoWithConnectivity connectivity age).Foreign key ula := by
  intro lookupHost r i hr hi
  simp only [PeerInfo.toRemote, PeerEntry.toInfoWithConnectivity, Uuid.parseStr_toString,
    Except.toOption, Option.map_some, Option.some.injEq] at hr
  subst hr
  simp only [Client.remoteToInfo, Client.decodePubkey, hbase64 e.wgPublicKey,
    Ipv6Addr.parse_toString] at hi
  by_cases hlength : e.wgPublicKey.length = 32
  · simp only [hlength, ne_eq, not_true_eq_false, if_false, Except.ok.injEq] at hi
    rw [← hi]
    exact ⟨hula, hkey⟩
  · simp [hlength] at hi

theorem allApart_decodeRoster {peers : List PeerInfo} {remote : List Client.RemotePeer}
    (hread : peers.mapM PeerInfo.toRemote = some remote)
    (hforeign : ∀ info ∈ peers, info.Foreign key ula) (lookupHost : LookupHost) :
    SessionTable.AllApart (Client.decodeRoster lookupHost remote) key ula := by
  induction peers generalizing remote with
  | nil =>
    obtain rfl : remote = [] := by simpa using hread.symm
    intro info hinfo
    simp [Client.decodeRoster] at hinfo
  | cons info peers ih =>
    simp only [List.mapM_cons, Option.bind_eq_bind, Option.bind_eq_some_iff, Option.pure_def,
      Option.some.injEq] at hread
    obtain ⟨r, hr, rest, hrest, rfl⟩ := hread
    intro i hi
    rw [Client.decodeRoster, List.mem_filterMap] at hi
    obtain ⟨r', hr', hi⟩ := hi
    rcases List.mem_cons.mp hr' with rfl | hr'
    · refine hforeign info List.mem_cons_self lookupHost r' i hr ?_
      cases hinfo : Client.remoteToInfo lookupHost r' with
      | error e => simp [hinfo, Except.toOption] at hi
      | ok i' =>
        simp only [hinfo, Except.toOption, Option.some.injEq] at hi
        rw [hi]
    · refine ih hrest (fun info' hinfo' => hforeign info' (List.mem_cons_of_mem info hinfo')) i ?_
      rw [Client.decodeRoster, List.mem_filterMap]
      exact ⟨r', hr', hi⟩

theorem SessionTable.Apart.applyFrame {t : SessionTable} (h : t.Apart key ula) (hsync : t.SyncInv)
    (lookupHost : LookupHost) {frame : PeerEvent}
    (hforeign : ∀ info, frame.info = some info → info.Foreign key ula) :
    (t.applyFrame lookupHost frame).Apart key ula := by
  have hrecord : ∀ (info : PeerInfo) r, info.toRemote = some r → info.Foreign key ula →
      (t.applyEvent lookupHost (.added r)).Apart key ula := by
    intro info r hr hinfo
    simp only [SessionTable.applyEvent]
    split
    · exact h
    · rename_i i hi
      obtain ⟨hula, hkey⟩ := hinfo lookupHost r i hr hi
      exact h.follow hsync.inv hula hkey
  cases frame with
  | added info | updated info =>
    simp only [SessionTable.applyFrame]
    cases hr : info.toRemote with
    | none => exact h
    | some r => exact hrecord info r hr (hforeign info rfl)
  | removed peerId tags =>
    simp only [SessionTable.applyFrame]
    cases (Uuid.parseStr peerId).toOption with
    | none => exact h
    | some id => exact h.removePeer hsync id
  | holePunch | relayWake => exact h

theorem SessionTable.syncInv_applyFrame {t : SessionTable} (hsync : t.SyncInv)
    (lookupHost : LookupHost) (frame : PeerEvent) : (t.applyFrame lookupHost frame).SyncInv := by
  have hevent : ∀ e, (t.applyEvent lookupHost e).SyncInv := fun e => hsync.step (.event lookupHost e)
  cases frame with
  | added info | updated info =>
    simp only [SessionTable.applyFrame]
    cases info.toRemote with
    | none => exact hsync
    | some r =>
      rw [Option.elim_some]
      exact hevent _
  | removed peerId tags =>
    simp only [SessionTable.applyFrame]
    cases (Uuid.parseStr peerId).toOption with
    | none => exact hsync
    | some id => exact hevent (.removed id)
  | holePunch | relayWake => exact hsync

variable {G : Uuid → Ipv6Addr → Prop}

theorem Mesh.step_seats {s : Mesh} (h : s.coordinator.toRosterState.Inv G) {op : Op}
    (hlive : op.Live) {k : Uuid} {e' : PeerEntry}
    (he' : (s.step op).1.coordinator.roster.lookup k = some e') :
    (∃ e, s.coordinator.roster.lookup k = some e ∧ e'.wgPublicKey = e.wgPublicKey ∧
      e'.ula = e.ula) ∨
    ∃ amb req bearer observed reg, op = .register amb req bearer observed ∧
      (s.coordinator.registerHandler amb req bearer observed).2 = .ok reg ∧ reg.entry = e' ∧
      reg.entry.peerId = k := by
  have hstep := s.step_entry h hlive k
  rw [he'] at hstep
  generalize hold : s.coordinator.roster.lookup k = old at hstep
  generalize hreply : (s.step op).2 = reply at hstep
  cases hstep with
  | @kept op reply e _ hsame =>
    left
    refine ⟨e, rfl, ?_⟩
    rw [hsame]
    exact ⟨rfl, rfl⟩
  | @beaten amb req observed reply e _ hk hsame =>
    left
    have hseat : SameSeat e (req.beaten amb.now observed e) := sameSeat_beatenEntry _ _ _ _ _ _ _ e
    refine ⟨e, rfl, ?_⟩
    rw [hsame]
    exact ⟨hseat.wgPublicKey, hseat.ula⟩
  | @registered amb req bearer observed claims r before hk hwrites =>
    right
    exact ⟨amb, req, bearer, observed, r, rfl, Reply.register.inj hreply, rfl, hk⟩

def Coordinator.Hides (c : Coordinator) (stream : Stream) (key : List UInt8) (ula : Ipv6Addr) :
    Prop :=
  ∃ f, stream.filter = some f ∧
    (∀ m event info, stream.cursor ≤ m → c.broadcaster[m]? = some event →
      event.info = some info → info.peerId = f.viewerId.toString ∨ info.Foreign key ula) ∧
    ∀ id e, c.roster.lookup id = some e → e.wgPublicKey = key ∨ e.ula = ula → id = f.viewerId

structure Mesh.Hides (s : Mesh) (handle : Nat) (key : List UInt8) (ula : Ipv6Addr) : Prop where
  issued : handle < s.nextHandle
  stream : ∀ stream, s.streams.lookup handle = some stream → s.coordinator.Hides stream key ula

theorem Stream.next_cursor (stream : Stream) (c : Coordinator) :
    stream.cursor ≤ (stream.next c).1.cursor := by
  unfold Stream.next
  split
  · simp only
    omega
  · split
    · exact Nat.le_refl _
    · split <;> exact Nat.le_succ _

theorem Stream.next_viewer {stream : Stream} (c : Coordinator) {f : ViewerFilter}
    (hf : stream.filter = some f) :
    ∃ f', (stream.next c).1.filter = some f' ∧ f'.viewerId = f.viewerId := by
  rcases stream.next_cases c hf with ⟨hsame, -⟩ | ⟨event, hfilter, -⟩
  · exact ⟨f, hsame, rfl⟩
  · exact ⟨_, hfilter, (f.apply_viewer c event).1⟩

theorem ViewerFilter.apply_hides {f : ViewerFilter} {c : Coordinator} {event frame : PeerEvent}
    {info : PeerInfo} (h : (f.apply c event).2 = some frame) (hinfo : frame.info = some info) :
    event.info = some info ∧ info.peerId ≠ f.viewerId.toString := by
  have hshown := (apply_passes h).info hinfo
  refine ⟨hshown, ?_⟩
  intro hself
  cases event with
  | added info' | updated info' =>
    obtain rfl : info' = info := Option.some.inj hshown
    simp [apply, applyInfo, hself] at h
  | removed | holePunch | relayWake => simp [PeerEvent.info] at hshown

theorem ViewerFilter.applyAll_hides {f : ViewerFilter} {c : Coordinator} {events : List PeerEvent}
    {frame : PeerEvent} {info : PeerInfo} (h : frame ∈ (f.applyAll c events).2)
    (hinfo : frame.info = some info) :
    ∃ event ∈ events, event.info = some info ∧ info.peerId ≠ f.viewerId.toString := by
  induction events generalizing f with
  | nil => simp [applyAll] at h
  | cons event events ih =>
    simp only [applyAll, List.mem_append, Option.mem_toList] at h
    rcases h with h | h
    · exact ⟨event, List.mem_cons_self, apply_hides h hinfo⟩
    · obtain ⟨event', he', hshown, hne⟩ := ih h
      rw [(f.apply_viewer c event).1] at hne
      exact ⟨event', List.mem_cons_of_mem event he', hshown, hne⟩

theorem Stream.next_hides {stream : Stream} {c : Coordinator} {f : ViewerFilter} {frame : PeerEvent}
    {info : PeerInfo} (hf : stream.filter = some f) (h : (stream.next c).2 = some frame)
    (hinfo : frame.info = some info) :
    ∃ event, c.broadcaster[stream.cursor]? = some event ∧ event.info = some info ∧
      info.peerId ≠ f.viewerId.toString := by
  unfold Stream.next at h
  split at h
  · simp at h
  · split at h
    · simp at h
    · rename_i event hevent
      simp only [hf] at h
      exact ⟨event, hevent, ViewerFilter.apply_hides h hinfo⟩

theorem Coordinator.Hides.grow (hbase64 : Base64RoundTrip) {G' : Uuid → Ipv6Addr → Prop}
    {s : Mesh} (hinv : s.coordinator.toRosterState.Inv G) {op : Op} (hlive : op.Live)
    (hinv' : (s.step op).1.coordinator.toRosterState.Inv G') {stream : Stream}
    (h : s.coordinator.Hides stream key ula) (hroster : ∀ f, stream.filter = some f → ∀ id e,
      (s.step op).1.coordinator.roster.lookup id = some e → e.wgPublicKey = key ∨ e.ula = ula →
      id = f.viewerId) : (s.step op).1.coordinator.Hides stream key ula := by
  obtain ⟨f, hf, hlog, -⟩ := h
  refine ⟨f, hf, ?_, hroster f hf⟩
  obtain ⟨new, hnew, hgrounded⟩ := Mesh.step_grounded hinv hlive
  intro m event info hm hevent hinfo
  rw [hnew, List.getElem?_append] at hevent
  split at hevent
  · exact hlog m event info hm hevent hinfo
  · have hmem := List.mem_of_getElem? hevent
    -- what is new and has a record shows an entry of the roster
    have hquotes : Quotes (s.step op).1.coordinator.roster event := by
      rcases hgrounded event hmem with hquotes | ⟨_, _, _, _, _, _, _, hp, rfl, _⟩ | ⟨rw, rfl, _⟩
      · exact hquotes
      · simp [PeerEvent.info] at hinfo
      · simp [PeerEvent.info] at hinfo
    have hentry : ∃ e ∈ (s.step op).1.coordinator.roster.values, ∃ connectivity age,
        info = e.toInfoWithConnectivity connectivity age := by
      cases event with
      | added info' | updated info' =>
        obtain rfl : info' = info := by simpa [PeerEvent.info] using hinfo
        exact hquotes
      | removed | holePunch | relayWake => simp [PeerEvent.info] at hinfo
    obtain ⟨e, he, connectivity, age, rfl⟩ := hentry
    obtain ⟨id, hid⟩ := AList.mem_values_iff.mp he
    by_cases hown : e.wgPublicKey = key ∨ e.ula = ula
    · left
      have hviewer := hroster f hf id e hid hown
      show e.peerId.toString = f.viewerId.toString
      rw [hinv'.keyed hid, hviewer]
    · right
      push Not at hown
      exact e.foreign hbase64 hown.2 hown.1 connectivity age

theorem Mesh.Hides.step (hbase64 : Base64RoundTrip) {G' : Uuid → Ipv6Addr → Prop} {s : Mesh}
    {handle : Nat} (h : s.Hides handle key ula) (hinv : s.coordinator.toRosterState.Inv G)
    {op : Op} (hlive : op.Live) (hinv' : (s.step op).1.coordinator.toRosterState.Inv G')
    (hregister : ∀ amb req bearer observed reg stream f, op = .register amb req bearer observed →
      (s.coordinator.registerHandler amb req bearer observed).2 = .ok reg →
      s.streams.lookup handle = some stream → stream.filter = some f →
      reg.entry.wgPublicKey = key ∨ reg.entry.ula = ula → reg.entry.peerId = f.viewerId) :
    (s.step op).1.Hides handle key ula := by
  refine ⟨Nat.lt_of_lt_of_le h.issued (s.nextHandle_le_step op), ?_⟩
  intro stream' hstream'
  have hroster : ∀ {stream}, s.streams.lookup handle = some stream → ∀ f, stream.filter = some f →
      ∀ id e, (s.step op).1.coordinator.roster.lookup id = some e →
      e.wgPublicKey = key ∨ e.ula = ula → id = f.viewerId := by
    intro stream hs f hf id e he hown
    rcases Mesh.step_seats hinv hlive he with ⟨old, hold, hkey, hula⟩ |
      ⟨amb, req, bearer, observed, reg, hop, hreg, rfl, hid⟩
    · obtain ⟨f', hf', -, hold'⟩ := h.stream stream hs
      obtain rfl := Option.some.inj (hf.symm.trans hf')
      rw [hkey, hula] at hown
      exact hold' id old hold hown
    · rw [← hid]
      exact hregister amb req bearer observed reg stream f hop hreg hs hf hown
  cases Mesh.step_stream hstream' with
  | kept hs hop => exact (h.stream stream' hs).grow hbase64 hinv hlive hinv' (hroster hs)
  | @polled stream hs =>
    have hgrown := (h.stream stream hs).grow hbase64 hinv hlive hinv' (hroster hs)
    obtain ⟨f, hf, hlog, hown⟩ := hgrown
    obtain ⟨f', hf', hviewer⟩ := stream.next_viewer s.coordinator hf
    have hcursor := stream.next_cursor s.coordinator
    refine ⟨f', hf', ?_, by rw [hviewer]; exact hown⟩
    intro m event info hm hevent hinfo
    rw [hviewer]
    exact hlog m event info (Nat.le_trans hcursor hm) hevent hinfo
  | opened peerId viewer hviewer hstep hh =>
    exact absurd h.issued (by rw [hh]; exact Nat.lt_irrefl _)

namespace RosterState

variable {G : Uuid → Ipv6Addr → Prop} {c : Coordinator} {id : Uuid}

theorem Seats.elsewhere (h : c.toRosterState.Seats id key ula) (hinv : c.toRosterState.Inv G)
    {p : PeerEntry} (hp : c.roster.lookup id = some p) {id' : Uuid} {e : PeerEntry}
    (he : c.roster.lookup id' = some e) (hown : e.wgPublicKey = key ∨ e.ula = ula) : id' = id := by
  have hkey : e.wgPublicKey = key := by
    rcases hown with hown | hown
    · exact hown
    · exact h.address id' e he hown
  have hid := hinv.index.mpr ⟨p, hp, h.own p hp⟩
  have hid' := hinv.index.mpr ⟨e, he, hkey⟩
  exact Option.some.inj (hid'.symm.trans hid)

theorem Seats.foreign (hbase64 : Base64RoundTrip) (h : c.toRosterState.Seats id key ula)
    (hinv : c.toRosterState.Inv G) {p : PeerEntry} (hp : c.roster.lookup id = some p)
    {e : PeerEntry} (he : e ∈ c.roster.values) (hne : e.peerId ≠ id) (connectivity : Option String)
    (age : Option UInt64) : (e.toInfoWithConnectivity connectivity age).Foreign key ula := by
  obtain ⟨id', hid'⟩ := AList.mem_values_iff.mp he
  have hother : ¬ (e.wgPublicKey = key ∨ e.ula = ula) := by
    intro hown
    exact hne ((hinv.keyed hid').trans (h.elsewhere hinv hp hid' hown))
  push Not at hother
  exact e.foreign hbase64 hother.2 hother.1 connectivity age

theorem Seats.visiblePeers (hbase64 : Base64RoundTrip) (h : c.toRosterState.Seats id key ula)
    (hinv : c.toRosterState.Inv G) {p : PeerEntry} (hp : c.roster.lookup id = some p)
    {tags : List String} : ∀ info ∈ c.visiblePeers id tags, info.Foreign key ula := by
  intro info hinfo
  obtain ⟨e, he, rfl⟩ := List.mem_map.mp hinfo
  have hmem := (List.perm_insertionSort _ _).mem_iff.mp he
  obtain ⟨hval, hsee⟩ := List.mem_filter.mp hmem
  simp only [Bool.and_eq_true, bne_iff_ne, ne_eq] at hsee
  exact h.foreign hbase64 hinv hp hval hsee.1 none none

theorem Seats.step {s : Mesh} (h : s.coordinator.toRosterState.Seats id key ula)
    (hinv : s.coordinator.toRosterState.Inv G) {op : Op} (hlive : op.Live)
    (hregister : ∀ amb req bearer observed reg, op = .register amb req bearer observed →
      (s.coordinator.registerHandler amb req bearer observed).2 = .ok reg →
      reg.entry.peerId = id ∨ reg.entry.ula = ula → reg.entry.wgPublicKey = key) :
    (s.step op).1.coordinator.toRosterState.Seats id key ula := by
  refine ⟨?_, ?_⟩
  · intro e' he'
    rcases Mesh.step_seats hinv hlive he' with ⟨e, he, hkey, -⟩ |
      ⟨amb, req, bearer, observed, reg, hop, hreg, rfl, hid⟩
    · exact hkey.trans (h.own e he)
    · exact hregister amb req bearer observed reg hop hreg (.inl hid)
  · intro id' e' he' hula'
    rcases Mesh.step_seats hinv hlive he' with ⟨e, he, hkey, hula⟩ |
      ⟨amb, req, bearer, observed, reg, hop, hreg, rfl, -⟩
    · exact hkey.trans (h.address id' e he (hula.symm.trans hula'))
    · exact hregister amb req bearer observed reg hop hreg (.inr hula')

end RosterState

theorem Coordinator.admission_pubkey {c : Coordinator} {amb : Ambient} {req : RegisterRequest}
    {bearer : Option String} {claims : Option ValidatedClaims} {pubkey : List UInt8}
    (h : c.admission amb req bearer = .ok (claims, pubkey)) :
    Crates.base64Decode req.wgPublicKey = .ok pubkey := by
  unfold admission at h
  simp only at h
  split at h
  · simp at h
  · split at h
    · simp at h
    · unfold decodePubkey at h
      cases hdecode : Crates.base64Decode req.wgPublicKey with
      | error e => simp [hdecode] at h
      | ok bytes =>
        simp only [hdecode] at h
        split at h
        · simp at h
        · obtain ⟨-, rfl⟩ := Prod.mk.inj (Except.ok.inj h)
          rfl

section

variable {log : List (Op × Reply)} {server : Mesh} {stream : Option Subscription} {j : Joiner}
  {amb : Ambient} {req : RegisterRequest} {bearer : Option String} {observed : Option SocketAddr}
  {reg : Registered}

theorem Op.KeepsApart.registered
    (hkeeps : (Op.register amb req bearer observed).KeepsApart server stream j)
    (hinv : server.coordinator.toRosterState.Inv (Granted log))
    (hfresh : ∀ u, ¬ Granted log amb.nowV7 u)
    (hseats : server.coordinator.toRosterState.Seats j.node.peerId j.inputs.ourPublic j.myUla)
    (hgranted : ∃ u, Granted log j.node.peerId u)
    (hreg : (server.coordinator.registerHandler amb req bearer observed).2 = .ok reg)
    (hown : reg.entry.peerId = j.node.peerId ∨ reg.entry.ula = j.myUla) :
    reg.entry.wgPublicKey = j.inputs.ourPublic := by
  have hans := (Coordinator.registerHandler_eq_ok hreg).1
  obtain ⟨claims, pubkey, hadm, hpubkey, hid⟩ :=
    (Coordinator.registers amb req bearer observed hinv).keeps_key hinv hans
  rw [hpubkey]
  by_contra hother
  rcases hown with hsame | hula
  · rcases hid with hid | ⟨-, hnew⟩
    · obtain ⟨e, he, hekey⟩ := hinv.index.mp hid
      rw [hsame] at he
      exact hother (hekey.symm.trans (hseats.own e he))
    · obtain ⟨u, hu⟩ := hgranted
      exact hfresh u (by rw [← hnew, hsame]; exact hu)
  · have hgrants := Coordinator.grants_of_registers hinv hans
    rw [hula] at hgrants
    exact (hkeeps claims pubkey hadm).1 hother hgrants

theorem Op.KeepsApart.viewer
    (hkeeps : (Op.register amb req bearer observed).KeepsApart server stream j)
    (hinv : server.coordinator.toRosterState.Inv (Granted log)) {sub : Subscription}
    (hsub : stream = some sub) {st : Stream} (hst : server.streams.lookup sub.handle = some st)
    (hhides : server.coordinator.Hides st j.inputs.ourPublic j.myUla) {f : ViewerFilter}
    (hf : st.filter = some f)
    (hreg : (server.coordinator.registerHandler amb req bearer observed).2 = .ok reg)
    (hown : reg.entry.wgPublicKey = j.inputs.ourPublic) : reg.entry.peerId = f.viewerId := by
  have hans := (Coordinator.registerHandler_eq_ok hreg).1
  obtain ⟨claims, pubkey, hadm, hpubkey, hid⟩ :=
    (Coordinator.registers amb req bearer observed hinv).keeps_key hinv hans
  rcases (hkeeps claims pubkey hadm).2 (hpubkey.symm.trans hown) with hmem | hclosed
  · rcases hid with hid | ⟨hnone, -⟩
    · obtain ⟨e, he, hekey⟩ := hinv.index.mp hid
      obtain ⟨f', hf', -, hroster⟩ := hhides
      obtain rfl := Option.some.inj (hf.symm.trans hf')
      exact hroster reg.entry.peerId e he (.inl (hekey.trans (hpubkey.symm.trans hown)))
    · exact absurd hmem (AList.lookup_eq_none.mp hnone)
  · rw [hclosed sub hsub] at hst
    simp at hst

end

structure Settled (log : List (Op × Reply)) (server : Mesh) (table : SessionTable)
    (stream : Option Subscription) (j : Joiner) : Prop where
  apart : table.Apart j.inputs.ourPublic j.myUla
  pending : ∀ sub, stream = some sub → ∀ frame ∈ sub.pending, ∀ info, frame.info = some info →
    info.Foreign j.inputs.ourPublic j.myUla
  hides : ∀ sub, stream = some sub → server.Hides sub.handle j.inputs.ourPublic j.myUla
  seats : server.coordinator.toRosterState.Seats j.node.peerId j.inputs.ourPublic j.myUla
  granted : ∃ u, Granted log j.node.peerId u

namespace Settled

variable {cfg : Config} {log : List (Op × Reply)} {server : Mesh} {table : SessionTable}
  {stream : Option Subscription} {j : Joiner}

theorem retable (h : Settled log server table stream j) {table' : SessionTable}
    (happart : table'.Apart j.inputs.ourPublic j.myUla) : Settled log server table' stream j :=
  ⟨happart, h.pending, h.hides, h.seats, h.granted⟩

theorem restart (h : Settled log server table stream j) {config : Config} {now : Nat}
    {file : Option Nat} (hkeeps : (Op.restart config now file).KeepsApart server stream j)
    (x : Op × Reply) : Settled (x :: log) (server.step (.restart config now file)).1 table stream j := by
  refine ⟨h.apart, h.pending, ?_, hkeeps, ?_⟩
  · intro sub hsub
    refine ⟨(h.hides sub hsub).issued, ?_⟩
    intro st hst
    have hnone : (∅ : DashMap Nat Stream).lookup sub.handle = some st := hst
    simp at hnone
  · obtain ⟨u, y, hy, hu⟩ := h.granted
    exact ⟨u, y, List.mem_cons_of_mem x hy, hu⟩

theorem serve (hbase64 : Base64RoundTrip) (h : Settled log server table stream j)
    (hreach : (mesh cfg).Reach log server) {op : Op} (hfresh : op.Fresh log)
    (hkeeps : op.KeepsApart server stream j) :
    Settled ((op, (server.step op).2) :: log) (server.step op).1 table stream j := by
  have hinv := inv_of_reach hreach
  have hinv' := inv_of_reach (reach_step hreach op hfresh)
  by_cases hlive : op.Live
  · have hwritten : ∀ amb req bearer observed reg, op = .register amb req bearer observed →
        (server.coordinator.registerHandler amb req bearer observed).2 = .ok reg →
        reg.entry.peerId = j.node.peerId ∨ reg.entry.ula = j.myUla →
        reg.entry.wgPublicKey = j.inputs.ourPublic := by
      rintro amb req bearer observed reg rfl hreg hown
      exact hkeeps.registered hinv hfresh h.seats h.granted hreg hown
    refine ⟨h.apart, h.pending, ?_, h.seats.step hinv hlive hwritten, ?_⟩
    · intro sub hsub
      refine (h.hides sub hsub).step hbase64 hinv hlive hinv' ?_
      rintro amb req bearer observed reg st f rfl hreg hst hf hown
      have hkey : reg.entry.wgPublicKey = j.inputs.ourPublic := by
        rcases hown with hown | hown
        · exact hown
        · exact hwritten amb req bearer observed reg rfl hreg (.inr hown)
      exact hkeeps.viewer hinv hsub hst ((h.hides sub hsub).stream st hst) hf hreg hkey
    · obtain ⟨u, x, hx, hu⟩ := h.granted
      exact ⟨u, x, List.mem_cons_of_mem _ hx, hu⟩
  · cases op with
    | restart config now file => exact h.restart hkeeps _
    | _ => exact absurd trivial hlive

theorem rejoin (h : Settled log server table stream j) {node : Node}
    (hid : node.peerId = j.node.peerId) : Settled log server table stream { j with node := node } :=
  ⟨h.apart, h.pending, h.hides, by rw [hid]; exact h.seats, by rw [hid]; exact h.granted⟩

theorem opened (hbase64 : Base64RoundTrip) (h : Settled log server table none j)
    {G : Uuid → Ipv6Addr → Prop} (hinv : server.coordinator.toRosterState.Inv G) {tags : List String}
    (hviewer : server.coordinator.streamViewer j.node.peerId.toString = some (j.node.peerId, tags)) :
    Settled log (server.openStream (some (j.node.peerId, tags))).1 table
      (some ⟨server.nextHandle,
        (Stream.opened server.coordinator (some (j.node.peerId, tags))).2⟩) j := by
  obtain ⟨-, p, hp, -⟩ := streamViewer_eq_some hviewer
  refine ⟨h.apart, ?_, ?_, h.seats, h.granted⟩
  · intro sub hsub frame hframe info hinfo
    obtain rfl := Option.some.inj hsub
    obtain ⟨event, hevent, hshown, hne⟩ := ViewerFilter.applyAll_hides hframe hinfo
    obtain ⟨info', hinfo', rfl⟩ := List.mem_map.mp hevent
    obtain rfl := Option.some.inj hshown
    obtain ⟨e, he, connectivity, age, rfl⟩ := Coordinator.mem_snapshot_toInfo hinfo'
    refine h.seats.foreign hbase64 hinv hp he ?_ connectivity age
    intro hid
    exact hne (congrArg Uuid.toString hid)
  · intro sub hsub
    obtain rfl := Option.some.inj hsub
    refine ⟨Nat.lt_succ_self _, ?_⟩
    intro stream hstream
    have hlook : (server.streams.insert server.nextHandle (Stream.opened server.coordinator
        (some (j.node.peerId, tags))).1).lookup server.nextHandle = some stream := hstream
    rw [AList.lookup_insert, Option.some.injEq] at hlook
    have hid := ((ViewerFilter.mk j.node.peerId tags []).applyAll_viewer server.coordinator
      (server.coordinator.snapshot.map PeerEvent.added)).1
    rw [← hlook]
    refine ⟨_, rfl, ?_, ?_⟩
    · intro m event info hm hevent
      have hlate : server.coordinator.broadcaster.length ≤ m := hm
      have hnone : server.coordinator.broadcaster[m]? = none := List.getElem?_eq_none hlate
      have hevent' : server.coordinator.broadcaster[m]? = some event := hevent
      rw [hnone] at hevent'
      simp at hevent'
    · intro id e he hown
      rw [hid]
      exact h.seats.elsewhere hinv hp he hown

theorem next_foreign (h : Settled log server table stream j) {sub : Subscription}
    (hsub : stream = some sub) {frame : PeerEvent}
    (hframe : (server.step (.pollStream sub.handle)).2.framed = some frame) {info : PeerInfo}
    (hinfo : frame.info = some info) : info.Foreign j.inputs.ourPublic j.myUla := by
  have hreply := Reply.framed_eq_some hframe
  simp only [Mesh.step, Mesh.pollStream] at hreply
  cases hst : server.streams.lookup sub.handle with
  | none => simp [hst] at hreply
  | some st =>
    simp only [hst, Reply.frame.injEq] at hreply
    obtain ⟨f, hf, hlog, -⟩ := (h.hides sub hsub).stream st hst
    obtain ⟨event, hevent, hshown, hne⟩ := Stream.next_hides hf hreply hinfo
    rcases hlog st.cursor event info (Nat.le_refl _) hevent hshown with hviewer | hforeign
    · exact absurd hviewer hne
    · exact hforeign

theorem post {α : Type} (hbase64 : Base64RoundTrip) (h : Settled log server table stream j)
    (hreach : (mesh cfg).Reach log server) (op : Op) (hfresh : op.Fresh log)
    (hkeeps : op.KeepsApart server stream j) (read : Reply → Except HeartbeatFailure α)
    (fate : Fate) :
    Settled ((server.post op read fate).2.1 ++ log) (server.post op read fate).1 table stream j := by
  cases fate with
  | requestLost => exact h
  | responseLost | arrives => exact h.serve hbase64 hreach hfresh hkeeps

end Settled

omit [Crates] in
theorem Stage.answered_joining {u : Startup} {fallback stored opened : Bool} {disk : Disk}
    {answer : Except HeartbeatFailure Client.RegisterResponse} {j : Joiner} {register : Option Bool}
    (h : ((Stage.joining u fallback).answered disk stored opened answer).1 = .up j register) :
    ∃ resp myUla, answer = .ok resp ∧ Ipv6Addr.parse resp.ula = some myUla ∧
      j = ⟨Node.joined resp.peerId u.gate, myUla, u.inputs, u.wgListenPort⟩ := by
  cases answer with
  | error e =>
    simp only [Stage.answered] at h
    split at h <;> simp at h
  | ok resp =>
    simp only [Stage.answered, Startup.comeUp] at h
    split at h
    · simp at h
    · rename_i myUla hparse
      split at h
      · simp at h
      · simp only at h
        split at h
        · exact ⟨resp, myUla, rfl, hparse, (Stage.up.inj h).1.symm⟩
        · simp at h

omit [Crates] in
theorem Stage.answered_up {j : Joiner} {register : Option Bool} {stored opened : Bool} {disk : Disk}
    {answer : Except HeartbeatFailure Client.RegisterResponse} {j' : Joiner}
    {register' : Option Bool}
    (h : ((Stage.up j register).answered disk stored opened answer).1 = .up j' register') :
    j' = { j with node := j.node.adopt answer } := by
  simp only [Stage.answered] at h
  split at h
  · rename_i hfalls
    cases answer with
    | error e => exact (Stage.up.inj h).1.symm
    | ok resp => simp [ReregisterInputs.fallsBack] at hfalls
  · exact (Stage.up.inj h).1.symm

theorem Mesh.heardPeers_eq_some {α : Type} {s : Mesh} {op : Op}
    {read : Reply → Except HeartbeatFailure α} {fate : Fate} {remote : List Client.RemotePeer}
    (h : s.heardPeers op read fate = some remote) :
    fate = .arrives ∧ (s.step op).2.readPeers = some remote := by
  unfold heardPeers at h
  cases fate with
  | requestLost | responseLost => simp [Mesh.post, Except.isOk, Except.toBool] at h
  | arrives =>
    split at h
    · exact ⟨rfl, h⟩
    · simp at h

section

variable {G G' : Uuid → Ipv6Addr → Prop} {s : Mesh} {amb : Ambient} {observed : Option SocketAddr}
  {remote : List Client.RemotePeer}

theorem Mesh.heartbeat_allApart (hbase64 : Base64RoundTrip) {req : HeartbeatRequest} {id : Uuid}
    (hid : Uuid.parseStr req.peerId = .ok id) (hinv : s.coordinator.toRosterState.Inv G)
    (hinv' : (s.step (.heartbeat amb req observed)).1.coordinator.toRosterState.Inv G')
    (hseats : (s.step (.heartbeat amb req observed)).1.coordinator.toRosterState.Seats id key ula)
    (hread : (s.step (.heartbeat amb req observed)).2.readPeers = some remote)
    (lookupHost : LookupHost) :
    SessionTable.AllApart (Client.decodeRoster lookupHost remote) key ula := by
  have hread : (Reply.heartbeat (s.coordinator.heartbeatHandler amb req observed).2).readPeers =
    some remote := hread
  cases hans : (s.coordinator.heartbeatHandler amb req observed).2 with
  | error e => simp [hans, Reply.readPeers] at hread
  | ok response =>
    simp only [hans, Reply.readPeers] at hread
    obtain ⟨p, hp, hpeers⟩ := heartbeatHandler_peers hinv hid hans
    refine allApart_decodeRoster hread ?_ lookupHost
    rw [hpeers]
    exact hseats.visiblePeers hbase64 hinv' hp

variable {req : RegisterRequest} {bearer : Option String} {reg : Registered}

theorem Mesh.register_allApart (hbase64 : Base64RoundTrip) (hinv : s.coordinator.toRosterState.Inv G)
    (hinv' : (s.step (.register amb req bearer observed)).1.coordinator.toRosterState.Inv G')
    (hreg : (s.coordinator.registerHandler amb req bearer observed).2 = .ok reg)
    (hseats : (s.step (.register amb req bearer observed)).1.coordinator.toRosterState.Seats
      reg.entry.peerId key ula)
    (hread : (s.step (.register amb req bearer observed)).2.readPeers = some remote)
    (lookupHost : LookupHost) :
    SessionTable.AllApart (Client.decodeRoster lookupHost remote) key ula := by
  have hread : (Reply.register (s.coordinator.registerHandler amb req bearer observed).2).readPeers =
    some remote := hread
  simp only [hreg, Reply.readPeers] at hread
  have hp := Coordinator.registerHandler_lookup amb req observed bearer hinv hreg
  refine allApart_decodeRoster hread ?_ lookupHost
  rw [(Coordinator.registerHandler_eq_ok hreg).2, ← Coordinator.registerHandler_fst]
  exact hseats.visiblePeers hbase64 hinv' hp

theorem ReregisterInputs.registered_key (hbase64 : Base64RoundTrip) {inputs : ReregisterInputs}
    {wgListenPort : UInt16} {args : RegisterArgs} (hinv : s.coordinator.toRosterState.Inv G)
    (hreg : (s.coordinator.registerHandler amb (inputs.request wgListenPort args) bearer
      observed).2 = .ok reg) : reg.entry.wgPublicKey = inputs.ourPublic := by
  have hans := (Coordinator.registerHandler_eq_ok hreg).1
  obtain ⟨claims, pubkey, hadm, hpubkey, -⟩ :=
    (Coordinator.registers amb _ bearer observed hinv).keeps_key hinv hans
  have hdecode := Coordinator.admission_pubkey hadm
  have hencoded : (inputs.request wgListenPort args).wgPublicKey =
    Crates.base64Encode inputs.ourPublic := rfl
  rw [hencoded, hbase64, Except.ok.injEq] at hdecode
  exact hpubkey.trans hdecode.symm

theorem RosterState.Inv.seats {m : RosterState} (h : m.Inv G) {e : PeerEntry}
    (he : m.roster.lookup e.peerId = some e) : m.Seats e.peerId e.wgPublicKey e.ula := by
  refine ⟨?_, ?_⟩
  · intro e' he'
    rw [Option.some.inj (he.symm.trans he')]
  · intro id' e' he' hula
    rw [h.ula he' he hula] at he'
    rw [Option.some.inj (he.symm.trans he')]

theorem Mesh.post_own_register (hbase64 : Base64RoundTrip) {cfg : Config} {log : List (Op × Reply)}
    (hreach : (mesh cfg).Reach log s) (hfresh : ∀ u, ¬ Granted log amb.nowV7 u)
    {inputs : ReregisterInputs} {wgListenPort : UInt16} {args : RegisterArgs} {fate : Fate}
    {resp : Client.RegisterResponse}
    (hans : (s.post (.register amb (inputs.request wgListenPort args) bearer observed)
      Reply.readRegister fate).2.2 = .ok resp) :
    ∃ reg, (s.coordinator.registerHandler amb (inputs.request wgListenPort args) bearer
        observed).2 = .ok reg ∧
      resp = ⟨reg.entry.peerId, reg.entry.ula.toString⟩ ∧ fate = .arrives ∧
      (s.step (.register amb (inputs.request wgListenPort args) bearer
        observed)).1.coordinator.toRosterState.Seats reg.entry.peerId inputs.ourPublic
        reg.entry.ula := by
  have hinv := inv_of_reach hreach
  have hinv' := inv_of_reach (reach_step hreach
    (.register amb (inputs.request wgListenPort args) bearer observed) hfresh)
  have harrives : fate = .arrives := by
    cases fate with
    | requestLost | responseLost => simp [Mesh.post] at hans
    | arrives => rfl
  obtain ⟨reg, hreg, rfl, -⟩ := Mesh.post_register_ok hans
  have hkey := ReregisterInputs.registered_key hbase64 hinv hreg
  have hstored := Coordinator.registerHandler_lookup amb _ observed bearer hinv hreg
  have hseats := hinv'.seats hstored
  rw [hkey] at hseats
  exact ⟨reg, hreg, rfl, harrives, hseats⟩

theorem granted_of_registered (hreg : (s.coordinator.registerHandler amb req bearer observed).2 = .ok reg)
    (log : List (Op × Reply)) :
    Granted ((.register amb req bearer observed, (s.step (.register amb req bearer observed)).2) :: log)
      reg.entry.peerId reg.entry.ula :=
  ⟨_, List.mem_cons_self, reg, congrArg Reply.register hreg, rfl, rfl⟩

end

structure PeerWorld.Inv (cfg : Config) (log : List (Op × Reply)) (w : PeerWorld) : Prop where
  server : (mesh cfg).Reach log w.join.server
  sync : w.table.SyncInv
  idle : (∀ j register, w.join.stage ≠ .up j register) → w.stream = none
  settled : ∀ j register, w.join.stage = .up j register →
    Settled log w.join.server w.table w.stream j

namespace PeerWorld

variable {cfg : Config} {log : List (Op × Reply)} {w : PeerWorld}

variable [CommandCrates]

theorem Inv.connect (hbase64 : Base64RoundTrip) (h : w.Inv cfg log) :
    (w.step .connect).1.Inv cfg ((w.step .connect).2.served ++ log) := by
  unfold step
  simp only
  split
  · rename_i j register hstage hnone
    have hset := h.settled j register hstage
    have hserver := reach_step h.server (.openStream (some j.node.peerId.toString)) trivial
    refine ⟨hserver, h.sync, ?_, ?_⟩
    · intro hdown
      exact absurd hstage (hdown j register)
    · intro j' register' hstage'
      obtain ⟨rfl, -⟩ := Stage.up.inj (hstage.symm.trans hstage')
      have hserved : Settled ((.openStream (some j.node.peerId.toString),
          (w.join.server.step (.openStream (some j.node.peerId.toString))).2) :: log)
          w.join.server w.table none j := by
        obtain ⟨u, x, hx, hu⟩ := hset.granted
        exact ⟨hset.apart, by simp, by simp, hset.seats, u, x, List.mem_cons_of_mem _ hx, hu⟩
      cases hviewer : w.join.server.coordinator.streamViewer j.node.peerId.toString with
      | none =>
        simp only [Mesh.step, hviewer] at hserved ⊢
        exact hserved
      | some viewer =>
        obtain ⟨id, tags⟩ := viewer
        have hid := (streamViewer_eq_some hviewer).1
        rw [Uuid.parseStr_toString, Except.ok.injEq] at hid
        subst hid
        simp only [Mesh.step, hviewer] at hserved ⊢
        exact hserved.opened hbase64 (inv_of_reach h.server) hviewer
  · exact h

theorem Inv.yield (hbase64 : Base64RoundTrip) (h : w.Inv cfg log) :
    (w.step .yield).1.Inv cfg ((w.step .yield).2.served ++ log) := by
  unfold step
  simp only
  split
  · exact h
  · rename_i sub hsub
    have hserver := reach_step h.server (.pollStream sub.handle) trivial
    refine ⟨hserver, h.sync, ?_, ?_⟩
    · intro hdown
      rw [h.idle hdown] at hsub
      simp at hsub
    · intro j register hstage
      have hset := h.settled j register hstage
      have hquiet : Settled ((.pollStream sub.handle,
          (w.join.server.step (.pollStream sub.handle)).2) :: log)
          (w.join.server.step (.pollStream sub.handle)).1 w.table w.stream j :=
        hset.serve hbase64 h.server trivial trivial
      refine ⟨hquiet.apart, ?_, ?_, hquiet.seats, hquiet.granted⟩
      · intro sub' hsub' frame hframe info hinfo
        obtain rfl := Option.some.inj hsub'
        rcases List.mem_append.mp hframe with hframe | hframe
        · exact hset.pending sub hsub frame hframe info hinfo
        · exact hset.next_foreign hsub (Option.mem_toList.mp hframe) hinfo
      · intro sub' hsub'
        obtain rfl := Option.some.inj hsub'
        exact hquiet.hides sub hsub

theorem Inv.receive (h : w.Inv cfg log) (lookupHost : LookupHost) :
    (w.step (.receive lookupHost)).1.Inv cfg ((w.step (.receive lookupHost)).2.served ++ log) := by
  unfold step
  simp only
  split
  · rename_i handle frame rest hstream
    have hsynced := SessionTable.syncInv_applyFrame h.sync lookupHost frame
    refine ⟨h.server, hsynced, ?_, ?_⟩
    · intro hdown
      rw [h.idle hdown] at hstream
      simp at hstream
    · intro j register hstage
      have hset := h.settled j register hstage
      have hpending := hset.pending _ hstream
      refine ⟨?_, ?_, ?_, hset.seats, hset.granted⟩
      · exact hset.apart.applyFrame h.sync lookupHost (hpending frame List.mem_cons_self)
      · rintro sub hsub frame' hframe'
        obtain rfl := Option.some.inj hsub
        exact hpending frame' (List.mem_cons_of_mem frame hframe')
      · rintro sub hsub
        obtain rfl := Option.some.inj hsub
        exact hset.hides ⟨handle, frame :: rest⟩ hstream
  · exact h

theorem Inv.disconnect (h : w.Inv cfg log) : (w.step .disconnect).1.Inv cfg log := by
  refine ⟨h.server, h.sync, fun _ => rfl, ?_⟩
  intro j register hstage
  have hset := h.settled j register hstage
  exact ⟨hset.apart, by simp [step], by simp [step], hset.seats, hset.granted⟩

omit [CommandCrates] in
theorem syncInv_tableAfter (h : w.table.SyncInv) (lookupHost : LookupHost) (mv : JoinMove) :
    (w.tableAfter lookupHost mv).SyncInv := by
  have hheard : ∀ heard : Option (List Client.RemotePeer),
      (heard.elim w.table (w.table.reconcileRoster lookupHost)).SyncInv := by
    rintro (_ | remote)
    · exact h
    · exact h.step (.reconcile lookupHost remote)
  have hseeded : ∀ heard : Option (List Client.RemotePeer),
      (heard.elim .new (SessionTable.seedInitialRoster lookupHost)).SyncInv := by
    rintro (_ | remote)
    · exact SessionTable.syncInv_new
    · exact SessionTable.syncInv_new.foldl_follow _
  cases mv with
  | coordinator op => exact h
  | start | stop => exact SessionTable.syncInv_new
  | attempt a =>
    simp only [tableAfter]
    split
    · exact h
    · split
      · exact hseeded _
      · exact hheard _
  | beat =>
    simp only [tableAfter]
    split
    · exact hheard _
    · exact h

variable {register : Option Bool}

theorem Inv.joined (hbase64 : Base64RoundTrip) (h : w.Inv cfg log) {a : Attempt}
    (hfresh : ∀ ula, ¬ Granted log a.amb.nowV7 ula) {u : Startup} {fallback : Bool}
    (hstage : w.join.stage = .joining u fallback) (lookupHost : LookupHost) {j : Joiner}
    (hup : (w.join.step (.attempt a)).1.stage = .up j register) :
    Settled ((w.join.step (.attempt a)).2.served ++ log) (w.join.step (.attempt a)).1.server
      (w.tableAfter lookupHost (.attempt a)) none j := by
  obtain ⟨⟨server, disk, stage⟩, table, stream⟩ := w
  subst hstage
  have hreach : (mesh cfg).Reach log server := h.server
  have hinv := inv_of_reach hreach
  have hinv' := inv_of_reach (reach_step hreach
    (.register a.amb (u.inputs.request u.wgListenPort (u.args fallback)) u.inputs.bearer a.observed)
    hfresh)
  simp only [JoinWorld.step, Stage.request, tableAfter] at hup ⊢
  obtain ⟨resp, myUla, hans, hparse, rfl⟩ := Stage.answered_joining hup
  obtain ⟨reg, hreg, rfl, harrives, hseats⟩ := Mesh.post_own_register hbase64 hreach hfresh hans
  obtain rfl : reg.entry.ula = myUla := by
    rw [Ipv6Addr.parse_toString] at hparse
    exact Option.some.inj hparse
  rw [harrives]
  refine ⟨?_, by simp, by simp, hseats, _, granted_of_registered hreg log⟩
  cases hheard : server.heardPeers (.register a.amb (u.inputs.request u.wgListenPort
      (u.args fallback)) u.inputs.bearer a.observed) Reply.readRegister .arrives with
  | none => exact SessionTable.apart_new
  | some remote =>
    have hread := (Mesh.heardPeers_eq_some hheard).2
    exact SessionTable.apart_new.foldl_follow SessionTable.syncInv_new
      (Mesh.register_allApart hbase64 hinv hinv' hreg hseats hread lookupHost)

theorem Inv.reregistered (hbase64 : Base64RoundTrip) (h : w.Inv cfg log) {a : Attempt}
    (hfresh : ∀ ula, ¬ Granted log a.amb.nowV7 ula) (lookupHost : LookupHost)
    (hkeeps : w.KeepsApart (.join (.attempt a) lookupHost)) {j₀ : Joiner} {fallback : Bool}
    (hstage : w.join.stage = .up j₀ (some fallback)) {j : Joiner}
    (hup : (w.join.step (.attempt a)).1.stage = .up j register) :
    Settled ((w.join.step (.attempt a)).2.served ++ log) (w.join.step (.attempt a)).1.server
      (w.tableAfter lookupHost (.attempt a)) w.stream j := by
  obtain ⟨⟨server, disk, stage⟩, table, stream⟩ := w
  subst hstage
  have hreach : (mesh cfg).Reach log server := h.server
  have hinv := inv_of_reach hreach
  have hinv' := inv_of_reach (reach_step hreach
    (.register a.amb (j₀.inputs.request j₀.wgListenPort (j₀.args fallback)) j₀.inputs.bearer
      a.observed) hfresh)
  have hset := (h.settled j₀ (some fallback) rfl).post hbase64 hreach
    (.register a.amb (j₀.inputs.request j₀.wgListenPort (j₀.args fallback)) j₀.inputs.bearer
      a.observed) hfresh (hkeeps j₀ fallback rfl) Reply.readRegister a.fate
  simp only [JoinWorld.step, Stage.request, tableAfter] at hup ⊢
  obtain rfl := Stage.answered_up hup
  cases hans : (server.post (.register a.amb (j₀.inputs.request j₀.wgListenPort
      (j₀.args fallback)) j₀.inputs.bearer a.observed) Reply.readRegister a.fate).2.2 with
  | error e =>
    simp only [Mesh.heardPeers, hans, Except.isOk, Except.toBool, Bool.false_eq_true, if_false,
      Option.elim_none]
    exact hset.rejoin rfl
  | ok resp =>
    obtain ⟨reg, hreg, rfl, harrives, hseats⟩ := Mesh.post_own_register hbase64 hreach hfresh hans
    rw [harrives] at hset ⊢
    have hseats' := RosterState.Seats.mk hseats.own hset.seats.address
    refine ⟨?_, hset.pending, hset.hides, hseats', _, granted_of_registered hreg log⟩
    cases hheard : server.heardPeers (.register a.amb (j₀.inputs.request j₀.wgListenPort
        (j₀.args fallback)) j₀.inputs.bearer a.observed) Reply.readRegister .arrives with
    | none => exact hset.apart
    | some remote =>
      have hread := (Mesh.heardPeers_eq_some hheard).2
      exact hset.apart.reconcileRoster h.sync lookupHost
        (Mesh.register_allApart hbase64 hinv hinv' hreg hseats' hread lookupHost)

theorem Inv.beaten (hbase64 : Base64RoundTrip) (h : w.Inv cfg log) (lookupHost : LookupHost)
    {amb : Ambient} {report : TickReport} {observed : Option SocketAddr} {fate : Fate}
    {nowMicros : Int} {saved : String → Bool} {j₀ : Joiner} (hstage : w.join.stage = .up j₀ none)
    {j : Joiner}
    (hup : (w.join.step (.beat amb report observed fate nowMicros saved)).1.stage = .up j register) :
    Settled ((w.join.step (.beat amb report observed fate nowMicros saved)).2.served ++ log)
      (w.join.step (.beat amb report observed fate nowMicros saved)).1.server
      (w.tableAfter lookupHost (.beat amb report observed fate nowMicros saved)) w.stream j := by
  obtain ⟨⟨server, disk, stage⟩, table, stream⟩ := w
  subst hstage
  have hreach : (mesh cfg).Reach log server := h.server
  have hinv := inv_of_reach hreach
  have hinv' := inv_of_reach (reach_step hreach (.heartbeat amb (j₀.node.request report) observed)
    trivial)
  have hset := (h.settled j₀ none rfl).post hbase64 hreach
    (.heartbeat amb (j₀.node.request report) observed) trivial trivial Reply.readHeartbeat fate
  simp only [JoinWorld.step, tableAfter] at hup ⊢
  obtain ⟨rfl, -⟩ := Stage.up.inj hup
  refine Settled.rejoin (hset.retable ?_) (Node.heard_peerId _ _ _ _)
  cases hheard : server.heardPeers (.heartbeat amb (j₀.node.request report) observed)
      Reply.readHeartbeat fate with
  | none => exact hset.apart
  | some remote =>
    obtain ⟨rfl, hread⟩ := Mesh.heardPeers_eq_some hheard
    exact hset.apart.reconcileRoster h.sync lookupHost (Mesh.heartbeat_allApart hbase64
      (Uuid.parseStr_toString _) hinv hinv' hset.seats hread lookupHost)

theorem stays_up {j : Joiner} (hstage : w.join.stage = .up j register) {mv : JoinMove}
    (hstream : w.streamAfter mv ≠ none) :
    ∃ j' register', (w.join.step mv).1.stage = .up j' register' := by
  cases mv with
  | coordinator op => exact ⟨j, register, hstage⟩
  | start | stop => exact absurd rfl hstream
  | attempt a =>
    cases register with
    | none =>
      simp only [JoinWorld.step, hstage, Stage.request]
      exact ⟨j, none, rfl⟩
    | some fallback =>
      simp only [JoinWorld.step, hstage, Stage.request, Stage.answered]
      split
      · exact ⟨_, _, rfl⟩
      · exact ⟨_, _, rfl⟩
  | beat amb report observed fate nowMicros saved =>
    cases register with
    | none =>
      simp only [JoinWorld.step, hstage]
      exact ⟨_, _, rfl⟩
    | some fallback =>
      simp only [JoinWorld.step, hstage]
      exact ⟨_, _, rfl⟩

theorem Inv.join (hbase64 : Base64RoundTrip) (h : w.Inv cfg log) {mv : JoinMove}
    (hfresh : mv.Fresh log) (lookupHost : LookupHost) (hkeeps : w.KeepsApart (.join mv lookupHost)) :
    (w.step (.join mv lookupHost)).1.Inv cfg ((w.step (.join mv lookupHost)).2.served ++ log) := by
  refine ⟨JoinWorld.reach_step h.server hfresh, syncInv_tableAfter h.sync lookupHost mv, ?_, ?_⟩
  · intro hdown
    by_contra hstream
    have hstill : ∀ j register, w.join.stage ≠ .up j register := by
      intro j register hstage
      obtain ⟨j', register', hup⟩ := stays_up hstage hstream
      exact hdown j' register' hup
    cases mv with
    | start | stop => exact hstream rfl
    | coordinator | attempt | beat => exact hstream (h.idle hstill)
  · intro j register hup
    have hup : (w.join.step mv).1.stage = .up j register := hup
    show Settled ((w.join.step mv).2.served ++ log) (w.join.step mv).1.server
      (w.tableAfter lookupHost mv) (w.streamAfter mv) j
    cases mv with
    | coordinator op =>
      exact (h.settled j register hup).serve hbase64 h.server hfresh (hkeeps j register hup)
    | start config fresh wgListenPort gate =>
      simp only [JoinWorld.step] at hup
      split at hup <;> simp at hup
    | stop => simp [JoinWorld.step] at hup
    | attempt a =>
      simp only [streamAfter]
      cases hstage : w.join.stage with
      | down =>
        simp [JoinWorld.step, hstage, Stage.request] at hup
      | joining u fallback =>
        have hnone := h.idle (by simp [hstage])
        rw [hnone]
        exact h.joined hbase64 hfresh hstage lookupHost hup
      | up j₀ register₀ =>
        cases register₀ with
        | some fallback => exact h.reregistered hbase64 hfresh lookupHost hkeeps hstage hup
        | none =>
          simp only [JoinWorld.step, tableAfter, hstage, Stage.request] at hup ⊢
          exact h.settled j register (hstage.trans hup)
    | beat amb report observed fate nowMicros saved =>
      simp only [streamAfter]
      cases hstage : w.join.stage with
      | down | joining => simp [JoinWorld.step, hstage] at hup
      | up j₀ register₀ =>
        cases register₀ with
        | none => exact h.beaten hbase64 lookupHost hstage hup
        | some fallback =>
          simp only [JoinWorld.step, tableAfter, hstage] at hup ⊢
          exact h.settled j register (hstage.trans hup)

theorem Inv.step (hbase64 : Base64RoundTrip) (h : w.Inv cfg log) {mv : PeerMove}
    (hfresh : mv.Fresh log) (hkeeps : w.KeepsApart mv) :
    (w.step mv).1.Inv cfg ((w.step mv).2.served ++ log) := by
  cases mv with
  | join mv lookupHost => exact h.join hbase64 hfresh lookupHost hkeeps
  | connect => exact h.connect hbase64
  | yield => exact h.yield hbase64
  | receive lookupHost => exact h.receive lookupHost
  | disconnect => exact h.disconnect

end PeerWorld

section

variable [CommandCrates] {cfg : Config} {disk : Disk} {tr : List (PeerMove × JoinOutput)}
  {w : PeerWorld}

theorem PeerWorld.inv_of_run (hbase64 : Base64RoundTrip)
    (h : (peerWorld cfg disk).Run PeerWorld.KeepsApart tr w) : w.Inv cfg (PeerMove.served tr) := by
  have hinit : (peerWorld cfg disk).init.Inv cfg [] := by
    refine ⟨.start, SessionTable.syncInv_new, fun _ => rfl, ?_⟩
    intro j register hstage
    simp [peerWorld] at hstage
  refine h.invariant (I := fun tr w => w.Inv cfg (PeerMove.served tr)) hinit ?_
  intro tr w mv _ ih hfresh hkeeps
  exact ih.step hbase64 hfresh hkeeps

/-- In every run whose requests keep the node apart, the node has no session to itself. -/
theorem no_self_session (hbase64 : Base64RoundTrip)
    (h : (peerWorld cfg disk).Run PeerWorld.KeepsApart tr w) : w.NoSelfSession := by
  intro j register hstage
  exact ((PeerWorld.inv_of_run hbase64 h).settled j register hstage).apart

end

theorem PeerWorld.keepsApart_attempt (hbase64 : Base64RoundTrip) {w : PeerWorld}
    (hstream : w.stream = none) (a : Attempt) (lookupHost : LookupHost) :
    w.KeepsApart (.join (.attempt a) lookupHost) := by
  intro j fallback _ claims pubkey hadm
  have hdecode := Coordinator.admission_pubkey hadm
  have hencoded : (j.inputs.request j.wgListenPort (j.args fallback)).wgPublicKey =
    Crates.base64Encode j.inputs.ourPublic := rfl
  rw [hencoded, hbase64, Except.ok.injEq] at hdecode
  refine ⟨fun hother => absurd hdecode.symm hother, fun _ => .inr ?_⟩
  simp [hstream]

theorem Op.keepsApart_register {server : Mesh} {stream : Option Subscription} {j : Joiner}
    {amb : Ambient} {req : RegisterRequest} {bearer : Option String} {observed : Option SocketAddr}
    {reg : Registered} (hinv : server.coordinator.toRosterState.Inv G)
    (hreg : (server.coordinator.registerHandler amb req bearer observed).2 = .ok reg)
    (hkey : reg.entry.wgPublicKey ≠ j.inputs.ourPublic) (hula : reg.entry.ula ≠ j.myUla) :
    (Op.register amb req bearer observed).KeepsApart server stream j := by
  intro claims pubkey hadm
  have hans := (Coordinator.registerHandler_eq_ok hreg).1
  obtain ⟨claims', pubkey', hadm', hpubkey, -⟩ :=
    (Coordinator.registers amb req bearer observed hinv).keeps_key hinv hans
  obtain ⟨-, rfl⟩ := Prod.mk.inj (Except.ok.inj (hadm.symm.trans hadm'))
  refine ⟨fun _ hgrants => ?_, fun hown => absurd (hpubkey.trans hown) hkey⟩
  exact hula ((Coordinator.ula_eq_iff_grants hinv hreg j.myUla).mpr hgrants)

end

def Stage.joiner : Stage → Option Joiner
  | .up j _ => some j
  | _ => none

def PeerWorld.ownSession (w : PeerWorld) : Option PeerSession :=
  w.join.stage.joiner.bind (fun j => (w.table.sessionAt j.myUla).map Prod.snd)

theorem PeerWorld.NoSelfSession.ownSession {w : PeerWorld} (h : w.NoSelfSession) :
    w.ownSession = none := by
  unfold PeerWorld.ownSession Stage.joiner
  split
  · rename_i j register hstage
    cases hat : w.table.sessionAt j.myUla with
    | none => simp [hat]
    | some found => exact absurd rfl (h j register hstage j.myUla found.1 found.2 hat).1
  · rfl

section Example

attribute [local instance] referenceCrates

@[reducible] local instance bareCommandCrates : CommandCrates := referenceCommandCrates []

instance (log : List (Op × Reply)) : (mv : PeerMove) → Decidable (mv.Fresh log)
  | .join mv _ => inferInstanceAs (Decidable (mv.Fresh log))
  | .connect | .yield | .receive _ | .disconnect => .isTrue trivial

instance (cfg : Config) (disk : Disk) (tr : List (PeerMove × JoinOutput)) (mv : PeerMove) :
    Decidable ((peerWorld cfg disk).admits tr mv) :=
  inferInstanceAs (Decidable (mv.Fresh (PeerMove.served tr)))

def noHost : LookupHost := fun _ => none

def systemConfig : JoinConfig := { laptopConfig (some "fd00::1") with tags := [tagSystem] }

def startMoves : List PeerMove :=
  [.join (.start systemConfig (List.replicate 32 1) 51820 (CommandGate.new none [])) noHost,
    .join (.attempt (attemptAt 0 1)) noHost, .connect]

def prunedMoves : List PeerMove :=
  [.join (.coordinator (.sweep (ambientAt (secs 91) 9))) noHost,
    .join (.beat (ambientAt (secs 92) 9) quietReport none .arrives 0 (fun _ => true)) noHost]

def readmittedMoves : List PeerMove :=
  [.join (.attempt (attemptAt (secs 92) 2)) noHost, .yield, .yield, .receive noHost]

def peerRun (moves : List PeerMove) : List (PeerMove × JoinOutput) × PeerWorld :=
  (peerWorld openConfig Disk.empty).exec [] (peerWorld openConfig Disk.empty).init moves

def neighbourRequest : RegisterRequest :=
  { plainRequest keyTwo "" none with tags := [tagSystem] }

theorem base64RoundTrip_reference : Base64RoundTrip := by
  intro bytes
  simp only [Crates.base64Decode, Crates.base64Encode, String.toList_ofList,
    Reference.base64Decode_base64Encode]

def apartMoves : List PeerMove :=
  [.yield, .receive noHost, .disconnect] ++ prunedMoves ++
    [.join (.attempt (attemptAt (secs 92) 2)) noHost, .connect, .receive noHost, .yield]

theorem run_startMoves :
    (peerWorld openConfig Disk.empty).Run PeerWorld.KeepsApart (peerRun startMoves).1
      (peerRun startMoves).2 := by
  refine Machine.Run.exec .start ⟨trivial, trivial, ?_, ?_, trivial, trivial, trivial⟩
  · decide
  · exact PeerWorld.keepsApart_attempt base64RoundTrip_reference rfl _ _

def nodeUla : Ipv6Addr := ⟨0xfd00, 0, 0, 0, 0, 0, 0, 1⟩

theorem keepsApart_neighbour : (peerRun startMoves).2.KeepsApart
    (.join (.coordinator (registerOp 10 3 neighbourRequest)) noHost) := by
  intro j register hstage
  have hserver := (PeerWorld.inv_of_run base64RoundTrip_reference run_startMoves).server
  have hnode : (peerRun startMoves).2.join.stage.joiner.map
      (fun j => (j.inputs.ourPublic, j.myUla)) = some (List.replicate 32 1, nodeUla) := by
    decide
  rw [hstage] at hnode
  obtain ⟨hkey, hula⟩ := Prod.mk.inj (Option.some.inj hnode)
  have hgranted : ((peerRun startMoves).2.join.server.coordinator.registerHandler (ambientAt 10 3)
      neighbourRequest none none).2.toOption.any (fun reg =>
        reg.entry.wgPublicKey ≠ List.replicate 32 1 ∧ reg.entry.ula ≠ nodeUla) = true := by
    decide
  cases hreg : ((peerRun startMoves).2.join.server.coordinator.registerHandler (ambientAt 10 3)
      neighbourRequest none none).2 with
  | error e =>
    rw [hreg] at hgranted
    simp [Except.toOption] at hgranted
  | ok reg =>
    simp only [hreg, Except.toOption, Option.any_some, decide_eq_true_eq] at hgranted
    exact Op.keepsApart_register (inv_of_reach hserver) hreg (hkey ▸ hgranted.1)
      (hula ▸ hgranted.2)

def apartRun : List (PeerMove × JoinOutput) × PeerWorld :=
  peerRun (startMoves ++ .join (.coordinator (registerOp 10 3 neighbourRequest)) noHost :: apartMoves)

theorem no_self_session_apart :
    apartRun.2.join.stage.joiner.map (fun j => j.node.peerId) = some 2 ∧
      apartRun.2.NoSelfSession := by
  have hrun : (peerWorld openConfig Disk.empty).Run PeerWorld.KeepsApart apartRun.1 apartRun.2 := by
    refine Machine.Run.exec .start ⟨trivial, trivial, ?_, ?_, trivial, trivial, ?_,
      keepsApart_neighbour, trivial, trivial, trivial, trivial, trivial, trivial,
      trivial, fun _ _ _ => trivial, trivial, trivial, ?_, ?_, trivial, trivial, trivial, trivial,
      trivial, trivial, trivial⟩
    · decide
    · exact PeerWorld.keepsApart_attempt base64RoundTrip_reference rfl _ _
    · decide
    · decide
    · exact PeerWorld.keepsApart_attempt base64RoundTrip_reference rfl _ _
  exact ⟨by decide, no_self_session base64RoundTrip_reference hrun⟩

def selfSeenRun : List (PeerMove × JoinOutput) × PeerWorld :=
  peerRun (startMoves ++ prunedMoves ++ readmittedMoves)

/-- The node follows its own new record: it has a session with its own key at its own address. -/
theorem self_session_after_readmission :
    (peerWorld openConfig Disk.empty).Reach selfSeenRun.1 selfSeenRun.2 ∧
      selfSeenRun.2.ownSession.map PeerSession.peerPubkey = some (List.replicate 32 1) ∧
      ¬ selfSeenRun.2.NoSelfSession := by
  have hown : selfSeenRun.2.ownSession.map PeerSession.peerPubkey = some (List.replicate 32 1) := by
    decide
  refine ⟨Machine.Run.exec .start (by decide), hown, ?_⟩
  intro h
  rw [h.ownSession] at hown
  simp at hown

end Example

end ServiceMesh
