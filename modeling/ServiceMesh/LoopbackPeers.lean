import ServiceMesh.LoopbackFrames
import ServiceMesh.Machine
import ServiceMesh.Wire

/-! Peers of the loopback fabric that move. The address of a peer is replaced at once, its cached
connection is dropped by a task of its own, and sends go on in between. -/

namespace ServiceMesh

open StdNet (Ipv6Addr SocketAddr)

namespace Loopback

/-- Where a send is. A connection is known by the address it was opened to, `addr` is the one that
the send has read, and `retry` tells the second attempt from the first. -/
inductive Place
  | resolve
  | find (addr : SocketAddr) (retry : Bool)
  | connect (addr : SocketAddr) (retry : Bool)
  | insert (addr : SocketAddr) (retry : Bool)
  | write (addr conn : SocketAddr) (retry : Bool)
  | drop (addr : SocketAddr)
  | done
deriving DecidableEq

def Place.addrs : Place → List SocketAddr
  | .find addr _ | .connect addr _ | .insert addr _ | .drop addr => [addr]
  | .write addr conn _ => [addr, conn]
  | .resolve | .done => []

structure Send where
  nodeId : String
  frame : Frame
  place : Place

/-- `drops` has the node of every spawned task that is still to drop a connection, and `sends` has
every send that was routed to a peer, at the place its handle names. -/
structure Fabric where
  endpoints : DashMap Ipv6Addr String
  remoteRoutes : DashMap Ipv6Addr String
  peers : DashMap String SocketAddr
  connections : DashMap String SocketAddr
  drops : List String
  sends : List Send

/-- `answer` is what the network says to a connect or a write: the text of the error if it fails. -/
inductive Move
  | addPeer (nodeId : String) (addr : SocketAddr)
  | removePeer (nodeId : String)
  | addRemoteRoute (ula : Ipv6Addr) (nodeId : String)
  | removeRemoteRoute (ula : Ipv6Addr)
  | registerLocal (ula : Ipv6Addr) (endpointId : String)
  | unregisterLocal (ula : Ipv6Addr)
  | runDrop (task : Nat)
  | send (dst : Ipv6Addr) (msg : List UInt8)
  | proceed (handle : Nat) (answer : Option String)

inductive Deed
  | nothing
  | local
  | refused (error : FabricError)
  | routed (handle : Nat) (nodeId : String)
  | succeeded (handle : Nat) (nodeId : String) (conn : SocketAddr)
  | failed (handle : Nat) (error : FabricError)

namespace Fabric

def bound : Fabric := ⟨∅, ∅, ∅, ∅, [], []⟩

def goto (f : Fabric) (handle : Nat) (place : Place) : Fabric :=
  { f with sends := f.sends.modify handle (fun s => { s with place := place }) }

def fail (f : Fabric) (handle : Nat) (error : FabricError) : Fabric × Deed :=
  (f.goto handle .done, .failed handle error)

def advance (f : Fabric) (handle : Nat) (s : Send) (answer : Option String) : Fabric × Deed :=
  match s.place with
  | .resolve =>
    match f.peers.lookup s.nodeId with
    | none => f.fail handle (.transport ("peer " ++ s.nodeId ++ " has no registered address"))
    | some addr =>
      match encodeFrame s.frame with
      | .error e => f.fail handle e
      | .ok _ => (f.goto handle (.find addr false), .nothing)
  | .find addr retry =>
    match f.connections.lookup s.nodeId with
    | some conn => (f.goto handle (.write addr conn retry), .nothing)
    | none => (f.goto handle (.connect addr retry), .nothing)
  | .connect addr retry =>
    match answer with
    | none => (f.goto handle (.insert addr retry), .nothing)
    | some e => f.fail handle
        (.transport ("connect " ++ s.nodeId ++ " (" ++ addr.toString ++ "): " ++ e))
  | .insert addr retry =>
    match f.connections.lookup s.nodeId with
    | some conn => (f.goto handle (.write addr conn retry), .nothing)
    | none =>
      ({ f.goto handle (.write addr addr retry) with
        connections := f.connections.insert s.nodeId addr }, .nothing)
  | .write addr conn retry =>
    match answer with
    | none => (f.goto handle .done, .succeeded handle s.nodeId conn)
    | some e =>
      if retry then f.fail handle (.transport ("peer write: " ++ e))
      else (f.goto handle (.drop addr), .nothing)
  | .drop addr =>
    ({ f.goto handle (.find addr true) with connections := f.connections.erase s.nodeId }, .nothing)
  | .done => (f, .nothing)

def step (f : Fabric) : Move → Fabric × Deed
  | .addPeer nodeId addr =>
    ({ f with peers := f.peers.insert nodeId addr, drops := f.drops ++ [nodeId] }, .nothing)
  | .removePeer nodeId =>
    ({ f with peers := f.peers.erase nodeId, drops := f.drops ++ [nodeId] }, .nothing)
  | .addRemoteRoute ula nodeId =>
    ({ f with remoteRoutes := f.remoteRoutes.insert ula nodeId }, .nothing)
  | .removeRemoteRoute ula => ({ f with remoteRoutes := f.remoteRoutes.erase ula }, .nothing)
  | .registerLocal ula endpointId =>
    ({ f with endpoints := f.endpoints.insert ula endpointId }, .nothing)
  | .unregisterLocal ula => ({ f with endpoints := f.endpoints.erase ula }, .nothing)
  | .runDrop task =>
    match f.drops[task]? with
    | none => (f, .nothing)
    | some nodeId =>
      ({ f with connections := f.connections.erase nodeId, drops := f.drops.eraseIdx task },
        .nothing)
  | .send dst msg =>
    if dst ∈ f.endpoints then (f, .local)
    else match f.remoteRoutes.lookup dst with
      | none => (f, .refused (.noRoute dst))
      | some nodeId =>
        ({ f with sends := f.sends ++ [⟨nodeId, ⟨dst, ⟨0, 0, 0, 0, 0, 0, 0, 0⟩, msg⟩, .resolve⟩] },
          .routed f.sends.length nodeId)
  | .proceed handle answer =>
    match f.sends[handle]? with
    | none => (f, .nothing)
    | some s => f.advance handle s answer

end Fabric

def fabric : Machine Fabric Move Deed where
  init := .bound
  step := Fabric.step
  admits _ _ := True

def Move.Readdresses (nodeId : String) : Move → Prop
  | .addPeer n _ | .removePeer n => n = nodeId
  | _ => False

/-- A send to a node that starts after an `add_peer` of it, and reports success while that is the
last word on the node, has written to a connection to that address. -/
def FollowsPeers (tr : List (Move × Deed)) : Prop :=
  ∀ later since earlier nodeId addr conn deed start finish handle,
    tr = later ++ (finish, .succeeded handle nodeId conn) ::
      (since ++ (.addPeer nodeId addr, deed) :: earlier) →
    (∀ x ∈ since, ¬ x.1.Readdresses nodeId) → (start, .routed handle nodeId) ∈ since → conn = addr

structure Fabric.Keeps (f : Fabric) (nodeId : String) (addr : SocketAddr) : Prop where
  cached : ∀ conn, f.connections.lookup nodeId = some conn → conn = addr
  underway : ∀ s ∈ f.sends, s.nodeId = nodeId → ∀ a ∈ s.place.addrs, a = addr

/-- The address of a peer is replaced only when no connection to another one is cached and no send
is under way to another one. -/
def Fabric.MovesIdle (f : Fabric) : Move → Prop
  | .addPeer nodeId addr => f.Keeps nodeId addr
  | _ => True

namespace Fabric

variable {f : Fabric} {nodeId : String} {addr : SocketAddr}

theorem mem_goto {handle : Nat} {place : Place} {s' : Send} (h : s' ∈ (f.goto handle place).sends) :
    s' ∈ f.sends ∨ ∃ s, f.sends[handle]? = some s ∧ s' = { s with place := place } := by
  obtain ⟨k, hk⟩ := List.mem_iff_getElem?.mp h
  simp only [goto, List.getElem?_modify] at hk
  obtain ⟨s, hs, hsame⟩ := Option.map_eq_some_iff.mp hk
  by_cases hh : handle = k
  · rw [if_pos hh] at hsame
    exact .inr ⟨s, hh ▸ hs, hsame.symm⟩
  · rw [if_neg hh] at hsame
    exact .inl (hsame ▸ List.mem_of_getElem? hs)

theorem Keeps.goto (h : f.Keeps nodeId addr) {handle : Nat} {s : Send}
    (hs : f.sends[handle]? = some s) {place : Place}
    (hplace : s.nodeId = nodeId → ∀ a ∈ place.addrs, a = addr) :
    (f.goto handle place).Keeps nodeId addr := by
  refine ⟨h.cached, ?_⟩
  intro s' hs' hnode
  rcases mem_goto hs' with hmem | ⟨s₀, hs₀, rfl⟩
  · exact h.underway s' hmem hnode
  · obtain rfl := Option.some.inj (hs.symm.trans hs₀)
    exact hplace hnode

theorem Keeps.connections (h : f.Keeps nodeId addr) {pool : DashMap String SocketAddr}
    (hpool : ∀ conn, pool.lookup nodeId = some conn → conn = addr) :
    ({ f with connections := pool } : Fabric).Keeps nodeId addr :=
  ⟨hpool, h.underway⟩

theorem Keeps.erase (h : f.Keeps nodeId addr) (n : String) :
    ({ f with connections := f.connections.erase n } : Fabric).Keeps nodeId addr := by
  refine h.connections ?_
  intro conn hconn
  rw [AList.lookup_erase_eq_ite] at hconn
  split at hconn
  · cases hconn
  · exact h.cached conn hconn

theorem Keeps.advance (h : f.Keeps nodeId addr) (hpeer : f.peers.lookup nodeId = some addr)
    {handle : Nat} {s : Send} (hs : f.sends[handle]? = some s) (answer : Option String) :
    (f.advance handle s answer).1.Keeps nodeId addr := by
  have hheld : s.nodeId = nodeId → ∀ a ∈ s.place.addrs, a = addr :=
    h.underway s (List.mem_of_getElem? hs)
  have hcached : ∀ {conn}, f.connections.lookup s.nodeId = some conn → s.nodeId = nodeId →
      conn = addr := fun hconn hnode => h.cached _ (hnode ▸ hconn)
  have hdone : (f.goto handle .done).Keeps nodeId addr := h.goto hs (by simp [Place.addrs])
  have hwrite : ∀ {a conn retry}, s.nodeId = nodeId ∧ a ∈ s.place.addrs →
      f.connections.lookup s.nodeId = some conn →
      ∀ x ∈ (Place.write a conn retry).addrs, x = addr := by
    rintro a conn retry ⟨hnode, ha⟩ hconn x hx
    rcases List.mem_pair.mp hx with rfl | rfl
    · exact hheld hnode x ha
    · exact hcached hconn hnode
  cases hplace : s.place with
  | resolve =>
    simp only [Fabric.advance, hplace]
    split
    · exact hdone
    · rename_i a ha
      split
      · exact hdone
      · refine h.goto hs ?_
        rintro rfl x hx
        rw [List.mem_singleton.mp hx]
        exact Option.some.inj (ha.symm.trans hpeer)
  | find a retry =>
    rw [hplace] at hheld hwrite
    simp only [Fabric.advance, hplace]
    split
    · rename_i conn hconn
      exact h.goto hs (fun hnode => hwrite ⟨hnode, List.mem_cons_self⟩ hconn)
    · exact h.goto hs hheld
  | connect a retry =>
    rw [hplace] at hheld
    simp only [Fabric.advance, hplace]
    split
    · exact h.goto hs hheld
    · exact hdone
  | insert a retry =>
    rw [hplace] at hheld hwrite
    simp only [Fabric.advance, hplace]
    split
    · rename_i conn hconn
      exact h.goto hs (fun hnode => hwrite ⟨hnode, List.mem_cons_self⟩ hconn)
    · have hopened : (f.goto handle (.write a a retry)).Keeps nodeId addr :=
        h.goto hs (fun hnode => by simpa [Place.addrs] using hheld hnode)
      refine hopened.connections ?_
      intro conn hconn
      rw [AList.lookup_insert_eq_ite] at hconn
      split at hconn
      · rename_i hnode
        rw [← Option.some.inj hconn]
        exact hheld hnode.symm a List.mem_cons_self
      · exact h.cached conn hconn
  | write a conn retry =>
    rw [hplace] at hheld
    simp only [Fabric.advance, hplace]
    split
    · exact hdone
    · split
      · exact hdone
      · refine h.goto hs ?_
        intro hnode x hx
        rw [List.mem_singleton.mp hx]
        exact hheld hnode a List.mem_cons_self
  | drop a =>
    rw [hplace] at hheld
    simp only [Fabric.advance, hplace]
    have hback : (f.goto handle (.find a true)).Keeps nodeId addr := h.goto hs hheld
    exact hback.erase s.nodeId
  | done =>
    simp only [Fabric.advance, hplace]
    exact h

theorem Keeps.step (h : f.Keeps nodeId addr) (hpeer : f.peers.lookup nodeId = some addr)
    (mv : Move) : (f.step mv).1.Keeps nodeId addr := by
  cases mv with
  | addPeer | removePeer | addRemoteRoute | removeRemoteRoute | registerLocal
  | unregisterLocal => exact ⟨h.cached, h.underway⟩
  | runDrop task =>
    simp only [Fabric.step]
    split
    · exact h
    · rename_i n _
      exact ⟨(h.erase n).cached, h.underway⟩
  | send dst msg =>
    simp only [Fabric.step]
    split
    · exact h
    · split
      · exact h
      · refine ⟨h.cached, ?_⟩
        intro s hs hnode a ha
        rcases List.mem_append.mp hs with hs | hs
        · exact h.underway s hs hnode a ha
        · rw [List.mem_singleton.mp hs] at ha
          cases ha
  | proceed handle answer =>
    simp only [Fabric.step]
    split
    · exact h
    · rename_i s hs
      exact h.advance hpeer hs answer

def Settled (f : Fabric) : Prop :=
  ∀ nodeId addr, f.peers.lookup nodeId = some addr → f.Keeps nodeId addr

theorem peers_advance (f : Fabric) (handle : Nat) (s : Send) (answer : Option String) :
    (f.advance handle s answer).1.peers = f.peers := by
  unfold advance fail
  repeat' split
  all_goals rfl

theorem lookup_step {mv : Move} (h : ¬ mv.Readdresses nodeId) :
    (f.step mv).1.peers.lookup nodeId = f.peers.lookup nodeId := by
  cases mv with
  | addPeer n a => exact AList.lookup_insert_ne (fun hc => h hc.symm)
  | removePeer n => exact AList.lookup_erase_ne (fun hc => h hc.symm)
  | addRemoteRoute | removeRemoteRoute | registerLocal | unregisterLocal => rfl
  | runDrop task =>
    simp only [step]
    split <;> rfl
  | send dst msg =>
    simp only [step]
    split
    · rfl
    · split <;> rfl
  | proceed handle answer =>
    simp only [step]
    split
    · rfl
    · rw [peers_advance]

theorem Settled.step (h : f.Settled) {mv : Move} (hidle : f.MovesIdle mv) :
    (f.step mv).1.Settled := by
  intro nodeId addr hpeer
  by_cases hmv : mv.Readdresses nodeId
  · cases mv with
    | addPeer n a =>
      obtain rfl : n = nodeId := hmv
      have hadded : (f.peers.insert n a).lookup n = some addr := hpeer
      rw [AList.lookup_insert, Option.some.injEq] at hadded
      subst hadded
      exact ⟨hidle.cached, hidle.underway⟩
    | removePeer n =>
      obtain rfl : n = nodeId := hmv
      have hgone : (f.peers.erase n).lookup n = some addr := hpeer
      rw [AList.lookup_erase] at hgone
      cases hgone
    | _ => exact hmv.elim
  · rw [lookup_step hmv] at hpeer
    exact (h nodeId addr hpeer).step hpeer mv

theorem succeeded_place {mv : Move} {handle : Nat} {conn : SocketAddr}
    (h : (f.step mv).2 = .succeeded handle nodeId conn) :
    ∃ s ∈ f.sends, s.nodeId = nodeId ∧ conn ∈ s.place.addrs := by
  cases mv with
  | addPeer | removePeer | addRemoteRoute | removeRemoteRoute | registerLocal
  | unregisterLocal => cases h
  | runDrop task =>
    simp only [step] at h
    split at h <;> cases h
  | send dst msg =>
    simp only [step] at h
    split at h
    · cases h
    · split at h <;> cases h
  | proceed k answer =>
    simp only [step] at h
    split at h
    · cases h
    · rename_i s hs
      cases hplace : s.place with
      | write addr conn' retry =>
        simp only [advance, hplace] at h
        split at h
        · cases h
          exact ⟨s, List.mem_of_getElem? hs, rfl, by simp [hplace, Place.addrs]⟩
        · split at h <;> cases h
      | _ =>
        simp only [advance, fail, hplace] at h
        repeat' split at h
        all_goals cases h

end Fabric

section

variable {C : Fabric → Move → Prop} {tr : List (Move × Deed)} {f : Fabric} {nodeId : String}

theorem settled_of_run (h : fabric.Run Fabric.MovesIdle tr f) : f.Settled := by
  refine h.invariant (I := fun _ f => f.Settled) ?_ ?_
  · intro nodeId addr hpeer
    cases hpeer
  · intro tr f mv _ ih _ hidle
    exact ih.step hidle

theorem peers_of_run {since earlier : List (Move × Deed)} {addr : SocketAddr} {deed : Deed}
    (h : fabric.Run C (since ++ (.addPeer nodeId addr, deed) :: earlier) f)
    (hsince : ∀ x ∈ since, ¬ x.1.Readdresses nodeId) : f.peers.lookup nodeId = some addr := by
  induction since generalizing f with
  | nil =>
    obtain ⟨f₀, -, -, -, rfl⟩ := h.of_cons
    exact AList.lookup_insert _
  | cons x since ih =>
    obtain ⟨f₀, hrun, -, -, rfl⟩ := h.of_cons
    refine (Fabric.lookup_step (hsince x List.mem_cons_self)).trans ?_
    exact ih hrun (fun y hy => hsince y (List.mem_cons_of_mem _ hy))

/-- In every run in which a peer is moved only when nothing goes to another address, the sends that
follow go to the new one. -/
theorem sends_follow_peers (h : fabric.Run Fabric.MovesIdle tr f) : FollowsPeers tr := by
  intro later since earlier nodeId addr conn deed start finish handle htr hsince _
  induction later generalizing tr f with
  | nil =>
    subst htr
    obtain ⟨f₀, hrun, -, hdeed, -⟩ := h.of_cons
    obtain ⟨s, hs, hnode, hconn⟩ := Fabric.succeeded_place hdeed.symm
    have hpeer := peers_of_run hrun hsince
    exact (settled_of_run hrun nodeId addr hpeer).underway s hs hnode conn hconn
  | cons x later ih =>
    subst htr
    obtain ⟨f₀, hrun, -, -, -⟩ := h.of_cons
    exact ih hrun rfl

end

section Example

def homeAddr : SocketAddr := .v4 ⟨127, 0, 0, 1⟩ 4000

def newAddr : SocketAddr := .v4 ⟨127, 0, 0, 1⟩ 4001

def peerUla : Ipv6Addr := ⟨0xfd00, 0, 0, 0, 0, 0, 0, 1⟩

def firstMoves : List Move :=
  [.addPeer "a" homeAddr, .runDrop 0, .addRemoteRoute peerUla "a", .send peerUla [],
    .proceed 0 none, .proceed 0 none, .proceed 0 none, .proceed 0 none, .proceed 0 none]

def fabricRun (moves : List Move) : List (Move × Deed) × Fabric := fabric.exec [] .bound moves

instance (f : Fabric) : (mv : Move) → Decidable (f.MovesIdle mv)
  | .addPeer nodeId addr =>
    decidable_of_iff ((∀ conn ∈ f.connections.lookup nodeId, conn = addr) ∧
      ∀ s ∈ f.sends, s.nodeId = nodeId → ∀ a ∈ s.place.addrs, a = addr)
      ⟨fun h => ⟨h.1, h.2⟩, fun h => ⟨h.cached, h.underway⟩⟩
  | .removePeer .. | .addRemoteRoute .. | .removeRemoteRoute .. | .registerLocal ..
  | .unregisterLocal .. | .runDrop .. | .send .. | .proceed .. => .isTrue trivial

instance (tr : List (Move × Deed)) (mv : Move) : Decidable (fabric.admits tr mv) := .isTrue trivial

def drainedMoves : List Move :=
  firstMoves ++ [.removePeer "a", .runDrop 0, .addPeer "a" newAddr, .send peerUla [],
    .proceed 1 none, .proceed 1 none, .proceed 1 none, .proceed 1 none, .proceed 1 none]

theorem sends_follow_peers_drained :
    (∃ finish, (finish, Deed.succeeded 1 "a" newAddr) ∈ (fabricRun drainedMoves).1) ∧
      FollowsPeers (fabricRun drainedMoves).1 :=
  ⟨⟨_, List.mem_cons_self⟩, sends_follow_peers (.exec .start (by decide))⟩

def overtakenMoves : List Move :=
  firstMoves ++ [.addPeer "a" newAddr, .send peerUla [], .proceed 1 none, .proceed 1 none,
    .proceed 1 none]

theorem moved_peer_served_at_old_address :
    fabric.Reach (fabricRun overtakenMoves).1 (fabricRun overtakenMoves).2 ∧
      ¬ FollowsPeers (fabricRun overtakenMoves).1 := by
  refine ⟨Machine.Run.exec .start (.of_free (fun _ _ => trivial) _ _ _), ?_⟩
  intro h
  have hsame : homeAddr = newAddr := h [] [_, _, _] _ "a" newAddr homeAddr .nothing
    (.send peerUla []) (.proceed 1 none) 1 rfl (by simp [Move.Readdresses])
    (List.mem_cons_of_mem _ (List.mem_cons_of_mem _ List.mem_cons_self))
  exact absurd hsame (by decide)

end Example

end Loopback

end ServiceMesh
