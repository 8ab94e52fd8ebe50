import ServiceMesh.Entries
import ServiceMesh.Identity

/-! Admission fails closed, from whatever state the coordinator is in: an entry changes only for a
token that the auth service vouches for, and its identity is what the service said. A body that
does not name the kind of the token passes for a join token. -/

namespace ServiceMesh

open StdNet (Ipv6Addr SocketAddr)

structure ClaimsBody where
  valid : Option Bool := none
  subject : Option String := none
  network : Option String := none
  tags : Option (List String) := none
  requestedUlas : Option (List String) := none
  kind : Option String := none
  exp : Option Int := none

def ClaimsBody.decode (b : ClaimsBody) : Option ValidatedClaims :=
  b.valid.map fun valid =>
    { valid := valid
      subject := b.subject.getD ""
      network := b.network.getD ""
      tags := b.tags.getD []
      requestedUlas := b.requestedUlas.getD []
      kind := b.kind.getD ""
      exp := b.exp.getD 0 }

def AuthReply.claims : AuthReply → Option ValidatedClaims
  | .response status _ (.ok claims) => if 200 ≤ status ∧ status < 300 then some claims else none
  | .response _ _ (.error _) => none
  | .unreachable _ => none

def Ambient.answered (amb : Ambient) (req : RegisterRequest) (bearer : Option String) :
    Option ValidatedClaims :=
  ((bearer.map trim).filter (fun t => t ≠ "")).bind fun token =>
    (amb.authService token ((some (trim req.wgPublicKey)).filter (fun k => k ≠ ""))).claims

theorem validateToken_eq_ok {reply : AuthReply} {claims : ValidatedClaims}
    (h : validateToken reply = .ok claims) :
    reply.claims = some claims ∧ (claims.valid = true → claims.kind = "" ∨ claims.kind = "join") := by
  cases reply with
  | unreachable e => simp [validateToken] at h
  | response status excerpt body =>
    unfold validateToken at h
    by_cases hstatus : status < 200 ∨ 300 ≤ status
    · simp [hstatus] at h
    · simp only [hstatus, if_false] at h
      cases body with
      | error e => simp at h
      | ok claims' =>
        simp only at h
        split at h
        · simp at h
        · rename_i hkind
          obtain rfl := Except.ok.inj h
          simp only [not_or, UInt16.not_lt, UInt16.not_le] at hstatus
          refine ⟨if_pos hstatus, ?_⟩
          intro hvalid
          by_contra hother
          simp only [not_or] at hother
          exact hkind (by simp [hvalid, hother.1, hother.2])

namespace Coordinator

def Stamps (identity : NodeIdentity) (k : Uuid) (c c' : Coordinator) : Prop :=
  c'.roster.lookup k = c.roster.lookup k ∨ c'.roster.lookup k = none ∨
    ∃ e, c'.roster.lookup k = some e ∧ e.network = identity.network ∧ e.tags = identity.tags

variable {c : Coordinator} {identity : NodeIdentity} {k : Uuid}

theorem stamps_modify {id : Uuid} {f : PeerEntry → PeerEntry} {c' : Coordinator}
    (hroster : c'.roster = c.roster.modify id f)
    (hf : ∀ e, c.roster.lookup id = some e →
      (f e).network = identity.network ∧ (f e).tags = identity.tags) :
    Stamps identity k c c' := by
  unfold Stamps
  rw [hroster, AList.lookup_modify]
  by_cases hk : k = id
  · subst hk
    rw [if_pos rfl]
    cases he : c.roster.lookup k with
    | none => exact .inl rfl
    | some e => exact .inr (.inr ⟨f e, rfl, hf e he⟩)
  · exact .inl (if_neg hk)

theorem Stamps.after {c₁ c' : Coordinator}
    (hfirst : c₁.roster.lookup k = none ∨ c₁.roster.lookup k = c.roster.lookup k)
    (h : Stamps identity k c₁ c') : Stamps identity k c c' := by
  rcases h with hsame | hrest
  · rcases hfirst with hgone | hkept
    · exact .inr (.inl (hsame.trans hgone))
    · exact .inl (hsame.trans hkept)
  · exact .inr hrest

theorem Stamps.persisted [Crates] {c' : Coordinator} (h : Stamps identity k c c') (saved : Bool) :
    Stamps identity k c (c'.persistRoster saved) := by
  unfold Stamps at h ⊢
  rw [roster_persistRoster]
  exact h

variable [Crates] (amb : Ambient) (req : RegisterRequest) (claims : ValidatedClaims)
  (resolved : ResolvedEndpoint) (observed : Option SocketAddr)

theorem stamps_refreshExisting (id : Uuid) :
    Stamps (stampIdentity req (some claims)) k c
      (c.refreshExisting amb id req (some claims) resolved observed).1 := by
  have hentry : Stamps (stampIdentity req (some claims)) k c
      (c.refreshEntry amb id req (some claims) resolved observed).1 := by
    unfold refreshEntry
    cases hold : c.roster.lookup id with
    | none => exact .inl rfl
    | some old =>
      simp only
      by_cases hmove : (some claims).isSome ∧ (stampIdentity req (some claims)).network ≠ old.network
      · rw [if_pos hmove]
        cases c.allocator.allocate (stampIdentity req (some claims)).network with
        | error err => exact .inl rfl
        | ok r =>
          simp only
          split
          · exact .inl rfl
          · exact stamps_modify (f := fun e => rehomedEntry _ r.2.2 r.2.1
              (refreshedEntry req (stampIdentity req (some claims)) resolved observed amb.now e))
              rfl (fun e _ => ⟨rfl, rfl⟩)
      · rw [if_neg hmove]
        refine stamps_modify rfl ?_
        intro e he
        obtain rfl := Option.some.inj (hold.symm.trans he)
        have hsame : old.network = (stampIdentity req (some claims)).network := by
          by_contra hne
          exact hmove ⟨rfl, fun h => hne h.symm⟩
        exact ⟨hsame, rfl⟩
  unfold refreshExisting
  generalize c.refreshEntry amb id req (some claims) resolved observed = r at hentry ⊢
  obtain ⟨c', _ | ⟨entry, _ | _⟩⟩ := r
  · exact hentry
  · exact hentry
  · exact hentry.persisted _

theorem stamps_joinPeer (pubkey : List UInt8) :
    Stamps (stampIdentity req (some claims)) k c
      (c.joinPeer amb req (some claims) pubkey resolved observed).1 := by
  unfold joinPeer
  simp only
  cases hres : c.toRosterState.resolveUla (stampIdentity req (some claims)).network
      req.requestedUla with
  | error err => exact .inl rfl
  | ok r =>
    obtain ⟨m, idx, ula⟩ := r
    have hroster := RosterState.roster_resolveUla hres
    simp only
    cases happ : m.applyPeerJoined amb.now (joinEvent req (stampIdentity req (some claims)) resolved
        pubkey amb.nowV7 ula amb.nowUnixMicros) with
    | error err => exact .inl (congrArg (AList.lookup k) hroster)
    | ok r =>
      obtain ⟨m', entry⟩ := r
      obtain ⟨id, ula', hid, -, rfl, rfl⟩ := RosterState.applyPeerJoined_entry happ
      obtain rfl : amb.nowV7 = id := by simpa [joinEvent] using hid
      generalize hfirst : RosterState.joinedEntry _ amb.nowV7 ula' amb.now = first
      have hat : first.peerId = amb.nowV7 := hfirst ▸ rfl
      have hstamped : first.network = (stampIdentity req (some claims)).network ∧
          first.tags = (stampIdentity req (some claims)).tags := hfirst ▸ ⟨rfl, rfl⟩
      have hlookup : ((m.roster.insert first.peerId first).modify amb.nowV7
          (seedReflexive resolved observed)).lookup k =
          if k = amb.nowV7 then some (seedReflexive resolved observed first)
          else c.roster.lookup k := by
        rw [AList.lookup_modify, AList.lookup_insert_eq_ite, hat, hroster]
        split <;> rfl
      unfold Stamps
      by_cases hk : k = amb.nowV7
      · exact .inr (.inr ⟨_, hlookup.trans (if_pos hk), hstamped⟩)
      · exact .inl (hlookup.trans (if_neg hk))

variable {amb req claims observed} {bearer : Option String}

theorem answered_of_admission (hv : c.validator = true) {claims : Option ValidatedClaims}
    {pubkey : List UInt8} (h : c.admission amb req bearer = .ok (claims, pubkey)) :
    ∃ cl, claims = some cl ∧ amb.answered req bearer = some cl ∧ cl.valid = true ∧
      (cl.kind = "" ∨ cl.kind = "join") := by
  cases claims with
  | none =>
    have hauth := (admission_eq_ok h).1
    unfold authenticate at hauth
    simp only [hv, Bool.not_true, Bool.false_eq_true, if_false] at hauth
    split at hauth
    · simp at hauth
    · split at hauth
      · split at hauth <;> simp at hauth
      all_goals simp at hauth
  | some cl =>
    obtain ⟨token, htoken, hvalidated, hvalid⟩ := presented_of_admission h
    obtain ⟨hclaims, hkind⟩ := validateToken_eq_ok hvalidated
    refine ⟨cl, rfl, ?_, hvalid, hkind hvalid⟩
    unfold Ambient.answered
    rw [htoken]
    exact hclaims

theorem register_changes {k : Uuid}
    (h : (c.registerHandler amb req bearer observed).1.roster.lookup k ≠ c.roster.lookup k) :
    ∃ claims pubkey, c.admission amb req bearer = .ok (claims, pubkey) ∧
      ∀ cl, claims = some cl →
        Stamps (stampIdentity req claims) k c (c.registerHandler amb req bearer observed).1 := by
  rw [registerHandler_fst] at h ⊢
  cases hadm : c.admission amb req bearer with
  | error err =>
    rw [registerAuthenticated_refused observed hadm] at h
    exact absurd rfl h
  | ok a =>
    obtain ⟨claims, pubkey⟩ := a
    refine ⟨claims, pubkey, rfl, ?_⟩
    rintro cl rfl
    cases hk : c.byPubkey.lookup pubkey with
    | some id =>
      rw [registerAuthenticated_known observed hadm hk]
      exact stamps_refreshExisting amb req cl _ observed id
    | none =>
      rw [registerAuthenticated_new observed hadm hk]
      have hjoined := (stamps_joinPeer (k := k) (c := c.evictStaleUlaHolder amb req.requestedUla) amb
        req cl (req.resolved observed) observed pubkey).after
        (c.evictStaleUlaHolder_lookup amb req.requestedUla k)
      simp only
      split
      · exact hjoined.persisted _
      · exact hjoined

end Coordinator

/-- When a register changes an entry, the service vouched for the token as a join token and the
entry carries what it said, if and only if the service does not leave the kind of the token out. -/
theorem admission_fails_closed [Crates] {c : Coordinator} (hv : c.validator = true) (amb : Ambient)
    (req : RegisterRequest) (bearer : Option String) (observed : Option SocketAddr) {k : Uuid}
    (hchanged : (c.registerHandler amb req bearer observed).1.roster.lookup k ≠ c.roster.lookup k) :
    (∃ claims, amb.answered req bearer = some claims ∧ claims.valid = true ∧ claims.kind = "join" ∧
      ∀ e, (c.registerHandler amb req bearer observed).1.roster.lookup k = some e →
        e.network = claims.network ∧
          ∀ t ∈ e.tags, t ∉ selfAdvertisableCapabilityTags → t ∈ claims.tags) ↔
      ∀ claims, amb.answered req bearer = some claims → claims.kind ≠ "" := by
  obtain ⟨claims, pubkey, hadm, hstamps⟩ := Coordinator.register_changes hchanged
  obtain ⟨cl, rfl, hanswered, hvalid, hkind⟩ := Coordinator.answered_of_admission hv hadm
  constructor
  · rintro ⟨cl', hcl', -, hjoin, -⟩ claims hclaims
    obtain rfl := Option.some.inj (hcl'.symm.trans hclaims)
    rw [hjoin]
    decide
  · intro hnamed
    refine ⟨cl, hanswered, hvalid, hkind.resolve_left (hnamed cl hanswered), ?_⟩
    intro e he
    rcases hstamps cl rfl with hsame | hgone | ⟨e', he', hnetwork, htags⟩
    · exact absurd hsame hchanged
    · rw [hgone] at he
      simp at he
    · obtain rfl := Option.some.inj (he'.symm.trans he)
      refine ⟨hnetwork, ?_⟩
      intro t ht hother
      obtain ⟨extra, hextra, hcap⟩ := foldl_pushCapability_eq_append req.tags cl.tags
      have hall : e'.tags = cl.tags ++ extra := htags.trans hextra
      rw [hall, List.mem_append] at ht
      exact ht.resolve_right (fun h => hother (hcap t h).1)

section Example

attribute [local instance] referenceCrates

def bareBody : ClaimsBody := { valid := some true }

def bareClaims : ValidatedClaims := ⟨true, "", "", [], [], "", 0⟩

def bareAmbient : Ambient :=
  { ambientAt 0 1 with authService := fun _ _ => .response 200 "" (.ok bareClaims) }

/-- The token is not a join token, and the register is admitted. -/
theorem unnamed_kind_admitted :
    bareBody.decode = some bareClaims ∧
      bareAmbient.answered honestRequest (some "token") = some bareClaims ∧
      bareClaims.kind ≠ "join" ∧ (Mesh.init guardedConfig).coordinator.roster.lookup 1 = none ∧
      ((Coordinator.registerHandler (Mesh.init guardedConfig).coordinator bareAmbient honestRequest
        (some "token") none).1.roster.lookup 1).map PeerEntry.network = some "" := by
  decide +kernel

theorem admission_fails_closed_alice :
    ∃ claims, aliceAmbient.answered honestRequest (some "token") = some claims ∧
      claims.kind = "join" ∧
      ∀ e, ((Mesh.init guardedConfig).coordinator.registerHandler aliceAmbient honestRequest
        (some "token") none).1.roster.lookup 1 = some e → e.network = claims.network := by
  have hanswered : aliceAmbient.answered honestRequest (some "token") = some aliceClaims := by
    decide +kernel
  have hchanged : ((Mesh.init guardedConfig).coordinator.registerHandler aliceAmbient honestRequest
      (some "token") none).1.roster.lookup 1 ≠ (Mesh.init guardedConfig).coordinator.roster.lookup 1 := by
    decide +kernel
  obtain ⟨claims, hclaims, -, hkind, hstored⟩ :=
    (admission_fails_closed rfl aliceAmbient honestRequest (some "token") none hchanged).mpr
      (fun claims hclaims => by
        obtain rfl := Option.some.inj (hanswered.symm.trans hclaims)
        decide)
  exact ⟨claims, hclaims, hkind, fun e he => (hstored e he).1⟩

end Example

end ServiceMesh
