import ServiceMesh.BroadcastLog
import ServiceMesh.FixedInfra
import ServiceMesh.TenantIsolation

/-! A register under validated claims does not depend on the network it asks for, nor on its
tags beyond the capabilities it may advertise, and no tag policy sees those. -/

namespace ServiceMesh

open StdNet (Ipv6Addr SocketAddr)

def isCapability (t : String) : Bool := decide (t ∈ selfAdvertisableCapabilityTags)

theorem foldl_pushCapability_filter (tags base : List String) :
    (tags.filter isCapability).foldl pushCapability base = tags.foldl pushCapability base := by
  induction tags generalizing base with
  | nil => rfl
  | cons t tags ih =>
    by_cases ht : t ∈ selfAdvertisableCapabilityTags
    · rw [List.filter_cons_of_pos (by simpa [isCapability] using ht), List.foldl_cons,
        List.foldl_cons, ih]
    · have hskip : pushCapability base t = base := by simp [pushCapability, ht]
      rw [List.filter_cons_of_neg (by simpa [isCapability] using ht), List.foldl_cons, hskip, ih]

theorem foldl_pushCapability_eq_append (tags base : List String) :
    ∃ extra, tags.foldl pushCapability base = base ++ extra ∧
      ∀ t ∈ extra, t ∈ selfAdvertisableCapabilityTags ∧ t ∈ tags := by
  induction tags generalizing base with
  | nil => exact ⟨[], by simp, by simp⟩
  | cons t tags ih =>
    obtain ⟨extra, hextra, hall⟩ := ih (pushCapability base t)
    rw [List.foldl_cons, hextra]
    by_cases ht : t ∈ selfAdvertisableCapabilityTags ∧ t ∉ base
    · refine ⟨t :: extra, by simp [pushCapability, ht], ?_⟩
      intro x hx
      rcases List.mem_cons.mp hx with rfl | hx
      · exact ⟨ht.1, List.mem_cons_self⟩
      · exact ⟨(hall x hx).1, List.mem_cons_of_mem t (hall x hx).2⟩
    · refine ⟨extra, by simp [pushCapability, ht], ?_⟩
      intro x hx
      exact ⟨(hall x hx).1, List.mem_cons_of_mem t (hall x hx).2⟩

def RegisterRequest.claiming (req : RegisterRequest) (network : String) (tags : List String) :
    RegisterRequest :=
  { req with network := network, tags := tags }

theorem stampIdentity_claiming {req : RegisterRequest} (claims : ValidatedClaims) (network : String)
    {tags : List String} (h : tags.filter isCapability = req.tags.filter isCapability) :
    stampIdentity (req.claiming network tags) (some claims) = stampIdentity req (some claims) := by
  have htags : tags.foldl pushCapability claims.tags =
      req.tags.foldl pushCapability claims.tags := by
    rw [← foldl_pushCapability_filter tags, h, foldl_pushCapability_filter]
  simp only [stampIdentity, RegisterRequest.claiming, htags]

def Policy.OnTags (p : Policy) : Prop :=
  ∀ rule ∈ p.acls, ∀ pattern ∈ rule.src ++ rule.dst,
    pattern = "*" ∨ startsWith pattern "tag:" = true

theorem startsWith_tag_of_tagMatches {pattern t : String} (hstar : pattern ≠ "*")
    (htag : startsWith pattern "tag:" = true) (h : tagMatches pattern t = true) :
    startsWith t "tag:" = true := by
  unfold tagMatches at h
  rw [if_neg hstar] at h
  cases hpre : stripSuffixStar pattern with
  | none =>
    simp only [hpre, beq_iff_eq] at h
    rw [← h]
    exact htag
  | some pre =>
    simp only [hpre] at h
    unfold stripSuffixStar at hpre
    split at hpre
    · rename_i hlast
      obtain rfl := (Option.some.inj hpre).symm
      rw [startsWith_iff] at h htag ⊢
      rw [String.toList_ofList] at h
      have hglob : pattern.toList.dropLast ++ ['*'] = pattern.toList := by
        have hne : pattern.toList ≠ [] := by
          intro hnil
          simp [hnil] at hlast
        rw [List.getLast?_eq_some_getLast hne] at hlast
        have hcut := List.dropLast_append_getLast hne
        rwa [Option.some.inj hlast] at hcut
      rw [← hglob, List.prefix_concat_iff] at htag
      rcases htag with hwhole | hstem
      · have hend := congrArg List.getLast? hwhole
        simp at hend
      · exact hstem.trans h
    · simp at hpre

theorem tagsMatchAny_append {patterns tags extra : List String}
    (hpat : ∀ pattern ∈ patterns, pattern = "*" ∨ startsWith pattern "tag:" = true)
    (hextra : ∀ t ∈ extra, startsWith t "tag:" = false) :
    tagsMatchAny patterns (tags ++ extra) = tagsMatchAny patterns tags := by
  unfold tagsMatchAny
  rw [Bool.eq_iff_iff, List.any_eq_true, List.any_eq_true]
  refine exists_congr fun pattern => and_congr_right fun hmem => ?_
  by_cases hstar : pattern = "*"
  · simp [hstar]
  · have hnone : extra.any (tagMatches pattern) = false := by
      rw [List.any_eq_false]
      intro t ht hm
      have htag := startsWith_tag_of_tagMatches hstar ((hpat pattern hmem).resolve_left hstar) hm
      rw [hextra t ht] at htag
      simp at htag
    simp [hstar, List.any_append, hnone]

theorem Policy.OnTags.canSee_append {p : Policy} (hp : p.OnTags) {tags extra other : List String}
    (hextra : ∀ t ∈ extra, startsWith t "tag:" = false) :
    p.canSee (tags ++ extra) other = p.canSee tags other := by
  have hsrc : ∀ rule ∈ p.acls, tagsMatchAny rule.src (tags ++ extra) =
      tagsMatchAny rule.src tags := fun rule hr =>
    tagsMatchAny_append (fun pat hm => hp rule hr pat (List.mem_append_left _ hm)) hextra
  have hdst : ∀ rule ∈ p.acls, tagsMatchAny rule.dst (tags ++ extra) =
      tagsMatchAny rule.dst tags := fun rule hr =>
    tagsMatchAny_append (fun pat hm => hp rule hr pat (List.mem_append_right _ hm)) hextra
  have hany : ∀ {f g : AclRule → Bool}, (∀ rule ∈ p.acls, f rule = g rule) →
      (p.acls.filter AclRule.isAccept).any f = (p.acls.filter AclRule.isAccept).any g := by
    intro f g hfg
    rw [Bool.eq_iff_iff, List.any_eq_true, List.any_eq_true]
    refine exists_congr fun rule => and_congr_right fun hm => ?_
    rw [hfg rule (List.mem_filter.mp hm).1]
  unfold canSee allowsDirected
  exact congrArg₂ (· || ·) (hany fun rule hr => by rw [hsrc rule hr])
    (hany fun rule hr => by rw [hdst rule hr])

theorem startsWith_tag_of_capability {t : String} (h : t ∈ selfAdvertisableCapabilityTags) :
    startsWith t "tag:" = false := by
  simp only [selfAdvertisableCapabilityTags, List.mem_cons, List.not_mem_nil, or_false] at h
  rcases h with rfl | rfl | rfl | rfl <;> decide

section

variable [Crates]

namespace Coordinator

variable {c : Coordinator} {amb : Ambient} {req : RegisterRequest} {bearer bearer' : Option String}
  {observed : Option SocketAddr} {claims : ValidatedClaims}

def ValidatesTo (c : Coordinator) (amb : Ambient) (req : RegisterRequest) (bearer : Option String)
    (claims : ValidatedClaims) : Prop :=
  c.authenticate amb bearer ((some (trim req.wgPublicKey)).filter (fun k => k ≠ "")) =
    .ok (some claims)

variable (observed) in
theorem registerAuthenticated_claiming (network : String) {tags : List String}
    (h : c.ValidatesTo amb req bearer claims) (h' : c.ValidatesTo amb req bearer' claims)
    (htags : tags.filter isCapability = req.tags.filter isCapability) :
    c.registerAuthenticated amb (req.claiming network tags) bearer' observed =
      c.registerAuthenticated amb req bearer observed := by
  have hstamp := stampIdentity_claiming claims network htags
  have hadm : c.admission amb (req.claiming network tags) bearer' = c.admission amb req bearer := by
    unfold ValidatesTo at h h'
    simp only [admission, RegisterRequest.claiming, h, h']
  cases ha : c.admission amb req bearer with
  | error err => rw [registerAuthenticated_refused observed ha, registerAuthenticated_refused observed (hadm.trans ha)]
  | ok a =>
    obtain ⟨claims', pubkey⟩ := a
    have hauth := (admission_eq_ok ha).1
    obtain rfl : some claims = claims' := Except.ok.inj (h.symm.trans hauth)
    cases hk : c.byPubkey.lookup pubkey with
    | some id =>
      rw [registerAuthenticated_known observed ha hk,
        registerAuthenticated_known observed (hadm.trans ha) hk]
      simp only [refreshExisting, refreshEntry, hstamp]
      rfl
    | none =>
      rw [registerAuthenticated_new observed ha hk,
        registerAuthenticated_new observed (hadm.trans ha) hk]
      simp only [joinPeer, hstamp]
      rfl

theorem registerAuthenticated_identity {G : Uuid → Ipv6Addr → Prop} (hi : c.toRosterState.Inv G)
    (h : c.ValidatesTo amb req bearer claims) {entry : PeerEntry} {outcome : RegisterOutcome}
    (hr : (c.registerAuthenticated amb req bearer observed).2 = .ok (entry, outcome)) :
    entry.network = claims.network ∧ entry.tags = (stampIdentity req (some claims)).tags ∧
      SlotBound entry.ula claims.network := by
  cases ha : c.admission amb req bearer with
  | error err => simp [registerAuthenticated_refused observed ha] at hr
  | ok a =>
    obtain ⟨claims', pubkey⟩ := a
    obtain rfl : some claims = claims' := Except.ok.inj (h.symm.trans (admission_eq_ok ha).1)
    have hnet : (stampIdentity req (some claims)).network = claims.network := rfl
    cases hk : c.byPubkey.lookup pubkey with
    | some id =>
      rw [registerAuthenticated_known observed ha hk] at hr
      obtain ⟨old, hold, -⟩ := hi.index.mp hk
      simp only [refreshExisting] at hr
      rcases refreshEntry_cases amb req (some claims) (req.resolved observed) observed hi hold with
        ⟨hstay, he⟩ | ⟨err, -, he⟩ | ⟨allocator, idx, ula, -, halloc, he⟩
      · rw [he] at hr
        obtain ⟨rfl, -⟩ := Prod.mk.inj (Except.ok.inj hr)
        have hsame : old.network = claims.network := by
          by_contra hne
          exact hstay ⟨rfl, fun hc => hne (hc.symm.trans hnet)⟩
        exact ⟨hsame, rfl, hsame ▸ (hi.seated hold).slotBound⟩
      · rw [he] at hr
        simp [Except.map] at hr
      · rw [he] at hr
        obtain ⟨rfl, -⟩ := Prod.mk.inj (Except.ok.inj hr)
        exact ⟨rfl, rfl, RosterState.NextUla.slotBound ⟨allocator, idx, halloc⟩⟩
    | none =>
      rw [registerAuthenticated_new observed ha hk] at hr
      have hev := (c.evictStaleUlaHolder_steps amb req.requestedUla).inv_quiet hi
      rcases joinPeer_cases amb req (some claims) pubkey (req.resolved observed) observed hev with
        ⟨err, -, hj⟩ | ⟨ula, hres, hj⟩
      · rw [hj] at hr
        simp [Except.map] at hr
      · rw [hj] at hr
        obtain ⟨rfl, -⟩ := Prod.mk.inj (Except.ok.inj hr)
        exact ⟨rfl, rfl, hres.slotBound⟩

end Coordinator

/-- Under the same claims and key, another network string and other tags outside the allow-list
change neither the answer nor the state; what is stored is that of the claims, and no tag policy can
tell which capabilities were asked for. -/
theorem identity_from_claims {cfg : Config} {tr : List (Op × Reply)} {s : Mesh}
    (h : (mesh cfg).Reach tr s) {amb : Ambient} {req : RegisterRequest} {bearer : Option String}
    (observed : Option SocketAddr) {claims : ValidatedClaims}
    (hv : s.coordinator.ValidatesTo amb req bearer claims) :
    (∀ network tags bearer', s.coordinator.ValidatesTo amb req bearer' claims →
      tags.filter isCapability = req.tags.filter isCapability →
      s.step (.register amb (req.claiming network tags) bearer' observed) =
        s.step (.register amb req bearer observed)) ∧
    ∀ r, (s.step (.register amb req bearer observed)).2 = .register (.ok r) →
      (s.step (.register amb req bearer observed)).1.coordinator.roster.lookup r.entry.peerId =
        some r.entry ∧
      r.entry.network = claims.network ∧ SlotBound r.entry.ula claims.network ∧
      (∃ extra, r.entry.tags = claims.tags ++ extra ∧
        ∀ t ∈ extra, t ∈ selfAdvertisableCapabilityTags ∧ t ∈ req.tags) ∧
      ∀ p : Policy, p.OnTags → ∀ other, p.canSee r.entry.tags other = p.canSee claims.tags other := by
  have hi := inv_of_reach h
  constructor
  · intro network tags bearer' hv' htags
    have heq := Coordinator.registerAuthenticated_claiming observed network hv hv' htags
    simp only [Mesh.step, Coordinator.registerHandler, heq]
  · intro r hr
    have hans := Reply.register.inj hr
    have hres := (Coordinator.registerHandler_eq_ok hans).1
    obtain ⟨hnet, htags, hslot⟩ := Coordinator.registerAuthenticated_identity hi hv hres
    obtain ⟨extra, hextra, hcap⟩ := foldl_pushCapability_eq_append req.tags claims.tags
    have hstored : r.entry.tags = claims.tags ++ extra := htags.trans hextra
    refine ⟨Coordinator.registerHandler_lookup _ _ _ _ hi hans, hnet, hslot,
      ⟨extra, hstored, hcap⟩, ?_⟩
    intro p hp other
    rw [hstored]
    exact hp.canSee_append (fun t ht => startsWith_tag_of_capability (hcap t ht).1)

end

def aliceClaims : ValidatedClaims := claimsFor "alice" []

def forgedRequest : RegisterRequest :=
  (plainRequest keyOne "alice" none).claiming "bob" ["tag:user-bob", "docker"]

def honestRequest : RegisterRequest := { plainRequest keyOne "alice" none with tags := ["docker"] }

def aliceAmbient : Ambient :=
  { ambientAt 0 1 with authService := fun _ _ => .response 200 "" (.ok aliceClaims) }

attribute [local instance] referenceCrates

theorem identity_from_claims_forged :
    (Mesh.init guardedConfig).step (.register aliceAmbient forgedRequest (some "token") none) =
      (Mesh.init guardedConfig).step (.register aliceAmbient honestRequest (some "token") none) ∧
    ∃ r, ((Mesh.init guardedConfig).step
        (.register aliceAmbient honestRequest (some "token") none)).2 = .register (.ok r) ∧
      r.entry.network = "alice" ∧ Policy.bootstrap.canSee r.entry.tags [tagSystem] = false := by
  have hall : ((Mesh.init guardedConfig).coordinator.authenticate aliceAmbient (some "token")
        ((some (trim honestRequest.wgPublicKey)).filter (fun k => k ≠ "")) =
        .ok (some aliceClaims)) ∧
      ((Mesh.init guardedConfig).step
        (.register aliceAmbient honestRequest (some "token") none)).2.grantedId = some 1 ∧
      ["tag:user-bob", "docker"].filter isCapability = ["docker"] := by decide
  obtain ⟨hv, hid, htags⟩ := hall
  have hbootstrap : Policy.bootstrap.OnTags := by
    show ∀ rule ∈ Policy.bootstrap.acls, ∀ pattern ∈ rule.src ++ rule.dst,
      pattern = "*" ∨ startsWith pattern "tag:" = true
    decide
  have hmain := identity_from_claims Machine.Run.start none hv
  obtain ⟨-, r, hr, -⟩ := Reply.grantedId_eq_some_iff.mp hid
  obtain ⟨-, hnet, -, -, hsee⟩ := hmain.2 r hr
  refine ⟨hmain.1 "bob" _ _ hv htags, r, hr, hnet, ?_⟩
  rw [hsee _ hbootstrap]
  decide

end ServiceMesh
