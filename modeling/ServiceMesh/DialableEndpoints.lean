import ServiceMesh.Adverts
import ServiceMesh.RosterIntegrity

/-! Where a coordinator-derived endpoint comes from, and whether other peers can dial it. The
classifier sees no further than the address family: an IPv4 address in IPv6 form passes, whatever
it denotes, and so does port zero. -/

namespace ServiceMesh

open StdNet (Ipv4Addr Ipv6Addr IpAddr SocketAddr)

def UndialableV4 (a : Ipv4Addr) : Prop :=
  a.octet0 = 127 ∨ a = ⟨0, 0, 0, 0⟩ ∨ (a.octet0 = 169 ∧ a.octet1 = 254) ∨ a.octet0 = 10 ∨
    (a.octet0 = 172 ∧ 16 ≤ a.octet1.toNat ∧ a.octet1.toNat ≤ 31) ∨
    (a.octet0 = 192 ∧ a.octet1 = 168) ∨
    (a.octet0 = 100 ∧ 64 ≤ a.octet1.toNat ∧ a.octet1.toNat ≤ 127)

def UndialableV6 (a : Ipv6Addr) : Prop :=
  a = ⟨0, 0, 0, 0, 0, 0, 0, 1⟩ ∨ a = ⟨0, 0, 0, 0, 0, 0, 0, 0⟩ ∨
    (0xfc00 ≤ a.seg0.toNat ∧ a.seg0.toNat ≤ 0xfdff) ∨
    (0xfe80 ≤ a.seg0.toNat ∧ a.seg0.toNat ≤ 0xfebf)

/-- An IPv4-mapped address is judged as the address it denotes. -/
def Undialable : IpAddr → Prop
  | .v4 a => UndialableV4 a
  | .v6 a =>
    match a.toIpv4Mapped with
    | some v4 => UndialableV4 v4
    | none => UndialableV6 a

theorem isUnreachableV4_of_undialable {a : Ipv4Addr} (h : UndialableV4 a) :
    isUnreachableV4 a = true := by
  have private20 : ∀ n < 16, (16 + n) &&& 0xf0 = 16 := by decide
  have shared : ∀ n < 64, (64 + n) &&& 0b11000000 = 0b01000000 := by decide
  unfold isUnreachableV4
  rcases h with h | h | ⟨h, h'⟩ | h | ⟨h, hlow, hhigh⟩ | ⟨h, h'⟩ | ⟨h, hlow, hhigh⟩
  · simp [h]
  · simp [h]
  · simp [h, h']
  · simp [h]
  · have hmask : a.octet1 &&& 0xf0 = 16 := by
      apply UInt8.toNat.inj
      have hn := private20 (a.octet1.toNat - 16) (by omega)
      rw [Nat.add_sub_cancel' hlow] at hn
      rw [UInt8.toNat_and]
      exact hn
    simp [h, hmask]
  · simp [h, h']
  · have hmask : a.octet1 &&& 0b11000000 = 0b01000000 := by
      apply UInt8.toNat.inj
      have hn := shared (a.octet1.toNat - 64) (by omega)
      rw [Nat.add_sub_cancel' hlow] at hn
      rw [UInt8.toNat_and]
      exact hn
    simp [h, hmask]

set_option maxRecDepth 4096 in
theorem isUnreachableV6_of_undialable {a : Ipv6Addr} (h : UndialableV6 a) :
    isUnreachableV6 a = true := by
  have uniqueLocal : ∀ n < 512, (0xfc00 + n) &&& 0xfe00 = 0xfc00 := by decide
  have linkLocal : ∀ n < 64, (0xfe80 + n) &&& 0xffc0 = 0xfe80 := by decide
  unfold isUnreachableV6
  rcases h with h | h | ⟨hlow, hhigh⟩ | ⟨hlow, hhigh⟩
  · simp [h]
  · simp [h]
  · have hmask : a.seg0 &&& 0xfe00 = 0xfc00 := by
      apply UInt16.toNat.inj
      have hn := uniqueLocal (a.seg0.toNat - 0xfc00) (by omega)
      rw [Nat.add_sub_cancel' hlow] at hn
      rw [UInt16.toNat_and]
      exact hn
    simp [hmask]
  · have hmask : a.seg0 &&& 0xffc0 = 0xfe80 := by
      apply UInt16.toNat.inj
      have hn := linkLocal (a.seg0.toNat - 0xfe80) (by omega)
      rw [Nat.add_sub_cancel' hlow] at hn
      rw [UInt16.toNat_and]
      exact hn
    simp [hmask]

def PlainSource : IpAddr → Prop
  | .v4 _ => True
  | .v6 a => ∀ v4 ∈ a.toIpv4Mapped, isUnreachableV4 v4 = false

theorem not_undialable_of_public {ip : IpAddr} (hpublic : isPublic ip = true)
    (hplain : PlainSource ip) : ¬ Undialable ip := by
  have hreach : isUnreachableForPeers ip = false := by simpa [isPublic] using hpublic
  intro h
  cases ip with
  | v4 a =>
    have hclosed := isUnreachableV4_of_undialable h
    rw [isUnreachableForPeers, hclosed] at hreach
    cases hreach
  | v6 a =>
    simp only [Undialable] at h
    cases hmapped : a.toIpv4Mapped with
    | none =>
      rw [hmapped] at h
      have hclosed := isUnreachableV6_of_undialable h
      rw [isUnreachableForPeers, hclosed] at hreach
      cases hreach
    | some v4 =>
      rw [hmapped] at h
      have hclosed := isUnreachableV4_of_undialable h
      rw [hplain v4 hmapped] at hclosed
      cases hclosed

section

variable [Crates] {G : Uuid → Ipv6Addr → Prop}

def reportOf (k : Uuid) : Op × Reply → Option (SocketAddr × UInt16)
  | (.register _ req _ (some obs), .register (.ok r)) =>
    if r.entry.peerId = k then req.wgListenPort.map (fun port => (obs, port)) else none
  | (.heartbeat _ req (some obs), .heartbeat (.ok _)) =>
    if Uuid.parseStr req.peerId = .ok k then req.wgListenPort.map (fun port => (obs, port))
    else none
  | _ => none

def ResolvedEndpoint.From (a : ResolvedEndpoint) (obs : SocketAddr) (port : UInt16) : Prop :=
  isPublic obs.ip = true ∧ a.endpoint = some (reflexiveEndpoint obs.ip port)

omit [Crates] in
theorem roam_reflexive {a : ResolvedEndpoint} {observed : Option SocketAddr}
    {wgListenPort : Option UInt16} {relayOnly : Bool} :
    a.roam observed wgListenPort relayOnly = a ∨ ∃ obs port, observed = some obs ∧
      wgListenPort = some port ∧ (a.roam observed wgListenPort relayOnly).From obs port := by
  unfold ResolvedEndpoint.roam
  split
  · exact .inl rfl
  · split
    · rename_i obs port
      by_cases hpub : isPublic obs.ip = true
      · rw [if_pos hpub]
        exact .inr ⟨obs, port, rfl, rfl, hpub, rfl⟩
      · rw [if_neg hpub]
        exact .inl rfl
    · exact .inl rfl

omit [Crates] in
theorem resolved_reflexive {req : RegisterRequest} {observed : Option SocketAddr}
    (h : (req.resolved observed).reflexive = true) :
    ∃ obs port, observed = some obs ∧ req.wgListenPort = some port ∧
      (req.resolved observed).From obs port := by
  unfold RegisterRequest.resolved resolveListenEndpoint at h ⊢
  by_cases honly : req.relayOnly = true
  · rw [if_pos honly] at h
    cases h
  · rw [if_neg honly] at h ⊢
    generalize req.listenEndpoint.filter (fun s => s ≠ "") = reported at h ⊢
    cases reported with
    | some text => cases h
    | none =>
      cases observed with
      | none => cases h
      | some obs =>
        cases hport : req.wgListenPort with
        | none =>
          rw [hport] at h
          cases h
        | some port =>
          rw [hport] at h
          dsimp only at h ⊢
          by_cases hpub : isPublic obs.ip = true
          · rw [if_pos hpub]
            exact ⟨obs, port, rfl, rfl, hpub, rfl⟩
          · rw [if_neg hpub] at h
            cases h

theorem advertAfter_reflexive {k : Uuid} {before : Option ResolvedEndpoint}
    {a : ResolvedEndpoint} {op : Op} {reply : Reply}
    (h : advertAfter k before op reply = some a) (hmark : a.reflexive = true) :
    before = some a ∨ ∃ obs port, reportOf k (op, reply) = some (obs, port) ∧ a.From obs port := by
  unfold advertAfter at h
  split at h
  · rename_i amb req bearer observed r
    by_cases hk : r.entry.peerId = k
    · rw [if_pos hk] at h
      obtain rfl := Option.some.inj h
      obtain ⟨obs, port, rfl, hport, hfrom⟩ := resolved_reflexive hmark
      exact .inr ⟨obs, port, by simp only [reportOf, if_pos hk, hport, Option.map_some], hfrom⟩
    · rw [if_neg hk] at h
      exact .inl h
  · rename_i amb req observed resp
    by_cases hk : Uuid.parseStr req.peerId = .ok k
    · rw [if_pos hk] at h
      obtain ⟨old, rfl, hroam⟩ := Option.map_eq_some_iff.mp h
      have hcases : old.roam observed req.wgListenPort req.relayOnly = old ∨ ∃ obs port,
          observed = some obs ∧ req.wgListenPort = some port ∧
          (old.roam observed req.wgListenPort req.relayOnly).From obs port := roam_reflexive
      rcases hcases with hsame | ⟨obs, port, rfl, hport, hfrom⟩
      · rw [hsame] at hroam
        exact .inl (congrArg some hroam)
      · rw [hroam] at hfrom
        exact .inr ⟨obs, port, by simp only [reportOf, if_pos hk, hport, Option.map_some], hfrom⟩
    · rw [if_neg hk] at h
      exact .inl h
  · exact .inl h

def Reported (tr : List (Op × Reply)) (s : Mesh) : Prop :=
  ∀ k e, s.coordinator.roster.lookup k = some e → e.endpointIsReflexive = true →
    ∃ x ∈ tr, ∃ obs port, reportOf k x = some (obs, port) ∧ e.advert.From obs port

theorem reported_of_reach {cfg : Config} {tr : List (Op × Reply)} {s : Mesh}
    (h : (mesh cfg).Reach tr s) : Reported tr s := by
  refine Machine.Run.invariant (I := Reported) ?_ ?_ h
  · intro k e he
    cases he
  · intro tr s op hrun hreported _ _ k e he hmark
    have hinv := inv_of_reach hrun
    change (s.step op).1.coordinator.roster.lookup k = some e at he
    by_cases hlive : op.Live
    · have hafter := Mesh.step_advert hinv hlive he
      rcases advertAfter_reflexive hafter hmark with hbefore | ⟨obs, port, hreport, hfrom⟩
      · obtain ⟨old, hold, hsame⟩ := Option.map_eq_some_iff.mp hbefore
        have hmarked : old.endpointIsReflexive = true :=
          (congrArg ResolvedEndpoint.reflexive hsame).trans hmark
        obtain ⟨x, hx, obs, port, hreport, hfrom⟩ := hreported k old hold hmarked
        exact ⟨x, List.mem_cons_of_mem _ hx, obs, port, hreport, hsame ▸ hfrom⟩
      · exact ⟨_, List.mem_cons_self, obs, port, hreport, hfrom⟩
    · -- a restored entry is not marked
      cases op with
      | restart cfg now file =>
        obtain ⟨l, -, -, -, hfrom⟩ := hinv.restart_restoredFrom now file
        obtain ⟨old, -, -, rfl⟩ := hfrom.roster.mp he
        cases hmark
      | _ => exact absurd trivial hlive

def Dialable (observed : Option SocketAddr) (wgListenPort : Option UInt16) : Prop :=
  wgListenPort ≠ some 0 ∧ ∀ obs ∈ observed, PlainSource obs.ip

/-- The request comes from no IPv4-mapped form of an unreachable address and does not report port
zero. -/
def Op.ReportsDialable : Op → Prop
  | .register _ req _ observed => Dialable observed req.wgListenPort
  | .heartbeat _ req observed => Dialable observed req.wgListenPort
  | _ => True

theorem dialable_of_report {k : Uuid} {x : Op × Reply} {obs : SocketAddr} {port : UInt16}
    (h : reportOf k x = some (obs, port)) (hop : x.1.ReportsDialable) :
    port ≠ 0 ∧ PlainSource obs.ip := by
  have key : ∀ {wgListenPort : Option UInt16} {src : SocketAddr},
      Dialable (some src) wgListenPort →
      wgListenPort.map (fun port => (src, port)) = some (obs, port) →
      port ≠ 0 ∧ PlainSource obs.ip := by
    intro wgListenPort src hdial hmap
    obtain ⟨port', rfl, heq⟩ := Option.map_eq_some_iff.mp hmap
    obtain ⟨rfl, rfl⟩ := Prod.mk.inj heq
    exact ⟨fun hzero => hdial.1 (congrArg some hzero), hdial.2 src rfl⟩
  unfold reportOf at h
  split at h
  · split at h
    · exact key hop h
    · cases h
  · split at h
    · exact key hop h
    · cases h
  · cases h

omit [Crates] in
theorem parse_reflexiveEndpoint (ip : IpAddr) (port : UInt16) :
    SocketAddr.parse (reflexiveEndpoint ip port) = some (SocketAddr.new ip port) := by
  cases ip with
  | v4 a => exact StdNet.SocketAddr.parse_toString_v4 a port
  | v6 a => exact StdNet.SocketAddr.parse_toString_v6 a port 0 0

/-- In every run whose requests report dialable addresses, an endpoint marked as derived parses
back to the address and the port of one of the peer's requests, and can be dialled. -/
theorem derived_endpoints_dialable {cfg : Config} {tr : List (Op × Reply)} {s : Mesh}
    (h : (mesh cfg).Run (fun _ op => op.ReportsDialable) tr s) :
    ∀ k e, s.coordinator.roster.lookup k = some e → e.endpointIsReflexive = true →
      ∃ x ∈ tr, ∃ obs port text, reportOf k x = some (obs, port) ∧
        e.listenEndpoint = some text ∧
        SocketAddr.parse text = some (SocketAddr.new obs.ip port) ∧ port ≠ 0 ∧
        ¬ Undialable obs.ip := by
  intro k e he hmark
  have hops : ∀ x ∈ tr, x.1.ReportsDialable := by
    refine Machine.Run.invariant (I := fun tr _ => ∀ x ∈ tr, x.1.ReportsDialable) ?_ ?_ h
    · intro x hx
      cases hx
    · intro tr s op _ hold _ hop x hx
      rcases List.mem_cons.mp hx with rfl | hx
      · exact hop
      · exact hold x hx
  obtain ⟨x, hx, obs, port, hreport, hpublic, hend⟩ := reported_of_reach h.reach k e he hmark
  obtain ⟨hport, hplain⟩ := dialable_of_report hreport (hops x hx)
  exact ⟨x, hx, obs, port, _, hreport, hend, parse_reflexiveEndpoint obs.ip port, hport,
    not_undialable_of_public hpublic hplain⟩

end

instance (a : Ipv4Addr) : Decidable (UndialableV4 a) := inferInstanceAs (Decidable (_ ∨ _))

instance : (ip : IpAddr) → Decidable (PlainSource ip)
  | .v4 _ => .isTrue trivial
  | .v6 a => Option.decidableForallMem a.toIpv4Mapped

instance (observed : Option SocketAddr) (wgListenPort : Option UInt16) :
    Decidable (Dialable observed wgListenPort) :=
  have : Decidable (∀ obs ∈ observed, PlainSource obs.ip) := Option.decidableForallMem observed
  inferInstanceAs (Decidable (_ ∧ _))

instance : (op : Op) → Decidable op.ReportsDialable
  | .register _ req _ observed => inferInstanceAs (Decidable (Dialable observed req.wgListenPort))
  | .heartbeat _ req observed => inferInstanceAs (Decidable (Dialable observed req.wgListenPort))
  | .deregister .. | .sweep .. | .putPolicy .. | .postDirect .. | .setProactive ..
  | .postCommand .. | .openStream .. | .pollStream .. | .closeStream .. | .relayConnect ..
  | .relayUplink .. | .relayDeliver .. | .relaySendEnd .. | .relayDisconnect ..
  | .reorderRoster .. | .restart .. => .isTrue trivial

section Example

attribute [local instance] referenceCrates

def natOp (nowV7 : Uuid) (key : String) (obs : SocketAddr) (port : UInt16) : Op :=
  .register (ambientAt 0 nowV7) { plainRequest key "" none with wgListenPort := some port } none
    (some obs)

def publicOps : List Op := [natOp 1 keyOne (.v4 ⟨8, 8, 8, 8⟩ 999) 51820]

theorem derived_endpoints_dialable_public :
    ∃ e, (stateAfter openConfig publicOps).coordinator.roster.lookup 1 = some e ∧
      e.endpointIsReflexive = true ∧
      ∃ x ∈ traceAfter openConfig publicOps, ∃ obs port text,
        reportOf 1 x = some (obs, port) ∧ e.listenEndpoint = some text ∧
        SocketAddr.parse text = some (SocketAddr.new obs.ip port) ∧ port ≠ 0 ∧
        ¬ Undialable obs.ip := by
  have hall : (mesh openConfig).Admissible (fun _ op => op.ReportsDialable) []
        (Mesh.init openConfig) publicOps ∧
      ((stateAfter openConfig publicOps).coordinator.roster.lookup 1).map
        PeerEntry.endpointIsReflexive = some true := by decide
  obtain ⟨hadm, hmark⟩ := hall
  obtain ⟨e, he, hmark⟩ := Option.map_eq_some_iff.mp hmark
  have hrun : (mesh openConfig).Run (fun _ op => op.ReportsDialable)
      (traceAfter openConfig publicOps) (stateAfter openConfig publicOps) :=
    Machine.Run.start.exec hadm
  exact ⟨e, he, hmark, derived_endpoints_dialable hrun 1 e he hmark⟩

def mappedPrivate : Ipv6Addr := ⟨0, 0, 0, 0, 0, 0xffff, 0x0a00, 1⟩

def mappedOps : List Op :=
  [natOp 1 keyOne (.v6 mappedPrivate 999 0 0) 51820, natOp 2 keyTwo (.v4 ⟨8, 8, 8, 8⟩ 999) 0]

/-- A dual-stack listener sees an IPv4 peer under its mapped address: the private `10.0.0.1` is
advertised, and so is port zero. -/
theorem mapped_private_source_advertised :
    ∃ tr s, (mesh openConfig).Reach tr s ∧
      (∃ e text, s.coordinator.roster.lookup 1 = some e ∧ e.endpointIsReflexive = true ∧
        e.listenEndpoint = some text ∧
        SocketAddr.parse text = some (SocketAddr.new (.v6 mappedPrivate) 51820) ∧
        Undialable (.v6 mappedPrivate)) ∧
      ∃ e text, s.coordinator.roster.lookup 2 = some e ∧ e.endpointIsReflexive = true ∧
        e.listenEndpoint = some text ∧
        SocketAddr.parse text = some (SocketAddr.new (.v4 ⟨8, 8, 8, 8⟩) 0) := by
  have hall : (mesh openConfig).Admissible (fun _ _ => True) [] (Mesh.init openConfig) mappedOps ∧
      ((stateAfter openConfig mappedOps).coordinator.roster.lookup 1).map
        (fun e => (e.endpointIsReflexive, e.listenEndpoint)) =
          some (true, some (reflexiveEndpoint (.v6 mappedPrivate) 51820)) ∧
      ((stateAfter openConfig mappedOps).coordinator.roster.lookup 2).map
        (fun e => (e.endpointIsReflexive, e.listenEndpoint)) =
          some (true, some (reflexiveEndpoint (.v4 ⟨8, 8, 8, 8⟩) 0)) := by decide +kernel
  obtain ⟨hadm, hone, htwo⟩ := hall
  obtain ⟨e, he, hpair⟩ := Option.map_eq_some_iff.mp hone
  obtain ⟨e', he', hpair'⟩ := Option.map_eq_some_iff.mp htwo
  obtain ⟨hmark, hend⟩ := Prod.mk.inj hpair
  obtain ⟨hmark', hend'⟩ := Prod.mk.inj hpair'
  have hprivate : Undialable (.v6 mappedPrivate) := by
    show UndialableV4 ⟨10, 0, 0, 1⟩
    decide
  exact ⟨_, _, reach_of_admissible hadm,
    ⟨e, _, he, hmark, hend, parse_reflexiveEndpoint _ _, hprivate⟩,
    ⟨e', _, he', hmark', hend', parse_reflexiveEndpoint _ _⟩⟩

end Example

end ServiceMesh
