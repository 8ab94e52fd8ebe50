import ServiceMesh.OwnAddress

/-! A node that keeps its key and its address in an identity file, over many starts. -/

namespace ServiceMesh

open StdNet (Ipv6Addr)

/-- What one start meets: the key the node would generate, whether the address it asks for is
taken, and the address it gets when it does not ask for any. -/
structure StartOp where
  fresh : List UInt8
  conflicts : Bool
  free : Ipv6Addr
  peerId : Uuid
  wgListenPort : UInt16
  gate : CommandGate
  opened : Bool
deriving DecidableEq

inductive StartReport
  | unresolved (error : String)
  | refused (identity : ResolvedIdentity)
  | registered (identity : ResolvedIdentity) (ula : String) (up : Bool)
deriving DecidableEq

def StartOp.coordinator (op : StartOp) (args : RegisterArgs) :
    Except HeartbeatFailure Client.RegisterResponse :=
  match args.requestedUla with
  | none => .ok ⟨op.peerId, op.free.toString⟩
  | some raw =>
    if op.conflicts then .error (.httpStatus 409)
    else
      match Ipv6Addr.parse raw with
      | some ula => .ok ⟨op.peerId, ula.toString⟩
      | none => .error (.httpStatus 400)

def StartOp.answer (op : StartOp) (u : Startup) :
    Except HeartbeatFailure Client.RegisterResponse :=
  (registerWith409Fallback u.inputs (fun (_ : Unit) args => ((), op.coordinator args)) ()
    (u.args false)).2

def startStep (config : JoinConfig) (d : Disk) (op : StartOp) : Disk × StartReport :=
  match d.resolveIdentity config op.fresh with
  | (d, .error e) => (d, .unresolved e)
  | (d, .ok identity) =>
    let u : Startup := ⟨config, identity, op.wgListenPort, op.gate⟩
    match op.answer u with
    | .error _ => (d, .refused identity)
    -- the file can be written
    | .ok resp => ((u.comeUp d true op.opened resp).2, .registered identity resp.ula op.opened)

def starts (config : JoinConfig) (disk : Disk) : Machine Disk StartOp StartReport where
  init := disk
  step := startStep config
  admits _ _ := True

def lastAssigned (key : List UInt8) : List (StartOp × StartReport) → Option Ipv6Addr
  | [] => none
  | (_, .registered identity ula _) :: tr =>
    if identity.publicKey = key then Ipv6Addr.parse ula else lastAssigned key tr
  | _ :: tr => lastAssigned key tr

def Sticky (config : JoinConfig) (d : Disk) (key : List UInt8) (ula : Ipv6Addr) : Prop :=
  ∀ fresh, ∃ identity raw, d.resolveIdentity config fresh = (d, .ok identity) ∧
    identity.publicKey = key ∧ identity.effectiveRequestedUla = some raw ∧
    Ipv6Addr.parse raw = some ula

/-- An explicit address is written the way the node writes addresses; and the coordinator does not
give a node that kept its address another one. -/
def Sticks (config : JoinConfig) (path : String) (d : Disk) (op : StartOp) : Prop :=
  (∀ raw ∈ config.requestedUla, ∀ ula, Ipv6Addr.parse raw = some ula → raw = ula.toString) ∧
    (op.conflicts = true → config.requestedUla = none →
      ∀ identity, d.identities path = .ok (some identity) → op.free = identity.ula)

section Step

variable {config : JoinConfig} {path : String} {d : Disk}

theorem resolveIdentity_fresh (hpath : config.identityPath = some path)
    (hstored : d.identities path = .ok none) (fresh : List UInt8) :
    d.resolveIdentity config fresh = (d, .ok ⟨fresh, none, config.requestedUla⟩) := by
  unfold Disk.resolveIdentity Disk.loadIdentity
  simp only [hpath, Disk.loadOrFresh, hstored]
  cases config.requestedUla <;> rfl

theorem resolveIdentity_stored (hpath : config.identityPath = some path) {stored : PeerIdentity}
    (hstored : d.identities path = .ok (some stored)) (fresh : List UInt8)
    (hagrees : ∀ raw ∈ config.requestedUla, raw = stored.ula.toString) :
    d.resolveIdentity config fresh =
      (d, .ok ⟨stored.publicKey, some stored.ula, some stored.ula.toString⟩) := by
  unfold Disk.resolveIdentity Disk.loadIdentity
  simp only [hpath, Disk.loadOrFresh, hstored]
  cases hrequested : config.requestedUla with
  | none => rfl
  | some raw =>
    have hraw := hagrees raw (by simp [hrequested])
    simp [hraw]

theorem sticky_stored_iff (hpath : config.identityPath = some path) {stored : PeerIdentity}
    (hstored : d.identities path = .ok (some stored)) {ula : Ipv6Addr} :
    Sticky config d stored.publicKey ula ↔
      ula = stored.ula ∧ ∀ raw ∈ config.requestedUla, raw = stored.ula.toString := by
  constructor
  · intro hsticky
    obtain ⟨identity, raw, hresolve, -, hraw, hparse⟩ := hsticky []
    have hagrees : ∀ raw ∈ config.requestedUla, raw = stored.ula.toString := by
      intro requested hrequested
      by_contra hne
      have hsome : config.requestedUla = some requested := hrequested
      unfold Disk.resolveIdentity Disk.loadIdentity at hresolve
      simp [hpath, Disk.loadOrFresh, hstored, hsome, hne] at hresolve
    rw [resolveIdentity_stored hpath hstored [] hagrees] at hresolve
    simp only [Prod.mk.injEq, true_and, Except.ok.injEq] at hresolve
    rw [← hresolve, Option.some.injEq] at hraw
    rw [← hraw, Ipv6Addr.parse_toString, Option.some.injEq] at hparse
    exact ⟨hparse.symm, hagrees⟩
  · rintro ⟨rfl, hagrees⟩ fresh
    exact ⟨_, _, resolveIdentity_stored hpath hstored fresh hagrees, rfl, rfl,
      Ipv6Addr.parse_toString _⟩

def StartOp.assigned (op : StartOp) (strict : Bool) : Option String → Option Ipv6Addr
  | none => some op.free
  | some raw =>
    if op.conflicts then (if strict then none else some op.free) else Ipv6Addr.parse raw

theorem answer_eq_ok_iff {op : StartOp} {u : Startup} {resp : Client.RegisterResponse} :
    op.answer u = .ok resp ↔
      ∃ ula, op.assigned u.config.requestedUla.isSome u.identity.effectiveRequestedUla = some ula ∧
        resp = ⟨op.peerId, ula.toString⟩ := by
  unfold StartOp.answer registerWith409Fallback StartOp.coordinator StartOp.assigned
  cases hrequested : u.identity.effectiveRequestedUla with
  | none => simp [Startup.args, hrequested, ReregisterInputs.fallsBack, eq_comm]
  | some raw =>
    cases hconflict : op.conflicts with
    | true =>
      -- the second attempt is made unless the address was asked for explicitly
      cases hstrict : u.config.requestedUla.isSome with
      | true =>
        simp [Startup.args, hrequested, ReregisterInputs.fallsBack, Startup.inputs,
          buildReregisterInputs, hstrict]
      | false =>
        simp [Startup.args, hrequested, ReregisterInputs.fallsBack, Startup.inputs,
          buildReregisterInputs, hstrict, eq_comm]
    | false =>
      cases hparse : Ipv6Addr.parse raw with
      | none => simp [Startup.args, hrequested, ReregisterInputs.fallsBack, hparse]
      | some ula => simp [Startup.args, hrequested, ReregisterInputs.fallsBack, hparse, eq_comm]

theorem startStep_eq_registered {op : StartOp} {d₁ d' : Disk} {found : ResolvedIdentity}
    (hresolve : d.resolveIdentity config op.fresh = (d₁, .ok found))
    {identity : ResolvedIdentity} {text : String} {up : Bool}
    (hstep : startStep config d op = (d', .registered identity text up)) :
    identity = found ∧ ∃ ula, text = ula.toString ∧
      op.assigned config.requestedUla.isSome identity.effectiveRequestedUla = some ula ∧
      d₁.persistIdentityIfFresh config identity ula true = some d' := by
  rw [startStep, hresolve] at hstep
  simp only at hstep
  split at hstep
  · simp at hstep
  · rename_i resp hanswer
    obtain ⟨ula, hassigned, rfl⟩ := answer_eq_ok_iff.mp hanswer
    simp only [Startup.comeUp, Ipv6Addr.parse_toString, Prod.mk.injEq, StartReport.registered.injEq]
      at hstep
    obtain ⟨hdisk, rfl, rfl, -⟩ := hstep
    refine ⟨rfl, ula, rfl, hassigned, ?_⟩
    cases hpersist : d₁.persistIdentityIfFresh config found ula true with
    | none =>
      unfold Disk.persistIdentityIfFresh at hpersist
      split at hpersist <;> simp at hpersist
    | some d₂ =>
      rw [hpersist] at hdisk
      simpa using hdisk

theorem unresolved_of_disagrees (hpath : config.identityPath = some path) {stored : PeerIdentity}
    (hstored : d.identities path = .ok (some stored)) {raw : String}
    (hraw : config.requestedUla = some raw) (hne : raw ≠ stored.ula.toString)
    (fresh : List UInt8) : ∃ e, d.resolveIdentity config fresh = (d, .error e) := by
  unfold Disk.resolveIdentity Disk.loadIdentity
  simp [hpath, Disk.loadOrFresh, hstored, hraw, hne]

theorem sticky_startStep_iff (hpath : config.identityPath = some path)
    {found : Option PeerIdentity} (hfound : d.identities path = .ok found) {op : StartOp}
    {d' : Disk} {identity : ResolvedIdentity} {text : String} {up : Bool}
    (hstep : startStep config d op = (d', .registered identity text up)) :
    ∃ ula left, Ipv6Addr.parse text = some ula ∧ d'.identities path = .ok (some left) ∧
      (Sticky config d' identity.publicKey ula ↔ Sticks config path d op) := by
  cases found with
  | none =>
    obtain ⟨rfl, ula, rfl, hassigned, hpersist⟩ :=
      startStep_eq_registered (resolveIdentity_fresh hpath hfound op.fresh) hstep
    simp only [Disk.persistIdentityIfFresh, hpath, if_true, Option.some.injEq] at hpersist
    have hleft : d'.identities path = .ok (some ⟨op.fresh, ula⟩) := by simp [← hpersist]
    refine ⟨ula, _, Ipv6Addr.parse_toString ula, hleft, ?_⟩
    rw [sticky_stored_iff hpath hleft]
    cases hrequested : config.requestedUla with
    | none => simp [Sticks, hrequested, hfound]
    | some raw =>
      have hparse : Ipv6Addr.parse raw = some ula := by
        rw [hrequested] at hassigned
        simp only [StartOp.assigned, Option.isSome_some, if_true] at hassigned
        split at hassigned
        · simp at hassigned
        · exact hassigned
      simp [Sticks, hrequested, hparse]
  | some stored =>
    by_cases hagrees : ∀ raw ∈ config.requestedUla, raw = stored.ula.toString
    · obtain ⟨rfl, ula, rfl, hassigned, hpersist⟩ :=
        startStep_eq_registered (resolveIdentity_stored hpath hfound op.fresh hagrees) hstep
      simp only [Disk.persistIdentityIfFresh, hpath, Option.some.injEq] at hpersist
      rw [← hpersist]
      refine ⟨ula, stored, Ipv6Addr.parse_toString ula, hfound, ?_⟩
      rw [sticky_stored_iff hpath hfound]
      have hcanonical : ∀ raw ∈ config.requestedUla, ∀ ula, Ipv6Addr.parse raw = some ula →
          raw = ula.toString := by
        intro raw hraw ula' hparse
        rw [hagrees raw hraw, Ipv6Addr.parse_toString, Option.some.injEq] at hparse
        rw [hagrees raw hraw, hparse]
      simp only [StartOp.assigned, Ipv6Addr.parse_toString] at hassigned
      by_cases hconflict : op.conflicts = true
      · -- only a node that may fall back gets an address at all
        rw [if_pos hconflict] at hassigned
        cases hrequested : config.requestedUla with
        | some raw => simp [hrequested] at hassigned
        | none =>
          simp only [hrequested, Option.isSome_none, Bool.false_eq_true, if_false,
            Option.some.injEq] at hassigned
          simp [Sticks, hrequested, hconflict, hfound, hassigned]
      · rw [if_neg hconflict, Option.some.injEq] at hassigned
        exact iff_of_true ⟨hassigned.symm, hagrees⟩ ⟨hcanonical, fun hc => absurd hc hconflict⟩
    · push Not at hagrees
      obtain ⟨raw, hraw, hne⟩ := hagrees
      obtain ⟨e, hresolve⟩ := unresolved_of_disagrees hpath hfound hraw hne op.fresh
      rw [startStep, hresolve] at hstep
      simp at hstep

theorem startStep_disk (hpath : config.identityPath = some path)
    {found : Option PeerIdentity} (hfound : d.identities path = .ok found) {op : StartOp}
    (hfailed : ∀ identity text up, (startStep config d op).2 ≠ .registered identity text up) :
    (startStep config d op).1 = d := by
  have hdisk : (d.resolveIdentity config op.fresh).1 = d := by
    unfold Disk.resolveIdentity Disk.loadIdentity
    simp only [hpath, Disk.loadOrFresh, hfound]
    cases found with
    | none => cases config.requestedUla <;> rfl
    | some stored =>
      cases config.requestedUla with
      | none => rfl
      | some raw => by_cases hne : raw = stored.ula.toString <;> simp [hne]
  rw [startStep] at hfailed ⊢
  generalize d.resolveIdentity config op.fresh = r at hdisk hfailed ⊢
  obtain ⟨d₁, r⟩ := r
  cases r with
  | error e => exact hdisk
  | ok identity =>
    simp only at hfailed ⊢
    split at hfailed
    · exact hdisk
    · exact absurd rfl (hfailed _ _ _)

theorem lastAssigned_of_ne {op : StartOp} {report : StartReport} {key : List UInt8}
    {tr : List (StartOp × StartReport)}
    (hfailed : ∀ identity text up, report ≠ .registered identity text up) :
    lastAssigned key ((op, report) :: tr) = lastAssigned key tr := by
  cases report with
  | unresolved e => rfl
  | refused identity => rfl
  | registered identity text up => exact absurd rfl (hfailed identity text up)

def KeepsIdentity (config : JoinConfig) (path : String) (tr : List (StartOp × StartReport))
    (d : Disk) : Prop :=
  (∃ found, d.identities path = .ok found) ∧
    ∀ op identity text up, (op, StartReport.registered identity text up) ∈ tr →
      ∃ ula, lastAssigned identity.publicKey tr = some ula ∧
        Sticky config d identity.publicKey ula

theorem KeepsIdentity.step (hpath : config.identityPath = some path)
    {tr : List (StartOp × StartReport)} (h : KeepsIdentity config path tr d) {op : StartOp}
    (hsticks : Sticks config path d op) :
    KeepsIdentity config path ((op, (startStep config d op).2) :: tr) (startStep config d op).1 := by
  obtain ⟨⟨found, hfound⟩, hsticky⟩ := h
  by_cases hfailed : ∀ identity text up, (startStep config d op).2 ≠ .registered identity text up
  · rw [startStep_disk hpath hfound hfailed]
    refine ⟨⟨found, hfound⟩, ?_⟩
    intro op' identity text up hmem
    rw [lastAssigned_of_ne hfailed]
    rcases List.mem_cons.mp hmem with heq | hmem
    · exact absurd (Prod.mk.inj heq).2.symm (hfailed identity text up)
    · exact hsticky op' identity text up hmem
  · push Not at hfailed
    obtain ⟨identity, text, up, hreport⟩ := hfailed
    have hstep : startStep config d op =
        ((startStep config d op).1, .registered identity text up) := by rw [← hreport]
    obtain ⟨ula, left, hparse, hleft, hiff⟩ := sticky_startStep_iff hpath hfound hstep
    refine ⟨⟨_, hleft⟩, ?_⟩
    intro op' identity' text' up' hmem
    -- whoever registered before, this start resolved to the same key
    have hkey : identity'.publicKey = identity.publicKey := by
      rcases List.mem_cons.mp hmem with heq | hmem
      · rw [hreport] at heq
        obtain ⟨-, heq⟩ := Prod.mk.inj heq
        rw [(StartReport.registered.inj heq).1]
      · obtain ⟨ula', -, hold⟩ := hsticky op' identity' text' up' hmem
        obtain ⟨resolved, raw, hresolve, hkey, -⟩ := hold op.fresh
        rw [(startStep_eq_registered hresolve hstep).1]
        exact hkey.symm
    refine ⟨ula, ?_, ?_⟩
    · rw [hreport, lastAssigned, if_pos hkey.symm, hparse]
    · rw [hkey]
      exact hiff.mpr hsticks

end Step

/-- In a run of starts that all meet the condition, every start after one that registered has its
key and asks for the address that the coordinator gave to that key last. -/
theorem sticky_identity_survives {config : JoinConfig} {path : String} {disk : Disk}
    (hpath : config.identityPath = some path) (hreads : ∃ found, disk.identities path = .ok found)
    {tr : List (StartOp × StartReport)} {d : Disk}
    (h : (starts config disk).Run (Sticks config path) tr d) {op : StartOp}
    {identity : ResolvedIdentity} {text : String} {up : Bool}
    (hjoined : (op, .registered identity text up) ∈ tr) :
    ∃ ula, lastAssigned identity.publicKey tr = some ula ∧
      Sticky config d identity.publicKey ula := by
  have hkeeps : KeepsIdentity config path tr d := by
    refine h.invariant (I := KeepsIdentity config path) ⟨hreads, by simp⟩ ?_
    intro tr d op _ ih _ hsticks
    exact ih.step hpath hsticks
  exact hkeeps.2 op identity text up hjoined

section Example

def stickyConfig (requestedUla : Option String) : JoinConfig :=
  ⟨some "mesh-identity.json", none, requestedUla, none, "node", [], none, none, none, none, false,
    none⟩

def startOp (conflicts : Bool) (free : Ipv6Addr) : StartOp :=
  ⟨List.replicate 32 1, conflicts, free, 1, 51820, CommandGate.new none [], true⟩

def firstUla : Ipv6Addr := ⟨0xfd00, 0, 0, 0, 0, 0, 0, 1⟩

def otherUla : Ipv6Addr := ⟨0xfd00, 0, 0, 0, 0, 0, 0, 2⟩

def startsOf (requestedUla : Option String) (ops : List StartOp) :
    List (StartOp × StartReport) × Disk :=
  (starts (stickyConfig requestedUla) Disk.empty).exec [] Disk.empty ops

def capitalsRun : List (StartOp × StartReport) × Disk :=
  startsOf (some "FD00::1") [startOp false otherUla, startOp false otherUla]

def reassignedRun : List (StartOp × StartReport) × Disk :=
  startsOf none [startOp false firstUla, startOp true otherUla]

theorem identity_does_not_stick :
    capitalsRun.1.map Prod.snd =
        [.unresolved "explicit requested ULA FD00::1 differs from persisted identity ULA fd00::1",
          .registered ⟨List.replicate 32 1, none, some "FD00::1"⟩ "fd00::1" true] ∧
      lastAssigned (List.replicate 32 1) reassignedRun.1 = some otherUla ∧
      (reassignedRun.2.resolveIdentity (stickyConfig none) []).2 =
        .ok ⟨List.replicate 32 1, some firstUla, some "fd00::1"⟩ := by
  refine ⟨by decide, by decide, by decide⟩

theorem sticky_identity_survives_restart :
    Sticky (stickyConfig (some "fd00::1"))
      (startsOf (some "fd00::1") [startOp false otherUla, startOp true otherUla]).2
      (List.replicate 32 1) firstUla := by
  have hcanonical : ∀ raw ∈ some "fd00::1", ∀ ula, Ipv6Addr.parse raw = some ula →
      raw = ula.toString := by
    intro raw hraw ula hparse
    obtain rfl : "fd00::1" = raw := by simpa using hraw
    have hfirst : Ipv6Addr.parse "fd00::1" = some firstUla := by decide
    rw [hfirst, Option.some.injEq] at hparse
    rw [← hparse]
    decide
  have hadmissible : (starts (stickyConfig (some "fd00::1")) Disk.empty).Admissible
      (Sticks (stickyConfig (some "fd00::1")) "mesh-identity.json") [] Disk.empty
      [startOp false otherUla, startOp true otherUla] := by
    refine ⟨trivial, ⟨hcanonical, ?_⟩, trivial, ⟨hcanonical, ?_⟩, trivial⟩
    · intro _ hnone
      simp [stickyConfig] at hnone
    · intro _ hnone
      simp [stickyConfig] at hnone
  have hjoined : (startOp false otherUla,
      StartReport.registered ⟨List.replicate 32 1, none, some "fd00::1"⟩ "fd00::1" true) ∈
      (startsOf (some "fd00::1") [startOp false otherUla, startOp true otherUla]).1 := by
    decide
  have hlast : lastAssigned (List.replicate 32 1)
      (startsOf (some "fd00::1") [startOp false otherUla, startOp true otherUla]).1 =
      some firstUla := by decide
  obtain ⟨ula, hula, hsticky⟩ :=
    sticky_identity_survives rfl ⟨none, rfl⟩ (Machine.Run.exec .start hadmissible) hjoined
  obtain rfl := Option.some.inj (hlast.symm.trans hula)
  exact hsticky

end Example

end ServiceMesh
