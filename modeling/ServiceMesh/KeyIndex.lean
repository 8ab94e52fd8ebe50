import ServiceMesh.DataPlane

/-! The index by key, which leads a relayed frame to its session. A key that moves to another
address during a reconcile is entered for the new session, and taken out again when the old one
goes after it. -/

namespace ServiceMesh

open StdNet (Ipv6Addr SocketAddr)

namespace SessionTable

variable {t : SessionTable}

def HoldsKey (t : SessionTable) (ula : Ipv6Addr) (key : List UInt8) : Prop :=
  ∃ id s, t.sessionAt ula = some (id, s) ∧ s.peerPubkey = key

variable {key : List UInt8} {t' : SessionTable} {info : Client.PeerInfo}

theorem holdsKey_iff {ula : Ipv6Addr} {id : SessionId} {s : PeerSession}
    (hat : t.sessionAt ula = some (id, s)) : t.HoldsKey ula key ↔ s.peerPubkey = key := by
  constructor
  · rintro ⟨id', s', hat', hkey⟩
    obtain ⟨rfl, rfl⟩ := Prod.mk.inj (Option.some.inj (hat.symm.trans hat'))
    exact hkey
  · intro hkey
    exact ⟨id, s, hat, hkey⟩

theorem not_holdsKey {ula : Ipv6Addr} (hat : t.sessionAt ula = none) (key : List UInt8) :
    ¬ t.HoldsKey ula key := by
  rintro ⟨id, s, hat', -⟩
  rw [hat] at hat'
  simp at hat'

theorem Inv.holdsKey_congr (h : t.Inv) {ula : Ipv6Addr}
    (hula : t'.byUla.lookup ula = t.byUla.lookup ula)
    (hsessions : ∀ {id s}, t.heap.lookup id = some s → ∃ s', t'.heap.lookup id = some s' ∧
      PeerSession.SameSession s s') (key : List UInt8) :
    t'.HoldsKey ula key ↔ t.HoldsKey ula key := by
  cases hid : t.byUla.lookup ula with
  | none =>
    have hnone : t'.sessionAt ula = none := by
      rw [SessionTable.sessionAt, hula, hid]
      rfl
    exact iff_of_false (not_holdsKey hnone key)
      (not_holdsKey (h.sessionAt_eq_none_iff.mpr hid) key)
  | some id =>
    obtain ⟨s, hat, -⟩ := h.sessionAt hid
    obtain ⟨s', hs', hsame⟩ := hsessions (sessionAt_eq_some_iff.mp hat).2
    have hat' : t'.sessionAt ula = some (id, s') :=
      sessionAt_eq_some_iff.mpr ⟨hula.trans hid, hs'⟩
    rw [holdsKey_iff hat, holdsKey_iff hat', hsame.peerPubkey]

structure Rekeyed (t : SessionTable) (info : Client.PeerInfo) (t' : SessionTable) : Prop where
  same : t.HoldsKey info.ula info.wgPublicKey → t'.byPubkey = t.byPubkey
  fresh : ¬ t.HoldsKey info.ula info.wgPublicKey →
    t'.byPubkey.lookup info.wgPublicKey = t'.byUla.lookup info.ula
  others : ∀ key, key ≠ info.wgPublicKey → ∀ id, t'.byPubkey.lookup key = some id ↔
    t.byPubkey.lookup key = some id ∧ ¬ t.HoldsKey info.ula key

theorem upsert_rekeyed (t : SessionTable) (info : Client.PeerInfo) :
    Rekeyed t info (t.upsert info) := by
  have hu := t.upserts info
  generalize t.upsert info = t' at hu
  cases hu with
  | @kept id old hat hkey =>
    refine ⟨fun _ => rfl, fun hnot => absurd ((holdsKey_iff hat).mpr hkey) hnot, ?_⟩
    intro key hne id'
    rw [holdsKey_iff hat, hkey]
    exact (and_iff_left (Ne.symm hne)).symm
  | @rotated id old hat hkey =>
    refine ⟨fun hholds => absurd ((holdsKey_iff hat).mp hholds) hkey, ?_, ?_⟩
    · intro _
      simp [SessionTable.install]
    · intro key hne id'
      simp only [SessionTable.install, SessionTable.unindex, SessionTable.addRoute,
        AList.lookup_insert_eq_ite, AList.lookup_erase_eq_ite, if_neg hne, holdsKey_iff hat]
      by_cases hold : key = old.peerPubkey
      · simp [hold]
      · simp [hold, Ne.symm hold]
  | inserted hat =>
    refine ⟨fun hholds => absurd hholds (not_holdsKey hat _), ?_, ?_⟩
    · intro _
      simp [SessionTable.install]
    · intro key hne id'
      simp only [SessionTable.install, SessionTable.addRoute, AList.lookup_insert_eq_ite,
        if_neg hne]
      exact (and_iff_left (not_holdsKey hat key)).symm

theorem follow_rekeyed (t : SessionTable) (info : Client.PeerInfo) :
    Rekeyed t info (t.follow info) := by
  have hu := t.upsert_rekeyed info
  have hspec := (t.upsert info).reconcileAppRoutes_spec info.ula info.hostedAppUlas
  have hkeys : (t.follow info).byPubkey = (t.upsert info).byPubkey := hspec.byPubkey
  have hulas : (t.follow info).byUla = (t.upsert info).byUla := hspec.byUla
  refine ⟨?_, ?_, ?_⟩
  · rw [hkeys]
    exact hu.same
  · rw [hkeys, hulas]
    exact hu.fresh
  · rw [hkeys]
    exact hu.others

theorem Followed.holdsKey (hf : Followed t info t') (h : t.Inv) {ula : Ipv6Addr}
    (hne : ula ≠ info.ula) (key : List UInt8) : t'.HoldsKey ula key ↔ t.HoldsKey ula key :=
  h.holdsKey_congr (hf.others hne) hf.sessions key

structure Vacated (t : SessionTable) (gone : Ipv6Addr → Prop) (key : List UInt8)
    (t' : SessionTable) : Prop where
  byPubkey : ∀ id, t'.byPubkey.lookup key = some id ↔
    t.byPubkey.lookup key = some id ∧ ∀ ula, gone ula → ¬ t.HoldsKey ula key
  holds : ∀ ula, t'.HoldsKey ula key ↔ t.HoldsKey ula key ∧ ¬ gone ula
  byUla : ∀ ula, ¬ gone ula → t'.byUla.lookup ula = t.byUla.lookup ula

theorem Vacated.refl (t : SessionTable) (key : List UInt8) : Vacated t (fun _ => False) key t :=
  ⟨by simp, by simp, fun _ _ => rfl⟩

theorem Vacated.trans {gone gone' : Ipv6Addr → Prop} {t'' : SessionTable}
    (h : Vacated t gone key t') (h' : Vacated t' gone' key t'') :
    Vacated t (fun ula => gone ula ∨ gone' ula) key t'' where
  byPubkey := by
    intro id
    rw [h'.byPubkey, h.byPubkey, and_assoc]
    refine and_congr_right (fun _ => ?_)
    constructor
    · rintro ⟨hgone, hgone'⟩ ula (hula | hula) hholds
      · exact hgone ula hula hholds
      · by_cases hfirst : gone ula
        · exact hgone ula hfirst hholds
        · exact hgone' ula hula ((h.holds ula).mpr ⟨hholds, hfirst⟩)
    · intro hall
      refine ⟨fun ula hula => hall ula (.inl hula), ?_⟩
      intro ula hula hholds
      exact hall ula (.inr hula) ((h.holds ula).mp hholds).1
  holds := by
    intro ula
    rw [h'.holds, h.holds, and_assoc, not_or]
  byUla := by
    intro ula hula
    rw [h'.byUla ula (fun hc => hula (.inr hc)), h.byUla ula (fun hc => hula (.inl hc))]

theorem Vacated.congr {gone gone' : Ipv6Addr → Prop} (h : Vacated t gone key t')
    (hgone : ∀ ula, gone ula ↔ gone' ula) : Vacated t gone' key t' := by
  have heq : gone = gone' := funext (fun ula => propext (hgone ula))
  exact heq ▸ h

theorem SyncInv.follow_vacated (h : t.SyncInv) (hkey : info.wgPublicKey ≠ key) :
    Vacated t (fun ula => ula = info.ula) key (t.follow info) := by
  have hf := h.inv.follow_spec info
  refine ⟨?_, ?_, fun ula hne => hf.others hne⟩
  · intro id
    rw [(t.follow_rekeyed info).others key (Ne.symm hkey)]
    exact and_congr_right (fun _ => ⟨fun hnot ula hula => hula ▸ hnot, fun hall => hall _ rfl⟩)
  · intro ula
    by_cases hula : ula = info.ula
    · obtain ⟨id, s, hat, hs⟩ := hf.here
      rw [← hula] at hat
      rw [holdsKey_iff hat, hs]
      simp [hula, hkey]
    · rw [hf.holdsKey h.inv hula]
      simp [hula]

theorem SyncInv.remove_vacated (h : t.SyncInv) (ula : Ipv6Addr) (key : List UInt8) :
    Vacated t (fun k => k = ula) key (t.remove ula).1 := by
  have hr := h.removed ula
  have hstays : ∀ k, k ≠ ula → (t.remove ula).1.byUla.lookup k = t.byUla.lookup k := by
    intro k hne
    rw [hr.byUla, if_neg hne]
  refine ⟨?_, ?_, hstays⟩
  · intro id
    have hsingle : (∀ k, k = ula → ¬ t.HoldsKey k key) ↔ ¬ t.HoldsKey ula key :=
      ⟨fun hall => hall _ rfl, fun hnot k hk => hk ▸ hnot⟩
    rw [hsingle]
    unfold SessionTable.remove
    split
    · rename_i hat
      exact (and_iff_left (not_holdsKey hat key)).symm
    · rename_i hat
      simp only [SessionTable.drop, AList.lookup_erase_eq_ite, holdsKey_iff hat]
      split
      · rename_i hkey
        simp [hkey]
      · rename_i hkey
        simp [Ne.symm hkey]
  · intro k
    by_cases hk : k = ula
    · have hnone : (t.remove ula).1.sessionAt k = none := by
        rw [SessionTable.sessionAt, hr.byUla, if_pos hk]
        rfl
      exact iff_of_false (not_holdsKey hnone key) (fun hc => hc.2 hk)
    · have hsessions : ∀ {id s}, t.heap.lookup id = some s →
          ∃ s', (t.remove ula).1.heap.lookup id = some s' ∧ PeerSession.SameSession s s' := by
        intro id s hs
        exact ⟨s, by rw [hr.heap]; exact hs, rfl, rfl, rfl⟩
      rw [h.inv.holdsKey_congr (hstays k hk) hsessions]
      simp [hk]

theorem SyncInv.foldl_follow_vacated (h : t.SyncInv) {infos : List Client.PeerInfo}
    (hkey : ∀ info ∈ infos, info.wgPublicKey ≠ key) :
    Vacated t (fun ula => ula ∈ infos.map Client.PeerInfo.ula) key
      (infos.foldl SessionTable.follow t) := by
  induction infos generalizing t with
  | nil => exact (Vacated.refl t key).congr (by simp)
  | cons info infos ih =>
    have hfirst := h.follow_vacated (hkey info List.mem_cons_self)
    have hrest := ih (h.follow info) (fun r hr => hkey r (List.mem_cons_of_mem info hr))
    exact (hfirst.trans hrest).congr (by simp)

theorem SyncInv.foldl_pruneAt_vacated (h : t.SyncInv) (remoteUlas ulas : List Ipv6Addr)
    (key : List UInt8) :
    Vacated t (fun ula => ula ∈ ulas ∧ ula ∉ remoteUlas) key
      (ulas.foldl (SessionTable.pruneAt remoteUlas) t) := by
  induction ulas generalizing t with
  | nil => exact (Vacated.refl t key).congr (by simp)
  | cons ula ulas ih =>
    have hrest := ih (h.pruneAt remoteUlas ula)
    have hfirst : Vacated t (fun k => k = ula ∧ k ∉ remoteUlas) key
        (SessionTable.pruneAt remoteUlas t ula) := by
      unfold SessionTable.pruneAt
      split
      · rename_i hremote
        refine (Vacated.refl t key).congr (fun k => iff_of_false id ?_)
        rintro ⟨rfl, hnot⟩
        exact hnot hremote
      · rename_i hremote
        refine (h.remove_vacated ula key).congr (fun k => (and_iff_left_of_imp ?_).symm)
        rintro rfl
        exact hremote
    refine (hfirst.trans hrest).congr (fun k => ?_)
    rw [List.mem_cons, or_and_right]

/-- Nothing takes the key of the record away from the session at its address: no session holds
the key but the one in its place, to which the key leads; or the place gets a new session, and
every session with the key has been given another one by then. -/
def Settles (t : SessionTable) (earlier : List Client.PeerInfo) (info : Client.PeerInfo) : Prop :=
  ∀ ula id s, t.sessionAt ula = some (id, s) → s.peerPubkey = info.wgPublicKey →
    (ula = info.ula ∧ t.byPubkey.lookup info.wgPublicKey = some id) ∨
    (ula ∈ earlier.map Client.PeerInfo.ula ∧ ¬ t.HoldsKey info.ula info.wgPublicKey)

def KeysSettle (t : SessionTable) (infos : List Client.PeerInfo) : Prop :=
  ∀ earlier info later, infos = earlier ++ info :: later → t.Settles earlier info

theorem Followed.leads_iff (hf : Followed t info t') (hr : Rekeyed t info t') :
    t'.byPubkey.lookup info.wgPublicKey = t'.byUla.lookup info.ula ↔
      (t.HoldsKey info.ula info.wgPublicKey →
        t.byPubkey.lookup info.wgPublicKey = t.byUla.lookup info.ula) := by
  by_cases hholds : t.HoldsKey info.ula info.wgPublicKey
  · obtain ⟨id, s, hat, hkey⟩ := hholds
    have hholds : t.HoldsKey info.ula info.wgPublicKey := ⟨id, s, hat, hkey⟩
    rw [hr.same hholds, hf.kept hat hkey, (sessionAt_eq_some_iff.mp hat).1]
    simp [hholds]
  · rw [hr.fresh hholds]
    simp [hholds]

theorem settles_iff {earlier : List Client.PeerInfo}
    (hnew : info.ula ∉ earlier.map Client.PeerInfo.ula) :
    t.Settles earlier info ↔
      (t.HoldsKey info.ula info.wgPublicKey →
        t.byPubkey.lookup info.wgPublicKey = t.byUla.lookup info.ula ∧
          ∀ ula ∈ earlier.map Client.PeerInfo.ula, ¬ t.HoldsKey ula info.wgPublicKey) ∧
      ∀ ula, t.HoldsKey ula info.wgPublicKey →
        ula = info.ula ∨ ula ∈ earlier.map Client.PeerInfo.ula := by
  constructor
  · intro h
    refine ⟨?_, ?_⟩
    · rintro ⟨id, s, hat, hkey⟩
      have hholds : t.HoldsKey info.ula info.wgPublicKey := ⟨id, s, hat, hkey⟩
      refine ⟨?_, ?_⟩
      · rcases h _ _ _ hat hkey with hleft | hright
        · rw [hleft.2, (sessionAt_eq_some_iff.mp hat).1]
        · exact absurd hholds hright.2
      · rintro ula hula ⟨id', s', hat', hkey'⟩
        rcases h _ _ _ hat' hkey' with hleft | hright
        · exact hnew (hleft.1 ▸ hula)
        · exact hright.2 hholds
    · rintro ula ⟨id, s, hat, hkey⟩
      rcases h _ _ _ hat hkey with hleft | hright
      · exact .inl hleft.1
      · exact .inr hright.1
  · rintro ⟨hhere, hall⟩ ula id s hat hkey
    have hholds : t.HoldsKey ula info.wgPublicKey := ⟨id, s, hat, hkey⟩
    rcases hall ula hholds with rfl | hula
    · refine .inl ⟨rfl, ?_⟩
      rw [(hhere hholds).1, (sessionAt_eq_some_iff.mp hat).1]
    · exact .inr ⟨hula, fun hc => (hhere hc).2 ula hula hholds⟩

theorem nodup_map_split {α β : Type} {f : α → β} {earlier later : List α} {a : α}
    (h : ((earlier ++ a :: later).map f).Nodup) :
    (∀ b ∈ earlier, f b ≠ f a) ∧ ∀ b ∈ later, f b ≠ f a := by
  rw [List.map_append, List.map_cons, List.nodup_append, List.nodup_cons] at h
  obtain ⟨-, ⟨hlater, -⟩, hearlier⟩ := h
  refine ⟨?_, ?_⟩
  · intro b hb
    exact hearlier _ (List.mem_map_of_mem hb) _ List.mem_cons_self
  · intro b hb hc
    exact hlater (hc ▸ List.mem_map_of_mem hb)

structure Entered (t : SessionTable) (earlier : List Client.PeerInfo) (info : Client.PeerInfo)
    (t' : SessionTable) : Prop where
  leads : t'.byPubkey.lookup info.wgPublicKey = t'.byUla.lookup info.ula ↔
    (t.HoldsKey info.ula info.wgPublicKey →
      t.byPubkey.lookup info.wgPublicKey = t.byUla.lookup info.ula ∧
        ∀ ula ∈ earlier.map Client.PeerInfo.ula, ¬ t.HoldsKey ula info.wgPublicKey)
  here : ∃ id, t'.byUla.lookup info.ula = some id
  elsewhere : ∀ ula, ula ≠ info.ula → (t'.HoldsKey ula info.wgPublicKey ↔
    t.HoldsKey ula info.wgPublicKey ∧ ula ∉ earlier.map Client.PeerInfo.ula)

theorem SyncInv.entered (h : t.SyncInv) {earlier : List Client.PeerInfo}
    (hnew : info.ula ∉ earlier.map Client.PeerInfo.ula)
    (hkeys : ∀ r ∈ earlier, r.wgPublicKey ≠ info.wgPublicKey) :
    Entered t earlier info ((earlier.foldl SessionTable.follow t).follow info) := by
  have h₁ := h.foldl_follow earlier
  have hv := h.foldl_follow_vacated hkeys
  generalize earlier.foldl SessionTable.follow t = t₁ at h₁ hv
  have hf := h₁.inv.follow_spec info
  refine ⟨?_, ?_, ?_⟩
  · have hbefore : t.HoldsKey info.ula info.wgPublicKey →
        (t₁.byPubkey.lookup info.wgPublicKey = t₁.byUla.lookup info.ula ↔
          t.byPubkey.lookup info.wgPublicKey = t.byUla.lookup info.ula ∧
            ∀ ula ∈ earlier.map Client.PeerInfo.ula, ¬ t.HoldsKey ula info.wgPublicKey) := by
      rintro ⟨id, s, hat, -⟩
      rw [hv.byUla info.ula hnew, (sessionAt_eq_some_iff.mp hat).1]
      exact hv.byPubkey id
    rw [hf.leads_iff (t₁.follow_rekeyed info), hv.holds, and_iff_left hnew]
    exact imp_congr_right hbefore
  · obtain ⟨id, s, hat, -⟩ := hf.here
    exact ⟨id, (sessionAt_eq_some_iff.mp hat).1⟩
  · intro ula hne
    rw [hf.holdsKey h₁.inv hne, hv.holds]

/-- The key of a record leads to the session in its place after a reconcile exactly if nothing
took it away meanwhile. -/
theorem SyncInv.leads_iff_settles (h : t.SyncInv) {earlier later : List Client.PeerInfo}
    (hulas : ((earlier ++ info :: later).map Client.PeerInfo.ula).Nodup)
    (hkeys : ((earlier ++ info :: later).map Client.PeerInfo.wgPublicKey).Nodup)
    (ht' : t' = ((earlier ++ info :: later).foldl SessionTable.follow t).prune
      ((earlier ++ info :: later).map Client.PeerInfo.ula)) :
    t'.byPubkey.lookup info.wgPublicKey = t'.byUla.lookup info.ula ↔ t.Settles earlier info := by
  have hnew : info.ula ∉ earlier.map Client.PeerInfo.ula := by
    rw [List.mem_map]
    exact fun hc => hc.elim (fun r hr => (nodup_map_split hulas).1 r hr.1 hr.2)
  have hnext : info.ula ∉ later.map Client.PeerInfo.ula := by
    rw [List.mem_map]
    exact fun hc => hc.elim (fun r hr => (nodup_map_split hulas).2 r hr.1 hr.2)
  have he := h.entered hnew (nodup_map_split hkeys).1
  have h₁ := (h.foldl_follow earlier).follow info
  rw [List.foldl_append, List.foldl_cons] at ht'
  generalize (earlier.foldl SessionTable.follow t).follow info = t₁ at he h₁ ht'
  -- what the later records and the pruning take away
  have hlater := h₁.foldl_follow_vacated (nodup_map_split hkeys).2
  have h₂ := h₁.foldl_follow later
  generalize later.foldl SessionTable.follow t₁ = t₂ at hlater h₂ ht'
  have hpruned := h₂.foldl_pruneAt_vacated ((earlier ++ info :: later).map Client.PeerInfo.ula)
    t₂.ulas info.wgPublicKey
  have hv := hlater.trans hpruned
  rw [← SessionTable.prune, ← ht'] at hv
  generalize hgone : (fun ula => ula ∈ later.map Client.PeerInfo.ula ∨ ula ∈ t₂.ulas ∧
    ula ∉ (earlier ++ info :: later).map Client.PeerInfo.ula) = gone at hv
  have hself : ¬ gone info.ula := by
    rw [← hgone]
    simp [hnext]
  have hlost : (∀ ula, gone ula → ¬ t₁.HoldsKey ula info.wgPublicKey) ↔
      ∀ ula, t.HoldsKey ula info.wgPublicKey →
        ula = info.ula ∨ ula ∈ earlier.map Client.PeerInfo.ula := by
    constructor
    · intro hnone ula hholds
      by_contra hnot
      rw [not_or] at hnot
      have hholds₁ := (he.elsewhere ula hnot.1).mpr ⟨hholds, hnot.2⟩
      by_cases hmem : ula ∈ later.map Client.PeerInfo.ula
      · exact hnone ula (hgone ▸ .inl hmem) hholds₁
      · -- no record has the address, so the session is still there when the pruning starts
        obtain ⟨id, s, hat, -⟩ := (hlater.holds ula).mpr ⟨hholds₁, hmem⟩
        have hthere := AList.mem_keys.mp (AList.mem_of_lookup (sessionAt_eq_some_iff.mp hat).1)
        refine hnone ula (hgone ▸ .inr ⟨hthere, ?_⟩) hholds₁
        rw [List.map_append, List.map_cons, List.mem_append, List.mem_cons]
        tauto
    · intro hall ula hula hholds₁
      have hne : ula ≠ info.ula := fun hc => hself (hc ▸ hula)
      obtain ⟨hholds, hnot⟩ := (he.elsewhere ula hne).mp hholds₁
      exact (hall ula hholds).elim hne hnot
  obtain ⟨id, hid⟩ := he.here
  rw [settles_iff hnew, ← he.leads, ← hlost, hv.byUla info.ula hself, hid]
  exact hv.byPubkey id

def Relayed (t : SessionTable) : Prop :=
  ∀ ula id s, t.sessionAt ula = some (id, s) → t.byPubkey.lookup s.peerPubkey = some id

theorem SyncInv.relayed_iff (h : t.SyncInv) {infos : List Client.PeerInfo}
    (hulas : (infos.map Client.PeerInfo.ula).Nodup)
    (hkeys : (infos.map Client.PeerInfo.wgPublicKey).Nodup) :
    ((infos.foldl SessionTable.follow t).prune (infos.map Client.PeerInfo.ula)).Relayed ↔
      t.KeysSettle infos := by
  have hr := h.reconciled hulas
  generalize ht' : (infos.foldl SessionTable.follow t).prune (infos.map Client.PeerInfo.ula) = t'
    at hr
  have hrecord : ∀ info ∈ infos, ∃ id s, t'.sessionAt info.ula = some (id, s) ∧
      s.peerPubkey = info.wgPublicKey := hr.here
  constructor
  · intro hrelayed earlier info later hsplit
    obtain ⟨id, s, hat, hkey⟩ := hrecord info (by rw [hsplit]; simp)
    rw [hsplit] at hulas hkeys ht'
    rw [← h.leads_iff_settles hulas hkeys ht'.symm, (sessionAt_eq_some_iff.mp hat).1, ← hkey]
    exact hrelayed _ _ _ hat
  · intro hsettle ula id s hat
    have hmem := (hr.ulas ula).mp (AList.mem_of_lookup (sessionAt_eq_some_iff.mp hat).1)
    obtain ⟨info, hinfo, rfl⟩ := List.mem_map.mp hmem
    obtain ⟨id', s', hat', hkey⟩ := hrecord info hinfo
    obtain ⟨rfl, rfl⟩ := Prod.mk.inj (Option.some.inj (hat.symm.trans hat'))
    obtain ⟨earlier, later, hsplit⟩ := List.append_of_mem hinfo
    have hs := hsettle earlier info later hsplit
    rw [hsplit] at hulas hkeys ht'
    rw [hkey, (h.leads_iff_settles hulas hkeys ht'.symm).mpr hs]
    exact (sessionAt_eq_some_iff.mp hat).1

end SessionTable

theorem Client.length_of_decodePubkey [Crates] {text : String} {key : List UInt8}
    (h : Client.decodePubkey text = .ok key) : key.length = 32 := by
  unfold Client.decodePubkey at h
  split at h
  · simp at h
  · split at h
    · simp at h
    · rename_i hlen
      rw [← Except.ok.inj h]
      exact not_not.mp hlen

theorem Client.length_of_decodeRoster [Crates] {lookupHost : LookupHost}
    {remote : List Client.RemotePeer} {info : Client.PeerInfo}
    (h : info ∈ Client.decodeRoster lookupHost remote) : info.wgPublicKey.length = 32 := by
  obtain ⟨r, -, hr⟩ := List.mem_filterMap.mp h
  unfold Client.remoteToInfo at hr
  cases hkey : Client.decodePubkey r.wgPublicKey with
  | error e => simp [hkey, Except.toOption] at hr
  | ok key =>
    cases hula : Ipv6Addr.parse r.ula with
    | none => simp [hkey, hula, Except.toOption] at hr
    | some ula =>
      simp only [hkey, hula, Except.toOption, Option.some.injEq] at hr
      rw [← hr]
      exact Client.length_of_decodePubkey hkey

theorem decodeRelayFrame_encode {src payload : List UInt8} (hsrc : src.length = 32)
    (hpayload : payload ≠ []) :
    decodeRelayFrame (encodeRelayFrame src payload) = some (src, payload) := by
  have hpos := List.length_pos_iff.mpr hpayload
  have hlen : ¬ (encodeRelayFrame src payload).length < 33 := by
    rw [encodeRelayFrame, List.length_append]
    omega
  rw [decodeRelayFrame, if_neg hlen, encodeRelayFrame, ← hsrc, List.take_left, List.drop_left]

def SessionTable.HearsOverRelay [Tunnels] (t : SessionTable) (infos : List Client.PeerInfo) :
    Prop :=
  ∀ info ∈ infos, ∀ payload, payload ≠ [] →
    ∀ src, t.handleInbound (encodeRelayFrame info.wgPublicKey payload) ≠ .noSession src

theorem SessionTable.Reconciled.hearsOverRelay [Tunnels] {t t' : SessionTable}
    {infos : List Client.PeerInfo} (h : Reconciled t infos t') (hrelayed : t'.Relayed)
    (hlen : ∀ info ∈ infos, info.wgPublicKey.length = 32) : t'.HearsOverRelay infos := by
  intro info hinfo payload hpayload src
  obtain ⟨id, s, hat, hkey⟩ := h.here info hinfo
  have hlead := hrelayed _ _ _ hat
  rw [hkey] at hlead
  have hderef : t'.deref (t'.byPubkey.lookup info.wgPublicKey) = some (id, s) :=
    deref_eq_some_iff.mpr ⟨hlead, (sessionAt_eq_some_iff.mp hat).2⟩
  simp [handleInbound, decodeRelayFrame_encode (hlen info hinfo) hpayload, hderef]

/-- After a reconcile with distinct addresses and keys, every session can be reached by its key
exactly if no key of the roster was lost on the way. -/
theorem relay_reaches_iff_keysSettle [Crates] [Tunnels] {tr : List (SyncOp × Unit)}
    {t : SessionTable} (h : sync.Reach tr t) (lookupHost : LookupHost)
    (remote : List Client.RemotePeer)
    (hulas : ((Client.decodeRoster lookupHost remote).map Client.PeerInfo.ula).Nodup)
    (hkeys : ((Client.decodeRoster lookupHost remote).map Client.PeerInfo.wgPublicKey).Nodup) :
    ((t.reconcileRoster lookupHost remote).Relayed ∧
      (t.reconcileRoster lookupHost remote).HearsOverRelay
        (Client.decodeRoster lookupHost remote)) ↔
      t.KeysSettle (Client.decodeRoster lookupHost remote) := by
  have hinv := syncInv_of_reach h
  have hiff := hinv.relayed_iff hulas hkeys
  constructor
  · rintro ⟨hrelayed, -⟩
    exact hiff.mp hrelayed
  · intro hsettle
    have hrelayed := hiff.mpr hsettle
    exact ⟨hrelayed, (hinv.reconciled hulas).hearsOverRelay hrelayed
      (fun info hinfo => Client.length_of_decodeRoster hinfo)⟩

section Example

attribute [local instance] referenceCrates referenceTunnels

def rehomedRecord : Client.RemotePeer := { homeRecord [] with ula := "fd00::2" }

def rehomedTable : SessionTable :=
  (sync.exec [] sync.init [.reconcile (fun _ => none) [homeRecord []],
    .reconcile (fun _ => none) [rehomedRecord]]).2

/-- The new session is entered under the key first, and the pruning of the old one takes the entry
out. -/
theorem rehomed_unreachable :
    ¬ rehomedTable.Relayed ∧
      rehomedTable.byUla.lookup ⟨0xfd00, 0, 0, 0, 0, 0, 0, 2⟩ = some 1 ∧
      rehomedTable.handleInbound (encodeRelayFrame (List.replicate 32 0) [4]) =
        .noSession (List.replicate 32 0) := by
  refine ⟨?_, by decide +kernel, by decide +kernel⟩
  intro hrelayed
  have hat : (rehomedTable.sessionAt ⟨0xfd00, 0, 0, 0, 0, 0, 0, 2⟩).map (fun c => c.2.peerPubkey) =
      some (List.replicate 32 0) := by decide +kernel
  obtain ⟨c, hc, hkey⟩ := Option.map_eq_some_iff.mp hat
  have hlead := hrelayed _ c.1 c.2 hc
  have hnone : rehomedTable.byPubkey.lookup (List.replicate 32 0) = none := by decide +kernel
  rw [hkey, hnone] at hlead
  simp at hlead

theorem relay_reaches_iff_keysSettle_joined :
    (homeTable.reconcileRoster (fun _ => none) [homeRecord [], awayRecord []]).Relayed ∧
      (homeTable.reconcileRoster (fun _ => none) [homeRecord [], awayRecord []]).HearsOverRelay
        (Client.decodeRoster (fun _ => none) [homeRecord [], awayRecord []]) := by
  refine (relay_reaches_iff_keysSettle
    (Machine.Run.exec .start (Machine.Admissible.of_free (fun _ _ => trivial) [] sync.init _)) _ _
    (by decide +kernel) (by decide +kernel)).mpr ?_
  -- the first peer is known already, at its address and under its key
  have hentries : homeTable.byUla.entries = [⟨⟨0xfd00, 0, 0, 0, 0, 0, 0, 1⟩, 0⟩] := by
    decide +kernel
  have hkeyAt : (homeTable.sessionAt ⟨0xfd00, 0, 0, 0, 0, 0, 0, 1⟩).map
      (fun c => c.2.peerPubkey) = some (List.replicate 32 0) := by decide +kernel
  have hrecords : ∀ info ∈ Client.decodeRoster (fun _ => none) [homeRecord [], awayRecord []],
      info.wgPublicKey = List.replicate 32 0 → info.ula = ⟨0xfd00, 0, 0, 0, 0, 0, 0, 1⟩ ∧
        homeTable.byPubkey.lookup info.wgPublicKey = some 0 := by decide +kernel
  intro earlier info later hsplit ula id s hat hkey
  change homeTable.sessionAt ula = some (id, s) at hat
  have hid := AList.lookup_eq_some_iff.mp (SessionTable.sessionAt_eq_some_iff.mp hat).1
  rw [hentries, List.mem_singleton] at hid
  obtain ⟨rfl, rfl⟩ : ula = ⟨0xfd00, 0, 0, 0, 0, 0, 0, 1⟩ ∧ id = 0 := by simpa using hid
  rw [hat] at hkeyAt
  have hinfo := hrecords info (by rw [hsplit]; simp) (hkey.symm.trans (Option.some.inj hkeyAt))
  exact .inl ⟨hinfo.1.symm, hinfo.2⟩

end Example

end ServiceMesh
