import ServiceMesh.Wire

/-! Hole-punch bookkeeping: which pair was last told to punch and when, the escalating
re-emission cool-down, the cold-start budget, and the admin flags on pairs. -/

namespace ServiceMesh

def punchReemitCooldownMicros : Int := 15000000
def punchPairTtlMicros : Int := 300000000
def punchReemitCooldownCapMicros : Int := 300000000
def maxNewEmitsPerWindow : UInt32 := 8
def coldStartWindowMicros : Int := 1000000

def i64Max : Int := 2 ^ 63 - 1

/-- `i64::checked_shl`: `None` only for a shift of 64 and more; bits pushed out are lost. -/
def i64CheckedShl (n : Int) (streak : UInt32) : Option Int :=
  if streak.toNat < 64 then some (BitVec.ofInt 64 n <<< streak.toNat).toInt else none

def reemitCooldown (streak : UInt32) : Int :=
  min ((i64CheckedShl punchReemitCooldownMicros streak).getD i64Max) punchReemitCooldownCapMicros

abbrev PunchPair := Uuid × Uuid

def canonicalPair (a b : Uuid) : PunchPair := if a ≤ b then (a, b) else (b, a)

structure PunchPeer where
  peerId : Uuid
  dialEndpoint : String
deriving DecidableEq, Repr

structure PunchState where
  lastEmit : Int
  streak : UInt32
deriving DecidableEq, Repr

structure PunchTracker where
  pairs : DashMap PunchPair PunchState
  windowStart : Int
  count : UInt32
deriving DecidableEq

def u32SaturatingSucc (n : UInt32) : UInt32 := if n = 0xffffffff then n else n + 1

namespace PunchTracker

def new : PunchTracker := ⟨∅, 0, 0⟩

def takeColdStartToken (t : PunchTracker) (nowMicros : Int) : PunchTracker × Bool :=
  let t :=
    if nowMicros - t.windowStart ≥ coldStartWindowMicros then
      { t with windowStart := nowMicros, count := 0 }
    else t
  ({ t with count := t.count + 1 }, decide (t.count < maxNewEmitsPerWindow))

def claim (t : PunchTracker) (pair : PunchPair) (nowMicros : Int) : PunchTracker × Bool :=
  match t.pairs.lookup pair with
  | some st =>
    if nowMicros - st.lastEmit ≥ reemitCooldown st.streak then
      ({ t with pairs := t.pairs.insert pair ⟨nowMicros, u32SaturatingSucc st.streak⟩ }, true)
    else (t, false)
  | none =>
    let (t, granted) := t.takeColdStartToken nowMicros
    if granted then ({ t with pairs := t.pairs.insert pair ⟨nowMicros, 0⟩ }, true)
    else (t, false)

def noteConfirmed (t : PunchTracker) (pair : PunchPair) : PunchTracker :=
  { t with pairs := t.pairs.modify pair (fun st => { st with streak := 0 }) }

def removePeer (t : PunchTracker) (peerId : Uuid) : PunchTracker :=
  { t with pairs := t.pairs.retain (fun pair _ => pair.1 != peerId && pair.2 != peerId) }

def reapOlderThan (t : PunchTracker) (cutoffMicros : Int) : PunchTracker :=
  { t with pairs := t.pairs.retain (fun _ st => decide (st.lastEmit ≥ cutoffMicros)) }

end PunchTracker

def punchDirectives [Crates] (a b : PunchPeer) (nowMicros : Int) : List PeerEvent :=
  [.holePunch ⟨a.peerId.toString, b.peerId.toString, b.dialEndpoint, nowMicros⟩,
    .holePunch ⟨b.peerId.toString, a.peerId.toString, a.dialEndpoint, nowMicros⟩]

def tryEmitPair [Crates] (t : PunchTracker) (a b : PunchPeer) (nowMicros : Int) :
    PunchTracker × Option (List PeerEvent) :=
  if a.peerId = b.peerId then (t, none)
  else if a.dialEndpoint = "" ∨ b.dialEndpoint = "" then (t, none)
  else
    match t.claim (canonicalPair a.peerId b.peerId) nowMicros with
    | (t, true) => (t, some (punchDirectives a b nowMicros))
    | (t, false) => (t, none)

structure DirectPairFlags where
  direct : DashMap PunchPair Bool
  pinnedToRelay : DashMap PunchPair Bool
deriving DecidableEq

namespace DirectPairFlags

def new : DirectPairFlags := ⟨∅, ∅⟩

def isDirect (f : DirectPairFlags) (a b : Uuid) : Bool :=
  (f.direct.lookup (canonicalPair a b)).getD false

def setDirect (f : DirectPairFlags) (a b : Uuid) (on : Bool) : DirectPairFlags :=
  let key := canonicalPair a b
  { f with direct := if on then f.direct.insert key true else f.direct.erase key }

def isPinnedToRelay (f : DirectPairFlags) (a b : Uuid) : Bool :=
  (f.pinnedToRelay.lookup (canonicalPair a b)).getD false

def setPinnedToRelay (f : DirectPairFlags) (a b : Uuid) (on : Bool) : DirectPairFlags :=
  let key := canonicalPair a b
  { f with
    pinnedToRelay := if on then f.pinnedToRelay.insert key true else f.pinnedToRelay.erase key }

def removePeer (f : DirectPairFlags) (peerId : Uuid) : DirectPairFlags :=
  ⟨f.direct.retain (fun pair _ => pair.1 != peerId && pair.2 != peerId),
    f.pinnedToRelay.retain (fun pair _ => pair.1 != peerId && pair.2 != peerId)⟩

end DirectPairFlags

end ServiceMesh
