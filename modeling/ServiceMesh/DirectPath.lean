import ServiceMesh.StdNet

/-! What a session remembers of its direct path, and the clocks from which a node judges its data
plane. Times are in microseconds; a clock that is zero has never been set. -/

namespace ServiceMesh

def directPathTtl : Int := 35000000

def directTxBlackholeTtl : Int := 30000000

def directBackoffBase : Int := 2000000

def directBackoffCap : Int := 300000000

def expiredRearmBackoff : Int := 90000000

def expiredRearmBackoffCap : Int := 600000000

def convergenceRearmBackoff : Int := 5000000

def directProbeInterval : Int := 1000000

def dataplaneRxSilenceThreshold : Int := 90000000

def idleProbeAfter : Int := dataplaneRxSilenceThreshold / 4

structure PathState where
  directConfirmed : Bool
  lastDirectRx : Int
  lastDirectDataTx : Int
  lastDirectDataRx : Int
  lastProbe : Int
  failedHandshakes : Nat
  directSuppressedUntil : Int
  lastRearm : Int
  rearmStreak : Nat
deriving DecidableEq, Repr

def escalatingBackoff (cap : Int) : Nat → Int → Int
  | 0, window => if window < cap then window else cap
  | streak + 1, window =>
    if 2 * window < cap then escalatingBackoff cap streak (2 * window) else cap

def rearmInterval (streak : Nat) (base cap : Int) : Int := escalatingBackoff cap streak base

namespace PathState

def fresh : PathState := ⟨false, 0, 0, 0, 0, 0, 0, 0, 0⟩

def clearHandshakeBackoff (p : PathState) : PathState :=
  { p with failedHandshakes := 0, directSuppressedUntil := 0 }

def noteDirectRx (p : PathState) (now : Int) : PathState :=
  { p.clearHandshakeBackoff with lastDirectRx := now, rearmStreak := 0 }

def confirmDirect (p : PathState) (now : Int) : PathState :=
  { p with directConfirmed := true, lastDirectRx := now, lastDirectDataRx := now }

def noteDirectTx (p : PathState) (now : Int) : PathState := { p with lastDirectDataTx := now }

def noteHandshakeFailure (p : PathState) (now : Int) : PathState :=
  { p with
    failedHandshakes := p.failedHandshakes + 1
    directSuppressedUntil :=
      now + min (directBackoffBase * 2 ^ min p.failedHandshakes 30) directBackoffCap }

def directSuppressed (p : PathState) (now : Int) : Bool := now < p.directSuppressedUntil

def shouldProbeDirect (p : PathState) (now interval : Int) : PathState × Bool :=
  if interval ≤ now - p.lastProbe then ({ p with lastProbe := now }, true) else (p, false)

def shouldRearmExpired (p : PathState) (now base cap : Int) : PathState × Bool :=
  if rearmInterval p.rearmStreak base cap ≤ now - p.lastRearm then
    ({ p with lastRearm := now, rearmStreak := p.rearmStreak + 1 }, true)
  else (p, false)

def stale (p : PathState) (now ttl : Int) : Bool :=
  p.directConfirmed && ttl < now - p.lastDirectRx

def txBlackholed (p : PathState) (now ttl : Int) : Bool :=
  p.directConfirmed && p.lastDirectDataTx ≠ 0 && now - p.lastDirectDataTx ≤ ttl &&
    ttl < now - p.lastDirectDataRx

def downgrade (p : PathState) (now : Int) : PathState :=
  { p with directConfirmed := false }.noteHandshakeFailure now

@[simp] theorem directConfirmed_downgrade (p : PathState) (now : Int) :
    (p.downgrade now).directConfirmed = false := rfl

@[simp] theorem directConfirmed_shouldProbeDirect (p : PathState) (now interval : Int) :
    (p.shouldProbeDirect now interval).1.directConfirmed = p.directConfirmed := by
  unfold shouldProbeDirect
  split <;> rfl

@[simp] theorem directConfirmed_shouldRearmExpired (p : PathState) (now base cap : Int) :
    (p.shouldRearmExpired now base cap).1.directConfirmed = p.directConfirmed := by
  unfold shouldRearmExpired
  split <;> rfl

end PathState

structure LivenessClocks where
  lastInboundDataFrame : Int
  lastSendAttempt : Int
  lastIdleProbe : Int
deriving DecidableEq, Repr

def idleProbeDue (now lastRx : Int) (hasPeers : Bool) (after : Int) : Bool :=
  hasPeers && decide (after ≤ now - lastRx)

namespace LivenessClocks

def unset : LivenessClocks := ⟨0, 0, 0⟩

def noteInboundDataFrame (c : LivenessClocks) (now : Int) : LivenessClocks :=
  { c with lastInboundDataFrame := max c.lastInboundDataFrame now }

def noteSendAttempt (c : LivenessClocks) (now : Int) : LivenessClocks :=
  { c with lastSendAttempt := max c.lastSendAttempt now }

def dataplaneHealthy (c : LivenessClocks) (hasPeers : Bool) (now threshold : Int) : Bool :=
  !hasPeers || decide (c.lastSendAttempt ≤ c.lastInboundDataFrame) ||
    decide (now - c.lastInboundDataFrame < threshold)

def shouldEmitIdleProbe (c : LivenessClocks) (hasPeers : Bool) (now after : Int) :
    LivenessClocks × Bool :=
  if idleProbeDue now c.lastInboundDataFrame hasPeers after && decide (after ≤ now - c.lastIdleProbe)
  then ({ c with lastIdleProbe := now }, true)
  else (c, false)

def seed (c : LivenessClocks) (hasPeers : Bool) (now : Int) : LivenessClocks :=
  if hasPeers && c.lastInboundDataFrame = 0 then c.noteInboundDataFrame now else c

@[simp] theorem lastInboundDataFrame_shouldEmitIdleProbe (c : LivenessClocks) (hasPeers : Bool)
    (now after : Int) :
    (c.shouldEmitIdleProbe hasPeers now after).1.lastInboundDataFrame =
      c.lastInboundDataFrame := by
  unfold shouldEmitIdleProbe
  split <;> rfl

end LivenessClocks

end ServiceMesh
