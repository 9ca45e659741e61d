import GemmaWorker.Heartbeat.Config

/-! The load counter and the idle condition of `heartbeat/load_tracker.py`. Times are exact seconds. -/

namespace GemmaWorker.Heartbeat

structure LoadTracker where
  load : ℤ
  lastActivity : ℚ

namespace LoadTracker

variable (tr : LoadTracker) (now : ℚ)

def incrementLoad : LoadTracker :=
  ⟨tr.load + 1, now⟩

def decrementLoad : LoadTracker :=
  ⟨if tr.load - 1 < 0 then 0 else tr.load - 1, now⟩

def touchActivity : LoadTracker :=
  { tr with lastActivity := now }

def Idle (timeoutS : ℤ) : Prop :=
  tr.load = 0 ∧ (timeoutS : ℚ) ≤ now - tr.lastActivity

instance (timeoutS : ℤ) : Decidable (tr.Idle now timeoutS) :=
  inferInstanceAs (Decidable (_ ∧ _))

end LoadTracker

inductive RequestOp
  | increment
  | decrement
  | touch

def RequestOp.apply (tr : LoadTracker) (now : ℚ) : RequestOp → LoadTracker
  | .increment => tr.incrementLoad now
  | .decrement => tr.decrementLoad now
  | .touch => tr.touchActivity now

end GemmaWorker.Heartbeat
