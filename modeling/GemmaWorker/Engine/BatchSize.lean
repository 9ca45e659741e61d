import GemmaWorker.Library.Batching
import Mathlib.Algebra.Notation.Defs
import Mathlib.Data.Nat.Cast.Defs

/-! `BatchSize` of `utils.py`. Its sizes and growth factor are Python numbers, whole or floating: any
type with their comparisons and product. -/

namespace GemmaWorker.Engine

structure BatchSize (α : Type) where
  maxBatchSize : α
  batchSizeGrowthFactor : α
  minBatchSize : α
  isDynamic : Bool
  currentBatchSize : α

namespace BatchSize

variable {α : Type} [LT α] [DecidableLT α] [LE α] [DecidableLE α] [Mul α] [One α] [NatCast α]

def init (maxBatchSize minBatchSize batchSizeGrowthFactor : α) : BatchSize α :=
  let isDynamic : Bool :=
    1 < batchSizeGrowthFactor ∧ 1 ≤ minBatchSize ∧ minBatchSize < maxBatchSize
  { maxBatchSize
    batchSizeGrowthFactor
    minBatchSize
    isDynamic
    currentBatchSize := if isDynamic then minBatchSize else maxBatchSize }

def update (b : BatchSize α) : BatchSize α :=
  if b.isDynamic then
    let grown := b.currentBatchSize * b.batchSizeGrowthFactor
    { b with currentBatchSize := if b.maxBatchSize < grown then b.maxBatchSize else grown }
  else b

def reached (b : BatchSize α) (counter : ℕ) : Bool :=
  b.currentBatchSize ≤ (counter : α)

def batcher : Library.Batcher (BatchSize α) := ⟨reached, update⟩

end BatchSize

end GemmaWorker.Engine
