import GemmaWorker.Engine.BatchSize
import GemmaWorker.Server.Requests

/-! The batching loop of `_handle_chat_or_completion_request`. -/

namespace GemmaWorker.Engine

open Python Server

variable [Interpreter] {α : Type} [LT α] [DecidableLT α] [LE α] [DecidableLE α] [Mul α] [One α] [NatCast α]

/-- `errorText` is the text of the exception that `json.loads` raises on a chunk. -/
structure StreamSettings (α : Type) where
  rawOpenaiOutput : Bool
  defaultBatchSize : α
  minBatchSize : α
  batchSizeGrowthFactor : α
  errorText : PyStr → PyStr

inductive ChunkData
  | skipped
  | data (v : Value)
  | raised (text : PyStr)

section Loop

variable (cfg : StreamSettings α)

def chunkData (chunk : PyStr) : ChunkData :=
  if contains (lit "data") chunk then
    if cfg.rawOpenaiOutput then .data (.str chunk)
    else if contains (lit "[DONE]") chunk then .skipped
    else match jsonLoads (rstripChar (ch '\n') (removePrefix (lit "data: ") chunk)) with
      | .ok v => .data v
      | .error _ => .raised (cfg.errorText chunk)
  else .skipped

def joined (batch : List Value) : PyStr :=
  batch.flatMap (fun v => match v with | .str s => s | _ => [])

def sendBatch (batch : List Value) : EngineEvent :=
  .batch (if cfg.rawOpenaiOutput then .str (joined batch) else .list batch)

structure StreamLoop (α : Type) where
  batch : List Value
  batchTokenCounter : ℕ
  batchSize : BatchSize α

def StreamLoop.init : StreamLoop α :=
  ⟨[], 0, .init cfg.defaultBatchSize cfg.minBatchSize cfg.batchSizeGrowthFactor⟩

def streamLoop : StreamLoop α → List PyStr → List EngineEvent
  | st, [] => if st.batch.isEmpty then [.exhausted] else [sendBatch cfg st.batch, .exhausted]
  | st, chunk :: chunks =>
    match chunkData cfg chunk with
    | .skipped => streamLoop st chunks
    | .raised text => [.raised text]
    | .data v =>
      if st.batchSize.reached (st.batchTokenCounter + 1) then
        sendBatch cfg (st.batch ++ [v]) :: streamLoop ⟨[], 0, st.batchSize.update⟩ chunks
      else streamLoop ⟨st.batch ++ [v], st.batchTokenCounter + 1, st.batchSize⟩ chunks

def handleChatStream (chunks : List PyStr) : List EngineEvent :=
  streamLoop cfg (.init cfg) chunks

end Loop

section Batches

variable {cfg : StreamSettings α}

inductive Yields (cfg : StreamSettings α) : List PyStr → List Value → Prop
  | nil : Yields cfg [] []
  | skipped {chunk : PyStr} {chunks : List PyStr} {vs : List Value} :
      chunkData cfg chunk = .skipped → Yields cfg chunks vs → Yields cfg (chunk :: chunks) vs
  | data {chunk : PyStr} {v : Value} {chunks : List PyStr} {vs : List Value} :
      chunkData cfg chunk = .data v → Yields cfg chunks vs → Yields cfg (chunk :: chunks) (v :: vs)

omit [One α] in
lemma streamLoop_batched {chunks : List PyStr} {vs : List Value} (h : Yields cfg chunks vs)
    (batch : List Value) (size : BatchSize α) :
    streamLoop cfg ⟨batch, batch.length, size⟩ chunks =
      (BatchSize.batcher.batched size batch vs).map (sendBatch cfg) ++ [.exhausted] := by
  induction h generalizing batch size with
  | nil =>
    rw [streamLoop, Library.Batcher.batched]
    split_ifs <;> rfl
  | skipped hskip _ ih => simp only [streamLoop, hskip, ih]
  | @data chunk v chunks vs hdata _ ih =>
    have hlonger := ih (batch ++ [v]) size
    have hfresh := ih [] size.update
    rw [List.length_append, List.length_singleton] at hlonger
    rw [List.length_nil] at hfresh
    have hfull : size.reached (batch.length + 1) = BatchSize.batcher.full size (batch.length + 1) := rfl
    simp only [streamLoop, hdata, hfresh, hlonger, Library.Batcher.batched_cons, hfull]
    split_ifs <;> rfl

theorem handleChatStream_batched {chunks : List PyStr} {vs : List Value} (h : Yields cfg chunks vs) :
    ∃ batches : List (List Value), batches.flatten = vs ∧
      handleChatStream cfg chunks = batches.map (sendBatch cfg) ++ [.exhausted] := by
  refine ⟨_, ?_, streamLoop_batched h [] _⟩
  rw [Library.Batcher.flatten_batched, List.nil_append]

end Batches

end GemmaWorker.Engine
