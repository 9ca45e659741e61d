import GemmaWorker.Server.HandleOpenai
import GemmaWorker.Server.StreamPayloads

/-! `OpenAIvLLMEngine.generate`: the routes, the request classes of vLLM, and what becomes of its replies. -/

namespace GemmaWorker.Engine

open Python Server

section Model

/-- What `create_chat_completion` and `create_completion` return: an `ErrorResponse`, a response of the class
with this name, each with its dump, or a generator of chunks, which an exception may end. -/
inductive VllmReply
  | errorResponse (dump : Value)
  | response (typeName : PyStr) (dump : Value)
  | generator (chunks : List PyStr) (raised : Option PyStr)

/-- The parts of vLLM. An exception is its text, a model its dump; `errorInfo` takes the message, the type and
the code, and `notMapping` is the text of `**` on what is no mapping. -/
structure Vllm (ρ : Type) where
  errorInfo : PyStr → PyStr → ℤ → Value
  notMapping : PyStr → Value → PyStr
  requestClass : PyStr → Body → Except PyStr ρ
  create : PyStr → ρ → Except PyStr VllmReply
  showAvailableModels : Except PyStr Value

variable [Interpreter] {α ρ σ : Type} [LT α] [DecidableLT α] [LE α] [DecidableLE α] [Mul α] [One α] [NatCast α]
variable (vllm : Vllm ρ) (cfg : StreamSettings α)

def createErrorResponse (message errType : PyStr) (statusCode : ℤ) : Value :=
  .dict [(lit "error", vllm.errorInfo message errType statusCode)]

def badRequest (message : PyStr) : Value :=
  createErrorResponse vllm message (lit "BadRequestError") 400

/-- The batching loop over a generator that raises behind its chunks: the batch begun by then is lost. -/
def streamRaising (text : PyStr) : StreamLoop α → List PyStr → List EngineEvent
  | _, [] => [.raised text]
  | st, chunk :: chunks =>
    match chunkData cfg chunk with
    | .skipped => streamRaising text st chunks
    | .raised text => [.raised text]
    | .data v =>
      if st.batchSize.reached (st.batchTokenCounter + 1) then
        sendBatch cfg (st.batch ++ [v]) :: streamRaising text ⟨[], 0, st.batchSize.update⟩ chunks
      else streamRaising text ⟨st.batch ++ [v], st.batchTokenCounter + 1, st.batchSize⟩ chunks

def streamReply (chunks : List PyStr) : Option PyStr → List EngineEvent
  | none => handleChatStream cfg chunks
  | some text => streamRaising cfg text (.init cfg) chunks

def handleVllmReply (body : Body) : VllmReply → List EngineEvent
  | .errorResponse dump => [.batch dump, .exhausted]
  | .response typeName dump =>
    if engineStreams body then
      [.raised (lit "'async for' requires an object with __aiter__ method, got " ++ typeName)]
    else [.batch dump, .exhausted]
  | .generator chunks raised =>
    if engineStreams body then streamReply cfg chunks raised
    else [.raised (lit "'async_generator' object has no attribute 'model_dump'")]

def handleChatOrCompletionRequest (route : PyStr) : Value → List EngineEvent
  | .dict body =>
    match vllm.requestClass route body with
    | .error text => [.batch (badRequest vllm text), .exhausted]
    | .ok request =>
      match vllm.create route request with
      | .error text => [.raised text]
      | .ok reply => handleVllmReply cfg body reply
  | v => [.batch (badRequest vllm (vllm.notMapping route v)), .exhausted]

def handleModelRequest : List EngineEvent :=
  match vllm.showAvailableModels with
  | .error text => [.raised text]
  | .ok dump => [.batch dump, .exhausted]

def invalidRoute : List EngineEvent :=
  [.batch (badRequest vllm (lit "Invalid route")), .exhausted]

/-- `ensured` is the exception of `_ensure_engines_initialized`, if it raises one. -/
def generate (ensured : Option PyStr) (job : JobInput σ) : List EngineEvent :=
  match ensured with
  | some text => [.raised text]
  | none =>
    match job.openaiRoute with
    | .str route =>
      if route = lit "/v1/models" then handleModelRequest vllm
      else if route = lit "/v1/chat/completions" ∨ route = lit "/v1/completions" then
        handleChatOrCompletionRequest vllm cfg route job.openaiInput
      else invalidRoute vllm
    | _ => invalidRoute vllm

end Model

section Events

variable [Interpreter]

/-- The batches up to the end or the exception. -/
def generation : List EngineEvent → Generation
  | [] => ⟨[], none⟩
  | .batch b :: events => ⟨b :: (generation events).batches, (generation events).raised⟩
  | .exhausted :: _ => ⟨[], none⟩
  | .raised text :: _ => ⟨[], some text⟩

/-- What the batches of raw and of parsed mode are made of. -/
def Line (v : Value) : Prop :=
  ∃ text, OneLine text ∧ v = .str (dataLine text)

def FromPayload (v : Value) : Prop :=
  ∃ p : Payload, v = p.value

def Dump (v : Value) : Prop :=
  ∃ items, v = .dict items ∧ v.IsJson ∧ v.Readable

/-- A value as the entry points get it. -/
inductive Clean : Value → Prop
  | dump {v : Value} : Dump v → Clean v
  | lines {batch : List Value} : (∀ v ∈ batch, Line v) → Clean (.str (joined batch))
  | payloads {batch : List Value} : (∀ v ∈ batch, FromPayload v) → Clean (.list batch)

/-- Nothing follows an error. -/
inductive Proper : List EngineEvent → Prop
  | exhausted : Proper [.exhausted]
  | raised {text : PyStr} : encodable text = true → Proper [.raised text]
  | error {b : Value} : Clean b → hasError b = true → Proper [.batch b, .exhausted]
  | batch {b : Value} {events : List EngineEvent} :
      Clean b → hasError b = false → Proper events → Proper (.batch b :: events)

inductive Single : List EngineEvent → Prop
  | dump {v : Value} : Dump v → Single [.batch v, .exhausted]
  | raised {text : PyStr} : encodable text = true → Single [.raised text]

structure Yielded (streams : Prop) (events : List EngineEvent) : Prop where
  proper : Proper events
  single : ¬ streams → Single events

/-- A chunk of vLLM is a payload or the terminator on a line of the field `data`. -/
def Wire (chunk : PyStr) : Prop :=
  chunk = dataLine done ∨ ∃ p : Payload, chunk = dataLine p.text

variable {ρ : Type}

/-- What the texts, the dumps and the chunks of vLLM look like. -/
structure Vllm.Conforms (vllm : Vllm ρ) : Prop where
  errorInfo : ∀ message errType code, encodable message = true → encodable errType = true →
    FitsInt code → Dump (createErrorResponse vllm message errType code)
  requestClass : ∀ route body text, vllm.requestClass route body = .error text → encodable text = true
  create : ∀ route request text, vllm.create route request = .error text → encodable text = true
  errorResponse : ∀ route request dump, vllm.create route request = .ok (.errorResponse dump) → Dump dump
  response : ∀ route request typeName dump, vllm.create route request = .ok (.response typeName dump) →
    encodable typeName = true ∧ Dump dump
  generator : ∀ route request chunks raised, vllm.create route request = .ok (.generator chunks raised) →
    (∀ chunk ∈ chunks, Wire chunk) ∧ ∀ text, raised = some text → encodable text = true
  models : ∀ text, vllm.showAvailableModels = .error text → encodable text = true
  modelsDump : ∀ dump, vllm.showAvailableModels = .ok dump → Dump dump

end Events

section Raising

variable [Interpreter] {α : Type} [LT α] [DecidableLT α] [LE α] [DecidableLE α] [Mul α] [NatCast α]
  {cfg : StreamSettings α}

/-- Up to the exception the loop sends the full batches. -/
lemma streamRaising_soFar (text : PyStr) {chunks : List PyStr} {vs : List Value} (h : Yields cfg chunks vs)
    (batch : List Value) (size : BatchSize α) : streamRaising cfg text ⟨batch, batch.length, size⟩ chunks =
      (BatchSize.batcher.soFar size batch vs).1.map (sendBatch cfg) ++ [.raised text] := by
  induction h generalizing batch size with
  | nil => rfl
  | skipped hskip _ ih => simp only [streamRaising, hskip, ih]
  | @data chunk v chunks vs hdata _ ih =>
    have hlonger := ih (batch ++ [v]) size
    have hfresh := ih [] size.update
    rw [List.length_append, List.length_singleton] at hlonger
    rw [List.length_nil] at hfresh
    have hfull : size.reached (batch.length + 1) = BatchSize.batcher.full size (batch.length + 1) := rfl
    simp only [streamRaising, hdata, hfresh, hlonger, Library.Batcher.soFar_cons, hfull]
    split_ifs <;> rfl

end Raising

section Proper

variable [Interpreter]

lemma Single.proper {events : List EngineEvent} (h : Single events) : Proper events := by
  cases h with
  | @dump v hdump =>
    cases herror : hasError v with
    | true => exact .error (.dump hdump) herror
    | false => exact .batch (.dump hdump) herror .exhausted
  | raised htext => exact .raised htext

variable {α : Type} {cfg : StreamSettings α}

def Item (cfg : StreamSettings α) (v : Value) : Prop :=
  if cfg.rawOpenaiOutput then Line v else FromPayload v

lemma chunkData_wire {chunk : PyStr} (h : Wire chunk) :
    chunkData cfg chunk = .skipped ∨ ∃ v, chunkData cfg chunk = .data v ∧ Item cfg v := by
  have hdone : OneLine done := by decide
  cases hraw : cfg.rawOpenaiOutput with
  | true =>
    have hline : ∀ text, OneLine text → chunkData cfg (dataLine text) = .data (.str (dataLine text)) ∧
        Item cfg (.str (dataLine text)) := by
      intro text htext
      rw [chunkData, if_pos (contains_data text), if_pos hraw, Item, if_pos hraw]
      exact ⟨rfl, text, htext, rfl⟩
    obtain rfl | ⟨p, rfl⟩ := h
    · exact Or.inr ⟨_, hline done hdone⟩
    · exact Or.inr ⟨_, hline p.text p.oneLine⟩
  | false =>
    have hmode : ¬ cfg.rawOpenaiOutput = true := by simp [hraw]
    obtain rfl | ⟨p, rfl⟩ := h
    · refine Or.inl ?_
      rw [chunkData, if_pos (contains_data _), if_neg hmode, contains_done, if_pos (by decide)]
    · have hchunk : chunkData cfg (dataLine p.text) =
          if p.mentionsDone then .skipped else .data p.value := by
        rw [chunkData, if_pos (contains_data _), if_neg hmode, contains_done, chunk_text p.oneLine, p.reads]
        rfl
      rw [hchunk]
      split_ifs
      · exact Or.inl rfl
      · refine Or.inr ⟨_, rfl, ?_⟩
        rw [Item, if_neg hmode]
        exact ⟨p, rfl⟩

lemma sendBatch_clean {batch : List Value} (h : ∀ v ∈ batch, Item cfg v) :
    ∃ b, sendBatch cfg batch = .batch b ∧ Clean b ∧ hasError b = false := by
  refine ⟨_, rfl, ?_⟩
  cases hraw : cfg.rawOpenaiOutput with
  | true =>
    simp only [Item, hraw, if_true] at h
    exact ⟨.lines h, rfl⟩
  | false =>
    simp only [Item, hraw] at h
    exact ⟨.payloads h, rfl⟩

lemma proper_send {batch : List Value} {events : List EngineEvent} (h : ∀ v ∈ batch, Item cfg v)
    (hrest : Proper events) : Proper (sendBatch cfg batch :: events) := by
  obtain ⟨b, hsend, hclean, herror⟩ := sendBatch_clean h
  rw [hsend]
  exact .batch hclean herror hrest

lemma item_snoc {batch : List Value} {v : Value} (h : ∀ w ∈ batch, Item cfg w) (hv : Item cfg v) :
    ∀ w ∈ batch ++ [v], Item cfg w := by
  intro w hw
  obtain hw | hw := List.mem_append.mp hw
  · exact h w hw
  · exact List.eq_of_mem_singleton hw ▸ hv

variable [LT α] [DecidableLT α] [LE α] [DecidableLE α] [Mul α] [NatCast α]

lemma streamLoop_proper {st : StreamLoop α} {chunks : List PyStr} (hst : ∀ v ∈ st.batch, Item cfg v)
    (hchunks : ∀ chunk ∈ chunks, Wire chunk) : Proper (streamLoop cfg st chunks) := by
  induction chunks generalizing st with
  | nil =>
    rw [streamLoop]
    split_ifs
    · exact .exhausted
    · exact proper_send hst .exhausted
  | cons chunk chunks ih =>
    have hrest : ∀ c ∈ chunks, Wire c := fun c hc => hchunks c (List.mem_cons_of_mem chunk hc)
    obtain hskip | ⟨v, hdata, hv⟩ := @chunkData_wire _ α cfg chunk (hchunks chunk List.mem_cons_self)
    · simp only [streamLoop, hskip]
      exact ih hst hrest
    · have hmore := item_snoc hst hv
      simp only [streamLoop, hdata]
      split_ifs
      · exact proper_send hmore (ih (by simp) hrest)
      · exact ih hmore hrest

lemma streamRaising_proper {text : PyStr} (htext : encodable text = true) {st : StreamLoop α}
    {chunks : List PyStr} (hst : ∀ v ∈ st.batch, Item cfg v) (hchunks : ∀ chunk ∈ chunks, Wire chunk) :
    Proper (streamRaising cfg text st chunks) := by
  induction chunks generalizing st with
  | nil => exact .raised htext
  | cons chunk chunks ih =>
    have hrest : ∀ c ∈ chunks, Wire c := fun c hc => hchunks c (List.mem_cons_of_mem chunk hc)
    obtain hskip | ⟨v, hdata, hv⟩ := @chunkData_wire _ α cfg chunk (hchunks chunk List.mem_cons_self)
    · simp only [streamRaising, hskip]
      exact ih hst hrest
    · have hmore := item_snoc hst hv
      simp only [streamRaising, hdata]
      split_ifs
      · exact proper_send hmore (ih (by simp) hrest)
      · exact ih hmore hrest

variable [One α] {ρ σ : Type} {vllm : Vllm ρ}

lemma badRequest_dump (hc : vllm.Conforms) {message : PyStr} (h : encodable message = true) :
    Dump (badRequest vllm message) := by
  have hcode : FitsInt 400 := by decide
  have htype : encodable (lit "BadRequestError") = true := by decide
  exact hc.errorInfo message _ 400 h htype hcode

lemma single_yields {events : List EngineEvent} (streams : Prop) (h : Single events) : Yielded streams events :=
  ⟨h.proper, fun _ => h⟩

lemma handleVllmReply_yields (hc : vllm.Conforms) {route : PyStr} {request : ρ} {reply : VllmReply}
    (h : vllm.create route request = .ok reply) (body : Body) :
    Yielded (engineStreams body = true) (handleVllmReply cfg body reply) := by
  cases reply with
  | errorResponse dump => exact single_yields _ (.dump (hc.errorResponse _ _ _ h))
  | response typeName dump =>
    obtain ⟨hname, hdump⟩ := hc.response _ _ _ _ h
    rw [handleVllmReply]
    split_ifs
    · refine single_yields _ (.raised ?_)
      rw [encodable_append]
      exact ⟨by decide, hname⟩
    · exact single_yields _ (.dump hdump)
  | generator chunks raised =>
    obtain ⟨hchunks, hraised⟩ := hc.generator _ _ _ _ h
    rw [handleVllmReply]
    split_ifs with hstream
    · refine ⟨?_, fun hno => absurd hstream hno⟩
      cases raised with
      | none => exact streamLoop_proper (by simp [StreamLoop.init]) hchunks
      | some text => exact streamRaising_proper (hraised text rfl) (by simp [StreamLoop.init]) hchunks
    · exact single_yields _ (.raised (by decide))

lemma handleRequest_yields (hc : vllm.Conforms) (route : PyStr) (body : Body) :
    Yielded (engineStreams body = true) (handleChatOrCompletionRequest vllm cfg route (.dict body)) := by
  rw [handleChatOrCompletionRequest]
  cases hclass : vllm.requestClass route body with
  | error text => exact single_yields _ (.dump (badRequest_dump hc (hc.requestClass route body text hclass)))
  | ok request =>
    cases hcreate : vllm.create route request with
    | error text =>
      simp only [hcreate]
      exact single_yields _ (.raised (hc.create route request text hcreate))
    | ok reply =>
      simp only [hcreate]
      exact handleVllmReply_yields hc hcreate body

lemma handleModelRequest_single (hc : vllm.Conforms) : Single (handleModelRequest vllm) := by
  rw [handleModelRequest]
  cases h : vllm.showAvailableModels with
  | error text => exact .raised (hc.models text h)
  | ok dump => exact .dump (hc.modelsDump dump h)

/-- The engine yields values that both entry points can send, and one of them where it does not stream. -/
theorem generate_yields (hc : vllm.Conforms) {ensured : Option PyStr}
    (hensured : ∀ text, ensured = some text → encodable text = true) {job : JobInput σ} {body : Body}
    (hinput : job.openaiInput = .dict body) :
    Yielded (engineStreams body = true) (generate vllm cfg ensured job) := by
  have hinvalid : Single (invalidRoute vllm) := .dump (badRequest_dump hc (by decide))
  cases ensured with
  | some text => exact single_yields _ (.raised (hensured text rfl))
  | none =>
    rw [generate, hinput]
    split
    · split_ifs
      · exact single_yields _ (handleModelRequest_single hc)
      · exact handleRequest_yields hc _ body
      · exact single_yields _ hinvalid
    · exact single_yields _ hinvalid

end Proper

end GemmaWorker.Engine
