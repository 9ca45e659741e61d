import GemmaWorker.Engine.OpenaiGenerate
import GemmaWorker.Server.CudaFatal
import GemmaWorker.Server.ReadBack

/-! `handler`, the serverless entry point, beside `_handle_openai`: what a client gets from either. -/

namespace GemmaWorker.Server

open Python Heartbeat Engine

section Handler

def typeName : Value → PyStr
  | .none => lit "NoneType"
  | .bool _ => lit "bool"
  | .int _ => lit "int"
  | .float _ => lit "float"
  | .str _ => lit "str"
  | .list _ => lit "list"
  | .tuple _ => lit "tuple"
  | .dict _ => lit "dict"

structure Served where
  items : List Value
  exits : Bool

/-- The loop over the batches, with the `except` around it. -/
def handlerLoop : List EngineEvent → Served
  | [] => ⟨[], false⟩
  | .batch b :: events => ⟨b :: (handlerLoop events).items, (handlerLoop events).exits⟩
  | .exhausted :: _ => ⟨[], false⟩
  | .raised text :: _ => if isCuda text then ⟨[], true⟩ else ⟨[errorContent text], false⟩

variable {α ρ σ : Type} [LT α] [DecidableLT α] [LE α] [DecidableLE α] [Mul α] [One α] [NatCast α]

/-- What the two entry points share: vLLM, the settings of the engine, and the exception of its lazy
initialization, if there is one. -/
structure Engines (α ρ σ : Type) where
  vllm : Vllm ρ
  settings : StreamSettings α
  ensured : Option PyStr
  samplingParams : List (PyStr × Value) → Except PyError σ
  generateVllm : JobInput σ → Generation

variable [Interpreter] (engines : Engines α ρ σ) (randomUuid : PyStr)
  (jobText : List (PyStr × Value) → PyError → PyStr)

def Engines.openai (job : JobInput σ) : List EngineEvent :=
  generate engines.vllm engines.settings engines.ensured job

/-- `vLLMEngine.generate` over the batches of `_generate_vllm`. -/
def Engines.native (job : JobInput σ) : List EngineEvent :=
  (engines.generateVllm job).batches.map .batch ++
    match (engines.generateVllm job).raised with
    | some text => [nativeGenerate (badRequest engines.vllm) text, .exhausted]
    | none => [.exhausted]

/-- `jobText` is the text of an exception of `JobInput`. -/
def jobEvents : Value → List EngineEvent
  | .dict items =>
    match JobInput.init engines.samplingParams randomUuid items with
    | .error e => [.raised (jobText items e)]
    | .ok job => if truthy job.openaiRoute then engines.openai job else engines.native job
  | v => [.raised (lit "'" ++ typeName v ++ lit "' object has no attribute 'get'")]

def handler (job : List (PyStr × Value)) : Served :=
  match job.find? (fun kv => kv.1 == lit "input") with
  | some (_, input) => handlerLoop (jobEvents engines randomUuid jobText input)
  | none => handlerLoop [.raised (lit "'input'")]

end Handler

section Client

/-- The values in an item of a job: its events in raw mode, its payloads in parsed mode, else the item. -/
def itemValues [Interpreter] : Value → List (Except PyError Value)
  | .str s => decoded s
  | .list vs => vs.map .ok
  | v => [.ok v]

/-- Whether the handler of an exception in `_stream_response` or `_non_stream_response` meets a CUDA error. -/
def meetsCuda (streams : Bool) : List EngineEvent → Bool
  | [] => false
  | .batch b :: events => if streams && hasError b then false else meetsCuda streams events
  | .exhausted :: _ => false
  | .raised text :: _ => isCuda text

variable {α ρ σ : Type} [LT α] [DecidableLT α] [LE α] [DecidableLE α] [Mul α] [One α] [NatCast α]
variable [Interpreter] (engines : Engines α ρ σ) (randomUuid : PyStr)

def Engines.backend : Backend σ where
  samplingParams := engines.samplingParams
  randomUuid := randomUuid
  generate job := generation (engines.openai job)

/-- The endpoint of the models, or the exception that leaves it. -/
def Engines.models (enginesReady : Bool) : Except PyStr Response :=
  if !enginesReady then jsonResponse 503 (errorContent (lit "Model loading"))
  else match engines.ensured, engines.vllm.showAvailableModels with
  | some text, _ => .error text
  | none, .error text => .error text
  | none, .ok dump => jsonResponse 200 dump

/-- The values in the answer to a request. -/
def httpValues (route : PyStr) (now : ℕ → ℚ) (tr : LoadTracker) (bytes : PyBytes) :
    Option (List (Except PyError Value)) :=
  match (handleOpenai (engines.backend randomUuid) route now tr true bytes).result with
  | .ok (.json r) => some [r.read]
  | .ok (.eventStream job) => some (decoded (streamBody (engines.openai job)))
  | .error _ => none

/-- A job gets the values of a request, up to the error that a worker does not send when it ends. -/
structure Matches (served : Served) (values : List (Except PyError Value)) (cuda : Bool) : Prop where
  exits : served.exits = cuda
  same : served.exits = false → values = served.items.flatMap itemValues
  unsent : served.exits = true → ∃ text, isCuda text = true ∧
    values = served.items.flatMap itemValues ++ [.ok (errorContent text)]

end Client

section Lines

/-- Events from their first line to the empty line behind the last. -/
def Whole (body : PyStr) : Prop :=
  ∃ texts : List PyStr, (∀ t ∈ texts, OneLine t) ∧ body = texts.flatMap dataLine

lemma whole_dataLine {text : PyStr} (h : OneLine text) : Whole (dataLine text) :=
  ⟨[text], List.forall_mem_singleton.mpr h, (List.append_nil _).symm⟩

lemma Whole.append {s t : PyStr} (hs : Whole s) (ht : Whole t) : Whole (s ++ t) := by
  obtain ⟨texts, htexts, rfl⟩ := hs
  obtain ⟨texts', htexts', rfl⟩ := ht
  refine ⟨texts ++ texts', fun u hu => ?_, List.flatMap_append.symm⟩
  exact (List.mem_append.mp hu).elim (htexts u) (htexts' u)

lemma whole_flatten {bodies : List PyStr} (h : ∀ b ∈ bodies, Whole b) : Whole bodies.flatten := by
  induction bodies with
  | nil => exact ⟨[], List.forall_mem_nil _, rfl⟩
  | cons b bodies ih =>
    exact (h b List.mem_cons_self).append (ih fun c hc => h c (List.mem_cons_of_mem b hc))

lemma whole_joined {batch : List Value} (h : ∀ v ∈ batch, Line v) : Whole (joined batch) := by
  induction batch with
  | nil => exact ⟨[], List.forall_mem_nil _, rfl⟩
  | cons v batch ih =>
    obtain ⟨text, htext, rfl⟩ := h v List.mem_cons_self
    exact (whole_dataLine htext).append (ih fun w hw => h w (List.mem_cons_of_mem _ hw))

lemma streamBody_batch {b : Value} (h : hasError b = false) (events : List EngineEvent) :
    streamBody (.batch b :: events) = (batchChunks b).flatten ++ streamBody events := by
  simp [streamBody, streamResponse, chunks, h]

end Lines

section Values

variable [Interpreter]

lemma decoded_dataLine {text : PyStr} (h : OneLine text) (rest : PyStr) :
    decoded (dataLine text ++ rest) = (if text = done then [] else [jsonLoads text]) ++ decoded rest := by
  rw [decoded, sseEvents_dataLine h, decoded, List.filter_cons]
  by_cases hdone : text = done <;> simp [hdone]

lemma Whole.decoded_append {body : PyStr} (h : Whole body) (rest : PyStr) :
    decoded (body ++ rest) = decoded body ++ decoded rest := by
  obtain ⟨texts, htexts, rfl⟩ := h
  induction texts with
  | nil => rfl
  | cons t texts ih =>
    have ht := htexts t List.mem_cons_self
    rw [List.flatMap_cons, List.append_assoc, decoded_dataLine ht, decoded_dataLine ht,
      ih fun u hu => htexts u (List.mem_cons_of_mem t hu), List.append_assoc]

lemma decoded_dumps {v : Value} (h : jsonLoads (jsonDumps v) = .ok v) (rest : PyStr) :
    decoded (dataLine (jsonDumps v) ++ rest) = .ok v :: decoded rest := by
  have hdone : jsonDumps v ≠ done := fun he => done_no_json v (he ▸ h)
  rw [decoded_dataLine (oneLine_jsonDumps v), if_neg hdone, h]
  rfl

lemma decoded_payloads {batch : List Value} (h : ∀ v ∈ batch, FromPayload v) (rest : PyStr) :
    decoded ((batchChunks (.list batch)).flatten ++ rest) = batch.map .ok ++ decoded rest := by
  have hstr : ∀ v ∈ batch, ∀ s, v ≠ .str s := by
    intro v hv
    obtain ⟨p, rfl⟩ := h v hv
    exact p.notStr
  rw [batchChunks_list hstr]
  induction batch with
  | nil => rfl
  | cons v batch ih =>
    obtain ⟨p, rfl⟩ := h v List.mem_cons_self
    have hrest := ih (fun w hw => h w (List.mem_cons_of_mem _ hw))
      fun w hw => hstr w (List.mem_cons_of_mem _ hw)
    rw [List.map_cons, List.flatten_cons, List.append_assoc, decoded_dumps p.loads_dumps, hrest]
    rfl

lemma loads_dumps {v : Value} (hv : v.IsJson) (hf : v.Readable) : jsonLoads (jsonDumps v) = .ok v := by
  refine jsonLoads_text ?_ hv hf
  show (lit " ").all isJsonSpace = true
  decide

lemma decoded_batch {b : Value} (h : Clean b) (rest : PyStr) :
    decoded ((batchChunks b).flatten ++ rest) = itemValues b ++ decoded rest := by
  cases h with
  | dump hdump =>
    obtain ⟨items, rfl, hjson, hfits⟩ := hdump
    have hchunk : (batchChunks (.dict items)).flatten = dataLine (jsonDumps (.dict items)) :=
      List.append_nil _
    rw [hchunk, decoded_dumps (loads_dumps hjson hfits)]
    rfl
  | @lines batch hlines =>
    have hchunk : (batchChunks (.str (joined batch))).flatten = joined batch := List.append_nil _
    rw [hchunk, (whole_joined hlines).decoded_append]
    rfl
  | payloads hpayloads => exact decoded_payloads hpayloads rest

lemma errorContent_json {text : PyStr} (h : encodable text = true) :
    (errorContent text).IsJson ∧ (errorContent text).Readable := by
  have hkey : encodable (lit "error") = true := by decide
  constructor
  · change ([lit "error"].Nodup) ∧ AllMembersJson _
    simp [AllMembersJson, Value.IsJson, h, hkey]
  · exact ⟨Interpreter.nesting_pos, trivial, trivial⟩

lemma error_chunk {b : Value} (hb : Clean b) (h : hasError b = true) :
    (batchChunks b).flatten = dataLine (jsonDumps b) := by
  cases hb with
  | dump hdump =>
    obtain ⟨items, rfl, -⟩ := hdump
    exact List.append_nil _
  | lines => cases h
  | payloads => cases h

lemma decoded_raised {text : PyStr} (h : encodable text = true) :
    decoded (streamBody [.raised text]) = [.ok (errorContent text)] := by
  obtain ⟨hjson, hfits⟩ := errorContent_json h
  have hbody : streamBody [.raised text] = dataLine (jsonDumps (errorContent text)) ++ [] := by
    simp [streamBody, streamResponse, chunks]
  rw [hbody, decoded_dumps (loads_dumps hjson hfits)]
  rfl

lemma raised_matches (text : PyStr) :
    Matches (handlerLoop [.raised text]) [.ok (errorContent text)] (isCuda text) := by
  cases hcuda : isCuda text with
  | true =>
    have hserved : handlerLoop [.raised text] = ⟨[], true⟩ := if_pos hcuda
    rw [hserved]
    exact ⟨rfl, fun hexits => Bool.noConfusion hexits, fun _ => ⟨text, hcuda, rfl⟩⟩
  | false =>
    have hserved : handlerLoop [.raised text] = ⟨[errorContent text], false⟩ := if_neg (by simp [hcuda])
    rw [hserved]
    exact ⟨rfl, fun _ => rfl, fun hexits => Bool.noConfusion hexits⟩

/-- The step over a batch is the same on both sides; the induction is on what the engine yields. -/
lemma stream_matches {events : List EngineEvent} (h : Proper events) :
    Matches (handlerLoop events) (decoded (streamBody events)) (meetsCuda true events) := by
  induction h with
  | exhausted =>
    have hbody : streamBody [.exhausted] = dataLine done ++ [] := rfl
    have hvalues : decoded (streamBody [.exhausted]) = [] := by
      rw [hbody, decoded_dataLine (by decide), if_pos rfl]
      rfl
    exact ⟨rfl, fun _ => hvalues, fun hexits => Bool.noConfusion hexits⟩
  | @raised text htext =>
    rw [decoded_raised htext]
    exact raised_matches text
  | @error b hb herror =>
    have hbody : streamBody [.batch b, .exhausted] = (batchChunks b).flatten ++ [] := by
      rw [error_chunk hb herror]
      simp [streamBody, streamResponse, chunks, herror]
    have hvalues : decoded (streamBody [.batch b, .exhausted]) = itemValues b := by
      rw [hbody, decoded_batch hb]
      exact List.append_nil _
    refine ⟨?_, fun _ => ?_, fun hexits => Bool.noConfusion hexits⟩
    · simp [meetsCuda, herror, handlerLoop]
    · simp [hvalues, handlerLoop]
  | @batch b events hb herror _ ih =>
    have hvalues : decoded (streamBody (.batch b :: events)) = itemValues b ++ decoded (streamBody events) := by
      rw [streamBody_batch herror, decoded_batch hb]
    have hcuda : meetsCuda true (.batch b :: events) = meetsCuda true events := by
      simp [meetsCuda, herror]
    rw [hvalues, hcuda]
    refine ⟨ih.exits, fun hexits => ?_, fun hexits => ?_⟩
    · rw [ih.same hexits]
      rfl
    · obtain ⟨text, htext, hunsent⟩ := ih.unsent hexits
      refine ⟨text, htext, ?_⟩
      rw [hunsent, ← List.append_assoc]
      rfl

lemma single_matches {events : List EngineEvent} (h : Single events) :
    (generation events).answer.2.IsJson ∧ (generation events).answer.2.Readable ∧
      Matches (handlerLoop events) [.ok (generation events).answer.2] (meetsCuda false events) := by
  cases h with
  | dump hdump =>
    obtain ⟨items, rfl, hjson, hfits⟩ := hdump
    exact ⟨hjson, hfits, rfl, fun _ => rfl, fun hexits => Bool.noConfusion hexits⟩
  | @raised text htext =>
    obtain ⟨hjson, hfits⟩ := errorContent_json htext
    exact ⟨hjson, hfits, raised_matches text⟩

end Values

section Agreement

variable [Interpreter]
variable {α ρ σ : Type} [LT α] [DecidableLT α] [LE α] [DecidableLE α] [Mul α] [One α] [NatCast α]
variable {engines : Engines α ρ σ} {route : PyStr} {body : Body}

lemma openaiJob_fields {samplingParams : List (PyStr × Value) → Except PyError σ} {randomUuid : PyStr}
    {job : JobInput σ} (h : JobInput.init samplingParams randomUuid (openaiJob route body) = .ok job) :
    job.openaiRoute = .str route ∧ job.openaiInput = .dict body := by
  rw [JobInput.init] at h
  obtain ⟨items, -, h⟩ := bind_eq_ok.mp h
  obtain ⟨params, -, h⟩ := bind_eq_ok.mp h
  obtain ⟨growthFactor, -, h⟩ := bind_eq_ok.mp h
  obtain ⟨minBatchSize, -, h⟩ := bind_eq_ok.mp h
  obtain rfl := Except.ok.inj h
  have hkey : ¬ lit "openai_route" = lit "openai_input" := by decide
  constructor
  · simp [dictGet, openaiJob]
  · simp [dictGet, openaiJob, hkey]

/-- The engine reads the route and the body of a job, and both entry points put in the same. -/
lemma handler_openai {params : σ} (hroute : route ≠ [])
    (hparams : engines.samplingParams [(lit "max_tokens", .int 100)] = .ok params)
    (randomUuid : PyStr) (jobText : List (PyStr × Value) → PyError → PyStr) {job : JobInput σ}
    (hjob : job.openaiRoute = .str route ∧ job.openaiInput = .dict body) :
    handler engines randomUuid jobText [(lit "input", .dict (openaiJob route body))] =
      handlerLoop (engines.openai job) := by
  obtain ⟨job', hjob'⟩ := @job_ok _ σ (engines.backend randomUuid) route params hparams body
  obtain ⟨hroute', hbody'⟩ := openaiJob_fields hjob'
  have hinit : JobInput.init engines.samplingParams randomUuid (openaiJob route body) = .ok job' := hjob'
  have hsame : engines.openai job' = engines.openai job := by
    rw [Engines.openai, Engines.openai, generate.eq_def, generate.eq_def, hroute', hjob.1, hbody', hjob.2]
  have htruthy : truthy job'.openaiRoute = true := by
    rw [hroute']
    simp [truthy, hroute]
  simp [handler, jobEvents, hinit, htruthy, hsame]

/-- The list of models is the same from either. -/
theorem models_agree {job : JobInput σ} (hc : engines.vllm.Conforms)
    (hroute : job.openaiRoute = .str (lit "/v1/models")) {r : Response} (h : engines.models true = .ok r) :
    r.status = 200 ∧ ∃ dump, r.read = .ok dump ∧ handlerLoop (engines.openai job) = ⟨[dump], false⟩ := by
  rw [Engines.models, Bool.not_true, if_neg Bool.false_ne_true] at h
  split at h
  · cases h
  · cases h
  · rename_i dump hensured hdump
    obtain ⟨items, rfl, hjson, hfits⟩ := hc.modelsDump dump hdump
    obtain rfl := Except.ok.inj ((jsonResponse_json hjson 200).symm.trans h)
    refine ⟨rfl, _, jsonLoadsBytes_raw hjson hfits, ?_⟩
    rw [Engines.openai, generate.eq_def, hensured, hroute]
    simp [handleModelRequest, hdump, handlerLoop]

/-- A request and a job with the same route and body get the same values, and both notice a CUDA error. -/
theorem entry_points_agree {params : σ} (hroute : route ≠ []) (hc : engines.vllm.Conforms)
    (hensured : ∀ text, engines.ensured = some text → encodable text = true)
    (hparams : engines.samplingParams [(lit "max_tokens", .int 100)] = .ok params)
    {bytes : PyBytes} (hread : jsonLoadsBytes bytes = .ok (.dict body)) (randomUuid randomUuid' : PyStr)
    (jobText : List (PyStr × Value) → PyError → PyStr) (now : ℕ → ℚ) (tr : LoadTracker) :
    ∃ job values, (engines.backend randomUuid).job route body = .ok job ∧
      httpValues engines randomUuid route now tr bytes = some values ∧
      Matches (handler engines randomUuid' jobText [(lit "input", .dict (openaiJob route body))]) values
        (meetsCuda (serverStreams body) (engines.openai job)) := by
  obtain ⟨job, hjob⟩ := @job_ok _ σ (engines.backend randomUuid) route params hparams body
  have hfields := openaiJob_fields hjob
  obtain ⟨hproper, hsingle⟩ : Yielded (engineStreams body = true) (engines.openai job) :=
    generate_yields hc hensured hfields.2
  rw [engineStreams_eq] at hsingle
  rw [handler_openai hroute hparams randomUuid' jobText hfields]
  cases hstream : serverStreams body with
  | true =>
    refine ⟨job, _, hjob, ?_, stream_matches hproper⟩
    rw [httpValues, handleOpenai_object hread hjob, hstream, if_pos rfl]
  | false =>
    obtain ⟨hjson, hanswerFits, hmatches⟩ := single_matches (hsingle (by simp [hstream]))
    obtain ⟨r, hr, hvalue⟩ := @handleNonStream_read _ σ (engines.backend randomUuid) now
      ((tr.incrementLoad (now 0)).touchActivity (now 1)) job hjson hanswerFits
    have hvalue : r.read = .ok (generation (engines.openai job)).answer.2 := congrArg Prod.snd hvalue
    refine ⟨job, _, hjob, ?_, hvalue ▸ hmatches⟩
    rw [httpValues, handleOpenai_object hread hjob, hstream, if_neg Bool.false_ne_true, hr]

end Agreement

section Witness

def replyValue : Value := .dict [(lit "text", .str (lit "hello"))]

lemma replyValue_json : replyValue.IsJson ∧ replyValue.Readable := by
  constructor
  · simp only [replyValue, Value.IsJson, AllMembersJson]
    decide
  · exact ⟨Interpreter.nesting_pos, trivial, trivial⟩

def reply : Payload where
  value := replyValue
  text := jsonDumps replyValue
  reads := loads_dumps replyValue_json.1 replyValue_json.2
  isJson := replyValue_json.1
  notStr := by simp [replyValue]
  oneLine := oneLine_jsonDumps replyValue

/-- A stream of this vLLM breaks off behind its second chunk. -/
def breakingVllm : Vllm Body where
  errorInfo message errType code := .dict [(lit "message", .str message), (lit "type", .str errType),
    (lit "param", .none), (lit "code", .int code)]
  notMapping route _ := route
  requestClass _ request := .ok request
  create _ request := .ok (if engineStreams request then
      .generator [dataLine reply.text, dataLine reply.text] (some outOfMemory)
    else .response (lit "CompletionResponse") replyValue)
  showAvailableModels := .ok replyValue

lemma breakingVllm_conforms : breakingVllm.Conforms where
  errorInfo message errType code hmessage htype hcode := by
    refine ⟨_, rfl, ?_, ?_⟩
    · simp only [createErrorResponse, breakingVllm, Value.IsJson, AllMembersJson, hmessage, htype, List.map_cons,
        List.map_nil]
      decide
    · simpa [createErrorResponse, breakingVllm, Value.Readable, Value.Fits, AllMembersFit,
        Interpreter.nesting] using hcode
  requestClass route body text h := by cases h
  create route request text h := by cases h
  errorResponse route request dump h := by
    have h := Except.ok.inj h
    split_ifs at h
  response route request typeName dump h := by
    have h := Except.ok.inj h
    split_ifs at h
    obtain ⟨rfl, rfl⟩ := VllmReply.response.inj h
    exact ⟨by decide, _, rfl, replyValue_json⟩
  generator route request chunks raised h := by
    have h := Except.ok.inj h
    split_ifs at h
    obtain ⟨rfl, rfl⟩ := VllmReply.generator.inj h
    constructor
    · intro chunk hchunk
      obtain rfl : chunk = dataLine reply.text := by simpa using hchunk
      exact Or.inr ⟨reply, rfl⟩
    · intro text htext
      obtain rfl := Option.some.inj htext
      decide
  models text h := by cases h
  modelsDump dump h := by
    obtain rfl := Except.ok.inj h
    exact ⟨_, rfl, replyValue_json⟩

def breakingEngines : Engines ℕ Body Body where
  vllm := breakingVllm
  settings := defaultSettings false
  ensured := none
  samplingParams := .ok
  generateVllm _ := ⟨[], none⟩

def streamingBody : Body := [(lit "prompt", .str (lit "hi")), (lit "stream", .bool true)]

theorem breakingEngines_agree : ∃ job values,
    (breakingEngines.backend (lit "0")).job (lit "/v1/completions") streamingBody = .ok job ∧
      httpValues breakingEngines (lit "0") (lit "/v1/completions") (fun k => k) ⟨0, 0⟩
        (utf8Bytes (rawText (.dict streamingBody))) = some values ∧
      Matches (handler breakingEngines (lit "1") (fun _ _ => [])
          [(lit "input", .dict (openaiJob (lit "/v1/completions") streamingBody))]) values
        (meetsCuda (serverStreams streamingBody) (breakingEngines.openai job)) := by
  have hjson : (Value.dict streamingBody).IsJson := by
    simp only [streamingBody, Value.IsJson, AllMembersJson]
    decide
  have hfits : (Value.dict streamingBody).Readable := ⟨Interpreter.nesting_pos, trivial, trivial, trivial⟩
  have hparams : breakingEngines.samplingParams [(lit "max_tokens", .int 100)] = .ok _ := rfl
  exact entry_points_agree (by decide) breakingVllm_conforms (fun _ h => by cases h) hparams
    (jsonLoadsBytes_raw hjson hfits) (lit "0") (lit "1") _ _ _

end Witness

end GemmaWorker.Server
