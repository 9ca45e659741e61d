import GemmaWorker.Engine.BatchSchedule
import GemmaWorker.Server.Serverless

/-! `vLLMEngine.generate`: the prompt of a job, the loop over the outputs of vLLM, which an exception may end,
and the batches as the handler yields them. -/

namespace GemmaWorker.Engine

open Python Server

namespace Native

/-- A tokenizer of transformers: how it renders messages by a template, or the text of its exception. -/
structure Tokenizer where
  chatTemplate : Value
  render : Value → Value → Except PyStr Value

structure TokenizerWrapper where
  tokenizer : Tokenizer
  hasChatTemplate : Bool

/-- An empty `CUSTOM_CHAT_TEMPLATE` counts as unset. -/
def TokenizerWrapper.init (tokenizer : Tokenizer) (customChatTemplate : Option PyStr) : TokenizerWrapper :=
  match customChatTemplate.filter (· ≠ []) with
  | some template => ⟨{ tokenizer with chatTemplate := .str template }, true⟩
  | none => ⟨tokenizer, truthy tokenizer.chatTemplate⟩

def TokenizerWrapper.applyChatTemplate (t : TokenizerWrapper) : Value → Except PyStr Value
  | .list messages =>
    if t.hasChatTemplate then t.tokenizer.render t.tokenizer.chatTemplate (.list messages)
    else .error (lit "Chat template does not exist for this model, " ++
      lit "you must provide a single string input instead of a list of messages")
  | .str prompt =>
    t.tokenizer.render t.tokenizer.chatTemplate
      (.list [.dict [(lit "role", .str (lit "user")), (lit "content", .str prompt)]])
  | _ => .error (lit "Input must be a string or a list of messages")

end Native

section Model

/-- What the generator of `llm.generate` produces: outputs, and the exception that ends it, if one does. -/
structure LlmRun where
  outputs : List RequestOutput
  raised : Option PyStr

/-- A Mistral engine has no tokenizer and loads one for each job; `number` is what a value counts in
comparisons. -/
structure NativeEngine (α σ : Type) where
  tokenizer : Option Native.TokenizerWrapper
  fromPretrained : Except PyStr Native.Tokenizer
  customChatTemplate : Option PyStr
  llm : Value → σ → PyStr → LlmRun
  n : σ → ℕ
  number : Value → Option α
  defaults : BatchDefaults α

def Usage.dump (u : Usage) : Value :=
  .dict [(lit "input", .int u.input), (lit "output", .int u.output)]

def Batch.dump (b : Batch) : Value :=
  .dict ((lit "choices", .list (b.choices.map fun ts => .dict [(lit "tokens", .list (ts.map .str))])) ::
    (b.usage.map fun u => (lit "usage", u.dump)).toList)

def isList : Value → Bool
  | .list _ => true
  | _ => false

def indexErrorText (stream : Bool) : PyStr :=
  if stream then lit "list index out of range" else lit "list assignment index out of range"

def notSupported (op left right : PyStr) : PyStr :=
  lit "'" ++ op ++ lit "' not supported between instances of '" ++ left ++ lit "' and '" ++ right ++ lit "'"

variable {α σ : Type} [LT α] [DecidableLT α] [LE α] [DecidableLE α] [Mul α] [One α] [NatCast α]
variable [Zero α] [DecidableEq α]

/-- `_generate_vllm` over a generator that raises: the batch begun by then is lost. -/
def generateRun (d : BatchDefaults α) (r : GenerateRequest α) (stream : Bool) (run : LlmRun) :
    List Batch × Option PyStr :=
  match requestLoop r stream (.init d r) run.outputs, run.raised with
  | (ys, none), _ => (ys, some (indexErrorText stream))
  | (ys, some _), some text => (ys, some text)
  | (ys, some st), none => (ys ++ finalBatch stream st, none)

/-- A maximum that is no number is compared with a number when the sizes could grow, and else with the length
of the first batch. -/
def generateUnsized (d : BatchDefaults α) (r : GenerateRequest α) (stream : Bool) (typeName : PyStr)
    (run : LlmRun) : List Batch × Option PyStr :=
  if 1 < orDefault r.batchSizeGrowthFactor d.batchSizeGrowthFactor ∧
    1 ≤ orDefault r.minBatchSize d.minBatchSize then
    ([], some (notSupported (lit ">") typeName (lit "int")))
  else if stream then
    match run.outputs.flatMap RequestOutput.outputs with
    | [] => ([], run.raised)
    | o :: _ =>
      ([], some (if o.index < r.n then notSupported (lit ">=") (lit "int") typeName else indexErrorText stream))
  else generateRun d r stream run

namespace NativeEngine

variable (engine : NativeEngine α σ) (job : JobInput σ)

def getTokenizerForChatTemplate : Except PyStr Native.TokenizerWrapper :=
  match engine.tokenizer with
  | some t => .ok t
  | none => engine.fromPretrained.map fun t => .init t engine.customChatTemplate

def llmInput : Except PyStr Value :=
  if truthy job.applyChatTemplate || isList job.llmInput then
    engine.getTokenizerForChatTemplate.bind fun t => t.applyChatTemplate job.llmInput
  else .ok job.llmInput

def request : GenerateRequest α where
  n := engine.n job.samplingParams
  batchSize := engine.number job.maxBatchSize
  batchSizeGrowthFactor := job.batchSizeGrowthFactor.bind engine.number
  minBatchSize := job.minBatchSize.bind engine.number

/-- Whether the maximum is unset or a number. -/
def sized : Bool :=
  !truthy job.maxBatchSize || (engine.number job.maxBatchSize).isSome

def run (llmInput : Value) : LlmRun :=
  engine.llm llmInput job.samplingParams job.requestId

def generateVllm : Generation :=
  match engine.llmInput job with
  | .error text => ⟨[], some text⟩
  | .ok llmInput =>
    let out :=
      if engine.sized job then
        generateRun engine.defaults (engine.request job) (truthy job.stream) (engine.run job llmInput)
      else
        generateUnsized engine.defaults (engine.request job) (truthy job.stream) (typeName job.maxBatchSize)
          (engine.run job llmInput)
    ⟨out.1.map Batch.dump, out.2⟩

end NativeEngine

end Model

section Runs

variable {α : Type} [LT α] [DecidableLT α] [LE α] [DecidableLE α] [Mul α] [NatCast α]
variable {r : GenerateRequest α} {st : GenerateLoop α}

/-- Behind `t` outputs that were yielded, the texts of `pending` are in the batch. -/
structure GenerateLoop.Holds (n t : ℕ) (pending : List (ℕ × PyStr)) (st : GenerateLoop α) : Prop where
  tokens : st.tokens = grouped n pending
  batchCounter : st.batchCounter = pending.length
  totalCounter : st.totalCounter = t + pending.length

namespace GenerateLoop.Holds

variable {n t : ℕ} {pending : List (ℕ × PyStr)}

omit [LT α] [DecidableLT α] [LE α] [DecidableLE α] [Mul α] [NatCast α] in
lemma taken (h : st.Holds n t pending) (o : CompletionOutput) (last : PyStr) :
    (takeText st o last).Holds n t (pending ++ [(o.index, o.text.drop last.length)]) := by
  have hlen : (pending ++ [(o.index, o.text.drop last.length)]).length = pending.length + 1 := by simp
  refine ⟨?_, ?_, ?_⟩
  · rw [grouped_push, ← h.tokens]
    rfl
  · rw [hlen, ← h.batchCounter]
    rfl
  · rw [hlen, ← Nat.add_assoc, ← h.totalCounter]
    rfl

omit [LE α] [DecidableLE α] [NatCast α] in
lemma sent (h : st.Holds n t pending) : (nextBatch n st).Holds n (t + pending.length) [] :=
  ⟨grouped_nil.symm, rfl, h.totalCounter⟩

omit [LT α] [DecidableLT α] [LE α] [DecidableLE α] [Mul α] [NatCast α] in
lemma batch_eq (h : st.Holds n t pending) :
    st.batch = ⟨grouped n pending, some ⟨st.nInputTokens, t + pending.length⟩⟩ := by
  rw [GenerateLoop.batch, h.tokens, h.totalCounter]

end GenerateLoop.Holds

lemma outputLoop_cons {stream : Bool} {o : CompletionOutput} {ys : List Batch} {st' : GenerateLoop α}
    (h : takeOutput r stream st o = some (ys, st')) (outs : List CompletionOutput) :
    outputLoop r stream st (o :: outs) =
      (ys ++ (outputLoop r stream st' outs).1, (outputLoop r stream st' outs).2) := by
  rw [outputLoop, h]

/-- The streaming loop up to where an exception can end it has yielded the full batches. -/
lemma outputLoop_soFar {outs : List CompletionOutput} {pending : List (ℕ × PyStr)} {t : ℕ}
    (hindex : ∀ o ∈ outs, o.index < st.lastOutputTexts.length) (hst : st.Holds r.n t pending) :
    ∃ st', outputLoop r true st outs = (yielded r.n st.nInputTokens t
      (BatchSize.batcher.soFar st.batchSize pending (newTexts st.lastOutputTexts outs)).1, some st') := by
  induction outs generalizing st pending t with
  | nil => exact ⟨st, rfl⟩
  | cons o outs ih =>
    have hlast : st.lastOutputTexts[o.index]? = some (st.lastOutputTexts.getD o.index []) := by
      simp [List.getElem?_eq_getElem (hindex o List.mem_cons_self)]
    have hrest : ∀ p ∈ outs, p.index < (st.lastOutputTexts.set o.index o.text).length := by
      intro p hp
      rw [List.length_set]
      exact hindex p (List.mem_cons_of_mem o hp)
    have htaken := hst.taken o (st.lastOutputTexts.getD o.index [])
    set last := st.lastOutputTexts.getD o.index [] with hdef
    have hfull : (takeText st o last).batchSize.reached (takeText st o last).batchCounter =
        BatchSize.batcher.full st.batchSize (pending.length + 1) := by
      rw [htaken.batchCounter, List.length_append]
      rfl
    have hstep : takeOutput r true st o = some (if BatchSize.batcher.full st.batchSize (pending.length + 1) then
        ([(takeText st o last).batch], nextBatch r.n (takeText st o last)) else ([], takeText st o last)) := by
      rw [takeOutput, hlast, ← hfull]
      rfl
    rw [newTexts, Library.Batcher.soFar_cons]
    cases hreached : BatchSize.batcher.full st.batchSize (pending.length + 1) with
    | true =>
      rw [hreached, if_pos rfl] at hstep
      obtain ⟨st', hloop⟩ := @ih (nextBatch r.n (takeText st o last)) _ _ hrest htaken.sent
      refine ⟨st', ?_⟩
      rw [outputLoop_cons hstep, hloop, htaken.batch_eq, if_pos rfl, yielded]
      rfl
    | false =>
      rw [hreached, if_neg Bool.false_ne_true] at hstep
      obtain ⟨st', hloop⟩ := @ih (takeText st o last) _ _ hrest htaken
      refine ⟨st', ?_⟩
      rw [outputLoop_cons hstep, hloop, if_neg Bool.false_ne_true]
      rfl

variable [One α] [Zero α] [DecidableEq α] {d : BatchDefaults α} {run : LlmRun} {ys : List Batch}

def LlmRun.items (run : LlmRun) : List CompletionOutput :=
  run.outputs.flatMap RequestOutput.outputs

/-- The batches of a stream and the texts that are lost make up what vLLM has generated. Nothing is lost unless
an exception ends the run, and then less than the next batch would have held. -/
structure Streamed (d : BatchDefaults α) (r : GenerateRequest α) (run : LlmRun) (ys : List Batch)
    (lost : List (ℕ × PyStr)) : Prop where
  text : ∀ i < r.n, (ys.flatMap (fun y => y.choices.getD i [])).flatten ++ (ofIndex i lost).flatten =
    (lastTexts (firstTexts r.n) run.items).getD i []
  whole : run.raised = none → lost = []
  short : ∀ k, 1 ≤ k → k ≤ lost.length →
    (BatchSize.update^[ys.length] (GenerateLoop.init d r).batchSize).reached k = false

lemma length_yielded {n input : ℕ} (t : ℕ) (bs : List (List (ℕ × PyStr))) :
    (yielded n input t bs).length = bs.length := by
  induction bs generalizing t with
  | nil => rfl
  | cons b bs ih => rw [yielded, List.length_cons, ih, List.length_cons]

lemma text_yielded {n input t : ℕ} {items : List CompletionOutput} (h : Cumulative n items)
    {bs : List (List (ℕ × PyStr))} {lost : List (ℕ × PyStr)}
    (hbs : bs.flatten ++ lost = newTexts (firstTexts n) items) {i : ℕ} (hi : i < n) :
    ((yielded n input t bs).flatMap (fun y => y.choices.getD i [])).flatten ++ (ofIndex i lost).flatten =
      (lastTexts (firstTexts n) items).getD i [] := by
  have hfirst : ∀ o ∈ items, (firstTexts n).getD o.index [] <+: o.text := by
    intro o ho
    simp [firstTexts, h.index_lt o ho]
  have hcumulative : Cumulative (firstTexts n).length items := by simpa [firstTexts] using h
  have htext := flatten_newTexts hcumulative hfirst i
  rw [flatten_yielded hi, ← List.flatten_append, ← ofIndex_append, hbs, ← htext]
  simp [firstTexts, hi]

lemma generateRun_exhausted {stream : Bool} {outs : List RequestOutput}
    (h : generateVllm d r stream outs = (ys, .exhausted)) : generateRun d r stream ⟨outs, none⟩ = (ys, none) := by
  rw [generateVllm] at h
  rw [generateRun]
  cases hloop : requestLoop r stream (.init d r) outs with
  | mk zs st =>
    rw [hloop] at h
    cases st with
    | none => cases h
    | some st =>
      obtain ⟨rfl, -⟩ := Prod.mk.inj h
      rfl

lemma generateRun_raised {stream : Bool} {outs : List RequestOutput} {st' : GenerateLoop α}
    (h : outputLoop r stream (counted d r outs) (outs.flatMap RequestOutput.outputs) = (ys, some st'))
    (text : PyStr) : generateRun d r stream ⟨outs, some text⟩ = (ys, some text) := by
  rw [generateRun, requestLoop_counted, h]

def batchesSoFar (d : BatchDefaults α) (r : GenerateRequest α) (items : List CompletionOutput) :
    List (List (ℕ × PyStr)) × List (ℕ × PyStr) :=
  BatchSize.batcher.soFar (GenerateLoop.init d r).batchSize [] (newTexts (firstTexts r.n) items)

lemma batchesSoFar_flatten (items : List CompletionOutput) :
    (batchesSoFar d r items).1.flatten ++ (batchesSoFar d r items).2 = newTexts (firstTexts r.n) items :=
  Library.Batcher.flatten_soFar _ _ _ _

omit [Mul α] [NatCast α] in
lemma counted_texts (outs : List RequestOutput) : (counted d r outs).lastOutputTexts = firstTexts r.n := by
  obtain ⟨input, hst⟩ := counted_init (r := r) d outs
  rw [hst]
  rfl

omit [Mul α] [NatCast α] in
lemma counted_index (outs : List RequestOutput) {items : List CompletionOutput} (h : ∀ o ∈ items, o.index < r.n) :
    ∀ o ∈ items, o.index < (counted d r outs).lastOutputTexts.length := by
  intro o ho
  rw [counted_texts, firstTexts, List.length_replicate]
  exact h o ho

/-- A stream yields what vLLM generates, up to the batch that an exception takes with it. -/
theorem generateRun_stream (h : Cumulative r.n run.items) :
    ∃ ys lost, generateRun d r true run = (ys, run.raised) ∧ Streamed d r run ys lost := by
  obtain ⟨outs, raised⟩ := run
  cases raised with
  | none =>
    obtain ⟨hrun, -⟩ := generateVllm_runs d outs rfl h.index_lt
    refine ⟨_, [], generateRun_exhausted hrun, ⟨fun i hi => ?_, fun _ => rfl, fun k hpos hk => ?_⟩⟩
    · exact text_yielded h (by rw [batches_flatten, List.append_nil]; rfl) hi
    · rw [List.length_nil] at hk
      omega
  | some text =>
    have hholds : (counted d r outs).Holds r.n 0 [] := by
      obtain ⟨input, hst⟩ := counted_init (r := r) d outs
      rw [hst]
      exact ⟨grouped_nil.symm, rfl, rfl⟩
    obtain ⟨st', hloop⟩ := outputLoop_soFar (counted_index outs h.index_lt) hholds
    have hsize : (counted d r outs).batchSize = (GenerateLoop.init d r).batchSize := by
      obtain ⟨input, hst⟩ := counted_init (r := r) d outs
      rw [hst]
    rw [counted_texts, hsize] at hloop
    refine ⟨_, (batchesSoFar d r (outs.flatMap RequestOutput.outputs)).2, generateRun_raised hloop text,
      ⟨fun i hi => ?_, fun hnone => ?_, ?_⟩⟩
    · exact text_yielded h (batchesSoFar_flatten _) hi
    · cases hnone
    · intro k hpos hk
      rw [length_yielded]
      exact Library.Batcher.soFar_short _ _ _ hpos hk

/-- Without a stream there is one batch with all texts, or none if an exception ends the run. -/
theorem generateRun_plain (h : Cumulative r.n run.items) :
    ∃ u, generateRun d r false run =
      (if run.raised.isSome then [] else [⟨(lastTexts (firstTexts r.n) run.items).map (fun t => [t]), some u⟩],
        run.raised) := by
  obtain ⟨outs, raised⟩ := run
  cases raised with
  | none =>
    obtain ⟨-, hrun⟩ := generateVllm_runs d outs rfl h.index_lt
    exact ⟨_, generateRun_exhausted hrun⟩
  | some text => exact ⟨⟨0, 0⟩, generateRun_raised (outputLoop_plain (counted_index outs h.index_lt)) text⟩

/-- For rational settings: what is lost is shorter than the schedule says of the next batch. -/
theorem Streamed.lost_lt {M m g : ℚ} {d : BatchDefaults ℚ} {r : GenerateRequest ℚ} {lost : List (ℕ × PyStr)}
    (h : Streamed d r run ys lost) (hM : 1 ≤ M) (hmax : orDefault r.batchSize d.defaultBatchSize = M)
    (hmin : orDefault r.minBatchSize d.minBatchSize = m)
    (hgrowth : orDefault r.batchSizeGrowthFactor d.batchSizeGrowthFactor = g) :
    lost.length < schedule M m g ys.length := by
  have hsize : (GenerateLoop.init d r).batchSize = .init M m g := by
    rw [← hmax, ← hmin, ← hgrowth]
    rfl
  obtain hnil | hpos := Nat.eq_zero_or_pos lost.length
  · rw [hnil]
    exact schedule_pos hM _
  · have hshort := h.short lost.length hpos (Nat.le_refl _)
    rw [hsize, BatchSize.reached, decide_eq_false_iff_not, not_le] at hshort
    rw [schedule_eq]
    exact Nat.lt_ceil.mpr hshort

end Runs

section Jobs

variable {α ρ σ : Type} [LT α] [DecidableLT α] [LE α] [DecidableLE α] [Mul α] [One α] [NatCast α]
variable [Zero α] [DecidableEq α]

def errorItem (vllm : Vllm ρ) (text : PyStr) : Value :=
  .dict [(lit "error", badRequest vllm text)]

omit [LT α] [DecidableLT α] [LE α] [DecidableLE α] [Mul α] [One α] [NatCast α] [Zero α] [DecidableEq α] in
/-- An exception of a native job ends in an item, never in the end of the worker. -/
lemma native_served (engines : Engines α ρ σ) (job : JobInput σ) :
    handlerLoop (engines.native job) = ⟨(engines.generateVllm job).batches ++
      ((engines.generateVllm job).raised.map (errorItem engines.vllm)).toList, false⟩ := by
  have hloop (batches : List Value) (events : List EngineEvent) : handlerLoop (batches.map .batch ++ events) =
      ⟨batches ++ (handlerLoop events).items, (handlerLoop events).exits⟩ := by
    induction batches with
    | nil => rfl
    | cons b batches ih => rw [List.map_cons, List.cons_append, handlerLoop, ih]; rfl
  rw [Engines.native, hloop]
  cases (engines.generateVllm job).raised <;> rfl

variable {engines : Engines α ρ σ} {engine : NativeEngine α σ} {job : JobInput σ} {llmInput : Value}

omit [LT α] [DecidableLT α] [LE α] [DecidableLE α] [Mul α] [One α] [NatCast α] [Zero α] [DecidableEq α] in
/-- With a chat template, a prompt is the same as a conversation of this one message. -/
theorem llmInput_message {wrapper : Native.TokenizerWrapper}
    (hwrapper : engine.getTokenizerForChatTemplate = .ok wrapper)
    (htemplate : wrapper.hasChatTemplate = true) (happly : truthy job.applyChatTemplate = true) (prompt : PyStr) :
    engine.llmInput { job with llmInput := .str prompt } = engine.llmInput { job with
      llmInput := .list [.dict [(lit "role", .str (lit "user")), (lit "content", .str prompt)]] } := by
  simp [NativeEngine.llmInput, happly, hwrapper, Except.bind, Native.TokenizerWrapper.applyChatTemplate, htemplate]

/-- What vLLM generates for a prompt, as batches with the exception behind them. -/
structure Delivered (engine : NativeEngine α σ) (job : JobInput σ) (llmInput : Value) (ys : List Batch)
    (raised : Option PyStr) : Prop where
  raised_eq : raised = (engine.run job llmInput).raised
  stream : truthy job.stream = true →
    ∃ lost, Streamed engine.defaults (engine.request job) (engine.run job llmInput) ys lost
  plain : truthy job.stream = false → ∃ u, ys = if raised.isSome then [] else
    [⟨(lastTexts (firstTexts (engine.n job.samplingParams)) (engine.run job llmInput).items).map (fun t => [t]),
      some u⟩]

/-- No batch at all, and an error unless there was nothing to generate. -/
def Withheld (engine : NativeEngine α σ) (job : JobInput σ) (llmInput : Value) (ys : List Batch)
    (raised : Option PyStr) : Prop :=
  ys = [] ∧ (raised = none → (engine.run job llmInput).items = [] ∧ (engine.run job llmInput).raised = none)

lemma generateRun_delivered
    (hrun : Cumulative (engine.n job.samplingParams) (engine.run job llmInput).items) :
    ∃ ys, generateRun engine.defaults (engine.request job) (truthy job.stream) (engine.run job llmInput) =
        (ys, (engine.run job llmInput).raised) ∧
      Delivered engine job llmInput ys (engine.run job llmInput).raised := by
  have hcumulative : Cumulative (engine.request job).n (engine.run job llmInput).items := hrun
  cases hstream : truthy job.stream with
  | true =>
    obtain ⟨ys, lost, hys, hstreamed⟩ := @generateRun_stream α _ _ _ _ _ _ _ _ _ _ engine.defaults _ hcumulative
    exact ⟨ys, hys, rfl, fun _ => ⟨lost, hstreamed⟩, fun h => absurd (hstream.symm.trans h) (by decide)⟩
  | false =>
    obtain ⟨u, hys⟩ := @generateRun_plain α _ _ _ _ _ _ _ _ _ _ engine.defaults _ hcumulative
    exact ⟨_, hys, rfl, fun h => absurd (hstream.symm.trans h) (by decide), fun _ => ⟨u, rfl⟩⟩

/-- A maximum that is no number leaves a plain job as it is, if it does not fail on it. -/
lemma generateUnsized_delivered
    (hrun : Cumulative (engine.n job.samplingParams) (engine.run job llmInput).items) (typeName : PyStr) :
    ∃ ys raised, generateUnsized engine.defaults (engine.request job) (truthy job.stream) typeName
        (engine.run job llmInput) = (ys, raised) ∧
      (Withheld engine job llmInput ys raised ∨
        truthy job.stream = false ∧ Delivered engine job llmInput ys raised) := by
  rw [generateUnsized]
  split_ifs with hgrows hstream
  · exact ⟨_, _, rfl, Or.inl ⟨rfl, fun h => by cases h⟩⟩
  · split
    · rename_i hitems
      exact ⟨_, _, rfl, Or.inl ⟨rfl, fun h => ⟨hitems, h⟩⟩⟩
    · exact ⟨_, _, rfl, Or.inl ⟨rfl, fun h => by cases h⟩⟩
  · rw [Bool.not_eq_true] at hstream
    obtain ⟨ys, hys, hdelivered⟩ := generateRun_delivered hrun
    rw [hstream] at hys ⊢
    exact ⟨ys, _, hys, Or.inr ⟨rfl, hdelivered⟩⟩

end Jobs

section Answers

variable [Interpreter] {α ρ σ : Type} [LT α] [DecidableLT α] [LE α] [DecidableLE α] [Mul α] [One α] [NatCast α]
variable [Zero α] [DecidableEq α]

/-- The serverless handler over this engine. -/
def serve (engines : Engines α ρ σ) (engine : NativeEngine α σ) (randomUuid : PyStr)
    (jobText : List (PyStr × Value) → PyError → PyStr) (input : List (PyStr × Value)) : Served :=
  handler { engines with generateVllm := engine.generateVllm } randomUuid jobText [(lit "input", .dict input)]

variable {engines : Engines α ρ σ} {engine : NativeEngine α σ} {job : JobInput σ}
variable {randomUuid : PyStr} {jobText : List (PyStr × Value) → PyError → PyStr} {input : List (PyStr × Value)}

lemma serve_native (hjob : JobInput.init engines.samplingParams randomUuid input = .ok job)
    (hroute : truthy job.openaiRoute = false) : serve engines engine randomUuid jobText input =
      ⟨(engine.generateVllm job).batches ++
        ((engine.generateVllm job).raised.map (errorItem engines.vllm)).toList, false⟩ := by
  rw [← native_served { engines with generateVllm := engine.generateVllm } job]
  simp [serve, handler, jobEvents, hjob, hroute]

end Answers

section Witness

/-- vLLM runs out of memory behind its third output. -/
def breakingEngine : NativeEngine ℕ Body where
  tokenizer := some (.init ⟨.str (lit "chatml"), fun _ _ => .ok (.str (lit "user: hi"))⟩ none)
  fromPretrained := .error (lit "no such model")
  customChatTemplate := none
  llm _ _ _ := ⟨[⟨[5, 7], [⟨0, lit "The"⟩]⟩, ⟨[5, 7], [⟨0, lit "The cat"⟩]⟩, ⟨[5, 7], [⟨0, lit "The cat sat"⟩]⟩],
    some outOfMemory⟩
  n _ := 1
  number
    | .int n => some n.toNat
    | _ => none
  defaults := ⟨50, 1, 3⟩

def conversation : List (PyStr × Value) :=
  [(lit "messages", .list [.dict [(lit "role", .str (lit "user")), (lit "content", .str (lit "hi"))]]),
    (lit "stream", .bool true)]

end Witness

end GemmaWorker.Engine
