import GemmaWorker.Server.Isolation
import GemmaWorker.Server.Serverless

/-! What the client of a stream holds in any state of any run: the first of the values that a job gets. -/

namespace GemmaWorker.Server

open Python Heartbeat Engine

section Chunks

variable {events all : List EngineEvent}

lemma streamResponse_mono (h : events <+: all) : streamResponse events <+: streamResponse all := by
  induction events generalizing all with
  | nil => exact List.nil_prefix
  | cons e events ih =>
    obtain ⟨rest, rfl⟩ := h
    rw [List.cons_append, streamResponse, streamResponse]
    cases (chunks e).2 with
    | true => exact List.prefix_refl _
    | false => exact (List.prefix_append_right_inj _).mpr (ih (List.prefix_append events rest))

lemma streamResponse_ended {earlier : List EngineEvent} {e : EngineEvent} (hopen : Open earlier)
    (he : (chunks e).2 = true) (h : earlier ++ [e] <+: all) :
    streamResponse (earlier ++ [e]) = streamResponse all := by
  obtain ⟨rest, rfl⟩ := h
  rw [List.append_assoc, State.streamResponse_append hopen, State.streamResponse_append hopen]
  simp [streamResponse, he]

lemma Answered.sent_prefix {r : Request} (h : Answered events r) : r.sent <+: streamResponse events := by
  rw [Answered] at h
  split at h
  · exact h.2 ▸ List.nil_prefix
  · exact h.2.1 ▸ List.nil_prefix
  · exact h.2.1 ▸ List.nil_prefix
  · exact h.1 ▸ List.nil_prefix
  · exact h.2.1 ▸ List.prefix_refl _
  · exact ⟨_, h.2.1⟩
  · obtain h | h := h
    · exact h.2
    · exact h.1 ▸ List.nil_prefix

variable [Interpreter]

lemma whole_batchChunks {b : Value} (h : Clean b) : ∀ c ∈ batchChunks b, Whole c := by
  have hsingle {body : PyStr} (hwhole : Whole body) : ∀ c ∈ [body], Whole c :=
    List.forall_mem_singleton.mpr hwhole
  cases h with
  | dump hdump =>
    obtain ⟨items, rfl, -⟩ := hdump
    exact hsingle (whole_dataLine (oneLine_jsonDumps _))
  | lines hlines => exact hsingle (whole_joined hlines)
  | @payloads batch hpayloads =>
    have hstr : ∀ v ∈ batch, ∀ s, v ≠ .str s := by
      intro v hv
      obtain ⟨p, rfl⟩ := hpayloads v hv
      exact p.notStr
    rw [batchChunks_list hstr]
    intro c hc
    obtain ⟨v, -, rfl⟩ := List.mem_map.mp hc
    exact whole_dataLine (oneLine_jsonDumps v)

lemma whole_streamResponse (h : Proper events) : ∀ c ∈ streamResponse events, Whole c := by
  have hline {e : EngineEvent} {text : PyStr} (he : chunks e = ([dataLine text], true)) (htext : OneLine text)
      (rest : List EngineEvent) : ∀ c ∈ streamResponse (e :: rest), Whole c := by
    rw [streamResponse, he]
    exact List.forall_mem_singleton.mpr (whole_dataLine htext)
  induction h with
  | exhausted => exact hline rfl (by decide) []
  | raised => exact hline rfl (oneLine_jsonDumps _) []
  | @error b _ herror => exact hline (by rw [chunks, if_pos herror]) (oneLine_jsonDumps b) _
  | @batch b events hb herror _ ih =>
    have hchunks : streamResponse (.batch b :: events) = batchChunks b ++ streamResponse events := by
      simp [streamResponse, chunks, herror]
    rw [hchunks]
    intro c hc
    exact (List.mem_append.mp hc).elim (whole_batchChunks hb c) (ih c)

/-- Only whole chunks are sent, so that what was sent can be read on its own. -/
lemma decoded_sent (h : Proper all) {sent : List PyStr} (hsent : sent <+: streamResponse all) :
    decoded sent.flatten <+: decoded (streamBody all) := by
  obtain ⟨rest, hrest⟩ := hsent
  have hwhole : ∀ c ∈ sent, Whole c := by
    intro c hc
    exact whole_streamResponse h c (hrest ▸ List.mem_append_left rest hc)
  rw [streamBody, ← hrest, List.flatten_append, (whole_flatten hwhole).decoded_append]
  exact List.prefix_append _ _

end Chunks

section Client

variable [Interpreter] {α ρ σ : Type} [LT α] [DecidableLT α] [LE α] [DecidableLE α] [Mul α] [One α] [NatCast α]
variable {engines : Engines α ρ σ} {body : Body} {job : JobInput σ} {cfg : Config} {s : State} {i : ℕ}
  {r : Request}

/-- Whatever is done for others, and wherever a stream is cut off, its client holds the first values of the
job, and all of them once it has been given the last chunk. -/
theorem stream_delivers (hc : engines.vllm.Conforms)
    (hensured : ∀ text, engines.ensured = some text → encodable text = true)
    (hinput : job.openaiInput = .dict body) {as : List Action}
    (he : (server cfg).exec (State.init cfg) as = some s) (hr : s.requests[i]? = some r)
    (hheard : (server cfg).seen (heard i) (State.init cfg) as <+: engines.openai job) :
    ∃ values, Matches (handlerLoop (engines.openai job)) values (meetsCuda true (engines.openai job)) ∧
      decoded r.sent.flatten <+: values ∧ (r.pc = .yielded [] true → decoded r.sent.flatten = values) := by
  have hproper : Proper (engines.openai job) := (generate_yields hc hensured hinput).proper
  have hanswered := State.answeredAt_some (State.answeredAt_exec he) hr
  refine ⟨_, stream_matches hproper, ?_, fun hpc => ?_⟩
  · exact decoded_sent hproper (hanswered.sent_prefix.trans (streamResponse_mono hheard))
  · rw [Answered, hpc] at hanswered
    obtain ⟨-, hsent, earlier, e, hevents, hopen, hlast⟩ := hanswered
    rw [hevents] at hheard hsent
    rw [List.append_nil, streamResponse_ended hopen hlast hheard] at hsent
    rw [hsent, streamBody]

end Client

section Witness

def streamingJob : JobInput Body where
  llmInput := .none
  stream := .bool false
  maxBatchSize := .none
  applyChatTemplate := .bool false
  useOpenaiFormat := .bool false
  samplingParams := []
  requestId := lit "0"
  batchSizeGrowthFactor := none
  minBatchSize := none
  openaiRoute := .str (lit "/v1/completions")
  openaiInput := .dict streamingBody

/-- The second client comes and leaves while the first one is given a payload and the error behind it. -/
def brokenStream : List Action :=
  [⟨.enginesReady, 0, 0⟩, ⟨.arrive, 1, 1⟩, ⟨.arrive, 2, 2⟩, ⟨.body 0 (some (.dict streamingBody)), 3, 3⟩,
    ⟨.body 1 (some (.dict streamingBody)), 4, 4⟩, ⟨.pull 0, 5, 5⟩, ⟨.engine 0 (.batch (.list [replyValue])), 6, 6⟩,
    ⟨.cancel 1, 7, 7⟩, ⟨.pull 0, 8, 8⟩, ⟨.engine 0 (.raised outOfMemory), 9, 9⟩]

theorem brokenStream_delivers : ∃ s r values, (server .sample).exec (State.init .sample) brokenStream = some s ∧
    s.requests[0]? = some r ∧ Matches (handlerLoop (breakingEngines.openai streamingJob)) values
      (meetsCuda true (breakingEngines.openai streamingJob)) ∧ decoded r.sent.flatten <+: values ∧
    (r.pc = .yielded [] true → decoded r.sent.flatten = values) := by
  have hrun : ((server .sample).exec (State.init .sample) brokenStream).any
      (fun s => s.requests[0]?.isSome) = true := by
    decide +kernel
  obtain ⟨s, hs, hsome⟩ := (Option.any_eq_true _ _).mp hrun
  obtain ⟨r, hr⟩ := Option.isSome_iff_exists.mp hsome
  have hheard : (server .sample).seen (heard 0) (State.init .sample) brokenStream <+:
      breakingEngines.openai streamingJob := ⟨[], rfl⟩
  obtain ⟨values, h⟩ := stream_delivers breakingVllm_conforms (fun _ h => by cases h) rfl hs hr hheard
  exact ⟨s, r, values, hs, hr, h⟩

end Witness

end GemmaWorker.Server
