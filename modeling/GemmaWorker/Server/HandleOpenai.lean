import GemmaWorker.EngineArgs.Convert
import GemmaWorker.Python.JsonBytes
import GemmaWorker.Server.StreamDecision

/-! `_handle_openai` from the bytes of a body to its response or to the exception that leaves it, with
what it does to the load tracker on the way. -/

namespace GemmaWorker.Server

open Python Heartbeat

section Job

variable {σ : Type} (samplingParams : List (PyStr × Value) → Except PyError σ) (randomUuid : PyStr)

structure JobInput (σ : Type) where
  llmInput : Value
  stream : Value
  maxBatchSize : Value
  applyChatTemplate : Value
  useOpenaiFormat : Value
  samplingParams : σ
  requestId : PyStr
  batchSizeGrowthFactor : Option Value
  minBatchSize : Option Value
  openaiRoute : Value
  openaiInput : Value

/-- Only a dict takes the default and can be unpacked. -/
def sampParam : Value → Except PyError (List (PyStr × Value))
  | .dict items =>
    .ok (if items.any (fun kv => kv.1 == lit "max_tokens") then items
      else dictSet items (lit "max_tokens", .int 100))
  | _ => .error .typeError

/-- `f(v) if v else None`. -/
def orNone (f : Value → Except PyError Value) (v : Value) : Except PyError (Option Value) :=
  if truthy v then (f v).map some else .ok none

def JobInput.init [Interpreter] (job : List (PyStr × Value)) : Except PyError (JobInput σ) := do
  let params ← samplingParams (← sampParam (dictGet job (lit "sampling_params") (.dict [])))
  let growthFactor ← orNone EngineArgs.floatOf (dictGet job (lit "batch_size_growth_factor") .none)
  let minBatchSize ← orNone EngineArgs.intOf (dictGet job (lit "min_batch_size") .none)
  return {
    llmInput := dictGet job (lit "messages") (dictGet job (lit "prompt") .none)
    stream := dictGet job (lit "stream") (.bool false)
    maxBatchSize := dictGet job (lit "max_batch_size") .none
    applyChatTemplate := dictGet job (lit "apply_chat_template") (.bool false)
    useOpenaiFormat := dictGet job (lit "use_openai_format") (.bool false)
    samplingParams := params
    requestId := randomUuid
    batchSizeGrowthFactor := growthFactor
    minBatchSize := minBatchSize
    openaiRoute := dictGet job (lit "openai_route") .none
    openaiInput := dictGet job (lit "openai_input") .none }

def openaiJob (route : PyStr) (body : Body) : List (PyStr × Value) :=
  [(lit "openai_route", .str route), (lit "openai_input", .dict body)]

end Job

section Handler

/-- The batches that `openai_engine.generate` yields, and the text of the exception that ends it, if one does. -/
structure Generation where
  batches : List Value
  raised : Option PyStr

def Generation.outcome (g : Generation) : Outcome :=
  match g.raised with
  | some text => .raised text
  | none => .finished (g.batches.foldl (fun _ batch => some batch) none)

/-- What the handler calls outside this file. -/
structure Backend (σ : Type) where
  samplingParams : List (PyStr × Value) → Except PyError σ
  randomUuid : PyStr
  generate : JobInput σ → Generation

def Backend.job [Interpreter] {σ : Type} (backend : Backend σ) (route : PyStr) (body : Body) :
    Except PyError (JobInput σ) :=
  JobInput.init backend.samplingParams backend.randomUuid (openaiJob route body)

/-- An exception that leaves the handler: `body.get` on another value than a dict, one of `JobInput`, or
one of a response that cannot be rendered. -/
inductive Escaped
  | attributeError
  | jobInput (e : PyError)
  | response (text : PyStr)

inductive Answer (σ : Type)
  | json (r : Response)
  | eventStream (job : JobInput σ)

structure Handled (σ : Type) where
  result : Except Escaped (Answer σ)
  tracker : LoadTracker

variable [Interpreter] {σ : Type} (backend : Backend σ) (route : PyStr) (now : ℕ → ℚ) (tr : LoadTracker)

def respond : Except PyStr Response → Except Escaped (Answer σ)
  | .ok r => .ok (.json r)
  | .error text => .error (.response text)

/-- The `finally` counts down, and the handler around it once more for an exception. -/
def handleNonStream (job : JobInput σ) : Handled σ :=
  match nonStreamResponse (backend.generate job).outcome with
  | .ok r => ⟨.ok (.json r), tr.decrementLoad (now 2)⟩
  | .error text => ⟨.error (.response text), (tr.decrementLoad (now 2)).decrementLoad (now 3)⟩

def handleObject (body : Body) : Handled σ :=
  match backend.job route body with
  | .error e => ⟨.error (.jobInput e), tr⟩
  | .ok job =>
    let tr := (tr.incrementLoad (now 0)).touchActivity (now 1)
    if serverStreams body then ⟨.ok (.eventStream job), tr⟩ else handleNonStream backend now tr job

/-- `now k` is the reading of the clock after `k` others. -/
def handleOpenai (enginesReady : Bool) (bytes : PyBytes) : Handled σ :=
  if !enginesReady then ⟨respond (jsonResponse 503 (errorContent (lit "Model loading, please retry"))), tr⟩
  else match jsonLoadsBytes bytes with
  | .error _ => ⟨respond (jsonResponse 400 (errorContent (lit "Invalid JSON body"))), tr⟩
  | .ok (.dict body) => handleObject backend route now tr body
  | .ok _ => ⟨.error .attributeError, tr⟩

end Handler

section Rendering

def Response.JsonError (r : Response) : Prop :=
  ∃ text, jsonResponse r.status (errorContent text) = .ok r

def Response.ResultOf (r : Response) (o : Outcome) : Prop :=
  ∃ result, o = .finished (some result) ∧ jsonResponse (if hasError result then 400 else 200) result = .ok r

lemma jsonResponse_status {status : ℕ} {content : Value} {r : Response}
    (h : jsonResponse status content = .ok r) : r.status = status := by
  rw [jsonResponse] at h
  split_ifs at h
  cases he : encodeUtf8 (rawText content) with
  | error text => simp [he, Except.map] at h
  | ok body =>
    simp only [he, Except.map, Except.ok.injEq] at h
    rw [← h]

lemma jsonError_of_eq {status : ℕ} {text : PyStr} {r : Response}
    (h : jsonResponse status (errorContent text) = .ok r) : r.JsonError :=
  ⟨text, (jsonResponse_status h).symm ▸ h⟩

lemma ok_of_isOk {ε α : Type} {e : Except ε α} (h : e.isOk = true) : ∃ a, e = .ok a := by
  cases e with
  | ok a => exact ⟨a, rfl⟩
  | error x => cases h

lemma error_response {status : ℕ} {text : PyStr} (h : encodable text = true) :
    ∃ r, jsonResponse status (errorContent text) = .ok r ∧ r.status = status ∧ r.JsonError := by
  obtain ⟨r, hr⟩ := ok_of_isOk ((jsonResponse_error_isOk status text).trans h)
  exact ⟨r, hr, jsonResponse_status hr, jsonError_of_eq hr⟩

lemma nonStreamResponse_cases {o : Outcome} {r : Response} (h : nonStreamResponse o = .ok r) :
    r.ResultOf o ∨ r.JsonError := by
  cases o with
  | raised text => exact Or.inr (jsonError_of_eq h)
  | finished result =>
    cases hc : collected result with
    | error text =>
      rw [nonStreamResponse, hc] at h
      exact Or.inr (jsonError_of_eq h)
    | ok r' =>
      simp only [nonStreamResponse, hc, Except.ok.injEq] at h
      subst h
      rw [collected.eq_def] at hc
      split at hc
      · exact Or.inr (jsonError_of_eq hc)
      · exact Or.inr (jsonError_of_eq hc)
      · rename_i result hsome
        exact Or.inl ⟨result, rfl, hc⟩

lemma outcome_isOk (g : Generation) : (nonStreamResponse g.outcome).isOk = true ↔
    ∀ text, g.raised = some text → encodable text = true := by
  rw [nonStreamResponse_isOk, Generation.outcome]
  cases g.raised <;> simp

variable {σ : Type} {backend : Backend σ} {now : ℕ → ℚ} {tr : LoadTracker}

lemma respond_isOk {e : Except PyStr Response} {answer : Answer σ} (h : respond e = .ok answer) :
    e.isOk = true := by
  cases e with
  | ok r => rfl
  | error text => cases h

lemma handleNonStream_result (job : JobInput σ) : (handleNonStream backend now tr job).result =
    respond (nonStreamResponse (backend.generate job).outcome) := by
  rw [handleNonStream]
  cases nonStreamResponse (backend.generate job).outcome <;> rfl

lemma handleNonStream_answered {job : JobInput σ}
    (h : ∀ text, (backend.generate job).raised = some text → encodable text = true) :
    ∃ r, (handleNonStream backend now tr job).result = .ok (.json r) ∧
      (r.ResultOf (backend.generate job).outcome ∨ r.JsonError) := by
  obtain ⟨r, hr⟩ := ok_of_isOk ((outcome_isOk (backend.generate job)).mpr h)
  rw [handleNonStream_result, hr]
  exact ⟨r, rfl, nonStreamResponse_cases hr⟩

end Rendering

section Responses

def IsObject [Interpreter] (bytes : PyBytes) : Prop :=
  ∃ body, jsonLoadsBytes bytes = .ok (.dict body)

variable [Interpreter] {σ : Type} (backend : Backend σ) (route : PyStr) (now : ℕ → ℚ) (tr : LoadTracker)
  (bytes : PyBytes)

/-- A ready worker answers. What is no JSON object is refused and leaves the tracker as it is. -/
structure Responds : Prop where
  answers : ∃ answer, (handleOpenai backend route now tr true bytes).result = .ok answer
  refused : ¬ IsObject bytes → ∃ r, (handleOpenai backend route now tr true bytes).result = .ok (.json r) ∧
    r.status = 400 ∧ r.JsonError
  answered : ∀ body job, jsonLoadsBytes bytes = .ok (.dict body) → backend.job route body = .ok job →
    serverStreams body = false → ∃ r, (handleOpenai backend route now tr true bytes).result = .ok (.json r) ∧
      (r.ResultOf (backend.generate job).outcome ∨ r.JsonError)
  untouched : ¬ IsObject bytes → (handleOpenai backend route now tr true bytes).tracker = tr

/-- The body is an object if it is JSON at all, and without a stream UTF-8 has the text of the exception
that the engine may raise. -/
def Answerable : Prop :=
  ∀ v, jsonLoadsBytes bytes = .ok v → ∃ body, v = .dict body ∧ (serverStreams body = false →
    ∀ job text, backend.job route body = .ok job → (backend.generate job).raised = some text →
      encodable text = true)

variable {backend route now tr bytes}

lemma job_ok {params : σ} (hparams : backend.samplingParams [(lit "max_tokens", .int 100)] = .ok params)
    (body : Body) : ∃ job, backend.job route body = .ok job := by
  have hget (key : PyStr) (dflt : Value) (hkey : key ≠ lit "openai_route" ∧ key ≠ lit "openai_input") :
      dictGet (openaiJob route body) key dflt = dflt := by
    simp [dictGet, openaiJob, hkey.1.symm, hkey.2.symm]
  have hsamp : sampParam (dictGet (openaiJob route body) (lit "sampling_params") (.dict [])) =
      .ok [(lit "max_tokens", .int 100)] := by
    rw [hget _ _ (by simp [lit_inj])]
    rfl
  have hgrowth : dictGet (openaiJob route body) (lit "batch_size_growth_factor") .none = .none :=
    hget _ _ (by simp [lit_inj])
  have hleast : dictGet (openaiJob route body) (lit "min_batch_size") .none = .none :=
    hget _ _ (by simp [lit_inj])
  rw [Backend.job, JobInput.init, hsamp, hgrowth, hleast]
  simp only [bind, Except.bind, hparams, orNone, truthy]
  exact ⟨_, rfl⟩

lemma handleOpenai_invalid {e : PyError} (h : jsonLoadsBytes bytes = .error e) :
    ∃ r, handleOpenai backend route now tr true bytes = ⟨.ok (.json r), tr⟩ ∧ r.status = 400 ∧ r.JsonError := by
  have htext : encodable (lit "Invalid JSON body") = true := by decide
  obtain ⟨r, hr, hstatus, herror⟩ := @error_response 400 _ htext
  refine ⟨r, ?_, hstatus, herror⟩
  simp [handleOpenai, h, hr, respond]

lemma handleOpenai_other {v : Value} (h : jsonLoadsBytes bytes = .ok v) (hv : ∀ body, v ≠ .dict body) :
    handleOpenai backend route now tr true bytes = ⟨.error .attributeError, tr⟩ := by
  cases v with
  | dict body => exact absurd rfl (hv body)
  | _ => simp [handleOpenai, h]

lemma handleOpenai_object {body : Body} {job : JobInput σ} (h : jsonLoadsBytes bytes = .ok (.dict body))
    (hjob : backend.job route body = .ok job) : handleOpenai backend route now tr true bytes =
      if serverStreams body then ⟨.ok (.eventStream job), (tr.incrementLoad (now 0)).touchActivity (now 1)⟩
      else handleNonStream backend now ((tr.incrementLoad (now 0)).touchActivity (now 1)) job := by
  simp [handleOpenai, h, handleObject, hjob]

lemma responds_invalid {e : PyError} (h : jsonLoadsBytes bytes = .error e) :
    Responds backend route now tr bytes := by
  obtain ⟨r, hr, hstatus, herror⟩ := @handleOpenai_invalid _ σ backend route now tr bytes e h
  exact {
    answers := ⟨.json r, by rw [hr]⟩
    refused := fun _ => ⟨r, by rw [hr], hstatus, herror⟩
    answered := fun body job hbody => by
      rw [h] at hbody
      cases hbody
    untouched := fun _ => by rw [hr] }

lemma responds_object {body : Body} {job : JobInput σ} (h : jsonLoadsBytes bytes = .ok (.dict body))
    (hjob : backend.job route body = .ok job) (htext : serverStreams body = false →
      ∀ text, (backend.generate job).raised = some text → encodable text = true) :
    Responds backend route now tr bytes := by
  have hobject : IsObject bytes := ⟨body, h⟩
  have heq := @handleOpenai_object _ σ backend route now tr bytes body job h hjob
  exact {
    answers := by
      rw [heq]
      split_ifs with hstream
      · exact ⟨_, rfl⟩
      · obtain ⟨r, hr, -⟩ := handleNonStream_answered (htext (by simpa using hstream))
        exact ⟨.json r, hr⟩
    refused := fun hno => absurd hobject hno
    answered := fun body' job' h' hjob' hstream => by
      obtain rfl : body = body' := by simpa [h] using h'
      obtain rfl : job = job' := by simpa [hjob] using hjob'
      rw [heq, hstream, if_neg Bool.false_ne_true]
      exact handleNonStream_answered (htext hstream)
    untouched := fun hno => absurd hobject hno }

end Responses

/-- Every request gets a response exactly when the body is an object or no JSON and the text of an
exception can be encoded. -/
theorem responds_iff [Interpreter] {σ : Type} (backend : Backend σ) (route : PyStr) (now : ℕ → ℚ)
    (tr : LoadTracker) (bytes : PyBytes) (params : σ)
    (hparams : backend.samplingParams [(lit "max_tokens", .int 100)] = .ok params) :
    Responds backend route now tr bytes ↔ Answerable backend route bytes := by
  constructor
  · intro h v hv
    by_cases hdict : ∃ body, v = .dict body
    · obtain ⟨body, rfl⟩ := hdict
      refine ⟨body, rfl, fun hstream job text hjob htext => ?_⟩
      obtain ⟨r, hr, -⟩ := h.answered body job hv hjob hstream
      rw [handleOpenai_object hv hjob, hstream, if_neg Bool.false_ne_true, handleNonStream_result] at hr
      exact (outcome_isOk (backend.generate job)).mp (respond_isOk hr) text htext
    · obtain ⟨answer, hanswer⟩ := h.answers
      rw [handleOpenai_other hv (not_exists.mp hdict)] at hanswer
      cases hanswer
  · intro h
    cases hv : jsonLoadsBytes bytes with
    | error e => exact responds_invalid hv
    | ok v =>
      obtain ⟨body, rfl, htext⟩ := h v hv
      obtain ⟨job, hjob⟩ := @job_ok _ σ backend route params hparams body
      exact responds_object hv hjob fun hstream text => htext hstream job text hjob

def raisingBackend (text : PyStr) : Backend (List (PyStr × Value)) where
  samplingParams := .ok
  randomUuid := lit "0"
  generate _ := ⟨[], some text⟩

theorem empty_object_responds : Responds (raisingBackend (lit "out of memory")) (lit "/v1/completions")
    (fun k => k) ⟨0, 0⟩ (asciiBytes (lit "\x7b\x7d")) := by
  have hloads : jsonLoadsBytes (asciiBytes (lit "\x7b\x7d")) = .ok (.dict []) := by
    have hplain : ∀ c ∈ lit "\x7b\x7d", c.val ≠ 0 := by simp [lit, ch]
    rw [jsonLoadsBytes_ascii (by decide) hplain]
    rfl
  refine (responds_iff _ _ _ _ _ [(lit "max_tokens", .int 100)] rfl).mpr fun v hv => ?_
  obtain rfl : .dict [] = v := by simpa [hloads] using hv
  refine ⟨[], rfl, fun _ job text _ htext => ?_⟩
  obtain rfl : lit "out of memory" = text := Option.some.inj htext
  decide

/-- A body that is a list, and an exception with a surrogate in its text, both raise out of the handler. -/
theorem list_body_escapes :
    ¬ Responds (raisingBackend (lit "out of memory")) (lit "/v1/completions") (fun k => k) ⟨0, 0⟩ [0x5B, 0x5D] ∧
      ¬ Responds (raisingBackend [code 0xDC80]) (lit "/v1/completions") (fun k => k) ⟨0, 0⟩ [0x7B, 0x7D] := by
  constructor
  · rintro ⟨⟨answer, hanswer⟩, -, -, -⟩
    have hloads : jsonLoadsBytes [0x5B, 0x5D] = .ok (.list []) := by rfl
    rw [handleOpenai_other hloads (by simp)] at hanswer
    cases hanswer
  · rintro ⟨⟨answer, hanswer⟩, -, -, -⟩
    have hloads : jsonLoadsBytes [0x7B, 0x7D] = .ok (.dict []) := by rfl
    have hstream : serverStreams [] = false := by rfl
    obtain ⟨job, hjob⟩ := @job_ok _ _ (raisingBackend [code 0xDC80]) (lit "/v1/completions") _ rfl []
    rw [handleOpenai_object hloads hjob, hstream, if_neg Bool.false_ne_true, handleNonStream_result] at hanswer
    have htext := (outcome_isOk _).mp (respond_isOk hanswer) [code 0xDC80] rfl
    exact absurd htext (by decide)

section Runs

variable {σ : Type} (backend : Backend σ) (route : PyStr) (now : ℕ → ℚ) (bytes : PyBytes) (i : ℕ)

def Generation.last (g : Generation) : EngineEvent :=
  match g.raised with
  | some text => .raised text
  | none => .exhausted

def engineActions (g : Generation) : List Action :=
  g.batches.map (fun b => ⟨.engine i (.batch b), now 1, now 1⟩) ++ [⟨.engine i g.last, now 2, now 3⟩]

/-- What request `i` does in the server until its handler returns. -/
def handlerActions [Interpreter] : List Action :=
  ⟨.body i (jsonLoadsBytes bytes).toOption, now 0, now 1⟩ ::
    match jsonLoadsBytes bytes with
    | .ok (.dict body) =>
      match backend.job route body with
      | .ok job => if serverStreams body then [] else engineActions now i (backend.generate job)
      | .error _ => []
    | _ => []

def Answer.response : Answer σ → Option Response
  | .json r => some r
  | .eventStream _ => none

/-- Request `i` has the response of the handler, and the server its tracker. -/
def State.Shows (s : State) (i : ℕ) (h : Handled σ) : Prop :=
  s.tracker = h.tracker ∧ s.requests[i]?.bind Request.response = h.result.toOption.bind Answer.response

variable {backend route now bytes i} {cfg : Config} {s : State} {r : Request}

lemma next_eq {a : Action} {t : State} (hnow : s.clock ≤ a.now) (hlater : a.now ≤ a.later)
    (h : s.step cfg a.now a.later a.event = some t) :
    (server cfg).next s a = some { t with clock := a.later } := by
  simp only [server, State.next, if_pos (And.intro hnow hlater), h, Option.map_some]

lemma getElem_setRequest {r' : Request} (hi : s.requests[i]? = some r) :
    (s.setRequest i r').requests[i]? = some r' := by
  obtain ⟨hlt, -⟩ := List.getElem?_eq_some_iff.mp hi
  exact List.getElem?_set_self hlt

lemma shows_setRequest {h : Handled σ} {r' : Request} (hi : s.requests[i]? = some r)
    (htr : s.tracker = h.tracker) (hresponse : r'.response = h.result.toOption.bind Answer.response) :
    (s.setRequest i r').Shows i h := by
  refine ⟨htr, ?_⟩
  rw [getElem_setRequest hi]
  exact hresponse

/-- The batches are collected one after the other; the induction is on them, for every last batch so far. -/
lemma exec_batches {batches : List Value} {result : Option Value} (hi : s.requests[i]? = some r)
    (hpc : r.pc = .collecting result) (hclock : s.clock = now 1) :
    ∃ t, (server cfg).exec s (batches.map fun b => ⟨.engine i (.batch b), now 1, now 1⟩) = some t ∧
      t.tracker = s.tracker ∧ t.clock = now 1 ∧ t.requests[i]? =
        some { r with pc := .collecting (batches.foldl (fun _ batch => some batch) result) } := by
  induction batches generalizing s r result with
  | nil =>
    refine ⟨s, rfl, rfl, hclock, ?_⟩
    rw [hi, List.foldl_nil, ← hpc]
  | cons b batches ih =>
    have hstep : s.step cfg (now 1) (now 1) (.engine i (.batch b)) =
        some (s.setRequest i { r with pc := .collecting (some b) }) := by
      simp [State.step, hi, State.handleEngine, hpc]
    have hnext := @next_eq cfg s ⟨.engine i (.batch b), now 1, now 1⟩ _ hclock.le le_rfl hstep
    obtain ⟨t, hexec, htr, htime, hreq⟩ :=
      @ih { s.setRequest i { r with pc := .collecting (some b) } with clock := now 1 }
        { r with pc := .collecting (some b) } (some b) (getElem_setRequest hi) rfl rfl
    exact ⟨t, (Library.Machine.exec_cons hnext).trans hexec, htr, htime, hreq⟩

lemma exec_last {g : Generation} (hi : s.requests[i]? = some r)
    (hpc : r.pc = .collecting (g.batches.foldl (fun _ batch => some batch) none))
    (hclock : s.clock = now 1) (hnow : Monotone now) :
    (server cfg).exec s [⟨.engine i g.last, now 2, now 3⟩] =
      some { s.finishNonStream (now 2) (now 3) i r (nonStreamResponse g.outcome) with clock := now 3 } := by
  have hstep : s.step cfg (now 2) (now 3) (.engine i g.last) =
      some (s.finishNonStream (now 2) (now 3) i r (nonStreamResponse g.outcome)) := by
    rw [Generation.outcome, Generation.last]
    cases g.raised <;> simp [State.step, hi, State.handleEngine, hpc]
  have hle : s.clock ≤ now 2 := hclock ▸ hnow (by decide)
  exact Library.Machine.exec_cons (@next_eq cfg s ⟨_, now 2, now 3⟩ _ hle (hnow (by decide)) hstep)

lemma finishNonStream_shows {job : JobInput σ} (hi : s.requests[i]? = some r) (hnone : r.response = none) :
    (s.finishNonStream (now 2) (now 3) i r (nonStreamResponse (backend.generate job).outcome)).Shows i
      (handleNonStream backend now s.tracker job) := by
  rw [handleNonStream]
  cases nonStreamResponse (backend.generate job).outcome with
  | ok response =>
    apply @shows_setRequest σ i (s.track [(.decrement, now 2)]) r
    · exact hi
    · rfl
    · rfl
  | error text =>
    apply @shows_setRequest σ i (s.track [(.decrement, now 2), (.decrement, now 3)]) r
    · exact hi
    · rfl
    · exact hnone

lemma exec_nonStream {job : JobInput σ} (hi : s.requests[i]? = some r) (hpc : r.pc = .collecting none)
    (hnone : r.response = none) (hclock : s.clock = now 1) (hnow : Monotone now) :
    ∃ t, (server cfg).exec s (engineActions now i (backend.generate job)) = some t ∧
      t.Shows i (handleNonStream backend now s.tracker job) := by
  obtain ⟨t, hexec, htr, htime, hreq⟩ :=
    @exec_batches now i cfg s r (backend.generate job).batches none hi hpc hclock
  refine ⟨_, (Library.Machine.exec_append hexec).trans (exec_last hreq rfl htime hnow), ?_⟩
  have hshows := @finishNonStream_shows σ backend now i t _ job hreq hnone
  rw [htr] at hshows
  exact hshows

end Runs

/-- The server runs a request as the handler does. -/
theorem handleOpenai_exec [Interpreter] {σ : Type} (backend : Backend σ) (route : PyStr) (now : ℕ → ℚ)
    (bytes : PyBytes) {cfg : Config} {s : State} {i : ℕ} {r : Request} {params : σ}
    (hparams : backend.samplingParams [(lit "max_tokens", .int 100)] = .ok params)
    (hi : s.requests[i]? = some r) (hpc : r.pc = .reading) (hnone : r.response = none)
    (hclock : s.clock ≤ now 0) (hnow : Monotone now) :
    ∃ t, (server cfg).exec s (handlerActions backend route now bytes i) = some t ∧
      t.Shows i (handleOpenai backend route now s.tracker true bytes) := by
  have hbody (content : Option Value) : (server cfg).next s ⟨.body i content, now 0, now 1⟩ =
      some { s.handleBody (now 0) (now 1) i r content with clock := now 1 } :=
    @next_eq cfg s ⟨_, now 0, now 1⟩ _ hclock (hnow (by decide)) (by simp [State.step, hi, hpc])
  rw [handlerActions, Library.Machine.exec_cons (hbody _)]
  cases hv : jsonLoadsBytes bytes with
  | error e =>
    obtain ⟨response, hresponse, -⟩ := @error_response 400 (lit "Invalid JSON body") (by decide)
    refine ⟨_, rfl, ?_⟩
    simp only [handleOpenai, hv, hresponse]
    apply shows_setRequest hi
    · rfl
    · simp only [hresponse]
      rfl
  | ok v =>
    cases v with
    | dict body =>
      obtain ⟨job, hjob⟩ := @job_ok _ σ backend route params hparams body
      rw [handleOpenai_object hv hjob]
      simp only [hjob]
      cases hstream : serverStreams body with
      | true =>
        refine ⟨_, rfl, ?_⟩
        apply @shows_setRequest σ i (s.track [(.increment, now 0), (.touch, now 1)]) r
        · exact hi
        · rfl
        · exact hnone
      | false =>
        have hbranch : State.branch body = .collecting none := by
          rw [State.branch, ← serverStreams, hstream, if_neg Bool.false_ne_true]
        apply exec_nonStream (r := { r with pc := State.branch body })
        · exact @getElem_setRequest i (s.track [(.increment, now 0), (.touch, now 1)]) r _ hi
        · exact hbranch
        · exact hnone
        · rfl
        · exact hnow
    | _ =>
      refine ⟨_, rfl, ?_⟩
      rw [handleOpenai_other hv (by simp)]
      exact shows_setRequest hi rfl rfl

end GemmaWorker.Server
