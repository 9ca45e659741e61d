import GemmaWorker.EngineArgs.Layers

/-! What the cases that are treated apart do to the value of each argument. -/

namespace GemmaWorker.EngineArgs

open GemmaWorker.Python

section Values

variable [Interpreter] (rt : Runtime) (env : Environ) (base : PyStr → Option Value)

def valueOf (f : PyStr) : Value :=
  (base f).getD .none

def unset (v : Value) : Bool :=
  isNone v || isZero v

def filledTokens : Value :=
  if unset (valueOf base (lit "max_model_len")) then
    resolveMaxModelLen rt (valueOf base (lit "model"))
      ((base (lit "trust_remote_code")).getD (.bool false)) (valueOf base (lit "revision"))
  else valueOf base (lit "max_model_len")

def normalised (f : PyStr) : Option Value :=
  if f = lit "hf_overrides" then
    (base f).bind fun v =>
      if truthy (sanitizeHfOverrides rt v) then some (sanitizeHfOverrides rt v) else none
  else if f = lit "quantization" then
    if isStr (valueOf base (lit "load_format")) (lit "bitsandbytes") then
      some (.str (lit "bitsandbytes"))
    else base f
  else if f = lit "tensor_parallel_size" then
    if 1 < rt.deviceCount then some (.int rt.deviceCount) else base f
  else if f = lit "max_parallel_loading_workers" then
    if 1 < rt.deviceCount then some .none else base f
  else if f = lit "kv_cache_dtype" then
    if isStr (valueOf base f) (lit "fp8_e5m2") then some (.str (lit "fp8")) else base f
  else if f = lit "max_model_len" then
    if isZero (valueOf base f) then some .none else base f
  else if f = lit "max_num_batched_tokens" then
    if unset (valueOf base f) then
      if isNone (filledTokens rt base) then (base f).map (fun _ => .none)
      else some (filledTokens rt base)
    else base f
  else base f

def lateOverride (f : PyStr) : Option Value :=
  if f = lit "limit_mm_per_prompt" then
    (env (lit "LIMIT_MM_PER_PROMPT")).bind fun s => (convertLimitMmPerPrompt s).toOption
  else if f = lit "max_seq_len_to_capture" then
    (setting env (lit "MAX_CONTEXT_LEN_TO_CAPTURE")).bind fun s => (pyInt s).toOption.map .int
  else if f = lit "attention_backend" then
    if truthy (valueOf base f) then none
    else (setting env (lit "VLLM_ATTENTION_BACKEND")).map .str
  else if f = lit "enable_log_requests" then
    (setting env (lit "DISABLE_LOG_REQUESTS")).bind fun s =>
      if rt.lower s = lit "true" then some (.bool false) else none
  else if f = lit "speculative_config" then
    (getSpeculativeConfig rt env).toOption.filter truthy
  else none

end Values

section Steps

variable {rt : Runtime} {env : Environ} {args d : Dict}

lemma limit_some (h : limitMmPerPrompt env args = some d) : d = args.write (lit "limit_mm_per_prompt")
    ((env (lit "LIMIT_MM_PER_PROMPT")).bind fun s => (convertLimitMmPerPrompt s).toOption) := by
  rw [limitMmPerPrompt] at h
  cases he : env (lit "LIMIT_MM_PER_PROMPT") with
  | none =>
    rw [he] at h
    exact (Option.some.inj h).symm
  | some s =>
    rw [he] at h
    obtain ⟨v, hv, rfl⟩ := Option.map_eq_some_iff.mp h
    rw [Option.bind_some, hv, Dict.write]

lemma maxContext_some (h : maxContextLen env args = some d) : d = args.write (lit "max_seq_len_to_capture")
    ((setting env (lit "MAX_CONTEXT_LEN_TO_CAPTURE")).bind fun s => (pyInt s).toOption.map .int) := by
  rw [maxContextLen] at h
  cases he : setting env (lit "MAX_CONTEXT_LEN_TO_CAPTURE") with
  | none =>
    rw [he] at h
    exact (Option.some.inj h).symm
  | some s =>
    rw [he] at h
    obtain ⟨n, hn, rfl⟩ := Option.map_eq_some_iff.mp h
    rw [Option.bind_some, hn, Option.map_some, Dict.write]

lemma quantization_eq : quantization args = args.write (lit "quantization")
    (if isStr (args.get (lit "load_format")) (lit "bitsandbytes") then some (.str (lit "bitsandbytes"))
      else none) := by
  have hstr {v : Value} {s : PyStr} (h : isStr v s = true) : v = .str s := by
    cases v <;> simp_all [isStr]
  rw [quantization]
  split_ifs with h
  · rw [hstr h, Dict.write]
  · rfl

lemma parallelSizes_eq : parallelSizes rt args =
    (args.write (lit "tensor_parallel_size")
      (if 1 < rt.deviceCount then some (.int rt.deviceCount) else none)).write
      (lit "max_parallel_loading_workers") (if 1 < rt.deviceCount then some .none else none) := by
  rw [parallelSizes]
  split_ifs <;> rfl

lemma kvCacheDtype_eq : kvCacheDtype args = args.write (lit "kv_cache_dtype")
    (if isStr (args.get (lit "kv_cache_dtype")) (lit "fp8_e5m2") then some (.str (lit "fp8"))
      else none) := by
  rw [kvCacheDtype]
  split_ifs <;> rfl

lemma zeroToNone_eq (key : PyStr) :
    zeroToNone args key = args.write key (if isZero (args.get key) then some .none else none) := by
  rw [zeroToNone]
  split_ifs <;> rfl

lemma maxNumBatchedTokens_eq : maxNumBatchedTokens rt args = args.write (lit "max_num_batched_tokens")
    (if isNone (args.get (lit "max_num_batched_tokens")) && !isNone (batchedTokens rt args) then
      some (batchedTokens rt args) else none) := by
  rw [maxNumBatchedTokens]
  split_ifs <;> rfl

lemma attentionBackend_eq : attentionBackend env args = args.write (lit "attention_backend")
    (if truthy (args.get (lit "attention_backend")) then none
      else (setting env (lit "VLLM_ATTENTION_BACKEND")).map .str) := by
  rw [attentionBackend]
  cases setting env (lit "VLLM_ATTENTION_BACKEND") with
  | none => split_ifs <;> rfl
  | some s => split_ifs <;> rfl

lemma enableLogRequests_eq : enableLogRequests rt env args = args.write (lit "enable_log_requests")
    ((setting env (lit "DISABLE_LOG_REQUESTS")).bind fun s =>
      if rt.lower s = lit "true" then some (.bool false) else none) := by
  rw [enableLogRequests]
  cases setting env (lit "DISABLE_LOG_REQUESTS") with
  | none => rfl
  | some s =>
    simp only [Option.bind_some]
    split_ifs <;> rfl

lemma lookup_hfOverrides (f : PyStr) : (hfOverrides rt args).lookup f =
    if f = lit "hf_overrides" then
      (args.lookup f).bind fun v =>
        if truthy (sanitizeHfOverrides rt v) then some (sanitizeHfOverrides rt v) else none
    else args.lookup f := by
  rw [hfOverrides]
  by_cases hf : f = lit "hf_overrides"
  · subst hf
    rw [if_pos rfl]
    cases hv : args.lookup (lit "hf_overrides") with
    | none => exact hv
    | some v =>
      rw [Option.bind_some]
      simp only
      split_ifs
      · rw [Dict.lookup_set, if_pos rfl]
      · rw [Dict.lookup_del, if_pos rfl]
  · rw [if_neg hf]
    cases args.lookup (lit "hf_overrides") with
    | none => rfl
    | some v =>
      simp only
      split_ifs
      · rw [Dict.lookup_set, if_neg hf]
      · rw [Dict.lookup_del, if_neg hf]

variable [Interpreter]

lemma speculative_some (h : speculativeConfig rt env args = some d) :
    d = args.write (lit "speculative_config") ((getSpeculativeConfig rt env).toOption.filter truthy) := by
  rw [speculativeConfig] at h
  cases hc : getSpeculativeConfig rt env with
  | error e =>
    rw [hc] at h
    cases h
  | ok config =>
    rw [hc] at h
    obtain rfl := Option.some.inj h
    rw [Except.toOption, Option.filter_some]
    split_ifs <;> rfl

end Steps

section Result

variable {rt : Runtime} {fields : EngineFields} {env : Environ} {file : LocalArgsFile}

def zeroed (o : Option Value) : Option Value :=
  (if isZero (o.getD .none) then some .none else none).or o

lemma isNone_zeroed (o : Option Value) : isNone ((zeroed o).getD .none) = unset (o.getD .none) := by
  rw [zeroed, unset]
  cases hz : isZero (o.getD .none) with
  | true => simp [isNone]
  | false => simp

lemma zeroed_of_set {o : Option Value} (h : unset (o.getD .none) = false) : zeroed o = o := by
  rw [unset, Bool.or_eq_false_iff] at h
  rw [zeroed, h.2]
  rfl

lemma zeroed_of_unset {o : Option Value} (h : unset (o.getD .none) = true) :
    zeroed o = o.map (fun _ => .none) := by
  cases o with
  | none => rfl
  | some v =>
    rw [zeroed]
    cases hz : isZero v with
    | true => simp [hz]
    | false =>
      have hv : isNone v = true := by simpa [unset, hz] using h
      cases v <;> simp_all [isNone]

lemma or_ite (c : Prop) [Decidable c] (v : Value) (o : Option Value) :
    (if c then some v else none).or o = if c then some v else o := by
  split_ifs <;> rfl

lemma limit_isSome (args : Dict) : (∃ d, limitMmPerPrompt env args = some d) ↔
    ∀ s, env (lit "LIMIT_MM_PER_PROMPT") = some s → ∃ v, convertLimitMmPerPrompt s = .ok v := by
  rw [limitMmPerPrompt]
  cases env (lit "LIMIT_MM_PER_PROMPT") with
  | none => simp
  | some s => cases h : convertLimitMmPerPrompt s <;> simp [h, Except.toOption]

lemma context_isSome (args : Dict) : (∃ d, maxContextLen env args = some d) ↔
    ∀ s, setting env (lit "MAX_CONTEXT_LEN_TO_CAPTURE") = some s → ∃ n, pyInt s = .ok n := by
  rw [maxContextLen]
  cases setting env (lit "MAX_CONTEXT_LEN_TO_CAPTURE") with
  | none => simp
  | some s => cases h : pyInt s <;> simp [h, Except.toOption]

lemma tokens_zeroed (base : PyStr → Option Value) :
    (if unset ((base (lit "max_model_len")).getD .none) then
      resolveMaxModelLen rt ((base (lit "model")).getD .none)
        ((base (lit "trust_remote_code")).getD (.bool false)) ((base (lit "revision")).getD .none)
    else (zeroed (base (lit "max_model_len"))).getD .none) = filledTokens rt base := by
  rw [filledTokens]
  cases h : unset ((base (lit "max_model_len")).getD .none) with
  | true => simp [valueOf, h]
  | false => simp [valueOf, h, zeroed_of_set h]

lemma tokens_eq (o : Option Value) (fill : Value) :
    (if unset (o.getD .none) && !isNone fill then some fill else none).or (zeroed o) =
      if unset (o.getD .none) then
        if isNone fill then o.map (fun _ => .none) else some fill
      else o := by
  cases h : unset (o.getD .none) with
  | true =>
    cases hfill : isNone fill with
    | true => simp [zeroed_of_unset h]
    | false => simp
  | false => simp [zeroed_of_set h]

variable [Interpreter]

lemma getEngineArgs_some {args : Dict} (h : getEngineArgs rt fields env file = some args) :
    ∃ base, layeredArgs rt fields env file = some base ∧
      ∀ f, args.lookup f = (lateOverride rt env base.lookup f).or (normalised rt base.lookup f) := by
  obtain ⟨base, hb, h⟩ := Option.bind_eq_some_iff.mp h
  obtain ⟨limited, hl, h⟩ := Option.bind_eq_some_iff.mp h
  obtain ⟨context, hc, h⟩ := Option.bind_eq_some_iff.mp h
  obtain rfl := limit_some hl
  obtain rfl := maxContext_some hc
  obtain rfl := speculative_some h
  refine ⟨base, hb, fun f => ?_⟩
  clear hl hc
  simp only [enableLogRequests_eq, attentionBackend_eq, maxNumBatchedTokens_eq, zeroToNone_eq,
    kvCacheDtype_eq, parallelSizes_eq, quantization_eq, batchedTokens, Dict.get, Dict.lookup_write,
    lookup_hfOverrides, lit_inj, String.reduceEq, if_false, if_true, Option.none_or, lateOverride, normalised]
  by_cases h1 : f = lit "limit_mm_per_prompt"
  · subst h1
    simp only [lit_inj, String.reduceEq, if_false, if_true, Option.none_or]
  by_cases h2 : f = lit "max_seq_len_to_capture"
  · subst h2
    simp only [lit_inj, String.reduceEq, if_false, if_true, Option.none_or]
  by_cases h3 : f = lit "attention_backend"
  · subst h3
    simp only [lit_inj, String.reduceEq, if_false, if_true, Option.none_or, valueOf]
    rfl
  by_cases h4 : f = lit "enable_log_requests"
  · subst h4
    simp only [lit_inj, String.reduceEq, if_false, if_true, Option.none_or]
  by_cases h5 : f = lit "speculative_config"
  · subst h5
    simp only [lit_inj, String.reduceEq, if_false, if_true, Option.none_or]
  by_cases h6 : f = lit "max_num_batched_tokens"
  · subst h6
    simp only [lit_inj, String.reduceEq, if_false, if_true, Option.none_or, ← zeroed.eq_def,
      isNone_zeroed, tokens_zeroed, tokens_eq, valueOf]
    rfl
  simp only [h1, h2, h3, h4, h5, h6, if_false, Option.none_or]
  by_cases h7 : f = lit "hf_overrides"
  · subst h7
    simp only [lit_inj, String.reduceEq, if_false, if_true, Option.none_or]
  by_cases h8 : f = lit "quantization"
  · subst h8
    simp only [lit_inj, String.reduceEq, if_false, if_true, Option.none_or, or_ite, valueOf]
    rfl
  by_cases h9 : f = lit "tensor_parallel_size"
  · subst h9
    simp only [lit_inj, String.reduceEq, if_false, if_true, Option.none_or, or_ite, valueOf]
  by_cases h10 : f = lit "max_parallel_loading_workers"
  · subst h10
    simp only [lit_inj, String.reduceEq, if_false, if_true, Option.none_or, or_ite, valueOf]
  by_cases h11 : f = lit "kv_cache_dtype"
  · subst h11
    simp only [lit_inj, String.reduceEq, if_false, if_true, Option.none_or, or_ite, valueOf]
    rfl
  by_cases h12 : f = lit "max_model_len"
  · subst h12
    simp only [lit_inj, String.reduceEq, if_false, if_true, Option.none_or, or_ite, valueOf]
    rfl
  simp only [h7, h8, h9, h10, h11, h12, if_false, Option.none_or]

/-- What has to be right in the environment and the baked file for the arguments to be built. -/
structure Builds (rt : Runtime) (fields : EngineFields) (env : Environ) (file : LocalArgsFile) : Prop where
  shallow : Shallow rt fields env
  baked : ∃ items, getLocalArgs file = some items
  limit : ∀ s, env (lit "LIMIT_MM_PER_PROMPT") = some s → ∃ v, convertLimitMmPerPrompt s = .ok v
  context : ∀ s, setting env (lit "MAX_CONTEXT_LEN_TO_CAPTURE") = some s → ∃ n, pyInt s = .ok n
  speculative : ∃ config, getSpeculativeConfig rt env = .ok config

lemma speculative_isSome (args : Dict) : (∃ d, speculativeConfig rt env args = some d) ↔
    ∃ config, getSpeculativeConfig rt env = .ok config := by
  rw [speculativeConfig]
  cases getSpeculativeConfig rt env <;> simp

theorem builds_iff : (∃ args, getEngineArgs rt fields env file = some args) ↔
    Builds rt fields env file := by
  constructor
  · rintro ⟨args, h⟩
    obtain ⟨base, hb, h⟩ := Option.bind_eq_some_iff.mp h
    obtain ⟨limited, hl, h⟩ := Option.bind_eq_some_iff.mp h
    obtain ⟨context, hc, h⟩ := Option.bind_eq_some_iff.mp h
    obtain ⟨hshallow, hbaked⟩ := layeredArgs_isSome.mp (Option.isSome_of_eq_some hb)
    exact ⟨hshallow, Option.isSome_iff_exists.mp hbaked, (limit_isSome base).mp ⟨limited, hl⟩,
      (context_isSome _).mp ⟨context, hc⟩, (speculative_isSome _).mp ⟨args, h⟩⟩
  · rintro ⟨hshallow, hbaked, hlimit, hcontext, hspec⟩
    have hlayers : (layeredArgs rt fields env file).isSome = true :=
      layeredArgs_isSome.mpr ⟨hshallow, Option.isSome_iff_exists.mpr hbaked⟩
    obtain ⟨base, hb⟩ := Option.isSome_iff_exists.mp hlayers
    obtain ⟨limited, hl⟩ := (limit_isSome base).mpr hlimit
    obtain ⟨context, hc⟩ := (context_isSome
      (kvCacheDtype (parallelSizes rt (quantization (hfOverrides rt limited))))).mpr hcontext
    obtain ⟨args, ha⟩ := (speculative_isSome (enableLogRequests rt env (attentionBackend env
      (maxNumBatchedTokens rt (zeroToNone (zeroToNone context (lit "max_model_len"))
        (lit "max_num_batched_tokens")))))).mpr hspec
    refine ⟨args, ?_⟩
    rw [getEngineArgs, hb]
    simp only [Option.bind_eq_bind, Option.bind_some, hl, hc, ha]

lemma speculative_unset (h : ∀ name ∈ [lit "SPECULATIVE_CONFIG", lit "SPECULATIVE_METHOD",
      lit "SPECULATIVE_MODEL", lit "NUM_SPECULATIVE_TOKENS", lit "NGRAM_PROMPT_LOOKUP_MAX",
      lit "NGRAM_PROMPT_LOOKUP_MIN"], env name = none) : getSpeculativeConfig rt env = .ok .none := by
  simp only [List.mem_cons, List.not_mem_nil, or_false, forall_eq_or_imp, forall_eq] at h
  obtain ⟨hfull, hmethod, hmodel, hnum, hmax, hmin⟩ := h
  simp [getSpeculativeConfig, buildSpeculativeConfig, readCount, readInt, setting, hfull, hmethod, hmodel,
    hnum, hmax, hmin, bind, Except.bind, pure, Except.pure, Except.map]

lemma shallow_of_texts (h : ∀ name s, env name = some s → jsonLoads (strip s) ≠ .error .recursionError) :
    Shallow rt fields env where
  discovered _ _ := by
    rintro ⟨s, hs, hdeep, -⟩
    exact h _ s hs hdeep
  aliased _ _ _ _ := by
    rintro ⟨s, hs, hdeep, -⟩
    exact h _ s hs hdeep

lemma builds_of_unset {items : List (PyStr × Value)}
    (hshallow : ∀ name s, env name = some s → jsonLoads (strip s) ≠ .error .recursionError)
    (hbaked : getLocalArgs file = some items)
    (hlimit : ∀ s, env (lit "LIMIT_MM_PER_PROMPT") = some s → ∃ v, convertLimitMmPerPrompt s = .ok v)
    (hcontext : ∀ s, env (lit "MAX_CONTEXT_LEN_TO_CAPTURE") = some s → ∃ n, pyInt s = .ok n)
    (hspec : ∀ name ∈ [lit "SPECULATIVE_CONFIG", lit "SPECULATIVE_METHOD", lit "SPECULATIVE_MODEL",
      lit "NUM_SPECULATIVE_TOKENS", lit "NGRAM_PROMPT_LOOKUP_MAX", lit "NGRAM_PROMPT_LOOKUP_MIN"],
      env name = none) : Builds rt fields env file where
  shallow := shallow_of_texts hshallow
  baked := ⟨items, hbaked⟩
  limit := hlimit
  context s hs := hcontext s (Option.filter_eq_some_iff.mp hs).1
  speculative := ⟨.none, speculative_unset hspec⟩

end Result

end GemmaWorker.EngineArgs
