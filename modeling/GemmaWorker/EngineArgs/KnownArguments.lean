import GemmaWorker.EngineArgs.SpecialCases

/-! Which keywords are passed: the known ones, and those written after the filter. -/

namespace GemmaWorker.EngineArgs

open GemmaWorker.Python

section Writes

variable [Interpreter] (rt : Runtime) (fields : EngineFields) (env : Environ) (file : LocalArgsFile)

def bakedItems : List (PyStr × Value) :=
  (getLocalArgs file).getD []

/-- The layers' value of a known argument, without the values that stand for nothing. -/
def layered (f : PyStr) : Option Value :=
  (supplied rt fields env (bakedItems file) f).filter (fun v => !isSentinel v)

/-- The places that write an argument without asking whether vLLM knows it, and when each does. -/
def lateWrites (base : PyStr → Option Value) : List (PyStr × Bool) :=
  [(lit "limit_mm_per_prompt", (env (lit "LIMIT_MM_PER_PROMPT")).isSome),
    (lit "quantization", isStr (valueOf base (lit "load_format")) (lit "bitsandbytes")),
    (lit "tensor_parallel_size", 1 < rt.deviceCount),
    (lit "max_parallel_loading_workers", 1 < rt.deviceCount),
    (lit "max_seq_len_to_capture", (setting env (lit "MAX_CONTEXT_LEN_TO_CAPTURE")).isSome),
    (lit "max_num_batched_tokens",
      unset (valueOf base (lit "max_num_batched_tokens")) && !isNone (filledTokens rt base)),
    (lit "attention_backend", !truthy (valueOf base (lit "attention_backend")) &&
      (setting env (lit "VLLM_ATTENTION_BACKEND")).isSome),
    (lit "enable_log_requests",
      (setting env (lit "DISABLE_LOG_REQUESTS")).any (fun s => rt.lower s = lit "true")),
    (lit "speculative_config", (getSpeculativeConfig rt env).toOption.any truthy)]

end Writes

section Keys

variable [Interpreter] {rt : Runtime} {fields : EngineFields} {env : Environ} {file : LocalArgsFile}
  {base : PyStr → Option Value} {f : PyStr}

lemma lateOverride_written (h : lateOverride rt env base f ≠ none) :
    (f, true) ∈ lateWrites rt env base := by
  rw [lateOverride] at h
  split_ifs at h with h1 h2 h3 ht h4 h5
  · subst h1
    cases he : env (lit "LIMIT_MM_PER_PROMPT") <;> simp_all [lateWrites]
  · subst h2
    cases he : setting env (lit "MAX_CONTEXT_LEN_TO_CAPTURE") <;> simp_all [lateWrites]
  · exact absurd rfl h
  · subst h3
    cases he : setting env (lit "VLLM_ATTENTION_BACKEND") <;> simp_all [lateWrites]
  · subst h4
    cases he : setting env (lit "DISABLE_LOG_REQUESTS") <;> simp_all [lateWrites]
  · subst h5
    cases he : (getSpeculativeConfig rt env).toOption <;> simp_all [lateWrites]
  · exact absurd rfl h

lemma normalised_written (h : normalised rt base f ≠ none) :
    (f, true) ∈ lateWrites rt env base ∨ base f ≠ none := by
  rw [normalised] at h
  split_ifs at h with h1 h2 hb h3 hg h4 hg h5 hk h6 hm h7 hu hn
  · right
    intro hf
    rw [hf] at h
    exact h rfl
  · left
    subst h2
    simp [lateWrites, hb]
  · exact Or.inr h
  · left
    subst h3
    simp [lateWrites, hg]
  · exact Or.inr h
  · left
    subst h4
    simp [lateWrites, hg]
  · exact Or.inr h
  · right
    intro hf
    rw [valueOf, hf] at hk
    cases hk
  · exact Or.inr h
  · right
    intro hf
    rw [valueOf, hf] at hm
    cases hm
  · exact Or.inr h
  · right
    intro hf
    rw [hf] at h
    exact h rfl
  · left
    subst h7
    simp [lateWrites, hu, hn]
  · exact Or.inr h
  · exact Or.inr h

lemma layered_known (h : layered rt fields env file f ≠ none) : f ∈ fields.names := by
  by_contra hf
  rw [layered, supplied, if_neg hf] at h
  exact h rfl

lemma lookup_layered {base : Dict} (h : layeredArgs rt fields env file = some base) :
    base.lookup = layered rt fields env file := by
  obtain ⟨baked, hbaked, hbase⟩ := lookup_layeredArgs h
  funext f
  rw [hbase, layered, bakedItems, hbaked, Option.getD_some]

/-- What reaches `AsyncEngineArgs(**args)`, argument by argument. -/
theorem lookup_getEngineArgs {args : Dict} (h : getEngineArgs rt fields env file = some args) (f : PyStr) :
    args.lookup f = (lateOverride rt env (layered rt fields env file) f).or
      (normalised rt (layered rt fields env file) f) := by
  obtain ⟨base, hb, hargs⟩ := getEngineArgs_some h
  rw [hargs, lookup_layered hb]

lemma written_passed {args : Dict} (h : getEngineArgs rt fields env file = some args)
    (hf : (f, true) ∈ lateWrites rt env (layered rt fields env file)) : f ∈ args.keys := by
  have hbuilds := builds_iff.mp ⟨args, h⟩
  rw [Dict.mem_keys_iff, lookup_getEngineArgs h]
  simp only [lateWrites, List.mem_cons, Prod.mk.injEq, List.not_mem_nil, or_false] at hf
  rcases hf with ⟨rfl, hw⟩ | ⟨rfl, hw⟩ | ⟨rfl, hw⟩ | ⟨rfl, hw⟩ | ⟨rfl, hw⟩ | ⟨rfl, hw⟩ | ⟨rfl, hw⟩ |
    ⟨rfl, hw⟩ | ⟨rfl, hw⟩
  · obtain ⟨s, hs⟩ := Option.isSome_iff_exists.mp hw.symm
    obtain ⟨v, hv⟩ := hbuilds.limit s hs
    simp [lateOverride, hs, hv, Except.toOption]
  · simp [lateOverride, normalised, lit_inj, ← hw]
  · simp [lateOverride, normalised, lit_inj, of_decide_eq_true hw.symm]
  · simp [lateOverride, normalised, lit_inj, of_decide_eq_true hw.symm]
  · obtain ⟨s, hs⟩ := Option.isSome_iff_exists.mp hw.symm
    obtain ⟨n, hn⟩ := hbuilds.context s hs
    simp [lateOverride, lit_inj, hs, hn, Except.toOption]
  · obtain ⟨hu, hn⟩ := Bool.and_eq_true_iff.mp hw.symm
    simp only [Bool.not_eq_true'] at hn
    simp [lateOverride, normalised, lit_inj, hu, hn]
  · obtain ⟨ht, hs⟩ := Bool.and_eq_true_iff.mp hw.symm
    obtain ⟨s, hs⟩ := Option.isSome_iff_exists.mp hs
    simp only [Bool.not_eq_true'] at ht
    simp [lateOverride, lit_inj, ht, hs]
  · obtain ⟨s, hs, ht⟩ := (Option.any_eq_true _ _).mp hw.symm
    simp [lateOverride, lit_inj, hs, of_decide_eq_true ht]
  · obtain ⟨config, hc, ht⟩ := (Option.any_eq_true _ _).mp hw.symm
    simp [lateOverride, lit_inj, hc, ht]

/-- All keywords are known exactly when every place that writes past the filter writes a known one. -/
theorem only_known_arguments_iff {args : Dict} (h : getEngineArgs rt fields env file = some args) :
    (∀ f ∈ args.keys, f ∈ fields.names) ↔
      ∀ w ∈ lateWrites rt env (layered rt fields env file), w.2 = true → w.1 ∈ fields.names := by
  constructor
  · rintro hknown ⟨f, written⟩ hw rfl
    exact hknown f (written_passed h hw)
  · intro hwrites f hf
    have hcases : (f, true) ∈ lateWrites rt env (layered rt fields env file) ∨
        layered rt fields env file f ≠ none := by
      rw [Dict.mem_keys_iff, lookup_getEngineArgs h, Ne, Option.or_eq_none_iff, not_and_or] at hf
      rcases hf with hf | hf
      · exact Or.inl (lateOverride_written hf)
      · exact normalised_written hf
    rcases hcases with hf | hf
    · exact hwrites (f, true) hf rfl
    · exact layered_known hf

end Keys

section Example

def upperAscii (s : PyStr) : PyStr :=
  s.map (fun c => if h : 97 ≤ c.val ∧ c.val ≤ 122 then ⟨c.val - 32, by omega⟩ else c)

def oneGpu : Runtime where
  builtins := ⟨fun _ => [], fun _ => .error .typeError⟩
  upper := upperAscii
  lower := lower
  deviceCount := 1
  patchRopeScaling := none
  autoConfig _ _ _ := none

/-- Some of the fields of a vLLM release that has dropped `max_seq_len_to_capture`. -/
def currentFields : EngineFields where
  items := [(lit "model", .simple (.scalar .str)), (lit "revision", .union [.scalar .str, .noneType]),
    (lit "load_format", .simple (.scalar .str)),
    (lit "max_model_len", .union [.scalar .int, .noneType]),
    (lit "max_num_batched_tokens", .union [.scalar .int, .noneType]),
    (lit "enable_log_requests", .simple (.scalar .bool)),
    (lit "limit_mm_per_prompt", .simple (.dict none))]
  nodup := by decide +kernel

def environ (vars : List (PyStr × PyStr)) : Environ :=
  fun name => vars.lookup name

@[simp] lemma environ_nil (name : PyStr) : environ [] name = none := rfl

@[simp] lemma environ_cons (k v : PyStr) (vars : List (PyStr × PyStr)) (name : PyStr) :
    environ ((k, v) :: vars) name = if name = k then some v else environ vars name := by
  rw [environ, List.lookup_cons]
  by_cases h : name = k
  · simp [h]
  · rw [beq_false_of_ne h, if_neg h]
    rfl

lemma environ_shallow [Interpreter] {vars : List (PyStr × PyStr)}
    (hvars : ∀ kv ∈ vars, ch '[' ∉ kv.2 ∧ ch '{' ∉ kv.2) (name s : PyStr) (hs : environ vars name = some s) :
    jsonLoads (strip s) ≠ .error .recursionError := by
  obtain ⟨before, after, rfl, -⟩ := List.lookup_eq_some_iff.mp hs
  obtain ⟨hlist, hdict⟩ := hvars (name, s) (by simp)
  exact jsonLoads_flat ⟨fun h => hlist (strip_subset s h), fun h => hdict (strip_subset s h)⟩

theorem known_arguments_one_gpu : (getEngineArgs oneGpu currentFields
      (environ [(lit "MAX_MODEL_LEN", lit "4096"), (lit "WORKER_USE_RAY", lit "1")]) .absent).any
    (fun args => args.keys.all (fun f => f ∈ currentFields.names)) = true := by
  have hbuilds : Builds oneGpu currentFields
      (environ [(lit "MAX_MODEL_LEN", lit "4096"), (lit "WORKER_USE_RAY", lit "1")]) .absent := by
    apply builds_of_unset (environ_shallow (by decide)) rfl <;> simp [lit_inj]
  have hformat : isStr (valueOf (layered oneGpu currentFields
      (environ [(lit "MAX_MODEL_LEN", lit "4096"), (lit "WORKER_USE_RAY", lit "1")]) .absent)
      (lit "load_format")) (lit "bitsandbytes") = false := by
    decide +kernel
  have hcount : oneGpu.deviceCount = 1 := rfl
  have hknown : lit "max_num_batched_tokens" ∈ currentFields.names := by
    simp [EngineFields.names, currentFields, lit_inj]
  obtain ⟨args, h⟩ := builds_iff.mpr hbuilds
  rw [h, Option.any_some, List.all_eq_true]
  intro f hf
  refine decide_eq_true ((only_known_arguments_iff h).mpr ?_ f hf)
  simp [lateWrites, hformat, hcount, hknown, setting, speculative_unset, Except.toOption, truthy, lit_inj]

/-- The deprecated variable for a field that vLLM has dropped. -/
theorem dropped_argument_passed : ¬ ∀ (rt : Runtime) (fields : EngineFields) (env : Environ)
    (file : LocalArgsFile) (args : Dict), getEngineArgs rt fields env file = some args →
      ∀ f ∈ args.keys, f ∈ fields.names := by
  intro hall
  have hread : pyInt (lit "8192") = .ok 8192 := by decide
  have hne : lit "8192" ≠ [] := by decide
  have hbuilds : Builds oneGpu currentFields
      (environ [(lit "MAX_CONTEXT_LEN_TO_CAPTURE", lit "8192")]) .absent := by
    apply builds_of_unset (environ_shallow (by decide)) rfl <;> simp [lit_inj, hread]
  obtain ⟨args, h⟩ : ∃ args, getEngineArgs oneGpu currentFields
      (environ [(lit "MAX_CONTEXT_LEN_TO_CAPTURE", lit "8192")]) .absent = some args := builds_iff.mpr hbuilds
  have hkey : lit "max_seq_len_to_capture" ∈ args.keys := by
    rw [Dict.mem_keys_iff, lookup_getEngineArgs h]
    simp [lateOverride, lit_inj, setting, hread, hne, Except.toOption]
  have hfield := hall _ _ _ _ args h _ hkey
  simp [EngineFields.names, currentFields, lit_inj] at hfield

end Example

end GemmaWorker.EngineArgs
