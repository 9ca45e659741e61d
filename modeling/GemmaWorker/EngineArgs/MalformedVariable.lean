import GemmaWorker.EngineArgs.KnownArguments

/-! A variable that its parser rejects, against the same environment without it. -/

namespace GemmaWorker.EngineArgs

open GemmaWorker.Python

section Sites

variable [Interpreter] (rt : Runtime) (fields : EngineFields) (env : Environ) (file : LocalArgsFile)

def without (x : PyStr) : Environ :=
  fun name => if name = x then none else env name

def countVariables : List PyStr :=
  [lit "NUM_SPECULATIVE_TOKENS", lit "NGRAM_PROMPT_LOOKUP_MAX", lit "NGRAM_PROMPT_LOOKUP_MIN"]

def sizeVariables : List PyStr :=
  [lit "SPECULATIVE_DRAFT_TENSOR_PARALLEL_SIZE", lit "SPECULATIVE_MAX_MODEL_LEN",
    lit "SPECULATIVE_DISABLE_BY_BATCH_SIZE"]

def speculativeVariables : List PyStr :=
  [lit "SPECULATIVE_METHOD", lit "SPECULATIVE_MODEL", lit "SPECULATIVE_QUANTIZATION",
    lit "SPECULATIVE_MODEL_REVISION", lit "SPECULATIVE_ENFORCE_EAGER"] ++ countVariables ++ sizeVariables

def deprecatedVariables : List PyStr :=
  [lit "MAX_CONTEXT_LEN_TO_CAPTURE", lit "VLLM_ATTENTION_BACKEND", lit "DISABLE_LOG_REQUESTS"]

/-- The variables whose names stand in the code. -/
def namedVariables : List PyStr :=
  envAliases.map Prod.fst ++ [lit "LIMIT_MM_PER_PROMPT", lit "SPECULATIVE_CONFIG"] ++
    deprecatedVariables ++ speculativeVariables

inductive Site
  | field (f : PyStr) (t : FieldType)
  | aliased (entry : PyStr × PyStr) (t : FieldType)
  | limit
  | context
  | count (name : PyStr)
  | size (name : PyStr)

def Site.var : Site → PyStr
  | .field f _ => rt.upper f
  | .aliased entry _ => entry.1
  | .limit => lit "LIMIT_MM_PER_PROMPT"
  | .context => lit "MAX_CONTEXT_LEN_TO_CAPTURE"
  | .count name => name
  | .size name => name

def Site.Of : Site → Prop
  | .field f t => fields.type? f = some t
  | .aliased entry t => entry ∈ envAliases ∧ fields.type? entry.2 = some t
  | .limit => True
  | .context => True
  | .count name => name ∈ countVariables
  | .size name => name ∈ sizeVariables

def Site.parse (s : PyStr) : Site → Except PyError Value
  | .field _ t => convertEnvValueToFieldType rt.builtins s t
  | .aliased _ t => convertEnvValueToFieldType rt.builtins s t
  | .limit => convertLimitMmPerPrompt s
  | .context => (pyInt s).map .int
  | .count _ => (pyInt s).map .int
  | .size _ => (pyInt s).map .int

/-- The names of vLLM's fields: no two are spelt the same in capitals, and only `limit_mm_per_prompt` and
`speculative_config` are, so spelt, variables that the code reads by name as well. -/
structure SeparateNames : Prop where
  injective : ∀ f ∈ fields.names, ∀ g ∈ fields.names, rt.upper f = rt.upper g → f = g
  named : ∀ f ∈ fields.names, rt.upper f ∈ namedVariables →
    rt.upper f = lit "LIMIT_MM_PER_PROMPT" ∨ rt.upper f = lit "SPECULATIVE_CONFIG"

def SizesUnread : Prop :=
  setting env (lit "SPECULATIVE_METHOD") = none ∧ setting env (lit "SPECULATIVE_MODEL") = none ∧
    readCount env (lit "NGRAM_PROMPT_LOOKUP_MAX") = .ok none

def SameLimit (s : PyStr) : Prop :=
  ∃ v, convertLimitMmPerPrompt s = .ok v ∧
    layered rt fields (without env (lit "LIMIT_MM_PER_PROMPT")) file (lit "limit_mm_per_prompt") = some v

def withSpeculative (base : Option Value) (config : Value) : Option Value :=
  ((some config).filter truthy).or base

def SameSpeculative : Prop :=
  ∃ config config', getSpeculativeConfig rt env = .ok config ∧
    getSpeculativeConfig rt (without env (lit "SPECULATIVE_CONFIG")) = .ok config' ∧
    withSpeculative (layered rt fields (without env (lit "SPECULATIVE_CONFIG")) file
      (lit "speculative_config")) config =
    withSpeculative (layered rt fields (without env (lit "SPECULATIVE_CONFIG")) file
      (lit "speculative_config")) config'

/-- What a rejected text must be, or what must be around it, for the place to take it as unset. -/
def Tolerated (s : PyStr) : Site → Prop
  | .field f t => ¬ TooDeep env (rt.upper f) t ∧
    (rt.upper f = lit "LIMIT_MM_PER_PROMPT" → SameLimit rt fields env file s) ∧
    (rt.upper f = lit "SPECULATIVE_CONFIG" → SameSpeculative rt fields env file)
  | .aliased entry t => ¬ TooDeep env entry.1 t
  | .limit => False
  | .context => s = []
  | .count _ => s = [] ∨ setting env (lit "SPECULATIVE_CONFIG") ≠ none
  | .size _ => s = [] ∨ setting env (lit "SPECULATIVE_CONFIG") ≠ none ∨ SizesUnread env

end Sites

section Agreement

variable {rt : Runtime} {fields : EngineFields} {env env' : Environ} {file : LocalArgsFile} {x : PyStr}

lemma setting_without (name : PyStr) :
    setting (without env x) name = if name = x then none else setting env name := by
  rw [setting, without]
  split_ifs <;> rfl

lemma buildSpeculativeConfig_congr (h : ∀ name ∈ speculativeVariables, setting env name = setting env' name) :
    buildSpeculativeConfig rt env = buildSpeculativeConfig rt env' := by
  have hread (name : PyStr) (hname : name ∈ speculativeVariables) : readInt env name = readInt env' name := by
    rw [readInt, readInt, h name hname]
  simp only [buildSpeculativeConfig, readCount, speculativeMethod,
    h (lit "SPECULATIVE_METHOD") (by simp [speculativeVariables]),
    h (lit "SPECULATIVE_MODEL") (by simp [speculativeVariables]),
    h (lit "SPECULATIVE_QUANTIZATION") (by simp [speculativeVariables]),
    h (lit "SPECULATIVE_MODEL_REVISION") (by simp [speculativeVariables]),
    h (lit "SPECULATIVE_ENFORCE_EAGER") (by simp [speculativeVariables]),
    hread (lit "NUM_SPECULATIVE_TOKENS") (by simp [speculativeVariables, countVariables]),
    hread (lit "NGRAM_PROMPT_LOOKUP_MAX") (by simp [speculativeVariables, countVariables]),
    hread (lit "NGRAM_PROMPT_LOOKUP_MIN") (by simp [speculativeVariables, countVariables]),
    hread (lit "SPECULATIVE_DRAFT_TENSOR_PARALLEL_SIZE") (by simp [speculativeVariables, sizeVariables]),
    hread (lit "SPECULATIVE_MAX_MODEL_LEN") (by simp [speculativeVariables, sizeVariables]),
    hread (lit "SPECULATIVE_DISABLE_BY_BATCH_SIZE") (by simp [speculativeVariables, sizeVariables])]

def middleSteps (rt : Runtime) (env : Environ) (args : Dict) : Option Dict :=
  (maxContextLen env (kvCacheDtype (parallelSizes rt (quantization (hfOverrides rt args))))).map fun args =>
    enableLogRequests rt env (attentionBackend env (maxNumBatchedTokens rt
      (zeroToNone (zeroToNone args (lit "max_model_len")) (lit "max_num_batched_tokens"))))

lemma middleSteps_congr (h : ∀ name ∈ deprecatedVariables, setting env name = setting env' name)
    (args : Dict) : middleSteps rt env args = middleSteps rt env' args := by
  simp only [middleSteps, maxContextLen, attentionBackend, enableLogRequests,
    h (lit "MAX_CONTEXT_LEN_TO_CAPTURE") (by simp [deprecatedVariables]),
    h (lit "VLLM_ATTENTION_BACKEND") (by simp [deprecatedVariables]),
    h (lit "DISABLE_LOG_REQUESTS") (by simp [deprecatedVariables])]

lemma setting_of_ne {name : PyStr} (h : name ≠ x) : setting env name = setting (without env x) name := by
  rw [setting_without, if_neg h]

lemma setting_of_empty (hx : env x = some []) (name : PyStr) :
    setting env name = setting (without env x) name := by
  rw [setting_without]
  split_ifs with h
  · rw [setting, h, hx]
    rfl
  · rfl

variable [Interpreter]

/-- What the layers take from a variable that is converted to a type. -/
def SameReading (rt : Runtime) (env env' : Environ) (name : PyStr) (t : FieldType) : Prop :=
  converted rt env name t = converted rt env' name t ∧ (TooDeep env name t ↔ TooDeep env' name t)

lemma layeredArgs_congr
    (hfields : ∀ f t, fields.type? f = some t → SameReading rt env env' (rt.upper f) t)
    (haliases : ∀ entry ∈ envAliases, ∀ t, fields.type? entry.2 = some t → SameReading rt env env' entry.1 t) :
    layeredArgs rt fields env file = layeredArgs rt fields env' file := by
  have hdiscover : getArgsFromEnvAutoDiscover rt fields env = getArgsFromEnvAutoDiscover rt fields env' := by
    have hread (field : PyStr × FieldType) (hfield : field ∈ fields.items) :
        SameReading rt env env' (rt.upper field.1) field.2 :=
      hfields _ _ (lookup_of_mem fields.nodup hfield)
    refine Option.ext fun d => ?_
    rw [discover_eq_some, discover_eq_some]
    refine and_congr (forall₂_congr fun field hfield => not_congr (hread field hfield).2) ?_
    rw [List.foldl_ext _ _ _ fun d field hfield => by rw [(hread field hfield).1]]
  have halias (args : Dict) : applyEnvAliases rt fields env args = applyEnvAliases rt fields env' args := by
    refine Option.ext fun d => ?_
    rw [aliases_eq_some, aliases_eq_some]
    refine and_congr (forall₂_congr fun entry hentry => forall₂_congr fun t ht =>
      not_congr (haliases entry hentry t ht).2) ?_
    rw [List.foldl_ext _ _ _ fun d entry hentry => ?_]
    rw [aliasValue, aliasValue]
    cases ht : fields.type? entry.2 with
    | none => rfl
    | some t => rw [Option.bind_some, Option.bind_some, (haliases entry hentry t ht).1]
  simp only [layeredArgs, hdiscover, halias]

/-- The layers take nothing from the variable. -/
def Skipped (rt : Runtime) (env : Environ) (name : PyStr) (t : FieldType) : Prop :=
  converted rt env name t = none ∧ ¬ TooDeep env name t

lemma sameReading_without {name : PyStr} {t : FieldType} (h : name = x → Skipped rt env x t) :
    SameReading rt env (without env x) name t := by
  rw [SameReading, TooDeep, TooDeep, converted, converted, without]
  split_ifs with hname
  · subst hname
    exact ⟨(h rfl).1, by simpa using not_exists.mp (h rfl).2⟩
  · exact ⟨rfl, Iff.rfl⟩

lemma getSpeculativeConfig_congr (hfull : setting env (lit "SPECULATIVE_CONFIG") =
      setting env' (lit "SPECULATIVE_CONFIG"))
    (hbuild : setting env (lit "SPECULATIVE_CONFIG") = none →
      buildSpeculativeConfig rt env = buildSpeculativeConfig rt env') :
    getSpeculativeConfig rt env = getSpeculativeConfig rt env' := by
  rw [getSpeculativeConfig, getSpeculativeConfig, ← hfull]
  cases h : setting env (lit "SPECULATIVE_CONFIG") with
  | none => exact hbuild h
  | some s => rfl

lemma getEngineArgs_eq : getEngineArgs rt fields env file = (layeredArgs rt fields env file).bind fun base =>
    (limitMmPerPrompt env base).bind fun args =>
      (middleSteps rt env args).bind (speculativeConfig rt env) := by
  simp only [getEngineArgs, middleSteps, Option.bind_eq_bind, Option.bind_map]
  rfl

lemma speculativeConfig_congr (h : getSpeculativeConfig rt env = getSpeculativeConfig rt env') :
    speculativeConfig rt env = speculativeConfig rt env' := by
  funext args
  rw [speculativeConfig, speculativeConfig, h]

lemma getEngineArgs_congr (hlayers : layeredArgs rt fields env file = layeredArgs rt fields env' file)
    (hlimit : env (lit "LIMIT_MM_PER_PROMPT") = env' (lit "LIMIT_MM_PER_PROMPT"))
    (hold : ∀ name ∈ deprecatedVariables, setting env name = setting env' name)
    (hspec : getSpeculativeConfig rt env = getSpeculativeConfig rt env') :
    getEngineArgs rt fields env file = getEngineArgs rt fields env' file := by
  simp only [getEngineArgs_eq, hlayers, limitMmPerPrompt, hlimit, middleSteps_congr hold,
    speculativeConfig_congr hspec]

lemma same_iff_builds (h : getEngineArgs rt fields env file = getEngineArgs rt fields env' file) :
    (∃ args, getEngineArgs rt fields env file = some args ∧ getEngineArgs rt fields env' file = some args) ↔
      Builds rt fields env' file := by
  have hbuilds : (∃ args, getEngineArgs rt fields env' file = some args) ↔ Builds rt fields env' file := builds_iff
  rw [h, ← hbuilds]
  exact ⟨fun ⟨args, ha, _⟩ => ⟨args, ha⟩, fun ⟨args, ha⟩ => ⟨args, ha, ha⟩⟩

lemma layeredArgs_without
    (hfields : ∀ f t, fields.type? f = some t → rt.upper f = x → Skipped rt env x t)
    (haliases : ∀ entry ∈ envAliases, entry.1 = x → ∀ t, fields.type? entry.2 = some t → Skipped rt env x t) :
    layeredArgs rt fields env file = layeredArgs rt fields (without env x) file := by
  refine layeredArgs_congr (fun f t ht => ?_) (fun entry hentry t ht => ?_)
  · exact sameReading_without (hfields f t ht)
  · exact sameReading_without fun h => haliases entry hentry h t ht

end Agreement

section Cases

variable {rt : Runtime} {fields : EngineFields} {env : Environ} {file : LocalArgsFile} {x s : PyStr}

lemma without_of_ne {name : PyStr} (h : name ≠ x) : env name = without env x name := by
  rw [without, if_neg h]

lemma of_without {name : PyStr} (h : without env x name = some s) : env name = some s := by
  rw [without] at h
  split_ifs at h
  exact h

lemma middleSteps_speculative {args d : Dict} (h : middleSteps rt env args = some d) :
    d.lookup (lit "speculative_config") = args.lookup (lit "speculative_config") := by
  rw [middleSteps] at h
  obtain ⟨context, hc, rfl⟩ := Option.map_eq_some_iff.mp h
  rw [maxContext_some hc]
  simp only [enableLogRequests_eq, attentionBackend_eq, maxNumBatchedTokens_eq, zeroToNone_eq,
    kvCacheDtype_eq, parallelSizes_eq, quantization_eq, Dict.lookup_write, lookup_hfOverrides, lit_inj,
    String.reduceEq, if_false, Option.none_or]

lemma readInt_rejected {name : PyStr} (hs : env name = some s) (hne : s ≠ [])
    (hrej : ∃ e, (pyInt s).map Value.int = .error e) : ∃ e, readInt env name = .error e := by
  obtain ⟨e, he⟩ := hrej
  rw [readInt, setting, hs, Option.filter_some, if_pos (by simpa using hne)]
  cases hp : pyInt s with
  | error e' =>
    simp only [hp]
    exact ⟨e', rfl⟩
  | ok n =>
    rw [hp] at he
    cases he

lemma build_counts {config : Value} (h : buildSpeculativeConfig rt env = .ok config) {name : PyStr}
    (hname : name ∈ countVariables) : ∃ n, readInt env name = .ok n := by
  obtain ⟨num, hnum, h⟩ := bind_eq_ok.mp h
  obtain ⟨most, hmost, h⟩ := bind_eq_ok.mp h
  obtain ⟨least, hleast, -⟩ := bind_eq_ok.mp h
  have hread {name : PyStr} {n : Option ℤ} (h : readCount env name = .ok n) :
      ∃ m, readInt env name = .ok m := by
    rw [readCount] at h
    cases hr : readInt env name with
    | error e =>
      rw [hr] at h
      cases h
    | ok m => exact ⟨m, rfl⟩
  simp only [countVariables, List.mem_cons, List.not_mem_nil, or_false] at hname
  rcases hname with rfl | rfl | rfl
  · exact hread hnum
  · exact hread hmost
  · exact hread hleast

lemma build_sizes {config : Value} (h : buildSpeculativeConfig rt env = .ok config)
    (hread : ¬ SizesUnread env) {name : PyStr} (hname : name ∈ sizeVariables) :
    ∃ n, readInt env name = .ok n := by
  obtain ⟨num, hnum, h⟩ := bind_eq_ok.mp h
  obtain ⟨most, hmost, h⟩ := bind_eq_ok.mp h
  obtain ⟨least, hleast, h⟩ := bind_eq_ok.mp h
  have hgo : ¬ (setting env (lit "SPECULATIVE_METHOD") = none ∧ setting env (lit "SPECULATIVE_MODEL") = none ∧
      most = none) := by
    rintro ⟨hmethod, hmodel, rfl⟩
    exact hread ⟨hmethod, hmodel, hmost⟩
  simp only [if_neg hgo] at h
  obtain ⟨draft, hdraft, h⟩ := bind_eq_ok.mp h
  obtain ⟨length, hlength, h⟩ := bind_eq_ok.mp h
  obtain ⟨batch, hbatch, -⟩ := bind_eq_ok.mp h
  simp only [sizeVariables, List.mem_cons, List.not_mem_nil, or_false] at hname
  rcases hname with rfl | rfl | rfl
  · exact ⟨draft, hdraft⟩
  · exact ⟨length, hlength⟩
  · exact ⟨batch, hbatch⟩

lemma build_early (h : SizesUnread env) : buildSpeculativeConfig rt env = do
    let _ ← readCount env (lit "NUM_SPECULATIVE_TOKENS")
    let _ ← readCount env (lit "NGRAM_PROMPT_LOOKUP_MIN")
    return .none := by
  obtain ⟨hmethod, hmodel, hmost⟩ := h
  simp only [buildSpeculativeConfig, hmethod, hmodel, hmost]
  cases readCount env (lit "NUM_SPECULATIVE_TOKENS") with
  | error e => rfl
  | ok num =>
    cases readCount env (lit "NGRAM_PROMPT_LOOKUP_MIN") with
    | error e => rfl
    | ok least => rfl

lemma deprecated_same (hx : x ∉ deprecatedVariables) :
    ∀ name ∈ deprecatedVariables, setting env name = setting (without env x) name := by
  intro name hname
  refine setting_of_ne ?_
  rintro rfl
  exact hx hname

lemma build_unread (h : SizesUnread env) (hx : x ∈ sizeVariables) :
    buildSpeculativeConfig rt env = buildSpeculativeConfig rt (without env x) := by
  have hne : lit "SPECULATIVE_METHOD" ≠ x ∧ lit "SPECULATIVE_MODEL" ≠ x ∧ ∀ name ∈ countVariables, name ≠ x := by
    have hall : ∀ y ∈ sizeVariables, lit "SPECULATIVE_METHOD" ≠ y ∧ lit "SPECULATIVE_MODEL" ≠ y ∧
        ∀ name ∈ countVariables, name ≠ y := by
      simp [countVariables, sizeVariables, lit_inj]
    exact hall x hx
  have hcount (name : PyStr) (hname : name ∈ countVariables) :
      readCount env name = readCount (without env x) name := by
    rw [readCount, readCount, readInt, readInt, setting_of_ne (hne.2.2 name hname)]
  have h' : SizesUnread (without env x) := by
    rw [SizesUnread, ← setting_of_ne hne.1, ← setting_of_ne hne.2.1, ← hcount _ (by simp [countVariables])]
    exact h
  rw [build_early h, build_early h', hcount _ (by simp [countVariables]), hcount _ (by simp [countVariables])]

variable [Interpreter]

lemma skipped_rejected {t : FieldType} (hs : env x = some s)
    (hrej : ∃ e, convertEnvValueToFieldType rt.builtins s t = .error e) (hdeep : ¬ TooDeep env x t) :
    Skipped rt env x t := by
  obtain ⟨e, he⟩ := hrej
  refine ⟨?_, hdeep⟩
  rw [converted, hs, Option.bind_some, he]
  rfl

lemma unnamed_field (hsep : SeparateNames rt fields) (hx : x ∈ namedVariables)
    (hlimit : x ≠ lit "LIMIT_MM_PER_PROMPT") (hfull : x ≠ lit "SPECULATIVE_CONFIG") :
    ∀ f t, fields.type? f = some t → rt.upper f = x → Skipped rt env x t := by
  rintro f t ht rfl
  rcases hsep.named f (mem_names_iff.mpr ⟨t, ht⟩) hx with h | h
  · exact absurd h hlimit
  · exact absurd h hfull

lemma no_alias (hx : ∀ entry ∈ envAliases, entry.1 ≠ x) : ∀ entry ∈ envAliases, entry.1 = x →
    ∀ t, fields.type? entry.2 = some t → Skipped rt env x t :=
  fun entry hentry h => absurd h (hx entry hentry)

lemma speculative_same (hx : x ∉ speculativeVariables) (hfull : x ≠ lit "SPECULATIVE_CONFIG") :
    getSpeculativeConfig rt env = getSpeculativeConfig rt (without env x) := by
  refine getSpeculativeConfig_congr (setting_of_ne hfull.symm) fun _ => buildSpeculativeConfig_congr ?_
  intro name hname
  refine setting_of_ne ?_
  rintro rfl
  exact hx hname

lemma skipped_same {t : FieldType} (hs : env x = some s)
    (hrej : ∃ e, convertEnvValueToFieldType rt.builtins s t = .error e) (hdeep : ¬ TooDeep env x t)
    (hfields : ∀ f t', fields.type? f = some t' → rt.upper f = x → t' = t)
    (haliases : ∀ entry ∈ envAliases, entry.1 = x → ∀ t', fields.type? entry.2 = some t' → t' = t) :
    layeredArgs rt fields env file = layeredArgs rt fields (without env x) file := by
  refine layeredArgs_without (fun f t' ht' hx => ?_) (fun entry hentry hx t' ht' => ?_)
  · rw [hfields f t' ht' hx]
    exact skipped_rejected hs hrej hdeep
  · rw [haliases entry hentry hx t' ht']
    exact skipped_rejected hs hrej hdeep

def AsUnset (rt : Runtime) (fields : EngineFields) (env : Environ) (file : LocalArgsFile) (x : PyStr) : Prop :=
  ∃ args, getEngineArgs rt fields env file = some args ∧
    getEngineArgs rt fields (without env x) file = some args

lemma not_asUnset (h : ¬ Builds rt fields env file) : ¬ AsUnset rt fields env file x := by
  rintro ⟨args, ha, _⟩
  exact h (builds_iff.mp ⟨args, ha⟩)

lemma asUnset_plain (hlayers : layeredArgs rt fields env file = layeredArgs rt fields (without env x) file)
    (hnamed : x ∉ namedVariables ∨ x ∈ envAliases.map Prod.fst) :
    AsUnset rt fields env file x ↔ Builds rt fields (without env x) file := by
  have hunread : x ∉ deprecatedVariables ∧ x ∉ speculativeVariables ∧ x ≠ lit "LIMIT_MM_PER_PROMPT" ∧
      x ≠ lit "SPECULATIVE_CONFIG" := by
    rcases hnamed with h | h
    · simp only [namedVariables, List.mem_append, List.mem_cons, List.not_mem_nil, or_false, not_or] at h
      exact ⟨h.1.2, h.2, h.1.1.2.1, h.1.1.2.2⟩
    · have hall : ∀ y ∈ envAliases.map Prod.fst, y ∉ deprecatedVariables ∧ y ∉ speculativeVariables ∧
        y ≠ lit "LIMIT_MM_PER_PROMPT" ∧ y ≠ lit "SPECULATIVE_CONFIG" := by
        simp [envAliases, deprecatedVariables, speculativeVariables, countVariables, sizeVariables, lit_inj]
      exact hall x h
  obtain ⟨hold, hspec, hlimit, hfull⟩ := hunread
  exact same_iff_builds (getEngineArgs_congr hlayers (without_of_ne hlimit.symm) (deprecated_same hold)
    (speculative_same hspec hfull))

lemma asUnset_limit
    (hlayers : layeredArgs rt fields env file =
      layeredArgs rt fields (without env (lit "LIMIT_MM_PER_PROMPT")) file)
    (hs : env (lit "LIMIT_MM_PER_PROMPT") = some s) :
    AsUnset rt fields env file (lit "LIMIT_MM_PER_PROMPT") ↔
      SameLimit rt fields env file s ∧ Builds rt fields (without env (lit "LIMIT_MM_PER_PROMPT")) file := by
  have hmiddle (args : Dict) : (middleSteps rt env args).bind (speculativeConfig rt env) =
      (middleSteps rt (without env (lit "LIMIT_MM_PER_PROMPT")) args).bind
        (speculativeConfig rt (without env (lit "LIMIT_MM_PER_PROMPT"))) := by
    have hunread : lit "LIMIT_MM_PER_PROMPT" ∉ deprecatedVariables ∧
        lit "LIMIT_MM_PER_PROMPT" ∉ speculativeVariables ∧
        lit "LIMIT_MM_PER_PROMPT" ≠ lit "SPECULATIVE_CONFIG" := by
      simp [deprecatedVariables, speculativeVariables, countVariables, sizeVariables, lit_inj]
    rw [middleSteps_congr (deprecated_same hunread.1),
      speculativeConfig_congr (speculative_same hunread.2.1 hunread.2.2)]
  constructor
  · rintro ⟨args, ha, ha'⟩
    have hbuilds := builds_iff.mp ⟨args, ha⟩
    obtain ⟨v, hv⟩ := hbuilds.limit s hs
    refine ⟨⟨v, hv, ?_⟩, builds_iff.mp ⟨args, ha'⟩⟩
    have hone := lookup_getEngineArgs ha (lit "limit_mm_per_prompt")
    have htwo := lookup_getEngineArgs ha' (lit "limit_mm_per_prompt")
    simp only [lateOverride, normalised, lit_inj, String.reduceEq, if_true, if_false, hs, hv, without,
      Option.bind_some, Option.bind_none, Option.none_or, Except.toOption, Option.some_or] at hone htwo
    exact htwo.symm.trans hone
  · rintro ⟨⟨v, hv, hsame⟩, hbuilds⟩
    obtain ⟨args, ha⟩ : ∃ args, getEngineArgs rt fields (without env (lit "LIMIT_MM_PER_PROMPT")) file =
        some args := builds_iff.mpr hbuilds
    refine ⟨args, ?_, ha⟩
    rw [← ha, getEngineArgs_eq, getEngineArgs_eq, hlayers]
    cases hb : layeredArgs rt fields (without env (lit "LIMIT_MM_PER_PROMPT")) file with
    | none => rfl
    | some base =>
      rw [← lookup_layered hb] at hsame
      have hset : base.set (lit "limit_mm_per_prompt") v = base := base.set_same _ hsame
      simp only [Option.bind_some, limitMmPerPrompt, hs, hv, without, if_true, Except.toOption,
        Option.map_some, hset]
      exact hmiddle base

lemma speculativeConfig_eq {config : Value} (h : getSpeculativeConfig rt env = .ok config) (d : Dict) :
    speculativeConfig rt env d =
      some (d.write (lit "speculative_config") ((some config).filter truthy)) := by
  rw [speculativeConfig, h, Option.filter_some]
  split_ifs with ht
  · simp [ht, Dict.write]
  · simp [ht, Dict.write]

lemma asUnset_speculative
    (hlayers : layeredArgs rt fields env file =
      layeredArgs rt fields (without env (lit "SPECULATIVE_CONFIG")) file) :
    AsUnset rt fields env file (lit "SPECULATIVE_CONFIG") ↔
      SameSpeculative rt fields env file ∧ Builds rt fields (without env (lit "SPECULATIVE_CONFIG")) file := by
  have hlimit (base : Dict) : limitMmPerPrompt env base =
      limitMmPerPrompt (without env (lit "SPECULATIVE_CONFIG")) base := by
    rw [limitMmPerPrompt, limitMmPerPrompt, without, if_neg (by simp [lit_inj])]
  have hmiddle : middleSteps rt env = middleSteps rt (without env (lit "SPECULATIVE_CONFIG")) := by
    funext args
    exact middleSteps_congr (deprecated_same (by simp [deprecatedVariables, lit_inj])) args
  constructor
  · rintro ⟨args, ha, ha'⟩
    obtain ⟨base, hb, -⟩ := getEngineArgs_some ha
    have hlayered := (lookup_layered hb).symm.trans (lookup_layered (hlayers.symm.trans hb))
    obtain ⟨config, hconfig⟩ := (builds_iff.mp ⟨args, ha⟩).speculative
    obtain ⟨config', hconfig'⟩ := (builds_iff.mp ⟨args, ha'⟩).speculative
    refine ⟨⟨config, config', hconfig, hconfig', ?_⟩, builds_iff.mp ⟨args, ha'⟩⟩
    have hone := lookup_getEngineArgs ha (lit "speculative_config")
    have htwo := lookup_getEngineArgs ha' (lit "speculative_config")
    simp only [lateOverride, normalised, lit_inj, String.reduceEq, if_true, if_false, hconfig, hconfig',
      Except.toOption] at hone htwo
    rw [withSpeculative, withSpeculative, ← htwo, hone, hlayered]
  · rintro ⟨⟨config, config', hconfig, hconfig', hsame⟩, hbuilds⟩
    obtain ⟨args, ha⟩ : ∃ args, getEngineArgs rt fields (without env (lit "SPECULATIVE_CONFIG")) file =
        some args := builds_iff.mpr hbuilds
    refine ⟨args, ?_, ha⟩
    rw [← ha]
    rw [getEngineArgs_eq] at ha ⊢
    obtain ⟨base, hb, ha⟩ := Option.bind_eq_some_iff.mp ha
    obtain ⟨limited, hl, ha⟩ := Option.bind_eq_some_iff.mp ha
    obtain ⟨d, hd, ha⟩ := Option.bind_eq_some_iff.mp ha
    have hlookup : d.lookup (lit "speculative_config") =
        layered rt fields (without env (lit "SPECULATIVE_CONFIG")) file (lit "speculative_config") := by
      rw [middleSteps_speculative hd, limit_some hl, Dict.lookup_write, if_neg (by simp [lit_inj]),
        Option.none_or, lookup_layered hb]
    rw [← hlookup] at hsame
    rw [getEngineArgs_eq, hlayers, hb, Option.bind_some, Option.bind_some, hlimit, hl, Option.bind_some,
      Option.bind_some, hmiddle, hd, Option.bind_some, Option.bind_some]
    rw [speculativeConfig_eq hconfig, speculativeConfig_eq hconfig']
    exact congrArg some (d.write_congr _ hsame)

lemma builds_context (h : Builds rt fields env file) (hs : env (lit "MAX_CONTEXT_LEN_TO_CAPTURE") = some s)
    (hrej : ∃ e, (pyInt s).map Value.int = .error e) : s = [] := by
  by_contra hne
  obtain ⟨n, hn⟩ := h.context s (by rw [setting, hs]; simp [hne])
  obtain ⟨e, he⟩ := hrej
  rw [hn] at he
  cases he

/-- A number that the speculative configuration is built from, and when it is not read. -/
lemma asUnset_number (hsep : SeparateNames rt fields) (hx : x ∈ countVariables ++ sizeVariables)
    (hs : env x = some s) (hrej : ∃ e, (pyInt s).map Value.int = .error e) {quiet : Prop}
    (hquiet : quiet → buildSpeculativeConfig rt env = buildSpeculativeConfig rt (without env x))
    (hloud : ¬ quiet → ∀ config, buildSpeculativeConfig rt env = .ok config → ∃ n, readInt env x = .ok n) :
    AsUnset rt fields env file x ↔
      (s = [] ∨ setting env (lit "SPECULATIVE_CONFIG") ≠ none ∨ quiet) ∧
        Builds rt fields (without env x) file := by
  have hnames : x ∈ namedVariables ∧ x ≠ lit "LIMIT_MM_PER_PROMPT" ∧ x ≠ lit "SPECULATIVE_CONFIG" ∧
      x ∉ deprecatedVariables ∧ ∀ entry ∈ envAliases, entry.1 ≠ x := by
    have hall : ∀ y ∈ countVariables ++ sizeVariables, y ∈ namedVariables ∧
        y ≠ lit "LIMIT_MM_PER_PROMPT" ∧ y ≠ lit "SPECULATIVE_CONFIG" ∧ y ∉ deprecatedVariables ∧
        ∀ entry ∈ envAliases, entry.1 ≠ y := by
      simp [namedVariables, envAliases, deprecatedVariables, speculativeVariables, countVariables,
        sizeVariables, lit_inj]
    exact hall x hx
  obtain ⟨hnamed, hlimit, hfull, hold, halias⟩ := hnames
  have hset : setting env (lit "SPECULATIVE_CONFIG") = setting (without env x) (lit "SPECULATIVE_CONFIG") :=
    setting_of_ne hfull.symm
  by_cases htol : s = [] ∨ setting env (lit "SPECULATIVE_CONFIG") ≠ none ∨ quiet
  · have hspec : getSpeculativeConfig rt env = getSpeculativeConfig rt (without env x) := by
      refine getSpeculativeConfig_congr hset fun hnone => ?_
      rcases htol with rfl | hsome | hq
      · exact buildSpeculativeConfig_congr fun name _ => setting_of_empty hs name
      · exact absurd hnone hsome
      · exact hquiet hq
    rw [and_iff_right htol]
    exact same_iff_builds (getEngineArgs_congr
      (layeredArgs_without (unnamed_field hsep hnamed hlimit hfull) (no_alias halias))
      (without_of_ne hlimit.symm) (deprecated_same hold) hspec)
  · refine iff_of_false (not_asUnset fun h => ?_) (fun h => htol h.1)
    simp only [not_or, not_not] at htol
    obtain ⟨hne, hnone, hq⟩ := htol
    obtain ⟨config, hconfig⟩ := h.speculative
    rw [getSpeculativeConfig, hnone] at hconfig
    obtain ⟨n, hn⟩ := hloud hq config hconfig
    obtain ⟨e, he⟩ := readInt_rejected hs hne hrej
    rw [hn] at he
    cases he

end Cases

section Main

variable [Interpreter] {rt : Runtime} {fields : EngineFields} {env : Environ} {file : LocalArgsFile}

lemma field_asUnset (hsep : SeparateNames rt fields) {f : PyStr} {t : FieldType}
    (hof : fields.type? f = some t) {s : PyStr} (hs : env (rt.upper f) = some s)
    (hrej : ∃ e, convertEnvValueToFieldType rt.builtins s t = .error e) :
    AsUnset rt fields env file (rt.upper f) ↔
      Tolerated rt fields env file s (.field f t) ∧ Builds rt fields (without env (rt.upper f)) file := by
  have hf : f ∈ fields.names := mem_names_iff.mpr ⟨t, hof⟩
  by_cases hdeep : TooDeep env (rt.upper f) t
  · exact iff_of_false (not_asUnset fun h => h.shallow.discovered _ (mem_of_type hof) hdeep)
      (fun h => h.1.1 hdeep)
  have hlayers : layeredArgs rt fields env file = layeredArgs rt fields (without env (rt.upper f)) file := by
    refine skipped_same hs hrej hdeep (fun g t' ht' hx => ?_) (fun entry hentry hx => ?_)
    · obtain rfl := hsep.injective g (mem_names_iff.mpr ⟨t', ht'⟩) f hf hx
      exact Option.some.inj (ht'.symm.trans hof)
    · have hnamed : ∀ entry ∈ envAliases, entry.1 ∈ namedVariables ∧
        entry.1 ≠ lit "LIMIT_MM_PER_PROMPT" ∧ entry.1 ≠ lit "SPECULATIVE_CONFIG" := by
        simp [namedVariables, envAliases, lit_inj]
      obtain ⟨hin, hlimit, hfull⟩ := hx ▸ hnamed entry hentry
      exact absurd (hsep.named f hf hin) (not_or_intro hlimit hfull)
  rw [Tolerated, and_iff_right hdeep]
  by_cases hlimit : rt.upper f = lit "LIMIT_MM_PER_PROMPT"
  · rw [hlimit] at hs hlayers ⊢
    rw [asUnset_limit hlayers hs]
    simp [lit_inj]
  by_cases hfull : rt.upper f = lit "SPECULATIVE_CONFIG"
  · rw [hfull] at hlayers ⊢
    rw [asUnset_speculative hlayers]
    simp [lit_inj]
  · have hnamed : rt.upper f ∉ namedVariables := fun h => (hsep.named f hf h).elim hlimit hfull
    rw [asUnset_plain hlayers (Or.inl hnamed)]
    simp [hlimit, hfull]

lemma aliased_asUnset (hsep : SeparateNames rt fields) {entry : PyStr × PyStr} {t : FieldType}
    (hof : entry ∈ envAliases ∧ fields.type? entry.2 = some t) {s : PyStr} (hs : env entry.1 = some s)
    (hrej : ∃ e, convertEnvValueToFieldType rt.builtins s t = .error e) :
    AsUnset rt fields env file entry.1 ↔
      Tolerated rt fields env file s (.aliased entry t) ∧ Builds rt fields (without env entry.1) file := by
  obtain ⟨hentry, ht⟩ := hof
  by_cases hdeep : TooDeep env entry.1 t
  · exact iff_of_false (not_asUnset fun h => h.shallow.aliased entry hentry t ht hdeep) (fun h => h.1 hdeep)
  have hnames : ∀ a ∈ envAliases, a.1 ∈ namedVariables ∧ a.1 ≠ lit "LIMIT_MM_PER_PROMPT" ∧
      a.1 ≠ lit "SPECULATIVE_CONFIG" ∧ ∀ b ∈ envAliases, b.1 = a.1 → b = a := by
    simp [namedVariables, envAliases, lit_inj]
  obtain ⟨hnamed, hlimit, hfull, hunique⟩ := hnames entry hentry
  have hlayers : layeredArgs rt fields env file = layeredArgs rt fields (without env entry.1) file := by
    refine layeredArgs_without (unnamed_field hsep hnamed hlimit hfull) fun b hb hx t' ht' => ?_
    obtain rfl := hunique b hb hx
    obtain rfl := Option.some.inj (ht'.symm.trans ht)
    exact skipped_rejected hs hrej hdeep
  rw [asUnset_plain hlayers (Or.inr (List.mem_map_of_mem hentry)), Tolerated, and_iff_right hdeep]

lemma context_asUnset (hsep : SeparateNames rt fields) {s : PyStr}
    (hs : env (lit "MAX_CONTEXT_LEN_TO_CAPTURE") = some s) (hrej : ∃ e, (pyInt s).map Value.int = .error e) :
    AsUnset rt fields env file (lit "MAX_CONTEXT_LEN_TO_CAPTURE") ↔
      Tolerated rt fields env file s .context ∧
        Builds rt fields (without env (lit "MAX_CONTEXT_LEN_TO_CAPTURE")) file := by
  rw [Tolerated]
  by_cases hempty : s = []
  · subst hempty
    have hnamed : lit "MAX_CONTEXT_LEN_TO_CAPTURE" ∈ namedVariables ∧
        (∀ entry ∈ envAliases, entry.1 ≠ lit "MAX_CONTEXT_LEN_TO_CAPTURE") ∧
        lit "MAX_CONTEXT_LEN_TO_CAPTURE" ∉ speculativeVariables := by
      simp [namedVariables, envAliases, deprecatedVariables, speculativeVariables, countVariables,
        sizeVariables, lit_inj]
    rw [eq_self, true_and]
    exact same_iff_builds (getEngineArgs_congr
      (layeredArgs_without (unnamed_field hsep hnamed.1 (by simp [lit_inj]) (by simp [lit_inj]))
        (no_alias hnamed.2.1))
      (without_of_ne (by simp [lit_inj])) (fun name _ => setting_of_empty hs name)
      (speculative_same hnamed.2.2 (by simp [lit_inj])))
  · exact iff_of_false (not_asUnset fun h => hempty (builds_context h hs hrej)) (fun h => hempty h.1)

end Main

section Example

lemma currentFields_separate : SeparateNames oneGpu currentFields := by
  have h : (∀ f ∈ currentFields.names, ∀ g ∈ currentFields.names, oneGpu.upper f = oneGpu.upper g → f = g) ∧
      ∀ f ∈ currentFields.names, oneGpu.upper f ∈ namedVariables →
        oneGpu.upper f = lit "LIMIT_MM_PER_PROMPT" ∨ oneGpu.upper f = lit "SPECULATIVE_CONFIG" := by
    decide +kernel
  exact ⟨h.1, h.2⟩

end Example

end GemmaWorker.EngineArgs
