import GemmaWorker.EngineArgs.Convert
import GemmaWorker.Python.Dict

/-! `get_engine_args`: what is passed to `AsyncEngineArgs`, from the defaults, the environment, the
baked file and the cases that are treated apart. -/

namespace GemmaWorker.EngineArgs

open GemmaWorker.Python

section Inputs

abbrev Environ := PyStr → Option PyStr

/-- `AsyncEngineArgs.__dataclass_fields__`, each name with its declared type. -/
structure EngineFields where
  items : List (PyStr × FieldType)
  nodup : (items.map Prod.fst).Nodup

def EngineFields.names (fields : EngineFields) : List PyStr :=
  fields.items.map Prod.fst

def EngineFields.type? (fields : EngineFields) (f : PyStr) : Option FieldType :=
  fields.items.lookup f

/-- `/local_model_args.json`. -/
inductive LocalArgsFile
  | absent
  | unreadable
  | text (s : PyStr)

/-- What the code calls outside this repository. `patchRopeScaling` says which dicts vLLM accepts, where
that function can be imported; `autoConfig` gives the attributes of a model's configuration, if no
exception is raised. -/
structure Runtime where
  builtins : Builtins
  upper : PyStr → PyStr
  lower : PyStr → PyStr
  deviceCount : ℕ
  patchRopeScaling : Option (Value → Bool)
  autoConfig : Value → Value → Value → Option (PyStr → Option ℤ)

def envAliases : List (PyStr × PyStr) :=
  [(lit "MODEL_NAME", lit "model"), (lit "MODEL_REVISION", lit "revision"),
    (lit "TOKENIZER_NAME", lit "tokenizer")]

def defaultItems : List (PyStr × Value) :=
  [(lit "disable_log_stats", .bool false), (lit "enable_log_requests", .bool false),
    (lit "gpu_memory_utilization", .float (.finite ⟨95, 2, by decide⟩)),
    (lit "pipeline_parallel_size", .int 1), (lit "tensor_parallel_size", .int 1),
    (lit "skip_tokenizer_init", .bool false), (lit "tokenizer_mode", .str (lit "auto")),
    (lit "trust_remote_code", .bool false), (lit "load_format", .str (lit "auto")),
    (lit "dtype", .str (lit "auto")), (lit "kv_cache_dtype", .str (lit "auto")), (lit "seed", .int 0),
    (lit "worker_use_ray", .bool false), (lit "block_size", .int 16),
    (lit "enable_prefix_caching", .bool false), (lit "disable_sliding_window", .bool false),
    (lit "swap_space", .int 4), (lit "cpu_offload_gb", .int 0), (lit "max_num_seqs", .int 256),
    (lit "max_logprobs", .int 20), (lit "enforce_eager", .bool false),
    (lit "max_seq_len_to_capture", .int 8192), (lit "disable_custom_all_reduce", .bool false),
    (lit "tokenizer_pool_size", .int 0), (lit "tokenizer_pool_type", .str (lit "ray")),
    (lit "enable_lora", .bool false), (lit "max_loras", .int 1), (lit "max_lora_rank", .int 16),
    (lit "enable_prompt_adapter", .bool false), (lit "max_prompt_adapters", .int 1),
    (lit "max_prompt_adapter_token", .int 0), (lit "fully_sharded_loras", .bool false),
    (lit "lora_extra_vocab_size", .int 256), (lit "lora_dtype", .str (lit "auto")),
    (lit "device", .str (lit "auto")), (lit "ray_workers_use_nsight", .bool false),
    (lit "num_lookahead_slots", .int 0),
    (lit "scheduler_delay_factor", .float (.finite ⟨0, 0, Decimal.zero_canonical⟩)),
    (lit "guided_decoding_backend", .str (lit "outlines")),
    (lit "spec_decoding_acceptance_method", .str (lit "rejection_sampler")),
    (lit "stream_interval", .int 1)]

def defaultArgs : Dict where
  items := defaultItems
  nodup := by decide +kernel

end Inputs

section Tests

def isNone : Value → Bool
  | .none => true
  | _ => false

/-- `v == s` for a string `s`. -/
def isStr (v : Value) (s : PyStr) : Bool :=
  match v with
  | .str t => t = s
  | _ => false

def isZero : Value → Bool
  | .bool b => !b
  | .int n => n = 0
  | .float x => x = .finite ⟨0, 0, Decimal.zero_canonical⟩
  | _ => false

/-- `v in (None, "", "None")`. -/
def isSentinel (v : Value) : Bool :=
  isNone v || isStr v [] || isStr v (lit "None")

def setting (env : Environ) (name : PyStr) : Option PyStr :=
  (env name).filter (· ≠ [])

end Tests

section Environment

variable [Interpreter] (rt : Runtime) (fields : EngineFields) (env : Environ)

/-- What `except (ValueError, TypeError, json.JSONDecodeError)` catches. -/
def skipped : PyError → Bool
  | .overflowError => false
  | .recursionError => false
  | _ => true

def setConverted (args : Dict) (f : PyStr) : Except PyError Value → Option Dict
  | .ok v => some (args.set f v)
  | .error e => if skipped e then some args else none

def readVariable (name f : PyStr) (t : FieldType) (args : Dict) : Option Dict :=
  match env name with
  | none => some args
  | some value => setConverted args f (convertEnvValueToFieldType rt.builtins value t)

def getArgsFromEnvAutoDiscover : Option Dict :=
  fields.items.foldlM (fun args field => readVariable rt env (rt.upper field.1) field.1 field.2 args)
    Dict.empty

def applyEnvAliases (args : Dict) : Option Dict :=
  envAliases.foldlM (fun args entry =>
    match fields.type? entry.2 with
    | none => some args
    | some t => readVariable rt env entry.1 entry.2 t args) args

end Environment

section BakedFile

variable [Interpreter] (rt : Runtime) (fields : EngineFields)

def getLocalArgs : LocalArgsFile → Option (List (PyStr × Value))
  | .absent => some []
  | .unreadable => none
  | .text s =>
    match jsonLoads s with
    | .ok (.dict items) => some items
    | _ => none

def localTarget (k : PyStr) : PyStr :=
  match envAliases.lookup k with
  | some target => target
  | none => (rt.lower k).map (fun c => if c = ch '-' then ch '_' else c)

def localArgsToEngineArgs (args : List (PyStr × Value)) : Dict :=
  args.foldl (fun out kv =>
    if localTarget rt kv.1 ∉ fields.names ∨ isSentinel kv.2 then out
    else out.set (localTarget rt kv.1) kv.2) Dict.empty

end BakedFile

section Overrides

variable (rt : Runtime)

def rejectedRope (accepts : Value → Bool) : Value → Bool
  | .dict sub =>
    match sub.lookup (lit "rope_scaling") with
    | some (.dict rope) => !accepts (.dict rope)
    | _ => false
  | _ => false

def stripRope : Value → Value
  | .dict sub =>
    match sub.filter (fun kv => kv.1 ≠ lit "rope_scaling") with
    | [] => .none
    | stripped => .dict stripped
  | v => v

def sanitizeHfOverrides : Value → Value
  | .dict items =>
    match rt.patchRopeScaling with
    | none => .dict items
    | some accepts =>
      if items.any (fun kv => rejectedRope accepts kv.2) then
        match (items.map (fun kv => (kv.1, if rejectedRope accepts kv.2 then stripRope kv.2 else kv.2))).filter
            (fun kv => !isNone kv.2) with
        | [] => .none
        | result => .dict result
      else .dict items
  | v => v

end Overrides

section Speculative

variable [Interpreter] (rt : Runtime) (env : Environ)

def readInt (name : PyStr) : Except PyError (Option ℤ) :=
  match setting env name with
  | none => .ok none
  | some s => (pyInt s).map some

/-- `(int(x) or None) if x else None`. -/
def readCount (name : PyStr) : Except PyError (Option ℤ) :=
  (readInt env name).map (fun n => n.filter (· ≠ 0))

def draftMethod (model : PyStr) : PyStr :=
  if contains (lit "eagle3") (rt.lower model) then lit "eagle3"
  else if contains (lit "eagle") (rt.lower model) then lit "eagle"
  else if contains (lit "medusa") (rt.lower model) then lit "medusa"
  else lit "draft_model"

def speculativeMethod (ngramMax : Option ℤ) : Option PyStr :=
  match setting env (lit "SPECULATIVE_METHOD"), ngramMax, setting env (lit "SPECULATIVE_MODEL") with
  | some specMethod, _, _ => some specMethod
  | none, some _, none => some (lit "ngram")
  | none, _, some specModel => some (draftMethod rt specModel)
  | none, none, none => none

/-- The configuration from single variables. The keys are written in this order, each once. -/
def buildSpeculativeConfig : Except PyError Value := do
  let numSpecTokens ← readCount env (lit "NUM_SPECULATIVE_TOKENS")
  let ngramMax ← readCount env (lit "NGRAM_PROMPT_LOOKUP_MAX")
  let ngramMin ← readCount env (lit "NGRAM_PROMPT_LOOKUP_MIN")
  if setting env (lit "SPECULATIVE_METHOD") = none ∧ setting env (lit "SPECULATIVE_MODEL") = none ∧
      ngramMax = none then return .none
  let draftTp ← readInt env (lit "SPECULATIVE_DRAFT_TENSOR_PARALLEL_SIZE")
  let specMaxLen ← readInt env (lit "SPECULATIVE_MAX_MODEL_LEN")
  let disableBatch ← readInt env (lit "SPECULATIVE_DISABLE_BY_BATCH_SIZE")
  let config : List (PyStr × Option Value) :=
    [(lit "method", (speculativeMethod rt env ngramMax).map .str),
      (lit "model", (setting env (lit "SPECULATIVE_MODEL")).map .str),
      (lit "num_speculative_tokens", numSpecTokens.map .int),
      (lit "prompt_lookup_max", ngramMax.map .int), (lit "prompt_lookup_min", ngramMin.map .int),
      (lit "draft_tensor_parallel_size", draftTp.map .int), (lit "max_model_len", specMaxLen.map .int),
      (lit "disable_by_batch_size", disableBatch.map .int),
      (lit "quantization", (setting env (lit "SPECULATIVE_QUANTIZATION")).map .str),
      (lit "revision", (setting env (lit "SPECULATIVE_MODEL_REVISION")).map .str),
      (lit "enforce_eager", (setting env (lit "SPECULATIVE_ENFORCE_EAGER")).map
        (fun s => .bool (rt.lower s = lit "true")))]
  match config.filterMap (fun kv => kv.2.map (fun v => (kv.1, v))) with
  | [] => return .none
  | items => return .dict items

def getSpeculativeConfig : Except PyError Value :=
  match setting env (lit "SPECULATIVE_CONFIG") with
  | some s =>
    match jsonLoads s with
    | .error .jsonDecodeError => .ok .none
    | config => config
  | none => buildSpeculativeConfig rt env

end Speculative

section SpecialCases

variable [Interpreter] (rt : Runtime) (env : Environ) (args : Dict)

def convertLimitMmPerPrompt (input : PyStr) : Except PyError Value := do
  let result ← (split (ch ',') input).foldlM (fun (result : Dict) pair =>
    match split (ch '=') pair with
    | [key, value] => (pyInt value).map (fun n => result.set key (.int n))
    | _ => .error .valueError) Dict.empty
  return .dict result.items

def limitMmPerPrompt : Option Dict :=
  match env (lit "LIMIT_MM_PER_PROMPT") with
  | none => some args
  | some s => (convertLimitMmPerPrompt s).toOption.map (args.set (lit "limit_mm_per_prompt"))

def hfOverrides : Dict :=
  match args.lookup (lit "hf_overrides") with
  | none => args
  | some v =>
    if truthy (sanitizeHfOverrides rt v) then args.set (lit "hf_overrides") (sanitizeHfOverrides rt v)
    else args.del (lit "hf_overrides")

def quantization : Dict :=
  if isStr (args.get (lit "load_format")) (lit "bitsandbytes") then
    args.set (lit "quantization") (args.get (lit "load_format"))
  else args

def parallelSizes : Dict :=
  if 1 < rt.deviceCount then
    (args.set (lit "tensor_parallel_size") (.int rt.deviceCount)).set
      (lit "max_parallel_loading_workers") .none
  else args

def kvCacheDtype : Dict :=
  if isStr (args.get (lit "kv_cache_dtype")) (lit "fp8_e5m2") then
    args.set (lit "kv_cache_dtype") (.str (lit "fp8"))
  else args

def maxContextLen : Option Dict :=
  match setting env (lit "MAX_CONTEXT_LEN_TO_CAPTURE") with
  | none => some args
  | some s => (pyInt s).toOption.map (fun n => args.set (lit "max_seq_len_to_capture") (.int n))

def zeroToNone (key : PyStr) : Dict :=
  if isZero (args.get key) then args.set key .none else args

def lengthAttrs : List PyStr :=
  [lit "max_position_embeddings", lit "n_positions", lit "max_seq_len", lit "seq_length"]

def resolveMaxModelLen (model trustRemoteCode revision : Value) : Value :=
  match rt.autoConfig model trustRemoteCode revision with
  | none => .none
  | some attr =>
    match lengthAttrs.findSome? attr with
    | none => .none
    | some n => .int n

def batchedTokens : Value :=
  if isNone (args.get (lit "max_model_len")) then
    resolveMaxModelLen rt (args.get (lit "model"))
      ((args.lookup (lit "trust_remote_code")).getD (.bool false)) (args.get (lit "revision"))
  else args.get (lit "max_model_len")

def maxNumBatchedTokens : Dict :=
  if isNone (args.get (lit "max_num_batched_tokens")) && !isNone (batchedTokens rt args) then
    args.set (lit "max_num_batched_tokens") (batchedTokens rt args)
  else args

def attentionBackend : Dict :=
  match setting env (lit "VLLM_ATTENTION_BACKEND") with
  | none => args
  | some s =>
    if truthy (args.get (lit "attention_backend")) then args
    else args.set (lit "attention_backend") (.str s)

def enableLogRequests : Dict :=
  match setting env (lit "DISABLE_LOG_REQUESTS") with
  | none => args
  | some s => if rt.lower s = lit "true" then args.set (lit "enable_log_requests") (.bool false) else args

def speculativeConfig : Option Dict :=
  match getSpeculativeConfig rt env with
  | .error _ => none
  | .ok config => some (if truthy config then args.set (lit "speculative_config") config else args)

end SpecialCases

section Assembly

variable [Interpreter] (rt : Runtime) (fields : EngineFields) (env : Environ) (file : LocalArgsFile)

/-- The layers, with only the known arguments and none of the values that stand for nothing. -/
def layeredArgs : Option Dict := do
  let discovered ← getArgsFromEnvAutoDiscover rt fields env
  let args ← applyEnvAliases rt fields env (defaultArgs.update discovered.items)
  let baked ← getLocalArgs file
  let args := args.update (localArgsToEngineArgs rt fields baked).items
  return args.filter (fun kv => kv.1 ∈ fields.names && !isSentinel kv.2)

/-- The keywords of `AsyncEngineArgs(**args)`, or `none` where an exception leaves the function. -/
def getEngineArgs : Option Dict := do
  let args ← layeredArgs rt fields env file
  let args ← limitMmPerPrompt env args
  let args := kvCacheDtype (parallelSizes rt (quantization (hfOverrides rt args)))
  let args ← maxContextLen env args
  let args := zeroToNone (zeroToNone args (lit "max_model_len")) (lit "max_num_batched_tokens")
  let args := attentionBackend env (maxNumBatchedTokens rt args)
  speculativeConfig rt env (enableLogRequests rt env args)

end Assembly

end GemmaWorker.EngineArgs
