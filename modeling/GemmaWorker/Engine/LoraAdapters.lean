import GemmaWorker.EngineArgs.Sources
import GemmaWorker.Python.JsonRoundTrip

/-! `_load_lora_adapters`, which rewrites the list that it enumerates, and the constructor of
`OpenAIvLLMEngine`, which reads a name and a path from every element. -/

namespace GemmaWorker.Engine

open Python EngineArgs

section Adapters

inductive InitError
  | attributeError
  | error (e : PyError)
deriving DecidableEq

/-- A `LoRAModulePath`, or the JSON value in whose place none could be made. -/
inductive Entry (α : Type)
  | adapter (a : α)
  | raw (v : Value)

/-- The list out of `LORA_MODULES`, or a JSON value of another kind. -/
inductive Adapters (α : Type)
  | list (entries : List (Entry α))
  | other (v : Value)

variable {α : Type}

def Adapters.ofJson : Value → Adapters α
  | .list xs => .list (xs.map .raw)
  | v => .other v

/-- `adapters[i] = a`. A string refuses it inside the `try`, and a dict never comes so far: its keys
cannot be unpacked. -/
def Adapters.assign (i : ℕ) (a : α) : Adapters α → Adapters α
  | .list entries => .list (entries.set i (.adapter a))
  | .other v => .other v

def Adapters.truthy : Adapters α → Bool
  | .list entries => !entries.isEmpty
  | .other v => Python.truthy v

def Adapters.elements : Adapters α → List (Entry α)
  | .list entries => entries
  | .other v => ((iterate v).toOption.getD []).map .raw

end Adapters

section Constructor

variable {α : Type} (loraModulePath : List (PyStr × Value) → Except PyError α)

/-- `LoRAModulePath(**adapter)`. -/
def unpacked : Value → Except PyError α
  | .dict items => loraModulePath items
  | _ => .error .typeError

def loadLoop : Adapters α → ℕ → List Value → Adapters α
  | adapters, _, [] => adapters
  | adapters, i, adapter :: rest =>
    match unpacked loraModulePath adapter with
    | .ok a => loadLoop (adapters.assign i a) (i + 1) rest
    | .error _ => loadLoop adapters (i + 1) rest

def loraModules (env : Environ) : PyStr :=
  (env (lit "LORA_MODULES")).getD (lit "[]")

/-- `enumerate` stands outside the `try` of the loop. -/
def loadLoraAdapters [Interpreter] (env : Environ) : Except InitError (Adapters α) :=
  match jsonLoads (loraModules env) with
  | .error _ => .ok (.list [])
  | .ok v =>
    match iterate v with
    | .ok xs => .ok (loadLoop loraModulePath (.ofJson v) 0 xs)
    | .error e => .error (.error e)

def describe : Entry α → Except InitError Unit
  | .adapter _ => .ok ()
  | .raw _ => .error .attributeError

def logAdapters (adapters : Adapters α) : Except InitError Unit :=
  if adapters.truthy then adapters.elements.forM describe else .ok ()

def rawOpenaiOutput (env : Environ) : Except InitError Bool :=
  let raw := (env (lit "RAW_OPENAI_OUTPUT")).getD (lit "1")
  if lower raw = lit "true" ∨ lower raw = lit "false" then .ok (lower raw = lit "true")
  else match pyInt raw with
    | .ok n => .ok (n ≠ 0)
    | .error e => .error (.error e)

/-- What the constructor reads of the engine arguments that `super().__init__` has found. -/
structure BaseArgs where
  servedModelName : Value
  model : Value

structure OpenAIvLLMEngine (α : Type) where
  servedModelName : Value
  responseRole : PyStr
  loraAdapters : Adapters α
  enginesInitialized : Bool
  rawOpenaiOutput : Bool

def servedModelName (args : BaseArgs) (env : Environ) : Value :=
  match setting env (lit "OPENAI_SERVED_MODEL_NAME_OVERRIDE") with
  | some name => .str name
  | none => if truthy args.servedModelName then args.servedModelName else args.model

def OpenAIvLLMEngine.init [Interpreter] (superInit : Except InitError BaseArgs) (env : Environ) :
    Except InitError (OpenAIvLLMEngine α) := do
  let args ← superInit
  let adapters ← loadLoraAdapters loraModulePath env
  logAdapters adapters
  let raw ← Engine.rawOpenaiOutput env
  return {
    servedModelName := Engine.servedModelName args env
    responseRole := (setting env (lit "OPENAI_RESPONSE_ROLE")).getD (lit "assistant")
    loraAdapters := adapters
    enginesInitialized := false
    rawOpenaiOutput := raw }

end Constructor

section Loading

variable {α : Type} {loraModulePath : List (PyStr × Value) → Except PyError α} {env : Environ}

def entry (loraModulePath : List (PyStr × Value) → Except PyError α) (v : Value) : Entry α :=
  match unpacked loraModulePath v with
  | .ok a => .adapter a
  | .error _ => .raw v

/-- The loop has passed `done`, which it has rewritten, and goes on where it ends. -/
lemma loadLoop_list (done : List (Entry α)) (xs : List Value) :
    loadLoop loraModulePath (.list (done ++ xs.map .raw)) done.length xs =
      .list (done ++ xs.map (entry loraModulePath)) := by
  induction xs generalizing done with
  | nil => rfl
  | cons x xs ih =>
    have hnext := ih (done ++ [entry loraModulePath x])
    rw [List.length_append, List.length_singleton, List.append_assoc, List.append_assoc] at hnext
    rw [loadLoop]
    cases hx : unpacked loraModulePath x with
    | ok a =>
      have he : entry loraModulePath x = .adapter a := by simp only [entry, hx]
      simp only [Adapters.assign, List.map_cons, List.set_append_right _ _ le_rfl, Nat.sub_self,
        List.set_cons_zero]
      rw [he] at hnext ⊢
      exact hnext
    | error e =>
      have he : entry loraModulePath x = .raw x := by simp only [entry, hx]
      rw [List.map_cons, List.map_cons, he]
      rw [he] at hnext
      exact hnext

lemma loadLoop_other (v : Value) (i : ℕ) (xs : List Value) :
    loadLoop loraModulePath (.other v) i xs = .other v := by
  induction xs generalizing i with
  | nil => rfl
  | cons x xs ih =>
    rw [loadLoop]
    split
    · exact ih (i + 1)
    · exact ih (i + 1)

variable [Interpreter]

lemma load_list {xs : List Value} (h : jsonLoads (loraModules env) = .ok (.list xs)) :
    loadLoraAdapters loraModulePath env = .ok (.list (xs.map (entry loraModulePath))) := by
  have hloop : loadLoop loraModulePath (.list (xs.map .raw)) 0 xs = _ := loadLoop_list [] xs
  rw [loadLoraAdapters, h]
  simp only [iterate, Adapters.ofJson, hloop, List.nil_append]

lemma load_other {v : Value} (h : jsonLoads (loraModules env) = .ok v) (hv : ∀ xs, v ≠ .list xs) :
    loadLoraAdapters loraModulePath env =
      match iterate v with
      | .ok _ => .ok (.other v)
      | .error e => .error (.error e) := by
  have hjson : Adapters.ofJson v = (.other v : Adapters α) := by
    cases v with
    | list xs => exact absurd rfl (hv xs)
    | _ => rfl
  rw [loadLoraAdapters, h]
  simp only [hjson, loadLoop_other]

lemma load_error {e : PyError} (h : jsonLoads (loraModules env) = .error e) :
    loadLoraAdapters loraModulePath env = .ok (.list []) := by
  rw [loadLoraAdapters, h]

end Loading

section Elements

variable {α : Type} {loraModulePath : List (PyStr × Value) → Except PyError α}

lemma describe_all_iff (entries : List (Entry α)) :
    entries.forM describe = .ok () ↔ ∀ e ∈ entries, ∃ a, e = .adapter a := by
  induction entries with
  | nil => exact iff_of_true rfl (by simp)
  | cons e entries ih =>
    rw [List.forall_mem_cons, ← ih]
    cases e with
    | adapter a => exact (and_iff_right ⟨a, rfl⟩).symm
    | raw v => exact iff_of_false (fun h => by cases h) (fun ⟨⟨a, ha⟩, _⟩ => by cases ha)

lemma elements_of_falsy {adapters : Adapters α} (h : adapters.truthy = false) : adapters.elements = [] := by
  cases adapters with
  | list entries =>
    obtain rfl : entries = [] := by simpa [Adapters.truthy] using h
    rfl
  | other v =>
    cases v with
    | str s =>
      obtain rfl : s = [] := by simpa [Adapters.truthy, Python.truthy] using h
      rfl
    | list xs =>
      obtain rfl : xs = [] := by simpa [Adapters.truthy, Python.truthy] using h
      rfl
    | tuple xs =>
      obtain rfl : xs = [] := by simpa [Adapters.truthy, Python.truthy] using h
      rfl
    | dict items =>
      obtain rfl : items = [] := by simpa [Adapters.truthy, Python.truthy] using h
      rfl
    | _ => rfl

/-- The log needs a name and a path of every element. -/
lemma log_iff (adapters : Adapters α) :
    logAdapters adapters = .ok () ↔ ∀ e ∈ adapters.elements, ∃ a, e = .adapter a := by
  rw [logAdapters]
  split_ifs with h
  · exact describe_all_iff adapters.elements
  · rw [elements_of_falsy (by simpa using h)]
    simp

lemma log_adapters (adapters : List α) : logAdapters (.list (adapters.map .adapter)) = .ok () := by
  rw [log_iff]
  intro e he
  obtain ⟨a, -, rfl⟩ := List.mem_map.mp he
  exact ⟨a, rfl⟩

lemma entry_iff {x : Value} :
    (∃ a, entry loraModulePath x = .adapter a) ↔ ∃ a, unpacked loraModulePath x = .ok a := by
  rw [entry]
  cases unpacked loraModulePath x <;> simp

lemma all_raw_iff (xs : List Value) :
    (∀ e ∈ xs.map (Entry.raw : Value → Entry α), ∃ a, e = .adapter a) ↔ xs = [] := by
  cases xs with
  | nil => simp
  | cons x xs => exact iff_of_false (fun h => by simpa using h (.raw x) (by simp)) (by simp)

lemma entries_accepted {xs : List Value} (h : ∀ x ∈ xs, ∃ a, unpacked loraModulePath x = .ok a) :
    xs.map (entry loraModulePath) =
      (xs.filterMap (fun x => (unpacked loraModulePath x).toOption)).map .adapter := by
  induction xs with
  | nil => rfl
  | cons x xs ih =>
    obtain ⟨a, ha⟩ := h x (by simp)
    have hx : entry loraModulePath x = .adapter a := by simp only [entry, ha]
    have hsome : (unpacked loraModulePath x).toOption = some a := by rw [ha]; rfl
    have hrest := ih fun y hy => h y (List.mem_cons_of_mem x hy)
    simp only [List.map_cons, List.filterMap_cons, hx, hsome, hrest]

end Elements

section Skipping

variable [Interpreter] {α : Type} (loraModulePath : List (PyStr × Value) → Except PyError α)

def accepted (env : Environ) : List α :=
  match jsonLoads (loraModules env) with
  | .ok (.list xs) => xs.filterMap (fun x => (unpacked loraModulePath x).toOption)
  | _ => []

/-- With `LORA_MODULES` the constructor raises only what it raises without, and the adapters are the
accepted ones. -/
structure SkipsBadEntries (superInit : Except InitError BaseArgs) (env : Environ) : Prop where
  raises : ∀ e, OpenAIvLLMEngine.init loraModulePath superInit env = .error e →
    OpenAIvLLMEngine.init loraModulePath superInit (Function.update env (lit "LORA_MODULES") none) = .error e
  adapters : loadLoraAdapters loraModulePath env = .ok (.list ((accepted loraModulePath env).map .adapter))

def AllAccepted (env : Environ) : Prop :=
  ∀ v, jsonLoads (loraModules env) = .ok v →
    ∃ xs, v = .list xs ∧ ∀ x ∈ xs, ∃ a, unpacked loraModulePath x = .ok a

variable {loraModulePath} {env : Environ} {superInit : Except InitError BaseArgs}

lemma load_unset : loadLoraAdapters loraModulePath (Function.update env (lit "LORA_MODULES") none) =
    .ok (.list []) := by
  have hjson : jsonLoads (loraModules (Function.update env (lit "LORA_MODULES") none)) = .ok (.list []) := by
    rw [loraModules, Function.update_self]
    have hblank : IsBlank [] := rfl
    exact jsonLoads_text (v := .list []) hblank trivial ⟨Interpreter.nesting_pos, trivial⟩
  exact load_list hjson

lemma load_accepted_iff : loadLoraAdapters loraModulePath env =
    .ok (.list ((accepted loraModulePath env).map .adapter)) ↔ AllAccepted loraModulePath env := by
  cases hjson : jsonLoads (loraModules env) with
  | error e => simp [AllAccepted, load_error hjson, accepted, hjson]
  | ok v =>
    by_cases hv : ∃ xs, v = .list xs
    · obtain ⟨xs, rfl⟩ := hv
      have hiff : AllAccepted loraModulePath env ↔ ∀ x ∈ xs, ∃ a, unpacked loraModulePath x = .ok a := by
        simp [AllAccepted, hjson]
      rw [hiff, load_list hjson]
      simp only [accepted, hjson, Except.ok.injEq, Adapters.list.injEq]
      refine ⟨fun h x hx => ?_, entries_accepted⟩
      have hmem : entry loraModulePath x ∈ xs.map (entry loraModulePath) := List.mem_map_of_mem hx
      rw [h] at hmem
      obtain ⟨a, -, ha⟩ := List.mem_map.mp hmem
      cases hu : unpacked loraModulePath x with
      | ok b => exact ⟨b, rfl⟩
      | error e => simp [entry, hu] at ha
    · have hother : ∀ xs, v ≠ .list xs := fun xs h => hv ⟨xs, h⟩
      refine iff_of_false (fun h => ?_) (fun h => ?_)
      · rw [load_other hjson hother] at h
        split at h <;> cases h
      · obtain ⟨xs, hxs, -⟩ := h v hjson
        exact hother xs hxs

/-- Bad entries are skipped exactly when there are none. -/
theorem skips_bad_entries_iff (loraModulePath : List (PyStr × Value) → Except PyError α)
    (superInit : Except InitError BaseArgs) (env : Environ) :
    SkipsBadEntries loraModulePath superInit env ↔ AllAccepted loraModulePath env := by
  rw [← load_accepted_iff]
  refine ⟨fun h => h.adapters, fun h => ⟨fun e he => ?_, h⟩⟩
  have hraw : rawOpenaiOutput (Function.update env (lit "LORA_MODULES") none) = rawOpenaiOutput env := by
    have hne : lit "RAW_OPENAI_OUTPUT" ≠ lit "LORA_MODULES" := by simp [lit_inj]
    rw [rawOpenaiOutput, Function.update_of_ne hne, rawOpenaiOutput]
  cases superInit with
  | error e' => exact he
  | ok args =>
    have hnil : logAdapters (.list ([] : List (Entry α))) = .ok () := log_adapters []
    simp only [OpenAIvLLMEngine.init, bind, Except.bind, h, load_unset, log_adapters, hnil, hraw] at he ⊢
    cases hout : rawOpenaiOutput env with
    | error e' => simpa [hout] using he
    | ok raw => simp [hout, pure, Except.pure] at he

/-- The values of `LORA_MODULES` that the worker starts with: besides the good lists, what has no elements. -/
theorem init_isOk_iff {args : BaseArgs} {raw : Bool} (hraw : rawOpenaiOutput env = .ok raw) :
    (∃ engine, OpenAIvLLMEngine.init loraModulePath (.ok args) env = .ok engine) ↔
      ∀ v, jsonLoads (loraModules env) = .ok v → v = .str [] ∨ v = .dict [] ∨
        ∃ xs, v = .list xs ∧ ∀ x ∈ xs, ∃ a, unpacked loraModulePath x = .ok a := by
  have hinit : (∃ engine, OpenAIvLLMEngine.init loraModulePath (.ok args) env = .ok engine) ↔
      ∃ adapters, loadLoraAdapters loraModulePath env = .ok adapters ∧ logAdapters adapters = .ok () := by
    simp only [OpenAIvLLMEngine.init, bind, Except.bind, hraw]
    cases loadLoraAdapters loraModulePath env with
    | error e => simp
    | ok adapters => cases hlog : logAdapters adapters <;> simp [hlog, pure, Except.pure]
  rw [hinit]
  simp only [log_iff]
  cases hjson : jsonLoads (loraModules env) with
  | error e => simp [load_error hjson, Adapters.elements]
  | ok v =>
    have hload {adapters : Adapters α} (h : loadLoraAdapters loraModulePath env = .ok adapters) :
        (∃ adapters, loadLoraAdapters loraModulePath env = .ok adapters ∧
          ∀ e ∈ adapters.elements, ∃ a, e = .adapter a) ↔ ∀ e ∈ adapters.elements, ∃ a, e = .adapter a := by
      simp [h]
    have hfails {e : InitError} (h : loadLoraAdapters loraModulePath env = .error e) :
        ¬ ∃ adapters, loadLoraAdapters loraModulePath env = .ok adapters ∧
          ∀ e ∈ adapters.elements, ∃ a, e = .adapter a := by
      simp [h]
    cases v with
    | list xs =>
      rw [hload (load_list hjson)]
      simp [Adapters.elements, entry_iff]
    | str s =>
      have hs : iterate (.str s) = .ok (s.map fun c => .str [c]) := rfl
      have h := @load_other _ loraModulePath _ _ _ hjson (by simp)
      rw [hload h, Adapters.elements, hs]
      simp only [Except.toOption, Option.getD_some, all_raw_iff]
      simp
    | dict items =>
      have hitems : iterate (.dict items) = .ok (items.map fun kv => .str kv.1) := rfl
      have h := @load_other _ loraModulePath _ _ _ hjson (by simp)
      rw [hload h, Adapters.elements, hitems]
      simp only [Except.toOption, Option.getD_some, all_raw_iff]
      simp
    | tuple xs => exact absurd rfl ((jsonLoads_readFrom hjson).noTuple xs)
    | _ => exact iff_of_false (hfails (load_other hjson (by simp))) (by simp)

end Skipping

section Example

/-- A class with the fields `name` and `path` and an optional `base_model_name`. -/
def plainPath (items : List (PyStr × Value)) : Except PyError (Value × Value) :=
  match items.lookup (lit "name"), items.lookup (lit "path") with
  | some name, some path =>
    if items.all (fun kv => kv.1 ∈ [lit "name", lit "path", lit "base_model_name"]) then .ok (name, path)
    else .error .typeError
  | _, _ => .error .typeError

def misspelt : Value :=
  .list [.dict [(lit "name", .str (lit "a")), (lit "pth", .str (lit "b"))]]

def misspeltEnviron : Environ :=
  fun name => if name = lit "LORA_MODULES" then some (misspelt.text (lit " ")) else none

/-- `[{"name": "a", "pth": "b"}]` stays as it is, and a dict has no name. -/
theorem misspelt_key_fatal :
    ¬ SkipsBadEntries plainPath (.ok ⟨.none, .str (lit "m")⟩) misspeltEnviron ∧
      OpenAIvLLMEngine.init plainPath (.ok ⟨.none, .str (lit "m")⟩) misspeltEnviron =
        .error .attributeError := by
  have hset : loraModules misspeltEnviron = misspelt.text (lit " ") := by
    simp [loraModules, misspeltEnviron]
  have hvalue : misspelt.IsJson ∧ misspelt.Readable := by
    have hkeys : [lit "name", lit "pth"].Nodup := by decide
    have htexts : ∀ s ∈ [lit "name", lit "a", lit "pth", lit "b"], encodable s = true := by decide
    simp only [List.forall_mem_cons] at htexts
    obtain ⟨hname, ha, hpth, hb, -⟩ := htexts
    have hlevels : 0 < Interpreter.nesting ∧ 0 < Interpreter.nesting - 1 := by decide
    simp only [misspelt, Value.IsJson, AllJson, AllMembersJson, Value.Readable, Value.Fits, AllFit, AllMembersFit]
    exact ⟨⟨⟨hkeys, hname, ha, hpth, hb, trivial⟩, trivial⟩, hlevels.1, ⟨hlevels.2, trivial, trivial, trivial⟩,
      trivial⟩
  have hblank : IsBlank (lit " ") := rfl
  have hjson : jsonLoads (loraModules misspeltEnviron) = .ok misspelt := by
    rw [hset]
    exact jsonLoads_text hblank hvalue.1 hvalue.2
  have hload := @load_list _ plainPath _ _ _ hjson
  refine ⟨fun h => ?_, ?_⟩
  · have hadapters := h.adapters
    rw [load_accepted_iff] at hadapters
    obtain ⟨xs, hxs, hall⟩ := hadapters misspelt hjson
    obtain rfl := Value.list.inj hxs
    obtain ⟨a, ha⟩ := hall _ (List.mem_singleton_self _)
    cases ha
  · simp only [OpenAIvLLMEngine.init, bind, Except.bind, hload]
    rfl

end Example

end GemmaWorker.Engine
