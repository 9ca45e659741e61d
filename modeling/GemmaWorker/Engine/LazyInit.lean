import GemmaWorker.Library.Transition
import GemmaWorker.Python.Text

/-! The OpenAI serving objects that `_initialize_engines` builds on the first request, and the callers of
`_ensure_engines_initialized` that share them. A step runs one caller to its next suspension. -/

namespace GemmaWorker.Engine

open Python Library

section Serving

structure ModelPath where
  name : PyStr
  path : PyStr

structure TokenizerWrapper where
  chatTemplate : Option PyStr

structure Setup where
  servedModelName : PyStr
  model : PyStr
  responseRole : PyStr
  loraAdapters : List ModelPath
  tokenizer : Option TokenizerWrapper
  getenv : PyStr → Option PyStr

/-- The registry of models. `lorasLoaded` says that its `init_static_loras` has finished. -/
structure ServingModels where
  baseModelPaths : List ModelPath
  loraModules : List ModelPath
  lorasLoaded : Bool

/-- A serving object keeps the place of the registry it was given and, as `builder`, the place of the
registry that the initialisation which built it had made itself. -/
structure ServingRender where
  builder : ℕ
  registry : ℕ
  chatTemplate : Option PyStr
  chatTemplateContentFormat : PyStr
  trustRequestChatTemplate : Bool
  enableAutoTools : Bool
  excludeToolsWhenToolChoiceNone : Bool
  toolParser : Option PyStr
  logErrorStack : Bool

structure ServingChat where
  builder : ℕ
  models : ℕ
  responseRole : PyStr
  render : ServingRender
  chatTemplate : Option PyStr
  chatTemplateContentFormat : PyStr
  trustRequestChatTemplate : Bool
  returnTokensAsTokenIds : Bool
  reasoningParser : PyStr
  enableAutoTools : Bool
  excludeToolsWhenToolChoiceNone : Bool
  toolParser : Option PyStr
  enablePromptTokensDetails : Bool
  enableForceIncludeUsage : Bool
  enableLogOutputs : Bool

structure ServingCompletion where
  builder : ℕ
  models : ℕ
  render : ServingRender
  returnTokensAsTokenIds : Bool
  enablePromptTokensDetails : Bool
  enableForceIncludeUsage : Bool

namespace Setup

variable (setup : Setup)

def flag (name : String) : Bool :=
  lower ((setup.getenv (lit name)).getD (lit "false")) == lit "true"

def text (name : String) : PyStr :=
  (setup.getenv (lit name)).getD []

def toolParser : Option PyStr :=
  if setup.text "TOOL_CALL_PARSER" = [] then none else some (setup.text "TOOL_CALL_PARSER")

def chatTemplate (engine : Option PyStr) : Option PyStr :=
  match engine, setup.tokenizer with
  | none, some tokenizer => tokenizer.chatTemplate
  | template, _ => template

def servingModels : ServingModels :=
  ⟨[⟨setup.servedModelName, setup.model⟩], setup.loraAdapters, false⟩

def servingRender (builder registry : ℕ) (template : Option PyStr) : ServingRender where
  builder := builder
  registry := registry
  chatTemplate := template
  chatTemplateContentFormat := lit "auto"
  trustRequestChatTemplate := setup.flag "TRUST_REQUEST_CHAT_TEMPLATE"
  enableAutoTools := setup.flag "ENABLE_AUTO_TOOL_CHOICE"
  excludeToolsWhenToolChoiceNone := setup.flag "EXCLUDE_TOOLS_WHEN_TOOL_CHOICE_NONE"
  toolParser := setup.toolParser
  logErrorStack := setup.flag "LOG_ERROR_STACK"

def servingChat (builder models : ℕ) (render : ServingRender) (template : Option PyStr) : ServingChat where
  builder := builder
  models := models
  responseRole := setup.responseRole
  render := render
  chatTemplate := template
  chatTemplateContentFormat := lit "auto"
  trustRequestChatTemplate := setup.flag "TRUST_REQUEST_CHAT_TEMPLATE"
  returnTokensAsTokenIds := setup.flag "RETURN_TOKENS_AS_TOKEN_IDS"
  reasoningParser := setup.text "REASONING_PARSER"
  enableAutoTools := setup.flag "ENABLE_AUTO_TOOL_CHOICE"
  excludeToolsWhenToolChoiceNone := setup.flag "EXCLUDE_TOOLS_WHEN_TOOL_CHOICE_NONE"
  toolParser := setup.toolParser
  enablePromptTokensDetails := setup.flag "ENABLE_PROMPT_TOKENS_DETAILS"
  enableForceIncludeUsage := setup.flag "ENABLE_FORCE_INCLUDE_USAGE"
  enableLogOutputs := setup.flag "ENABLE_LOG_OUTPUTS"

def servingCompletion (builder models : ℕ) (render : ServingRender) : ServingCompletion where
  builder := builder
  models := models
  render := render
  returnTokensAsTokenIds := setup.flag "RETURN_TOKENS_AS_TOKEN_IDS"
  enablePromptTokensDetails := setup.flag "ENABLE_PROMPT_TOKENS_DETAILS"
  enableForceIncludeUsage := setup.flag "ENABLE_FORCE_INCLUDE_USAGE"

end Setup

end Serving

section State

structure Fields where
  servingModels : Option ℕ
  servingRender : Option ServingRender
  chatEngine : Option ServingChat
  completionEngine : Option ServingCompletion

/-- The objects are built from what `serving_models` is by now, whoever made it. -/
def Fields.buildEngines (f : Fields) (setup : Setup) (builder models : ℕ) (template : Option PyStr) : Fields :=
  let render := setup.servingRender builder models template
  { f with
    servingRender := some render
    chatEngine := some (setup.servingChat builder models render template)
    completionEngine := some (setup.servingCompletion builder models render) }

inductive Route
  | models
  | chatCompletions
  | completions
  | other

inductive Handler
  | models (place : ℕ)
  | chat (engine : ServingChat)
  | completion (engine : ServingCompletion)
  | invalidRoute

def Handler.places : Handler → List ℕ
  | .models place => [place]
  | .chat engine => [engine.models, engine.render.registry]
  | .completion engine => [engine.models, engine.render.registry]
  | .invalidRoute => []

def Route.handler (f : Fields) : Route → Option Handler
  | .models => f.servingModels.map .models
  | .chatCompletions => f.chatEngine.map .chat
  | .completions => f.completionEngine.map .completion
  | .other => some .invalidRoute

/-- A caller waits inside `_initialize_engines`, or it has proceeded and found these attributes. -/
inductive CallerPc
  | loadingLoras (place : ℕ)
  | gettingTokenizer (place : ℕ)
  | proceeded (f : Fields)

def CallerPc.initializing : CallerPc → Bool
  | .loadingLoras _ | .gettingTokenizer _ => true
  | .proceeded _ => false

structure Caller where
  route : Route
  pc : CallerPc

/-- `registries` are the models objects made so far, one for every run of `_initialize_engines`. -/
structure State where
  enginesInitialized : Bool
  fields : Fields
  registries : List ServingModels
  callers : List Caller

inductive Action
  | ensure (route : Route)
  | lorasLoaded (i : ℕ)
  | tokenizer (i : ℕ) (template : Option PyStr)

namespace State

variable (setup : Setup) (s : State)

def init : State where
  enginesInitialized := false
  fields := ⟨none, none, none, none⟩
  registries := []
  callers := []

def ensureEnginesInitialized (route : Route) : State :=
  if s.enginesInitialized then
    { s with callers := s.callers ++ [⟨route, .proceeded s.fields⟩] }
  else
    { s with
      fields := { s.fields with servingModels := some s.registries.length }
      registries := s.registries ++ [setup.servingModels]
      callers := s.callers ++ [⟨route, .loadingLoras s.registries.length⟩] }

def lorasLoaded (i : ℕ) (c : Caller) (place : ℕ) : State :=
  { s with
    registries := s.registries.modify place (fun r => { r with lorasLoaded := true })
    callers := s.callers.set i { c with pc := .gettingTokenizer place } }

def finishInitialization (i : ℕ) (c : Caller) (place models : ℕ) (template : Option PyStr) : State :=
  let fields := s.fields.buildEngines setup place models (setup.chatTemplate template)
  { s with
    enginesInitialized := true
    fields := fields
    callers := s.callers.set i { c with pc := .proceeded fields } }

def next : Action → Option State
  | .ensure route => some (s.ensureEnginesInitialized setup route)
  | .lorasLoaded i =>
    s.callers[i]?.bind (fun c =>
      match c.pc with
      | .loadingLoras place => some (s.lorasLoaded i c place)
      | _ => none)
  | .tokenizer i template =>
    s.callers[i]?.bind (fun c =>
      match c.pc with
      | .gettingTokenizer place =>
        s.fields.servingModels.map (fun models => s.finishInitialization setup i c place models template)
      | _ => none)

end State

def lazyInit (setup : Setup) : Machine State Action where
  next := State.next setup

end State

section Single

/-- The four attributes come from the initialisation that made the registry at `place`. -/
structure Fields.BuiltBy (f : Fields) (place : ℕ) : Prop where
  models : f.servingModels = some place
  render : ∃ r ∈ f.servingRender, r.builder = place ∧ r.registry = place
  chat : ∃ e ∈ f.chatEngine, e.builder = place ∧ e.models = place ∧ e.render ∈ f.servingRender
  completion : ∃ e ∈ f.completionEngine, e.builder = place ∧ e.models = place ∧ e.render ∈ f.servingRender

namespace State

variable {setup : Setup} {s t : State} {a : Action}

/-- `_initialize_engines` runs once, for the first caller, and who proceeds finds one complete set. -/
structure SingleBuild (s : State) : Prop where
  once : s.registries.length = min 1 s.callers.length
  complete : ∀ c ∈ s.callers, ∀ f, c.pc = .proceeded f →
    ∃ place, f.BuiltBy place ∧ ∃ r ∈ s.registries[place]?, r.lorasLoaded = true

/-- No caller comes in while another one is inside `_initialize_engines`. -/
def Alone (s : State) : Action → Prop
  | .ensure _ => ∀ c ∈ s.callers, c.pc.initializing = false
  | _ => True

instance : Decidable (s.Alone a) := by
  cases a <;> unfold Alone <;> infer_instance

inductive Stage : State → Prop
  | fresh : Stage init
  | loadingLoras {f : Fields} {r : ServingModels} {route : Route} (hf : f.servingModels = some 0) :
      Stage ⟨false, f, [r], [⟨route, .loadingLoras 0⟩]⟩
  | gettingTokenizer {f : Fields} {r : ServingModels} {route : Route} (hf : f.servingModels = some 0)
      (hr : r.lorasLoaded = true) : Stage ⟨false, f, [r], [⟨route, .gettingTokenizer 0⟩]⟩
  | built {f : Fields} {r : ServingModels} {callers : List Caller} (hf : f.BuiltBy 0) (hr : r.lorasLoaded = true)
      (hne : callers ≠ []) (hc : ∀ c ∈ callers, c.pc = .proceeded f) : Stage ⟨true, f, [r], callers⟩

end State

lemma Fields.buildEngines_builtBy {f : Fields} {place : ℕ} (hf : f.servingModels = some place) (setup : Setup)
    (template : Option PyStr) : (f.buildEngines setup place place template).BuiltBy place where
  models := hf
  render := ⟨_, rfl, rfl, rfl⟩
  chat := ⟨_, rfl, rfl, rfl, rfl⟩
  completion := ⟨_, rfl, rfl, rfl, rfl⟩

lemma Fields.BuiltBy.render_registry {f : Fields} {place : ℕ} {r : ServingRender} (h : f.BuiltBy place)
    (hr : r ∈ f.servingRender) : r.registry = place := by
  obtain ⟨r', hr', -, hregistry⟩ := h.render
  obtain rfl := Option.mem_unique hr' hr
  exact hregistry

lemma Fields.BuiltBy.handler {f : Fields} {place : ℕ} (h : f.BuiltBy place) (route : Route) :
    ∃ handler ∈ route.handler f, ∀ p ∈ handler.places, p = place := by
  obtain ⟨chat, hchat, -, hmodels, hrender⟩ := h.chat
  obtain ⟨completion, hcompletion, -, hmodels', hrender'⟩ := h.completion
  cases route with
  | models => exact ⟨.models place, by simp [Route.handler, h.models], by simp [Handler.places]⟩
  | chatCompletions =>
    refine ⟨.chat chat, by simp [Route.handler, Option.mem_def.mp hchat], ?_⟩
    simp [Handler.places, hmodels, h.render_registry hrender]
  | completions =>
    refine ⟨.completion completion, by simp [Route.handler, Option.mem_def.mp hcompletion], ?_⟩
    simp [Handler.places, hmodels', h.render_registry hrender']
  | other => exact ⟨.invalidRoute, rfl, by simp [Handler.places]⟩

namespace State

variable {setup : Setup} {s t : State} {a : Action}

/-- A request that has proceeded finds its handler, over registries whose adapters are loaded. -/
theorem SingleBuild.handled (h : s.SingleBuild) {c : Caller} {f : Fields} (hc : c ∈ s.callers)
    (hpc : c.pc = .proceeded f) :
    ∃ handler ∈ c.route.handler f, ∀ p ∈ handler.places, ∃ r ∈ s.registries[p]?, r.lorasLoaded = true := by
  obtain ⟨place, hbuilt, hloaded⟩ := h.complete c hc f hpc
  obtain ⟨handler, hhandler, hplaces⟩ := hbuilt.handler c.route
  refine ⟨handler, hhandler, fun p hp => ?_⟩
  rw [hplaces p hp]
  exact hloaded

lemma Stage.singleBuild (h : s.Stage) : s.SingleBuild := by
  cases h with
  | fresh => exact ⟨rfl, by simp [init]⟩
  | loadingLoras => exact ⟨rfl, by simp⟩
  | gettingTokenizer => exact ⟨rfl, by simp⟩
  | built hf hr hne hc =>
    refine ⟨?_, fun c hmem f' hpc => ⟨0, ?_, _, rfl, hr⟩⟩
    · have hpos := List.length_pos_iff.mpr hne
      simp only [List.length_singleton]
      omega
    · obtain rfl := CallerPc.proceeded.inj ((hc c hmem).symm.trans hpc)
      exact hf

lemma Stage.next (h : s.Stage) (ha : s.Alone a) (hn : s.next setup a = some t) : t.Stage := by
  cases h with
  | fresh =>
    cases a with
    | ensure route =>
      obtain rfl := Option.some.inj hn
      exact .loadingLoras rfl
    | lorasLoaded i => cases hn
    | tokenizer i template => cases hn
  | @loadingLoras f r route hf =>
    cases a with
    | ensure route' =>
      have := ha _ (List.mem_singleton_self _)
      cases this
    | lorasLoaded i =>
      cases i with
      | zero =>
        obtain rfl := Option.some.inj hn
        exact .gettingTokenizer hf rfl
      | succ i => cases hn
    | tokenizer i template => cases i <;> cases hn
  | @gettingTokenizer f r route hf hr =>
    cases a with
    | ensure route' =>
      have := ha _ (List.mem_singleton_self _)
      cases this
    | lorasLoaded i => cases i <;> cases hn
    | tokenizer i template =>
      cases i with
      | zero =>
        simp only [State.next, List.getElem?_cons_zero, Option.bind_some, hf, Option.map_some] at hn
        obtain rfl := Option.some.inj hn
        refine .built (Fields.buildEngines_builtBy hf setup _) hr (by simp) ?_
        simp
      | succ i => cases hn
  | @built f r callers hf hr hne hc =>
    -- every caller has proceeded, so that only new ones act
    have hdone : ∀ (i : ℕ) (c : Caller), callers[i]? = some c → c.pc = .proceeded f :=
      fun i c hi => hc c (List.mem_of_getElem? hi)
    cases a with
    | ensure route =>
      obtain rfl := Option.some.inj hn
      refine .built hf hr (by simp) fun c hmem => ?_
      rcases List.mem_append.mp hmem with hmem | hmem
      · exact hc c hmem
      · rw [List.mem_singleton.mp hmem]
    | lorasLoaded i =>
      obtain ⟨c, hi, hn⟩ := Option.bind_eq_some_iff.mp hn
      rw [hdone i c hi] at hn
      cases hn
    | tokenizer i template =>
      obtain ⟨c, hi, hn⟩ := Option.bind_eq_some_iff.mp hn
      rw [hdone i c hi] at hn
      cases hn

lemma Stage.intruded (h : s.Stage) (ha : ¬ s.Alone a) (hn : s.next setup a = some t) : ¬ t.SingleBuild := by
  cases a with
  | ensure route =>
    obtain rfl := Option.some.inj hn
    cases h with
    | fresh => exact absurd (by simp [Alone, init]) ha
    | built hf hr hne hc => exact absurd (fun c hmem => by rw [hc c hmem]; rfl) ha
    | loadingLoras =>
      intro hs
      have hone := hs.once
      simp [ensureEnginesInitialized] at hone
    | gettingTokenizer =>
      intro hs
      have hone := hs.once
      simp [ensureEnginesInitialized] at hone
  | lorasLoaded i => exact absurd trivial ha
  | tokenizer i template => exact absurd trivial ha

/-- The initialisation is single and complete in every state of a run if and only if no caller of the run
comes in while another one is inside it. -/
theorem singleBuild_iff {as : List Action} (hrun : ((lazyInit setup).exec init as).isSome) :
    (lazyInit setup).Always SingleBuild init as ↔ (lazyInit setup).Guarded Alone init as := by
  refine Machine.always_iff_guarded hrun (Machine.Guarded.of_forall fun _ _ => trivial) Stage.fresh
    (fun _ h => h.singleBuild) ?_ ?_
  · intro s a t hs _ ha hn
    exact hs.next ha hn
  · intro s a t hs _ ha hn
    exact hs.intruded ha hn

def sampleSetup : Setup :=
  ⟨lit "gemma", lit "/models/gemma", lit "assistant", [⟨lit "sql", lit "/loras/sql"⟩], none, fun _ => none⟩

def oneFirstCaller : List Action :=
  [.ensure .chatCompletions, .lorasLoaded 0, .tokenizer 0 none, .ensure .models, .ensure .completions]

theorem oneFirstCaller_singleBuild : (lazyInit sampleSetup).Always SingleBuild init oneFirstCaller :=
  (singleBuild_iff (by decide +kernel)).mpr (by decide +kernel)

def twoFirstCallers : List Action :=
  [.ensure .chatCompletions, .ensure .models, .lorasLoaded 0, .tokenizer 0 none]

theorem twoFirstCallers_bare :
    ∃ s f, (lazyInit sampleSetup).exec init twoFirstCallers = some s ∧ s.registries.length = 2 ∧
      ⟨.chatCompletions, .proceeded f⟩ ∈ s.callers ∧ f.servingModels = some 1 ∧
      s.registries[1]? = some sampleSetup.servingModels ∧ sampleSetup.servingModels.lorasLoaded = false ∧
      ¬ s.SingleBuild := by
  refine ⟨_, _, rfl, rfl, List.mem_cons_self, rfl, rfl, rfl, fun h => ?_⟩
  cases h.once

end State

end Single

end GemmaWorker.Engine
