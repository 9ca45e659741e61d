import GemmaWorker.EngineArgs.Sources
import GemmaWorker.Library.Transition

/-! `ensure_model`: any number of boots that share one volume, each killed anywhere, with their file
operations interleaved. -/

namespace GemmaWorker.Boot

open GemmaWorker.Python GemmaWorker.Library GemmaWorker.EngineArgs

section Settings

def modelName (env : Environ) : PyStr :=
  (env (lit "MODEL_NAME")).getD (lit "cyankiwi/gemma-4-26B-A4B-it-AWQ-4bit")

def modelRevision (env : Environ) : Option PyStr :=
  setting env (lit "MODEL_REVISION")

def tokenizerName (env : Environ) : PyStr :=
  (setting env (lit "TOKENIZER_NAME")).getD (modelName env)

def tokenizerRevision (env : Environ) : Option PyStr :=
  (setting env (lit "TOKENIZER_REVISION")).or (modelRevision env)

structure Download where
  name : PyStr
  revision : Option PyStr
  path : PyStr

/-- What a download can return. The system decodes a stray byte to a lone low surrogate, so neither a path
nor a variable holds a high one. -/
def Download.Valid (d : Download) : Bool :=
  d.path ≠ [] && joinless d.path && d.revision.all joinless

/-- `{k: v for k, v in entries.items() if v not in (None, "")}`. -/
def present (entries : List (PyStr × Option PyStr)) : List (PyStr × Value) :=
  entries.filterMap fun kv => (kv.2.filter (· ≠ [])).map fun s => (kv.1, .str s)

def metadataEntries (modelPath modelRevision tokenizerPath tokenizerRevision : Option PyStr) :
    List (PyStr × Option PyStr) :=
  [(lit "MODEL_NAME", modelPath), (lit "MODEL_REVISION", modelRevision),
    (lit "TOKENIZER_NAME", tokenizerPath), (lit "TOKENIZER_REVISION", tokenizerRevision)]

def metadata (modelPath modelRevision tokenizerPath tokenizerRevision : Option PyStr) :
    List (PyStr × Value) :=
  present (metadataEntries modelPath modelRevision tokenizerPath tokenizerRevision)

end Settings

section Files

/-- The NUL that fills a file up to an offset behind its end. -/
def fill : CodePoint := ⟨0, by decide⟩

/-- A write at a writer's own offset, over what is there. -/
def overwrite (offset : ℕ) (chunk content : PyStr) : PyStr :=
  (content ++ List.replicate (offset - content.length) fill).take offset ++ chunk ++
    content.drop (offset + chunk.length)

end Files

section Runs

/-- Where one call of `ensure_model` is. `reading` holds what was read so far of the marker, `writing` how
much of the metadata's text was written to it. -/
inductive Phase
  | checking
  | reading (text : PyStr)
  | syncing (args : Value)
  | downloadingModel
  | downloadingTokenizer (model : Option PyStr)
  | patching (model tokenizer : Option PyStr)
  | opening (items : List (PyStr × Value))
  | writing (items : List (PyStr × Value)) (written : ℕ)
  | writingLocal (items : List (PyStr × Value))
  | returned (args : Value)
  | downloadFailed
  | raised
  | killed

/-- `missed` tells that a download ended without a path. -/
structure Run where
  phase : Phase
  missed : Bool
  localArgs : Option PyStr

structure World where
  marker : Option PyStr
  models : List Download
  tokenizers : List Download
  runs : ℕ → Run

def freshRun : Run := ⟨.checking, false, none⟩

def emptyVolume : World := ⟨none, [], [], fun _ => freshRun⟩

inductive Operation
  | check
  | readChunk (n : ℕ)
  | readEnd
  | sync
  | downloadModel (path : Option PyStr)
  | downloadTokenizer (path : Option PyStr)
  | downloadFail
  | patch (vendored : Bool)
  | openMarker
  | writeChunk (n : ℕ)
  | closeMarker
  | writeLocal
  | kill

def World.setRun (s : World) (i : ℕ) (r : Run) : World :=
  { s with runs := Function.update s.runs i r }

def World.setPhase (s : World) (i : ℕ) (p : Phase) : World :=
  s.setRun i { s.runs i with phase := p }

def finished : Phase → Bool
  | .returned _ | .downloadFailed | .raised | .killed => true
  | _ => false

variable (env : ℕ → Environ)

/-- The two downloads of a run, in the order of the code. -/
def modelDownload (i : ℕ) (path : PyStr) : Download :=
  ⟨modelName (env i), modelRevision (env i), path⟩

def tokenizerDownload (i : ℕ) (path : PyStr) : Download :=
  ⟨tokenizerName (env i), tokenizerRevision (env i), path⟩

def runMetadata (i : ℕ) (model tokenizer : Option PyStr) : List (PyStr × Value) :=
  metadata model (modelRevision (env i)) tokenizer (tokenizerRevision (env i))

variable [Interpreter]

def load (text : PyStr) : Phase :=
  match jsonLoads text with
  | .ok args => .syncing args
  | .error _ => .raised

def operate (s : World) (i : ℕ) : Operation → Option World
  | .check =>
    match (s.runs i).phase with
    | .checking => some (s.setPhase i (if s.marker.isSome then .reading [] else .downloadingModel))
    | _ => none
  | .readChunk n =>
    match (s.runs i).phase, s.marker with
    | .reading text, some content =>
      if text.length < content.length then
        some (s.setPhase i (.reading (text ++ (content.drop text.length).take (n + 1))))
      else none
    | _, _ => none
  | .readEnd =>
    match (s.runs i).phase, s.marker with
    | .reading text, some content =>
      if content.length ≤ text.length then some (s.setPhase i (load text)) else none
    | _, _ => none
  | .sync =>
    match (s.runs i).phase with
    | .syncing args =>
      some (s.setRun i ⟨.returned args, (s.runs i).missed, some (jsonDumps args)⟩)
    | _ => none
  | .downloadModel none =>
    match (s.runs i).phase with
    | .downloadingModel =>
      some (s.setRun i { s.runs i with phase := .downloadingTokenizer none, missed := true })
    | _ => none
  | .downloadModel (some path) =>
    match (s.runs i).phase with
    | .downloadingModel =>
      if (modelDownload env i path).Valid then
        some ({ s with models := modelDownload env i path :: s.models }.setPhase i
          (.downloadingTokenizer (some path)))
      else none
    | _ => none
  | .downloadTokenizer none =>
    match (s.runs i).phase with
    | .downloadingTokenizer model =>
      some (s.setRun i { s.runs i with phase := .patching model none, missed := true })
    | _ => none
  | .downloadTokenizer (some path) =>
    match (s.runs i).phase with
    | .downloadingTokenizer model =>
      if (tokenizerDownload env i path).Valid then
        some ({ s with tokenizers := tokenizerDownload env i path :: s.tokenizers }.setPhase i
          (.patching model (some path)))
      else none
    | _ => none
  | .downloadFail =>
    match (s.runs i).phase with
    | .downloadingModel => some (s.setPhase i .downloadFailed)
    | .downloadingTokenizer _ => some (s.setPhase i .downloadFailed)
    | _ => none
  | .patch vendored =>
    match (s.runs i).phase with
    | .patching model tokenizer =>
      -- `os.path.join` takes no `None`
      if vendored ∧ tokenizer = none then some (s.setPhase i .raised)
      else some (s.setPhase i (.opening (runMetadata env i model tokenizer)))
    | _ => none
  | .openMarker =>
    match (s.runs i).phase with
    | .opening items => some ({ s with marker := some [] }.setPhase i (.writing items 0))
    | _ => none
  | .writeChunk n =>
    match (s.runs i).phase, s.marker with
    | .writing items written, some content =>
      let chunk := ((jsonDumps (.dict items)).drop written).take (n + 1)
      if chunk = [] then none
      else some ({ s with marker := some (overwrite written chunk content) }.setPhase i
        (.writing items (written + chunk.length)))
    | _, _ => none
  | .closeMarker =>
    match (s.runs i).phase with
    | .writing items written =>
      if (jsonDumps (.dict items)).length ≤ written then some (s.setPhase i (.writingLocal items)) else none
    | _ => none
  | .writeLocal =>
    match (s.runs i).phase with
    | .writingLocal items =>
      some (s.setRun i ⟨.returned (.dict items), (s.runs i).missed, some (jsonDumps (.dict items))⟩)
    | _ => none
  | .kill => if finished (s.runs i).phase then none else some (s.setPhase i .killed)

/-- What `operate` can do, one constructor for each way. -/
inductive Operates (s : World) (i : ℕ) : Operation → World → Prop
  | check (hp : (s.runs i).phase = .checking) :
    Operates s i .check (s.setPhase i (if s.marker.isSome then .reading [] else .downloadingModel))
  | readChunk {n : ℕ} {text content : PyStr} (hp : (s.runs i).phase = .reading text)
    (hm : s.marker = some content) : Operates s i (.readChunk n)
      (s.setPhase i (.reading (text ++ (content.drop text.length).take (n + 1))))
  | readEnd {text content : PyStr} (hp : (s.runs i).phase = .reading text) (hm : s.marker = some content)
    (hend : content.length ≤ text.length) : Operates s i .readEnd (s.setPhase i (load text))
  | sync {args : Value} (hp : (s.runs i).phase = .syncing args) : Operates s i .sync
      (s.setRun i ⟨.returned args, (s.runs i).missed, some (jsonDumps args)⟩)
  | missModel (hp : (s.runs i).phase = .downloadingModel) : Operates s i (.downloadModel none)
      (s.setRun i { s.runs i with phase := .downloadingTokenizer none, missed := true })
  | model {path : PyStr} (hp : (s.runs i).phase = .downloadingModel)
    (hv : (modelDownload env i path).Valid = true) : Operates s i (.downloadModel (some path))
      ({ s with models := modelDownload env i path :: s.models }.setPhase i
        (.downloadingTokenizer (some path)))
  | missTokenizer {model : Option PyStr} (hp : (s.runs i).phase = .downloadingTokenizer model) :
    Operates s i (.downloadTokenizer none)
      (s.setRun i { s.runs i with phase := .patching model none, missed := true })
  | tokenizer {model : Option PyStr} {path : PyStr} (hp : (s.runs i).phase = .downloadingTokenizer model)
    (hv : (tokenizerDownload env i path).Valid = true) : Operates s i (.downloadTokenizer (some path))
      ({ s with tokenizers := tokenizerDownload env i path :: s.tokenizers }.setPhase i
        (.patching model (some path)))
  | fail (hp : (s.runs i).phase = .downloadingModel ∨ ∃ model, (s.runs i).phase = .downloadingTokenizer model) :
    Operates s i .downloadFail (s.setPhase i .downloadFailed)
  | unpatched {model : Option PyStr} (hp : (s.runs i).phase = .patching model none) :
    Operates s i (.patch true) (s.setPhase i .raised)
  | patch {vendored : Bool} {model tokenizer : Option PyStr} (hp : (s.runs i).phase = .patching model tokenizer) :
    Operates s i (.patch vendored) (s.setPhase i (.opening (runMetadata env i model tokenizer)))
  | openMarker {items : List (PyStr × Value)} (hp : (s.runs i).phase = .opening items) :
    Operates s i .openMarker ({ s with marker := some [] }.setPhase i (.writing items 0))
  | writeChunk {n written : ℕ} {items : List (PyStr × Value)} {content : PyStr}
    (hp : (s.runs i).phase = .writing items written) (hm : s.marker = some content)
    (hc : ((jsonDumps (.dict items)).drop written).take (n + 1) ≠ []) : Operates s i (.writeChunk n)
      ({ s with marker := some (overwrite written (((jsonDumps (.dict items)).drop written).take (n + 1))
        content) }.setPhase i
          (.writing items (written + (((jsonDumps (.dict items)).drop written).take (n + 1)).length)))
  | closeMarker {written : ℕ} {items : List (PyStr × Value)} (hp : (s.runs i).phase = .writing items written)
    (hend : (jsonDumps (.dict items)).length ≤ written) :
    Operates s i .closeMarker (s.setPhase i (.writingLocal items))
  | writeLocal {items : List (PyStr × Value)} (hp : (s.runs i).phase = .writingLocal items) :
    Operates s i .writeLocal
      (s.setRun i ⟨.returned (.dict items), (s.runs i).missed, some (jsonDumps (.dict items))⟩)
  | kill : Operates s i .kill (s.setPhase i .killed)

variable {env} {s t : World} {i : ℕ} {op : Operation}

lemma operates (h : operate env s i op = some t) : Operates env s i op t := by
  cases op with
  | check =>
    simp only [operate] at h
    split at h
    · obtain rfl := Option.some.inj h
      exact .check ‹_›
    · cases h
  | readChunk n =>
    simp only [operate] at h
    split at h
    · split_ifs at h
      obtain rfl := Option.some.inj h
      exact .readChunk ‹_› ‹_›
    · cases h
  | readEnd =>
    simp only [operate] at h
    split at h
    · split_ifs at h
      obtain rfl := Option.some.inj h
      exact .readEnd ‹_› ‹_› ‹_›
    · cases h
  | sync =>
    simp only [operate] at h
    split at h
    · obtain rfl := Option.some.inj h
      exact .sync ‹_›
    · cases h
  | downloadModel path =>
    cases path with
    | none =>
      simp only [operate] at h
      split at h
      · obtain rfl := Option.some.inj h
        exact .missModel ‹_›
      · cases h
    | some path =>
      simp only [operate] at h
      split at h
      · split_ifs at h
        obtain rfl := Option.some.inj h
        exact .model ‹_› ‹_›
      · cases h
  | downloadTokenizer path =>
    cases path with
    | none =>
      simp only [operate] at h
      split at h
      · obtain rfl := Option.some.inj h
        exact .missTokenizer ‹_›
      · cases h
    | some path =>
      simp only [operate] at h
      split at h
      · split_ifs at h
        obtain rfl := Option.some.inj h
        exact .tokenizer ‹_› ‹_›
      · cases h
  | downloadFail =>
    simp only [operate] at h
    split at h
    · obtain rfl := Option.some.inj h
      exact .fail (Or.inl ‹_›)
    · obtain rfl := Option.some.inj h
      exact .fail (Or.inr ⟨_, ‹_›⟩)
    · cases h
  | patch vendored =>
    simp only [operate] at h
    split at h
    · split_ifs at h with hnone
      · obtain rfl := Option.some.inj h
        obtain ⟨rfl, rfl⟩ := hnone
        exact .unpatched ‹_›
      · obtain rfl := Option.some.inj h
        exact .patch ‹_›
    · cases h
  | openMarker =>
    simp only [operate] at h
    split at h
    · obtain rfl := Option.some.inj h
      exact .openMarker ‹_›
    · cases h
  | writeChunk n =>
    simp only [operate] at h
    split at h
    · split_ifs at h
      obtain rfl := Option.some.inj h
      exact .writeChunk ‹_› ‹_› ‹_›
    · cases h
  | closeMarker =>
    simp only [operate] at h
    split at h
    · split_ifs at h
      obtain rfl := Option.some.inj h
      exact .closeMarker ‹_› ‹_›
    · cases h
  | writeLocal =>
    simp only [operate] at h
    split at h
    · obtain rfl := Option.some.inj h
      exact .writeLocal ‹_›
    · cases h
  | kill =>
    simp only [operate] at h
    split_ifs at h
    obtain rfl := Option.some.inj h
    exact .kill

variable (env)

def boots : Machine World (ℕ × Operation) where
  next s a := operate env s a.1 a.2

end Runs

end GemmaWorker.Boot
