import GemmaWorker.EngineArgs.LimitNotations
import GemmaWorker.EngineArgs.ZeroSettings

/-! Which texts in the environment and in the baked file keep the arguments of the engine from being built. -/

namespace GemmaWorker.EngineArgs

open GemmaWorker.Python

section Texts

def ReadsInt (s : PyStr) : Prop :=
  ∃ n, pyInt s = .ok n

/-- A name and a number with one equals sign between them. -/
def ReadsPair (pair : PyStr) : Prop :=
  ∃ key value, split (ch '=') pair = [key, value] ∧ ReadsInt value

variable [Interpreter]

/-- JSON or not, but no text that `json.loads` fails on with another exception. -/
def ReadsConfig (s : PyStr) : Prop :=
  (∃ v, jsonLoads s = .ok v) ∨ jsonLoads s = .error .jsonDecodeError

def ReadsObject (file : LocalArgsFile) : Prop :=
  file = .absent ∨ ∃ s items, file = .text s ∧ jsonLoads s = .ok (.dict items)

/-- The sizes of a draft are read only where there is something to draft with, and no number is where the
configuration is given as a whole. A variable that is converted may hold anything that does not nest too deep. -/
structure InOrder (rt : Runtime) (fields : EngineFields) (env : Environ) (file : LocalArgsFile) : Prop where
  shallow : Shallow rt fields env
  baked : ReadsObject file
  limit : ∀ s, env (lit "LIMIT_MM_PER_PROMPT") = some s → ∀ pair ∈ split (ch ',') s, ReadsPair pair
  context : ∀ s, setting env (lit "MAX_CONTEXT_LEN_TO_CAPTURE") = some s → ReadsInt s
  config : ∀ s, setting env (lit "SPECULATIVE_CONFIG") = some s → ReadsConfig s
  counts : setting env (lit "SPECULATIVE_CONFIG") = none →
    ∀ name ∈ countVariables, ∀ s, setting env name = some s → ReadsInt s
  sizes : setting env (lit "SPECULATIVE_CONFIG") = none → ¬ SizesUnread env →
    ∀ name ∈ sizeVariables, ∀ s, setting env name = some s → ReadsInt s

end Texts

section Parts

variable {rt : Runtime} {env : Environ} {file : LocalArgsFile}

lemma readPair_iff (d : Dict) (pair : PyStr) : (∃ d', readPair d pair = .ok d') ↔ ReadsPair pair := by
  rw [readPair]
  constructor
  · rintro ⟨d', h⟩
    split at h
    · rename_i key value hsplit
      cases hn : pyInt value with
      | error e => simp [hn, Except.map] at h
      | ok n => exact ⟨key, value, hsplit, n, hn⟩
    · cases h
  · rintro ⟨key, value, hsplit, n, hn⟩
    simp only [hsplit, hn]
    exact ⟨_, rfl⟩

/-- The loop ends early at the first pair that cannot be read, whatever has been read before it. -/
lemma readPairs_iff (d : Dict) (pairs : List PyStr) :
    (∃ d', pairs.foldlM readPair d = .ok d') ↔ ∀ pair ∈ pairs, ReadsPair pair := by
  induction pairs generalizing d with
  | nil => exact iff_of_true ⟨d, rfl⟩ (by simp)
  | cons pair pairs ih =>
    rw [List.foldlM_cons, List.forall_mem_cons, ← readPair_iff d]
    constructor
    · rintro ⟨d', h⟩
      obtain ⟨next, hnext, hrest⟩ := bind_eq_ok.mp h
      exact ⟨⟨next, hnext⟩, (ih next).mp ⟨d', hrest⟩⟩
    · rintro ⟨⟨next, hnext⟩, hpairs⟩
      obtain ⟨d', hrest⟩ := (ih next).mpr hpairs
      exact ⟨d', bind_eq_ok.mpr ⟨next, hnext, hrest⟩⟩

lemma limit_iff (s : PyStr) :
    (∃ v, convertLimitMmPerPrompt s = .ok v) ↔ ∀ pair ∈ split (ch ',') s, ReadsPair pair := by
  rw [← readPairs_iff Dict.empty, convertLimit_eq]
  cases (split (ch ',') s).foldlM readPair Dict.empty <;> simp [Except.map]

lemma readInt_iff (name : PyStr) :
    (∃ n, readInt env name = .ok n) ↔ ∀ s, setting env name = some s → ReadsInt s := by
  rw [readInt]
  cases setting env name with
  | none => simp
  | some s => cases h : pyInt s <;> simp [ReadsInt, h, Except.map]

lemma readCount_iff (name : PyStr) :
    (∃ n, readCount env name = .ok n) ↔ ∀ s, setting env name = some s → ReadsInt s := by
  rw [← readInt_iff, readCount]
  cases readInt env name <;> simp [Except.map]

lemma readCounts_iff :
    (∃ c, readCounts env = .ok c) ↔ ∀ name ∈ countVariables, ∃ n, readCount env name = .ok n := by
  simp only [countVariables, List.forall_mem_cons, List.not_mem_nil, false_imp_iff, implies_true, and_true]
  constructor
  · rintro ⟨c, h⟩
    obtain ⟨numSpecTokens, hnum, h⟩ := bind_eq_ok.mp h
    obtain ⟨ngramMax, hmost, h⟩ := bind_eq_ok.mp h
    obtain ⟨ngramMin, hleast, -⟩ := bind_eq_ok.mp h
    exact ⟨⟨_, hnum⟩, ⟨_, hmost⟩, _, hleast⟩
  · rintro ⟨⟨numSpecTokens, hnum⟩, ⟨ngramMax, hmost⟩, ngramMin, hleast⟩
    refine ⟨⟨numSpecTokens, ngramMax, ngramMin⟩, ?_⟩
    rw [readCounts, hnum, hmost, hleast]
    rfl

lemma readSizes_iff :
    (∃ z, readSizes env = .ok z) ↔ ∀ name ∈ sizeVariables, ∃ n, readInt env name = .ok n := by
  simp only [sizeVariables, List.forall_mem_cons, List.not_mem_nil, false_imp_iff, implies_true, and_true]
  constructor
  · rintro ⟨z, h⟩
    obtain ⟨draftTp, hdraft, h⟩ := bind_eq_ok.mp h
    obtain ⟨specMaxLen, hlength, h⟩ := bind_eq_ok.mp h
    obtain ⟨disableBatch, hbatch, -⟩ := bind_eq_ok.mp h
    exact ⟨⟨_, hdraft⟩, ⟨_, hlength⟩, _, hbatch⟩
  · rintro ⟨⟨draftTp, hdraft⟩, ⟨specMaxLen, hlength⟩, disableBatch, hbatch⟩
    refine ⟨⟨draftTp, specMaxLen, disableBatch⟩, ?_⟩
    rw [readSizes, hdraft, hlength, hbatch]
    rfl

lemma build_iff : (∃ config, buildSpeculativeConfig rt env = .ok config) ↔
    (∃ c, readCounts env = .ok c) ∧ (¬ SizesUnread env → ∃ z, readSizes env = .ok z) := by
  cases hcounts : readCounts env with
  | error e =>
    refine iff_of_false ?_ ?_
    · rintro ⟨config, h⟩
      rw [build_eq, hcounts] at h
      cases h
    · rintro ⟨⟨c, h⟩, -⟩
      cases h
  | ok c =>
    rw [build_eq, hcounts, ← unnamed_iff hcounts]
    by_cases hunnamed : Unnamed env c
    · simp [hunnamed, pure, Except.pure, bind, Except.bind]
    · cases readSizes env <;> simp [hunnamed, pure, Except.pure, bind, Except.bind]

variable [Interpreter]

lemma baked_iff : (∃ items, getLocalArgs file = some items) ↔ ReadsObject file := by
  cases file with
  | absent => exact iff_of_true ⟨[], rfl⟩ (Or.inl rfl)
  | unreadable =>
    refine iff_of_false ?_ ?_
    · rintro ⟨items, h⟩
      cases h
    · rintro (h | ⟨s, items, h, -⟩)
      · cases h
      · cases h
  | text s =>
    constructor
    · rintro ⟨items, h⟩
      rw [getLocalArgs] at h
      split at h
      · exact Or.inr ⟨s, _, rfl, by assumption⟩
      · cases h
    · rintro (h | ⟨s', items, h, hitems⟩)
      · cases h
      · obtain rfl := LocalArgsFile.text.inj h
        exact ⟨items, by simp only [getLocalArgs, hitems]⟩

lemma speculative_iff : (∃ config, getSpeculativeConfig rt env = .ok config) ↔
    (∀ s, setting env (lit "SPECULATIVE_CONFIG") = some s → ReadsConfig s) ∧
      (setting env (lit "SPECULATIVE_CONFIG") = none → ∃ config, buildSpeculativeConfig rt env = .ok config) := by
  cases hset : setting env (lit "SPECULATIVE_CONFIG") with
  | none => simp [getSpeculativeConfig, hset]
  | some s =>
    have hreads : (∃ config, getSpeculativeConfig rt env = .ok config) ↔ ReadsConfig s := by
      rw [ReadsConfig]
      cases h : jsonLoads s with
      | ok v => simp [getSpeculativeConfig, hset, h]
      | error e => cases e <;> simp [getSpeculativeConfig, hset, h]
    simpa using hreads

end Parts

end GemmaWorker.EngineArgs
