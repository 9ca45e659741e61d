import GemmaWorker.EngineArgs.MalformedVariable

/-! The numeric variables of `get_speculative_config` that say zero, against the same environment without
them. Three are read as counts, in which a zero stands for nothing, and three as they are. -/

namespace GemmaWorker.EngineArgs

open GemmaWorker.Python

section Zeros

def withoutAll (env : Environ) (names : List PyStr) : Environ :=
  fun name => if name ∈ names then none else env name

/-- Numeric variables that are set to a text for zero. -/
def Zeros (env : Environ) (names : List PyStr) : Prop :=
  ∀ name ∈ names, name ∈ countVariables ++ sizeVariables ∧ ∃ s, env name = some s ∧ pyInt s = .ok 0

def Unreadable (env : Environ) : Prop :=
  ∃ name ∈ countVariables ++ sizeVariables, ∃ e, readInt env name = .error e

def modelMethods : List PyStr :=
  [lit "eagle3", lit "eagle", lit "medusa", lit "draft_model"]

/-- A method that was inferred comes with the setting it was inferred from. -/
def NamesMethod (env : Environ) (config : List (PyStr × Value)) : Prop :=
  ∃ method, config.lookup (lit "method") = some (.str method) ∧
    (setting env (lit "SPECULATIVE_METHOD") = none →
      method = lit "ngram" ∧ (config.lookup (lit "prompt_lookup_max")).isSome = true ∨
        method ∈ modelMethods ∧ (config.lookup (lit "model")).isSome = true)

structure ZeroIsUnset [Interpreter] (rt : Runtime) (env : Environ) (names : List PyStr) : Prop where
  same : getSpeculativeConfig rt env = getSpeculativeConfig rt (withoutAll env names)
  method : ∀ config, getSpeculativeConfig rt env = .ok (.dict config) → NamesMethod env config

end Zeros

section Numbers

variable {env : Environ} {names : List PyStr} {name : PyStr}

structure Counts where
  numSpecTokens : Option ℤ
  ngramMax : Option ℤ
  ngramMin : Option ℤ

@[ext] structure Sizes where
  draftTp : Option ℤ
  specMaxLen : Option ℤ
  disableBatch : Option ℤ

def readCounts (env : Environ) : Except PyError Counts := do
  let numSpecTokens ← readCount env (lit "NUM_SPECULATIVE_TOKENS")
  let ngramMax ← readCount env (lit "NGRAM_PROMPT_LOOKUP_MAX")
  let ngramMin ← readCount env (lit "NGRAM_PROMPT_LOOKUP_MIN")
  return ⟨numSpecTokens, ngramMax, ngramMin⟩

def readSizes (env : Environ) : Except PyError Sizes := do
  let draftTp ← readInt env (lit "SPECULATIVE_DRAFT_TENSOR_PARALLEL_SIZE")
  let specMaxLen ← readInt env (lit "SPECULATIVE_MAX_MODEL_LEN")
  let disableBatch ← readInt env (lit "SPECULATIVE_DISABLE_BY_BATCH_SIZE")
  return ⟨draftTp, specMaxLen, disableBatch⟩

def clear (names : List PyStr) (name : PyStr) (n : Option ℤ) : Option ℤ :=
  if name ∈ names then none else n

def Sizes.clear (names : List PyStr) (z : Sizes) : Sizes where
  draftTp := EngineArgs.clear names (lit "SPECULATIVE_DRAFT_TENSOR_PARALLEL_SIZE") z.draftTp
  specMaxLen := EngineArgs.clear names (lit "SPECULATIVE_MAX_MODEL_LEN") z.specMaxLen
  disableBatch := EngineArgs.clear names (lit "SPECULATIVE_DISABLE_BY_BATCH_SIZE") z.disableBatch

lemma setting_withoutAll (h : name ∉ names) : setting (withoutAll env names) name = setting env name := by
  rw [setting, withoutAll, if_neg h, setting]

lemma readInt_zero (hz : Zeros env names) (h : name ∈ names) : readInt env name = .ok (some 0) := by
  obtain ⟨-, s, hs, hzero⟩ := hz name h
  have hne : s ≠ [] := by
    rintro rfl
    cases hzero
  rw [readInt, setting, hs, Option.filter_some, if_pos (by simpa using hne)]
  simp only [hzero]
  rfl

lemma readInt_withoutAll (hz : Zeros env names) (name : PyStr) :
    readInt (withoutAll env names) name = (readInt env name).map (clear names name) := by
  by_cases h : name ∈ names
  · have hnone : setting (withoutAll env names) name = none := by rw [setting, withoutAll, if_pos h]; rfl
    rw [readInt_zero hz h, readInt, hnone]
    simp [clear, h, Except.map]
  · have hid : clear names name = id := by
      funext n
      rw [clear, if_neg h, id]
    rw [readInt, setting_withoutAll h, hid, ← readInt, Except.map_id]
    rfl

/-- A count of zero is none, whether or not it is in the environment. -/
lemma readCount_withoutAll (hz : Zeros env names) (name : PyStr) :
    readCount (withoutAll env names) name = readCount env name := by
  rw [readCount, readCount, readInt_withoutAll hz]
  by_cases h : name ∈ names
  · rw [readInt_zero hz h]
    simp [Except.map, clear, h, Option.filter]
  · cases readInt env name with
    | error e => rfl
    | ok n => simp [Except.map, clear, h]

lemma readCounts_withoutAll (hz : Zeros env names) : readCounts (withoutAll env names) = readCounts env := by
  simp only [readCounts, readCount_withoutAll hz]

lemma readSizes_withoutAll (hz : Zeros env names) :
    readSizes (withoutAll env names) = (readSizes env).map (Sizes.clear names) := by
  simp only [readSizes, readInt_withoutAll hz]
  cases readInt env (lit "SPECULATIVE_DRAFT_TENSOR_PARALLEL_SIZE") with
  | error e => rfl
  | ok draftTp =>
    cases readInt env (lit "SPECULATIVE_MAX_MODEL_LEN") with
    | error e => rfl
    | ok specMaxLen => cases readInt env (lit "SPECULATIVE_DISABLE_BY_BATCH_SIZE") <;> rfl

lemma readable_iff : ¬ Unreadable env ↔ ∃ c z, readCounts env = .ok c ∧ readSizes env = .ok z := by
  have hcount {name : PyStr} : (∃ n, readCount env name = .ok n) ↔ ¬ ∃ e, readInt env name = .error e := by
    rw [readCount]
    cases readInt env name <;> simp [Except.map]
  have hsize {name : PyStr} : (∃ n, readInt env name = .ok n) ↔ ¬ ∃ e, readInt env name = .error e := by
    cases readInt env name <;> simp
  have hread : ¬ Unreadable env ↔ (∀ name ∈ countVariables, ∃ n, readCount env name = .ok n) ∧
      ∀ name ∈ sizeVariables, ∃ n, readInt env name = .ok n := by
    simp only [Unreadable, hcount, hsize, List.mem_append, not_exists, not_and, or_imp, forall_and]
  rw [hread]
  constructor
  · rintro ⟨hcounts, hsizes⟩
    obtain ⟨numSpecTokens, hnum⟩ := hcounts (lit "NUM_SPECULATIVE_TOKENS") (by simp [countVariables])
    obtain ⟨ngramMax, hmost⟩ := hcounts (lit "NGRAM_PROMPT_LOOKUP_MAX") (by simp [countVariables])
    obtain ⟨ngramMin, hleast⟩ := hcounts (lit "NGRAM_PROMPT_LOOKUP_MIN") (by simp [countVariables])
    obtain ⟨draftTp, hdraft⟩ := hsizes (lit "SPECULATIVE_DRAFT_TENSOR_PARALLEL_SIZE") (by simp [sizeVariables])
    obtain ⟨specMaxLen, hlength⟩ := hsizes (lit "SPECULATIVE_MAX_MODEL_LEN") (by simp [sizeVariables])
    obtain ⟨disableBatch, hbatch⟩ := hsizes (lit "SPECULATIVE_DISABLE_BY_BATCH_SIZE") (by simp [sizeVariables])
    refine ⟨⟨numSpecTokens, ngramMax, ngramMin⟩, ⟨draftTp, specMaxLen, disableBatch⟩, ?_, ?_⟩
    · rw [readCounts, hnum, hmost, hleast]
      rfl
    · rw [readSizes, hdraft, hlength, hbatch]
      rfl
  · rintro ⟨c, z, hcounts, hsizes⟩
    obtain ⟨numSpecTokens, hnum, hcounts⟩ := bind_eq_ok.mp hcounts
    obtain ⟨ngramMax, hmost, hcounts⟩ := bind_eq_ok.mp hcounts
    obtain ⟨ngramMin, hleast, -⟩ := bind_eq_ok.mp hcounts
    obtain ⟨draftTp, hdraft, hsizes⟩ := bind_eq_ok.mp hsizes
    obtain ⟨specMaxLen, hlength, hsizes⟩ := bind_eq_ok.mp hsizes
    obtain ⟨disableBatch, hbatch, -⟩ := bind_eq_ok.mp hsizes
    simp only [countVariables, sizeVariables, List.forall_mem_cons, List.not_mem_nil, false_imp_iff,
      implies_true, and_true]
    exact ⟨⟨⟨_, hnum⟩, ⟨_, hmost⟩, ⟨_, hleast⟩⟩, ⟨_, hdraft⟩, ⟨_, hlength⟩, ⟨_, hbatch⟩⟩

end Numbers

section Config

variable {rt : Runtime} {env : Environ} {names : List PyStr} {c : Counts} {z : Sizes}

def Unnamed (env : Environ) (c : Counts) : Prop :=
  setting env (lit "SPECULATIVE_METHOD") = none ∧ setting env (lit "SPECULATIVE_MODEL") = none ∧
    c.ngramMax = none

instance : Decidable (Unnamed env c) :=
  inferInstanceAs (Decidable (_ ∧ _))

def settings (rt : Runtime) (env : Environ) (c : Counts) (z : Sizes) : List (PyStr × Option Value) :=
  [(lit "method", (speculativeMethod rt env c.ngramMax).map .str),
    (lit "model", (setting env (lit "SPECULATIVE_MODEL")).map .str),
    (lit "num_speculative_tokens", c.numSpecTokens.map .int),
    (lit "prompt_lookup_max", c.ngramMax.map .int), (lit "prompt_lookup_min", c.ngramMin.map .int),
    (lit "draft_tensor_parallel_size", z.draftTp.map .int), (lit "max_model_len", z.specMaxLen.map .int),
    (lit "disable_by_batch_size", z.disableBatch.map .int),
    (lit "quantization", (setting env (lit "SPECULATIVE_QUANTIZATION")).map .str),
    (lit "revision", (setting env (lit "SPECULATIVE_MODEL_REVISION")).map .str),
    (lit "enforce_eager", (setting env (lit "SPECULATIVE_ENFORCE_EAGER")).map
      (fun s => .bool (rt.lower s = lit "true")))]

def given (settings : List (PyStr × Option Value)) : List (PyStr × Value) :=
  settings.filterMap (fun kv => kv.2.map (fun v => (kv.1, v)))

lemma lookup_given {items : List (PyStr × Option Value)} (hnodup : (items.map Prod.fst).Nodup) (k : PyStr) :
    (given items).lookup k = (items.lookup k).join := by
  induction items with
  | nil => rfl
  | cons kv items ih =>
    obtain ⟨key, v⟩ := kv
    obtain ⟨hkey, hitems⟩ := List.nodup_cons.mp hnodup
    have hcons : given ((key, v) :: items) = (v.map (fun v => (key, v))).toList ++ given items := by
      cases v <;> rfl
    rw [hcons, List.lookup_append, ih hitems, List.lookup_cons]
    by_cases hk : k = key
    · subst hk
      have hnone : items.lookup k = none := by
        rw [List.lookup_eq_none_iff]
        intro kv hkv
        refine bne_iff_ne.mpr fun he => hkey ?_
        exact List.mem_map.mpr ⟨kv, hkv, he.symm⟩
      cases v <;> simp [hnone]
    · have hne : (k == key) = false := by simpa using hk
      cases v <;> simp [List.lookup_cons, hne]

lemma settings_nodup : ((settings rt env c z).map Prod.fst).Nodup := by
  have hkeys : (settings rt env c z).map Prod.fst =
      [lit "method", lit "model", lit "num_speculative_tokens", lit "prompt_lookup_max",
        lit "prompt_lookup_min", lit "draft_tensor_parallel_size", lit "max_model_len",
        lit "disable_by_batch_size", lit "quantization", lit "revision", lit "enforce_eager"] := rfl
  rw [hkeys]
  simp [lit_inj]

lemma lookup_setting {k : PyStr} {v : Option Value} (h : (k, v) ∈ settings rt env c z) :
    (given (settings rt env c z)).lookup k = v := by
  rw [lookup_given settings_nodup, lookup_of_mem settings_nodup h, Option.join_some]

lemma method_isSome (h : ¬ Unnamed env c) : (speculativeMethod rt env c.ngramMax).isSome = true := by
  rw [Unnamed] at h
  cases hmethod : setting env (lit "SPECULATIVE_METHOD") with
  | some specMethod => simp [speculativeMethod, hmethod]
  | none =>
    cases hmodel : setting env (lit "SPECULATIVE_MODEL") with
    | some specModel => cases hmax : c.ngramMax <;> simp [speculativeMethod, hmethod, hmodel]
    | none =>
      cases hmax : c.ngramMax with
      | some n => simp [speculativeMethod, hmethod, hmodel]
      | none => exact absurd ⟨hmethod, hmodel, hmax⟩ h

lemma given_ne_nil (h : ¬ Unnamed env c) : given (settings rt env c z) ≠ [] := by
  obtain ⟨method, hmethod⟩ := Option.isSome_iff_exists.mp (@method_isSome rt env c h)
  rw [given, settings, hmethod]
  simp

lemma build_eq : buildSpeculativeConfig rt env = readCounts env >>= fun c =>
    if Unnamed env c then pure .none
    else readSizes env >>= fun z => pure (.dict (given (settings rt env c z))) := by
  simp only [buildSpeculativeConfig, readCounts, readSizes, bind_assoc, pure_bind]
  refine bind_congr fun numSpecTokens => bind_congr fun ngramMax => bind_congr fun ngramMin => ?_
  by_cases h : Unnamed env ⟨numSpecTokens, ngramMax, ngramMin⟩
  · exact (if_pos h).trans (if_pos h).symm
  · refine (if_neg h).trans (Eq.trans ?_ (if_neg h).symm)
    refine bind_congr fun draftTp => bind_congr fun specMaxLen => bind_congr fun disableBatch => ?_
    have hne := @given_ne_nil rt env _ ⟨draftTp, specMaxLen, disableBatch⟩ h
    split
    · rename_i hg
      exact absurd hg hne
    · rfl

lemma text_notMem (hz : Zeros env names) {name : PyStr} (h : name ∉ countVariables ++ sizeVariables) :
    setting (withoutAll env names) name = setting env name :=
  setting_withoutAll fun hname => h (hz name hname).1

lemma unnamed_withoutAll (hz : Zeros env names) : Unnamed (withoutAll env names) c ↔ Unnamed env c := by
  have hmethod := text_notMem hz (by simp [countVariables, sizeVariables, lit_inj] :
    lit "SPECULATIVE_METHOD" ∉ countVariables ++ sizeVariables)
  have hmodel := text_notMem hz (by simp [countVariables, sizeVariables, lit_inj] :
    lit "SPECULATIVE_MODEL" ∉ countVariables ++ sizeVariables)
  rw [Unnamed, Unnamed, hmethod, hmodel]

lemma settings_withoutAll (hz : Zeros env names) :
    settings rt (withoutAll env names) c z = settings rt env c z := by
  have htexts : ∀ name ∈ [lit "SPECULATIVE_METHOD", lit "SPECULATIVE_MODEL", lit "SPECULATIVE_QUANTIZATION",
      lit "SPECULATIVE_MODEL_REVISION", lit "SPECULATIVE_ENFORCE_EAGER"],
      setting (withoutAll env names) name = setting env name := by
    have hall : ∀ name ∈ [lit "SPECULATIVE_METHOD", lit "SPECULATIVE_MODEL", lit "SPECULATIVE_QUANTIZATION",
        lit "SPECULATIVE_MODEL_REVISION", lit "SPECULATIVE_ENFORCE_EAGER"],
        name ∉ countVariables ++ sizeVariables := by
      simp [countVariables, sizeVariables, lit_inj]
    exact fun name hname => text_notMem hz (hall name hname)
  simp only [List.forall_mem_cons] at htexts
  obtain ⟨hmethod, hmodel, hquant, hrevision, heager, -⟩ := htexts
  simp only [settings, speculativeMethod, hmethod, hmodel, hquant, hrevision, heager]

lemma build_withoutAll (hz : Zeros env names) : buildSpeculativeConfig rt (withoutAll env names) =
    readCounts env >>= fun c =>
      if Unnamed env c then pure .none
      else readSizes env >>= fun z => pure (.dict (given (settings rt env c (z.clear names)))) := by
  rw [build_eq, readCounts_withoutAll hz, readSizes_withoutAll hz]
  refine bind_congr fun c => ?_
  simp only [unnamed_withoutAll hz, settings_withoutAll hz]
  congr 1
  cases readSizes env <;> rfl

lemma settings_inj {z' : Sizes} (h : given (settings rt env c z) = given (settings rt env c z')) : z = z' := by
  have hsame (k : PyStr) {n n' : Option ℤ} (hn : (k, n.map Value.int) ∈ settings rt env c z)
      (hn' : (k, n'.map Value.int) ∈ settings rt env c z') : n = n' := by
    have hmap : n.map Value.int = n'.map Value.int := by
      rw [← lookup_setting hn, h, lookup_setting hn']
    exact Option.map_injective (fun _ _ hv => Value.int.inj hv) hmap
  apply Sizes.ext
  · exact hsame (lit "draft_tensor_parallel_size") (by simp [settings]) (by simp [settings])
  · exact hsame (lit "max_model_len") (by simp [settings]) (by simp [settings])
  · exact hsame (lit "disable_by_batch_size") (by simp [settings]) (by simp [settings])

lemma clear_eq_iff (hz : Zeros env names) (hsizes : readSizes env = .ok z) :
    z.clear names = z ↔ ∀ name ∈ names, name ∉ sizeVariables := by
  obtain ⟨draftTp, hdraft, hsizes⟩ := bind_eq_ok.mp hsizes
  obtain ⟨specMaxLen, hlength, hsizes⟩ := bind_eq_ok.mp hsizes
  obtain ⟨disableBatch, hbatch, hsizes⟩ := bind_eq_ok.mp hsizes
  obtain rfl := Except.ok.inj hsizes
  have hone {name : PyStr} {n : Option ℤ} (h : readInt env name = .ok n) :
      clear names name n = n ↔ name ∉ names := by
    rw [clear]
    by_cases hname : name ∈ names
    · obtain rfl := Except.ok.inj ((readInt_zero hz hname).symm.trans h)
      simp [hname]
    · simp [hname]
  have hswap : (∀ name ∈ names, name ∉ sizeVariables) ↔ ∀ name ∈ sizeVariables, name ∉ names :=
    ⟨fun h name hs hn => h name hn hs, fun h name hn hs => h name hs hn⟩
  rw [Sizes.clear, Sizes.mk.injEq, hone hdraft, hone hlength, hone hbatch, hswap]
  simp [sizeVariables]

lemma unnamed_iff (hcounts : readCounts env = .ok c) : Unnamed env c ↔ SizesUnread env := by
  obtain ⟨numSpecTokens, -, hcounts⟩ := bind_eq_ok.mp hcounts
  obtain ⟨ngramMax, hmost, hcounts⟩ := bind_eq_ok.mp hcounts
  obtain ⟨ngramMin, -, hcounts⟩ := bind_eq_ok.mp hcounts
  obtain rfl := Except.ok.inj hcounts
  rw [Unnamed, SizesUnread, hmost, Except.ok.injEq]

theorem build_same_iff (rt : Runtime) (hz : Zeros env names) :
    buildSpeculativeConfig rt env = buildSpeculativeConfig rt (withoutAll env names) ↔
      (∀ name ∈ names, name ∉ sizeVariables) ∨ SizesUnread env ∨ Unreadable env := by
  rw [build_eq, build_withoutAll hz]
  by_cases hread : Unreadable env
  · refine iff_of_true ?_ (Or.inr (Or.inr hread))
    cases hcounts : readCounts env with
    | error e => rfl
    | ok c =>
      cases hsizes : readSizes env with
      | error e => rfl
      | ok z => exact absurd hread (readable_iff.mpr ⟨c, z, hcounts, hsizes⟩)
  · obtain ⟨c, z, hcounts, hsizes⟩ := readable_iff.mp hread
    have hunnamed := unnamed_iff hcounts
    rw [hcounts, hsizes]
    by_cases h : Unnamed env c
    · refine iff_of_true ?_ (Or.inr (Or.inl (hunnamed.mp h)))
      exact (if_pos h).trans (if_pos h).symm
    · have hrest : ¬ (SizesUnread env ∨ Unreadable env) := not_or.mpr ⟨fun hu => h (hunnamed.mpr hu), hread⟩
      have hsame : (Except.ok (Value.dict (given (settings rt env c z))) : Except PyError Value) =
          .ok (.dict (given (settings rt env c (z.clear names)))) ↔ z.clear names = z := by
        rw [Except.ok.injEq, Value.dict.injEq]
        exact ⟨fun he => (settings_inj he).symm, fun he => by rw [he]⟩
      rw [or_iff_left hrest, ← clear_eq_iff hz hsizes, ← hsame]
      refine Eq.congr ?_ ?_
      · exact if_neg h
      · exact if_neg h

lemma draftMethod_mem (rt : Runtime) (model : PyStr) : draftMethod rt model ∈ modelMethods := by
  rw [draftMethod, modelMethods]
  split_ifs <;> simp

lemma build_names {config : List (PyStr × Value)} (h : buildSpeculativeConfig rt env = .ok (.dict config)) :
    NamesMethod env config := by
  rw [build_eq] at h
  obtain ⟨c, hcounts, h⟩ := bind_eq_ok.mp h
  by_cases hu : Unnamed env c
  · rw [if_pos hu] at h
    cases h
  rw [if_neg hu] at h
  obtain ⟨z, -, h⟩ := bind_eq_ok.mp h
  obtain rfl := Value.dict.inj (Except.ok.inj h)
  have hmethod : (given (settings rt env c z)).lookup (lit "method") =
      (speculativeMethod rt env c.ngramMax).map .str := lookup_setting (by simp [settings])
  have hmodel : (given (settings rt env c z)).lookup (lit "model") =
      (setting env (lit "SPECULATIVE_MODEL")).map .str := lookup_setting (by simp [settings])
  have hmax : (given (settings rt env c z)).lookup (lit "prompt_lookup_max") = c.ngramMax.map .int :=
    lookup_setting (by simp [settings])
  rw [NamesMethod, hmethod, hmodel, hmax]
  cases hm : setting env (lit "SPECULATIVE_METHOD") with
  | some specMethod => exact ⟨specMethod, by simp [speculativeMethod, hm], fun hnone => by cases hnone⟩
  | none =>
    cases hspec : setting env (lit "SPECULATIVE_MODEL") with
    | some specModel =>
      refine ⟨draftMethod rt specModel, ?_, fun _ => Or.inr ⟨draftMethod_mem rt specModel, rfl⟩⟩
      cases c.ngramMax <;> simp [speculativeMethod, hm, hspec]
    | none =>
      cases hn : c.ngramMax with
      | some n => exact ⟨lit "ngram", by simp [speculativeMethod, hm, hspec], fun _ => Or.inl ⟨rfl, rfl⟩⟩
      | none => exact absurd ⟨hm, hspec, hn⟩ hu

lemma get_of_unset [Interpreter] (hfull : setting env (lit "SPECULATIVE_CONFIG") = none) :
    getSpeculativeConfig rt env = buildSpeculativeConfig rt env := by
  rw [getSpeculativeConfig, hfull]

end Config

def ngramEnviron : Environ :=
  environ [(lit "NGRAM_PROMPT_LOOKUP_MAX", lit "4"), (lit "NUM_SPECULATIVE_TOKENS", lit "0")]

def draftEnviron : Environ :=
  environ [(lit "SPECULATIVE_MODEL", lit "m"), (lit "SPECULATIVE_MAX_MODEL_LEN", lit "0")]

end GemmaWorker.EngineArgs
