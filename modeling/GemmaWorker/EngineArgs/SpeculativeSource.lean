import GemmaWorker.EngineArgs.KnownArguments

/-! The two readers of `SPECULATIVE_CONFIG`: `get_speculative_config`, whose result is passed if it is
truthy, and the discovery of the field of that name, whose value stays where it is not. -/

namespace GemmaWorker.EngineArgs

open GemmaWorker.Python

section Source

variable [Interpreter]

/-- The argument is the configuration of `get_speculative_config`, if that has anything in it. -/
def PassesOnlyConfig (rt : Runtime) (env : Environ) (args : Dict) : Prop :=
  ∃ config, getSpeculativeConfig rt env = .ok config ∧
    args.lookup (lit "speculative_config") = if truthy config then some config else none

/-- The field's own converter makes something of the text that the filter does not drop. -/
def Discovered (s : PyStr) : Prop :=
  strip s ∉ emptyWords ∧ (jsonLoads (strip s) = .error .jsonDecodeError ∨
    ∃ v, jsonLoads (strip s) = .ok v ∧ isSentinel v = false)

def NamesConfig (s : PyStr) : Prop :=
  ∃ v, jsonLoads s = .ok v ∧ truthy v = true

end Source

section Discovery

variable {rt : Runtime} {fields : EngineFields} {env : Environ} {file : LocalArgsFile}
variable {t : FieldType} {e : Option Scalar} {s : PyStr}

lemma emptyWord_of_strip_none {s : PyStr} (h : isSentinel (.str (strip s)) = true) :
    strip s ∈ emptyWords := by
  have hcases : strip s = [] ∨ strip s = lit "None" := by simpa [isSentinel, isNone, isStr] using h
  rcases hcases with hs | hs <;> simp [hs, emptyWords]

lemma setting_of_set {name : PyStr} (hs : env name = some s) (hne : s ≠ []) : setting env name = some s := by
  rw [setting, hs, Option.filter_some, if_pos (by simpa using hne)]

variable [Interpreter]

lemma discovered_iff (py : Builtins) (hres : resolveFieldType t = .simple (.dict e))
    (hopt : .noneType ∈ t.args) :
    ((convertEnvValueToFieldType py s t).toOption.filter (fun v => !isSentinel v)).isSome = true ↔
      Discovered s := by
  rw [Discovered, convertEnvValueToFieldType]
  by_cases hempty : strip s ∈ emptyWords
  · simp [hempty, hopt, Except.toOption, isSentinel, isNone]
  · simp only [if_neg hempty, hres, convertJson]
    cases hjson : jsonLoads (strip s) with
    | ok v => cases hv : isSentinel v <;> simp [hempty, Except.toOption, hv]
    | error err =>
      have hset : isSentinel (.str (strip s)) = false := by
        by_contra h
        exact hempty (emptyWord_of_strip_none (by simpa using h))
      obtain (rfl | rfl) | rfl := fails_jsonLoads _ _ hjson <;> simp [hempty, Except.toOption, hset]

lemma layered_speculative (hupper : rt.upper (lit "speculative_config") = lit "SPECULATIVE_CONFIG")
    (ht : fields.type? (lit "speculative_config") = some t)
    (hbaked : ∀ kv ∈ bakedItems file, localTarget rt kv.1 ≠ lit "speculative_config") :
    layered rt fields env file (lit "speculative_config") =
      ((env (lit "SPECULATIVE_CONFIG")).bind fun s =>
        (convertEnvValueToFieldType rt.builtins s t).toOption).filter (fun v => !isSentinel v) := by
  have hlocal : localLayer rt (bakedItems file) (lit "speculative_config") = none := by
    have hnone : (bakedItems file).reverse.find? (fun kv =>
        localTarget rt kv.1 = lit "speculative_config" && !isSentinel kv.2) = none := by
      rw [List.find?_eq_none]
      intro kv hkv
      simp [hbaked kv (List.mem_reverse.mp hkv)]
    rw [localLayer, hnone]
    rfl
  have halias : aliasLayer rt fields env (lit "speculative_config") = none := by
    simp [aliasLayer, envAliases, lit_inj]
  have hdefault : defaultArgs.lookup (lit "speculative_config") = none := by
    have hkeys : lit "speculative_config" ∉ defaultArgs.keys := by
      simp [Dict.keys, defaultArgs, defaultItems, lit_inj]
    by_contra h
    exact hkeys ((Dict.mem_keys_iff _ _).mpr h)
  have hknown : lit "speculative_config" ∈ fields.names := mem_names_iff.mpr ⟨t, ht⟩
  rw [layered, supplied, if_pos hknown]
  simp only [layers, List.findSome?_cons, List.findSome?_nil, hlocal, halias, hdefault, envLayer, ht,
    hupper, Option.bind_some, converted]
  cases (env (lit "SPECULATIVE_CONFIG")).bind fun s =>
    (convertEnvValueToFieldType rt.builtins s t).toOption <;> rfl

lemma lookup_speculative {args : Dict} (h : getEngineArgs rt fields env file = some args)
    {config : Value} (hconfig : getSpeculativeConfig rt env = .ok config) :
    args.lookup (lit "speculative_config") =
      if truthy config then some config else layered rt fields env file (lit "speculative_config") := by
  rw [lookup_getEngineArgs h]
  simp only [lateOverride, normalised, lit_inj, String.reduceEq, if_false, if_true, hconfig,
    Except.toOption, Option.filter_some]
  split_ifs <;> rfl

/-- What the text says of the configuration: a truthy JSON value is one, any other text gives none. -/
lemma config_of_text (hs : env (lit "SPECULATIVE_CONFIG") = some s) (hne : s ≠ []) {config : Value}
    (hconfig : getSpeculativeConfig rt env = .ok config) : truthy config = true ↔ NamesConfig s := by
  rw [getSpeculativeConfig, setting_of_set hs hne] at hconfig
  simp only at hconfig
  rw [NamesConfig]
  split at hconfig
  · next hjson =>
    obtain rfl := Except.ok.inj hconfig
    simp [hjson, truthy]
  · rw [hconfig]
    simp

end Discovery

/-- One configuration is passed exactly when the text in `SPECULATIVE_CONFIG`, if there is any, names
one, or when the field's own converter makes nothing of it. -/
theorem speculative_config_iff [Interpreter] (rt : Runtime) (fields : EngineFields) (env : Environ)
    (file : LocalArgsFile) (t : FieldType) (e : Option Scalar) (args : Dict)
    (hupper : rt.upper (lit "speculative_config") = lit "SPECULATIVE_CONFIG")
    (ht : fields.type? (lit "speculative_config") = some t)
    (hres : resolveFieldType t = .simple (.dict e)) (hopt : .noneType ∈ t.args)
    (hbaked : ∀ kv ∈ bakedItems file, localTarget rt kv.1 ≠ lit "speculative_config")
    (h : getEngineArgs rt fields env file = some args) :
    PassesOnlyConfig rt env args ↔
      ∀ s, env (lit "SPECULATIVE_CONFIG") = some s → NamesConfig s ∨ ¬ Discovered s := by
  obtain ⟨config, hconfig⟩ := (builds_iff.mp ⟨args, h⟩).speculative
  have hlookup := lookup_speculative h hconfig
  have hpasses : PassesOnlyConfig rt env args ↔ truthy config = true ∨
      layered rt fields env file (lit "speculative_config") = none := by
    have hiff : PassesOnlyConfig rt env args ↔
        args.lookup (lit "speculative_config") = if truthy config then some config else none := by
      constructor
      · rintro ⟨config', hconfig', hargs⟩
        obtain rfl := Except.ok.inj (hconfig.symm.trans hconfig')
        exact hargs
      · exact fun hargs => ⟨config, hconfig, hargs⟩
    rw [hiff, hlookup]
    cases truthy config <;> simp
  rw [hpasses, layered_speculative hupper ht hbaked]
  cases hs : env (lit "SPECULATIVE_CONFIG") with
  | none => simp
  | some s =>
    have hdiscovered := discovered_iff (s := s) rt.builtins hres hopt
    have hnone : (convertEnvValueToFieldType rt.builtins s t).toOption.filter
        (fun v => !isSentinel v) = none ↔ ¬ Discovered s := by
      rw [← hdiscovered, Option.isSome_iff_ne_none, not_not]
    simp only [Option.bind_some, hnone, Option.some.injEq, forall_eq']
    by_cases hne : s = []
    · have hquiet : ¬ Discovered s := by
        rintro ⟨hword, _⟩
        exact hword (by simp [hne, strip, emptyWords])
      simp [hquiet]
    · rw [config_of_text hs hne hconfig]

section Example

def speculativeFields : EngineFields where
  items := [(lit "model", .simple (.scalar .str)),
    (lit "speculative_config", .union [.dict none, .noneType])]
  nodup := by decide +kernel

lemma type_speculative : speculativeFields.type? (lit "speculative_config") =
    some (.union [.dict none, .noneType]) := by
  have hmem : (lit "speculative_config", FieldType.union [.dict none, .noneType]) ∈
      speculativeFields.items := by
    simp [speculativeFields]
  exact lookup_of_mem speculativeFields.nodup hmem

lemma upper_speculative : oneGpu.upper (lit "speculative_config") = lit "SPECULATIVE_CONFIG" := by
  decide +kernel

lemma speculative_builds {value : PyStr} (hdeep : jsonLoads (strip value) ≠ .error .recursionError)
    (hconfig : ∃ config, getSpeculativeConfig oneGpu (environ [(lit "SPECULATIVE_CONFIG", value)]) = .ok config) :
    ∃ args, getEngineArgs oneGpu speculativeFields (environ [(lit "SPECULATIVE_CONFIG", value)]) .absent =
      some args := by
  have hshallow (name s : PyStr) (hs : environ [(lit "SPECULATIVE_CONFIG", value)] name = some s) :
      jsonLoads (strip s) ≠ .error .recursionError := by
    rw [environ_cons] at hs
    split_ifs at hs
    · exact Option.some.inj hs ▸ hdeep
    · cases hs
  apply builds_iff.mpr
  refine ⟨shallow_of_texts hshallow, ⟨[], rfl⟩, ?_, ?_, hconfig⟩ <;> simp [setting, lit_inj]

def ngramItems : List (PyStr × Value) :=
  [(lit "method", .str (lit "ngram"))]

lemma json_ngram : jsonLoads ((Value.dict ngramItems).text (lit " ")) = .ok (.dict ngramItems) := by
  apply jsonLoads_strs
  · rfl
  · simp [ngramItems]
  · rintro kv hkv
    obtain rfl := List.mem_singleton.mp hkv
    exact ⟨by decide, lit "ngram", rfl, by decide⟩

theorem ngram_config_passed :
    let env := environ [(lit "SPECULATIVE_CONFIG", (Value.dict ngramItems).text (lit " "))]
    ∃ args, getEngineArgs oneGpu speculativeFields env .absent = some args ∧
      PassesOnlyConfig oneGpu env args := by
  intro env
  have hne : (Value.dict ngramItems).text (lit " ") ≠ [] := by
    rw [Value.text]
    exact List.cons_ne_nil _ _
  have hconfig : getSpeculativeConfig oneGpu env = .ok (.dict ngramItems) := by
    rw [getSpeculativeConfig, setting_of_set (by simp [env]) hne]
    simp only [json_ngram]
  have htrim : strip ((Value.dict ngramItems).text (lit " ")) = (Value.dict ngramItems).text (lit " ") := by
    decide +kernel
  have hdeep : jsonLoads (strip ((Value.dict ngramItems).text (lit " "))) ≠ .error .recursionError := by
    rw [htrim, json_ngram]
    rintro ⟨⟩
  obtain ⟨args, hargs⟩ := speculative_builds hdeep ⟨_, hconfig⟩
  refine ⟨args, hargs, (speculative_config_iff oneGpu speculativeFields env .absent _ none args
    upper_speculative type_speculative rfl (by decide) (by simp [bakedItems, getLocalArgs]) hargs).mpr ?_⟩
  intro s hs
  obtain rfl : (Value.dict ngramItems).text (lit " ") = s := by simpa [env] using hs
  exact Or.inl ⟨_, json_ngram, by simp [truthy, ngramItems]⟩

/-- The text that is no JSON: one reader passes it over, the other passes it on as it stands. -/
theorem invalid_json_passed_as_text :
    let env := environ [(lit "SPECULATIVE_CONFIG", lit "ngram")]
    jsonLoads (lit "ngram") = .error .jsonDecodeError ∧ getSpeculativeConfig oneGpu env = .ok .none ∧
      ∃ args, getEngineArgs oneGpu speculativeFields env .absent = some args ∧
        args.lookup (lit "speculative_config") = some (.str (lit "ngram")) ∧
        ¬ PassesOnlyConfig oneGpu env args := by
  intro env
  have hfails : (jsonLoads (lit "ngram")).map (fun _ => ()) = .error .jsonDecodeError := by decide +kernel
  have hjson : jsonLoads (lit "ngram") = .error .jsonDecodeError := by
    cases h : jsonLoads (lit "ngram") with
    | ok v => simp [h, Except.map] at hfails
    | error e => simpa [h, Except.map] using hfails
  have hne : lit "ngram" ≠ [] := by decide
  have hconfig : getSpeculativeConfig oneGpu env = .ok .none := by
    rw [getSpeculativeConfig, setting_of_set (by simp [env]) hne]
    simp only [hjson]
  have hconvert : convertEnvValueToFieldType oneGpu.builtins (lit "ngram")
      (.union [.dict none, .noneType]) = .ok (.str (lit "ngram")) := by
    have hstrip : strip (lit "ngram") = lit "ngram" := by decide
    have hword : lit "ngram" ∉ emptyWords := by decide
    have hres : resolveFieldType (.union [.dict none, .noneType]) = .simple (.dict none) := rfl
    simp [convertEnvValueToFieldType, hstrip, hword, hres, convertJson, hjson]
  obtain ⟨args, hargs⟩ := speculative_builds (jsonLoads_flat (by decide)) ⟨_, hconfig⟩
  have hlookup : args.lookup (lit "speculative_config") = some (.str (lit "ngram")) := by
    have hlayered := @layered_speculative oneGpu speculativeFields env .absent _ _
      upper_speculative type_speculative (by simp [bakedItems, getLocalArgs])
    rw [lookup_speculative hargs hconfig, hlayered]
    simp [truthy, env, hconvert, Except.toOption, isSentinel, isNone, isStr, lit_inj, hne]
  refine ⟨hjson, hconfig, args, hargs, hlookup, ?_⟩
  rintro ⟨config, hconfig', hpassed⟩
  obtain rfl := Except.ok.inj (hconfig.symm.trans hconfig')
  cases hlookup.symm.trans hpassed

end Example

end GemmaWorker.EngineArgs
