import GemmaWorker.EngineArgs.KnownArguments

/-! Which layer the value of an argument comes from. -/

namespace GemmaWorker.EngineArgs

open GemmaWorker.Python

section Law

variable [Interpreter] (rt : Runtime) (fields : EngineFields) (env : Environ) (file : LocalArgsFile)

def chosen (f : PyStr) : Option Value :=
  (supplied rt fields env (bakedItems file) f).filter (fun v => !isNone v)

def lawValue (f : PyStr) : Value :=
  (normalised rt (chosen rt fields env file) f).getD .none

def isEmptyText (v : Value) : Bool :=
  isStr v [] || isStr v (lit "None")

/-- Nothing is written over the law's value, and it is not dropped as a text that stands for nothing. -/
def KeepsLaw (f : PyStr) : Prop :=
  match lateOverride rt env (layered rt fields env file) f with
  | some v => v = lawValue rt fields env file f
  | none => isEmptyText (lawValue rt fields env file f) = false

end Law

section Dropping

variable {rt : Runtime} {g b : PyStr → Option Value} {f : PyStr}

lemma isEmptyText_str {v : Value} (h : isEmptyText v = true) : v = .str [] ∨ v = .str (lit "None") := by
  cases v <;> simp_all [isEmptyText, isStr]

lemma emptyText_tests {v : Value} (h : isEmptyText v = true) : isZero v = false ∧ isNone v = false ∧
    isStr v (lit "bitsandbytes") = false ∧ isStr v (lit "fp8_e5m2") = false := by
  rcases isEmptyText_str h with rfl | rfl <;> decide

def DropsTexts (g b : PyStr → Option Value) : Prop :=
  ∀ f, b f = (g f).filter (fun v => !isEmptyText v)

lemma DropsTexts.kept (h : DropsTexts g b) (hf : isEmptyText (valueOf g f) = false) : b f = g f := by
  rw [h]
  rw [valueOf] at hf
  cases hg : g f with
  | none => rfl
  | some v => simp_all

lemma DropsTexts.dropped (h : DropsTexts g b) (hf : isEmptyText (valueOf g f) = true) :
    b f = none ∧ g f = some (valueOf g f) := by
  rw [h, valueOf] at *
  cases hg : g f with
  | none =>
    rw [hg] at hf
    cases hf
  | some v => simp_all

lemma DropsTexts.loadFormat (h : DropsTexts g b) : isStr (valueOf b (lit "load_format")) (lit "bitsandbytes") =
    isStr (valueOf g (lit "load_format")) (lit "bitsandbytes") := by
  cases ht : isEmptyText (valueOf g (lit "load_format")) with
  | false => rw [valueOf, valueOf, h.kept ht]
  | true =>
    rw [(emptyText_tests ht).2.2.1, valueOf, (h.dropped ht).1]
    rfl

lemma normalised_congr (hf : b f = g f)
    (hl : isStr (valueOf b (lit "load_format")) (lit "bitsandbytes") =
      isStr (valueOf g (lit "load_format")) (lit "bitsandbytes"))
    (hfill : f = lit "max_num_batched_tokens" → filledTokens rt b = filledTokens rt g) :
    normalised rt b f = normalised rt g f := by
  have hv : valueOf b f = valueOf g f := by rw [valueOf, valueOf, hf]
  by_cases h : f = lit "max_num_batched_tokens"
  · rw [normalised, normalised, hf, hl, hv, hfill h]
  · simp only [normalised, hf, hl, hv, if_neg h]

lemma sanitize_cases (rt : Runtime) (v : Value) :
    sanitizeHfOverrides rt v = v ∨ sanitizeHfOverrides rt v = .none ∨
      ∃ items, sanitizeHfOverrides rt v = .dict items := by
  cases v with
  | dict items =>
    rw [sanitizeHfOverrides]
    split
    · exact Or.inl rfl
    · split_ifs
      · split
        · exact Or.inr (Or.inl rfl)
        · exact Or.inr (Or.inr ⟨_, rfl⟩)
      · exact Or.inl rfl
  | _ => exact Or.inl rfl

lemma filledTokens_not_empty (hb : ∀ f, isEmptyText (valueOf b f) = false) :
    isEmptyText (filledTokens rt b) = false := by
  rw [filledTokens]
  split_ifs
  · rw [resolveMaxModelLen]
    split
    · rfl
    · split <;> rfl
  · exact hb _

lemma normalised_not_empty (hb : ∀ f, isEmptyText (valueOf b f) = false) :
    isEmptyText ((normalised rt b f).getD .none) = false := by
  have hbf := hb f
  rw [normalised]
  split_ifs
  · cases hv : b f with
    | none => rfl
    | some v =>
      rw [valueOf, hv, Option.getD_some] at hbf
      rw [Option.bind_some]
      split_ifs
      · rcases sanitize_cases rt v with h | h | ⟨items, h⟩
        · rw [h]
          exact hbf
        · rw [h]
          rfl
        · rw [h]
          rfl
      · rfl
  · decide
  · exact hbf
  · rfl
  · exact hbf
  · rfl
  · exact hbf
  · decide
  · exact hbf
  · rfl
  · exact hbf
  · cases b f <;> rfl
  · exact filledTokens_not_empty hb
  · exact hbf
  · exact hbf

lemma DropsTexts.not_empty (h : DropsTexts g b) (f : PyStr) : isEmptyText (valueOf b f) = false := by
  cases ht : isEmptyText (valueOf g f) with
  | true =>
    rw [valueOf, (h.dropped ht).1]
    rfl
  | false =>
    rw [valueOf, h.kept ht]
    exact ht

/-- Where an empty text was dropped and none is due, the normalisations had put something else. -/
lemma DropsTexts.normalised_dropped (h : DropsTexts g b) (ht : isEmptyText (valueOf g f) = true)
    (hlaw : isEmptyText ((normalised rt g f).getD .none) = false) :
    (normalised rt b f).getD .none = (normalised rt g f).getD .none := by
  obtain ⟨hb, hg⟩ := h.dropped ht
  obtain ⟨hzero, hnone, -, hkv⟩ := emptyText_tests ht
  have hu : unset (valueOf g f) = false := by rw [unset, hnone, hzero]; rfl
  have hstuck (hn : normalised rt g f = g f) : False := by
    rw [hn, hg, Option.getD_some, ht] at hlaw
    cases hlaw
  by_cases h1 : f = lit "hf_overrides"
  · have hsame : sanitizeHfOverrides rt (valueOf g f) = valueOf g f := by
      rcases isEmptyText_str ht with hv | hv <;> rw [hv] <;> rfl
    have hnormal : normalised rt g f = if truthy (valueOf g f) then some (valueOf g f) else none := by
      rw [normalised, if_pos h1, hg, Option.bind_some, hsame]
    cases htruthy : truthy (valueOf g f) with
    | true =>
      rw [htruthy, if_pos rfl, ← hg] at hnormal
      exact (hstuck hnormal).elim
    | false =>
      rw [hnormal, htruthy, normalised, if_pos h1, hb]
      rfl
  by_cases h2 : f = lit "quantization"
  · cases hl : isStr (valueOf g (lit "load_format")) (lit "bitsandbytes") with
    | true => simp [normalised, h2, lit_inj, h.loadFormat, hl]
    | false => exact (hstuck (by simp [normalised, h2, lit_inj, hl])).elim
  by_cases h3 : f = lit "tensor_parallel_size" ∨ f = lit "max_parallel_loading_workers"
  · by_cases hgpus : 1 < rt.deviceCount
    · rcases h3 with rfl | rfl <;> simp [normalised, lit_inj, hgpus]
    · exact (hstuck (by rcases h3 with rfl | rfl <;> simp [normalised, lit_inj, hgpus])).elim
  · rw [not_or] at h3
    exact (hstuck (by simp [normalised, h1, h2, h3, hkv, hzero, hu])).elim

end Dropping

section Main

variable [Interpreter] {rt : Runtime} {fields : EngineFields} {env : Environ} {file : LocalArgsFile} {f : PyStr}

lemma layered_drops : DropsTexts (chosen rt fields env file) (layered rt fields env file) := by
  intro f
  have hsentinel : (fun v => !isSentinel v) = fun v => !isNone v && !isEmptyText v := by
    funext v
    rw [isSentinel, isEmptyText, Bool.or_assoc, Bool.not_or]
  rw [layered, chosen, hsentinel, Option.filter_filter]

lemma chosen_unknown (hf : f ∉ fields.names) : chosen rt fields env file f = none := by
  rw [chosen, supplied, if_neg hf]
  rfl

lemma keeps_plain (hkeep : ∀ f ∈ fields.names, KeepsLaw rt fields env file f)
    (hlate : lateOverride rt env (layered rt fields env file) f = none)
    (hplain : isEmptyText (valueOf (chosen rt fields env file) f) = true →
      normalised rt (chosen rt fields env file) f = chosen rt fields env file f) :
    layered rt fields env file f = chosen rt fields env file f := by
  by_cases hf : f ∈ fields.names
  · refine layered_drops.kept ?_
    have hlaw := hkeep f hf
    rw [KeepsLaw, hlate] at hlaw
    by_contra ht
    rw [Bool.not_eq_false] at ht
    rw [lawValue, hplain ht] at hlaw
    exact absurd (hlaw.symm.trans ht) (by simp)
  · rw [layered_drops f, chosen_unknown hf]
    rfl

lemma keeps_filledTokens (hkeep : ∀ f ∈ fields.names, KeepsLaw rt fields env file f) :
    filledTokens rt (layered rt fields env file) = filledTokens rt (chosen rt fields env file) := by
  have hlen : layered rt fields env file (lit "max_model_len") =
      chosen rt fields env file (lit "max_model_len") := by
    refine keeps_plain hkeep (by simp [lateOverride, lit_inj]) fun ht => ?_
    simp [normalised, lit_inj, (emptyText_tests ht).1]
  have hother {f : PyStr} (hf : f = lit "model" ∨ f = lit "trust_remote_code" ∨ f = lit "revision") :
      layered rt fields env file f = chosen rt fields env file f := by
    rcases hf with rfl | rfl | rfl
    all_goals
      exact keeps_plain hkeep (by simp [lateOverride, lit_inj]) fun _ => by simp [normalised, lit_inj]
  rw [filledTokens, filledTokens, valueOf, valueOf, valueOf, valueOf, valueOf, valueOf, hlen,
    hother (Or.inl rfl), hother (Or.inr (Or.inl rfl)), hother (Or.inr (Or.inr rfl))]

lemma keeps_normalised (hkeep : ∀ f ∈ fields.names, KeepsLaw rt fields env file f)
    (hlaw : isEmptyText (lawValue rt fields env file f) = false) :
    (normalised rt (layered rt fields env file) f).getD .none = lawValue rt fields env file f := by
  cases ht : isEmptyText (valueOf (chosen rt fields env file) f) with
  | true => exact layered_drops.normalised_dropped ht hlaw
  | false =>
    rw [normalised_congr (layered_drops.kept ht) layered_drops.loadFormat
      (fun _ => keeps_filledTokens hkeep), lawValue]

/-- The order of the layers decides every known field exactly when no special case writes another value
over it from the environment and no chosen text is one of those that stand for nothing. -/
theorem precedence_iff {args : Dict} (h : getEngineArgs rt fields env file = some args) :
    (∀ f ∈ fields.names, args.get f = lawValue rt fields env file f) ↔
      ∀ f ∈ fields.names, KeepsLaw rt fields env file f := by
  constructor
  · intro hlaw f hf
    have hget := hlaw f hf
    rw [Dict.get, lookup_getEngineArgs h] at hget
    rw [KeepsLaw]
    cases hlate : lateOverride rt env (layered rt fields env file) f with
    | some v =>
      rw [hlate] at hget
      exact hget
    | none =>
      rw [hlate, Option.none_or] at hget
      simp only [← hget]
      exact normalised_not_empty layered_drops.not_empty
  · intro hkeep f hf
    have hlaw := hkeep f hf
    rw [KeepsLaw] at hlaw
    rw [Dict.get, lookup_getEngineArgs h]
    cases hlate : lateOverride rt env (layered rt fields env file) f with
    | some v =>
      rw [hlate] at hlaw
      exact hlaw
    | none =>
      rw [hlate] at hlaw
      rw [Option.none_or]
      exact keeps_normalised hkeep hlaw

end Main

section Example

theorem baked_length_kept : ∃ args, getEngineArgs oneGpu currentFields
      (environ [(lit "MAX_MODEL_LEN", lit "4096")]) (.text (lit "\x7b\"max_model_len\": 2048\x7d")) = some args ∧
    ∀ f ∈ currentFields.names, args.get f = lawValue oneGpu currentFields
      (environ [(lit "MAX_MODEL_LEN", lit "4096")]) (.text (lit "\x7b\"max_model_len\": 2048\x7d")) f := by
  have hbaked : (getLocalArgs (.text (lit "\x7b\"max_model_len\": 2048\x7d"))).isSome = true := by
    decide +kernel
  obtain ⟨items, hitems⟩ := Option.isSome_iff_exists.mp hbaked
  have hbuilds : Builds oneGpu currentFields (environ [(lit "MAX_MODEL_LEN", lit "4096")])
      (.text (lit "\x7b\"max_model_len\": 2048\x7d")) := by
    apply builds_of_unset (environ_shallow (by decide)) hitems <;> simp [lit_inj]
  obtain ⟨args, h⟩ := builds_iff.mpr hbuilds
  refine ⟨args, h, (precedence_iff h).mpr fun f hf => ?_⟩
  have hquiet : ∀ f ∈ currentFields.names, (lateOverride oneGpu
      (environ [(lit "MAX_MODEL_LEN", lit "4096")]) (layered oneGpu currentFields
        (environ [(lit "MAX_MODEL_LEN", lit "4096")]) (.text (lit "\x7b\"max_model_len\": 2048\x7d"))) f).isNone =
      true ∧ isEmptyText (lawValue oneGpu currentFields
        (environ [(lit "MAX_MODEL_LEN", lit "4096")]) (.text (lit "\x7b\"max_model_len\": 2048\x7d")) f) =
          false := by
    decide +kernel
  rw [KeepsLaw, Option.isNone_iff_eq_none.mp (hquiet f hf).1]
  exact (hquiet f hf).2

def onlyLimit : Value → Option ℤ
  | .dict [(_, .int n)] => some n
  | _ => none

/-- A limit for images baked into the file, and another one in the environment. -/
theorem environment_over_baked : ¬ ∀ (rt : Runtime) (fields : EngineFields) (env : Environ)
    (file : LocalArgsFile) (args : Dict), getEngineArgs rt fields env file = some args →
      ∀ f ∈ fields.names, args.get f = lawValue rt fields env file f := by
  intro hall
  have hbaked : (getLocalArgs (.text (lit "\x7b\"limit_mm_per_prompt\": \x7b\"image\": 2\x7d\x7d"))).isSome =
      true := by
    decide +kernel
  have hread : (convertLimitMmPerPrompt (lit "image=1")).toOption.any (fun v => onlyLimit v = some 1) = true := by
    decide +kernel
  obtain ⟨items, hitems⟩ := Option.isSome_iff_exists.mp hbaked
  obtain ⟨v, hv, hone⟩ := (Option.any_eq_true _ _).mp hread
  have hlimit : convertLimitMmPerPrompt (lit "image=1") = .ok v := by
    cases hc : convertLimitMmPerPrompt (lit "image=1") with
    | error e => simp [hc, Except.toOption] at hv
    | ok w => simpa [hc, Except.toOption] using hv
  have hbuilds : Builds oneGpu currentFields (environ [(lit "LIMIT_MM_PER_PROMPT", lit "image=1")])
      (.text (lit "\x7b\"limit_mm_per_prompt\": \x7b\"image\": 2\x7d\x7d")) := by
    apply builds_of_unset (environ_shallow (by decide)) hitems <;> simp [lit_inj, hlimit]
  obtain ⟨args, h⟩ := builds_iff.mpr hbuilds
  have hfield : lit "limit_mm_per_prompt" ∈ currentFields.names := by
    simp [EngineFields.names, currentFields, lit_inj]
  have hlaw := hall _ currentFields _ _ args h (lit "limit_mm_per_prompt") hfield
  have hargs : args.get (lit "limit_mm_per_prompt") = v := by
    rw [Dict.get, lookup_getEngineArgs h]
    simp [lateOverride, hv]
  have htwo : onlyLimit (lawValue oneGpu currentFields
      (environ [(lit "LIMIT_MM_PER_PROMPT", lit "image=1")])
      (.text (lit "\x7b\"limit_mm_per_prompt\": \x7b\"image\": 2\x7d\x7d")) (lit "limit_mm_per_prompt")) =
        some 2 := by
    decide +kernel
  rw [← hlaw, hargs, of_decide_eq_true hone] at htwo
  cases htwo

end Example

end GemmaWorker.EngineArgs
