import GemmaWorker.EngineArgs.ConvertErrors

/-! What each layer supplies for a field, and that the dictionary holds what the highest one supplies. -/

namespace GemmaWorker.EngineArgs

open GemmaWorker.Python

section Layers

variable [Interpreter] (rt : Runtime) (fields : EngineFields) (env : Environ) (baked : List (PyStr × Value))

def converted (name : PyStr) (t : FieldType) : Option Value :=
  (env name).bind fun s => (convertEnvValueToFieldType rt.builtins s t).toOption

def localLayer (f : PyStr) : Option Value :=
  (baked.reverse.find? (fun kv => localTarget rt kv.1 = f && !isSentinel kv.2)).map Prod.snd

def aliasLayer (f : PyStr) : Option Value :=
  (envAliases.find? (fun entry => entry.2 = f)).bind fun entry =>
    (fields.type? f).bind (converted rt env entry.1)

def envLayer (f : PyStr) : Option Value :=
  (fields.type? f).bind (converted rt env (rt.upper f))

def layers : List (PyStr → Option Value) :=
  [localLayer rt baked, aliasLayer rt fields env, envLayer rt fields env, defaultArgs.lookup]

def supplied (f : PyStr) : Option Value :=
  if f ∈ fields.names then (layers rt fields env baked).findSome? (fun layer => layer f) else none

/-- A variable of a container field that nests deeper than `json.loads` reads. -/
def TooDeep (name : PyStr) (t : FieldType) : Prop :=
  ∃ s, env name = some s ∧ jsonLoads (strip s) = .error .recursionError ∧ ReadsJson t

/-- No variable that is converted nests too deep. -/
structure Shallow : Prop where
  discovered : ∀ field ∈ fields.items, ¬ TooDeep env (rt.upper field.1) field.2
  aliased : ∀ entry ∈ envAliases, ∀ t, fields.type? entry.2 = some t → ¬ TooDeep env entry.1 t

end Layers

section Dictionaries

variable {α : Type} (key : α → PyStr) (val : α → Option Value) {items : List α}

lemma lookup_foldl_write (hnodup : (items.map key).Nodup) (d : Dict) (f : PyStr) :
    (items.foldl (fun d a => d.write (key a) (val a)) d).lookup f =
      ((items.find? (fun a => key a = f)).bind val).or (d.lookup f) := by
  induction items generalizing d with
  | nil => rfl
  | cons a items ih =>
    obtain ⟨ha, hitems⟩ := List.nodup_cons.mp hnodup
    rw [List.foldl_cons, ih hitems, Dict.lookup_write, List.find?_cons]
    by_cases h : f = key a
    · subst h
      have hno : items.find? (fun b => key b = key a) = none := by
        rw [List.find?_eq_none]
        intro b hb he
        exact ha (of_decide_eq_true he ▸ List.mem_map_of_mem hb)
      simp [hno]
    · simp [h, Ne.symm h]

lemma find_fst (items : List (PyStr × α)) (f : PyStr) :
    items.find? (fun kv => kv.1 = f) = (items.lookup f).map (fun a => (f, a)) := by
  induction items with
  | nil => rfl
  | cons kv items ih =>
    rw [List.find?_cons, List.lookup_cons]
    by_cases h : kv.1 = f
    · subst h
      simp
    · simp [h, ih, beq_eq_false_iff_ne.mpr (Ne.symm h)]

end Dictionaries

section Environment

variable {rt : Runtime} {fields : EngineFields} {env : Environ}

lemma mem_names_iff {f : PyStr} : f ∈ fields.names ↔ ∃ t, fields.type? f = some t := by
  rw [← Option.ne_none_iff_exists', EngineFields.type?, Ne, List.lookup_eq_none_iff,
    EngineFields.names, List.mem_map]
  constructor
  · rintro ⟨kv, hkv, rfl⟩ h
    exact bne_iff_ne.mp (h kv hkv) rfl
  · intro h
    by_contra hno
    exact h fun kv hkv => bne_iff_ne.mpr fun he => hno ⟨kv, hkv, he.symm⟩

lemma mem_of_type {f : PyStr} {t : FieldType} (h : fields.type? f = some t) : (f, t) ∈ fields.items := by
  obtain ⟨before, after, hitems, -⟩ := List.lookup_eq_some_iff.mp h
  simp [hitems]

lemma foldlM_eq_some {α : Type} {step : Dict → α → Option Dict} {write : Dict → α → Dict} {items : List α}
    {passes : α → Prop} (h : ∀ a ∈ items, ∀ d d', step d a = some d' ↔ passes a ∧ d' = write d a) (d d' : Dict) :
    items.foldlM step d = some d' ↔ (∀ a ∈ items, passes a) ∧ d' = items.foldl write d := by
  induction items generalizing d with
  | nil => simp [eq_comm]
  | cons a items ih =>
    have hrest := ih fun b hb => h b (List.mem_cons_of_mem a hb)
    rw [List.foldlM_cons, Option.bind_eq_bind, Option.bind_eq_some_iff, List.foldl_cons, List.forall_mem_cons]
    constructor
    · rintro ⟨c, hc, hd⟩
      obtain ⟨ha, rfl⟩ := (h a List.mem_cons_self d c).mp hc
      obtain ⟨hpasses, hfold⟩ := (hrest _).mp hd
      exact ⟨⟨ha, hpasses⟩, hfold⟩
    · rintro ⟨⟨ha, hpasses⟩, hfold⟩
      exact ⟨_, (h a List.mem_cons_self d _).mpr ⟨ha, rfl⟩, (hrest _).mpr ⟨hpasses, hfold⟩⟩

variable [Interpreter]

lemma readVariable_eq_some {name f : PyStr} {t : FieldType} {args d : Dict} :
    readVariable rt env name f t args = some d ↔
      ¬ TooDeep env name t ∧ d = args.write f (converted rt env name t) := by
  rw [readVariable, TooDeep, converted]
  cases env name with
  | none => simp [Dict.write, eq_comm]
  | some s =>
    have hdeep : (∃ r, some s = some r ∧ jsonLoads (strip r) = .error .recursionError ∧ ReadsJson t) ↔
        convertEnvValueToFieldType rt.builtins s t = .error .recursionError := by
      simp [convert_tooDeep_iff]
    rw [hdeep]
    cases hc : convertEnvValueToFieldType rt.builtins s t with
    | ok v => simp [setConverted, hc, Except.toOption, Dict.write, eq_comm]
    | error e =>
      obtain hskip | ⟨rfl, -⟩ := fails_convert s e hc
      · have hne : e ≠ .recursionError := by
          rintro rfl
          cases hskip
        simp [setConverted, hc, hskip, hne, Except.toOption, Dict.write, eq_comm]
      · simp [setConverted, hc, skipped]

lemma discover_eq_some {d : Dict} : getArgsFromEnvAutoDiscover rt fields env = some d ↔
    (∀ field ∈ fields.items, ¬ TooDeep env (rt.upper field.1) field.2) ∧ d = fields.items.foldl
      (fun d field => d.write field.1 (converted rt env (rt.upper field.1) field.2)) Dict.empty := by
  rw [getArgsFromEnvAutoDiscover]
  refine foldlM_eq_some (fun field _ args d => ?_) _ _
  exact readVariable_eq_some

def aliasValue (rt : Runtime) (fields : EngineFields) (env : Environ) (entry : PyStr × PyStr) :
    Option Value :=
  (fields.type? entry.2).bind (converted rt env entry.1)

lemma aliases_eq_some {args d : Dict} : applyEnvAliases rt fields env args = some d ↔
    (∀ entry ∈ envAliases, ∀ t, fields.type? entry.2 = some t → ¬ TooDeep env entry.1 t) ∧ d = envAliases.foldl
      (fun d entry => d.write entry.2 (aliasValue rt fields env entry)) args := by
  rw [applyEnvAliases]
  refine foldlM_eq_some (fun entry _ args d => ?_) _ _
  rw [aliasValue]
  cases fields.type? entry.2 with
  | none => simp [Dict.write, eq_comm]
  | some t => simpa using readVariable_eq_some

lemma lookup_discover {d : Dict} (h : getArgsFromEnvAutoDiscover rt fields env = some d) (f : PyStr) :
    d.lookup f = envLayer rt fields env f := by
  obtain ⟨-, rfl⟩ := discover_eq_some.mp h
  rw [lookup_foldl_write _ _ fields.nodup, find_fst, Dict.lookup_empty, Option.or_none, envLayer,
    EngineFields.type?]
  cases fields.items.lookup f <;> rfl

lemma lookup_aliases {args d : Dict} (h : applyEnvAliases rt fields env args = some d) (f : PyStr) :
    d.lookup f = (aliasLayer rt fields env f).or (args.lookup f) := by
  obtain ⟨-, rfl⟩ := aliases_eq_some.mp h
  rw [lookup_foldl_write _ _ (by decide), aliasLayer]
  cases hfind : envAliases.find? (fun entry => entry.2 = f) with
  | none => rfl
  | some entry =>
    have hf : entry.2 = f := by simpa using List.find?_some hfind
    rw [Option.bind_some, Option.bind_some, aliasValue, hf]

end Environment

section BakedFile

variable {rt : Runtime} {fields : EngineFields}

lemma lookup_localArgs (baked : List (PyStr × Value)) (f : PyStr) :
    (localArgsToEngineArgs rt fields baked).lookup f =
      if f ∈ fields.names then localLayer rt baked f else none := by
  have hfold (out : Dict) : (baked.foldl (fun out kv =>
      if localTarget rt kv.1 ∉ fields.names ∨ isSentinel kv.2 then out
      else out.set (localTarget rt kv.1) kv.2) out).lookup f =
      (if f ∈ fields.names then localLayer rt baked f else none).or (out.lookup f) := by
    induction baked generalizing out with
    | nil => simp [localLayer]
    | cons kv baked ih =>
      rw [List.foldl_cons, ih]
      have hlayer : localLayer rt (kv :: baked) f = (localLayer rt baked f).or
          (if localTarget rt kv.1 = f ∧ isSentinel kv.2 = false then some kv.2 else none) := by
        rw [localLayer, List.reverse_cons, List.find?_append, localLayer]
        cases baked.reverse.find? (fun kv => localTarget rt kv.1 = f && !isSentinel kv.2) with
        | some kv' => rfl
        | none => by_cases h : localTarget rt kv.1 = f ∧ isSentinel kv.2 = false <;> simp_all
      rw [hlayer]
      by_cases hf : f ∈ fields.names
      · by_cases ht : localTarget rt kv.1 = f
        · subst ht
          cases isSentinel kv.2 <;> simp [hf]
        · simp only [hf, ht, false_and, if_true, if_false, Option.or_none]
          split_ifs
          · rfl
          · rw [Dict.lookup_set, if_neg (Ne.symm ht)]
      · simp only [hf, if_false, Option.none_or]
        split_ifs with h
        · rfl
        · have hne : f ≠ localTarget rt kv.1 := by
            rintro rfl
            exact h (Or.inl hf)
          rw [Dict.lookup_set, if_neg hne]
  rw [localArgsToEngineArgs, hfold, Dict.lookup_empty, Option.or_none]

end BakedFile

section Assembly

variable [Interpreter] {rt : Runtime} {fields : EngineFields} {env : Environ} {file : LocalArgsFile}

lemma layeredArgs_isSome : (layeredArgs rt fields env file).isSome = true ↔
    Shallow rt fields env ∧ (getLocalArgs file).isSome = true := by
  simp only [layeredArgs, Option.isSome_iff_exists, Option.bind_eq_bind, Option.bind_eq_some_iff,
    discover_eq_some, aliases_eq_some]
  constructor
  · rintro ⟨d, discovered, ⟨hfield, -⟩, aliased, ⟨halias, -⟩, baked, hbaked, -⟩
    exact ⟨⟨hfield, halias⟩, baked, hbaked⟩
  · rintro ⟨hshallow, baked, hbaked⟩
    exact ⟨_, _, ⟨hshallow.discovered, rfl⟩, _, ⟨hshallow.aliased, rfl⟩, baked, hbaked, rfl⟩

/-- A known argument has the value of the highest layer, if that is not one that stands for nothing. -/
theorem lookup_layeredArgs {args : Dict} (h : layeredArgs rt fields env file = some args) :
    ∃ baked, getLocalArgs file = some baked ∧ ∀ f, args.lookup f =
      (supplied rt fields env baked f).filter (fun v => !isSentinel v) := by
  obtain ⟨discovered, hd, h⟩ := Option.bind_eq_some_iff.mp h
  obtain ⟨aliased, ha, h⟩ := Option.bind_eq_some_iff.mp h
  obtain ⟨baked, hb, h⟩ := Option.bind_eq_some_iff.mp h
  obtain rfl := Option.some.inj h
  refine ⟨baked, hb, fun f => ?_⟩
  rw [Dict.lookup_filter, Dict.lookup_update, Dict.lookup_reverse, lookup_localArgs, lookup_aliases ha,
    Dict.lookup_update, Dict.lookup_reverse, lookup_discover hd, supplied]
  by_cases hf : f ∈ fields.names
  · simp only [hf, decide_true, Bool.true_and, if_true]
    refine congrArg _ ?_
    simp only [layers, List.findSome?_cons, List.findSome?_nil]
    cases localLayer rt baked f <;> cases aliasLayer rt fields env f <;> cases envLayer rt fields env f <;>
      cases defaultArgs.lookup f <;> rfl
  · simp [hf]

end Assembly

end GemmaWorker.EngineArgs
