import GemmaWorker.EngineArgs.MalformedVariable

/-! The two notations of `LIMIT_MM_PER_PROMPT`. The converter of dict fields reads JSON, but what reaches
vLLM is the result of `convert_limit_mm_per_prompt`, which reads `name=value` pairs. -/

namespace GemmaWorker.EngineArgs

open GemmaWorker.Python

section Notations

variable (m : List (PyStr × ℕ))

def limitItems : List (PyStr × Value) :=
  m.map (fun kv => (kv.1, .int kv.2))

def pairText (kv : PyStr × ℕ) : PyStr :=
  kv.1 ++ ch '=' :: natText kv.2

inductive Style
  | pairs
  | json
deriving DecidableEq

/-- The ways to write a map of limits: its pairs, or a JSON object with any blanks behind separators. -/
inductive Writes (m : List (PyStr × ℕ)) : Style → PyStr → Prop
  | pairs : Writes m .pairs (joinCommas (m.map pairText))
  | json {w : PyStr} (hw : IsBlank w) : Writes m .json ((Value.dict (limitItems m)).text w)

/-- A map of limits: no name twice, and no name with a separator in it. -/
structure IsLimitMap : Prop where
  nodup : (m.map Prod.fst).Nodup
  plain : ∀ kv ∈ m, ch ',' ∉ kv.1 ∧ ch '=' ∉ kv.1

def PassesLimits [Interpreter] (rt : Runtime) (fields : EngineFields) (env : Environ) (file : LocalArgsFile) :
    Prop :=
  ∃ args, getEngineArgs rt fields env file = some args ∧
    args.lookup (lit "limit_mm_per_prompt") = some (.dict (limitItems m))

end Notations

section Pairs

variable {m : List (PyStr × ℕ)}

lemma notMem_natText {c : CodePoint} (hc : c.val < 48 ∨ 57 < c.val) (n : ℕ) : c ∉ natText n := by
  intro h
  obtain ⟨d, hd⟩ := mem_natText h
  exact digit_ne d hc hd.symm

lemma split_joinCommas {texts : List PyStr} (hne : texts ≠ []) (h : ∀ t ∈ texts, ch ',' ∉ t) :
    split (ch ',') (joinCommas texts) = texts := by
  induction texts with
  | nil => exact absurd rfl hne
  | cons t texts ih =>
    have ht : ch ',' ∉ t := h t List.mem_cons_self
    cases texts with
    | nil => exact split_of_notMem ht
    | cons u texts =>
      rw [joinCommas, split_append_cons ht, ih (by simp) fun x hx => h x (List.mem_cons_of_mem t hx)]

lemma comma_notMem_pairText (h : IsLimitMap m) : ∀ t ∈ m.map pairText, ch ',' ∉ t := by
  intro t ht
  obtain ⟨kv, hkv, rfl⟩ := List.mem_map.mp ht
  have hnat := notMem_natText (c := ch ',') (by decide) kv.2
  simpa [pairText, (h.plain kv hkv).1] using hnat

lemma notMem_pairs {c : CodePoint} (hc : c.val < 48 ∨ 57 < c.val) (hsep : c ≠ ch ',' ∧ c ≠ ch '=')
    (h : ∀ kv ∈ m, c ∉ kv.1) : c ∉ joinCommas (m.map pairText) := by
  induction m with
  | nil => exact List.not_mem_nil
  | cons kv m ih =>
    have hpair : c ∉ pairText kv := by
      simp [pairText, h kv List.mem_cons_self, hsep.2, notMem_natText hc]
    have hrest := ih fun kv' h' => h kv' (List.mem_cons_of_mem kv h')
    cases m with
    | nil => exact hpair
    | cons kv' m => simpa [joinCommas, hpair, hsep.1] using hrest

lemma split_pairText {kv : PyStr × ℕ} (h : ch '=' ∉ kv.1) :
    split (ch '=') (pairText kv) = [kv.1, natText kv.2] := by
  rw [pairText, split_append_cons h, split_of_notMem (notMem_natText (by decide) _)]

lemma pyInt_natText (n : ℕ) : pyInt (natText n) = if FitsInt n then .ok (n : ℤ) else .error .valueError := by
  have htext : intText (n : ℤ) = natText n := by
    rw [intText, if_neg (by omega), Int.natAbs_natCast]
  rw [← htext, pyInt_intText]

/-- The step of the loop over the pairs. -/
def readPair (result : Dict) (pair : PyStr) : Except PyError Dict :=
  match split (ch '=') pair with
  | [key, value] => (pyInt value).map (fun n => result.set key (.int n))
  | _ => .error .valueError

lemma convertLimit_eq (input : PyStr) : convertLimitMmPerPrompt input =
    ((split (ch ',') input).foldlM readPair Dict.empty).map (fun d => .dict d.items) := by
  have hloop : convertLimitMmPerPrompt input = (do
      let result ← (split (ch ',') input).foldlM readPair Dict.empty
      return .dict result.items) := rfl
  rw [hloop]
  cases (split (ch ',') input).foldlM readPair Dict.empty <;> rfl

lemma readPair_pairText (d : Dict) {kv : PyStr × ℕ} (h : ch '=' ∉ kv.1) : readPair d (pairText kv) =
    if FitsInt kv.2 then .ok (d.set kv.1 (.int kv.2)) else .error .valueError := by
  rw [readPair, split_pairText h]
  simp only [pyInt_natText]
  split_ifs <;> rfl

/-- The loop over the pairs of a map, behind pairs of other names. -/
lemma foldlM_pairs (d : Dict) (hnodup : ((d.items ++ limitItems m).map Prod.fst).Nodup)
    (hplain : ∀ kv ∈ m, ch '=' ∉ kv.1) :
    (∀ kv ∈ m, FitsInt kv.2) ∧ (∃ d', (m.map pairText).foldlM readPair d = .ok d' ∧
        d'.items = d.items ++ limitItems m) ∨
      (¬ ∀ kv ∈ m, FitsInt kv.2) ∧ (m.map pairText).foldlM readPair d = .error .valueError := by
  induction m generalizing d with
  | nil => exact Or.inl ⟨by simp, d, rfl, by simp [limitItems]⟩
  | cons kv m ih =>
    have hpair := readPair_pairText d (hplain kv List.mem_cons_self)
    rw [List.map_cons, List.foldlM_cons, hpair]
    by_cases hfit : FitsInt kv.2
    · have hset : (d.set kv.1 (.int kv.2)).items = d.items ++ [(kv.1, .int kv.2)] := by
        have hsplit : d.items ++ limitItems (kv :: m) =
            d.items ++ [(kv.1, .int kv.2)] ++ limitItems m := by simp [limitItems]
        rw [hsplit, List.map_append] at hnodup
        exact foldl_dictSet (List.Nodup.of_append_left hnodup)
      have hrest := ih (d.set kv.1 (.int kv.2)) (by
        rw [hset]
        simpa [limitItems] using hnodup) fun kv' h' => hplain kv' (List.mem_cons_of_mem kv h')
      rw [if_pos hfit]
      rw [hset] at hrest
      simpa [hfit, limitItems, bind, Except.bind] using hrest
    · exact Or.inr ⟨fun h => hfit (h kv List.mem_cons_self), by rw [if_neg hfit]; rfl⟩

lemma convertLimit_pairs (h : IsLimitMap m) (v : Value) :
    convertLimitMmPerPrompt (joinCommas (m.map pairText)) = .ok v ↔
      v = .dict (limitItems m) ∧ m ≠ [] ∧ ∀ kv ∈ m, FitsInt kv.2 := by
  by_cases hne : m = []
  · subst hne
    constructor
    · intro hv
      cases hv
    · exact fun hv => absurd rfl hv.2.1
  have hkeys : ((Dict.empty.items ++ limitItems m).map Prod.fst).Nodup := by
    simpa [Dict.empty, limitItems, Function.comp_def] using h.nodup
  rw [convertLimit_eq, split_joinCommas (by simpa using hne) (comma_notMem_pairText h)]
  rcases foldlM_pairs Dict.empty hkeys fun kv hkv => (h.plain kv hkv).2 with
    ⟨hfit, d, hd, hitems⟩ | ⟨hfit, herror⟩
  · have hdict : d.items = limitItems m := hitems
    rw [hd, Except.map, hdict, Except.ok.injEq]
    exact ⟨fun hv => ⟨hv.symm, hne, hfit⟩, fun hv => hv.1.symm⟩
  · rw [herror]
    constructor
    · intro hv
      cases hv
    · exact fun hv => absurd hv.2.2 hfit

end Pairs

section Json

variable {m : List (PyStr × ℕ)} {w : PyStr}

/-- The splitter asks for an equals sign in the first pair already. -/
lemma convertLimit_no_equals {s : PyStr} (h : ch '=' ∉ s) (v : Value) :
    convertLimitMmPerPrompt s ≠ .ok v := by
  have hfirst : ∃ first rest, split (ch ',') s = first :: rest ∧ ch '=' ∉ first := by
    rcases cut_cases (ch ',') s with ⟨hs, _⟩ | ⟨a, b, ha, rfl, _⟩
    · exact ⟨s, [], split_of_notMem hs, h⟩
    · exact ⟨a, _, split_append_cons ha b, fun ha => h (List.mem_append_left _ ha)⟩
  obtain ⟨first, rest, hsplit, hno⟩ := hfirst
  rw [convertLimit_eq, hsplit, List.foldlM_cons, readPair, split_of_notMem hno]
  intro hv
  cases hv

lemma equals_notMem_hexText (k n : ℕ) : ch '=' ∉ hexText k n := by
  have hdigit : ∀ d, ch '=' ≠ hexDigit d := by
    intro d hd
    have hval := congrArg Fin.val hd
    have hch : (ch '=').val = 61 := rfl
    rw [hexDigit, hch] at hval
    split_ifs at hval with h
    · have hsmall : 61 = 48 + d % 16 := hval
      omega
    · have hlarge : 61 = 87 + d % 16 := hval
      omega
  induction k with
  | zero => exact List.not_mem_nil
  | succ k ih =>
    rw [hexText, List.mem_cons, not_or]
    exact ⟨hdigit _, ih⟩

lemma equals_notMem_escapeUnicode (n : ℕ) : ch '=' ∉ escapeUnicode n := by
  rw [escapeUnicode, List.mem_cons, List.mem_cons, not_or, not_or]
  exact ⟨by decide, by decide, equals_notMem_hexText 4 n⟩

lemma equals_notMem_escapeChar {c : CodePoint} (hc : ch '=' ≠ c) : ch '=' ∉ escapeChar c := by
  rw [escapeChar]
  split_ifs
  any_goals decide
  · simpa using hc
  · exact equals_notMem_escapeUnicode _
  · rw [List.mem_append, not_or]
    exact ⟨equals_notMem_escapeUnicode _, equals_notMem_escapeUnicode _⟩

lemma equals_notMem_quote {s : PyStr} (h : ch '=' ∉ s) : ch '=' ∉ quote s := by
  have hbody : ch '=' ∉ s.flatMap escapeChar := by
    intro hm
    obtain ⟨c, hc, he⟩ := List.mem_flatMap.mp hm
    refine equals_notMem_escapeChar (fun hce => h ?_) he
    rw [hce]
    exact hc
  rw [quote, List.mem_cons, List.mem_append, List.mem_singleton, not_or, not_or]
  exact ⟨by decide, hbody, by decide⟩

lemma equals_notMem_blank (hw : IsBlank w) : ch '=' ∉ w :=
  fun h => absurd (List.all_eq_true.mp hw _ h) (by decide)

lemma equals_notMem_json (hw : IsBlank w) (h : ∀ kv ∈ m, ch '=' ∉ kv.1) :
    ch '=' ∉ (Value.dict (limitItems m)).text w := by
  have hmembers : ch '=' ∉ membersText w (limitItems m) := by
    induction m with
    | nil => exact List.not_mem_nil
    | cons kv m ih =>
      have hkey := equals_notMem_quote (h kv List.mem_cons_self)
      have hnumber : ch '=' ∉ intText (kv.2 : ℤ) := by
        rw [intText, if_neg (by omega)]
        exact notMem_natText (by decide) _
      have hrest := ih fun kv' h' => h kv' (List.mem_cons_of_mem kv h')
      have hcolon : ch '=' ≠ ch ':' ∧ ch '=' ≠ ch ',' := by decide
      simp only [limitItems, List.map_cons, membersText, Value.text, List.mem_append, List.mem_cons,
        not_or]
      refine ⟨⟨hkey, hcolon.1, equals_notMem_blank hw, hnumber⟩, ?_⟩
      split_ifs
      · exact List.not_mem_nil
      · simp only [List.mem_cons, List.mem_append, not_or]
        exact ⟨hcolon.2, equals_notMem_blank hw, hrest⟩
  rw [Value.text, List.mem_cons, List.mem_append, List.mem_singleton, not_or, not_or]
  exact ⟨by decide, hmembers, by decide⟩

end Json

section Passing

variable {rt : Runtime} {fields : EngineFields} {env : Environ} {file : LocalArgsFile}
variable {m : List (PyStr × ℕ)} {style : Style} {s : PyStr}

lemma convertLimit_written (h : IsLimitMap m) (hs : Writes m style s) (v : Value) :
    convertLimitMmPerPrompt s = .ok v ↔
      v = .dict (limitItems m) ∧ style = .pairs ∧ m ≠ [] ∧ ∀ kv ∈ m, FitsInt kv.2 := by
  cases hs with
  | pairs => simpa using convertLimit_pairs h v
  | json hw =>
    constructor
    · intro hv
      exact absurd hv (convertLimit_no_equals (equals_notMem_json hw fun kv hkv => (h.plain kv hkv).2) v)
    · rintro ⟨_, hstyle, _⟩
      cases hstyle

variable [Interpreter]

lemma builds_limit (hbuilds : Builds rt fields (without env (lit "LIMIT_MM_PER_PROMPT")) file)
    (hs : env (lit "LIMIT_MM_PER_PROMPT") = some s) :
    Builds rt fields env file ↔ (∃ v, convertLimitMmPerPrompt s = .ok v) ∧ Shallow rt fields env := by
  have hsetting (name : PyStr) (hne : name ≠ lit "LIMIT_MM_PER_PROMPT") :
      setting env name = setting (without env (lit "LIMIT_MM_PER_PROMPT")) name := setting_of_ne hne
  constructor
  · exact fun h => ⟨h.limit s hs, h.shallow⟩
  · rintro ⟨hv, hshallow⟩
    refine ⟨hshallow, hbuilds.baked, fun s' hs' => ?_, fun s' hs' => ?_, ?_⟩
    · obtain rfl := Option.some.inj (hs.symm.trans hs')
      exact hv
    · rw [hsetting _ (by simp [lit_inj])] at hs'
      exact hbuilds.context s' hs'
    · have hspec : getSpeculativeConfig rt env =
          getSpeculativeConfig rt (without env (lit "LIMIT_MM_PER_PROMPT")) := by
        apply speculative_same <;>
          simp [speculativeVariables, countVariables, sizeVariables, lit_inj]
      rw [hspec]
      exact hbuilds.speculative

lemma shallow_of_without {x : PyStr} (h : Shallow rt fields (without env x))
    (hx : ∀ s, env x = some s → jsonLoads (strip s) ≠ .error .recursionError) : Shallow rt fields env := by
  have hdeep {name : PyStr} {t : FieldType} (htext : TooDeep env name t) : TooDeep (without env x) name t := by
    obtain ⟨s, hs, hjson, hread⟩ := htext
    have hne : name ≠ x := by
      rintro rfl
      exact hx s hs hjson
    exact ⟨s, (without_of_ne hne).symm.trans hs, hjson, hread⟩
  exact ⟨fun field hfield hd => h.discovered field hfield (hdeep hd),
    fun entry hentry t ht hd => h.aliased entry hentry t ht (hdeep hd)⟩

/-- Pairs without brackets in the names open none. -/
lemma shallow_of_pairs (h : Shallow rt fields (without env (lit "LIMIT_MM_PER_PROMPT")))
    (hm : ∀ kv ∈ m, ch '[' ∉ kv.1 ∧ ch '{' ∉ kv.1)
    (henv : env (lit "LIMIT_MM_PER_PROMPT") = some (joinCommas (m.map pairText))) : Shallow rt fields env := by
  refine shallow_of_without h fun s hs => ?_
  obtain rfl := Option.some.inj (henv.symm.trans hs)
  have hpairs : ch '[' ∉ joinCommas (m.map pairText) ∧ ch '{' ∉ joinCommas (m.map pairText) :=
    ⟨notMem_pairs (by decide) (by decide) fun kv hkv => (hm kv hkv).1,
      notMem_pairs (by decide) (by decide) fun kv hkv => (hm kv hkv).2⟩
  exact jsonLoads_flat ⟨fun hc => hpairs.1 (strip_subset _ hc), fun hc => hpairs.2 (strip_subset _ hc)⟩

/-- Where the arguments can be built without the variable, a map of limits reaches vLLM from its pairs,
if it has any and `int` reads every number, and from no JSON object. The field is discovered too, so the pairs
must not open with more brackets than `json.loads` reads. -/
theorem limits_passed_iff (rt : Runtime) (fields : EngineFields) (env : Environ) (file : LocalArgsFile)
    (hbuilds : Builds rt fields (without env (lit "LIMIT_MM_PER_PROMPT")) file) (m : List (PyStr × ℕ))
    (h : IsLimitMap m) (style : Style) (s : PyStr) (hs : Writes m style s)
    (henv : env (lit "LIMIT_MM_PER_PROMPT") = some s) : PassesLimits m rt fields env file ↔
      style = .pairs ∧ m ≠ [] ∧ (∀ kv ∈ m, FitsInt kv.2) ∧ Shallow rt fields env := by
  constructor
  · rintro ⟨args, hargs, _⟩
    obtain ⟨⟨v, hv⟩, hshallow⟩ := (builds_limit hbuilds henv).mp (builds_iff.mp ⟨args, hargs⟩)
    obtain ⟨-, hstyle, hne, hfit⟩ := (convertLimit_written h hs v).mp hv
    exact ⟨hstyle, hne, hfit, hshallow⟩
  · rintro ⟨hstyle, hne, hfit, hshallow⟩
    have hv := (convertLimit_written h hs (.dict (limitItems m))).mpr ⟨rfl, hstyle, hne, hfit⟩
    obtain ⟨args, hargs⟩ : ∃ args, getEngineArgs rt fields env file = some args :=
      builds_iff.mpr ((builds_limit hbuilds henv).mpr ⟨⟨_, hv⟩, hshallow⟩)
    refine ⟨args, hargs, ?_⟩
    rw [lookup_getEngineArgs hargs, lateOverride, if_pos rfl, henv, Option.bind_some, hv]
    rfl

end Passing

section Example

def mediaLimits : List (PyStr × ℕ) :=
  [(lit "image", 2), (lit "video", 0)]

lemma isLimitMap_media : IsLimitMap mediaLimits where
  nodup := by simp [mediaLimits, lit_inj]
  plain := by
    intro kv hkv
    fin_cases hkv <;> decide

lemma unset_builds (value : PyStr) : Builds oneGpu currentFields
    (without (environ [(lit "LIMIT_MM_PER_PROMPT", value)]) (lit "LIMIT_MM_PER_PROMPT")) .absent := by
  have hunset : without (environ [(lit "LIMIT_MM_PER_PROMPT", value)]) (lit "LIMIT_MM_PER_PROMPT") =
      environ [] := by
    funext name
    by_cases h : name = lit "LIMIT_MM_PER_PROMPT" <;> simp [without, h]
  rw [hunset]
  apply builds_of_unset (environ_shallow (by simp)) rfl <;> simp

theorem pairs_passed : PassesLimits mediaLimits oneGpu currentFields
    (environ [(lit "LIMIT_MM_PER_PROMPT", joinCommas (mediaLimits.map pairText))]) .absent := by
  have hfit : ∀ kv ∈ mediaLimits, FitsInt kv.2 := by
    intro kv hkv
    fin_cases hkv <;> decide
  have hflat : ∀ kv ∈ mediaLimits, ch '[' ∉ kv.1 ∧ ch '{' ∉ kv.1 := by decide
  exact (limits_passed_iff oneGpu currentFields _ .absent (unset_builds _) mediaLimits isLimitMap_media
    .pairs _ .pairs (by simp)).mpr ⟨rfl, by simp [mediaLimits], hfit,
      shallow_of_pairs (unset_builds _).shallow hflat (by simp)⟩

theorem json_limit_raises :
    let s := (Value.dict (limitItems [(lit "image", 2)])).text (lit " ")
    let env := environ [(lit "LIMIT_MM_PER_PROMPT", s)]
    s = lit "\x7b\"image\": 2\x7d" ∧ Writes [(lit "image", 2)] .json s ∧
      getEngineArgs oneGpu currentFields env .absent = none ∧
      ¬ PassesLimits [(lit "image", 2)] oneGpu currentFields env .absent := by
  intro s env
  have hno : ch '=' ∉ s := by decide +kernel
  have henv : env (lit "LIMIT_MM_PER_PROMPT") = some s := by simp [env]
  have hraises : getEngineArgs oneGpu currentFields env .absent = none := by
    cases hargs : getEngineArgs oneGpu currentFields env .absent with
    | none => rfl
    | some args =>
      obtain ⟨v, hv⟩ := (builds_iff.mp ⟨args, hargs⟩).limit s henv
      exact absurd hv (convertLimit_no_equals hno v)
  refine ⟨by decide +kernel, .json rfl, hraises, ?_⟩
  rintro ⟨args, hargs, _⟩
  cases hraises.symm.trans hargs

end Example

end GemmaWorker.EngineArgs
