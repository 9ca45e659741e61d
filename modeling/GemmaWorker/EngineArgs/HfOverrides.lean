import GemmaWorker.EngineArgs.Sources

/-! `_sanitize_hf_overrides` as the loop that runs, with what the caller's dict holds afterwards, and
what it takes out of the overrides. -/

namespace GemmaWorker.EngineArgs

open GemmaWorker.Python

section Loop

structure SanitizeLoop where
  overrides : List (PyStr × Value)
  cleaned : List (PyStr × Value)
  changed : Bool

/-- The `rope_scaling` of a sub-dictionary, where it is a dict itself. -/
def ropeScaling : Value → Option Value
  | .dict sub =>
    match sub.lookup (lit "rope_scaling") with
    | some (.dict rope) => some (.dict rope)
    | _ => none
  | _ => none

/-- `patch` says whether vLLM accepts the dict it is given, and what that dict holds afterwards. It is
given a deep copy, so what it leaves there is dropped. -/
def sanitizeStep (patch : Value → Bool × Value) (st : SanitizeLoop) (item : PyStr × Value) : SanitizeLoop :=
  match ropeScaling item.2 with
  | some rope =>
    let (accepted, _) := patch rope
    if accepted then { st with cleaned := dictSet st.cleaned item }
    else { st with cleaned := dictSet st.cleaned (item.1, stripRope item.2), changed := true }
  | none => { st with cleaned := dictSet st.cleaned item }

/-- What is returned, and the overrides as the caller finds them. -/
def sanitizeRun (patch : Value → Bool × Value) : Value → Value × Value
  | .dict items =>
    let st := items.foldl (sanitizeStep patch) ⟨items, [], false⟩
    if st.changed then
      match st.cleaned.filter (fun kv => !isNone kv.2) with
      | [] => (.none, .dict st.overrides)
      | result => (.dict result, .dict st.overrides)
    else (.dict st.overrides, .dict st.overrides)
  | v => (v, v)

end Loop

section Closed

variable (patch : Value → Bool × Value)

def accepts (v : Value) : Bool :=
  (patch v).1

def cleanedItem (kv : PyStr × Value) : PyStr × Value :=
  (kv.1, if rejectedRope (accepts patch) kv.2 then stripRope kv.2 else kv.2)

lemma rejectedRope_eq (v : Value) :
    rejectedRope (accepts patch) v = (ropeScaling v).any (fun rope => !accepts patch rope) := by
  cases v with
  | dict sub =>
    rw [rejectedRope, ropeScaling]
    cases sub.lookup (lit "rope_scaling") with
    | none => rfl
    | some rope => cases rope <;> rfl
  | _ => rfl

lemma sanitizeStep_eq (st : SanitizeLoop) (kv : PyStr × Value) : sanitizeStep patch st kv =
    { st with
      cleaned := dictSet st.cleaned (cleanedItem patch kv)
      changed := st.changed || rejectedRope (accepts patch) kv.2 } := by
  rw [sanitizeStep, cleanedItem, rejectedRope_eq]
  cases ropeScaling kv.2 with
  | none => simp
  | some rope => cases h : (patch rope).1 <;> simp [accepts, h]

lemma foldl_sanitizeStep (items : List (PyStr × Value)) (st : SanitizeLoop) :
    items.foldl (sanitizeStep patch) st =
      { st with
        cleaned := (items.map (cleanedItem patch)).foldl dictSet st.cleaned
        changed := st.changed || items.any (fun kv => rejectedRope (accepts patch) kv.2) } := by
  induction items generalizing st with
  | nil => simp
  | cons kv items ih =>
    rw [List.foldl_cons, ih, sanitizeStep_eq]
    simp [Bool.or_assoc]

variable {patch} {items : List (PyStr × Value)}

lemma foldl_cleaned (h : (items.map Prod.fst).Nodup) :
    (items.map (cleanedItem patch)).foldl dictSet [] = items.map (cleanedItem patch) := by
  refine foldl_dictSet ?_
  rw [List.nil_append, List.map_map]
  exact h

/-- The loop on a dict: unchanged without a rejected entry, else the cleaned items that are not `None`. -/
lemma sanitizeRun_dict (h : (items.map Prod.fst).Nodup) : sanitizeRun patch (.dict items) =
    (if items.any (fun kv => rejectedRope (accepts patch) kv.2) then
        match (items.map (cleanedItem patch)).filter (fun kv => !isNone kv.2) with
        | [] => .none
        | result => .dict result
      else .dict items, .dict items) := by
  simp only [sanitizeRun, foldl_sanitizeStep, foldl_cleaned h, Bool.false_or]
  split_ifs
  · split <;> rfl
  · rfl

theorem sanitizeRun_refines {rt : Runtime} (hrt : rt.patchRopeScaling = some (accepts patch)) {v : Value}
    (h : ∀ items, v = .dict items → (items.map Prod.fst).Nodup) :
    (sanitizeRun patch v).1 = sanitizeHfOverrides rt v := by
  cases v with
  | dict items =>
    rw [sanitizeRun_dict (h items rfl), sanitizeHfOverrides, hrt]
    rfl
  | _ => rfl

end Closed

section Kept

variable (patch : Value → Bool × Value)

/-- What should be left of an entry. -/
def keptEntry (kv : PyStr × Value) : Option (PyStr × Value) :=
  match kv.2 with
  | .dict sub =>
    if rejectedRope (accepts patch) kv.2 then
      match sub.filter (fun kv => kv.1 ≠ lit "rope_scaling") with
      | [] => none
      | stripped => some (kv.1, .dict stripped)
    else some kv
  | _ => some kv

structure RemovesRejected (items : List (PyStr × Value)) : Prop where
  result : (sanitizeRun patch (.dict items)).1 = .dict (items.filterMap (keptEntry patch)) ∨
    (sanitizeRun patch (.dict items)).1 = .none ∧ items.filterMap (keptEntry patch) = []
  untouched : (sanitizeRun patch (.dict items)).2 = .dict items
  idempotent : (sanitizeRun patch (sanitizeRun patch (.dict items)).1).1 =
    (sanitizeRun patch (.dict items)).1

variable {patch} {items : List (PyStr × Value)}

lemma isNone_iff (v : Value) : isNone v = true ↔ v = .none := by
  cases v <;> simp [isNone]

lemma keptEntry_of_accepted {kv : PyStr × Value} (h : rejectedRope (accepts patch) kv.2 = false) :
    keptEntry patch kv = some kv := by
  rw [keptEntry]
  split
  · rw [if_neg (by simp [h])]
  · rfl

lemma keptEntry_of_set {kv : PyStr × Value} (h : kv.2 ≠ .none) : keptEntry patch kv =
    if isNone (cleanedItem patch kv).2 then none else some (cleanedItem patch kv) := by
  have hset : isNone kv.2 = false :=
    Bool.eq_false_iff.mpr fun hn => h ((isNone_iff _).mp hn)
  cases hrejected : rejectedRope (accepts patch) kv.2 with
  | false => simp [keptEntry_of_accepted hrejected, cleanedItem, hrejected, hset]
  | true =>
    obtain ⟨k, v⟩ := kv
    cases v with
    | dict sub =>
      simp only [keptEntry, cleanedItem, hrejected, if_true, stripRope]
      cases sub.filter (fun kv => kv.1 ≠ lit "rope_scaling") <;> rfl
    | _ => cases hrejected

lemma filter_cleaned (h : ∀ kv ∈ items, kv.2 ≠ .none) :
    (items.map (cleanedItem patch)).filter (fun kv => !isNone kv.2) =
      items.filterMap (keptEntry patch) := by
  induction items with
  | nil => rfl
  | cons kv items ih =>
    have hrest := ih fun kv' h' => h kv' (List.mem_cons_of_mem kv h')
    rw [List.map_cons, List.filter_cons, hrest, List.filterMap_cons,
      keptEntry_of_set (h kv List.mem_cons_self)]
    cases isNone (cleanedItem patch kv).2 <;> simp

lemma not_rejected_cleaned (kv : PyStr × Value) :
    rejectedRope (accepts patch) (cleanedItem patch kv).2 = false := by
  cases hrejected : rejectedRope (accepts patch) kv.2 with
  | false => simp [cleanedItem, hrejected]
  | true =>
    obtain ⟨k, v⟩ := kv
    cases v with
    | dict sub =>
      simp only [cleanedItem, hrejected, if_true, stripRope]
      split
      · rfl
      · have hno : (sub.filter (fun kv => kv.1 ≠ lit "rope_scaling")).lookup (lit "rope_scaling") = none := by
          rw [List.lookup_eq_none_iff]
          intro kv hkv
          exact bne_iff_ne.mpr (Ne.symm (by simpa using (List.mem_filter.mp hkv).2))
        rw [rejectedRope, hno]
    | _ => cases hrejected

lemma sanitize_result_cases (h : (items.map Prod.fst).Nodup) :
    (sanitizeRun patch (.dict items)).1 = .none ∨ ∃ result,
      (sanitizeRun patch (.dict items)).1 = .dict result ∧ (result.map Prod.fst).Nodup ∧
        result.any (fun kv => rejectedRope (accepts patch) kv.2) = false := by
  rw [sanitizeRun_dict h]
  simp only
  split_ifs with hany
  · cases hresult : (items.map (cleanedItem patch)).filter (fun kv => !isNone kv.2) with
    | nil => exact Or.inl rfl
    | cons kv result =>
      refine Or.inr ⟨_, rfl, ?_, ?_⟩
      · rw [← hresult]
        refine List.Nodup.sublist (List.filter_sublist.map Prod.fst) ?_
        rw [List.map_map]
        exact h
      · rw [← hresult, List.any_eq_false]
        intro kv' hkv'
        obtain ⟨kv₀, _, rfl⟩ := List.mem_map.mp (List.mem_filter.mp hkv').1
        simp [not_rejected_cleaned]
  · exact Or.inr ⟨items, rfl, h, by simpa using hany⟩

lemma sanitize_idempotent (h : (items.map Prod.fst).Nodup) :
    (sanitizeRun patch (sanitizeRun patch (.dict items)).1).1 =
      (sanitizeRun patch (.dict items)).1 := by
  rcases @sanitize_result_cases patch items h with hnone | ⟨result, hresult, hnodup, haccepted⟩
  · rw [hnone]
    rfl
  · rw [hresult, sanitizeRun_dict hnodup, haccepted]
    rfl

lemma kept_of_accepted (h : items.any (fun kv => rejectedRope (accepts patch) kv.2) = false) :
    items.filterMap (keptEntry patch) = items := by
  rw [List.any_eq_false] at h
  refine (List.filterMap_congr fun kv hkv => ?_).trans List.filterMap_some
  exact keptEntry_of_accepted (by simpa using h kv hkv)

lemma changed_has_no_none {kv : PyStr × Value} (hnodup : (items.map Prod.fst).Nodup)
    (hany : items.any (fun kv => rejectedRope (accepts patch) kv.2) = true) (hkv : kv ∈ items)
    (hnone : kv.2 = .none) : ¬ RemovesRejected patch items := by
  intro h
  have hkept : kv ∈ items.filterMap (keptEntry patch) := by
    refine List.mem_filterMap.mpr ⟨kv, hkv, keptEntry_of_accepted ?_⟩
    rw [hnone]
    rfl
  have hresult := h.result
  rw [sanitizeRun_dict hnodup] at hresult
  simp only [hany, if_true] at hresult
  rcases hresult with hdict | ⟨_, hempty⟩
  · cases hfilter : (items.map (cleanedItem patch)).filter (fun kv => !isNone kv.2) with
    | nil =>
      rw [hfilter] at hdict
      cases hdict
    | cons kv' result =>
      rw [hfilter] at hdict
      rw [← Value.dict.inj hdict, ← hfilter] at hkept
      have hset := (List.mem_filter.mp hkept).2
      rw [hnone] at hset
      cases hset
  · rw [hempty] at hkept
    cases hkept

end Kept

section Example

/-- Rejects every dict, and leaves an empty one in its place. -/
def rejectAll : Value → Bool × Value :=
  fun _ => (false, .dict [])

def mropeOverrides : List (PyStr × Value) :=
  [(lit "text_config", .dict [(lit "rope_scaling", .dict [(lit "type", .str (lit "mrope"))]),
    (lit "head_dim", .int 128)])]

end Example

end GemmaWorker.EngineArgs
