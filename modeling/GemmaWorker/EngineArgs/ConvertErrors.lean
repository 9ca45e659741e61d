import GemmaWorker.EngineArgs.Sources
import GemmaWorker.Python.JsonErrors

/-! The exceptions that the conversion of a variable can raise. -/

namespace GemmaWorker.EngineArgs

open GemmaWorker.Python

variable {py : Builtins} {t : FieldType} {elem : Simple} {α : Type} {deep : Prop}

/-- An exception that is caught where a variable is converted, or one for a text that nests too deep. -/
def convertFailure (deep : Prop) (e : PyError) : Prop :=
  skipped e = true ∨ e = .recursionError ∧ deep

lemma fails_caught {e : PyError} (he : skipped e = true) :
    Fails (convertFailure deep) (.error e : Except PyError α) :=
  fails_error (Or.inl he)

lemma fails_pyInt (s : PyStr) : Fails (convertFailure deep) (pyInt s) := by
  rw [pyInt]
  split
  · exact fails_caught rfl
  · split_ifs
    · exact fails_caught rfl
    · exact fails_ok _

lemma fails_iterate (v : Value) : Fails (convertFailure deep) (iterate v) := by
  intro e he
  cases v <;> cases he <;> exact Or.inl rfl

def IsTuple : Simple → Prop
  | .tuple => True
  | .tupleOf _ => True
  | .tupleFixed _ _ => True
  | _ => False

/-- `json.loads` is called for a field of the type. -/
def ReadsJson (t : FieldType) : Prop :=
  ∃ m, resolveFieldType t = .simple m ∧ ((∃ e, m = .list e ∨ m = .dict e) ∨ IsTuple m)

lemma elemType_of_tuple {m : Simple} (hm : resolveFieldType t = .simple m) (htuple : IsTuple m) :
    elemType t = .scalar .str ∨ elemType t = .noneType ∨ IsTuple (elemType t) := by
  cases t with
  | simple a =>
    cases a with
    | list e => cases e <;> cases hm <;> exact absurd htuple id
    | dict e => cases e <;> cases hm <;> exact absurd htuple id
    | tuple => exact Or.inl rfl
    | tupleFixed s ss =>
      rw [resolveFieldType, FieldType.args, List.filter_cons_of_pos (by simp)] at hm
      cases hm
      exact absurd htuple id
    | _ => cases hm; exact absurd htuple id
  | union members =>
    rw [resolveFieldType] at hm
    simp only [elemType, FieldType.args] at hm ⊢
    cases members with
    | nil => exact Or.inl rfl
    | cons a members =>
      by_cases hn : a = .noneType
      · subst hn
        exact Or.inr (Or.inl rfl)
      · rw [List.filter_cons_of_pos (by simpa using hn)] at hm
        obtain rfl : a = m := by simpa using hm
        have he : a ≠ .ellipsis := by
          rintro rfl
          exact htuple
        rw [List.filter_cons_of_pos (by simpa using he)]
        exact Or.inr (Or.inr htuple)

variable [Interpreter] {s : PyStr}

lemma fails_pyFloat (s : PyStr) : Fails (convertFailure deep) (pyFloat s) := by
  simp only [pyFloat]
  split_ifs
  · exact fails_ok _
  · exact fails_ok _
  · simp only [floatNumber]
    split
    · split_ifs
      · exact fails_caught rfl
      · exact fails_ok _
    · exact fails_caught rfl

lemma fails_json (hdeep : jsonLoads s = .error .recursionError → deep) :
    Fails (convertFailure deep) (jsonLoads s) := by
  intro e he
  obtain (rfl | rfl) | rfl := fails_jsonLoads s e he
  · exact Or.inl rfl
  · exact Or.inl rfl
  · exact Or.inr ⟨rfl, hdeep he⟩

lemma fails_convertJson (hdeep : jsonLoads s = .error .recursionError → deep) :
    Fails (convertFailure deep) (convertJson s) := by
  rw [convertJson]
  split
  · exact fails_ok _
  · exact fails_json hdeep

lemma fails_construct (helem : elem = .scalar .str ∨ elem = .noneType ∨ IsTuple elem) (v : Value) :
    Fails (convertFailure deep) (construct py elem v) := by
  rcases helem with rfl | rfl | helem
  · exact fails_ok _
  · exact fails_caught rfl
  · cases elem with
    | tuple => exact (fails_iterate v).map _
    | tupleOf => exact (fails_iterate v).map _
    | tupleFixed => exact (fails_iterate v).map _
    | _ => exact absurd helem id

lemma fails_convertTuple (helem : elem = .scalar .str ∨ elem = .noneType ∨ IsTuple elem)
    (hdeep : jsonLoads s = .error .recursionError → deep) :
    Fails (convertFailure deep) (convertTuple py elem s) := by
  have hlist : Fails (convertFailure deep) (tupleFromList py elem s) := by
    refine (fails_json hdeep).bind fun v => ?_
    cases v with
    | list xs => exact (fails_mapM (fails_construct helem) xs).bind fun _ => fails_ok _
    | _ => exact fails_ok _
  have htext : Fails (convertFailure deep) (tupleFromText py elem s) :=
    (fails_mapM (fun x => fails_construct helem (.str x)) _).bind fun _ => fails_ok _
  rw [convertTuple]
  split
  · exact fails_ok _
  · exact htext
  · rename_i e he
    split_ifs
    · exact htext
    · exact fails_error (hlist e he)

/-- Whatever a variable holds, its conversion gives a value or is logged and passed over, unless `json.loads` is
called on a text that nests too deep. -/
theorem fails_convert (s : PyStr) :
    Fails (convertFailure (jsonLoads (strip s) = .error .recursionError ∧ ReadsJson t))
      (convertEnvValueToFieldType py s t) := by
  simp only [convertEnvValueToFieldType]
  split_ifs
  · exact fails_ok _
  · exact fails_caught rfl
  · split
    · exact fails_ok _
    · exact (fails_pyInt _).map _
    · exact (fails_pyFloat _).map _
    · exact fails_ok _
    · rename_i e hm
      exact fails_convertJson fun hdeep => ⟨hdeep, _, hm, Or.inl ⟨e, Or.inl rfl⟩⟩
    · rename_i e hm
      exact fails_convertJson fun hdeep => ⟨hdeep, _, hm, Or.inl ⟨e, Or.inr rfl⟩⟩
    · rename_i hm
      exact fails_convertTuple (elemType_of_tuple hm trivial) fun hdeep => ⟨hdeep, _, hm, Or.inr trivial⟩
    · rename_i hm
      exact fails_convertTuple (elemType_of_tuple hm trivial) fun hdeep => ⟨hdeep, _, hm, Or.inr trivial⟩
    · rename_i hm
      exact fails_convertTuple (elemType_of_tuple hm trivial) fun hdeep => ⟨hdeep, _, hm, Or.inr trivial⟩
    · exact fails_ok _

lemma notMem_emptyWords (hdeep : jsonLoads s = .error .recursionError) : s ∉ emptyWords := by
  have hwords : ∀ w ∈ emptyWords, jsonLoads w = .error .jsonDecodeError := by
    simp only [emptyWords, List.forall_mem_cons]
    exact ⟨rfl, rfl, rfl, List.forall_mem_nil _⟩
  intro hmem
  rw [hwords s hmem] at hdeep
  cases hdeep

lemma convertTuple_tooDeep (hdeep : jsonLoads s = .error .recursionError) :
    convertTuple py elem s = .error .recursionError := by
  have hlist : tupleFromList py elem s = .error .recursionError := by
    rw [tupleFromList, hdeep]
    rfl
  rw [convertTuple, hlist]
  rfl

/-- The one exception that is not caught. -/
theorem convert_tooDeep_iff (s : PyStr) : convertEnvValueToFieldType py s t = .error .recursionError ↔
    jsonLoads (strip s) = .error .recursionError ∧ ReadsJson t := by
  constructor
  · intro h
    obtain hskip | ⟨-, hdeep⟩ := fails_convert s _ h
    · cases hskip
    · exact hdeep
  · rintro ⟨hdeep, m, hm, hjson⟩
    simp only [convertEnvValueToFieldType, if_neg (notMem_emptyWords hdeep), hm]
    rcases hjson with ⟨e, rfl | rfl⟩ | htuple
    · simp only [convertJson, hdeep]
    · simp only [convertJson, hdeep]
    · cases m with
      | tuple => exact convertTuple_tooDeep hdeep
      | tupleOf => exact convertTuple_tooDeep hdeep
      | tupleFixed => exact convertTuple_tooDeep hdeep
      | _ => exact absurd htuple id

end GemmaWorker.EngineArgs
