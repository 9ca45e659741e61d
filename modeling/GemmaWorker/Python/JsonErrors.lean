import GemmaWorker.Python.JsonReader

/-! The exceptions of `json.loads`: a text that is no JSON, an integer with too many digits, and brackets that nest
too deep. -/

namespace GemmaWorker.Python

section Failures

variable {α β : Type} {P : PyError → Prop} {x : Except PyError α}

/-- Every exception of a computation is of a kind. -/
def Fails (P : PyError → Prop) (x : Except PyError α) : Prop :=
  ∀ e, x = .error e → P e

lemma fails_ok (a : α) : Fails P (.ok a) := by
  rintro e h
  cases h

lemma fails_error {e : PyError} (he : P e) : Fails P (.error e : Except PyError α) := by
  rintro e' h
  exact Except.error.inj h ▸ he

lemma Fails.bind {f : α → Except PyError β} (hx : Fails P x) (hf : ∀ a, Fails P (f a)) :
    Fails P (x >>= f) := by
  cases x with
  | error e => exact fails_error (hx e rfl)
  | ok a => exact hf a

lemma Fails.map (hx : Fails P x) (f : α → β) : Fails P (x.map f) := by
  cases x with
  | error e => exact fails_error (hx e rfl)
  | ok a => exact fails_ok (f a)

lemma Fails.mono {Q : PyError → Prop} (hx : Fails P x) (h : ∀ e, P e → Q e) : Fails Q x :=
  fun e he => h e (hx e he)

lemma fails_mapM {f : α → Except PyError β} (hf : ∀ a, Fails P (f a)) (xs : List α) :
    Fails P (xs.mapM f) := by
  induction xs with
  | nil => exact fails_ok []
  | cons x xs ih =>
    rw [List.mapM_cons]
    exact (hf x).bind fun y => ih.bind fun ys => fails_ok (y :: ys)

/-- Without a bracket a text is refused for what it is or for the digits of an integer. -/
def scanFailure (e : PyError) : Prop :=
  e = .jsonDecodeError ∨ e = .valueError

def jsonFailure (e : PyError) : Prop :=
  scanFailure e ∨ e = .recursionError

lemma fails_scan : Fails scanFailure (.error .jsonDecodeError : Except PyError α) :=
  fails_error (Or.inl rfl)

lemma Fails.json (hx : Fails scanFailure x) : Fails jsonFailure x :=
  hx.mono fun _ => Or.inl

lemma fails_decode : Fails jsonFailure (.error .jsonDecodeError : Except PyError α) :=
  fails_scan.json

lemma fails_recursion : Fails jsonFailure (.error .recursionError : Except PyError α) :=
  fails_error (Or.inr rfl)

end Failures

section Scanners

lemma fails_scanString (s : PyStr) : Fails scanFailure (scanString s) := by
  fun_induction scanString s with
  | case1 => exact fails_scan
  | case2 => exact fails_ok _
  | case3 => exact fails_scan
  | case4 => exact fails_scan
  | case5 => exact fails_scan
  | case6 _ _ _ _ _ _ _ _ _ ih => exact ih.map _
  | case7 => exact fails_scan
  | case8 => exact fails_scan
  | case9 _ _ _ _ _ _ _ ih => exact ih.map _
  | case10 _ _ _ _ _ ih => exact ih.map _

lemma fails_scanAtom [Interpreter] (s : PyStr) : Fails scanFailure (scanAtom s) := by
  rw [scanAtom]
  split
  · exact fails_ok _
  · simp only [scanNumber]
    split_ifs
    · exact fails_scan
    · exact fails_error (Or.inr rfl)
    · exact fails_ok _
    · exact fails_ok _

end Scanners

section Values

variable [Interpreter] {n : ℕ}

lemma fails_parseValue (helems : ∀ left s, Fails jsonFailure (parseElems left n s))
    (hmembers : ∀ left s, Fails jsonFailure (parseMembers left n s)) (left : ℕ) (s : PyStr) :
    Fails jsonFailure (parseValue left (n + 1) s) := by
  rw [parseValue]
  split_ifs
  · exact (fails_scanString _).json.map _
  · exact fails_recursion
  · exact fails_ok _
  · exact (helems _ _).map _
  · exact fails_recursion
  · exact fails_ok _
  · exact (hmembers _ _).map _
  · exact (fails_scanAtom s).json

lemma fails_parseElems (hvalue : ∀ left s, Fails jsonFailure (parseValue left n s))
    (helems : ∀ left s, Fails jsonFailure (parseElems left n s)) (left : ℕ) (s : PyStr) :
    Fails jsonFailure (parseElems left (n + 1) s) := by
  rw [parseElems]
  refine (hvalue left s).bind fun r => ?_
  simp only
  split_ifs
  · exact fails_ok _
  · exact (helems _ _).map _
  · exact fails_decode

lemma fails_parseMembers (hvalue : ∀ left s, Fails jsonFailure (parseValue left n s))
    (hmembers : ∀ left s, Fails jsonFailure (parseMembers left n s)) (left : ℕ) (s : PyStr) :
    Fails jsonFailure (parseMembers left (n + 1) s) := by
  rw [parseMembers]
  split_ifs
  swap
  · exact fails_decode
  refine (fails_scanString _).json.bind fun k => ?_
  simp only
  split_ifs
  swap
  · exact fails_decode
  refine (hvalue _ _).bind fun v => ?_
  split_ifs
  · exact fails_ok _
  · exact (hmembers _ _).map _
  · exact fails_decode

lemma fails_parse (n : ℕ) : (∀ left s, Fails jsonFailure (parseValue left n s)) ∧
    (∀ left s, Fails jsonFailure (parseElems left n s)) ∧ ∀ left s, Fails jsonFailure (parseMembers left n s) := by
  induction n with
  | zero =>
    refine ⟨fun left s => ?_, fun left s => ?_, fun left s => ?_⟩
    · rw [parseValue]
      exact fails_recursion
    · rw [parseElems]
      exact fails_recursion
    · rw [parseMembers]
      exact fails_recursion
  | succ n ih =>
    obtain ⟨hvalue, helems, hmembers⟩ := ih
    exact ⟨fails_parseValue helems hmembers, fails_parseElems hvalue helems,
      fails_parseMembers hvalue hmembers⟩

theorem fails_jsonLoads (s : PyStr) : Fails jsonFailure (jsonLoads s) := by
  rw [jsonLoads]
  split_ifs
  · exact fails_decode
  · refine ((fails_parse _).1 _ _).bind fun r => ?_
    simp only
    split_ifs
    · exact fails_ok _
    · exact fails_decode

/-- A text without brackets does not nest at all. -/
theorem jsonLoads_flat {s : PyStr} (hs : ch '[' ∉ s ∧ ch '{' ∉ s) : jsonLoads s ≠ .error .recursionError := by
  have hhead (c : CodePoint) (hc : c ∉ s) : (skipWs s).head? ≠ some c :=
    fun h => hc ((List.dropWhile_sublist _).subset (List.mem_of_mem_head? h))
  have hread : Fails scanFailure (jsonLoads s) := by
    rw [jsonLoads, parseValue, if_neg (hhead _ hs.1), if_neg (hhead _ hs.2)]
    split_ifs
    · exact fails_scan
    · refine ((fails_scanString _).map _).bind fun r => ?_
      simp only
      split_ifs
      · exact fails_ok _
      · exact fails_scan
    · refine (fails_scanAtom _).bind fun r => ?_
      simp only
      split_ifs
      · exact fails_ok _
      · exact fails_scan
  intro h
  obtain he | he := hread _ h <;> cases he

end Values

end GemmaWorker.Python
