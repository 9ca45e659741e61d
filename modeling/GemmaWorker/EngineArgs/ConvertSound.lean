import GemmaWorker.EngineArgs.TypeGrammar

/-! When the conversion of a text gives a value of the declared type: what is read goes to the engine
without a comparison with the type, and the type that decides how to read may be that of an element. -/

namespace GemmaWorker.EngineArgs

open GemmaWorker.Python

/-- The texts that a scalar type reads. -/
def Scalar.Reads [Interpreter] : Scalar → PyStr → Prop
  | .int, val => ∃ n, pyInt val = .ok n
  | .float, val => ∃ x, pyFloat val = .ok x
  | _, _ => True

/-- What stands between the commas of a text. -/
def pieces (val : PyStr) : List PyStr :=
  ((split (ch ',') val).map strip).filter (· ≠ [])

def characters (s : PyStr) : Value :=
  .tuple (s.map (fun c => .str [c]))

namespace PyType

section Condition

variable [Interpreter]

def Sound (py : Builtins) (t : PyType) (value : PyStr) : Prop :=
  match t.convertEnvValueToFieldType py value with
  | .ok v => t.Has v
  | .error e => skipped e = true

/-- The text is JSON for a value of the type, or it is no JSON and the type has texts. -/
def SuitsJson (t : PyType) (val : PyStr) : Prop :=
  jsonLoads val ≠ .error .recursionError ∧ (∀ v, jsonLoads val = .ok v → t.Has v) ∧
    (jsonLoads val = .error .jsonDecodeError → .scalar .str ∈ t.members)

/-- The array in the text is empty, or there is none and nothing between its commas. -/
def ListsNothing (val : PyStr) : Prop :=
  match jsonLoads val with
  | .ok (.list xs) => xs = []
  | _ => pieces val = []

/-- The type has the tuple of the elements' elements, where the text is an array of texts, lists and
dicts, and else the tuple of the characters of each piece. -/
def SuitsNested (t : PyType) (val : PyStr) : Prop :=
  match jsonLoads val with
  | .ok (.list xs) =>
    match xs.mapM iterate with
    | .ok yss => t.Has (.tuple (yss.map .tuple))
    | .error _ => t.Has (.tuple ((pieces val).map characters))
  | _ => t.Has (.tuple ((pieces val).map characters))

def SuitsTuple (t : PyType) (val : PyStr) : Prop :=
  jsonLoads val ≠ .error .recursionError ∧ (jsonLoads val = .error .valueError ∨
    match t.elemType with
    | .scalar _ => t.isGeneric = true → ListsNothing val
    | .noneType => jsonLoads val = .ok (.list []) ∨ pieces val = [] → t.Has (.tuple [])
    | _ => t.SuitsNested val)

def Suits (t : PyType) (val : PyStr) : Prop :=
  match t.resolveFieldType with
  | .scalar s => t.isGeneric = true → ¬ s.Reads val
  | .bare .tuple => t.SuitsTuple val
  | .generic .tuple _ => t.SuitsTuple val
  | .bare _ => t.SuitsJson val
  | .generic _ _ => t.SuitsJson val
  | _ => False

end Condition

section Types

variable {t a : PyType} {v : Value}

lemma not_isNoneType (h : Declared t) : t.isNoneType = false := by
  cases h <;> rfl

lemma not_isEllipsis (h : Declared t) : t.isEllipsis = false := by
  cases h <;> rfl

/-- A declared type is read as itself, as a member of its union or as its first element type. -/
inductive Resolves : PyType → PyType → Prop
  | scalar (s : Scalar) : Resolves (.scalar s) (.scalar s)
  | bare (c : Container) : Resolves (.bare c) (.bare c)
  | unit : Resolves (.generic .tuple []) (.generic .tuple [])
  | elem {c : Container} {a : PyType} {args : List PyType} (h : Declared a) : Resolves (.generic c (a :: args)) a
  | first {ms : List PyType} {a : PyType} (h : Declared a) (hflat : a.isUnion = false) :
    Resolves (.union (a :: ms)) a
  | afterNone {ms : List PyType} {a : PyType} (hm : a ∈ ms) (h : Declared a) (hflat : a.isUnion = false) :
    Resolves (.union (.noneType :: ms)) a

lemma eq_noneType (h : t.isNoneType = true) : t = .noneType := by
  cases t <;> first | rfl | cases h

lemma resolves_elem {c : Container} {args : List PyType} (h : Declared a) :
    Resolves (.generic c (a :: args)) (generic c (a :: args)).resolveFieldType := by
  rw [resolveFieldType, PyType.args, List.filter_cons_of_pos (by simp [not_isNoneType h])]
  exact .elem h

lemma resolves (h : Declared t) : Resolves t t.resolveFieldType := by
  cases h with
  | scalar s => exact .scalar s
  | bare c => exact .bare c
  | list h => exact resolves_elem h
  | dict hk h => exact resolves_elem hk
  | tupleOf h => exact resolves_elem h
  | @tupleFixed ts h =>
    cases ts with
    | nil => exact .unit
    | cons a ts => exact resolves_elem (h a List.mem_cons_self)
  | @union ms hlen hnodup hflat h =>
    rw [resolveFieldType, PyType.args]
    obtain ⟨a, b, rest, rfl⟩ : ∃ a b rest, ms = a :: b :: rest := by
      cases ms with
      | nil => simp at hlen
      | cons a ms =>
        cases ms with
        | nil => simp at hlen
        | cons b rest => exact ⟨a, b, rest, rfl⟩
    cases ha : a.isNoneType with
    | false =>
      rw [List.filter_cons_of_pos (by simp [ha])]
      exact .first (h a (by simp) ha) (hflat a (by simp))
    | true =>
      obtain rfl := eq_noneType ha
      cases hb : b.isNoneType with
      | false =>
        rw [List.filter_cons_of_neg (by simp [ha]), List.filter_cons_of_pos (by simp [hb])]
        exact .afterNone (by simp) (h b (by simp) hb) (hflat b (by simp))
      | true =>
        -- no member is repeated, `None` neither
        obtain rfl := eq_noneType hb
        simp at hnodup

lemma resolved_kind (h : Resolves t a) : a.isNoneType = false ∧ a.isEllipsis = false := by
  cases h with
  | scalar => exact ⟨rfl, rfl⟩
  | bare => exact ⟨rfl, rfl⟩
  | unit => exact ⟨rfl, rfl⟩
  | elem h => exact ⟨not_isNoneType h, not_isEllipsis h⟩
  | first h => exact ⟨not_isNoneType h, not_isEllipsis h⟩
  | afterNone _ h => exact ⟨not_isNoneType h, not_isEllipsis h⟩

lemma not_has_scalar {c : Container} {args : List PyType} (hv : iterate v = .error .typeError ∨ ∃ s, v = .str s) :
    ¬ Has (.generic c args) v := by
  intro h
  cases h <;> simp [iterate] at hv

lemma has_str_iff (h : Declared t) (s : PyStr) : t.Has (.str s) ↔ .scalar .str ∈ t.members := by
  have hflat {m : PyType} (hm : m.isUnion = false) : m.Has (.str s) ↔ .scalar .str = m := by
    constructor
    · intro hhas
      cases hhas with
      | @scalar r v hr => cases r <;> first | rfl | exact absurd hr id
      | member hm' h' => cases hm
    · rintro rfl
      exact .scalar trivial
  cases h with
  | @union ms hlen hnodup hunion hms =>
    constructor
    · intro hhas
      cases hhas with
      | @member _ m _ hm hm' => exact (hflat (hunion m hm)).mp hm' ▸ hm
    · exact fun hm => .member hm ((hflat (hunion _ hm)).mpr rfl)
  | scalar => exact (hflat rfl).trans List.mem_singleton.symm
  | bare => exact (hflat rfl).trans List.mem_singleton.symm
  | list => exact (hflat rfl).trans List.mem_singleton.symm
  | dict => exact (hflat rfl).trans List.mem_singleton.symm
  | tupleOf => exact (hflat rfl).trans List.mem_singleton.symm
  | tupleFixed => exact (hflat rfl).trans List.mem_singleton.symm

lemma elemType_cons {c : Container} {a : PyType} {args : List PyType} (h : a.isEllipsis = false) :
    (generic c (a :: args)).elemType = a ∧ (union (a :: args)).elemType = a := by
  constructor <;>
    rw [elemType, PyType.args, List.filter_cons_of_pos (by simp [h])]

lemma elem_cases {r : PyType} (hr : Resolves t r) (htuple : r.called = .tuple) :
    t.elemType = .scalar .str ∧ (t = .bare .tuple ∨ t = .generic .tuple []) ∨ t.elemType = .noneType ∨
      t.elemType = r := by
  cases hr with
  | scalar s => cases htuple
  | bare c =>
    cases c with
    | tuple => exact Or.inl ⟨rfl, Or.inl rfl⟩
    | _ => cases htuple
  | unit => exact Or.inl ⟨rfl, Or.inr rfl⟩
  | elem h => exact Or.inr (Or.inr (elemType_cons (not_isEllipsis h)).1)
  | first h _ => exact Or.inr (Or.inr (elemType_cons (c := .list) (not_isEllipsis h)).2)
  | afterNone => exact Or.inr (Or.inl (elemType_cons (c := .list) rfl).2)

lemma none_has (ht : Declared t) (hopt : t.args.any isNoneType = true) : t.Has .none := by
  have hargs {a : PyType} (ha : Declared a) : a.isNoneType = true → False := by
    rw [not_isNoneType ha]
    exact Bool.false_ne_true
  obtain ⟨a, ha, hnone⟩ := List.any_eq_true.mp hopt
  cases ht with
  | scalar => cases ha
  | bare => cases ha
  | list h =>
    obtain rfl := List.mem_singleton.mp ha
    exact (hargs h hnone).elim
  | dict hk h =>
    rcases ha with _ | ⟨_, ha⟩
    · exact (hargs hk hnone).elim
    · obtain rfl := List.mem_singleton.mp ha
      exact (hargs h hnone).elim
  | tupleOf h =>
    rcases ha with _ | ⟨_, ha⟩
    · exact (hargs h hnone).elim
    · obtain rfl := List.mem_singleton.mp ha
      cases hnone
  | tupleFixed h => exact (hargs (h a ha) hnone).elim
  | union => exact .member ha (eq_noneType hnone ▸ .none)

end Types

section Scalars

variable [Interpreter] {s : Scalar} {val : PyStr} {v : Value} {t : PyType}

def readScalar : Scalar → PyStr → Except PyError Value
  | .bool, val => .ok (.bool (lower val ∈ trueWords))
  | .int, val => (pyInt val).map .int
  | .float, val => (pyFloat val).map .float
  | .str, val => .ok (.str val)

lemma reads_iff : s.Reads val ↔ ∃ v, readScalar s val = .ok v := by
  cases s with
  | bool => exact iff_of_true trivial ⟨_, rfl⟩
  | int => cases h : pyInt val <;> simp [Scalar.Reads, readScalar, h, Except.map]
  | float => cases h : pyFloat val <;> simp [Scalar.Reads, readScalar, h, Except.map]
  | str => exact iff_of_true trivial ⟨_, rfl⟩

lemma readScalar_holds (h : readScalar s val = .ok v) :
    s.Holds v ∧ (iterate v = .error .typeError ∨ ∃ s, v = .str s) := by
  cases s with
  | bool =>
    cases h
    exact ⟨trivial, Or.inl rfl⟩
  | int =>
    rw [readScalar] at h
    cases hint : pyInt val with
    | error e => simp [hint, Except.map] at h
    | ok n =>
      obtain rfl : Value.int n = v := by simpa [hint, Except.map] using h
      exact ⟨trivial, Or.inl rfl⟩
  | float =>
    rw [readScalar] at h
    cases hfloat : pyFloat val with
    | error e => simp [hfloat, Except.map] at h
    | ok x =>
      obtain rfl : Value.float x = v := by simpa [hfloat, Except.map] using h
      exact ⟨trivial, Or.inl rfl⟩
  | str =>
    cases h
    exact ⟨trivial, Or.inr ⟨_, rfl⟩⟩

lemma scalar_sound (h : Resolves t (.scalar s)) :
    (∀ v, readScalar s val = .ok v → t.Has v) ↔ (t.isGeneric = true → ¬ s.Reads val) := by
  cases h with
  | scalar =>
    refine iff_of_true (fun v hv => .scalar (readScalar_holds hv).1) ?_
    simp [isGeneric]
  | elem =>
    rw [reads_iff]
    constructor
    · rintro hall - ⟨v, hv⟩
      exact not_has_scalar (readScalar_holds hv).2 (hall v hv)
    · intro hno v hv
      exact absurd ⟨v, hv⟩ (hno rfl)
  | first =>
    refine iff_of_true (fun v hv => .member List.mem_cons_self (.scalar (readScalar_holds hv).1)) ?_
    simp [isGeneric]
  | afterNone hm =>
    refine iff_of_true (fun v hv => .member (List.mem_cons_of_mem _ hm) (.scalar (readScalar_holds hv).1)) ?_
    simp [isGeneric]

lemma fallback_plain (val : PyStr) :
    iterate (convertFallback val) = .error .typeError ∨ ∃ s, convertFallback val = .str s := by
  rw [convertFallback]
  split
  · exact Or.inl rfl
  · exact Or.inl rfl
  · exact Or.inr ⟨val, rfl⟩

end Scalars

section Containers

variable [Interpreter] {t : PyType} {val : PyStr} {py : Builtins}

lemma json_sound (h : Declared t) (hdeep : jsonLoads val ≠ .error .recursionError) :
    (∀ v, convertJson val = .ok v → t.Has v) ↔ t.SuitsJson val := by
  rw [SuitsJson, and_iff_right hdeep, ← has_str_iff h val, convertJson]
  cases hjson : jsonLoads val with
  | ok v => simp
  | error e => obtain (rfl | rfl) | rfl := fails_jsonLoads val e hjson <;> simp

lemma convertTuple_eq (elem : Simple) : convertTuple py elem val =
    match jsonLoads val with
    | .ok (.list xs) =>
      match xs.mapM (construct py elem) with
      | .ok ys => .ok (.tuple ys)
      | .error e => if e = .jsonDecodeError ∨ e = .typeError then tupleFromText py elem val else .error e
    | .ok _ => tupleFromText py elem val
    | .error e => if e = .jsonDecodeError ∨ e = .typeError then tupleFromText py elem val else .error e := by
  rw [convertTuple, tupleFromList]
  cases hjson : jsonLoads val with
  | error e => rfl
  | ok v =>
    cases v with
    | list xs => cases hxs : xs.mapM (construct py elem) <;> simp [bind, Except.bind, pure, Except.pure, hxs]
    | _ => rfl

lemma mapM_strs (xs : List Value) :
    xs.mapM (construct py (.scalar .str)) = .ok (xs.map (fun x => .str (strOf py x))) := by
  induction xs with
  | nil => rfl
  | cons x xs ih =>
    rw [List.mapM_cons, ih]
    rfl

lemma mapM_tuples (xs : List Value) :
    xs.mapM (construct py .tuple) = (xs.mapM iterate).map (List.map .tuple) := by
  induction xs with
  | nil => rfl
  | cons x xs ih =>
    rw [List.mapM_cons, List.mapM_cons, ih, construct]
    cases iterate x with
    | error e => rfl
    | ok ys => cases xs.mapM iterate <;> rfl

lemma mapM_none (xs : List Value) : xs.mapM (construct py .noneType) =
    if xs = [] then .ok [] else .error .typeError := by
  cases xs <;> rfl

lemma text_eq (elem : Simple) : tupleFromText py elem val =
    ((pieces val).map Value.str).mapM (construct py elem) >>= fun ys => .ok (.tuple ys) := by
  rw [tupleFromText, List.mapM_map]
  rfl

lemma text_strs : tupleFromText py (.scalar .str) val = .ok (.tuple ((pieces val).map .str)) := by
  rw [text_eq, mapM_strs, List.map_map]
  rfl

lemma text_tuples : tupleFromText py .tuple val = .ok (.tuple ((pieces val).map characters)) := by
  have hiterate (ss : List PyStr) : (ss.map Value.str).mapM iterate =
      .ok (ss.map (fun s => s.map (fun c => .str [c]))) := by
    induction ss with
    | nil => rfl
    | cons s ss ih =>
      rw [List.map_cons, List.mapM_cons, ih]
      rfl
  rw [text_eq, mapM_tuples, hiterate, Except.map, List.map_map]
  rfl

lemma text_none : tupleFromText py .noneType val =
    if pieces val = [] then .ok (.tuple []) else .error .typeError := by
  rw [text_eq, mapM_none]
  by_cases h : pieces val = [] <;> simp [h, bind, Except.bind]

/-- The texts that the two readers agree on: an array of a list, a value of another shape or no JSON,
and an integer that is too long. -/
lemma json_cases (hdeep : jsonLoads val ≠ .error .recursionError) : (∃ xs, jsonLoads val = .ok (.list xs)) ∨
    (jsonLoads val = .error .jsonDecodeError ∨ ∃ v, jsonLoads val = .ok v ∧ ∀ xs, v ≠ .list xs) ∨
    jsonLoads val = .error .valueError := by
  cases hjson : jsonLoads val with
  | ok v => cases v <;> simp
  | error e =>
    obtain (rfl | rfl) | rfl := fails_jsonLoads val e hjson
    · simp
    · simp
    · exact absurd hjson hdeep

lemma convertTuple_text (elem : Simple) (h : jsonLoads val = .error .jsonDecodeError ∨
    ∃ v, jsonLoads val = .ok v ∧ ∀ xs, v ≠ .list xs) :
    convertTuple py elem val = tupleFromText py elem val := by
  rw [convertTuple_eq]
  rcases h with h | ⟨v, h, hv⟩
  · simp [h]
  · cases v with
    | list xs => exact absurd rfl (hv xs)
    | _ => simp [h]

lemma convertTuple_long (elem : Simple) (h : jsonLoads val = .error .valueError) :
    convertTuple py elem val = .error .valueError := by
  simp [convertTuple_eq, h]

lemma listsNothing_text (h : jsonLoads val = .error .jsonDecodeError ∨
    ∃ v, jsonLoads val = .ok v ∧ ∀ xs, v ≠ .list xs) : ListsNothing val ↔ pieces val = [] := by
  rw [ListsNothing]
  rcases h with h | ⟨v, h, hv⟩
  · simp [h]
  · cases v with
    | list xs => exact absurd rfl (hv xs)
    | _ => simp [h]

lemma strs_sound (hdeep : jsonLoads val ≠ .error .recursionError)
    (ht : t = .bare .tuple ∨ t = .generic .tuple []) :
    (∀ v, convertTuple py (.scalar .str) val = .ok v → t.Has v) ↔
      jsonLoads val = .error .valueError ∨ (t.isGeneric = true → ListsNothing val) := by
  have htuple (xs : List Value) : t.Has (.tuple xs) ↔ (t.isGeneric = true → xs = []) := by
    rcases ht with rfl | rfl
    · exact iff_of_true (.tuple xs) (by simp [isGeneric])
    · constructor
      · intro h _
        cases h with
        | tupleFixed h => exact List.forall₂_nil_left_iff.mp h
      · intro h
        exact (h rfl) ▸ .tupleFixed .nil
  rcases json_cases hdeep with ⟨xs, h⟩ | h | h
  · rw [convertTuple_eq]
    simp [h, mapM_strs, htuple, ListsNothing]
  · have hlong : jsonLoads val ≠ .error .valueError := by
      rcases h with h | ⟨v, h, _⟩ <;> simp [h]
    rw [convertTuple_text _ h, text_strs, listsNothing_text h]
    simp [htuple, hlong]
  · simp [convertTuple_long, h]

/-- `NoneType` cannot be called, so that only the empty tuple is made. -/
lemma none_sound (hdeep : jsonLoads val ≠ .error .recursionError) :
    (∀ v, convertTuple py .noneType val = .ok v → t.Has v) ↔
    jsonLoads val = .error .valueError ∨
      (jsonLoads val = .ok (.list []) ∨ pieces val = [] → t.Has (.tuple [])) := by
  rcases json_cases hdeep with ⟨xs, h⟩ | h | h
  · rw [convertTuple_eq]
    by_cases hxs : xs = []
    · simp [h, hxs, pure, Except.pure]
    · by_cases hp : pieces val = [] <;> simp [h, hxs, mapM_none, text_none, hp]
  · have hlong : jsonLoads val ≠ .error .valueError ∧ jsonLoads val ≠ .ok (.list []) := by
      rcases h with h | ⟨v, h, hv⟩
      · simp [h]
      · simp [h, hv]
    rw [convertTuple_text _ h, text_none]
    by_cases hp : pieces val = [] <;> simp [hp, hlong]
  · simp [convertTuple_long, h]

lemma nested_sound (hdeep : jsonLoads val ≠ .error .recursionError) :
    (∀ v, convertTuple py .tuple val = .ok v → t.Has v) ↔
      jsonLoads val = .error .valueError ∨ t.SuitsNested val := by
  rw [SuitsNested]
  rcases json_cases hdeep with ⟨xs, h⟩ | h | h
  · rw [convertTuple_eq]
    cases hxs : xs.mapM iterate with
    | ok yss => simp [h, mapM_tuples, hxs, Except.map]
    | error e =>
      have hiterate (x : Value) : Fails (fun e => e = .typeError) (iterate x) := by
        intro e he
        cases x <;> cases he <;> rfl
      have he : e = .typeError := fails_mapM hiterate xs e hxs
      simp [h, mapM_tuples, hxs, Except.map, he, text_tuples]
  · rw [convertTuple_text _ h, text_tuples]
    rcases h with h | ⟨v, h, hv⟩
    · simp [h]
    · cases v with
      | list xs => exact absurd rfl (hv xs)
      | _ => simp [h]
  · simp [convertTuple_long, h]

lemma tuple_sound (hdeep : jsonLoads val ≠ .error .recursionError) {r : PyType} (hr : Resolves t r)
    (htuple : r.called = .tuple) :
    (∀ v, convertTuple py t.elemType.called val = .ok v → t.Has v) ↔ t.SuitsTuple val := by
  rw [SuitsTuple, and_iff_right hdeep]
  rcases elem_cases hr htuple with ⟨helem, ht⟩ | helem | helem
  · rw [helem]
    exact strs_sound hdeep ht
  · rw [helem]
    exact none_sound hdeep
  · rw [helem, htuple]
    cases r with
    | bare c => exact nested_sound hdeep
    | generic c args => exact nested_sound hdeep
    | _ => cases htuple

end Containers

section Main

variable [Interpreter] {py : Builtins} {t : PyType} {value : PyStr}

/-- `json.loads` is called for the type. -/
def ReadsJson (t : PyType) : Prop :=
  ∃ c, t.resolveFieldType = .bare c ∨ ∃ args, t.resolveFieldType = .generic c args

lemma fails_conversion (ht : Declared t)
    (hshallow : t.ReadsJson → jsonLoads (strip value) ≠ .error .recursionError) :
    Fails (convertFailure False) (t.convertEnvValueToFieldType py value) := by
  have hjson {c : Container} (hr : t.resolveFieldType = .bare c ∨ ∃ args, t.resolveFieldType = .generic c args)
      (hdeep : jsonLoads (strip value) = .error .recursionError) : False :=
    hshallow ⟨c, hr⟩ hdeep
  have htuple (hr : (t.resolveFieldType).called = .tuple)
      (hdeep : jsonLoads (strip value) = .error .recursionError → False) :
      Fails (convertFailure False) (convertTuple py t.elemType.called (strip value)) := by
    refine fails_convertTuple ?_ hdeep
    rcases elem_cases (resolves ht) hr with ⟨helem, _⟩ | helem | helem
    · exact Or.inl (by rw [helem]; rfl)
    · exact Or.inr (Or.inl (by rw [helem]; rfl))
    · exact Or.inr (Or.inr (by rw [helem, hr]; trivial))
  simp only [convertEnvValueToFieldType]
  split_ifs
  · exact fails_ok _
  · exact fails_caught rfl
  · cases hr : t.resolveFieldType with
    | scalar s =>
      cases s with
      | bool => exact fails_ok _
      | int => exact (fails_pyInt _).map _
      | float => exact (fails_pyFloat _).map _
      | str => exact fails_ok _
    | bare c =>
      cases c with
      | tuple => exact htuple (by rw [hr]; rfl) (hjson (Or.inl hr))
      | _ => exact fails_convertJson (hjson (Or.inl hr))
    | generic c args =>
      cases c with
      | tuple => exact htuple (by rw [hr]; rfl) (hjson (Or.inr ⟨args, hr⟩))
      | _ => exact fails_convertJson (hjson (Or.inr ⟨args, hr⟩))
    | _ => exact fails_ok _

lemma sound_iff_has (ht : Declared t)
    (hshallow : t.ReadsJson → jsonLoads (strip value) ≠ .error .recursionError) : t.Sound py value ↔
    ∀ v, t.convertEnvValueToFieldType py value = .ok v → t.Has v := by
  rw [Sound]
  cases h : t.convertEnvValueToFieldType py value with
  | ok v => simp
  | error e =>
    obtain hskip | ⟨-, hdeep⟩ := fails_conversion ht hshallow e h
    · simp [hskip]
    · exact hdeep.elim

/-- A text that nests too deep for the container ends the conversion with an exception that nothing catches. -/
lemma unsound_of_deep (hread : t.ReadsJson) (hdeep : jsonLoads (strip value) = .error .recursionError) :
    ¬ t.Sound py value := by
  have hraises : t.convertEnvValueToFieldType py value = .error .recursionError := by
    have htuple : convertTuple py t.elemType.called (strip value) = .error .recursionError :=
      convertTuple_tooDeep hdeep
    have hjson : convertJson (strip value) = .error .recursionError := by rw [convertJson, hdeep]
    simp only [convertEnvValueToFieldType, if_neg (notMem_emptyWords hdeep)]
    obtain ⟨c, hr | ⟨args, hr⟩⟩ := hread <;> rw [hr] <;> cases c <;> assumption
  rw [Sound, hraises]
  exact Bool.false_ne_true

lemma not_suits_of_deep (hread : t.ReadsJson) (hdeep : jsonLoads (strip value) = .error .recursionError) :
    ¬ t.Suits (strip value) := by
  rw [Suits]
  obtain ⟨c, hr | ⟨args, hr⟩⟩ := hread <;> rw [hr] <;> cases c <;> exact fun h => h.1 hdeep

/-- An element type that is a union is read by the fallback, which makes no container. -/
lemma fallback_unsound {ms : List PyType} (hr : Resolves t (.union ms)) (val : PyStr) :
    ¬ t.Has (convertFallback val) := by
  cases hr with
  | elem => exact not_has_scalar (fallback_plain val)
  | first _ hflat => cases hflat
  | afterNone _ _ hflat => cases hflat

/-- The conversion of a text is sound exactly when the text suits the type. -/
theorem convert_sound_iff (py : Builtins) (t : PyType) (ht : Declared t) (value : PyStr) :
    t.Sound py value ↔ strip value ∈ emptyWords ∨ t.Suits (strip value) := by
  by_cases hdeep : jsonLoads (strip value) = .error .recursionError ∧ t.ReadsJson
  · refine iff_of_false (unsound_of_deep hdeep.2 hdeep.1) (not_or_intro ?_ ?_)
    · exact notMem_emptyWords hdeep.1
    · exact not_suits_of_deep hdeep.2 hdeep.1
  rw [not_and'] at hdeep
  rw [sound_iff_has ht hdeep]
  by_cases hempty : strip value ∈ emptyWords
  · refine iff_of_true (fun v hv => ?_) (Or.inl hempty)
    simp only [convertEnvValueToFieldType, if_pos hempty] at hv
    split_ifs at hv with hnone
    · obtain rfl := Except.ok.inj hv
      exact none_has ht hnone
  · simp only [hempty, false_or, convertEnvValueToFieldType, if_false]
    have hresolves := resolves ht
    rw [Suits]
    cases hr : t.resolveFieldType with
    | scalar s =>
      refine Iff.trans ?_ (scalar_sound (hr ▸ hresolves))
      cases s <;> exact Iff.rfl
    | bare c =>
      have hjson := hdeep ⟨c, Or.inl hr⟩
      cases c with
      | tuple => exact tuple_sound hjson (hr ▸ hresolves) rfl
      | _ => exact json_sound ht hjson
    | generic c args =>
      have hjson := hdeep ⟨c, Or.inr ⟨args, hr⟩⟩
      cases c with
      | tuple => exact tuple_sound hjson (hr ▸ hresolves) rfl
      | _ => exact json_sound ht hjson
    | union ms => simpa using fallback_unsound (hr ▸ hresolves) (strip value)
    | noneType => cases (resolved_kind (hr ▸ hresolves)).1
    | ellipsis => cases (resolved_kind (hr ▸ hresolves)).2

end Main

section Example

def reprless : Builtins :=
  ⟨fun _ => [], fun _ => .error .typeError⟩

def optionalTexts : PyType :=
  .union [.generic .list [.scalar .str], .noneType]

lemma declared_optionalTexts : optionalTexts.Declared := by
  refine .union (by decide) (by simp) ?_ ?_
  · simp [isUnion]
  · intro m hm hnone
    rcases hm with _ | ⟨_, hm⟩
    · exact .list (.scalar .str)
    · obtain rfl := List.mem_singleton.mp hm
      cases hnone

theorem array_of_texts_sound :
    optionalTexts.Sound reprless ((Value.list [.str (lit "a")]).text []) := by
  have hblank : IsBlank [] := rfl
  have htrimmed : IsTrimmed ((Value.list [.str (lit "a")]).text []) := encodes_trimmed (.list hblank _)
  have hjson : jsonLoads ((Value.list [.str (lit "a")]).text []) = .ok (.list [.str (lit "a")]) := by
    have hencodable : encodable (lit "a") = true := by decide
    apply jsonLoads_text hblank
    · simp [Value.IsJson, AllJson, hencodable]
    · simp [Value.Readable, Value.Fits, AllFit, Interpreter.nesting_pos]
  refine (convert_sound_iff reprless optionalTexts declared_optionalTexts _).mpr (Or.inr ⟨?_, ?_, ?_⟩)
  · rw [htrimmed, hjson]
    rintro ⟨⟩
  · rw [htrimmed, hjson]
    rintro v ⟨⟩
    refine .member List.mem_cons_self (.listOf fun x hx => ?_)
    obtain rfl := List.mem_singleton.mp hx
    exact .scalar trivial
  · rw [htrimmed, hjson]
    simp

/-- A raw text, and a number, where a list of texts or of numbers is declared. -/
theorem raw_text_for_list :
    optionalTexts.convertEnvValueToFieldType reprless (lit "a,b") = .ok (.str (lit "a,b")) ∧
      ¬ optionalTexts.Sound reprless (lit "a,b") ∧
      (generic .list [.scalar .int]).convertEnvValueToFieldType reprless (lit "7") = .ok (.int 7) ∧
      ¬ (generic .list [.scalar .int]).Sound reprless (lit "7") := by
  have hfails : (jsonLoads (lit "a,b")).map (fun _ => ()) = .error .jsonDecodeError := by decide +kernel
  have hjson : convertJson (lit "a,b") = .ok (.str (lit "a,b")) := by
    rw [convertJson]
    cases h : jsonLoads (lit "a,b") with
    | ok v => simp [h, Except.map] at hfails
    | error e =>
      obtain rfl : e = .jsonDecodeError := by simpa [h, Except.map] using hfails
      rfl
  have htext : optionalTexts.convertEnvValueToFieldType reprless (lit "a,b") = .ok (.str (lit "a,b")) := by
    exact hjson
  have hnumber : (generic .list [.scalar .int]).convertEnvValueToFieldType reprless (lit "7") =
      .ok (.int 7) := by
    rfl
  refine ⟨htext, ?_, hnumber, ?_⟩
  · rw [Sound, htext]
    exact fun h => absurd ((has_str_iff declared_optionalTexts _).mp h) (by simp [optionalTexts, members])
  · rw [Sound, hnumber]
    rintro ⟨⟩

end Example

end PyType

end GemmaWorker.EngineArgs
