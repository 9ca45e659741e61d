import GemmaWorker.EngineArgs.Convert

/-! Which values the conversion reads back from their environment texts. -/

namespace GemmaWorker.EngineArgs

open GemmaWorker.Python

section Condition

variable [Interpreter]

def SurvivesJson (v : Value) (s : PyStr) : Prop :=
  match v with
  | .bool _ => True
  | .float (.finite d) => v.Readable ∧ s = d.text
  | .str t => jsonLoads t = .error .jsonDecodeError
  | .int _ | .list _ | .dict _ => v.Readable
  | _ => False

def SurvivesTuple (t : FieldType) (v : Value) : Prop :=
  v = .tuple [] ∨ t = .simple .tuple ∧ ∃ words : List PyStr, v = .tuple (words.map .str)

def Survives (t : FieldType) (v : Value) (s : PyStr) : Prop :=
  v = .none ∨ match resolveFieldType t with
    | .simple (.scalar k) => k.Has v ∧ v.Readable
    | .simple (.list _) => SurvivesJson v s
    | .simple (.dict _) => SurvivesJson v s
    | .simple .tuple => SurvivesTuple t v
    | .simple (.tupleOf _) => SurvivesTuple t v
    | .simple (.tupleFixed _ _) => SurvivesTuple t v
    | _ => False

end Condition

section Resolution

variable {t : FieldType} {m b : Simple}

lemma resolve_union {members : List Simple} (hm : m ∈ members) (hne : m ≠ .noneType) :
    ∃ b ∈ members, b ≠ .noneType ∧ resolveFieldType (.union members) = .simple b ∧
      ∀ a rest, members = a :: rest → a = .noneType ∨ a = b := by
  have hkept : m ∈ members.filter (· ≠ .noneType) := List.mem_filter.mpr ⟨hm, by simpa using hne⟩
  obtain ⟨b, bs, hbs⟩ := List.exists_cons_of_ne_nil (List.ne_nil_of_mem hkept)
  have hb := List.mem_filter.mp (hbs ▸ List.mem_cons_self : b ∈ members.filter (· ≠ .noneType))
  refine ⟨b, hb.1, by simpa using hb.2, ?_, ?_⟩
  · rw [resolveFieldType, FieldType.args, hbs]
  · rintro a rest rfl
    by_cases ha : a = .noneType
    · exact Or.inl ha
    · rw [List.filter_cons_of_pos (by simpa using ha)] at hbs
      exact Or.inr (List.cons.inj hbs).1

lemma resolve_member (ht : t.Declared) (hm : m ∈ t.members) (hne : m ≠ .noneType) :
    ∃ b, resolveFieldType t = .simple b ∧ b ≠ .noneType ∧ b ≠ .ellipsis ∧
      ((∃ k, b = .scalar k) ∨ elemType t = .noneType ∨ elemType t = b ∨
        (t = .simple .tuple ∨ ∃ e, b = .list e ∨ b = .dict e)) := by
  cases t with
  | simple a =>
    obtain ⟨hn, he⟩ := ht
    cases a with
    | noneType => exact absurd rfl hn
    | ellipsis => exact absurd rfl he
    | scalar s => exact ⟨.scalar s, rfl, by simp, by simp, Or.inl ⟨s, rfl⟩⟩
    | list e => cases e <;> exact ⟨_, rfl, by simp, by simp, by simp⟩
    | dict e => cases e <;> exact ⟨_, rfl, by simp, by simp, by simp⟩
    | tuple => exact ⟨.tuple, rfl, by simp, by simp, by simp⟩
    | tupleOf s => exact ⟨.scalar s, rfl, by simp, by simp, Or.inl ⟨s, rfl⟩⟩
    | tupleFixed s ss =>
      exact ⟨.scalar s, by simp [resolveFieldType, FieldType.args], by simp, by simp, Or.inl ⟨s, rfl⟩⟩
  | union members =>
    obtain ⟨b, hb, hbn, hr, hhead⟩ := resolve_union hm hne
    refine ⟨b, hr, hbn, fun he => ht.2.2 (he ▸ hb), Or.inr ?_⟩
    obtain ⟨a, rest, rfl⟩ := List.exists_cons_of_ne_nil (List.ne_nil_of_mem hm)
    have ha : a ≠ .ellipsis := fun he => ht.2.2 (by simp [he])
    have helem : elemType (.union (a :: rest)) = a := by simp [elemType, FieldType.args, ha]
    rcases hhead a rest rfl with h | h
    · exact Or.inl (helem.trans h)
    · exact Or.inr (Or.inl (helem.trans h))

end Resolution

section Scalars

variable [Interpreter] {v : Value} {s : PyStr}

lemma allFit_iff {left : ℕ} {xs : List Value} : AllFit left xs ↔ ∀ x ∈ xs, x.Fits left := by
  induction xs with
  | nil => simp [AllFit]
  | cons x xs ih => simp [AllFit, ih]

lemma bool_roundTrip (hs : Encodes v s) :
    Value.bool (lower s ∈ trueWords) = v ↔ Scalar.bool.Has v ∧ v.Readable := by
  constructor
  · rintro rfl
    exact ⟨trivial, by rw [Value.Readable, Value.Fits]; trivial⟩
  · rintro ⟨hv, _⟩
    cases hs with
    | bool b => cases b <;> exact congrArg Value.bool (by decide)
    | number h => cases h <;> simp [Scalar.Has] at hv
    | _ => simp [Scalar.Has] at hv

lemma int_roundTrip (hs : Encodes v s) :
    (pyInt s).map Value.int = .ok v ↔ Scalar.int.Has v ∧ v.Readable := by
  constructor
  · intro h
    cases hn : pyInt s with
    | error e => simp [hn, Except.map] at h
    | ok n =>
      obtain rfl : Value.int n = v := by simpa [hn, Except.map] using h
      cases hs with
      | number h =>
        cases h with
        | int n =>
          rw [pyInt_intText] at hn
          split_ifs at hn with hfit
          exact ⟨trivial, by rwa [Value.Readable, Value.Fits]⟩
  · rintro ⟨hv, hfit⟩
    cases hs with
    | number h =>
      cases h with
      | int n =>
        rw [Value.Readable, Value.Fits] at hfit
        rw [pyInt_intText, if_pos hfit]
        rfl
      | _ => simp [Scalar.Has] at hv
    | _ => simp [Scalar.Has] at hv

lemma pyFloat_whole {d : Decimal} (hd : d.places = 0) :
    pyFloat (intText d.mant) = .ok (Interpreter.nearest d) := by
  obtain ⟨m, k, hm⟩ := d
  obtain rfl : k = 0 := hd
  exact pyFloat_intText m

lemma float_roundTrip (hs : Encodes v s) :
    (pyFloat s).map Value.float = .ok v ↔ Scalar.float.Has v ∧ v.Readable := by
  constructor
  · intro h
    cases hx : pyFloat s with
    | error e => simp [hx, Except.map] at h
    | ok x =>
      obtain rfl : Value.float x = v := by simpa [hx, Except.map] using h
      cases hs with
      | number h =>
        cases h with
        | float d =>
          rw [pyFloat_text] at hx
          exact ⟨trivial, by rw [Value.Readable, Value.Fits]; exact Except.ok.inj hx⟩
        | whole hd =>
          rw [pyFloat_whole hd] at hx
          exact ⟨trivial, by rw [Value.Readable, Value.Fits]; exact Except.ok.inj hx⟩
  · rintro ⟨hv, hkept⟩
    cases hs with
    | number h =>
      cases h with
      | int n => simp [Scalar.Has] at hv
      | float d =>
        rw [Value.Readable, Value.Fits, PyFloat.Kept] at hkept
        rw [pyFloat_text, hkept]
        rfl
      | whole hd =>
        rw [Value.Readable, Value.Fits, PyFloat.Kept] at hkept
        rw [pyFloat_whole hd, hkept]
        rfl
    | _ => simp [Scalar.Has] at hv

lemma str_roundTrip (hs : Encodes v s) : Value.str s = v ↔ Scalar.str.Has v ∧ v.Readable := by
  constructor
  · rintro rfl
    exact ⟨trivial, by rw [Value.Readable, Value.Fits]; trivial⟩
  · rintro ⟨hv, _⟩
    cases hs with
    | str => rfl
    | number h => cases h <;> simp [Scalar.Has] at hv
    | _ => simp [Scalar.Has] at hv

end Scalars

section Json

variable {v : Value} {s : PyStr}

lemma isBlank_nil : IsBlank [] := rfl

lemma isJson_of_has {m : Simple} (h : m.Has v) :
    (∀ xs, v = .list xs → v.IsJson) ∧ (∀ items, v = .dict items → v.IsJson) ∧
      ∀ xs, v = .tuple xs → AllJson xs := by
  refine ⟨?_, ?_, ?_⟩
  · rintro xs rfl
    cases m with
    | list e =>
      rw [Value.IsJson]
      exact h.1
    | scalar k => cases k <;> simp [Simple.Has, Scalar.Has] at h
    | _ => simp [Simple.Has] at h
  · rintro items rfl
    cases m with
    | dict e => exact h.1
    | scalar k => cases k <;> simp [Simple.Has, Scalar.Has] at h
    | _ => simp [Simple.Has] at h
  · rintro xs rfl
    cases m with
    | tuple => exact h
    | tupleOf => exact h.1
    | tupleFixed => exact h.1
    | scalar k => cases k <;> simp [Simple.Has, Scalar.Has] at h
    | _ => simp [Simple.Has] at h

lemma intText_ne_text (n : ℤ) (d : Decimal) : intText n ≠ d.text := by
  have hnat : ch '.' ∉ natText n.natAbs := notMem_map_digit (by decide) _
  have hint : ch '.' ∉ intText n := by
    rw [intText]
    split_ifs <;> simp [hnat]
  have hdot : ch '.' ∈ d.text := by simp [Decimal.text]
  exact fun h => hint (h ▸ hdot)

variable [Interpreter]

lemma convertJson_eq (s : PyStr) : convertJson s = .ok v ↔
    jsonLoads s = .ok v ∨ jsonLoads s = .error .jsonDecodeError ∧ v = .str s := by
  rw [convertJson]
  cases jsonLoads s with
  | ok w => simp
  | error e => cases e <;> simp [eq_comm]

lemma json_text_iff {w : PyStr} (hw : IsBlank w) (hv : v.IsJson) :
    jsonLoads (v.text w) = .ok v ↔ v.Readable :=
  ⟨fun h => (jsonLoads_readFrom h).fits, jsonLoads_text hw hv⟩

lemma json_roundTrip {m : Simple} (hm : m.Has v) (hv : v ≠ .none) (hs : Encodes v s) :
    convertJson s = .ok v ↔ SurvivesJson v s := by
  rw [convertJson_eq]
  cases hs with
  | none => exact absurd rfl hv
  | bool b =>
    have hb : jsonLoads (if b then lit "true" else lit "false") = .ok (.bool b) := by
      cases b <;> rfl
    exact iff_of_true (Or.inl hb) trivial
  | number h =>
    cases h with
    | int n =>
      have hn := json_text_iff isBlank_nil (v := .int n) (by rw [Value.IsJson]; trivial)
      rw [Value.text] at hn
      simpa [SurvivesJson] using hn
    | float d =>
      simp [SurvivesJson, jsonLoads_decimal, Value.Readable, Value.Fits, PyFloat.Kept]
    | @whole d hd =>
      refine iff_of_false ?_ fun h => intText_ne_text d.mant d h.2
      rw [jsonLoads_intText]
      split_ifs <;> simp
  | str ht he =>
    constructor
    · rintro (h | ⟨h, _⟩)
      · exact absurd ((jsonLoads_readFrom h).shorter s rfl) (lt_irrefl _)
      · exact h
    · intro h
      exact Or.inr ⟨h, rfl⟩
  | list hw xs => simpa [SurvivesJson] using json_text_iff hw ((isJson_of_has hm).1 xs rfl)
  | dict hw items => simpa [SurvivesJson] using json_text_iff hw ((isJson_of_has hm).2.1 items rfl)
  | tuple hw xs =>
    refine iff_of_false ?_ id
    rintro (h | ⟨_, h⟩)
    · exact (jsonLoads_readFrom h).noTuple xs rfl
    · cases h
  | @numbers xs texts hne h =>
    refine iff_of_false ?_ id
    rintro (h | ⟨_, h⟩)
    · exact (jsonLoads_readFrom h).noTuple xs rfl
    · cases h

end Json

section Tuples

variable {py : Builtins} {t : FieldType} {m b elem : Simple} {v : Value} {s : PyStr}

lemma mapM_eq_ok {α β : Type} {f : α → Except PyError β} {xs : List α} {ys : List β} :
    xs.mapM f = .ok ys ↔ List.Forall₂ (fun x y => f x = .ok y) xs ys := by
  induction xs generalizing ys with
  | nil => simp [pure, Except.pure, eq_comm]
  | cons x xs ih =>
    rw [List.mapM_cons, bind_eq_ok, List.forall₂_cons_left_iff]
    constructor
    · rintro ⟨y, hy, h⟩
      obtain ⟨zs, hzs, h⟩ := bind_eq_ok.mp h
      cases h
      exact ⟨y, zs, hy, ih.mp hzs, rfl⟩
    · rintro ⟨y, zs, hy, hzs, rfl⟩
      exact ⟨y, hy, bind_eq_ok.mpr ⟨zs, ih.mpr hzs, rfl⟩⟩

lemma tuple_text (w : PyStr) (xs : List Value) : (Value.tuple xs).text w = (Value.list xs).text w := by
  simp only [Value.text]

variable [Interpreter]

lemma convertTuple_built (h : convertTuple py elem s = .ok v) : ∃ args ys, v = .tuple ys ∧
    List.Forall₂ (fun x y => construct py elem x = .ok y) args ys := by
  have htext (ht : tupleFromText py elem s = .ok v) : ∃ args ys, v = .tuple ys ∧
      List.Forall₂ (fun x y => construct py elem x = .ok y) args ys := by
    obtain ⟨ys, hys, hv⟩ := bind_eq_ok.mp ht
    cases hv
    exact ⟨_, ys, rfl, (List.forall₂_map_left_iff (f := Value.str)).mpr (mapM_eq_ok.mp hys)⟩
  rw [convertTuple] at h
  split at h
  · rename_i w hw
    cases h
    obtain ⟨parsed, _, hparsed⟩ := bind_eq_ok.mp hw
    cases parsed with
    | list xs =>
      obtain ⟨ys, hys, hv⟩ := bind_eq_ok.mp hparsed
      cases hv
      exact ⟨xs, ys, rfl, mapM_eq_ok.mp hys⟩
    | _ => cases hparsed
  · exact htext h
  · split_ifs at h
    exact htext h

lemma convertTuple_list {xs ys : List Value} (hs : jsonLoads s = .ok (.list xs))
    (hys : List.Forall₂ (fun x y => construct py elem x = .ok y) xs ys) :
    convertTuple py elem s = .ok (.tuple ys) := by
  have hlist : tupleFromList py elem s = .ok (some (.tuple ys)) := by
    refine bind_eq_ok.mpr ⟨.list xs, hs, bind_eq_ok.mpr ⟨ys, mapM_eq_ok.mpr hys, rfl⟩⟩
  rw [convertTuple, hlist]

def Simple.IsTuple : Simple → Prop
  | .tuple | .tupleOf _ | .tupleFixed _ _ => True
  | _ => False

lemma construct_isTuple (hb : b.IsTuple) {x y : Value} (h : construct py b x = .ok y) :
    ∃ ys, y = .tuple ys := by
  have hc : construct py b x = (iterate x).map .tuple := by
    cases b <;> first | rfl | exact hb.elim
  rw [hc] at h
  cases hi : iterate x with
  | error e => simp [hi, Except.map] at h
  | ok ys => exact ⟨ys, by simpa [hi, Except.map] using h.symm⟩

lemma built_empty (hb : b.IsTuple) (helem : elem = .noneType ∨ elem = b) {args ys : List Value}
    (hjson : AllJson ys) (h : List.Forall₂ (fun x y => construct py elem x = .ok y) args ys) : ys = [] := by
  cases h with
  | nil => rfl
  | cons hy _ =>
    rcases helem with rfl | rfl
    · cases hy
    · obtain ⟨zs, rfl⟩ := construct_isTuple hb hy
      simp [AllJson, Value.IsJson] at hjson

lemma built_words {args ys : List Value}
    (h : List.Forall₂ (fun x y => construct py (.scalar .str) x = .ok y) args ys) :
    ∃ words : List PyStr, ys = words.map .str := by
  induction h with
  | nil => exact ⟨[], rfl⟩
  | @cons x y args ys hy _ ih =>
    obtain ⟨words, rfl⟩ := ih
    obtain rfl : Value.str (strOf py x) = y := by simpa [construct] using hy
    exact ⟨strOf py x :: words, rfl⟩

lemma words_built (words : List PyStr) : List.Forall₂
    (fun x y => construct py (.scalar .str) x = .ok y) (words.map .str) (words.map .str) := by
  induction words with
  | nil => exact List.Forall₂.nil
  | cons w words ih => exact List.Forall₂.cons rfl ih

lemma words_json {words : List PyStr} (hs : Encodes (.tuple (words.map .str)) s)
    (hjson : AllJson (words.map .str)) : jsonLoads s = .ok (.list (words.map .str)) := by
  cases hs with
  | number h => cases h
  | tuple hw =>
    have hfit : (Value.list (words.map .str)).Readable := by
      rw [Value.Readable, Value.Fits, allFit_iff]
      simp [Value.Fits, Interpreter.nesting_pos]
    rw [tuple_text]
    exact jsonLoads_text hw (by rwa [Value.IsJson]) hfit
  | numbers hne h =>
    cases words with
    | nil => exact absurd rfl hne
    | cons w words =>
      cases h with
      | cons hx _ => cases hx

lemma tuple_roundTrip (hb : b.IsTuple)
    (helem : elemType t = .noneType ∨ elemType t = b ∨ t = .simple .tuple) (hm : m.Has v)
    (hs : Encodes v s) : convertTuple py (elemType t) s = .ok v ↔ SurvivesTuple t v := by
  constructor
  · intro h
    obtain ⟨args, ys, rfl, hys⟩ := convertTuple_built h
    have hjson := (isJson_of_has hm).2.2 ys rfl
    rcases helem with he | he | rfl
    · exact Or.inl (congrArg Value.tuple (built_empty hb (Or.inl he) hjson hys))
    · exact Or.inl (congrArg Value.tuple (built_empty hb (Or.inr he) hjson hys))
    · obtain ⟨words, rfl⟩ := built_words hys
      exact Or.inr ⟨rfl, words, rfl⟩
  · rintro (rfl | ⟨rfl, words, rfl⟩)
    · have hnil : ([] : List Value) = ([] : List PyStr).map .str := rfl
      rw [hnil] at hs ⊢
      have hread := words_json hs (by rw [List.map_nil, AllJson]; trivial)
      exact convertTuple_list hread List.Forall₂.nil
    · exact convertTuple_list (words_json hs ((isJson_of_has hm).2.2 _ rfl)) (words_built words)

end Tuples

section Main

variable {t : FieldType} {m : Simple} {v : Value} {s : PyStr}

lemma noneType_mem_args (ht : t.Declared) (hm : m ∈ t.members) (hv : m.Has .none) :
    Simple.noneType ∈ t.args := by
  obtain rfl : m = .noneType := by
    cases m with
    | noneType => rfl
    | scalar k => cases k <;> simp [Simple.Has, Scalar.Has] at hv
    | _ => simp [Simple.Has] at hv
  cases t with
  | simple a => exact absurd (List.mem_singleton.mp hm).symm ht.1
  | union members => exact hm

variable [Interpreter]

/-- The conversion gives back the value that a text stands for exactly when the value survives the
resolved type. -/
theorem convert_roundTrip_iff (py : Builtins) (ht : t.Declared) (hm : m ∈ t.members) (hv : m.Has v)
    (hs : Encodes v s) : convertEnvValueToFieldType py s t = .ok v ↔ Survives t v s := by
  have htrim : strip s = s := encodes_trimmed hs
  simp only [convertEnvValueToFieldType, htrim, Survives]
  by_cases hnone : v = .none
  · subst hnone
    have hargs : Simple.noneType ∈ t.args := noneType_mem_args ht hm hv
    simp [encodes_none hs, emptyWords, hargs]
  · have hword : s ∉ emptyWords := fun h => hnone ((encodes_empty hs).mp h)
    have hmem : m ≠ .noneType := by
      rintro rfl
      cases v <;> simp [Simple.Has] at hv hnone
    obtain ⟨b, hr, hbn, hbe, helem⟩ := resolve_member ht hm hmem
    simp only [hword, if_false, hnone, false_or, hr]
    cases b with
    | noneType => exact absurd rfl hbn
    | ellipsis => exact absurd rfl hbe
    | scalar k =>
      cases k with
      | bool => simpa using bool_roundTrip hs
      | int => exact int_roundTrip hs
      | float => exact float_roundTrip hs
      | str => simpa using str_roundTrip hs
    | list e => exact json_roundTrip hv hnone hs
    | dict e => exact json_roundTrip hv hnone hs
    | tuple => exact tuple_roundTrip (b := .tuple) trivial (by simpa using helem) hv hs
    | tupleOf e => exact tuple_roundTrip (b := .tupleOf e) trivial (by simpa using helem) hv hs
    | tupleFixed e es => exact tuple_roundTrip (b := .tupleFixed e es) trivial (by simpa using helem) hv hs

/-- What the documentation promises for one type, value and text. -/
def ReadBack (py : Builtins) (t : FieldType) (m : Simple) (v : Value) (s : PyStr) : Prop :=
  t.Declared → m ∈ t.members → m.Has v → Encodes v s → Unambiguous t m s →
    convertEnvValueToFieldType py s t = .ok v

end Main

section Examples

def exampleBuiltins : Builtins where
  repr _ := []
  dict _ := .error .typeError

theorem optionalInt_read_back : convertEnvValueToFieldType exampleBuiltins (intText 4096)
    (.union [.scalar .int, .noneType]) = .ok (.int 4096) := by
  have hfit : (Value.int 4096).Readable := by
    rw [Value.Readable, Value.Fits]
    decide
  refine (convert_roundTrip_iff exampleBuiltins (m := .scalar .int) (v := .int 4096) ?_ ?_ trivial
    (.number (.int 4096))).mpr (Or.inr ⟨trivial, hfit⟩)
  · simp [FieldType.Declared]
  · simp [FieldType.members]

theorem listOfStr_not_read_back : ¬ ReadBack exampleBuiltins (.simple (.list (some .str)))
    (.list (some .str)) (.list [.str (lit "a"), .str (lit "b")]) (lit "[\"a\", \"b\"]") := by
  intro h
  have hs : (Value.list [.str (lit "a"), .str (lit "b")]).text (lit " ") = lit "[\"a\", \"b\"]" := rfl
  have hjson : AllJson [.str (lit "a"), .str (lit "b")] := by
    simp only [AllJson, Value.IsJson]
    decide
  have hread := h (by simp [FieldType.Declared]) (by simp [FieldType.members])
    ⟨hjson, by simp [elemHas, Scalar.Has]⟩
    (hs ▸ .list (show IsBlank (lit " ") from rfl) _) (by simp [Unambiguous, FieldType.members])
  have hstr : convertEnvValueToFieldType exampleBuiltins (lit "[\"a\", \"b\"]")
      (.simple (.list (some .str))) = .ok (.str (lit "[\"a\", \"b\"]")) := rfl
  rw [hstr] at hread
  cases hread

end Examples

end GemmaWorker.EngineArgs
