import GemmaWorker.Python.JsonReader
import GemmaWorker.Python.JsonRoundTrip

/-! The declared types of engine arguments, the values of a type and the texts that stand for a value
in the environment. -/

namespace GemmaWorker.EngineArgs

open GemmaWorker.Python

inductive Scalar
  | bool
  | int
  | float
  | str
deriving DecidableEq

/-- The types that may stand in a union, and the `...` of `tuple[S, ...]`. A container without element
types is the bare class. -/
inductive Simple
  | noneType
  | ellipsis
  | scalar (s : Scalar)
  | list (elem : Option Scalar)
  | dict (elem : Option Scalar)
  | tuple
  | tupleOf (elem : Scalar)
  | tupleFixed (first : Scalar) (rest : List Scalar)
deriving DecidableEq

inductive FieldType
  | simple (t : Simple)
  | union (members : List Simple)
deriving DecidableEq

def FieldType.args : FieldType → List Simple
  | .simple (.list (some s)) => [.scalar s]
  | .simple (.dict (some s)) => [.scalar .str, .scalar s]
  | .simple (.tupleOf s) => [.scalar s, .ellipsis]
  | .simple (.tupleFixed s ss) => .scalar s :: ss.map .scalar
  | .simple _ => []
  | .union members => members

def FieldType.members : FieldType → List Simple
  | .simple t => [t]
  | .union members => members

/-- The types a field may be declared with: no bare `None`, and two or more different members in a
union. -/
def FieldType.Declared : FieldType → Prop
  | .simple t => t ≠ .noneType ∧ t ≠ .ellipsis
  | .union members => 2 ≤ members.length ∧ members.Nodup ∧ Simple.ellipsis ∉ members

section Values

def Scalar.Has : Scalar → Value → Prop
  | .bool, .bool _ => True
  | .int, .int _ => True
  | .float, .float (.finite _) => True
  | .str, .str _ => True
  | _, _ => False

def elemHas : Option Scalar → Value → Prop
  | none, _ => True
  | some s, v => s.Has v

def Simple.Has : Simple → Value → Prop
  | .noneType, .none => True
  | .scalar s, v => s.Has v
  | .list elem, .list xs => AllJson xs ∧ ∀ x ∈ xs, elemHas elem x
  | .dict elem, .dict items => (Value.dict items).IsJson ∧ ∀ kv ∈ items, elemHas elem kv.2
  | .tuple, .tuple xs => AllJson xs
  | .tupleOf s, .tuple xs => AllJson xs ∧ ∀ x ∈ xs, s.Has x
  | .tupleFixed s ss, .tuple xs => AllJson xs ∧ List.Forall₂ Scalar.Has (s :: ss) xs
  | _, _ => False

end Values

section Texts

def emptyWords : List PyStr := [[], lit "None", lit "none"]

inductive NumberText : Value → PyStr → Prop
  | int (n : ℤ) : NumberText (.int n) (intText n)
  | float (d : Decimal) : NumberText (.float (.finite d)) d.text
  | whole {d : Decimal} (hd : d.places = 0) : NumberText (.float (.finite d)) (intText d.mant)

def joinCommas : List PyStr → PyStr
  | [] => []
  | [s] => s
  | s :: t :: ts => s ++ ch ',' :: joinCommas (t :: ts)

inductive Encodes : Value → PyStr → Prop
  | none : Encodes .none (lit "None")
  | bool (b : Bool) : Encodes (.bool b) (if b then lit "true" else lit "false")
  | number {v : Value} {s : PyStr} (h : NumberText v s) : Encodes v s
  | str {s : PyStr} (ht : IsTrimmed s) (hs : s ∉ emptyWords) : Encodes (.str s) s
  | list {w : PyStr} (hw : IsBlank w) (xs : List Value) : Encodes (.list xs) ((Value.list xs).text w)
  | dict {w : PyStr} (hw : IsBlank w) (items : List (PyStr × Value)) :
    Encodes (.dict items) ((Value.dict items).text w)
  | tuple {w : PyStr} (hw : IsBlank w) (xs : List Value) : Encodes (.tuple xs) ((Value.tuple xs).text w)
  | numbers {xs : List Value} {texts : List PyStr} (hne : xs ≠ [])
      (h : List.Forall₂ NumberText xs texts) : Encodes (.tuple xs) (joinCommas texts)

/-- The text stands for no value of another member of the type. -/
def Unambiguous (t : FieldType) (m : Simple) (s : PyStr) : Prop :=
  ∀ m' ∈ t.members, m' ≠ m → ∀ v, m'.Has v → ¬ Encodes v s

end Texts

section Shape

variable {v : Value} {s : PyStr}

lemma numberText_head (h : NumberText v s) : StartsNumber s := by
  cases h with
  | int n => exact number_intText n
  | float d => exact number_text d
  | whole hd => exact number_intText _

lemma numberText_no_space (h : NumberText v s) : ∀ c ∈ s, isSpace c = false := by
  cases h with
  | int n => exact fun _ => intText_no_space
  | float d => exact fun _ => text_no_space
  | whole hd => exact fun _ => intText_no_space

lemma not_emptyWord {c : CodePoint} (hc : c ≠ ch 'N' ∧ c ≠ ch 'n') (t : PyStr) : c :: t ∉ emptyWords := by
  simp [emptyWords, lit, hc]

lemma number_not_empty {u : PyStr} (h : StartsNumber s) : s ++ u ∉ emptyWords := by
  obtain ⟨d, t, rfl | rfl⟩ := h
  · exact not_emptyWord ⟨digit_ne d (by decide), digit_ne d (by decide)⟩ _
  · exact not_emptyWord (by decide) _

lemma joinCommas_head {x : Value} {xs : List Value} {texts : List PyStr}
    (h : List.Forall₂ NumberText (x :: xs) texts) :
    ∃ t u, NumberText x t ∧ joinCommas texts = t ++ u := by
  cases h with
  | cons hx hxs =>
    rename_i t texts
    cases texts with
    | nil => exact ⟨t, [], hx, by simp [joinCommas]⟩
    | cons u texts => exact ⟨t, _, hx, rfl⟩

lemma joinCommas_no_space {xs : List Value} {texts : List PyStr}
    (h : List.Forall₂ NumberText xs texts) : ∀ c ∈ joinCommas texts, isSpace c = false := by
  induction h with
  | nil => simp [joinCommas]
  | @cons x t xs texts hx hxs ih =>
    have hx := numberText_no_space hx
    cases texts with
    | nil => simpa [joinCommas] using hx
    | cons u texts =>
      rintro c hc
      rcases List.mem_append.mp hc with hc | hc
      · exact hx c hc
      · rcases List.mem_cons.mp hc with rfl | hc
        · decide
        · exact ih c hc

lemma bracketed_trimmed {o c : CodePoint} (h : isSpace o = false ∧ isSpace c = false) (t : PyStr) :
    IsTrimmed (o :: (t ++ [c])) := by
  refine strip_of_ends (by simpa using h.1) ?_
  rw [← List.cons_append, List.getLast?_concat]
  simpa using h.2

lemma encodes_trimmed (h : Encodes v s) : IsTrimmed s := by
  cases h with
  | none => decide
  | bool b => cases b <;> decide
  | number h => exact isTrimmed_of_no_space (numberText_no_space h)
  | str ht _ => exact ht
  | list _ xs =>
    rw [Value.text]
    exact bracketed_trimmed (by decide) _
  | dict _ items =>
    rw [Value.text]
    exact bracketed_trimmed (by decide) _
  | tuple _ xs =>
    rw [Value.text]
    exact bracketed_trimmed (by decide) _
  | numbers _ h => exact isTrimmed_of_no_space (joinCommas_no_space h)

lemma encodes_empty (h : Encodes v s) : s ∈ emptyWords ↔ v = .none := by
  have hno (hs : s ∉ emptyWords) (hv : v ≠ .none) : s ∈ emptyWords ↔ v = .none :=
    ⟨fun h => absurd h hs, fun h => absurd h hv⟩
  cases h with
  | none => simp [emptyWords]
  | bool b => cases b <;> exact hno (not_emptyWord (by decide) _) (by simp)
  | number h =>
    have hs := number_not_empty (u := []) (numberText_head h)
    rw [List.append_nil] at hs
    exact hno hs (by cases h <;> simp)
  | str _ hs => exact hno hs (by simp)
  | list _ xs =>
    rw [Value.text] at hno ⊢
    exact hno (not_emptyWord (by decide) _) (by simp)
  | dict _ items =>
    rw [Value.text] at hno ⊢
    exact hno (not_emptyWord (by decide) _) (by simp)
  | tuple _ xs =>
    rw [Value.text] at hno ⊢
    exact hno (not_emptyWord (by decide) _) (by simp)
  | @numbers xs texts hne h =>
    obtain ⟨x, xs, rfl⟩ := List.exists_cons_of_ne_nil hne
    obtain ⟨t, u, ht, hj⟩ := joinCommas_head h
    rw [hj] at hno ⊢
    exact hno (number_not_empty (numberText_head ht)) (by simp)

lemma encodes_none (h : Encodes .none s) : s = lit "None" := by
  cases h with
  | none => rfl
  | number h => cases h

end Shape

end GemmaWorker.EngineArgs
