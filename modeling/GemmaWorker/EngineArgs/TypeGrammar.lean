import GemmaWorker.EngineArgs.ConvertErrors

/-! The conversion over declared types of any depth, where the elements of a container have declared
types of their own. -/

namespace GemmaWorker.EngineArgs

open GemmaWorker.Python

inductive Container
  | list
  | dict
  | tuple
deriving DecidableEq

/-- A type object: a class, a container with its type arguments, or a union. -/
inductive PyType
  | noneType
  | ellipsis
  | scalar (s : Scalar)
  | bare (c : Container)
  | generic (c : Container) (args : List PyType)
  | union (members : List PyType)

/-- A bool is an int, and an int may stand where a float is asked for. -/
def Scalar.Holds : Scalar → Value → Prop
  | .bool, .bool _ => True
  | .int, .bool _ => True
  | .int, .int _ => True
  | .float, .bool _ => True
  | .float, .int _ => True
  | .float, .float _ => True
  | .str, .str _ => True
  | _, _ => False

namespace PyType

section Grammar

def isNoneType : PyType → Bool
  | .noneType => true
  | _ => false

def isEllipsis : PyType → Bool
  | .ellipsis => true
  | _ => false

def isUnion : PyType → Bool
  | .union _ => true
  | _ => false

def isGeneric : PyType → Bool
  | .generic _ _ => true
  | _ => false

def args : PyType → List PyType
  | .generic _ args => args
  | .union members => members
  | _ => []

def members : PyType → List PyType
  | .union members => members
  | t => [t]

/-- The types that a field can be declared with. A union is flat and repeats no member. -/
inductive Declared : PyType → Prop
  | scalar (s : Scalar) : Declared (.scalar s)
  | bare (c : Container) : Declared (.bare c)
  | list {t : PyType} (h : Declared t) : Declared (.generic .list [t])
  | dict {k t : PyType} (hk : Declared k) (h : Declared t) : Declared (.generic .dict [k, t])
  | tupleOf {t : PyType} (h : Declared t) : Declared (.generic .tuple [t, .ellipsis])
  | tupleFixed {ts : List PyType} (h : ∀ t ∈ ts, Declared t) : Declared (.generic .tuple ts)
  | union {ms : List PyType} (hlen : 2 ≤ ms.length) (hnodup : ms.Nodup)
      (hflat : ∀ m ∈ ms, m.isUnion = false) (h : ∀ m ∈ ms, m.isNoneType = false → Declared m) :
    Declared (.union ms)

end Grammar

section Values

inductive Has : PyType → Value → Prop
  | none : Has .noneType .none
  | scalar {s : Scalar} {v : Value} (h : s.Holds v) : Has (.scalar s) v
  | list (xs : List Value) : Has (.bare .list) (.list xs)
  | dict (items : List (PyStr × Value)) : Has (.bare .dict) (.dict items)
  | tuple (xs : List Value) : Has (.bare .tuple) (.tuple xs)
  | listOf {t : PyType} {xs : List Value} (h : ∀ x ∈ xs, Has t x) : Has (.generic .list [t]) (.list xs)
  | dictOf {k t : PyType} {items : List (PyStr × Value)} (hk : ∀ kv ∈ items, Has k (.str kv.1))
      (h : ∀ kv ∈ items, Has t kv.2) : Has (.generic .dict [k, t]) (.dict items)
  | tupleOf {t : PyType} {xs : List Value} (h : ∀ x ∈ xs, Has t x) :
    Has (.generic .tuple [t, .ellipsis]) (.tuple xs)
  | tupleFixed {ts : List PyType} {xs : List Value} (h : List.Forall₂ Has ts xs) :
    Has (.generic .tuple ts) (.tuple xs)
  | member {ms : List PyType} {m : PyType} {v : Value} (hm : m ∈ ms) (h : Has m v) : Has (.union ms) v

end Values

section Conversion

variable (py : Builtins)

def resolveFieldType (t : PyType) : PyType :=
  match t.args.filter (fun a => !a.isNoneType) with
  | [] => t
  | a :: _ => a

def elemType (t : PyType) : PyType :=
  match t.args.filter (fun a => !a.isEllipsis) with
  | [] => .scalar .str
  | a :: _ => a

/-- The class that a call of the type calls. A union cannot be called, and neither can `NoneType` with
an argument. -/
def called : PyType → Simple
  | .noneType => .noneType
  | .ellipsis => .ellipsis
  | .scalar s => .scalar s
  | .bare .list => .list none
  | .bare .dict => .dict none
  | .bare .tuple => .tuple
  | .generic .list _ => .list none
  | .generic .dict _ => .dict none
  | .generic .tuple _ => .tuple
  | .union _ => .noneType

def convertEnvValueToFieldType [Interpreter] (t : PyType) (value : PyStr) : Except PyError Value :=
  let val := strip value
  if val ∈ emptyWords then
    if t.args.any isNoneType then .ok .none else .error .valueError
  else match resolveFieldType t with
  | .scalar .bool => .ok (.bool (lower val ∈ trueWords))
  | .scalar .int => (pyInt val).map .int
  | .scalar .float => (pyFloat val).map .float
  | .scalar .str => .ok (.str val)
  | .bare .list => convertJson val
  | .bare .dict => convertJson val
  | .generic .list _ => convertJson val
  | .generic .dict _ => convertJson val
  | .bare .tuple => convertTuple py (elemType t).called val
  | .generic .tuple _ => convertTuple py (elemType t).called val
  | _ => .ok (convertFallback val)

end Conversion

section Flat

def ofSimple : Simple → PyType
  | .noneType => .noneType
  | .ellipsis => .ellipsis
  | .scalar s => .scalar s
  | .list none => .bare .list
  | .list (some s) => .generic .list [.scalar s]
  | .dict none => .bare .dict
  | .dict (some s) => .generic .dict [.scalar .str, .scalar s]
  | .tuple => .bare .tuple
  | .tupleOf s => .generic .tuple [.scalar s, .ellipsis]
  | .tupleFixed s ss => .generic .tuple (.scalar s :: ss.map .scalar)

def ofFieldType : FieldType → PyType
  | .simple t => ofSimple t
  | .union members => .union (members.map ofSimple)

lemma isNoneType_ofSimple (m : Simple) : (ofSimple m).isNoneType = decide (m = .noneType) := by
  cases m with
  | list e => cases e <;> rfl
  | dict e => cases e <;> rfl
  | _ => rfl

lemma isEllipsis_ofSimple (m : Simple) : (ofSimple m).isEllipsis = decide (m = .ellipsis) := by
  cases m with
  | list e => cases e <;> rfl
  | dict e => cases e <;> rfl
  | _ => rfl

lemma args_ofFieldType (t : FieldType) : (ofFieldType t).args = t.args.map ofSimple := by
  cases t with
  | union ms => rfl
  | simple m =>
    cases m with
    | list e => cases e <;> rfl
    | dict e => cases e <;> rfl
    | tupleFixed s ss => simp [ofFieldType, ofSimple, args, FieldType.args]
    | _ => rfl

lemma resolve_ofFieldType (t : FieldType) :
    (ofFieldType t).resolveFieldType = ofFieldType (EngineArgs.resolveFieldType t) := by
  have hfilter : (ofFieldType t).args.filter (fun a => !a.isNoneType) =
      (t.args.filter (· ≠ .noneType)).map ofSimple := by
    rw [args_ofFieldType, List.filter_map]
    congr 2
    funext m
    simp [isNoneType_ofSimple]
  rw [resolveFieldType, EngineArgs.resolveFieldType, hfilter]
  cases t.args.filter (· ≠ .noneType) <;> rfl

lemma elemType_ofFieldType (t : FieldType) :
    (ofFieldType t).elemType = ofSimple (EngineArgs.elemType t) := by
  have hfilter : (ofFieldType t).args.filter (fun a => !a.isEllipsis) =
      (t.args.filter (· ≠ .ellipsis)).map ofSimple := by
    rw [args_ofFieldType, List.filter_map]
    congr 2
    funext m
    simp [isEllipsis_ofSimple]
  rw [elemType, EngineArgs.elemType, hfilter]
  cases t.args.filter (· ≠ .ellipsis) <;> rfl

lemma construct_called [Interpreter] (py : Builtins) (m : Simple) :
    construct py (ofSimple m).called = construct py m := by
  funext v
  cases m with
  | list e => cases e <;> rfl
  | dict e => cases e <;> rfl
  | _ => rfl

lemma convertTuple_called [Interpreter] (py : Builtins) (m : Simple) (val : PyStr) :
    convertTuple py (ofSimple m).called val = convertTuple py m val := by
  rw [convertTuple, convertTuple, tupleFromList, tupleFromList, tupleFromText, tupleFromText,
    construct_called]

/-- On the types without nested containers it is the conversion of the layers. -/
theorem convert_ofFieldType [Interpreter] (py : Builtins) (value : PyStr) (t : FieldType) :
    (ofFieldType t).convertEnvValueToFieldType py value =
      EngineArgs.convertEnvValueToFieldType py value t := by
  have hnone : (ofFieldType t).args.any isNoneType = decide (.noneType ∈ t.args) := by
    rw [args_ofFieldType, Bool.eq_iff_iff]
    simp [isNoneType_ofSimple]
  rw [convertEnvValueToFieldType, EngineArgs.convertEnvValueToFieldType]
  simp only [hnone, decide_eq_true_eq, resolve_ofFieldType, elemType_ofFieldType, convertTuple_called]
  split_ifs
  · rfl
  · rfl
  · cases EngineArgs.resolveFieldType t with
    | union ms => rfl
    | simple m =>
      cases m with
      | scalar s => cases s <;> rfl
      | list e => cases e <;> rfl
      | dict e => cases e <;> rfl
      | _ => rfl

end Flat

end PyType

end GemmaWorker.EngineArgs
