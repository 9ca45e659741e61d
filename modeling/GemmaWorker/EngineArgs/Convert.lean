import GemmaWorker.EngineArgs.FieldTypes

/-! `_resolve_field_type` and `_convert_env_value_to_field_type`, and which values they read back. -/

namespace GemmaWorker.EngineArgs

open GemmaWorker.Python

/-- What the conversion may call and never depends on: `str` on other values than strings, `dict`. -/
structure Builtins where
  repr : Value → PyStr
  dict : Value → Except PyError Value

/-- The first argument of a generic type or union that is not `None`. -/
def resolveFieldType (t : FieldType) : FieldType :=
  match t.args.filter (· ≠ .noneType) with
  | [] => t
  | a :: _ => .simple a

section Calls

variable [Interpreter]

def intOf : Value → Except PyError Value
  | .bool b => .ok (.int (if b then 1 else 0))
  | .int n => .ok (.int n)
  | .float (.finite d) => .ok (.int (Interpreter.truncate d))
  | .float (.inf _) => .error .overflowError
  | .float .nan => .error .valueError
  | .str s => (pyInt s).map .int
  | _ => .error .typeError

def floatOf : Value → Except PyError Value
  | .bool b => .ok (.float (.finite ⟨if b then 1 else 0, 0, Or.inl rfl⟩))
  | .int n =>
    match Interpreter.nearest ⟨n, 0, Decimal.int_canonical n⟩ with
    | .inf _ => .error .overflowError
    | x => .ok (.float x)
  | .float x => .ok (.float x)
  | .str s => (pyFloat s).map .float
  | _ => .error .typeError

def strOf (py : Builtins) : Value → PyStr
  | .str s => s
  | v => py.repr v

def iterate : Value → Except PyError (List Value)
  | .str s => .ok (s.map (fun c => .str [c]))
  | .list xs => .ok xs
  | .tuple xs => .ok xs
  | .dict items => .ok (items.map (fun kv => .str kv.1))
  | _ => .error .typeError

def construct (py : Builtins) : Simple → Value → Except PyError Value
  | .scalar .bool, v => .ok (.bool (truthy v))
  | .scalar .int, v => intOf v
  | .scalar .float, v => floatOf v
  | .scalar .str, v => .ok (.str (strOf py v))
  | .list _, v => (iterate v).map .list
  | .dict _, v => py.dict v
  | .tuple, v => (iterate v).map .tuple
  | .tupleOf _, v => (iterate v).map .tuple
  | .tupleFixed _ _, v => (iterate v).map .tuple
  | .noneType, _ => .error .typeError
  | .ellipsis, _ => .error .typeError

end Calls

section Conversion

variable [Interpreter]

def trueWords : List PyStr := [lit "true", lit "1", lit "yes", lit "on"]

/-- The element type comes from the declared type, not from the resolved one. -/
def elemType (t : FieldType) : Simple :=
  match t.args.filter (· ≠ .ellipsis) with
  | [] => .scalar .str
  | a :: _ => a

def tupleFromList (py : Builtins) (elem : Simple) (val : PyStr) : Except PyError (Option Value) := do
  match ← jsonLoads val with
  | .list xs => return some (.tuple (← xs.mapM (construct py elem)))
  | _ => return none

def tupleFromText (py : Builtins) (elem : Simple) (val : PyStr) : Except PyError Value := do
  let items := ((split (ch ',') val).map strip).filter (· ≠ [])
  return .tuple (← items.mapM (fun x => construct py elem (.str x)))

def convertTuple (py : Builtins) (elem : Simple) (val : PyStr) : Except PyError Value :=
  match tupleFromList py elem val with
  | .ok (some v) => .ok v
  | .ok none => tupleFromText py elem val
  | .error e =>
    if e = .jsonDecodeError ∨ e = .typeError then tupleFromText py elem val else .error e

def convertJson (val : PyStr) : Except PyError Value :=
  match jsonLoads val with
  | .error .jsonDecodeError => .ok (.str val)
  | r => r

def convertFallback (val : PyStr) : Value :=
  match pyInt val, pyFloat val with
  | .ok n, _ => .int n
  | .error _, .ok x => .float x
  | .error _, .error _ => .str val

def convertEnvValueToFieldType (py : Builtins) (value : PyStr) (t : FieldType) : Except PyError Value :=
  let val := strip value
  if val ∈ emptyWords then
    if .noneType ∈ t.args then .ok .none else .error .valueError
  else match resolveFieldType t with
  | .simple (.scalar .bool) => .ok (.bool (lower val ∈ trueWords))
  | .simple (.scalar .int) => (pyInt val).map .int
  | .simple (.scalar .float) => (pyFloat val).map .float
  | .simple (.scalar .str) => .ok (.str val)
  | .simple (.list _) => convertJson val
  | .simple (.dict _) => convertJson val
  | .simple .tuple => convertTuple py (elemType t) val
  | .simple (.tupleOf _) => convertTuple py (elemType t) val
  | .simple (.tupleFixed _ _) => convertTuple py (elemType t) val
  | _ => .ok (convertFallback val)

end Conversion

end GemmaWorker.EngineArgs
