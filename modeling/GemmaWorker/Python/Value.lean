import GemmaWorker.Python.Decimal

/-! The Python values that the worker reads from JSON and from the environment. -/

namespace GemmaWorker.Python

/-- A dict is the list of its items in insertion order. -/
inductive Value
  | none
  | bool (b : Bool)
  | int (n : ℤ)
  | float (x : PyFloat)
  | str (s : PyStr)
  | list (xs : List Value)
  | dict (items : List (PyStr × Value))
  | tuple (xs : List Value)

def truthy : Value → Bool
  | .none => false
  | .bool b => b
  | .int n => n ≠ 0
  | .float x => x ≠ .finite ⟨0, 0, Decimal.zero_canonical⟩
  | .str s => !s.isEmpty
  | .list xs => !xs.isEmpty
  | .dict items => !items.isEmpty
  | .tuple xs => !xs.isEmpty

def dictGet (items : List (PyStr × Value)) (key : PyStr) (dflt : Value) : Value :=
  ((items.find? (fun kv => kv.1 == key)).map Prod.snd).getD dflt

def dictSet (items : List (PyStr × Value)) (item : PyStr × Value) : List (PyStr × Value) :=
  if items.any (fun kv => kv.1 == item.1) then
    items.map (fun kv => if kv.1 = item.1 then item else kv)
  else items ++ [item]

lemma foldl_dictSet {items new : List (PyStr × Value)}
    (h : ((items ++ new).map Prod.fst).Nodup) : new.foldl dictSet items = items ++ new := by
  induction new generalizing items with
  | nil => simp
  | cons kv new ih =>
    have hfresh : items.any (fun old => old.1 == kv.1) = false := by
      simp only [List.map_append, List.map_cons, List.nodup_append] at h
      simp only [List.any_eq_false, beq_iff_eq]
      intro old hold he
      exact h.2.2 _ (List.mem_map_of_mem hold) _ (by simp) he
    have hset : dictSet items kv = items ++ [kv] := by simp [dictSet, hfresh]
    rw [List.foldl_cons, hset, ih (by simpa using h), List.append_assoc, List.singleton_append]

end GemmaWorker.Python
