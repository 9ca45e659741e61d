import GemmaWorker.Python.Value

/-! Dicts with string keys: no key stands twice, and what each operation does to a lookup. -/

namespace GemmaWorker.Python

lemma keys_dictSet (items : List (PyStr × Value)) (kv : PyStr × Value) :
    (dictSet items kv).map Prod.fst =
      if kv.1 ∈ items.map Prod.fst then items.map Prod.fst else items.map Prod.fst ++ [kv.1] := by
  have hany : items.any (fun old => old.1 == kv.1) = true ↔ kv.1 ∈ items.map Prod.fst := by
    simp only [List.any_eq_true, List.mem_map, beq_iff_eq]
  have hkeep : ∀ old ∈ items, (if old.1 = kv.1 then kv else old).1 = old.1 := by
    intro old _
    split_ifs with h
    · exact h.symm
    · rfl
  rw [dictSet]
  by_cases h : kv.1 ∈ items.map Prod.fst
  · rw [if_pos (hany.mpr h), if_pos h, List.map_map]
    exact List.map_congr_left hkeep
  · rw [if_neg (fun ha => h (hany.mp ha)), if_neg h, List.map_append, List.map_singleton]

lemma lookup_of_mem {α : Type} {items : List (PyStr × α)} (hnodup : (items.map Prod.fst).Nodup)
    {kv : PyStr × α} (h : kv ∈ items) : items.lookup kv.1 = some kv.2 := by
  induction items with
  | nil => cases h
  | cons kv' items ih =>
    obtain ⟨hkv, hitems⟩ := List.nodup_cons.mp hnodup
    rw [List.lookup_cons]
    rcases List.mem_cons.mp h with rfl | h
    · rw [beq_self_eq_true]
    · have hne : kv.1 ≠ kv'.1 := fun he => hkv (he ▸ List.mem_map_of_mem h)
      rw [beq_eq_false_iff_ne.mpr hne]
      exact ih hitems h

structure Dict where
  items : List (PyStr × Value)
  nodup : (items.map Prod.fst).Nodup

namespace Dict

def empty : Dict := ⟨[], List.nodup_nil⟩

def keys (d : Dict) : List PyStr :=
  d.items.map Prod.fst

def lookup (d : Dict) (k : PyStr) : Option Value :=
  d.items.lookup k

/-- `d.get(k)`, which does not tell a missing key from the value `None`. -/
def get (d : Dict) (k : PyStr) : Value :=
  (d.lookup k).getD .none

def set (d : Dict) (k : PyStr) (v : Value) : Dict where
  items := dictSet d.items (k, v)
  nodup := by
    rw [keys_dictSet]
    split_ifs with h
    · exact d.nodup
    · exact List.nodup_append.mpr ⟨d.nodup, List.nodup_singleton k, by
        rintro a ha b hb rfl
        exact h (List.mem_singleton.mp hb ▸ ha)⟩

/-- `d[k] = v` where there is a value to write. -/
def write (d : Dict) (k : PyStr) : Option Value → Dict
  | none => d
  | some v => d.set k v

def update (d : Dict) (new : List (PyStr × Value)) : Dict :=
  new.foldl (fun d kv => d.set kv.1 kv.2) d

def filter (d : Dict) (p : PyStr × Value → Bool) : Dict where
  items := d.items.filter p
  nodup := d.nodup.sublist (List.filter_sublist.map Prod.fst)

def del (d : Dict) (k : PyStr) : Dict :=
  d.filter (fun kv => kv.1 ≠ k)

section Lookup

variable (d : Dict) (k f : PyStr) (v : Value)

lemma lookup_cons_ite (items : List (PyStr × Value)) :
    ((k, v) :: items).lookup f = if f = k then some v else items.lookup f := by
  rw [List.lookup_cons]
  by_cases h : f = k
  · rw [beq_iff_eq.mpr h, if_pos h]
  · rw [beq_eq_false_iff_ne.mpr h, if_neg h]

lemma mem_keys_iff : f ∈ d.keys ↔ d.lookup f ≠ none := by
  have hnone : d.lookup f = none ↔ f ∉ d.keys := by
    rw [lookup, List.lookup_eq_none_iff, keys, List.mem_map]
    constructor
    · rintro h ⟨kv, hkv, rfl⟩
      exact bne_iff_ne.mp (h kv hkv) rfl
    · intro h kv hkv
      exact bne_iff_ne.mpr fun he => h ⟨kv, hkv, he.symm⟩
  rw [Ne, hnone, not_not]

@[simp] lemma lookup_empty : empty.lookup f = none := rfl

lemma lookup_replaced (items : List (PyStr × Value)) (hk : k ∈ items.map Prod.fst) :
    (items.map (fun kv => if kv.1 = k then (k, v) else kv)).lookup f =
      if f = k then some v else items.lookup f := by
  have hother : f ≠ k → (items.map (fun kv => if kv.1 = k then (k, v) else kv)).lookup f =
      items.lookup f := by
    intro hf
    clear hk
    induction items with
    | nil => rfl
    | cons kv items ih =>
      obtain ⟨a, b⟩ := kv
      rw [List.map_cons, lookup_cons_ite]
      by_cases ha : a = k
      · rw [if_pos ha, lookup_cons_ite, if_neg hf, if_neg (fun h => hf (h.trans ha)), ih]
      · rw [if_neg ha, lookup_cons_ite, ih]
  by_cases hf : f = k
  · rw [if_pos hf, hf]
    clear hother
    induction items with
    | nil => simp at hk
    | cons kv items ih =>
      obtain ⟨a, b⟩ := kv
      by_cases ha : a = k
      · rw [List.map_cons, if_pos ha, lookup_cons_ite, if_pos rfl]
      · have hrest : k ∈ items.map Prod.fst := (List.mem_cons.mp hk).resolve_left (Ne.symm ha)
        rw [List.map_cons, if_neg ha, lookup_cons_ite, if_neg (Ne.symm ha), ih hrest]
  · rw [if_neg hf, hother hf]

@[simp] lemma lookup_set : (d.set k v).lookup f = if f = k then some v else d.lookup f := by
  have hany : d.items.any (fun kv => kv.1 == k) = true ↔ k ∈ d.keys := by
    simp only [keys, List.any_eq_true, List.mem_map, beq_iff_eq]
  change (dictSet d.items (k, v)).lookup f = _
  by_cases hk : k ∈ d.keys
  · rw [dictSet, if_pos (hany.mpr hk)]
    exact lookup_replaced k f v d.items hk
  · rw [dictSet, if_neg (fun h => hk (hany.mp h)), List.lookup_append, lookup_cons_ite]
    by_cases hf : f = k
    · have hno : d.items.lookup f = none := by
        by_contra h
        exact hk (hf ▸ (mem_keys_iff d f).mpr h)
      rw [if_pos hf, hno, Option.none_or, if_pos hf]
    · rw [if_neg hf, List.lookup_nil, Option.or_none, if_neg hf]
      rfl

lemma set_same {v : Value} (h : d.lookup k = some v) : d.set k v = d := by
  obtain ⟨items, hnodup⟩ := d
  have hk : k ∈ items.map Prod.fst := (mem_keys_iff ⟨items, hnodup⟩ k).mpr (by rw [h]; simp)
  have hany : items.any (fun kv => kv.1 == k) = true := by simpa using hk
  rw [set, mk.injEq, dictSet, if_pos hany]
  refine (List.map_congr_left fun kv hkv => ?_).trans items.map_id
  split_ifs with he
  · obtain rfl : kv.1 = k := he
    have hv : some v = some kv.2 := h.symm.trans (lookup_of_mem hnodup hkv)
    rw [Option.some.inj hv]
    rfl
  · rfl

lemma lookup_write (o : Option Value) :
    (d.write k o).lookup f = (if f = k then o else none).or (d.lookup f) := by
  cases o with
  | none => rw [ite_self, Option.none_or, write]
  | some v =>
    rw [write, lookup_set]
    split_ifs <;> rfl

lemma write_congr {o o' : Option Value} (h : o.or (d.lookup k) = o'.or (d.lookup k)) :
    d.write k o = d.write k o' := by
  cases o with
  | none =>
    cases o' with
    | none => rfl
    | some v' => exact (d.set_same k h).symm
  | some v =>
    cases o' with
    | none => exact d.set_same k h.symm
    | some v' => rw [Option.some.inj h]

lemma lookup_update (new : List (PyStr × Value)) :
    (d.update new).lookup f = (new.reverse.lookup f).or (d.lookup f) := by
  induction new generalizing d with
  | nil => rfl
  | cons kv new ih =>
    have hstep : d.update (kv :: new) = (d.set kv.1 kv.2).update new := rfl
    rw [hstep, ih, lookup_set, List.reverse_cons, List.lookup_append, Option.or_assoc, lookup_cons_ite]
    by_cases h : f = kv.1
    · rw [if_pos h, if_pos h, Option.some_or]
    · rw [if_neg h, if_neg h, List.lookup_nil, Option.none_or]

lemma lookup_reverse : d.items.reverse.lookup f = d.lookup f := by
  obtain ⟨items, hnodup⟩ := d
  simp only [lookup]
  induction items with
  | nil => rfl
  | cons kv items ih =>
    obtain ⟨k, v⟩ := kv
    obtain ⟨hk, hitems⟩ := List.nodup_cons.mp hnodup
    rw [List.reverse_cons, List.lookup_append, ih hitems, lookup_cons_ite, lookup_cons_ite]
    by_cases hf : f = k
    · subst hf
      have hno : items.lookup f = none := by
        by_contra h
        exact hk ((mem_keys_iff ⟨items, hitems⟩ f).mpr h)
      rw [hno, Option.none_or, if_pos rfl, if_pos rfl]
    · rw [if_neg hf, if_neg hf, List.lookup_nil, Option.or_none]

lemma lookup_filter (p : PyStr × Value → Bool) :
    (d.filter p).lookup f = (d.lookup f).filter (fun v => p (f, v)) := by
  obtain ⟨items, hnodup⟩ := d
  simp only [lookup, filter]
  induction items with
  | nil => rfl
  | cons kv items ih =>
    obtain ⟨k, v⟩ := kv
    obtain ⟨hk, hitems⟩ := List.nodup_cons.mp hnodup
    rw [List.filter_cons, lookup_cons_ite]
    by_cases hf : f = k
    · subst hf
      have hno : items.lookup f = none := by
        by_contra h
        exact hk ((mem_keys_iff ⟨items, hitems⟩ f).mpr h)
      rw [if_pos rfl, Option.filter_some]
      split_ifs
      · rw [lookup_cons_ite, if_pos rfl]
      · rw [ih hitems, hno, Option.filter_none]
    · rw [if_neg hf, ← ih hitems]
      split_ifs
      · rw [lookup_cons_ite, if_neg hf]
      · rfl

lemma lookup_del : (d.del k).lookup f = if f = k then none else d.lookup f := by
  rw [del, lookup_filter]
  by_cases h : f = k
  · cases hl : d.lookup f <;> simp [h]
  · cases hl : d.lookup f <;> simp [h]

end Lookup

end Dict

end GemmaWorker.Python
