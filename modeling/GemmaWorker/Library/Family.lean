import Mathlib.Logic.Function.Basic
import GemmaWorker.Library.Transition

/-! Machines side by side that write to a store which none of them reads. A run is an interleaving of runs
of the machines, and what a machine sees of the store is its own doing where the others keep away from it. -/

namespace GemmaWorker.Library

/-- `effect i s a` is what machine `i` does to the store when it takes the action `a` in the state `s`. -/
structure Family (ι σ α τ : Type*) where
  machine : ι → Machine σ α
  effect : ι → σ → α → τ → τ

namespace Family

variable {ι σ α τ β : Type*} [DecidableEq ι] (F : Family ι σ α τ)

structure State (ι σ τ : Type*) where
  each : ι → σ
  store : τ

def next (s : State ι σ τ) (a : ι × α) : Option (State ι σ τ) :=
  ((F.machine a.1).next (s.each a.1) a.2).map fun t =>
    ⟨Function.update s.each a.1 t, F.effect a.1 (s.each a.1) a.2 s.store⟩

def together : Machine (State ι σ τ) (ι × α) := ⟨F.next⟩

def own (i : ι) (as : List (ι × α)) : List α :=
  as.filterMap fun a => if a.1 = i then some a.2 else none

variable {F} {s u : State ι σ τ} {as : List (ι × α)} {i : ι}

@[simp] lemma own_nil : own i ([] : List (ι × α)) = [] := rfl

@[simp] lemma own_cons_self (a : α) : own i ((i, a) :: as) = a :: own i as := by
  simp [own]

lemma own_cons_ne {a : ι × α} (h : a.1 ≠ i) : own i (a :: as) = own i as := by
  simp [own, h]

lemma own_append (as bs : List (ι × α)) : own i (as ++ bs) = own i as ++ own i bs :=
  List.filterMap_append

lemma own_block (as : List α) (j : ι) : own i (as.map (Prod.mk j)) = if j = i then as else [] := by
  induction as with
  | nil => simp
  | cons a as ih =>
    by_cases h : j = i
    · subst h
      rw [List.map_cons, own_cons_self, ih, if_pos rfl, if_pos rfl]
    · have hcons : own i ((j, a) :: as.map (Prod.mk j)) = own i (as.map (Prod.mk j)) := own_cons_ne h
      rw [List.map_cons, hcons, ih, if_neg h, if_neg h]

lemma next_eq {a : ι × α} (h : F.next s a = some u) :
    ∃ t, (F.machine a.1).next (s.each a.1) a.2 = some t ∧
      u = ⟨Function.update s.each a.1 t, F.effect a.1 (s.each a.1) a.2 s.store⟩ := by
  obtain ⟨t, ht, rfl⟩ := Option.map_eq_some_iff.mp h
  exact ⟨t, ht, rfl⟩

/-- Whatever is interleaved is a run of all machines together, and there are no other runs. -/
theorem exec_iff (t : ι → σ) : (∃ store, F.together.exec s as = some ⟨t, store⟩) ↔
    ∀ i, (F.machine i).exec (s.each i) (own i as) = some (t i) := by
  induction as generalizing s with
  | nil =>
    constructor
    · rintro ⟨store, h⟩ i
      cases h
      rfl
    · intro h
      have hlocal : s.each = t := funext fun i => Option.some.inj (h i)
      exact ⟨s.store, by rw [← hlocal]; rfl⟩
  | cons a as ih =>
    obtain ⟨i, a⟩ := a
    cases hn : (F.machine i).next (s.each i) a with
    | none =>
      have hstuck : F.together.exec s ((i, a) :: as) = none := by
        simp [Machine.exec, together, next, hn]
      apply iff_of_false
      · rintro ⟨store, h⟩
        rw [hstuck] at h
        cases h
      · intro h
        have hi := h i
        rw [own_cons_self, Machine.exec, hn] at hi
        cases hi
    | some x =>
      have hnext : F.together.next s (i, a) =
          some ⟨Function.update s.each i x, F.effect i (s.each i) a s.store⟩ := by
        simp [together, next, hn]
      rw [Machine.exec_cons hnext, ih]
      refine forall_congr' fun j => ?_
      by_cases hj : j = i
      · subst hj
        have hself : Function.update s.each j x j = x := Function.update_self ..
        simp only [hself, own_cons_self, Machine.exec_cons hn]
      · have hne : Function.update s.each i x j = s.each j := Function.update_of_ne hj ..
        have hown : own j ((i, a) :: as) = own j as := own_cons_ne (Ne.symm hj)
        simp only [hne, hown]

/-- What machine `i` sees of the store is what it has made of it itself, as long as its own steps show in
its view and the steps of the others do not. `good` is what the store keeps to on the way. -/
theorem view_exact (view : ι → τ → β) (seen : ι → σ → β) (good : τ → Prop)
    (hgood : ∀ i s a t r, (F.machine i).next s a = some t → good r → good (F.effect i s a r))
    (hown : ∀ i s a t r, (F.machine i).next s a = some t → good r → view i r = seen i s →
      view i (F.effect i s a r) = seen i t)
    (hother : ∀ i j s a t r, j ≠ i → (F.machine i).next s a = some t → good r →
      view j (F.effect i s a r) = view j r)
    (hs : good s.store) (hv : ∀ i, view i s.store = seen i (s.each i))
    (he : F.together.exec s as = some u) : good u.store ∧ ∀ i, view i u.store = seen i (u.each i) := by
  refine Machine.exec_invariant (I := fun s => good s.store ∧ ∀ i, view i s.store = seen i (s.each i))
    he ⟨hs, hv⟩ ?_
  rintro s a u ⟨hs, hv⟩ hn
  obtain ⟨t, ht, rfl⟩ := next_eq hn
  refine ⟨hgood _ _ _ _ _ ht hs, fun j => ?_⟩
  by_cases hj : j = a.1
  · subst hj
    simp only [Function.update_self]
    exact hown _ _ _ _ _ ht hs (hv _)
  · simp only [Function.update_of_ne hj]
    rw [hother _ _ _ _ _ _ hj ht hs]
    exact hv j

end Family

end GemmaWorker.Library
