import Mathlib.Data.List.Basic
import Mathlib.Logic.Function.Iterate

/-! Items collected into batches. The size at which a batch is full may change with every batch. -/

namespace GemmaWorker.Library

/-- Every batch but the last is as long as its turn says; the last one is not empty and not longer. -/
structure Scheduled (size : ℕ → ℕ) (lengths : List ℕ) : Prop where
  full : ∀ k, k + 1 < lengths.length → lengths[k]? = some (size k)
  last : ∀ k l, k + 1 = lengths.length → lengths[k]? = some l → 1 ≤ l ∧ l ≤ size k

namespace Scheduled

variable {size : ℕ → ℕ} {lengths : List ℕ}

lemma nil (size : ℕ → ℕ) : Scheduled size [] :=
  ⟨fun _ hk => absurd hk (Nat.not_lt_zero _), fun k _ hk _ => absurd hk (Nat.succ_ne_zero k)⟩

lemma singleton {l : ℕ} (h : 1 ≤ l ∧ l ≤ size 0) : Scheduled size [l] := by
  refine ⟨fun k hk => ?_, fun k m hk hm => ?_⟩
  · rw [List.length_singleton] at hk
    omega
  · obtain rfl : k = 0 := by simpa using hk
    obtain rfl : l = m := by simpa using hm
    exact h

lemma cons (h : Scheduled (fun k => size (k + 1)) lengths) (hpos : 1 ≤ size 0) :
    Scheduled size (size 0 :: lengths) := by
  refine ⟨fun k hk => ?_, fun k l hk hl => ?_⟩
  · cases k with
    | zero => rfl
    | succ k => exact h.full k (by simpa using hk)
  · cases k with
    | zero =>
      obtain rfl : size 0 = l := by simpa using hl
      exact ⟨hpos, Nat.le_refl _⟩
    | succ k => exact h.last k l (by simpa using hk) hl

lemma of_prefix {sent : List ℕ} (hpos : ∀ k, 1 ≤ size k) (hp : sent <+: lengths)
    (h : Scheduled size lengths) : Scheduled size sent := by
  obtain ⟨rest, rfl⟩ := hp
  have hget : ∀ k, k < sent.length → (sent ++ rest)[k]? = sent[k]? :=
    fun k hk => List.getElem?_append_left hk
  refine ⟨fun k hk => ?_, fun k l hk hl => ?_⟩
  · rw [← hget k (by omega)]
    exact h.full k (by rw [List.length_append]; omega)
  · have hl' : (sent ++ rest)[k]? = some l := (hget k (by omega)).trans hl
    cases rest with
    | nil => exact h.last k l (by simpa using hk) hl'
    | cons r rest =>
      have hfull := h.full k (by rw [List.length_append, List.length_cons]; omega)
      obtain rfl : l = size k := Option.some.inj (hl'.symm.trans hfull)
      exact ⟨hpos k, Nat.le_refl _⟩

end Scheduled

/-- `full s k`: in state `s`, a batch of `k` items is sent; the state is then updated. -/
structure Batcher (σ : Type) where
  full : σ → ℕ → Bool
  update : σ → σ

namespace Batcher

variable {σ α : Type} (b : Batcher σ)

def batched : σ → List α → List α → List (List α)
  | _, pending, [] => if pending.isEmpty then [] else [pending]
  | s, pending, a :: items =>
    if b.full s (pending.length + 1) then (pending ++ [a]) :: batched (b.update s) [] items
    else batched s (pending ++ [a]) items

lemma batched_cons (s : σ) (pending : List α) (a : α) (items : List α) :
    b.batched s pending (a :: items) =
      if b.full s (pending.length + 1) then (pending ++ [a]) :: b.batched (b.update s) [] items
      else b.batched s (pending ++ [a]) items :=
  rfl

theorem flatten_batched (s : σ) (pending items : List α) :
    (b.batched s pending items).flatten = pending ++ items := by
  induction items generalizing s pending with
  | nil =>
    rw [batched]
    split_ifs with h
    · simpa using h
    · simp
  | cons a items ih =>
    rw [batched_cons]
    split_ifs
    · simp [ih]
    · simp [ih]

theorem ne_nil_of_mem_batched {s : σ} {pending items batch : List α}
    (h : batch ∈ b.batched s pending items) : batch ≠ [] := by
  induction items generalizing s pending with
  | nil =>
    rw [batched] at h
    split_ifs at h with hp
    · cases h
    · rw [List.mem_singleton] at h
      simpa [h] using hp
  | cons a items ih =>
    rw [batched_cons] at h
    split_ifs at h
    · obtain rfl | h := List.mem_cons.mp h
      · simp
      · exact ih h
    · exact ih h

lemma batched_ne_nil (s : σ) {pending items : List α} (h : pending ++ items ≠ []) :
    b.batched s pending items ≠ [] := by
  intro hnil
  apply h
  rw [← b.flatten_batched s, hnil, List.flatten_nil]

/-- When a batch in state `s` is full from `need s` items on, the batches follow the schedule that the
updates make of `need`. -/
theorem batched_scheduled (need : σ → ℕ) (hfull : ∀ s k, b.full s k = true ↔ need s ≤ k) {s : σ}
    (hpos : ∀ k, 1 ≤ need (b.update^[k] s)) {pending : List α} (hp : pending.length < need s)
    (items : List α) :
    Scheduled (fun k => need (b.update^[k] s)) ((b.batched s pending items).map List.length) := by
  induction items generalizing s pending with
  | nil =>
    rw [batched]
    split_ifs with he
    · exact Scheduled.nil _
    · refine Scheduled.singleton ⟨?_, Nat.le_of_lt hp⟩
      exact List.length_pos_iff.mpr (by simpa using he)
  | cons a items ih =>
    rw [batched_cons]
    split_ifs with hsent
    · have hlen : (pending ++ [a]).length = need s := by
        have hle := (hfull s _).mp hsent
        rw [List.length_append, List.length_singleton]
        omega
      have hrest := @ih (b.update s) (fun k => hpos (k + 1)) [] (hpos 1)
      rw [List.map_cons, hlen]
      exact hrest.cons (hpos 0)
    · refine ih hpos ?_
      rw [hfull] at hsent
      rw [List.length_append, List.length_singleton]
      omega

/-- The full batches, and the items behind them. -/
def soFar : σ → List α → List α → List (List α) × List α
  | _, pending, [] => ([], pending)
  | s, pending, a :: items =>
    if b.full s (pending.length + 1) then
      ((pending ++ [a]) :: (soFar (b.update s) [] items).1, (soFar (b.update s) [] items).2)
    else soFar s (pending ++ [a]) items

lemma soFar_cons (s : σ) (pending : List α) (a : α) (items : List α) :
    b.soFar s pending (a :: items) =
      if b.full s (pending.length + 1) then
        ((pending ++ [a]) :: (b.soFar (b.update s) [] items).1, (b.soFar (b.update s) [] items).2)
      else b.soFar s (pending ++ [a]) items :=
  rfl

lemma soFar_map {β : Type} (f : α → β) (s : σ) (pending items : List α) :
    b.soFar s (pending.map f) (items.map f) =
      ((b.soFar s pending items).1.map (List.map f), (b.soFar s pending items).2.map f) := by
  induction items generalizing s pending with
  | nil => rfl
  | cons a items ih =>
    have hlonger := ih s (pending ++ [a])
    have hfresh := ih (b.update s) []
    rw [List.map_append, List.map_singleton] at hlonger
    rw [List.map_nil] at hfresh
    rw [List.map_cons, soFar_cons, soFar_cons, List.length_map, hfresh, hlonger]
    split_ifs
    · simp
    · rfl

theorem flatten_soFar (s : σ) (pending items : List α) :
    (b.soFar s pending items).1.flatten ++ (b.soFar s pending items).2 = pending ++ items := by
  induction items generalizing s pending with
  | nil => simp [soFar]
  | cons a items ih =>
    rw [soFar_cons]
    split_ifs
    · have hrest := ih (b.update s) []
      rw [List.nil_append] at hrest
      simp [hrest]
    · simp [ih]

lemma soFar_open {s : σ} {pending : List α} (h : ∀ k, 1 ≤ k → k ≤ pending.length → b.full s k = false)
    (items : List α) {k : ℕ} (hpos : 1 ≤ k) (hk : k ≤ (b.soFar s pending items).2.length) :
    b.full (b.update^[(b.soFar s pending items).1.length] s) k = false := by
  induction items generalizing s pending with
  | nil => exact h k hpos hk
  | cons a items ih =>
    rw [soFar_cons] at hk ⊢
    split_ifs at hk ⊢ with hfull
    · refine ih (fun j hj hle => ?_) hk
      rw [List.length_nil] at hle
      omega
    · refine ih (fun j hj hle => ?_) hk
      rw [List.length_append, List.length_singleton] at hle
      obtain hlt | rfl := Nat.lt_or_eq_of_le hle
      · exact h j hj (Nat.le_of_lt_succ hlt)
      · simpa using hfull

/-- In the state behind the full batches, the items behind them are too few for one more. -/
theorem soFar_short (s : σ) (items : List α) {k : ℕ} (hpos : 1 ≤ k) (hk : k ≤ (b.soFar s [] items).2.length) :
    b.full (b.update^[(b.soFar s [] items).1.length] s) k = false := by
  refine b.soFar_open (fun j hj hle => ?_) items hpos hk
  rw [List.length_nil] at hle
  omega

end Batcher

end GemmaWorker.Library
