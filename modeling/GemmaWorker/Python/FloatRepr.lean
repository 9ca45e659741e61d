import GemmaWorker.Python.Decimal
import Mathlib.Data.List.DropRight

/-! `repr` of a float: with an exponent where the point stands far from the digits. -/

namespace GemmaWorker.Python

section Notation

/-- The digits from the first to the last that is not zero. -/
def Decimal.significant (d : Decimal) : List ℕ :=
  (decDigits d.mant.natAbs).rdropWhile (· = 0)

/-- How far behind the first digit the point stands. -/
def Decimal.point (d : Decimal) : ℤ :=
  (decDigits d.mant.natAbs).length - d.places

def exponentDigits (e : ℤ) : List ℕ :=
  (if e.natAbs < 10 then [0] else []) ++ decDigits e.natAbs

def exponentText (e : ℤ) : PyStr :=
  ch 'e' :: (if e < 0 then ch '-' else ch '+') :: (exponentDigits e).map digit

def fractionText : List ℕ → PyStr
  | [] => []
  | ds => ch '.' :: ds.map digit

def Decimal.scientific (d : Decimal) : PyStr :=
  (if d.mant < 0 then [ch '-'] else []) ++ ((d.significant.take 1).map digit ++
    (fractionText d.significant.tail ++ exponentText (d.point - 1)))

def Decimal.repr (d : Decimal) : PyStr :=
  if -4 < d.point ∧ d.point ≤ 16 then d.text else d.scientific

example : Decimal.repr ⟨1, 4, by decide⟩ = lit "0.0001" ∧
    Decimal.repr ⟨-15, 8, by decide⟩ = lit "-1.5e-07" ∧ Decimal.repr ⟨10 ^ 22, 0, by decide⟩ = lit "1e+22" := by
  decide +kernel

end Notation

section Digits

variable {d : Decimal} {e : ℤ}

lemma ofDigits_zeros (ds : List ℕ) (z : ℕ) : ofDigits (ds ++ List.replicate z 0) = ofDigits ds * 10 ^ z := by
  have hzero : ofDigits (List.replicate z 0) = 0 := by
    induction z with
    | zero => rfl
    | succ z ih =>
      rw [List.replicate_succ', ofDigits_append, ih]
      rfl
  rw [ofDigits_append, hzero, List.length_replicate, Nat.add_zero]

lemma exponentDigits_ne_nil : exponentDigits e ≠ [] :=
  List.append_ne_nil_of_right_ne_nil _ decDigits_ne_nil

lemma exponentDigits_lt : ∀ x ∈ exponentDigits e, x < 10 := by
  intro x hx
  rcases List.mem_append.mp hx with hx | hx
  · split_ifs at hx
    · obtain rfl := List.mem_singleton.mp hx
      decide
    · cases hx
  · exact decDigits_lt x hx

lemma ofDigits_exponentDigits : ofDigits (exponentDigits e) = e.natAbs := by
  have hpad : ofDigits (if e.natAbs < 10 then [0] else []) = 0 := by split_ifs <;> rfl
  rw [exponentDigits, ofDigits_append, hpad, ofDigits_decDigits, Nat.zero_mul, Nat.zero_add]

lemma decDigits_head {n : ℕ} : decDigits n = [0] ∨ ∃ d ds, decDigits n = d :: ds ∧ d ≠ 0 := by
  by_cases hn : n = 0
  · exact Or.inl (by simp [decDigits, hn])
  · have hne : Nat.digits 10 n ≠ [] := Nat.digits_ne_nil_iff_ne_zero.mpr hn
    have hr := List.cons_head_tail (List.reverse_ne_nil_iff.mpr hne)
    refine Or.inr ⟨_, (Nat.digits 10 n).reverse.tail, ?_, Nat.getLast_digit_ne_zero 10 hn⟩
    rw [decDigits, if_neg hn, ← hr, List.head_reverse, List.tail_cons]

/-- The point of a zero stands right behind its digit. -/
lemma repr_cases (d : Decimal) : d.repr = d.text ∨ d.mant ≠ 0 ∧ d.repr = d.scientific := by
  by_cases hpoint : -4 < d.point ∧ d.point ≤ 16
  · exact Or.inl (if_pos hpoint)
  · refine Or.inr ⟨fun hzero => hpoint ?_, if_neg hpoint⟩
    have hplaces : d.places = 0 := d.canonical.resolve_right (by simp [hzero])
    simp [Decimal.point, hzero, hplaces, decDigits]

lemma significant_zeros (d : Decimal) : ∃ z, decDigits d.mant.natAbs = d.significant ++ List.replicate z 0 := by
  have hsplit : decDigits d.mant.natAbs = d.significant ++ (decDigits d.mant.natAbs).rtakeWhile (· = 0) :=
    List.rdropWhile_append_rtakeWhile.symm
  have hzeros : ∀ x ∈ (decDigits d.mant.natAbs).rtakeWhile (· = 0), x = 0 :=
    fun x hx => by simpa using List.mem_rtakeWhile_imp hx
  rw [List.eq_replicate_of_mem hzeros] at hsplit
  exact ⟨_, hsplit⟩

lemma value_of_digits {ds : List ℕ} {z : ℕ} (h : decDigits d.mant.natAbs = ds ++ List.replicate z 0) :
    d.mant.natAbs = ofDigits ds * 10 ^ z := by
  rw [← ofDigits_zeros, ← h, ofDigits_decDigits]

lemma head_ne_zero {x : ℕ} {xs : List ℕ} (hd : d.mant ≠ 0) (h : decDigits d.mant.natAbs = x :: xs) : x ≠ 0 := by
  obtain hzero | ⟨y, ys, hdigits, hy⟩ := decDigits_head (n := d.mant.natAbs)
  · have hvalue := congrArg ofDigits hzero
    rw [ofDigits_decDigits] at hvalue
    exact absurd (Int.natAbs_eq_zero.mp hvalue) hd
  · rw [h] at hdigits
    exact (List.cons.inj hdigits).1 ▸ hy

/-- Only the digits of an integer end in zeros. -/
lemma significant_cons (hd : d.mant ≠ 0) : ∃ x xs z, d.significant = x :: xs ∧ x ≠ 0 ∧
    decDigits d.mant.natAbs = x :: xs ++ List.replicate z 0 ∧ (d.places ≠ 0 → z = 0) := by
  obtain ⟨z, hsplit⟩ := significant_zeros d
  have hvalue := value_of_digits hsplit
  cases hs : d.significant with
  | nil =>
    rw [hs] at hvalue
    simp [ofDigits, hd] at hvalue
  | cons x xs =>
    rw [hs] at hsplit hvalue
    refine ⟨x, xs, z, rfl, head_ne_zero hd hsplit, hsplit, fun hplaces => ?_⟩
    by_contra hz
    obtain ⟨k, rfl⟩ := Nat.exists_eq_succ_of_ne_zero hz
    have hlast := d.canonical.resolve_left hplaces
    rw [pow_succ, ← mul_assoc] at hvalue
    generalize ofDigits (x :: xs) * 10 ^ k = a at hvalue
    omega

lemma applySign_mul (neg : Bool) (m n : ℕ) : applySign neg (m * n) = applySign neg m * n := by
  simp only [applySign]
  split_ifs <;> push_cast <;> ring

/-- The digits and the exponent of the notation make the decimal. -/
lemma ofParts_scientific {x : ℕ} {xs : List ℕ} {z : ℕ} (hdigits : decDigits d.mant.natAbs =
    x :: xs ++ List.replicate z 0) (hz : d.places ≠ 0 → z = 0) :
    Decimal.ofParts (decide (d.mant < 0)) [x] xs (d.point - 1) = d := by
  have hpoint : d.point - 1 = xs.length + z - d.places := by
    rw [Decimal.point, hdigits]
    simp only [List.cons_append, List.length_cons, List.length_append, List.length_replicate]
    omega
  have hsign : applySign (decide (d.mant < 0)) (ofDigits (x :: xs)) * 10 ^ z = d.mant := by
    have hmant := applySign_natAbs d.mant
    rw [value_of_digits hdigits, applySign_mul] at hmant
    exact_mod_cast hmant
  rw [Decimal.ofParts, hpoint, List.singleton_append]
  by_cases hplaces : d.places = 0
  · have hexp : (xs.length : ℤ) + z - d.places - xs.length = z := by omega
    rw [if_pos (by omega), hexp, Int.toNat_natCast, hsign]
    obtain ⟨m, p, h⟩ := d
    obtain rfl : p = 0 := hplaces
    rfl
  · obtain rfl := hz hplaces
    have hexp : (xs.length : ℤ) - (xs.length + (0 : ℕ) - d.places) = d.places := by omega
    rw [if_neg (by omega), hexp, Int.toNat_natCast]
    rw [pow_zero, mul_one] at hsign
    rw [hsign]
    exact ofScaled_canonical d

end Digits

end GemmaWorker.Python
