import GemmaWorker.Python.Decimal

/-! The floats of CPython: binary64, each as the shortest decimal that is read as it. -/

namespace GemmaWorker.Python

section Rounding

def Decimal.magnitude (d : Decimal) : Float.Model :=
  .ofScientific d.mant.natAbs (-d.places)

/-- The multiples of `10 ^ k` on both sides of `num / den`, the nearer one first. -/
def neighbours (num den : ℕ) (k : ℤ) : List ℕ :=
  let n := num * 10 ^ (-k).toNat
  let d := den * 10 ^ k.toNat
  if n < d then []
  else if 2 * (n % d) < d ∨ 2 * (n % d) = d ∧ n / d % 2 = 0 then [n / d, n / d + 1]
  else [n / d + 1, n / d]

/-- The decimals around `mant * 2 ^ exp`, from few digits to many. -/
def candidates (neg : Bool) (mant : ℕ) (exp : ℤ) : List Decimal :=
  (List.range 640).flatMap fun i =>
    (neighbours (mant * 2 ^ exp.toNat) (2 ^ (-exp).toNat) (309 - i)).map fun n =>
      Decimal.ofScaled (applySign neg (n * 10 ^ (309 - (i : ℤ)).toNat)) ((i : ℤ) - 309).toNat

def SameFloat (d c : Decimal) : Prop :=
  (c.mant < 0 ↔ d.mant < 0) ∧ c.magnitude = d.magnitude

instance (d c : Decimal) : Decidable (SameFloat d c) :=
  inferInstanceAs (Decidable (_ ∧ _))

/-- The float nearest to a decimal, a tie going to the even one. -/
def binary64 (d : Decimal) : PyFloat :=
  match d.magnitude.unpack with
  | .infinity _ => .inf (d.mant < 0)
  | .notANumber => .nan
  | .zero _ => .finite ⟨0, 0, Decimal.zero_canonical⟩
  | .finite _ mant exp _ => .finite (((candidates (d.mant < 0) mant exp).find? (SameFloat d ·)).getD d)

/-- Where floats are further apart than integers, the decimal need not be the value of the float. -/
def Decimal.truncate (d : Decimal) : ℤ :=
  match d.magnitude.unpack with
  | .finite _ mant exp _ => applySign (d.mant < 0) (mant * 2 ^ exp.toNat / 2 ^ (-exp).toNat)
  | _ => 0

end Rounding

section Repr

variable {d c : Decimal}

lemma SameFloat.binary64_eq (h : SameFloat d c) : binary64 c =
    match d.magnitude.unpack with
    | .infinity _ => .inf (d.mant < 0)
    | .notANumber => .nan
    | .zero _ => .finite ⟨0, 0, Decimal.zero_canonical⟩
    | .finite _ mant exp _ => .finite (((candidates (d.mant < 0) mant exp).find? (SameFloat d ·)).getD c) := by
  have hsame (e : Decimal) : SameFloat c e ↔ SameFloat d e := by
    rw [SameFloat, SameFloat, h.1, h.2]
  simp only [binary64, h.1, h.2, hsame]

lemma binary64_finite {sign : Float.Model.UnpackedFloat.Sign} {mant : ℕ} {exp : ℤ} {hpos : 0 < mant}
    (h : d.magnitude.unpack = .finite sign mant exp hpos) :
    binary64 d = .finite (((candidates (d.mant < 0) mant exp).find? (SameFloat d ·)).getD d) := by
  rw [binary64, h]

/-- The decimal that a float is kept as is read as that float. -/
theorem binary64_repr (h : binary64 d = .finite c) : binary64 c = .finite c := by
  cases hunpack : d.magnitude.unpack with
  | infinity s =>
    rw [binary64, hunpack] at h
    cases h
  | notANumber =>
    rw [binary64, hunpack] at h
    cases h
  | zero s =>
    rw [binary64, hunpack] at h
    obtain rfl := PyFloat.finite.inj h
    rfl
  | finite s mant exp hpos =>
    have hkept := PyFloat.finite.inj ((binary64_finite hunpack).symm.trans h)
    cases hfind : (candidates (d.mant < 0) mant exp).find? (SameFloat d ·) with
    | none =>
      rw [hfind] at hkept
      obtain rfl : d = c := hkept
      exact h
    | some e =>
      rw [hfind] at hkept
      obtain rfl : e = c := hkept
      have hsame : SameFloat d e := by simpa using List.find?_some hfind
      rw [hsame.binary64_eq, hunpack]
      simp only [hfind, Option.getD_some]

end Repr

/-- CPython with its default recursion limit. The frames on the stack count against the limit too; what reads a
text from outside is therefore proved of any interpreter. -/
instance (priority := low) cpython : Interpreter where
  nesting := 1000
  nesting_pos := by decide
  nearest := binary64
  truncate := Decimal.truncate
  nearest_repr _ _ := binary64_repr

example : binary64 ⟨95, 2, by decide⟩ = .finite ⟨95, 2, by decide⟩ ∧
    binary64 ⟨10 ^ 17 + 1, 18, by decide⟩ = .finite ⟨1, 1, by decide⟩ ∧
    binary64 ⟨1, 400, by decide⟩ = .finite ⟨0, 0, by decide⟩ ∧
    binary64 ⟨-10 ^ 400, 0, by decide⟩ = .inf true ∧
    Decimal.truncate ⟨-25, 1, by decide⟩ = -2 ∧
    Decimal.truncate ⟨10 ^ 23, 0, by decide⟩ = 99999999999999991611392 := by
  decide +kernel

end GemmaWorker.Python
