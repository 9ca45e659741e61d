import GemmaWorker.Python.Text

/-! Floats as decimals: the reader `float` and a text that it reads back. -/

namespace GemmaWorker.Python

/-- `mant / 10 ^ places` in lowest terms, so that equal numbers are equal decimals. -/
structure Decimal where
  mant : ℤ
  places : ℕ
  canonical : places = 0 ∨ mant % 10 ≠ 0
deriving DecidableEq

lemma Decimal.int_canonical (m : ℤ) : 0 = 0 ∨ m % 10 ≠ 0 :=
  Or.inl rfl

lemma Decimal.zero_canonical : 0 = 0 ∨ (0 : ℤ) % 10 ≠ 0 :=
  int_canonical 0

def Decimal.ofScaled (m : ℤ) : ℕ → Decimal
  | 0 => ⟨m, 0, int_canonical m⟩
  | k + 1 => if h : m % 10 = 0 then ofScaled (m / 10) k else ⟨m, k + 1, Or.inr h⟩

inductive PyFloat
  | finite (d : Decimal)
  | inf (neg : Bool)
  | nan
deriving DecidableEq

/-- What `json.loads`, `float` and `int` take from the interpreter: how many brackets may stand open within the
recursion limit, the float nearest to a decimal, and the integer part of a float. A float is kept as the decimal
that `repr` writes, `-0.0` as zero. -/
class Interpreter where
  nesting : ℕ
  nesting_pos : 0 < nesting
  nearest : Decimal → PyFloat
  truncate : Decimal → ℤ
  nearest_repr : ∀ d e, nearest d = .finite e → nearest e = .finite e

def padText : ℕ → ℕ → PyStr
  | 0, _ => []
  | w + 1, n => digit (n / 10 ^ w) :: padText w n

def Decimal.fracText (d : Decimal) : PyStr :=
  if d.places = 0 then lit "0" else padText d.places (d.mant.natAbs % 10 ^ d.places)

def Decimal.text (d : Decimal) : PyStr :=
  (if d.mant < 0 then [ch '-'] else []) ++ natText (d.mant.natAbs / 10 ^ d.places) ++
    ch '.' :: d.fracText

/-- The decimal with the given digits, of which `frac` stand behind the point, times `10 ^ exp`. -/
def Decimal.ofParts (neg : Bool) (int frac : List ℕ) (exp : ℤ) : Decimal :=
  let m := applySign neg (ofDigits (int ++ frac))
  if (frac.length : ℤ) ≤ exp then ofScaled (m * 10 ^ (exp - frac.length).toNat) 0
  else ofScaled m (frac.length - exp).toNat

def digitRun? (s : PyStr) : Option (List ℕ) :=
  if s = [] then some [] else digitRun s

/-- The exponent behind `e`, or none when there is no exponent at all. -/
def exponent (s : PyStr) : Option ℤ :=
  match s with
  | [] => some 0
  | _ :: t => (digitRun (signed t).2).map (fun ds => applySign (signed t).1 (ofDigits ds))

def isExponentMark (c : CodePoint) : Bool :=
  c = ch 'e' || c = ch 'E'

def floatNumber [Interpreter] (neg : Bool) (s : PyStr) : Except PyError PyFloat :=
  let mantissa := s.takeWhile (fun c => !isExponentMark c)
  let parts := cut (ch '.') mantissa
  match digitRun? parts.1, digitRun? parts.2, exponent (s.dropWhile (fun c => !isExponentMark c)) with
  | some int, some frac, some exp =>
    if int ++ frac = [] then .error .valueError
    else .ok (Interpreter.nearest (Decimal.ofParts neg int frac exp))
  | _, _, _ => .error .valueError

def pyFloat [Interpreter] (s : PyStr) : Except PyError PyFloat :=
  let neg := (signed (strip s)).1
  let body := (signed (strip s)).2
  if lower body = lit "inf" ∨ lower body = lit "infinity" then .ok (.inf neg)
  else if lower body = lit "nan" then .ok .nan
  else floatNumber neg body

section Parts

lemma ofScaled_canonical (d : Decimal) : Decimal.ofScaled d.mant d.places = d := by
  obtain ⟨m, k, h⟩ := d
  cases k with
  | zero => rfl
  | succ k => simp [Decimal.ofScaled, h.resolve_left (Nat.succ_ne_zero k)]

lemma ofScaled_ten (m : ℤ) : Decimal.ofScaled (m * 10) 1 = ⟨m, 0, Or.inl rfl⟩ := by
  simp [Decimal.ofScaled]

def padDigits : ℕ → ℕ → List ℕ
  | 0, _ => []
  | w + 1, n => (n / 10 ^ w) % 10 :: padDigits w n

lemma padText_eq (w n : ℕ) : padText w n = (padDigits w n).map digit := by
  induction w with
  | zero => rfl
  | succ w ih => simp [padText, padDigits, ih, digit]

lemma padDigits_lt {w n : ℕ} : ∀ d ∈ padDigits w n, d < 10 := by
  induction w with
  | zero => simp [padDigits]
  | succ w ih =>
    intro d hd
    rcases List.mem_cons.mp hd with rfl | hd
    · exact Nat.mod_lt _ (by decide)
    · exact ih d hd

@[simp] lemma padDigits_length (w n : ℕ) : (padDigits w n).length = w := by
  induction w with
  | zero => rfl
  | succ w ih => simp [padDigits, ih]

lemma ofDigits_padDigits (w n : ℕ) : ofDigits (padDigits w n) = n % 10 ^ w := by
  induction w with
  | zero => simp [padDigits, ofDigits, Nat.mod_one]
  | succ w ih =>
    have hc : padDigits (w + 1) n = [n / 10 ^ w % 10] ++ padDigits w n := rfl
    rw [hc, ofDigits_append, ih, padDigits_length, pow_succ, Nat.mod_mul]
    simp [ofDigits]
    ring

def Decimal.fracDigits (d : Decimal) : List ℕ :=
  if d.places = 0 then [0] else padDigits d.places (d.mant.natAbs % 10 ^ d.places)

lemma fracText_eq (d : Decimal) : d.fracText = d.fracDigits.map digit := by
  rw [Decimal.fracText, Decimal.fracDigits]
  split_ifs
  · rfl
  · exact padText_eq _ _

lemma fracDigits_ne_nil (d : Decimal) : d.fracDigits ≠ [] := by
  rw [Decimal.fracDigits]
  split_ifs with h
  · simp
  · obtain ⟨k, hk⟩ := Nat.exists_eq_succ_of_ne_zero h
    simp [hk, padDigits]

lemma fracDigits_lt (d : Decimal) : ∀ x ∈ d.fracDigits, x < 10 := by
  rw [Decimal.fracDigits]
  split_ifs
  · simp
  · exact fun _ => padDigits_lt _

theorem ofParts_text (d : Decimal) : Decimal.ofParts (decide (d.mant < 0))
    (decDigits (d.mant.natAbs / 10 ^ d.places)) d.fracDigits 0 = d := by
  have hvalue : ofDigits (decDigits (d.mant.natAbs / 10 ^ d.places) ++ d.fracDigits) =
      if d.places = 0 then d.mant.natAbs * 10 else d.mant.natAbs := by
    rw [ofDigits_append, ofDigits_decDigits, Decimal.fracDigits]
    split_ifs with h
    · simp [h, ofDigits]
    · rw [ofDigits_padDigits, padDigits_length, Nat.mod_mod, Nat.div_add_mod']
  have hsign : ∀ n : ℤ, applySign (decide (n < 0)) (n.natAbs * 10) = n * 10 := by
    intro n
    rw [applySign]
    split_ifs with h <;> simp only [decide_eq_true_eq] at h <;> omega
  simp only [Decimal.ofParts, hvalue]
  by_cases h : d.places = 0
  · have hd := ofScaled_ten d.mant
    simp only [h, if_true, Decimal.fracDigits, List.length_singleton, hsign]
    norm_num
    rw [hd]
    exact (by cases d; simp_all)
  · have hlen : d.fracDigits.length = d.places := by simp [Decimal.fracDigits, h]
    have hneg : ¬ ((d.places : ℤ) ≤ 0) := by omega
    simp only [h, if_false, hlen, hneg, applySign_natAbs, sub_zero, Int.toNat_natCast]
    exact ofScaled_canonical d

end Parts

section Reading

variable {ip fp : List ℕ}

lemma digit_not_mark (d : ℕ) : isExponentMark (digit d) = false := by
  simp [isExponentMark, digit_ne d (c := ch 'e') (by decide), digit_ne d (c := ch 'E') (by decide)]

lemma notMem_map_digit {c : CodePoint} (hc : c.val < 48 ∨ 57 < c.val) (ds : List ℕ) :
    c ∉ ds.map digit := by
  intro hm
  obtain ⟨d, _, hd⟩ := List.mem_map.mp hm
  exact digit_ne d hc hd

lemma no_mark_map {ds : List ℕ} : ∀ c ∈ ds.map digit, (!isExponentMark c) = true := by
  intro c hc
  obtain ⟨d, _, rfl⟩ := List.mem_map.mp hc
  simp [digit_not_mark]

lemma digitRun?_map {ds : List ℕ} (hds : ∀ d ∈ ds, d < 10) : digitRun? (ds.map digit) = some ds := by
  rw [digitRun?]
  split_ifs with h
  · simp_all
  · exact digitRun_map (by simpa using h) hds

lemma floatNumber_point [Interpreter] (neg : Bool) (hne : ip ≠ []) (hip : ∀ d ∈ ip, d < 10)
    (hfp : ∀ d ∈ fp, d < 10) : floatNumber neg (ip.map digit ++ ch '.' :: fp.map digit) =
      .ok (Interpreter.nearest (Decimal.ofParts neg ip fp 0)) := by
  have hmark : ∀ c ∈ ip.map digit ++ ch '.' :: fp.map digit, (!isExponentMark c) = true := by
    intro c hc
    rcases List.mem_append.mp hc with hc | hc
    · exact no_mark_map c hc
    · rcases List.mem_cons.mp hc with rfl | hc
      · decide
      · exact no_mark_map c hc
  have hcut := cut_append_cons (notMem_map_digit (c := ch '.') (by decide) ip) (fp.map digit)
  simp only [floatNumber, List.takeWhile_eq_self_iff.mpr hmark, List.dropWhile_eq_nil_iff.mpr hmark,
    hcut, digitRun?_map hip, digitRun?_map hfp, exponent]
  rw [if_neg (by simp [hne])]

lemma floatNumber_whole [Interpreter] (neg : Bool) (hne : ip ≠ []) (hip : ∀ d ∈ ip, d < 10) :
    floatNumber neg (ip.map digit) = .ok (Interpreter.nearest (Decimal.ofParts neg ip [] 0)) := by
  have hcut := cut_of_notMem (notMem_map_digit (c := ch '.') (by decide) ip)
  simp only [floatNumber, List.takeWhile_eq_self_iff.mpr no_mark_map,
    List.dropWhile_eq_nil_iff.mpr no_mark_map, hcut, digitRun?_map hip, exponent]
  simp [digitRun?, hne]

lemma pyFloat_of_digit [Interpreter] {s t : PyStr} {neg : Bool} {d : ℕ} (hs : IsTrimmed s)
    (hsigned : signed s = (neg, digit d :: t)) : pyFloat s = floatNumber neg (digit d :: t) := by
  have hs' : strip s = s := hs
  have hr := digit_range d
  have hlow : ∀ {c : CodePoint} {w : PyStr}, 57 < c.val → lower (digit d :: t) ≠ c :: w := by
    intro c w hc h
    have hneg : ¬ (65 ≤ (digit d).val ∧ (digit d).val ≤ 90) := by omega
    have hv : digit d = c := by simpa only [hneg, dite_false] using (List.cons.inj h).1
    rw [← hv] at hc
    omega
  have hi : 57 < (ch 'i').val ∧ 57 < (ch 'n').val := by decide
  have hinf : lit "inf" = ch 'i' :: lit "nf" ∧ lit "infinity" = ch 'i' :: lit "nfinity" ∧
      lit "nan" = ch 'n' :: lit "an" := ⟨rfl, rfl, rfl⟩
  simp only [pyFloat, hs', hsigned, hinf, hlow hi.1, hlow hi.2, or_self, if_false]

lemma text_eq (d : Decimal) : d.text = (if d.mant < 0 then [ch '-'] else []) ++
    ((decDigits (d.mant.natAbs / 10 ^ d.places)).map digit ++ ch '.' :: d.fracDigits.map digit) := by
  rw [Decimal.text, fracText_eq, natText, List.append_assoc]

lemma text_no_space {d : Decimal} {c : CodePoint} (hc : c ∈ d.text) : isSpace c = false := by
  have hdig : ∀ {ds : List ℕ}, c ∈ ds.map digit → isSpace c = false := by
    intro ds hm
    obtain ⟨x, _, rfl⟩ := List.mem_map.mp hm
    exact digit_not_space x
  have hdot : isSpace (ch '.') = false ∧ isSpace (ch '-') = false := by decide
  rw [text_eq] at hc
  rcases List.mem_append.mp hc with hc | hc
  · split_ifs at hc <;> simp_all
  · rcases List.mem_append.mp hc with hc | hc
    · exact hdig hc
    · rcases List.mem_cons.mp hc with rfl | hc
      · exact hdot.1
      · exact hdig hc

lemma text_trimmed (d : Decimal) : IsTrimmed d.text :=
  isTrimmed_of_no_space fun _ => text_no_space

theorem pyFloat_text [Interpreter] (d : Decimal) : pyFloat d.text = .ok (Interpreter.nearest d) := by
  obtain ⟨x, t, ht⟩ := natText_head (d.mant.natAbs / 10 ^ d.places)
  have hsigned : signed d.text = (decide (d.mant < 0), digit x :: (t ++ ch '.' :: d.fracText)) := by
    rw [Decimal.text]
    split_ifs with h
    · simp [ht, signed_minus, h]
    · simpa [ht, h] using signed_natText (d.mant.natAbs / 10 ^ d.places) (ch '.' :: d.fracText)
  rw [pyFloat_of_digit (text_trimmed d) hsigned, ← List.cons_append, ← ht, natText, fracText_eq,
    floatNumber_point _ decDigits_ne_nil (fun _ => decDigits_lt _) (fracDigits_lt d), ofParts_text]

theorem pyFloat_intText [Interpreter] (n : ℤ) :
    pyFloat (intText n) = .ok (Interpreter.nearest ⟨n, 0, Or.inl rfl⟩) := by
  obtain ⟨x, t, ht⟩ := natText_head n.natAbs
  have hparts : Decimal.ofParts (decide (n < 0)) (decDigits n.natAbs) [] 0 = ⟨n, 0, Or.inl rfl⟩ := by
    simp [Decimal.ofParts, ofDigits_decDigits, applySign_natAbs, Decimal.ofScaled]
  rw [pyFloat_of_digit (intText_trimmed n) (by rw [signed_intText, ht]), ← ht, natText,
    floatNumber_whole _ decDigits_ne_nil (fun _ => decDigits_lt _), hparts]

end Reading

end GemmaWorker.Python
