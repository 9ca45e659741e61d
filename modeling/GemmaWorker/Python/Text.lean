import Mathlib.Data.List.TakeWhile
import Mathlib.Data.Nat.Digits.Defs
import Mathlib.Tactic

/-! Python strings as lists of code points, surrogates included, with the string methods and number
readers that the worker's configuration and request code calls. -/

namespace GemmaWorker.Python

abbrev CodePoint := Fin 0x110000
abbrev PyStr := List CodePoint

instance : LawfulBEq PyStr := inferInstance

inductive PyError
  | valueError
  | typeError
  | jsonDecodeError
  | unicodeEncodeError
  | overflowError
  | recursionError
deriving DecidableEq, Repr

lemma bind_eq_ok {α β : Type} {x : Except PyError α} {f : α → Except PyError β} {b : β} :
    (x >>= f) = .ok b ↔ ∃ a, x = .ok a ∧ f a = .ok b := by
  cases x with
  | error e => simp [bind, Except.bind]
  | ok a => simp [bind, Except.bind]

def ch (c : Char) : CodePoint :=
  ⟨c.toNat, by
    have hv : c.toNat.isValidChar := c.valid
    rcases hv with h | h <;> omega⟩

def lit (s : String) : PyStr :=
  s.toList.map ch

@[simp] lemma ch_inj (a b : Char) : ch a = ch b ↔ a = b := by
  rw [ch, ch, Fin.mk.injEq, Char.toNat_inj]

lemma lit_inj {s t : String} : lit s = lit t ↔ s = t := by
  have hch : Function.Injective ch := fun a b h => (ch_inj a b).mp h
  rw [lit, lit, List.map_inj_right hch, String.toList_inj]

def isSurrogate (c : CodePoint) : Bool :=
  0xD800 ≤ c.val && c.val ≤ 0xDFFF

def encodable (s : PyStr) : Bool :=
  s.all (fun c => !isSurrogate c)

lemma encodable_nil : encodable [] = true := rfl

lemma encodable_iff {s : PyStr} : encodable s = true ↔ ∀ c ∈ s, isSurrogate c = false := by
  simp [encodable]

lemma encodable_append {s t : PyStr} :
    encodable (s ++ t) = true ↔ encodable s = true ∧ encodable t = true := by
  simp [encodable]

lemma encodable_cons {c : CodePoint} {s : PyStr} :
    encodable (c :: s) = true ↔ isSurrogate c = false ∧ encodable s = true := by
  simp [encodable]

lemma encodable_of_subset {s t : PyStr} (hst : s ⊆ t) (ht : encodable t = true) :
    encodable s = true :=
  encodable_iff.mpr fun c hc => encodable_iff.mp ht c (hst hc)

def isAscii (s : PyStr) : Bool :=
  s.all (fun c => c.val < 128)

def isLatin1 (s : PyStr) : Bool :=
  s.all (fun c => c.val < 256)

lemma encodable_of_latin1 {s : PyStr} (h : isLatin1 s = true) : encodable s = true := by
  refine encodable_iff.mpr fun c hc => ?_
  have hlt : c.val < 256 := by simpa using List.all_eq_true.mp h c hc
  simp only [isSurrogate, Bool.and_eq_false_iff, decide_eq_false_iff_not]
  omega

def isSpace (c : CodePoint) : Bool :=
  (9 ≤ c.val && c.val ≤ 13) || (0x1C ≤ c.val && c.val ≤ 0x20) || c.val = 0x85 || c.val = 0xA0 ||
    c.val = 0x1680 || (0x2000 ≤ c.val && c.val ≤ 0x200A) || c.val = 0x2028 || c.val = 0x2029 ||
    c.val = 0x202F || c.val = 0x205F || c.val = 0x3000

def strip (s : PyStr) : PyStr :=
  ((s.dropWhile isSpace).reverse.dropWhile isSpace).reverse

def IsTrimmed (s : PyStr) : Prop :=
  strip s = s

instance (s : PyStr) : Decidable (IsTrimmed s) :=
  inferInstanceAs (Decidable (strip s = s))

lemma strip_of_ends {s : PyStr} (hh : ∀ c ∈ s.head?, isSpace c = false)
    (hl : ∀ c ∈ s.getLast?, isSpace c = false) : IsTrimmed s := by
  have hdrop : ∀ t : PyStr, (∀ c ∈ t.head?, isSpace c = false) → t.dropWhile isSpace = t := by
    intro t ht
    cases t with
    | nil => rfl
    | cons c t => simp [ht c rfl]
  rw [IsTrimmed, strip, hdrop s hh, hdrop s.reverse (by simpa using hl), List.reverse_reverse]

lemma strip_subset (s : PyStr) : strip s ⊆ s := by
  intro c hc
  have hrev := (List.dropWhile_sublist isSpace).subset (List.mem_reverse.mp hc)
  exact (List.dropWhile_sublist isSpace).subset (List.mem_reverse.mp hrev)

/-- `str.lower` on the letters A to Z. The results are only compared with words whose letters no
other code point lowers to. -/
def lower (s : PyStr) : PyStr :=
  s.map (fun c => if h : 65 ≤ c.val ∧ c.val ≤ 90 then ⟨c.val + 32, by omega⟩ else c)

/-- `s.partition(c)` without the separator: what stands before and after the first `c`. -/
def cut (c : CodePoint) (s : PyStr) : PyStr × PyStr :=
  (s.takeWhile (· != c), (s.dropWhile (· != c)).tail)

lemma bne_of_notMem {c : CodePoint} {s : PyStr} (h : c ∉ s) : ∀ d ∈ s, (d != c) = true := by
  intro d hd
  simpa using fun he : d = c => h (he ▸ hd)

lemma cut_of_notMem {c : CodePoint} {s : PyStr} (h : c ∉ s) : cut c s = (s, []) := by
  simp only [cut, List.takeWhile_eq_self_iff.mpr (bne_of_notMem h),
    List.dropWhile_eq_nil_iff.mpr (bne_of_notMem h), List.tail_nil]

lemma cut_append_cons {c : CodePoint} {s : PyStr} (h : c ∉ s) (t : PyStr) :
    cut c (s ++ c :: t) = (s, t) := by
  rw [cut, List.takeWhile_append_of_pos (bne_of_notMem h),
    List.dropWhile_append_of_pos (bne_of_notMem h)]
  simp

lemma notMem_cut_fst (c : CodePoint) (s : PyStr) : c ∉ (cut c s).1 := by
  intro h
  have hc := List.mem_takeWhile_imp h
  simp at hc

lemma cut_cases (c : CodePoint) (s : PyStr) :
    (c ∉ s ∧ cut c s = (s, [])) ∨ ∃ a b, c ∉ a ∧ s = a ++ c :: b ∧ cut c s = (a, b) := by
  by_cases h : c ∈ s
  · obtain ⟨a, b, rfl, ha⟩ := List.eq_append_cons_of_mem h
    exact Or.inr ⟨a, b, ha, rfl, cut_append_cons ha b⟩
  · exact Or.inl ⟨h, cut_of_notMem h⟩

def split (c : CodePoint) : PyStr → List PyStr
  | [] => [[]]
  | d :: s =>
    if d = c then [] :: split c s
    else match split c s with
      | [] => [[d]]
      | p :: ps => (d :: p) :: ps

lemma split_of_notMem {c : CodePoint} {s : PyStr} (h : c ∉ s) : split c s = [s] := by
  induction s with
  | nil => rfl
  | cons d s ih =>
    have hd : ¬ d = c := fun he => h (he ▸ List.mem_cons_self)
    rw [split, if_neg hd, ih (fun hs => h (List.mem_cons_of_mem d hs))]

lemma split_append_cons {c : CodePoint} {s : PyStr} (h : c ∉ s) (t : PyStr) :
    split c (s ++ c :: t) = s :: split c t := by
  induction s with
  | nil => rw [List.nil_append, split, if_pos rfl]
  | cons d s ih =>
    have hd : ¬ d = c := fun he => h (he ▸ List.mem_cons_self)
    rw [List.cons_append, split, if_neg hd, ih (fun hs => h (List.mem_cons_of_mem d hs))]

def contains (pattern s : PyStr) : Bool :=
  s.tails.any (fun t => pattern.isPrefixOf t)

lemma contains_iff {pattern s : PyStr} : contains pattern s = true ↔ pattern <:+: s := by
  simp [contains, List.infix_iff_prefix_suffix, and_comm]

def removePrefix (pre s : PyStr) : PyStr :=
  if pre.isPrefixOf s then s.drop pre.length else s

def rstripChar (c : CodePoint) (s : PyStr) : PyStr :=
  (s.reverse.dropWhile (· == c)).reverse

/-- The zeros of the decimal digit runs of Unicode 13, which `int` and `float` read. -/
def digitZeros : List ℕ :=
  [0x30, 0x660, 0x6F0, 0x7C0, 0x966, 0x9E6, 0xA66, 0xAE6, 0xB66, 0xBE6, 0xC66, 0xCE6, 0xD66, 0xDE6,
    0xE50, 0xED0, 0xF20, 0x1040, 0x1090, 0x17E0, 0x1810, 0x1946, 0x19D0, 0x1A80, 0x1A90, 0x1B50,
    0x1BB0, 0x1C40, 0x1C50, 0xA620, 0xA8D0, 0xA900, 0xA9D0, 0xA9F0, 0xAA50, 0xABF0, 0xFF10, 0x104A0,
    0x10D30, 0x11066, 0x110F0, 0x11136, 0x111D0, 0x112F0, 0x11450, 0x114D0, 0x11650, 0x116C0,
    0x11730, 0x118E0, 0x11950, 0x11C50, 0x11D50, 0x11DA0, 0x16A60, 0x16B50, 0x1D7CE, 0x1D7D8,
    0x1D7E2, 0x1D7EC, 0x1D7F6, 0x1E140, 0x1E2F0, 0x1E950, 0x1FBF0]

def digitValue (c : CodePoint) : Option ℕ :=
  (digitZeros.find? (fun z => z ≤ c.val && c.val < z + 10)).map (fun z => c.val - z)

def digit (d : ℕ) : CodePoint :=
  ⟨48 + d % 10, by omega⟩

def hexDigit (d : ℕ) : CodePoint :=
  if d % 16 < 10 then ⟨48 + d % 16, by omega⟩ else ⟨87 + d % 16, by omega⟩

def hexValue (c : CodePoint) : Option ℕ :=
  if 48 ≤ c.val ∧ c.val ≤ 57 then some (c.val - 48)
  else if 97 ≤ c.val ∧ c.val ≤ 102 then some (c.val - 87)
  else if 65 ≤ c.val ∧ c.val ≤ 70 then some (c.val - 55)
  else none

def hexText : ℕ → ℕ → PyStr
  | 0, _ => []
  | w + 1, n => hexDigit (n / 16 ^ w) :: hexText w n

lemma hexValue_hexDigit (d : ℕ) : hexValue (hexDigit d) = some (d % 16) := by
  have hd : d % 16 < 16 := Nat.mod_lt _ (by decide)
  unfold hexValue hexDigit
  split_ifs <;> simp_all <;> omega

lemma hexText_length (w n : ℕ) : (hexText w n).length = w := by
  induction w with
  | zero => rfl
  | succ w ih => simp [hexText, ih]

lemma hexText_ascii (w n : ℕ) : isAscii (hexText w n) = true := by
  have hd : ∀ d, (hexDigit d).val < 128 := by
    intro d
    unfold hexDigit
    split_ifs <;> simp only <;> omega
  induction w with
  | zero => rfl
  | succ w ih =>
    simp only [isAscii, hexText, List.all_cons, Bool.and_eq_true, decide_eq_true_eq]
    exact ⟨hd _, ih⟩

lemma hexText_inj {w m n : ℕ} (h : hexText w m = hexText w n) : m % 16 ^ w = n % 16 ^ w := by
  induction w with
  | zero => simp [Nat.mod_one]
  | succ w ih =>
    obtain ⟨hd, ht⟩ := List.cons.inj h
    have hv := congrArg hexValue hd
    rw [hexValue_hexDigit, hexValue_hexDigit, Option.some.injEq] at hv
    rw [pow_succ, Nat.mod_mul, Nat.mod_mul, ih ht, hv]

/-- Digits with single underscores between them, at least one digit. -/
def digitRun : PyStr → Option (List ℕ)
  | [] => none
  | [c] => (digitValue c).map (fun v => [v])
  | c :: d :: s =>
    match digitValue c with
    | none => none
    | some v => if d = ch '_' then (digitRun s).map (v :: ·) else (digitRun (d :: s)).map (v :: ·)

def ofDigits (ds : List ℕ) : ℕ :=
  ds.foldl (fun a d => 10 * a + d) 0

def signed (s : PyStr) : Bool × PyStr :=
  match s with
  | [] => (false, [])
  | c :: t => if c = ch '-' then (true, t) else if c = ch '+' then (false, t) else (false, c :: t)

/-- `sys.get_int_max_str_digits()`: longer digit strings are refused with a `ValueError`. -/
def intMaxStrDigits : ℕ := 4300

def applySign (neg : Bool) (n : ℕ) : ℤ :=
  if neg then -(n : ℤ) else n

def pyInt (s : PyStr) : Except PyError ℤ :=
  match digitRun (signed (strip s)).2 with
  | none => .error .valueError
  | some ds =>
    if intMaxStrDigits < ds.length then .error .valueError
    else .ok (applySign (signed (strip s)).1 (ofDigits ds))

def decDigits (n : ℕ) : List ℕ :=
  if n = 0 then [0] else (Nat.digits 10 n).reverse

def natText (n : ℕ) : PyStr :=
  (decDigits n).map digit

def intText (n : ℤ) : PyStr :=
  if n < 0 then ch '-' :: natText n.natAbs else natText n.natAbs

section Digits

variable {n : ℕ} {ds es : List ℕ}

lemma decDigits_lt : ∀ d ∈ decDigits n, d < 10 := by
  intro d hd
  rw [decDigits] at hd
  split_ifs at hd
  · simp_all
  · exact Nat.digits_lt_base (by decide) (List.mem_reverse.mp hd)

lemma decDigits_ne_nil : decDigits n ≠ [] := by
  rw [decDigits]
  split_ifs with h
  · simp
  · simpa [Nat.digits_eq_nil_iff_eq_zero] using h

lemma ofDigits_append : ofDigits (ds ++ es) = ofDigits ds * 10 ^ es.length + ofDigits es := by
  have hfold : ∀ (es : List ℕ) (a : ℕ),
      es.foldl (fun a d => 10 * a + d) a = a * 10 ^ es.length + ofDigits es := by
    intro es
    induction es with
    | nil => simp [ofDigits]
    | cons d es ih =>
      intro a
      have hd : ofDigits (d :: es) = d * 10 ^ es.length + ofDigits es := by
        rw [ofDigits, List.foldl_cons, ih, Nat.mul_zero, Nat.zero_add]
      rw [List.foldl_cons, ih, hd, List.length_cons, pow_succ]
      ring
  rw [ofDigits, List.foldl_append, hfold]
  rfl

lemma ofDigits_decDigits : ofDigits (decDigits n) = n := by
  have hrev : ∀ l : List ℕ, ofDigits l.reverse = Nat.ofDigits 10 l := by
    intro l
    induction l with
    | nil => rfl
    | cons d l ih =>
      rw [List.reverse_cons, ofDigits_append, ih, Nat.ofDigits_cons]
      simp [ofDigits]
      ring
  rw [decDigits]
  split_ifs with h
  · rw [h]
    rfl
  · rw [hrev, Nat.ofDigits_digits]

lemma digitValue_digit {d : ℕ} (hd : d < 10) : digitValue (digit d) = some d := by
  interval_cases d <;> rfl

lemma digit_range (d : ℕ) : 48 ≤ (digit d).val ∧ (digit d).val ≤ 57 := by
  have hd : d % 10 < 10 := Nat.mod_lt _ (by decide)
  have hv : (digit d).val = 48 + d % 10 := rfl
  omega

lemma digit_ne (d : ℕ) {c : CodePoint} (hc : c.val < 48 ∨ 57 < c.val) : digit d ≠ c := by
  rintro rfl
  have := digit_range d
  omega

lemma digitRun_map (hne : ds ≠ []) (hds : ∀ d ∈ ds, d < 10) : digitRun (ds.map digit) = some ds := by
  induction ds with
  | nil => exact absurd rfl hne
  | cons d ds ih =>
    have hd := digitValue_digit (hds d (by simp))
    cases ds with
    | nil => simp [digitRun, hd]
    | cons e ds =>
      have ht := ih (by simp) (fun x hx => hds x (by simp_all))
      simp only [List.map_cons] at ht ⊢
      rw [digitRun, hd]
      simp only [digit_ne e (c := ch '_') (by decide), if_false, ht, Option.map_some]

end Digits

lemma digit_not_space (d : ℕ) : isSpace (digit d) = false := by
  have := digit_range d
  simp only [isSpace, Bool.or_eq_false_iff, Bool.and_eq_false_iff, decide_eq_false_iff_not]
  omega

lemma mem_natText {n : ℕ} {c : CodePoint} (hc : c ∈ natText n) : ∃ d, c = digit d := by
  obtain ⟨d, _, rfl⟩ := List.mem_map.mp hc
  exact ⟨d, rfl⟩

lemma intText_no_space {n : ℤ} {c : CodePoint} (hc : c ∈ intText n) : isSpace c = false := by
  have hnat : ∀ c ∈ natText n.natAbs, isSpace c = false := by
    intro c hc
    obtain ⟨d, rfl⟩ := mem_natText hc
    exact digit_not_space d
  rw [intText] at hc
  split_ifs at hc
  · rcases List.mem_cons.mp hc with rfl | hc
    · decide
    · exact hnat c hc
  · exact hnat c hc

lemma isTrimmed_of_no_space {s : PyStr} (h : ∀ c ∈ s, isSpace c = false) : IsTrimmed s :=
  strip_of_ends (fun c hc => h c (List.mem_of_mem_head? hc)) (fun c hc => h c (List.mem_of_getLast? hc))

lemma intText_trimmed (n : ℤ) : IsTrimmed (intText n) :=
  isTrimmed_of_no_space fun _ => intText_no_space

lemma natText_head (n : ℕ) : ∃ d t, natText n = digit d :: t := by
  obtain ⟨d, ds, hd⟩ := List.exists_cons_of_ne_nil (decDigits_ne_nil (n := n))
  exact ⟨d, ds.map digit, by simp [natText, hd]⟩

lemma signed_natText (n : ℕ) (s : PyStr) : signed (natText n ++ s) = (false, natText n ++ s) := by
  obtain ⟨d, t, ht⟩ := natText_head n
  simp [ht, signed, digit_ne d (c := ch '-') (by decide), digit_ne d (c := ch '+') (by decide)]

lemma signed_minus (s : PyStr) : signed (ch '-' :: s) = (true, s) := by
  simp [signed]

lemma digitRun_natText (n : ℕ) : digitRun (natText n) = some (decDigits n) :=
  digitRun_map decDigits_ne_nil (fun _ => decDigits_lt _)

lemma signed_intText (n : ℤ) : signed (intText n) = (decide (n < 0), natText n.natAbs) := by
  rw [intText]
  split_ifs with h
  · rw [signed_minus, decide_eq_true h]
  · simpa [h] using signed_natText n.natAbs []

lemma applySign_natAbs (n : ℤ) : applySign (decide (n < 0)) n.natAbs = n := by
  rw [applySign]
  split_ifs with h <;> simp only [decide_eq_true_eq] at h <;> omega

def FitsInt (n : ℤ) : Prop :=
  (decDigits n.natAbs).length ≤ intMaxStrDigits

instance (n : ℤ) : Decidable (FitsInt n) :=
  inferInstanceAs (Decidable (_ ≤ _))

theorem pyInt_intText (n : ℤ) :
    pyInt (intText n) = if FitsInt n then .ok n else .error .valueError := by
  have hs : strip (intText n) = intText n := intText_trimmed n
  simp only [pyInt, hs, signed_intText, digitRun_natText, ofDigits_decDigits, applySign_natAbs]
  by_cases h : FitsInt n
  · rw [if_pos h, if_neg (not_lt.mpr h)]
  · rw [if_neg h, if_pos (not_le.mp h)]

section IntChars

variable {s : PyStr}

def isIntChar (c : CodePoint) : Bool :=
  isSpace c || (digitValue c).isSome || c = ch '_' || c = ch '+' || c = ch '-'

lemma mem_dropWhile_or {p : CodePoint → Bool} {c : CodePoint} (hc : c ∈ s) :
    p c = true ∨ c ∈ s.dropWhile p := by
  rw [← List.takeWhile_append_dropWhile (p := p) (l := s)] at hc
  rcases List.mem_append.mp hc with h | h
  · exact Or.inl (List.mem_takeWhile_imp h)
  · exact Or.inr h

lemma mem_strip_or {c : CodePoint} (hc : c ∈ s) : isSpace c = true ∨ c ∈ strip s := by
  rcases mem_dropWhile_or (p := isSpace) hc with h | h
  · exact Or.inl h
  · rcases mem_dropWhile_or (p := isSpace) (List.mem_reverse.mpr h) with h | h
    · exact Or.inl h
    · exact Or.inr (List.mem_reverse.mpr h)

lemma digitRun_chars {ds : List ℕ} (h : digitRun s = some ds) :
    ∀ c ∈ s, (digitValue c).isSome ∨ c = ch '_' := by
  induction s using digitRun.induct generalizing ds with
  | case1 => simp
  | case2 c =>
    intro d hd
    rw [List.mem_singleton.mp hd]
    exact Or.inl (by simpa [digitRun] using congrArg Option.isSome h)
  | case3 c d s hv => simp [digitRun, hv] at h
  | case4 c s v hv ih =>
    simp only [digitRun, hv, if_true, Option.map_eq_some_iff] at h
    obtain ⟨es, hes, _⟩ := h
    rintro e (_ | ⟨_, _ | ⟨_, he⟩⟩)
    · exact Or.inl (by simp [hv])
    · exact Or.inr rfl
    · exact ih hes e he
  | case5 c d s v hv hd ih =>
    simp only [digitRun, hv, if_neg hd, Option.map_eq_some_iff] at h
    obtain ⟨es, hes, _⟩ := h
    rintro e (_ | ⟨_, he⟩)
    · exact Or.inl (by simp [hv])
    · exact ih hes e he

lemma mem_signed_or {c : CodePoint} (hc : c ∈ s) :
    (c = ch '-' ∨ c = ch '+') ∨ c ∈ (signed s).2 := by
  cases s with
  | nil => exact absurd hc (List.not_mem_nil)
  | cons d s =>
    simp only [signed]
    split_ifs with hm hp
    · rcases List.mem_cons.mp hc with rfl | h
      · exact Or.inl (Or.inl hm)
      · exact Or.inr h
    · rcases List.mem_cons.mp hc with rfl | h
      · exact Or.inl (Or.inr hp)
      · exact Or.inr h
    · exact Or.inr hc

theorem pyInt_chars {n : ℤ} (h : pyInt s = .ok n) : ∀ c ∈ s, isIntChar c = true := by
  intro c hc
  cases hrun : digitRun (signed (strip s)).2 with
  | none => simp [pyInt, hrun] at h
  | some ds =>
    simp only [isIntChar, Bool.or_eq_true, decide_eq_true_eq]
    rcases mem_strip_or hc with hs | hs
    · simp [hs]
    · rcases mem_signed_or hs with (hm | hp) | hd
      · simp [hm]
      · simp [hp]
      · rcases digitRun_chars hrun c hd with hv | hu
        · simp [hv]
        · simp [hu]

lemma digitValue_surrogate {c : CodePoint} (hc : isSurrogate c = true) : digitValue c = none := by
  have hz : ∀ z ∈ digitZeros, z + 10 ≤ 0xD800 ∨ 0xE000 ≤ z := by decide
  simp only [isSurrogate, Bool.and_eq_true, decide_eq_true_eq] at hc
  simp only [digitValue, Option.map_eq_none_iff, List.find?_eq_none, Bool.and_eq_true,
    decide_eq_true_eq, not_and, not_lt]
  intro z hmem _
  have := hz z hmem
  omega

lemma encodable_of_pyInt {n : ℤ} (h : pyInt s = .ok n) : encodable s = true := by
  refine encodable_iff.mpr fun c hc => ?_
  by_contra hs
  rw [Bool.not_eq_false] at hs
  have hi := pyInt_chars h c hc
  simp only [isIntChar, digitValue_surrogate hs, Option.isSome_none, Bool.or_false,
    Bool.or_eq_true, decide_eq_true_eq] at hi
  simp only [isSurrogate, isSpace, Bool.and_eq_true, Bool.or_eq_true, decide_eq_true_eq] at hs hi
  rcases hi with ((hi | rfl) | rfl) | rfl
  · omega
  all_goals simp [ch] at hs

lemma slash_notMem_of_pyInt {n : ℤ} (h : pyInt s = .ok n) : ch '/' ∉ s :=
  fun hc => absurd (pyInt_chars h _ hc) (by decide)

end IntChars
end GemmaWorker.Python
