import GemmaWorker.Python.Json

/-! What `json.loads` does on any text: more fuel changes nothing, and what it can return. -/

namespace GemmaWorker.Python

section Readers

variable {α β : Type} {P : α → Prop} {Q : β → Prop} {s t : PyStr}

/-- A reader of `s` that leaves less than `s` and returns a result with `P`. -/
def Reads (P : α → Prop) (s : PyStr) (x : Except PyError (α × PyStr)) : Prop :=
  ∀ a r, x = .ok (a, r) → r.length < s.length ∧ P a

lemma reads_error (e : PyError) : Reads P s (.error e) := by
  rintro a r h
  cases h

lemma reads_ok {a : α} {r : PyStr} (hr : r.length < s.length) (ha : P a) : Reads P s (.ok (a, r)) := by
  rintro b q h
  cases h
  exact ⟨hr, ha⟩

lemma Reads.bind {x : Except PyError (α × PyStr)} {k : α × PyStr → Except PyError (β × PyStr)}
    (hx : Reads P s x) (hk : ∀ a r, r.length < s.length → P a → Reads Q t (k (a, r))) :
    Reads Q t (x >>= k) := by
  cases x with
  | error e => exact reads_error e
  | ok ar => exact hk ar.1 ar.2 (hx ar.1 ar.2 rfl).1 (hx ar.1 ar.2 rfl).2

lemma Reads.map {x : Except PyError (α × PyStr)} (hx : Reads P s x) {f : α → β}
    (hst : s.length ≤ t.length) (hf : ∀ a, P a → Q (f a)) :
    Reads Q t (x.map (fun r => (f r.1, r.2))) := by
  cases x with
  | error e => exact reads_error e
  | ok ar =>
    have h := hx ar.1 ar.2 rfl
    exact reads_ok (by omega) (hf _ h.2)

lemma bind_congr_ok {x : Except PyError (α × PyStr)} {f g : α × PyStr → Except PyError β}
    (h : ∀ a r, x = .ok (a, r) → f (a, r) = g (a, r)) : (x >>= f) = (x >>= g) := by
  cases x with
  | error e => rfl
  | ok ar => exact h ar.1 ar.2 rfl

end Readers

section Strings

lemma reads_scanString (s : PyStr) : Reads (fun us : Units => us.length < s.length) s (scanString s) := by
  fun_induction scanString s with
  | case1 => exact reads_error _
  | case2 => exact reads_ok (by simp) (by simp)
  | case3 => exact reads_error _
  | case4 => exact reads_error _
  | case5 => exact reads_error _
  | case6 _ _ _ _ _ _ _ _ _ ih => exact ih.map (by simp; omega) (by simp; omega)
  | case7 => exact reads_error _
  | case8 => exact reads_error _
  | case9 _ _ _ _ _ _ _ ih => exact ih.map (by simp; omega) (by simp; omega)
  | case10 _ _ _ _ _ ih => exact ih.map (by simp) (by simp)

lemma joinSurrogates_length (us : Units) : (joinSurrogates us).length ≤ us.length := by
  fun_induction joinSurrogates us with
  | case1 => simp
  | case2 => simp
  | case3 u v us h ih => simp; omega
  | case4 u v us h ih => simpa using ih

end Strings

section Numbers

lemma spanDigits_length (s : PyStr) : (spanDigits s).1.length + (spanDigits s).2.length = s.length := by
  induction s with
  | nil => rfl
  | cons c s ih =>
    rw [spanDigits]
    split
    · simp
    · simp only [List.length_cons]
      omega

lemma scanInteger_length (s : PyStr) :
    (scanInteger s).1.length + (scanInteger s).2.length = s.length := by
  rw [scanInteger]
  split_ifs with h
  · obtain ⟨t, rfl⟩ := List.head?_eq_some_iff.mp h
    simp [Nat.add_comm]
  · exact spanDigits_length s

lemma scanFraction_length (s : PyStr) : (scanFraction s).2.length ≤ s.length := by
  have ht := spanDigits_length s.tail
  have hs : s.tail.length ≤ s.length := by simp
  rw [scanFraction]
  split_ifs
  · exact (by omega : (spanDigits s.tail).2.length ≤ s.length)
  · exact le_rfl

lemma signed_length (s : PyStr) : (signed s).2.length ≤ s.length := by
  unfold signed
  repeat' split
  all_goals simp

lemma scanExponent_length (s : PyStr) : (scanExponent s).2.length ≤ s.length := by
  cases s with
  | nil => exact le_rfl
  | cons c t =>
    have ht := spanDigits_length (signed t).2
    have hs := signed_length t
    rw [scanExponent]
    split_ifs
    · exact (by simp; omega : (spanDigits (signed t).2).2.length ≤ (c :: t).length)
    · exact le_rfl

lemma minus_length (s : PyStr) : (minus s).2.length ≤ s.length := by
  rw [minus]
  split_ifs <;> simp

lemma asciiDigit_lt {c : CodePoint} {d : ℕ} (h : asciiDigit c = some d) : d < 10 := by
  rw [asciiDigit] at h
  split_ifs at h with hc
  obtain rfl := Option.some.inj h
  omega

lemma spanDigits_lt (s : PyStr) : ∀ d ∈ (spanDigits s).1, d < 10 := by
  induction s with
  | nil => simp [spanDigits]
  | cons c s ih =>
    rw [spanDigits]
    split
    · simp
    · rename_i d hd
      rintro x hx
      rcases List.mem_cons.mp hx with rfl | hx
      · exact asciiDigit_lt hd
      · exact ih x hx

lemma ofDigits_lt {ds : List ℕ} (h : ∀ d ∈ ds, d < 10) : ofDigits ds < 10 ^ ds.length := by
  induction ds with
  | nil => simp [ofDigits]
  | cons d ds ih =>
    have hd := h d (by simp)
    have ht := ih fun x hx => h x (by simp [hx])
    have hsplit : ofDigits (d :: ds) = d * 10 ^ ds.length + ofDigits ds := by
      rw [← List.singleton_append, ofDigits_append]
      simp [ofDigits]
    rw [hsplit, List.length_cons, pow_succ]
    nlinarith

lemma decDigits_length {n k : ℕ} (hk : 0 < k) (hn : n < 10 ^ k) : (decDigits n).length ≤ k := by
  rw [decDigits]
  split_ifs with h
  · exact hk
  · rw [List.length_reverse]
    exact (Nat.digits_length_le_iff (by decide) n).mpr hn

lemma natAbs_applySign (neg : Bool) (n : ℕ) : (applySign neg n).natAbs = n := by
  rw [applySign]
  split_ifs <;> simp

lemma fitsInt_applySign {neg : Bool} {ds : List ℕ} (hds : ∀ d ∈ ds, d < 10)
    (hlen : ds.length ≤ intMaxStrDigits) : FitsInt (applySign neg (ofDigits ds)) := by
  have hlt := Nat.lt_of_lt_of_le (ofDigits_lt hds) (Nat.pow_le_pow_right (by decide) hlen)
  rw [FitsInt, natAbs_applySign]
  exact decDigits_length (by decide) hlt

lemma literals_pos : ∀ l ∈ literals, 0 < l.1.length := by
  simp [literals, lit]

lemma skipWs_length (s : PyStr) : (skipWs s).length ≤ s.length :=
  (List.dropWhile_suffix isJsonSpace).length_le

lemma tail_length {s : PyStr} {c : CodePoint} (h : s.head? = some c) : s.tail.length < s.length := by
  obtain ⟨t, rfl⟩ := List.head?_eq_some_iff.mp h
  simp

end Numbers

section Values

variable [Interpreter] {left : ℕ}

structure ReadFrom (left : ℕ) (s : PyStr) (v : Value) : Prop where
  fits : v.Fits left
  noTuple : ∀ xs, v ≠ .tuple xs
  shorter : ∀ t, v = .str t → t.length < s.length

lemma ReadFrom.mono {s t : PyStr} {v : Value} (h : ReadFrom left s v) (hst : s.length ≤ t.length) :
    ReadFrom left t v :=
  ⟨h.fits, h.noTuple, fun u hu => lt_of_lt_of_le (h.shorter u hu) hst⟩

lemma readFrom_int {s : PyStr} {n : ℤ} (hn : FitsInt n) : ReadFrom left s (.int n) :=
  ⟨by rwa [Value.Fits], by simp, by simp⟩

lemma readFrom_float {s : PyStr} {x : PyFloat} (hx : x.Kept) : ReadFrom left s (.float x) :=
  ⟨by rwa [Value.Fits], by simp, by simp⟩

lemma readFrom_list {s : PyStr} {xs : List Value} (hleft : left ≠ 0) (h : AllFit (left - 1) xs) :
    ReadFrom left s (.list xs) :=
  ⟨by rw [Value.Fits]; exact ⟨Nat.pos_of_ne_zero hleft, h⟩, by simp, by simp⟩

lemma readFrom_dict {s : PyStr} {items : List (PyStr × Value)} (hleft : left ≠ 0)
    (h : AllMembersFit (left - 1) items) : ReadFrom left s (.dict items) :=
  ⟨by rw [Value.Fits]; exact ⟨Nat.pos_of_ne_zero hleft, h⟩, by simp, by simp⟩

lemma allMembersFit_iff {items : List (PyStr × Value)} :
    AllMembersFit left items ↔ ∀ kv ∈ items, kv.2.Fits left := by
  induction items with
  | nil => simp [AllMembersFit]
  | cons kv items ih => simp [AllMembersFit, ih]

lemma dictSet_fit {items : List (PyStr × Value)} {kv : PyStr × Value} (hitems : AllMembersFit left items)
    (hkv : kv.2.Fits left) : AllMembersFit left (dictSet items kv) := by
  rw [allMembersFit_iff] at hitems ⊢
  rw [dictSet]
  split_ifs
  · rintro x hx
    obtain ⟨y, hy, rfl⟩ := List.mem_map.mp hx
    split_ifs
    · exact hkv
    · exact hitems y hy
  · rintro x hx
    rcases List.mem_append.mp hx with hx | hx
    · exact hitems x hx
    · exact List.mem_singleton.mp hx ▸ hkv

lemma foldl_dictSet_fit {new items : List (PyStr × Value)} (hitems : AllMembersFit left items)
    (hnew : AllMembersFit left new) : AllMembersFit left (new.foldl dictSet items) := by
  induction new generalizing items with
  | nil => exact hitems
  | cons kv new ih =>
    rw [AllMembersFit] at hnew
    exact ih (dictSet_fit hitems hnew.1) hnew.2

lemma kept_nearest (d : Decimal) : (Interpreter.nearest d).Kept := by
  rw [PyFloat.Kept.eq_def]
  split
  · rename_i e he
    exact Interpreter.nearest_repr d e he
  · trivial

lemma reads_scanNumber (s : PyStr) : Reads (ReadFrom left s) s (scanNumber s) := by
  have h1 := minus_length s
  have h2 := scanInteger_length (minus s).2
  have h3 := scanFraction_length (scanInteger (minus s).2).2
  have h4 := scanExponent_length (scanFraction (scanInteger (minus s).2).2).2
  have hlt (hne : (scanInteger (minus s).2).1 ≠ []) :
      (scanExponent (scanFraction (scanInteger (minus s).2).2).2).2.length < s.length := by
    have := List.length_pos_iff.mpr hne
    omega
  have hdigits : ∀ d ∈ (scanInteger (minus s).2).1, d < 10 := by
    rw [scanInteger]
    split_ifs
    · simp
    · exact spanDigits_lt _
  simp only [scanNumber]
  split_ifs with hint hbare hlong
  · exact reads_error _
  · exact reads_error _
  · exact reads_ok (hlt hint) (readFrom_int (fitsInt_applySign hdigits (not_lt.mp hlong)))
  · exact reads_ok (hlt hint) (readFrom_float (kept_nearest _))

lemma readFrom_literal (s : PyStr) : ∀ l ∈ literals, ReadFrom left s l.2 := by
  have hnone : ReadFrom left s .none := ⟨by rw [Value.Fits]; trivial, by simp, by simp⟩
  have hbool : ∀ b, ReadFrom left s (.bool b) := fun b => ⟨by rw [Value.Fits]; trivial, by simp, by simp⟩
  have hnan : ReadFrom left s (.float .nan) := readFrom_float trivial
  have hinf : ∀ neg, ReadFrom left s (.float (.inf neg)) := fun neg => readFrom_float trivial
  simp [literals, hnone, hbool, hnan, hinf]

lemma reads_scanAtom (s : PyStr) : Reads (ReadFrom left s) s (scanAtom s) := by
  rw [scanAtom]
  split
  · rename_i l hl
    have hmem := List.mem_of_find?_eq_some hl
    have hpre : l.1.isPrefixOf s = true := by simpa using List.find?_some hl
    have hle := (List.isPrefixOf_iff_prefix.mp hpre).length_le
    have hpos := literals_pos l hmem
    exact reads_ok (by simp; omega) (readFrom_literal s l hmem)
  · exact reads_scanNumber s

section Levels

variable {n : ℕ}

lemma reads_parseValue (helems : ∀ left s, Reads (AllFit left) s (parseElems left n s))
    (hmembers : ∀ left s, Reads (AllMembersFit left) s (parseMembers left n s)) (left : ℕ) (s : PyStr) :
    Reads (ReadFrom left s) s (parseValue left (n + 1) s) := by
  have hskip := skipWs_length s.tail
  have hend : (skipWs s.tail).tail.length ≤ (skipWs s.tail).length := by simp
  rw [parseValue]
  split_ifs with h1 h2 hleft h3 h4 hleft h5
  · have ht := tail_length h1
    refine (reads_scanString s.tail).map (f := fun us => Value.str (joinSurrogates us)) ht.le ?_
    intro us hus
    have hjoin := joinSurrogates_length us
    exact ⟨by rw [Value.Fits]; trivial, by simp, by rintro t ⟨⟩; omega⟩
  · exact reads_error _
  · have ht := tail_length h2
    exact reads_ok (by omega) (readFrom_list hleft (by rw [AllFit]; trivial))
  · have ht := tail_length h2
    exact (helems _ _).map (by omega) fun _ => readFrom_list hleft
  · exact reads_error _
  · have ht := tail_length h4
    exact reads_ok (by omega) (readFrom_dict hleft (by rw [AllMembersFit]; trivial))
  · have ht := tail_length h4
    refine (hmembers _ _).map (f := fun items => Value.dict (items.foldl dictSet []))
      (by omega) fun items hitems => ?_
    exact readFrom_dict hleft (foldl_dictSet_fit (by rw [AllMembersFit]; trivial) hitems)
  · exact reads_scanAtom s

lemma reads_parseElems (hvalue : ∀ left s, Reads (ReadFrom left s) s (parseValue left n s))
    (helems : ∀ left s, Reads (AllFit left) s (parseElems left n s)) (left : ℕ) (s : PyStr) :
    Reads (AllFit left) s (parseElems left (n + 1) s) := by
  rw [parseElems]
  refine (hvalue left s).bind fun v r hr hv => ?_
  have hskip := skipWs_length r
  simp only
  split_ifs with h1 h2
  · have ht := tail_length h1
    exact reads_ok (by omega) (by simpa [AllFit] using hv.fits)
  · have ht := tail_length h2
    have hnext := skipWs_length (skipWs r).tail
    refine (helems _ _).map (by omega) fun xs hxs => ?_
    rw [AllFit]
    exact ⟨hv.fits, hxs⟩
  · exact reads_error _

lemma reads_parseMembers (hvalue : ∀ left s, Reads (ReadFrom left s) s (parseValue left n s))
    (hmembers : ∀ left s, Reads (AllMembersFit left) s (parseMembers left n s)) (left : ℕ) (s : PyStr) :
    Reads (AllMembersFit left) s (parseMembers left (n + 1) s) := by
  rw [parseMembers]
  split_ifs with h0
  swap
  · exact reads_error _
  have hkey := tail_length h0
  refine (reads_scanString s.tail).bind fun k r hr _ => ?_
  have hskip := skipWs_length r
  simp only
  split_ifs with h1
  swap
  · exact reads_error _
  have hcolon := tail_length h1
  have hnext := skipWs_length (skipWs r).tail
  refine (hvalue _ _).bind fun v q hq hv => ?_
  have hclose := skipWs_length q
  simp only
  split_ifs with h2 h3
  · have ht := tail_length h2
    exact reads_ok (by omega) (by simpa [AllMembersFit] using hv.fits)
  · have ht := tail_length h3
    have hrest := skipWs_length (skipWs q).tail
    refine (hmembers _ _).map (by omega) fun items hitems => ?_
    rw [AllMembersFit]
    exact ⟨hv.fits, hitems⟩
  · exact reads_error _

end Levels

lemma reads_parse (n : ℕ) :
    (∀ left s, Reads (ReadFrom left s) s (parseValue left n s)) ∧
    (∀ left s, Reads (AllFit left) s (parseElems left n s)) ∧
    (∀ left s, Reads (AllMembersFit left) s (parseMembers left n s)) := by
  induction n with
  | zero =>
    refine ⟨fun left s => ?_, fun left s => ?_, fun left s => ?_⟩
    · rw [parseValue]
      exact reads_error _
    · rw [parseElems]
      exact reads_error _
    · rw [parseMembers]
      exact reads_error _
  | succ n ih =>
    obtain ⟨hvalue, helems, hmembers⟩ := ih
    exact ⟨reads_parseValue helems hmembers, reads_parseElems hvalue helems,
      reads_parseMembers hvalue hmembers⟩

end Values

section Fuel

variable [Interpreter]

/-- Each level of a text and each of its elements takes one unit of fuel, and a character at least. -/
lemma parse_fuel (n : ℕ) :
    (∀ left (s : PyStr), 2 * s.length + 1 ≤ n → parseValue left (n + 1) s = parseValue left n s) ∧
    (∀ left (s : PyStr), 2 * s.length + 2 ≤ n → parseElems left (n + 1) s = parseElems left n s) ∧
    (∀ left (s : PyStr), 2 * s.length + 2 ≤ n → parseMembers left (n + 1) s = parseMembers left n s) := by
  induction n with
  | zero => exact ⟨by simp, by simp, by simp⟩
  | succ n ih =>
    obtain ⟨hvalue, helems, hmembers⟩ := ih
    refine ⟨fun left s hs => ?_, fun left s hs => ?_, fun left s hs => ?_⟩
    · have hskip := skipWs_length s.tail
      rw [parseValue, parseValue]
      split_ifs with h1 h2 hleft h3 h4 hleft h5
      any_goals rfl
      · have ht := tail_length h2
        rw [helems _ _ (by omega)]
      · have ht := tail_length h4
        rw [hmembers _ _ (by omega)]
    · rw [parseElems, parseElems, hvalue left s (by omega)]
      refine bind_congr_ok fun v r hv => ?_
      have hr := ((reads_parse n).1 left s v r hv).1
      have hskip := skipWs_length r
      simp only
      split_ifs with h1 h2
      any_goals rfl
      have ht := tail_length h2
      have hnext := skipWs_length (skipWs r).tail
      rw [helems _ _ (by omega)]
    · rw [parseMembers, parseMembers]
      split_ifs with h0
      swap
      · rfl
      have hkey := tail_length h0
      refine bind_congr_ok fun k r hk => ?_
      have hr := (reads_scanString s.tail k r hk).1
      have hskip := skipWs_length r
      simp only
      split_ifs with h1
      swap
      · rfl
      have hcolon := tail_length h1
      have hnext := skipWs_length (skipWs r).tail
      rw [hvalue _ _ (by omega)]
      refine bind_congr_ok fun v q hv => ?_
      have hq := ((reads_parse n).1 left _ v q hv).1
      have hclose := skipWs_length q
      simp only
      split_ifs with h2 h3
      any_goals rfl
      have ht := tail_length h3
      have hrest := skipWs_length (skipWs q).tail
      rw [hmembers _ _ (by omega)]

/-- So a `RecursionError` of `json.loads` always comes from the nesting. -/
theorem jsonLoads_fuel (s : PyStr) {n : ℕ} (hn : 2 * s.length + 1 ≤ n) :
    parseValue Interpreter.nesting n (skipWs s) =
    parseValue Interpreter.nesting (2 * s.length + 1) (skipWs s) := by
  have hskip := skipWs_length s
  induction n, hn using Nat.le_induction with
  | base => rfl
  | succ n hn ih => rw [(parse_fuel n).1 _ _ (by omega), ih]

end Fuel

section Loads

variable [Interpreter]

theorem jsonLoads_readFrom {s : PyStr} {v : Value} (h : jsonLoads s = .ok v) :
    ReadFrom Interpreter.nesting s v := by
  rw [jsonLoads] at h
  split_ifs at h
  obtain ⟨⟨w, r⟩, hr, hw⟩ := bind_eq_ok.mp h
  have hread := ((reads_parse _).1 Interpreter.nesting (skipWs s) w r hr).2
  simp only at hw
  split_ifs at hw
  cases hw
  exact hread.mono (skipWs_length s)

end Loads

end GemmaWorker.Python
