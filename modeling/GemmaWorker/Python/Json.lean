import GemmaWorker.Python.Binary64
import GemmaWorker.Python.FloatRepr
import GemmaWorker.Python.Value

/-! `json.dumps` and `json.loads`. The reader takes fuel; `loads` gives it enough for any text. -/

namespace GemmaWorker.Python

section Strings

def code (n : ℕ) : CodePoint := Fin.ofNat 0x110000 n

def escapeUnicode (n : ℕ) : PyStr :=
  ch '\\' :: ch 'u' :: hexText 4 n

def escapeChar (c : CodePoint) : PyStr :=
  if c = ch '"' then [ch '\\', ch '"']
  else if c = ch '\\' then [ch '\\', ch '\\']
  else if c = ch '\n' then [ch '\\', ch 'n']
  else if c = ch '\r' then [ch '\\', ch 'r']
  else if c = ch '\t' then [ch '\\', ch 't']
  else if c.val = 12 then [ch '\\', ch 'f']
  else if c.val = 8 then [ch '\\', ch 'b']
  else if 0x20 ≤ c.val ∧ c.val ≤ 0x7E then [c]
  else if c.val < 0x10000 then escapeUnicode c.val
  else escapeUnicode (0xD800 + (c.val - 0x10000) / 0x400) ++
    escapeUnicode (0xDC00 + (c.val - 0x10000) % 0x400)

def quote (s : PyStr) : PyStr :=
  ch '"' :: (s.flatMap escapeChar ++ [ch '"'])

def simpleEscape (c : CodePoint) : Option CodePoint :=
  if c = ch '"' ∨ c = ch '\\' ∨ c = ch '/' then some c
  else if c = ch 'n' then some (ch '\n')
  else if c = ch 'r' then some (ch '\r')
  else if c = ch 't' then some (ch '\t')
  else if c = ch 'f' then some (code 12)
  else if c = ch 'b' then some (code 8)
  else none

def hex4 (w x y z : CodePoint) : Option ℕ :=
  match hexValue w, hexValue x, hexValue y, hexValue z with
  | some a, some b, some c, some d => some (((a * 16 + b) * 16 + c) * 16 + d)
  | _, _, _, _ => none

abbrev Units := List (CodePoint × Bool)

/-- The characters of a string up to its closing quote, each with the mark whether it was written as
a `\u` escape. -/
def scanString : PyStr → Except PyError (Units × PyStr)
  | [] => .error .jsonDecodeError
  | c :: s =>
    if c = ch '"' then .ok ([], s)
    else if c.val < 0x20 then .error .jsonDecodeError
    else if c = ch '\\' then
      match s with
      | [] => .error .jsonDecodeError
      | e :: s =>
        if e = ch 'u' then
          match s with
          | w :: x :: y :: z :: s =>
            match hex4 w x y z with
            | none => .error .jsonDecodeError
            | some n => (scanString s).map (fun r => ((code n, true) :: r.1, r.2))
          | _ => .error .jsonDecodeError
        else match simpleEscape e with
          | none => .error .jsonDecodeError
          | some d => (scanString s).map (fun r => ((d, false) :: r.1, r.2))
    else (scanString s).map (fun r => ((c, false) :: r.1, r.2))

def isHigh (c : CodePoint) : Bool := 0xD800 ≤ c.val && c.val ≤ 0xDBFF
def isLow (c : CodePoint) : Bool := 0xDC00 ≤ c.val && c.val ≤ 0xDFFF

/-- A high surrogate escape right before a low one stands for one character. -/
def joinSurrogates : Units → PyStr
  | [] => []
  | [u] => [u.1]
  | u :: v :: us =>
    if u.2 && v.2 && isHigh u.1 && isLow v.1 then
      code (0x10000 + (u.1.val - 0xD800) * 0x400 + (v.1.val - 0xDC00)) :: joinSurrogates us
    else u.1 :: joinSurrogates (v :: us)

lemma hex4_hexText {n : ℕ} (hn : n < 0x10000) (s : PyStr) :
    ∃ w x y z, hexText 4 n ++ s = w :: x :: y :: z :: s ∧ hex4 w x y z = some n := by
  refine ⟨_, _, _, _, rfl, ?_⟩
  simp only [hex4, hexValue_hexDigit, Option.some.injEq]
  omega

lemma scan_unicode {n : ℕ} (hn : n < 0x10000) (s : PyStr) :
    scanString (escapeUnicode n ++ s) =
      (scanString s).map (fun r => ((code n, true) :: r.1, r.2)) := by
  obtain ⟨w, x, y, z, hs, hv⟩ := hex4_hexText hn s
  have hb : ch '\\' ≠ ch '"' ∧ ¬ (ch '\\').val < 0x20 := by decide
  rw [escapeUnicode, List.cons_append, List.cons_append, hs, scanString, if_neg hb.1, if_neg hb.2,
    if_pos rfl]
  simp only [if_true, hv]

lemma scan_plain {c : CodePoint} (hq : c ≠ ch '"') (hb : c ≠ ch '\\') (hc : ¬ c.val < 0x20) (s : PyStr) :
    scanString (c :: s) = (scanString s).map (fun r => ((c, false) :: r.1, r.2)) := by
  rw [scanString.eq_def]
  simp only [hq, hc, hb, if_false]

lemma scan_simple {e d : CodePoint} (hu : e ≠ ch 'u') (he : simpleEscape e = some d) (s : PyStr) :
    scanString (ch '\\' :: e :: s) = (scanString s).map (fun r => ((d, false) :: r.1, r.2)) := by
  have hb : ch '\\' ≠ ch '"' ∧ ¬ (ch '\\').val < 0x20 := by decide
  rw [scanString.eq_def]
  simp only [hb, hu, he, if_true, if_false]

lemma join_plain {c : CodePoint} {b : Bool} (hc : isHigh c = false) (us : Units) :
    joinSurrogates ((c, b) :: us) = c :: joinSurrogates us := by
  cases us with
  | nil => rfl
  | cons u us => simp [joinSurrogates, hc]

def ReadsBack (text : PyStr) (c : CodePoint) : Prop :=
  ∃ us : Units, (∀ s, scanString (text ++ s) = (scanString s).map (fun r => (us ++ r.1, r.2))) ∧
    ∀ rest, joinSurrogates (us ++ rest) = c :: joinSurrogates rest

lemma readsBack_simple {e c : CodePoint} (h : e ≠ ch 'u' ∧ simpleEscape e = some c ∧ isHigh c = false) :
    ReadsBack [ch '\\', e] c :=
  ⟨[(c, false)], scan_simple h.1 h.2.1, join_plain h.2.2⟩

lemma code_val {n : ℕ} (hn : n < 0x110000) : (code n).val = n := Nat.mod_eq_of_lt hn

lemma isHigh_of_plain {c : CodePoint} (hc : isSurrogate c = false) : isHigh c = false := by
  simp only [isSurrogate, isHigh, Bool.and_eq_false_iff, decide_eq_false_iff_not] at hc ⊢
  omega

lemma readsBack_unicode {c : CodePoint} (hc : isHigh c = false) (hlt : c.val < 0x10000) :
    ReadsBack (escapeUnicode c.val) c := by
  have hcode : code c.val = c := Fin.ext (code_val c.isLt)
  refine ⟨[(c, true)], fun s => ?_, join_plain hc⟩
  rw [scan_unicode hlt, hcode]
  rfl

lemma readsBack_pair {c : CodePoint} (hlt : ¬ c.val < 0x10000) :
    ReadsBack (escapeUnicode (0xD800 + (c.val - 0x10000) / 0x400) ++
      escapeUnicode (0xDC00 + (c.val - 0x10000) % 0x400)) c := by
  have hc := c.isLt
  have hhi : 0xD800 + (c.val - 0x10000) / 0x400 ≤ 0xDBFF := by omega
  have hlo : 0xDC00 + (c.val - 0x10000) % 0x400 ≤ 0xDFFF := by omega
  refine ⟨[(code (0xD800 + (c.val - 0x10000) / 0x400), true),
    (code (0xDC00 + (c.val - 0x10000) % 0x400), true)], fun s => ?_, fun rest => ?_⟩
  · rw [List.append_assoc, scan_unicode (by omega), scan_unicode (by omega)]
    cases scanString s <;> rfl
  · have hh : isHigh (code (0xD800 + (c.val - 0x10000) / 0x400)) = true := by
      simp only [isHigh, code_val (show 0xD800 + (c.val - 0x10000) / 0x400 < 0x110000 by omega)]
      simpa using hhi
    have hl : isLow (code (0xDC00 + (c.val - 0x10000) % 0x400)) = true := by
      simp only [isLow, code_val (show 0xDC00 + (c.val - 0x10000) % 0x400 < 0x110000 by omega)]
      simpa using hlo
    have hjoin : code (0x10000 + ((code (0xD800 + (c.val - 0x10000) / 0x400)).val - 0xD800) * 0x400 +
        ((code (0xDC00 + (c.val - 0x10000) % 0x400)).val - 0xDC00)) = c := by
      rw [code_val (by omega), code_val (by omega)]
      exact Fin.ext ((code_val (by omega)).trans (by omega))
    simp only [List.cons_append, List.nil_append, joinSurrogates, hh, hl, Bool.and_self, if_true, hjoin]

lemma readsBack_escapeChar {c : CodePoint} (hc : isHigh c = false) :
    ReadsBack (escapeChar c) c := by
  unfold escapeChar
  split_ifs with h1 h2 h3 h4 h5 h6 h7 h8 h9
  · subst h1
    exact readsBack_simple (by decide)
  · subst h2
    exact readsBack_simple (by decide)
  · subst h3
    exact readsBack_simple (by decide)
  · subst h4
    exact readsBack_simple (by decide)
  · subst h5
    exact readsBack_simple (by decide)
  · obtain rfl : c = code 12 := Fin.ext h6
    exact readsBack_simple (by decide)
  · obtain rfl : c = code 8 := Fin.ext h7
    exact readsBack_simple (by decide)
  · exact ⟨[(c, false)], scan_plain h1 h2 (by omega), join_plain hc⟩
  · exact readsBack_unicode hc h9
  · exact readsBack_pair h9

/-- No two characters of the text join to one when it is read back. -/
def joinless (s : PyStr) : Bool :=
  s.all fun c => !isHigh c

lemma joinless_cons {c : CodePoint} {s : PyStr} :
    joinless (c :: s) = true ↔ isHigh c = false ∧ joinless s = true := by
  simp [joinless]

lemma joinless_of_encodable {s : PyStr} (hs : encodable s = true) : joinless s = true := by
  refine List.all_eq_true.mpr fun c hc => ?_
  rw [isHigh_of_plain (encodable_iff.mp hs c hc), Bool.not_false]

lemma scan_quoted {s : PyStr} (hs : joinless s = true) (rest : PyStr) :
    ∃ us, scanString (s.flatMap escapeChar ++ ch '"' :: rest) = .ok (us, rest) ∧
      joinSurrogates us = s := by
  induction s with
  | nil =>
    refine ⟨[], ?_, rfl⟩
    rw [List.flatMap_nil, List.nil_append, scanString.eq_def]
    simp only [if_true]
  | cons c s ih =>
    obtain ⟨hc, hs⟩ := joinless_cons.mp hs
    obtain ⟨us, hus, hjoin⟩ := ih hs
    obtain ⟨vs, hscan, hread⟩ := readsBack_escapeChar hc
    refine ⟨vs ++ us, ?_, by rw [hread, hjoin]⟩
    rw [List.flatMap_cons, List.append_assoc, hscan, hus]
    rfl

lemma quote_inj {s t : PyStr} (hs : encodable s = true) (ht : encodable t = true)
    (h : quote s = quote t) : s = t := by
  obtain ⟨us, hus, hjoin⟩ := scan_quoted (joinless_of_encodable hs) []
  obtain ⟨vs, hvs, hjoin'⟩ := scan_quoted (joinless_of_encodable ht) []
  have htext : s.flatMap escapeChar ++ [ch '"'] = t.flatMap escapeChar ++ [ch '"'] := (List.cons.inj h).2
  rw [htext, hvs] at hus
  obtain ⟨rfl, -⟩ := Prod.mk.inj (Except.ok.inj hus)
  exact hjoin.symm.trans hjoin'

end Strings

section Numbers

def asciiDigit (c : CodePoint) : Option ℕ :=
  if 48 ≤ c.val ∧ c.val ≤ 57 then some (c.val - 48) else none

def spanDigits : PyStr → List ℕ × PyStr
  | [] => ([], [])
  | c :: s =>
    match asciiDigit c with
    | none => ([], c :: s)
    | some d => (d :: (spanDigits s).1, (spanDigits s).2)

def scanInteger (s : PyStr) : List ℕ × PyStr :=
  if s.head? = some (ch '0') then ([0], s.tail) else spanDigits s

def scanFraction (s : PyStr) : Option (List ℕ) × PyStr :=
  if s.head? = some (ch '.') ∧ (spanDigits s.tail).1 ≠ [] then
    (some (spanDigits s.tail).1, (spanDigits s.tail).2)
  else (none, s)

def scanExponent (s : PyStr) : Option ℤ × PyStr :=
  match s with
  | [] => (none, [])
  | c :: t =>
    if isExponentMark c ∧ (spanDigits (signed t).2).1 ≠ [] then
      (some (applySign (signed t).1 (ofDigits (spanDigits (signed t).2).1)),
        (spanDigits (signed t).2).2)
    else (none, c :: t)

def minus (s : PyStr) : Bool × PyStr :=
  if s.head? = some (ch '-') then (true, s.tail) else (false, s)

def scanNumber [Interpreter] (s : PyStr) : Except PyError (Value × PyStr) :=
  let (neg, s) := minus s
  let (int, s) := scanInteger s
  let (frac, s) := scanFraction s
  let (exp, s) := scanExponent s
  if int = [] then .error .jsonDecodeError
  else if frac = none ∧ exp = none then
    if intMaxStrDigits < int.length then .error .valueError
    else .ok (.int (applySign neg (ofDigits int)), s)
  else .ok (.float (Interpreter.nearest (Decimal.ofParts neg int (frac.getD []) (exp.getD 0))), s)

def EndsNumber (s : PyStr) : Prop :=
  ∀ c ∈ s.head?, asciiDigit c = none ∧ c ≠ ch '.' ∧ isExponentMark c = false

lemma asciiDigit_digit {d : ℕ} (hd : d < 10) : asciiDigit (digit d) = some d := by
  have hv : (digit d).val = 48 + d % 10 := rfl
  simp only [asciiDigit, hv]
  rw [if_pos (by omega), Option.some.injEq]
  omega

lemma spanDigits_end {s : PyStr} (hs : ∀ c ∈ s.head?, asciiDigit c = none) :
    spanDigits s = ([], s) := by
  cases s with
  | nil => rfl
  | cons c s => simp [spanDigits, hs c rfl]

lemma spanDigits_map {ds : List ℕ} {s : PyStr} (hds : ∀ d ∈ ds, d < 10)
    (hs : ∀ c ∈ s.head?, asciiDigit c = none) : spanDigits (ds.map digit ++ s) = (ds, s) := by
  induction ds with
  | nil => exact spanDigits_end hs
  | cons d ds ih =>
    have ht := ih (fun x hx => hds x (List.mem_cons_of_mem d hx))
    simp only [List.map_cons, List.cons_append, spanDigits, asciiDigit_digit (hds d (by simp)), ht]

lemma digit_ne_zero {d : ℕ} (hd : d < 10) (hne : d ≠ 0) : digit d ≠ ch '0' := by
  intro he
  have hv : (digit d).val = 48 + d % 10 := rfl
  have h0 : (ch '0').val = 48 := rfl
  rw [he, h0] at hv
  omega

lemma scanInteger_natText (n : ℕ) {s : PyStr} (hs : ∀ c ∈ s.head?, asciiDigit c = none) :
    scanInteger (natText n ++ s) = (decDigits n, s) := by
  rcases decDigits_head (n := n) with h | ⟨d, ds, h, hd⟩
  · have h0 : digit 0 = ch '0' := rfl
    simp [scanInteger, natText, h, h0]
  · have hne := digit_ne_zero (decDigits_lt (n := n) d (by simp [h])) hd
    rw [scanInteger, if_neg (by simp [natText, h, hne])]
    exact spanDigits_map (fun _ => decDigits_lt _) hs

lemma minus_natText (n : ℕ) (s : PyStr) : minus (natText n ++ s) = (false, natText n ++ s) := by
  obtain ⟨d, t, ht⟩ := natText_head n
  simp [ht, minus, digit_ne d (c := ch '-') (by decide)]

lemma scanFraction_none {s : PyStr} (hs : EndsNumber s) : scanFraction s = (none, s) := by
  rw [scanFraction, if_neg]
  rintro ⟨hh, _⟩
  exact (hs _ hh).2.1 rfl

lemma scanExponent_none {s : PyStr} (hs : EndsNumber s) : scanExponent s = (none, s) := by
  cases s with
  | nil => rfl
  | cons c s => simp [scanExponent, (hs c rfl).2.2]

lemma scanFraction_some {ds : List ℕ} {s : PyStr} (hne : ds ≠ []) (hds : ∀ d ∈ ds, d < 10)
    (hs : EndsNumber s) : scanFraction (ch '.' :: (ds.map digit ++ s)) = (some ds, s) := by
  have ht := spanDigits_map hds fun c hc => (hs c hc).1
  simp [scanFraction, ht, hne]

lemma scanNumber_intText [Interpreter] (n : ℤ) {s : PyStr} (hs : EndsNumber s) :
    scanNumber (intText n ++ s) = if FitsInt n then .ok (.int n, s) else .error .valueError := by
  have hminus : minus (intText n ++ s) = (decide (n < 0), natText n.natAbs ++ s) := by
    rw [intText]
    split_ifs with h
    · simp [minus, h]
    · rw [minus_natText, decide_eq_false h]
  have hint := scanInteger_natText n.natAbs fun c hc => (hs c hc).1
  simp only [scanNumber, hminus, hint, scanFraction_none hs, scanExponent_none hs, decDigits_ne_nil,
    and_self, if_true, if_false, ofDigits_decDigits, applySign_natAbs]
  by_cases h : FitsInt n
  · rw [if_pos h, if_neg (not_lt.mpr h)]
  · rw [if_neg h, if_pos (not_le.mp h)]

lemma scanNumber_text [Interpreter] (d : Decimal) {s : PyStr} (hs : EndsNumber s) :
    scanNumber (d.text ++ s) = .ok (.float (Interpreter.nearest d), s) := by
  have hminus : minus (d.text ++ s) = (decide (d.mant < 0),
      natText (d.mant.natAbs / 10 ^ d.places) ++ ch '.' :: (d.fracDigits.map digit ++ s)) := by
    rw [Decimal.text, fracText_eq]
    split_ifs with h
    · simp [minus, h]
    · simpa [h] using minus_natText (d.mant.natAbs / 10 ^ d.places)
        (ch '.' :: (d.fracDigits.map digit ++ s))
  have hdot : ∀ c ∈ (ch '.' :: (d.fracDigits.map digit ++ s)).head?, asciiDigit c = none := by
    rintro c hc
    obtain rfl := Option.some.inj hc
    decide
  simp only [scanNumber, hminus, scanInteger_natText _ hdot,
    scanFraction_some (fracDigits_ne_nil d) (fracDigits_lt d) hs, scanExponent_none hs,
    decDigits_ne_nil, reduceCtorEq, false_and, if_false, Option.getD_some, Option.getD_none,
    ofParts_text]

lemma scanExponent_text (e : ℤ) {s : PyStr} (hs : EndsNumber s) :
    scanExponent (exponentText e ++ s) = (some e, s) := by
  have hspan : spanDigits ((exponentDigits e).map digit ++ s) = (exponentDigits e, s) :=
    spanDigits_map exponentDigits_lt fun c hc => (hs c hc).1
  have hsigned : signed ((if e < 0 then ch '-' else ch '+') :: ((exponentDigits e).map digit ++ s)) =
      (decide (e < 0), (exponentDigits e).map digit ++ s) := by
    split_ifs with h
    · rw [signed_minus, decide_eq_true h]
    · rw [decide_eq_false h]
      rfl
  have hmark : isExponentMark (ch 'e') = true := by decide
  rw [exponentText, List.cons_append, List.cons_append, scanExponent]
  simp only [hsigned, hspan, hmark, true_and, ofDigits_exponentDigits, applySign_natAbs, ne_eq,
    not_false_eq_true, exponentDigits_ne_nil, if_true]

lemma head_exponentText (e : ℤ) (s : PyStr) : ∀ c ∈ (exponentText e ++ s).head?, asciiDigit c = none := by
  intro c hc
  obtain rfl : ch 'e' = c := Option.some.inj hc
  decide

lemma scanFraction_text {ds : List ℕ} (hds : ∀ d ∈ ds, d < 10) (e : ℤ) (s : PyStr) :
    scanFraction (fractionText ds ++ (exponentText e ++ s)) =
      (if ds = [] then none else some ds, exponentText e ++ s) := by
  cases ds with
  | nil => rfl
  | cons d ds =>
    have hspan := spanDigits_map hds (head_exponentText e s)
    rw [fractionText, List.cons_append, scanFraction, List.tail_cons, hspan]
    · simp
    · exact List.cons_ne_nil d ds

lemma scanInteger_digit {x : ℕ} (hlt : x < 10) (hx : x ≠ 0) (ds : List ℕ) (e : ℤ) (s : PyStr) :
    scanInteger (digit x :: (fractionText ds ++ (exponentText e ++ s))) =
      ([x], fractionText ds ++ (exponentText e ++ s)) := by
  have hhead : ∀ c ∈ (fractionText ds ++ (exponentText e ++ s)).head?, asciiDigit c = none := by
    cases ds with
    | nil => exact head_exponentText e s
    | cons d ds =>
      intro c hc
      obtain rfl : ch '.' = c := Option.some.inj hc
      decide
  have hdigit : ∀ d ∈ [x], d < 10 := by simpa using hlt
  rw [scanInteger, if_neg (by simp [digit_ne_zero hlt hx])]
  exact spanDigits_map hdigit hhead

lemma scanNumber_scientific [Interpreter] {d : Decimal} (hd : d.mant ≠ 0) {s : PyStr} (hs : EndsNumber s) :
    scanNumber (d.scientific ++ s) = .ok (.float (Interpreter.nearest d), s) := by
  obtain ⟨x, xs, z, hdigits, hx, hall, hz⟩ := significant_cons hd
  have hlt : ∀ y ∈ x :: xs, y < 10 := fun y hy =>
    decDigits_lt y (hall ▸ List.mem_append_left _ hy)
  have hminus : minus (d.scientific ++ s) = (decide (d.mant < 0),
      digit x :: (fractionText xs ++ (exponentText (d.point - 1) ++ s))) := by
    rw [Decimal.scientific, hdigits]
    split_ifs with h
    · simp [minus, h]
    · simp [minus, h, digit_ne x (c := ch '-') (by decide)]
  have hparts := ofParts_scientific hall hz
  have hfrac : (if xs = [] then none else some xs).getD [] = xs := by
    split_ifs with h
    · exact h.symm
    · rfl
  simp only [scanNumber, hminus, scanInteger_digit (hlt x List.mem_cons_self) hx,
    scanFraction_text fun y hy => hlt y (List.mem_cons_of_mem x hy), scanExponent_text _ hs]
  rw [if_neg (List.cons_ne_nil x []), if_neg (by simp), Option.getD_some, hfrac, hparts]

lemma scanNumber_repr [Interpreter] (d : Decimal) {s : PyStr} (hs : EndsNumber s) :
    scanNumber (d.repr ++ s) = .ok (.float (Interpreter.nearest d), s) := by
  obtain h | ⟨hd, h⟩ := repr_cases d
  · exact h ▸ scanNumber_text d hs
  · exact h ▸ scanNumber_scientific hd hs

end Numbers

section Values

mutual

def Value.text (w : PyStr) : Value → PyStr
  | .none => lit "null"
  | .bool true => lit "true"
  | .bool false => lit "false"
  | .int n => intText n
  | .float (.finite d) => d.repr
  | .float (.inf false) => lit "Infinity"
  | .float (.inf true) => lit "-Infinity"
  | .float .nan => lit "NaN"
  | .str s => quote s
  | .list xs => ch '[' :: (elemsText w xs ++ [ch ']'])
  | .tuple xs => ch '[' :: (elemsText w xs ++ [ch ']'])
  | .dict items => ch '{' :: (membersText w items ++ [ch '}'])

def elemsText (w : PyStr) : List Value → PyStr
  | [] => []
  | x :: xs => x.text w ++ (if xs.isEmpty then [] else ch ',' :: (w ++ elemsText w xs))

def membersText (w : PyStr) : List (PyStr × Value) → PyStr
  | [] => []
  | (k, v) :: items =>
    quote k ++ ch ':' :: (w ++ v.text w) ++
      (if items.isEmpty then [] else ch ',' :: (w ++ membersText w items))

end

def jsonDumps (v : Value) : PyStr :=
  v.text (lit " ")

mutual

def Value.IsJson : Value → Prop
  | .none | .bool _ | .int _ | .float (.finite _) => True
  | .float _ | .tuple _ => False
  | .str s => encodable s
  | .list xs => AllJson xs
  | .dict items => (items.map Prod.fst).Nodup ∧ AllMembersJson items

def AllJson : List Value → Prop
  | [] => True
  | x :: xs => x.IsJson ∧ AllJson xs

def AllMembersJson : List (PyStr × Value) → Prop
  | [] => True
  | (k, v) :: items => encodable k ∧ v.IsJson ∧ AllMembersJson items

end

section Readable

variable [Interpreter]

def PyFloat.Kept : PyFloat → Prop
  | .finite d => Interpreter.nearest d = .finite d
  | _ => True

mutual

/-- The integers are no longer than `int` reads, the floats are the interpreter's, and no more than `left`
brackets stand open at a time. -/
def Value.Fits : ℕ → Value → Prop
  | _, .none | _, .bool _ | _, .str _ => True
  | _, .int n => FitsInt n
  | _, .float x => x.Kept
  | left, .list xs | left, .tuple xs => 0 < left ∧ AllFit (left - 1) xs
  | left, .dict items => 0 < left ∧ AllMembersFit (left - 1) items

def AllFit : ℕ → List Value → Prop
  | _, [] => True
  | left, x :: xs => x.Fits left ∧ AllFit left xs

def AllMembersFit : ℕ → List (PyStr × Value) → Prop
  | _, [] => True
  | left, (_, v) :: items => v.Fits left ∧ AllMembersFit left items

end

/-- `json.loads` can return the value. -/
def Value.Readable (v : Value) : Prop :=
  v.Fits Interpreter.nesting

end Readable

def isJsonSpace (c : CodePoint) : Bool :=
  c = ch ' ' || c = ch '\t' || c = ch '\n' || c = ch '\r'

def skipWs (s : PyStr) : PyStr :=
  s.dropWhile isJsonSpace

def literals : List (PyStr × Value) :=
  [(lit "null", .none), (lit "true", .bool true), (lit "false", .bool false),
    (lit "NaN", .float .nan), (lit "Infinity", .float (.inf false)),
    (lit "-Infinity", .float (.inf true))]

def scanAtom [Interpreter] (s : PyStr) : Except PyError (Value × PyStr) :=
  match literals.find? (fun l => l.1.isPrefixOf s) with
  | some l => .ok (l.2, s.drop l.1.length)
  | none => scanNumber s

variable [Interpreter]

mutual

/-- Every bracket that is opened uses up one of the levels that are `left`. -/
def parseValue : ℕ → ℕ → PyStr → Except PyError (Value × PyStr)
  | _, 0, _ => .error .recursionError
  | left, n + 1, s =>
    if s.head? = some (ch '"') then
      (scanString s.tail).map (fun r => (.str (joinSurrogates r.1), r.2))
    else if s.head? = some (ch '[') then
      if left = 0 then .error .recursionError
      else if (skipWs s.tail).head? = some (ch ']') then .ok (.list [], (skipWs s.tail).tail)
      else (parseElems (left - 1) n (skipWs s.tail)).map (fun r => (.list r.1, r.2))
    else if s.head? = some (ch '{') then
      if left = 0 then .error .recursionError
      else if (skipWs s.tail).head? = some (ch '}') then .ok (.dict [], (skipWs s.tail).tail)
      else (parseMembers (left - 1) n (skipWs s.tail)).map (fun r => (.dict (r.1.foldl dictSet []), r.2))
    else scanAtom s

def parseElems : ℕ → ℕ → PyStr → Except PyError (List Value × PyStr)
  | _, 0, _ => .error .recursionError
  | left, n + 1, s => do
    let (v, s) ← parseValue left n s
    let s := skipWs s
    if s.head? = some (ch ']') then pure ([v], s.tail)
    else if s.head? = some (ch ',') then
      (parseElems left n (skipWs s.tail)).map (fun r => (v :: r.1, r.2))
    else .error .jsonDecodeError

def parseMembers : ℕ → ℕ → PyStr → Except PyError (List (PyStr × Value) × PyStr)
  | _, 0, _ => .error .recursionError
  | left, n + 1, s =>
    if s.head? = some (ch '"') then do
      let (k, s) ← scanString s.tail
      let s := skipWs s
      if s.head? = some (ch ':') then do
        let (v, s) ← parseValue left n (skipWs s.tail)
        let s := skipWs s
        if s.head? = some (ch '}') then pure ([(joinSurrogates k, v)], s.tail)
        else if s.head? = some (ch ',') then
          (parseMembers left n (skipWs s.tail)).map (fun r => ((joinSurrogates k, v) :: r.1, r.2))
        else .error .jsonDecodeError
      else .error .jsonDecodeError
    else .error .jsonDecodeError

end

/-- `json.loads(s)`; a text that starts with a byte order mark is refused. -/
def jsonLoads (s : PyStr) : Except PyError Value :=
  if s.head? = some (code 0xFEFF) then .error .jsonDecodeError
  else do
    let (v, r) ← parseValue Interpreter.nesting (2 * s.length + 1) (skipWs s)
    if skipWs r = [] then pure v else .error .jsonDecodeError

end Values

end GemmaWorker.Python
