import GemmaWorker.Python.Json

/-! `json.loads` reads back what `json.dumps` writes. -/

namespace GemmaWorker.Python

section Heads

lemma skipWs_cons {c : CodePoint} (hc : isJsonSpace c = false) (s : PyStr) :
    skipWs (c :: s) = c :: s := by
  simp [skipWs, hc]

def IsBlank (w : PyStr) : Prop :=
  w.all isJsonSpace

lemma skipWs_blank {w : PyStr} (hw : IsBlank w) (s : PyStr) : skipWs (w ++ s) = skipWs s :=
  List.dropWhile_append_of_pos (List.all_eq_true.mp hw)

def StartsValue (s : PyStr) : Prop :=
  ∃ c t, s = c :: t ∧ isJsonSpace c = false ∧ c.val < 128 ∧ c ≠ ch ']' ∧ c ≠ ch '}'

lemma startsValue_cons {c : CodePoint}
    (hc : isJsonSpace c = false ∧ c.val < 128 ∧ c ≠ ch ']' ∧ c ≠ ch '}') (t : PyStr) :
    StartsValue (c :: t) :=
  ⟨c, t, rfl, hc⟩

lemma startsValue_digit (d : ℕ) (t : PyStr) : StartsValue (digit d :: t) := by
  have hr := digit_range d
  have hspace : isJsonSpace (digit d) = false := by
    simp [isJsonSpace, digit_ne d (c := ch ' ') (by decide), digit_ne d (c := ch '\t') (by decide),
      digit_ne d (c := ch '\n') (by decide), digit_ne d (c := ch '\r') (by decide)]
  exact startsValue_cons ⟨hspace, by omega, digit_ne d (by decide), digit_ne d (by decide)⟩ t

lemma startsValue_append {s : PyStr} (h : StartsValue s) (t : PyStr) : StartsValue (s ++ t) := by
  obtain ⟨c, u, rfl, hc⟩ := h
  exact ⟨c, u ++ t, rfl, hc⟩

lemma startsValue_quote (s : PyStr) : StartsValue (quote s) :=
  startsValue_cons (by decide) _

lemma startsValue_minus (t : PyStr) : StartsValue (ch '-' :: t) :=
  startsValue_cons (by decide) t

def StartsNumber (s : PyStr) : Prop :=
  ∃ d t, s = digit d :: t ∨ s = ch '-' :: digit d :: t

lemma StartsNumber.startsValue {s : PyStr} (h : StartsNumber s) : StartsValue s := by
  obtain ⟨d, t, rfl | rfl⟩ := h
  · exact startsValue_digit d t
  · exact startsValue_minus _

lemma number_intText (n : ℤ) : StartsNumber (intText n) := by
  obtain ⟨d, t, ht⟩ := natText_head n.natAbs
  rw [intText, ht]
  split_ifs
  · exact ⟨d, t, Or.inr rfl⟩
  · exact ⟨d, t, Or.inl rfl⟩

lemma number_text (x : Decimal) : StartsNumber x.text := by
  obtain ⟨d, t, ht⟩ := natText_head (x.mant.natAbs / 10 ^ x.places)
  rw [Decimal.text, ht]
  split_ifs
  · exact ⟨d, _, Or.inr rfl⟩
  · exact ⟨d, _, Or.inl rfl⟩

lemma number_repr (x : Decimal) : StartsNumber x.repr := by
  obtain h | ⟨hx, h⟩ := repr_cases x
  · exact h ▸ number_text x
  · obtain ⟨d, ds, _, hdigits, _⟩ := significant_cons hx
    rw [h, Decimal.scientific, hdigits]
    split_ifs
    · exact ⟨d, _, Or.inr rfl⟩
    · exact ⟨d, _, Or.inl rfl⟩

lemma startsValue_text (w : PyStr) (v : Value) : StartsValue (v.text w) := by
  cases v with
  | none =>
    rw [Value.text]
    exact startsValue_cons (by decide) (lit "ull")
  | bool b =>
    cases b with
    | true =>
      rw [Value.text]
      exact startsValue_cons (by decide) (lit "rue")
    | false =>
      rw [Value.text]
      exact startsValue_cons (by decide) (lit "alse")
  | int n =>
    rw [Value.text]
    exact (number_intText n).startsValue
  | float x =>
    cases x with
    | finite d =>
      rw [Value.text]
      exact (number_repr d).startsValue
    | inf neg =>
      cases neg with
      | true =>
        rw [Value.text]
        exact startsValue_minus (lit "Infinity")
      | false =>
        rw [Value.text]
        exact startsValue_cons (by decide) (lit "nfinity")
    | nan =>
      rw [Value.text]
      exact startsValue_cons (by decide) (lit "aN")
  | str s =>
    rw [Value.text]
    exact startsValue_quote s
  | list xs =>
    rw [Value.text]
    exact startsValue_cons (by decide) _
  | tuple xs =>
    rw [Value.text]
    exact startsValue_cons (by decide) _
  | dict items =>
    rw [Value.text]
    exact startsValue_cons (by decide) _

end Heads

section Characters

def isPrintable (c : CodePoint) : Bool :=
  0x20 ≤ c.val && c.val ≤ 0x7E

def printable (s : PyStr) : Bool :=
  s.all isPrintable

lemma printable_append {s t : PyStr} :
    printable (s ++ t) = true ↔ printable s = true ∧ printable t = true := by
  simp [printable]

lemma printable_cons {c : CodePoint} {s : PyStr} :
    printable (c :: s) = true ↔ isPrintable c = true ∧ printable s = true := by
  simp [printable]

lemma printable_digits (ds : List ℕ) : printable (ds.map digit) = true := by
  refine List.all_eq_true.mpr fun c hc => ?_
  obtain ⟨d, -, rfl⟩ := List.mem_map.mp hc
  have hrange := digit_range d
  simp only [isPrintable, Bool.and_eq_true, decide_eq_true_eq]
  omega

lemma printable_intText (n : ℤ) : printable (intText n) = true := by
  rw [intText]
  split_ifs
  · exact printable_cons.mpr ⟨by decide, printable_digits _⟩
  · exact printable_digits _

lemma printable_text (d : Decimal) : printable d.text = true := by
  have hdot : isPrintable (ch '.') = true := by decide
  have hsign : printable (if d.mant < 0 then [ch '-'] else []) = true := by split_ifs <;> decide
  rw [text_eq, printable_append, printable_append, printable_cons]
  exact ⟨hsign, printable_digits _, hdot, printable_digits _⟩

lemma printable_scientific (d : Decimal) : printable d.scientific = true := by
  have hsign : printable (if d.mant < 0 then [ch '-'] else []) = true := by split_ifs <;> decide
  have hfraction (ds : List ℕ) : printable (fractionText ds) = true := by
    cases ds with
    | nil => rfl
    | cons x xs => exact printable_cons.mpr ⟨by decide, printable_digits _⟩
  have hexponent (e : ℤ) : printable (exponentText e) = true := by
    rw [exponentText, printable_cons, printable_cons]
    exact ⟨by decide, by split_ifs <;> decide, printable_digits _⟩
  rw [Decimal.scientific, printable_append, printable_append, printable_append]
  exact ⟨hsign, printable_digits _, hfraction _, hexponent _⟩

lemma printable_repr (d : Decimal) : printable d.repr = true := by
  obtain h | ⟨_, h⟩ := repr_cases d
  · exact h ▸ printable_text d
  · exact h ▸ printable_scientific d

lemma printable_hexText (k n : ℕ) : printable (hexText k n) = true := by
  have hdigit (d : ℕ) : isPrintable (hexDigit d) = true := by
    rw [hexDigit]
    simp only [isPrintable, Bool.and_eq_true, decide_eq_true_eq]
    split_ifs <;> simp only <;> omega
  induction k with
  | zero => rfl
  | succ k ih => exact printable_cons.mpr ⟨hdigit _, ih⟩

lemma printable_escapeUnicode (n : ℕ) : printable (escapeUnicode n) = true := by
  rw [escapeUnicode, printable_cons, printable_cons]
  exact ⟨by decide, by decide, printable_hexText 4 n⟩

lemma printable_escapeChar (c : CodePoint) : printable (escapeChar c) = true := by
  rw [escapeChar]
  split_ifs with h1 h2 h3 h4 h5 h6 h7 h8 h9
  any_goals decide
  · simp [printable, isPrintable, h8]
  · exact printable_escapeUnicode _
  · exact printable_append.mpr ⟨printable_escapeUnicode _, printable_escapeUnicode _⟩

lemma printable_quote (s : PyStr) : printable (quote s) = true := by
  have hbody : printable (s.flatMap escapeChar) = true := by
    refine List.all_eq_true.mpr fun c hc => ?_
    obtain ⟨d, -, hd⟩ := List.mem_flatMap.mp hc
    exact List.all_eq_true.mp (printable_escapeChar d) c hd
  rw [quote, printable_cons, printable_append]
  exact ⟨by decide, hbody, by decide⟩

variable {w s t : PyStr} {c : CodePoint}

/-- The text is printable ASCII up to what stands in the separators. -/
def Printed (w s : PyStr) : Prop :=
  ∀ c ∈ s, isPrintable c = true ∨ c ∈ w

lemma Printed.of_printable (h : printable s = true) : Printed w s :=
  fun c hc => Or.inl (List.all_eq_true.mp h c hc)

lemma Printed.self : Printed w w :=
  fun _ => Or.inr

lemma Printed.append (hs : Printed w s) (ht : Printed w t) : Printed w (s ++ t) := by
  intro c hc
  rcases List.mem_append.mp hc with hc | hc
  · exact hs c hc
  · exact ht c hc

lemma Printed.cons (hc : isPrintable c = true) (hs : Printed w s) : Printed w (c :: s) := by
  intro d hd
  rcases List.mem_cons.mp hd with rfl | hd
  · exact Or.inl hc
  · exact hs d hd

mutual

theorem printed_text (w : PyStr) : ∀ v : Value, Printed w (v.text w)
  | .none => by
    rw [Value.text]
    exact .of_printable (by decide)
  | .bool true => by
    rw [Value.text]
    exact .of_printable (by decide)
  | .bool false => by
    rw [Value.text]
    exact .of_printable (by decide)
  | .int n => by
    rw [Value.text]
    exact .of_printable (printable_intText n)
  | .float (.finite d) => by
    rw [Value.text]
    exact .of_printable (printable_repr d)
  | .float (.inf false) => by
    rw [Value.text]
    exact .of_printable (by decide)
  | .float (.inf true) => by
    rw [Value.text]
    exact .of_printable (by decide)
  | .float .nan => by
    rw [Value.text]
    exact .of_printable (by decide)
  | .str s => by
    rw [Value.text]
    exact .of_printable (printable_quote s)
  | .list xs => by
    rw [Value.text]
    exact ((printed_elems w xs).append (Printed.of_printable (by decide))).cons (by decide)
  | .tuple xs => by
    rw [Value.text]
    exact ((printed_elems w xs).append (Printed.of_printable (by decide))).cons (by decide)
  | .dict items => by
    rw [Value.text]
    exact ((printed_members w items).append (Printed.of_printable (by decide))).cons (by decide)

theorem printed_elems (w : PyStr) : ∀ xs : List Value, Printed w (elemsText w xs)
  | [] => by
    rw [elemsText]
    exact .of_printable rfl
  | x :: xs => by
    rw [elemsText]
    refine (printed_text w x).append ?_
    split_ifs
    · exact .of_printable rfl
    · exact (Printed.self.append (printed_elems w xs)).cons (by decide)

theorem printed_members (w : PyStr) : ∀ items : List (PyStr × Value), Printed w (membersText w items)
  | [] => by
    rw [membersText]
    exact .of_printable rfl
  | (k, v) :: items => by
    have hvalue := (Printed.self.append (printed_text w v)).cons (c := ch ':') (by decide)
    rw [membersText]
    refine ((Printed.of_printable (printable_quote k)).append hvalue).append ?_
    split_ifs
    · exact .of_printable rfl
    · exact (Printed.self.append (printed_members w items)).cons (by decide)

end

end Characters

section Atoms

variable {left n : ℕ} {rest : PyStr}

def Follows (rest : PyStr) : Prop :=
  ∀ c ∈ rest.head?, c = ch ',' ∨ c = ch ']' ∨ c = ch '}'

lemma Follows.endsNumber (h : Follows rest) : EndsNumber rest := by
  intro c hc
  rcases h c hc with rfl | rfl | rfl <;> decide

lemma find_literal_digit (d : ℕ) (s : PyStr) :
    literals.find? (fun l => l.1.isPrefixOf (digit d :: s)) = none := by
  have hne : ∀ c : CodePoint, c.val < 48 ∨ 57 < c.val → (c == digit d) = false := by
    intro c hc
    simpa using (digit_ne d hc).symm
  simp [literals, lit, List.isPrefixOf, hne (ch 'n') (by decide), hne (ch 't') (by decide),
    hne (ch 'f') (by decide), hne (ch 'N') (by decide), hne (ch 'I') (by decide),
    hne (ch '-') (by decide)]

lemma find_literal_minus (d : ℕ) (s : PyStr) :
    literals.find? (fun l => l.1.isPrefixOf (ch '-' :: digit d :: s)) = none := by
  have hne : (ch 'I' == digit d) = false := by simpa using (digit_ne d (by decide)).symm
  simp [literals, lit, List.isPrefixOf, hne]

lemma find_literal_number {s : PyStr} (hs : StartsNumber s) :
    literals.find? (fun l => l.1.isPrefixOf (s ++ rest)) = none := by
  obtain ⟨d, t, rfl | rfl⟩ := hs
  · exact find_literal_digit d _
  · exact find_literal_minus d _

variable [Interpreter]

lemma scanAtom_number {s : PyStr} (hs : StartsNumber s) : scanAtom (s ++ rest) = scanNumber (s ++ rest) := by
  rw [scanAtom, find_literal_number hs]

lemma scanAtom_literal : scanAtom (lit "null" ++ rest) = .ok (.none, rest) ∧
    scanAtom (lit "true" ++ rest) = .ok (.bool true, rest) ∧
    scanAtom (lit "false" ++ rest) = .ok (.bool false, rest) := by
  refine ⟨?_, ?_, ?_⟩ <;> simp [scanAtom, literals, lit, List.isPrefixOf]

lemma parseValue_atom {c : CodePoint} {t : PyStr} (hc : c ≠ ch '"' ∧ c ≠ ch '[' ∧ c ≠ ch '{') :
    parseValue left (n + 1) (c :: t) = scanAtom (c :: t) := by
  simp [parseValue, hc]

lemma parseValue_number {s : PyStr} (hs : StartsNumber s) :
    parseValue left (n + 1) (s ++ rest) = scanNumber (s ++ rest) := by
  rw [← scanAtom_number hs]
  obtain ⟨d, t, rfl | rfl⟩ := hs
  · exact parseValue_atom ⟨digit_ne d (by decide), digit_ne d (by decide), digit_ne d (by decide)⟩
  · exact parseValue_atom (by decide)

end Atoms

section Containers

variable {left n : ℕ} {rest w : PyStr}

lemma head_skipWs {s : PyStr} (h : StartsValue s) (t : PyStr) :
    skipWs (s ++ t) = s ++ t ∧ (s ++ t).head? ≠ some (ch ']') ∧ (s ++ t).head? ≠ some (ch '}') := by
  obtain ⟨c, u, rfl, hs, _, hb, hc⟩ := h
  exact ⟨skipWs_cons hs _, by simpa using hb, by simpa using hc⟩

lemma startsValue_elems (w : PyStr) {xs : List Value} (h : xs ≠ []) : StartsValue (elemsText w xs) := by
  obtain ⟨x, xs, rfl⟩ := List.exists_cons_of_ne_nil h
  rw [elemsText]
  exact startsValue_append (startsValue_text w x) _

lemma startsValue_members (w : PyStr) {items : List (PyStr × Value)} (h : items ≠ []) :
    StartsValue (membersText w items) := by
  obtain ⟨⟨k, v⟩, items, rfl⟩ := List.exists_cons_of_ne_nil h
  rw [membersText, List.append_assoc]
  exact startsValue_append (startsValue_quote k) _

lemma follows_cons {c : CodePoint} (hc : c = ch ',' ∨ c = ch ']' ∨ c = ch '}') (s : PyStr) :
    Follows (c :: s) := by
  intro d hd
  obtain rfl := Option.some.inj hd
  exact hc

lemma length_le_membersText (w : PyStr) (items : List (PyStr × Value)) :
    items.length ≤ (membersText w items).length := by
  induction items with
  | nil => exact Nat.zero_le _
  | cons kv items ih =>
    obtain ⟨k, v⟩ := kv
    rw [membersText, quote]
    simp only [List.length_cons, List.length_append]
    by_cases h : items = []
    · subst h
      simp only [List.length_nil]
      omega
    · rw [if_neg (by simpa using h)]
      simp only [List.length_cons, List.length_append]
      omega

variable [Interpreter]

lemma parseValue_str {s : PyStr} (hs : joinless s = true) :
    parseValue left (n + 1) (quote s ++ rest) = .ok (.str s, rest) := by
  obtain ⟨us, hscan, hjoin⟩ := scan_quoted hs rest
  simp [parseValue, quote, hscan, hjoin, Except.map]

lemma parseValue_list {xs : List Value} (hleft : 0 < left) (helems : xs ≠ [] →
    parseElems (left - 1) n (elemsText w xs ++ ch ']' :: rest) = .ok (xs, rest)) :
    parseValue left (n + 1) (ch '[' :: (elemsText w xs ++ [ch ']']) ++ rest) = .ok (.list xs, rest) := by
  have hb : isJsonSpace (ch ']') = false := by decide
  by_cases hx : xs = []
  · simp [hx, elemsText, parseValue, skipWs_cons hb, hleft.ne']
  · obtain ⟨hskip, hhead, _⟩ := head_skipWs (startsValue_elems w hx) (ch ']' :: rest)
    simp only [parseValue, List.cons_append, List.append_assoc, List.nil_append, List.head?_cons,
      List.tail_cons, Option.some.injEq, ch_inj, Char.reduceEq, if_false, if_true, hleft.ne', hskip, hhead,
      helems hx, Except.map]

lemma parseValue_dict {items : List (PyStr × Value)} (hleft : 0 < left) (hkeys : (items.map Prod.fst).Nodup)
    (hmembers : items ≠ [] →
      parseMembers (left - 1) n (membersText w items ++ ch '}' :: rest) = .ok (items, rest)) :
    parseValue left (n + 1) (ch '{' :: (membersText w items ++ [ch '}']) ++ rest) =
      .ok (.dict items, rest) := by
  have hb : isJsonSpace (ch '}') = false := by decide
  by_cases hx : items = []
  · simp [hx, membersText, parseValue, skipWs_cons hb, hleft.ne']
  · obtain ⟨hskip, _, hhead⟩ := head_skipWs (startsValue_members w hx) (ch '}' :: rest)
    have hset : items.foldl dictSet [] = items := foldl_dictSet (by simpa using hkeys)
    simp only [parseValue, List.cons_append, List.append_assoc, List.nil_append, List.head?_cons,
      List.tail_cons, Option.some.injEq, ch_inj, Char.reduceEq, if_false, if_true, hleft.ne', hskip, hhead,
      hmembers hx, Except.map, hset]

lemma parseElems_cons (hw : IsBlank w) {x : Value} {xs : List Value}
    (hx : ∀ rest, Follows rest → parseValue left n (x.text w ++ rest) = .ok (x, rest))
    (hxs : xs ≠ [] → parseElems left n (elemsText w xs ++ ch ']' :: rest) = .ok (xs, rest)) :
    parseElems left (n + 1) (elemsText w (x :: xs) ++ ch ']' :: rest) = .ok (x :: xs, rest) := by
  have hclose : skipWs (ch ']' :: rest) = ch ']' :: rest := skipWs_cons (by decide) rest
  have hsep : ∀ s, skipWs (ch ',' :: s) = ch ',' :: s := skipWs_cons (by decide)
  cases xs with
  | nil =>
    have hv := hx (ch ']' :: rest) (follows_cons (Or.inr (Or.inl rfl)) rest)
    simp [parseElems, elemsText, hv, hclose, bind, Except.bind, pure, Except.pure]
  | cons y ys =>
    have hne : y :: ys ≠ [] := List.cons_ne_nil y ys
    have hv := hx (ch ',' :: (w ++ (elemsText w (y :: ys) ++ ch ']' :: rest))) (follows_cons (Or.inl rfl) _)
    have hskip : skipWs (w ++ (elemsText w (y :: ys) ++ ch ']' :: rest)) = _ :=
      (skipWs_blank hw _).trans (head_skipWs (startsValue_elems w hne) _).1
    have htext : elemsText w (x :: y :: ys) ++ ch ']' :: rest =
        x.text w ++ (ch ',' :: (w ++ (elemsText w (y :: ys) ++ ch ']' :: rest))) := by
      rw [elemsText, List.isEmpty_cons]
      simp
    rw [htext, parseElems, hv]
    simp [bind, Except.bind, hsep, hskip, hxs hne, Except.map]

lemma parseMembers_cons (hw : IsBlank w) {k : PyStr} {v : Value} {items : List (PyStr × Value)}
    (hk : joinless k = true)
    (hv : ∀ rest, Follows rest → parseValue left n (v.text w ++ rest) = .ok (v, rest))
    (hitems : items ≠ [] →
      parseMembers left n (membersText w items ++ ch '}' :: rest) = .ok (items, rest)) :
    parseMembers left (n + 1) (membersText w ((k, v) :: items) ++ ch '}' :: rest) =
      .ok ((k, v) :: items, rest) := by
  have hcolon : ∀ s, skipWs (ch ':' :: s) = ch ':' :: s := skipWs_cons (by decide)
  have hclose : skipWs (ch '}' :: rest) = ch '}' :: rest := skipWs_cons (by decide) rest
  have hsep : ∀ s, skipWs (ch ',' :: s) = ch ',' :: s := skipWs_cons (by decide)
  have hvalue : ∀ s, skipWs (w ++ (v.text w ++ s)) = v.text w ++ s := fun s =>
    (skipWs_blank hw _).trans (head_skipWs (startsValue_text w v) s).1
  cases items with
  | nil =>
    obtain ⟨us, hscan, hjoin⟩ := scan_quoted hk (ch ':' :: (w ++ (v.text w ++ ch '}' :: rest)))
    have hread := hv (ch '}' :: rest) (follows_cons (Or.inr (Or.inr rfl)) rest)
    have htext : membersText w [(k, v)] ++ ch '}' :: rest = ch '"' :: (k.flatMap escapeChar ++
        ch '"' :: ch ':' :: (w ++ (v.text w ++ ch '}' :: rest))) := by
      simp [membersText, quote]
    rw [htext, parseMembers]
    simp [hscan, bind, Except.bind, hcolon, hvalue, hread, hclose, hjoin, pure, Except.pure]
  | cons item items =>
    have hne : item :: items ≠ [] := List.cons_ne_nil item items
    obtain ⟨us, hscan, hjoin⟩ := scan_quoted hk (ch ':' :: (w ++ (v.text w ++
      ch ',' :: (w ++ (membersText w (item :: items) ++ ch '}' :: rest)))))
    have hread := hv (ch ',' :: (w ++ (membersText w (item :: items) ++ ch '}' :: rest)))
      (follows_cons (Or.inl rfl) _)
    have hskip : skipWs (w ++ (membersText w (item :: items) ++ ch '}' :: rest)) = _ :=
      (skipWs_blank hw _).trans (head_skipWs (startsValue_members w hne) _).1
    have htext : membersText w ((k, v) :: item :: items) ++ ch '}' :: rest = ch '"' ::
        (k.flatMap escapeChar ++ ch '"' :: ch ':' :: (w ++ (v.text w ++
          ch ',' :: (w ++ (membersText w (item :: items) ++ ch '}' :: rest))))) := by
      rw [membersText, List.isEmpty_cons]
      simp [quote]
    rw [htext, parseMembers]
    simp [hscan, bind, Except.bind, hcolon, hvalue, hread, hsep, hskip, hitems hne, hjoin, Except.map]

end Containers

section RoundTrip

variable [Interpreter] {w : PyStr}

mutual

theorem parseValue_text (hw : IsBlank w) : ∀ (v : Value) (left n : ℕ) (rest : PyStr), v.IsJson →
    v.Fits left → Follows rest → 2 * (v.text w).length + 1 ≤ n →
    parseValue left n (v.text w ++ rest) = .ok (v, rest)
  | _, _, 0, _, _, _, _, hn => by omega
  | .none, left, n + 1, rest, _, _, _, _ => by
    rw [Value.text]
    exact (parseValue_atom (by decide)).trans scanAtom_literal.1
  | .bool true, left, n + 1, rest, _, _, _, _ => by
    rw [Value.text]
    exact (parseValue_atom (by decide)).trans scanAtom_literal.2.1
  | .bool false, left, n + 1, rest, _, _, _, _ => by
    rw [Value.text]
    exact (parseValue_atom (by decide)).trans scanAtom_literal.2.2
  | .int m, left, n + 1, rest, _, hf, hr, _ => by
    rw [Value.Fits] at hf
    rw [Value.text, parseValue_number (number_intText m), scanNumber_intText m hr.endsNumber, if_pos hf]
  | .float (.finite d), left, n + 1, rest, _, hf, hr, _ => by
    rw [Value.Fits, PyFloat.Kept] at hf
    rw [Value.text, parseValue_number (number_repr d), scanNumber_repr d hr.endsNumber, hf]
  | .float (.inf _), _, _ + 1, _, hv, _, _, _ => by simp [Value.IsJson] at hv
  | .float .nan, _, _ + 1, _, hv, _, _, _ => by simp [Value.IsJson] at hv
  | .str s, left, n + 1, rest, hv, _, _, _ => by
    rw [Value.IsJson] at hv
    rw [Value.text]
    exact parseValue_str (joinless_of_encodable hv)
  | .list xs, left, n + 1, rest, hv, hf, _, hn => by
    rw [Value.IsJson] at hv
    rw [Value.Fits] at hf
    rw [Value.text] at hn ⊢
    simp only [List.length_cons, List.length_append] at hn
    exact parseValue_list hf.1 fun hne => parseElems_text hw xs _ n rest hne hv hf.2 (by omega)
  | .dict items, left, n + 1, rest, hv, hf, _, hn => by
    rw [Value.IsJson] at hv
    rw [Value.Fits] at hf
    rw [Value.text] at hn ⊢
    simp only [List.length_cons, List.length_append] at hn
    exact parseValue_dict hf.1 hv.1 fun hne => parseMembers_text hw items _ n rest hne hv.2 hf.2 (by omega)
  | .tuple _, _, _ + 1, _, hv, _, _, _ => by simp [Value.IsJson] at hv

theorem parseElems_text (hw : IsBlank w) : ∀ (xs : List Value) (left n : ℕ) (rest : PyStr), xs ≠ [] →
    AllJson xs → AllFit left xs → 2 * (elemsText w xs).length + 2 ≤ n →
    parseElems left n (elemsText w xs ++ ch ']' :: rest) = .ok (xs, rest)
  | [], _, _, _, hne, _, _, _ => absurd rfl hne
  | _ :: _, _, 0, _, _, _, _, hn => by omega
  | x :: xs, left, n + 1, rest, _, hv, hf, hn => by
    rw [AllJson] at hv
    rw [AllFit] at hf
    rw [elemsText, List.length_append] at hn
    refine parseElems_cons hw (fun r hr => parseValue_text hw x left n r hv.1 hf.1 hr (by omega)) fun hne => ?_
    refine parseElems_text hw xs left n rest hne hv.2 hf.2 ?_
    rw [if_neg (by simpa using hne)] at hn
    simp only [List.length_cons, List.length_append] at hn
    omega

theorem parseMembers_text (hw : IsBlank w) : ∀ (items : List (PyStr × Value)) (left n : ℕ)
    (rest : PyStr), items ≠ [] → AllMembersJson items → AllMembersFit left items →
    2 * (membersText w items).length + 2 ≤ n →
    parseMembers left n (membersText w items ++ ch '}' :: rest) = .ok (items, rest)
  | [], _, _, _, hne, _, _, _ => absurd rfl hne
  | _ :: _, _, 0, _, _, _, _, hn => by omega
  | (k, v) :: items, left, n + 1, rest, _, hv, hf, hn => by
    rw [AllMembersJson] at hv
    rw [AllMembersFit] at hf
    rw [membersText] at hn
    simp only [List.length_cons, List.length_append] at hn
    refine parseMembers_cons hw (joinless_of_encodable hv.1)
      (fun r hr => parseValue_text hw v left n r hv.2.1 hf.1 hr (by omega)) fun hne => ?_
    refine parseMembers_text hw items left n rest hne hv.2.2 hf.2 ?_
    rw [if_neg (by simpa using hne)] at hn
    simp only [List.length_cons, List.length_append] at hn
    omega

end

/-- A dict of texts in which lone low surrogates may stand. -/
def JoinlessMembers (items : List (PyStr × Value)) : Prop :=
  ∀ kv ∈ items, joinless kv.1 = true ∧ ∃ s, kv.2 = .str s ∧ joinless s = true

lemma parseMembers_strs (hw : IsBlank w) {items : List (PyStr × Value)} (hi : JoinlessMembers items)
    (left n : ℕ) (rest : PyStr) (hne : items ≠ []) (hn : items.length < n) :
    parseMembers left n (membersText w items ++ ch '}' :: rest) = .ok (items, rest) := by
  induction items generalizing n with
  | nil => exact absurd rfl hne
  | cons kv items ih =>
    obtain ⟨k, v⟩ := kv
    obtain ⟨hk, s, rfl, hs⟩ := hi (k, v) List.mem_cons_self
    rw [List.length_cons] at hn
    obtain ⟨m, rfl⟩ : ∃ m, n = m + 2 := ⟨n - 2, by omega⟩
    apply parseMembers_cons hw hk
    · intro r _
      rw [Value.text]
      exact parseValue_str hs
    · intro hitems
      exact ih (fun kv' h => hi kv' (List.mem_cons_of_mem _ h)) (m + 1) hitems (by omega)

lemma jsonLoads_of_parse {s : PyStr} {x : Except PyError (Value × PyStr)} (hs : StartsValue s)
    (hread : parseValue Interpreter.nesting (2 * s.length + 1) s = x) :
    jsonLoads s = x >>= fun r => if skipWs r.2 = [] then pure r.1 else .error .jsonDecodeError := by
  obtain ⟨c, t, ht, hspace, hlt, _⟩ := hs
  have hskip : skipWs s = s := ht ▸ skipWs_cons hspace t
  have hbom : s.head? ≠ some (code 0xFEFF) := by
    rw [ht]
    rintro h
    obtain rfl : c = code 0xFEFF := Option.some.inj h
    exact absurd hlt (by decide)
  rw [jsonLoads, if_neg hbom, hskip, hread]

theorem jsonLoads_text (hw : IsBlank w) {v : Value} (hv : v.IsJson) (hf : v.Readable) :
    jsonLoads (v.text w) = .ok v := by
  have hread := parseValue_text hw v _ (2 * (v.text w).length + 1) [] hv hf (by simp [Follows]) le_rfl
  rw [List.append_nil] at hread
  rw [jsonLoads_of_parse (startsValue_text w _) hread]
  rfl

theorem jsonLoads_strs (hw : IsBlank w) {items : List (PyStr × Value)} (hkeys : (items.map Prod.fst).Nodup)
    (hi : JoinlessMembers items) : jsonLoads ((Value.dict items).text w) = .ok (.dict items) := by
  have htext : (Value.dict items).text w = ch '{' :: (membersText w items ++ [ch '}']) := by rw [Value.text]
  have hlen := length_le_membersText w items
  have hread : parseValue Interpreter.nesting (2 * ((Value.dict items).text w).length + 1)
      ((Value.dict items).text w ++ []) = .ok (.dict items, []) := by
    rw [htext]
    refine parseValue_dict Interpreter.nesting_pos hkeys fun hne => parseMembers_strs hw hi _ _ [] hne ?_
    simp only [List.length_cons, List.length_append]
    omega
  rw [List.append_nil] at hread
  rw [jsonLoads_of_parse (startsValue_text w _) hread]
  rfl

lemma jsonLoads_number {s : PyStr} {x : Except PyError (Value × PyStr)} (hs : StartsNumber s)
    (hread : scanNumber s = x) :
    jsonLoads s = x >>= fun r => if skipWs r.2 = [] then pure r.1 else .error .jsonDecodeError := by
  have hparse : parseValue Interpreter.nesting (2 * s.length + 1) (s ++ []) = scanNumber (s ++ []) :=
    parseValue_number hs
  rw [List.append_nil, hread] at hparse
  exact jsonLoads_of_parse hs.startsValue hparse

theorem jsonLoads_intText (n : ℤ) :
    jsonLoads (intText n) = if FitsInt n then .ok (.int n) else .error .valueError := by
  have hscan := scanNumber_intText n (s := []) (by simp [EndsNumber])
  rw [List.append_nil] at hscan
  rw [jsonLoads_number (number_intText n) hscan]
  split_ifs <;> rfl

theorem jsonLoads_decimal (d : Decimal) : jsonLoads d.text = .ok (.float (Interpreter.nearest d)) := by
  have hscan := scanNumber_text d (s := []) (by simp [EndsNumber])
  rw [List.append_nil] at hscan
  rw [jsonLoads_number (number_text d) hscan]
  rfl

end RoundTrip

end GemmaWorker.Python
