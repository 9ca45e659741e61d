import GemmaWorker.Python.JsonRoundTrip
import GemmaWorker.Python.Utf8
import GemmaWorker.Server.HandleOpenai

/-! A client reads back what the server answers: the bytes of a response decode and parse to the value
that was rendered. -/

namespace GemmaWorker.Server

open Python Heartbeat

section Strings

lemma readsBack_escapeRaw {c : CodePoint} (hc : isSurrogate c = false) : ReadsBack (escapeRaw c) c := by
  rw [escapeRaw]
  split_ifs with hlow
  · exact readsBack_escapeChar (isHigh_of_plain hc)
  · have hquote : c ≠ ch '"' := by
      rintro rfl
      exact hlow (by decide)
    have hslash : c ≠ ch '\\' := by
      rintro rfl
      exact hlow (by decide)
    exact ⟨[(c, false)], scan_plain hquote hslash (by omega), join_plain (isHigh_of_plain hc)⟩

lemma scan_quoteRaw {s : PyStr} (hs : encodable s = true) (rest : PyStr) :
    ∃ us, scanString (s.flatMap escapeRaw ++ ch '"' :: rest) = .ok (us, rest) ∧ joinSurrogates us = s := by
  induction s with
  | nil =>
    refine ⟨[], ?_, rfl⟩
    rw [List.flatMap_nil, List.nil_append, scanString.eq_def]
    simp only [if_true]
  | cons c s ih =>
    obtain ⟨hc, hs⟩ := encodable_cons.mp hs
    obtain ⟨us, hus, hjoin⟩ := ih hs
    obtain ⟨vs, hscan, hread⟩ := readsBack_escapeRaw hc
    refine ⟨vs ++ us, ?_, by rw [hread, hjoin]⟩
    rw [List.flatMap_cons, List.append_assoc, hscan, hus]
    rfl

lemma parseValue_quoteRaw [Interpreter] {s : PyStr} (hs : encodable s = true) (left n : ℕ) (rest : PyStr) :
    parseValue left (n + 1) (quoteRaw s ++ rest) = .ok (.str s, rest) := by
  obtain ⟨us, hscan, hjoin⟩ := scan_quoteRaw hs rest
  simp [parseValue, quoteRaw, hscan, hjoin, Except.map]

end Strings

section Containers

lemma startsValue_raw (v : Value) : StartsValue (rawText v) := by
  cases v with
  | str s =>
    rw [rawText, quoteRaw]
    exact startsValue_cons (by decide) _
  | list xs =>
    rw [rawText]
    exact startsValue_cons (by decide) _
  | tuple xs =>
    rw [rawText]
    exact startsValue_cons (by decide) _
  | dict items =>
    rw [rawText]
    exact startsValue_cons (by decide) _
  | _ =>
    rw [rawText]
    · exact startsValue_text [] _
    all_goals simp

lemma startsValue_rawElems {xs : List Value} (h : xs ≠ []) : StartsValue (rawElems xs) := by
  obtain ⟨x, xs, rfl⟩ := List.exists_cons_of_ne_nil h
  rw [rawElems]
  exact startsValue_append (startsValue_raw x) _

lemma startsValue_rawMembers {items : List (PyStr × Value)} (h : items ≠ []) : StartsValue (rawMembers items) := by
  obtain ⟨⟨k, v⟩, items, rfl⟩ := List.exists_cons_of_ne_nil h
  rw [rawMembers, quoteRaw, List.cons_append, List.cons_append]
  exact startsValue_cons (by decide) _

variable [Interpreter] {left n : ℕ} {rest body : PyStr}

lemma parseValue_array {xs : List Value} (hleft : 0 < left) (hnil : xs = [] → body = [])
    (helems : xs ≠ [] → StartsValue body ∧ parseElems (left - 1) n (body ++ ch ']' :: rest) = .ok (xs, rest)) :
    parseValue left (n + 1) (ch '[' :: (body ++ [ch ']']) ++ rest) = .ok (.list xs, rest) := by
  have hb : isJsonSpace (ch ']') = false := by decide
  by_cases hx : xs = []
  · simp [hnil hx, hx, parseValue, skipWs_cons hb, hleft.ne']
  · obtain ⟨hstart, hread⟩ := helems hx
    obtain ⟨hskip, hhead, -⟩ := head_skipWs hstart (ch ']' :: rest)
    simp only [parseValue, List.cons_append, List.append_assoc, List.nil_append, List.head?_cons,
      List.tail_cons, Option.some.injEq, ch_inj, Char.reduceEq, if_false, if_true, hleft.ne', hskip, hhead, hread,
      Except.map]

lemma parseValue_object {items : List (PyStr × Value)} (hleft : 0 < left) (hkeys : (items.map Prod.fst).Nodup)
    (hnil : items = [] → body = [])
    (hmembers : items ≠ [] →
      StartsValue body ∧ parseMembers (left - 1) n (body ++ ch '}' :: rest) = .ok (items, rest)) :
    parseValue left (n + 1) (ch '{' :: (body ++ [ch '}']) ++ rest) = .ok (.dict items, rest) := by
  have hb : isJsonSpace (ch '}') = false := by decide
  by_cases hx : items = []
  · simp [hnil hx, hx, parseValue, skipWs_cons hb, hleft.ne']
  · obtain ⟨hstart, hread⟩ := hmembers hx
    obtain ⟨hskip, -, hhead⟩ := head_skipWs hstart (ch '}' :: rest)
    have hset : items.foldl dictSet [] = items := foldl_dictSet (by simpa using hkeys)
    simp only [parseValue, List.cons_append, List.append_assoc, List.nil_append, List.head?_cons,
      List.tail_cons, Option.some.injEq, ch_inj, Char.reduceEq, if_false, if_true, hleft.ne', hskip, hhead, hread,
      Except.map, hset]

lemma parseElems_raw {x : Value} {xs : List Value}
    (hx : ∀ rest, Follows rest → parseValue left n (rawText x ++ rest) = .ok (x, rest))
    (hxs : xs ≠ [] → parseElems left n (rawElems xs ++ ch ']' :: rest) = .ok (xs, rest)) :
    parseElems left (n + 1) (rawElems (x :: xs) ++ ch ']' :: rest) = .ok (x :: xs, rest) := by
  have hclose : skipWs (ch ']' :: rest) = ch ']' :: rest := skipWs_cons (by decide) rest
  have hsep (s : PyStr) : skipWs (ch ',' :: s) = ch ',' :: s := skipWs_cons (by decide) s
  by_cases hne : xs = []
  · subst hne
    have hread := hx (ch ']' :: rest) (follows_cons (Or.inr (Or.inl rfl)) rest)
    simp [parseElems, rawElems, hread, hclose, bind, Except.bind, pure, Except.pure]
  · have hread := hx (ch ',' :: (rawElems xs ++ ch ']' :: rest)) (follows_cons (Or.inl rfl) _)
    have hskip := (head_skipWs (startsValue_rawElems hne) (ch ']' :: rest)).1
    have htext : rawElems (x :: xs) ++ ch ']' :: rest = rawText x ++
        ch ',' :: (rawElems xs ++ ch ']' :: rest) := by
      simp [rawElems, hne]
    rw [htext, parseElems, hread]
    simp [bind, Except.bind, hsep, hskip, hxs hne, Except.map]

lemma parseMembers_raw {k : PyStr} {v : Value} {items : List (PyStr × Value)} (hk : encodable k = true)
    (hv : ∀ rest, Follows rest → parseValue left n (rawText v ++ rest) = .ok (v, rest))
    (hitems : items ≠ [] → parseMembers left n (rawMembers items ++ ch '}' :: rest) = .ok (items, rest)) :
    parseMembers left (n + 1) (rawMembers ((k, v) :: items) ++ ch '}' :: rest) = .ok ((k, v) :: items, rest) := by
  have hcolon (s : PyStr) : skipWs (ch ':' :: s) = ch ':' :: s := skipWs_cons (by decide) s
  have hclose : skipWs (ch '}' :: rest) = ch '}' :: rest := skipWs_cons (by decide) rest
  have hsep (s : PyStr) : skipWs (ch ',' :: s) = ch ',' :: s := skipWs_cons (by decide) s
  have hvalue (s : PyStr) : skipWs (rawText v ++ s) = rawText v ++ s := (head_skipWs (startsValue_raw v) s).1
  by_cases hne : items = []
  · subst hne
    obtain ⟨us, hscan, hjoin⟩ := scan_quoteRaw hk (ch ':' :: (rawText v ++ ch '}' :: rest))
    have hread := hv (ch '}' :: rest) (follows_cons (Or.inr (Or.inr rfl)) rest)
    have htext : rawMembers [(k, v)] ++ ch '}' :: rest =
        ch '"' :: (k.flatMap escapeRaw ++ ch '"' :: ch ':' :: (rawText v ++ ch '}' :: rest)) := by
      simp [rawMembers, quoteRaw]
    rw [htext, parseMembers]
    simp [hscan, bind, Except.bind, hcolon, hvalue, hread, hclose, hjoin, pure, Except.pure]
  · obtain ⟨us, hscan, hjoin⟩ :=
      scan_quoteRaw hk (ch ':' :: (rawText v ++ ch ',' :: (rawMembers items ++ ch '}' :: rest)))
    have hread := hv (ch ',' :: (rawMembers items ++ ch '}' :: rest)) (follows_cons (Or.inl rfl) _)
    have hskip := (head_skipWs (startsValue_rawMembers hne) (ch '}' :: rest)).1
    have htext : rawMembers ((k, v) :: items) ++ ch '}' :: rest = ch '"' ::
        (k.flatMap escapeRaw ++
          ch '"' :: ch ':' :: (rawText v ++ ch ',' :: (rawMembers items ++ ch '}' :: rest))) := by
      simp [rawMembers, quoteRaw, hne]
    rw [htext, parseMembers]
    simp [hscan, bind, Except.bind, hcolon, hvalue, hread, hsep, hskip, hitems hne, hjoin, Except.map]

end Containers

section RoundTrip

variable [Interpreter]

lemma parseValue_scalar {v : Value} (hraw : rawText v = v.text []) {left n : ℕ} {rest : PyStr} (hv : v.IsJson)
    (hf : v.Fits left) (hr : Follows rest) (hn : 2 * (rawText v).length + 1 ≤ n) :
    parseValue left n (rawText v ++ rest) = .ok (v, rest) := by
  have hblank : IsBlank [] := rfl
  rw [hraw] at hn ⊢
  exact parseValue_text hblank v left n rest hv hf hr hn

mutual

theorem parseValue_raw : ∀ (v : Value) (left n : ℕ) (rest : PyStr), v.IsJson → v.Fits left → Follows rest →
    2 * (rawText v).length + 1 ≤ n → parseValue left n (rawText v ++ rest) = .ok (v, rest)
  | .none, _, _, _, hv, hf, hr, hn => parseValue_scalar (by simp [rawText]) hv hf hr hn
  | .bool _, _, _, _, hv, hf, hr, hn => parseValue_scalar (by simp [rawText]) hv hf hr hn
  | .int _, _, _, _, hv, hf, hr, hn => parseValue_scalar (by simp [rawText]) hv hf hr hn
  | .float _, _, _, _, hv, hf, hr, hn => parseValue_scalar (by simp [rawText]) hv hf hr hn
  | .tuple _, _, _, _, hv, _, _, _ => by simp [Value.IsJson] at hv
  | .str _, _, 0, _, _, _, _, hn => by omega
  | .str s, left, n + 1, rest, hv, _, _, _ => by
    rw [Value.IsJson] at hv
    rw [rawText]
    exact parseValue_quoteRaw hv left n rest
  | .list _, _, 0, _, _, _, _, hn => by omega
  | .list xs, left, n + 1, rest, hv, hf, _, hn => by
    rw [Value.IsJson] at hv
    rw [Value.Fits] at hf
    rw [rawText] at hn ⊢
    simp only [List.length_cons, List.length_append] at hn
    refine parseValue_array hf.1 (by rintro rfl; rw [rawElems]) fun hne => ⟨startsValue_rawElems hne, ?_⟩
    exact parseElems_rawElems xs _ n rest hne hv hf.2 (by omega)
  | .dict _, _, 0, _, _, _, _, hn => by omega
  | .dict items, left, n + 1, rest, hv, hf, _, hn => by
    rw [Value.IsJson] at hv
    rw [Value.Fits] at hf
    rw [rawText] at hn ⊢
    simp only [List.length_cons, List.length_append] at hn
    refine parseValue_object hf.1 hv.1 (by rintro rfl; rw [rawMembers]) fun hne =>
      ⟨startsValue_rawMembers hne, ?_⟩
    exact parseMembers_rawMembers items _ n rest hne hv.2 hf.2 (by omega)

theorem parseElems_rawElems : ∀ (xs : List Value) (left n : ℕ) (rest : PyStr), xs ≠ [] → AllJson xs →
    AllFit left xs → 2 * (rawElems xs).length + 2 ≤ n →
    parseElems left n (rawElems xs ++ ch ']' :: rest) = .ok (xs, rest)
  | [], _, _, _, hne, _, _, _ => absurd rfl hne
  | _ :: _, _, 0, _, _, _, _, hn => by omega
  | x :: xs, left, n + 1, rest, _, hv, hf, hn => by
    rw [AllJson] at hv
    rw [AllFit] at hf
    rw [rawElems, List.length_append] at hn
    refine parseElems_raw (fun r hr => parseValue_raw x left n r hv.1 hf.1 hr (by omega)) fun hne => ?_
    refine parseElems_rawElems xs left n rest hne hv.2 hf.2 ?_
    rw [if_neg (by simpa using hne)] at hn
    simp only [List.length_cons] at hn
    omega

theorem parseMembers_rawMembers : ∀ (items : List (PyStr × Value)) (left n : ℕ) (rest : PyStr), items ≠ [] →
    AllMembersJson items → AllMembersFit left items → 2 * (rawMembers items).length + 2 ≤ n →
    parseMembers left n (rawMembers items ++ ch '}' :: rest) = .ok (items, rest)
  | [], _, _, _, hne, _, _, _ => absurd rfl hne
  | _ :: _, _, 0, _, _, _, _, hn => by omega
  | (k, v) :: items, left, n + 1, rest, _, hv, hf, hn => by
    rw [AllMembersJson] at hv
    rw [AllMembersFit] at hf
    rw [rawMembers] at hn
    simp only [List.length_cons, List.length_append] at hn
    refine parseMembers_raw hv.1 (fun r hr => parseValue_raw v left n r hv.2.1 hf.1 hr (by omega)) fun hne => ?_
    refine parseMembers_rawMembers items left n rest hne hv.2.2 hf.2 ?_
    rw [if_neg (by simpa using hne)] at hn
    simp only [List.length_cons] at hn
    omega

end

theorem jsonLoads_raw {v : Value} (hv : v.IsJson) (hf : v.Readable) : jsonLoads (rawText v) = .ok v := by
  obtain ⟨c, t, ht, hs, hlt, -⟩ := startsValue_raw v
  have hread := parseValue_raw v _ (2 * (rawText v).length + 1) [] hv hf (by simp [Follows]) le_rfl
  have hskip : skipWs (rawText v) = rawText v := ht ▸ skipWs_cons hs t
  have hbom : (rawText v).head? ≠ some (code 0xFEFF) := by
    rw [ht]
    intro h
    obtain rfl : c = code 0xFEFF := Option.some.inj h
    exact absurd hlt (by decide)
  rw [List.append_nil] at hread
  rw [jsonLoads, if_neg hbom, hskip, hread]
  rfl

end RoundTrip

section Bytes

/-- UTF-8 has every character, and none is the zero that a control character is escaped to avoid. -/
def Plain (s : PyStr) : Prop :=
  ∀ c ∈ s, isSurrogate c = false ∧ c.val ≠ 0

instance (s : PyStr) : Decidable (Plain s) :=
  List.decidableBAll (fun c => isSurrogate c = false ∧ c.val ≠ 0) s

variable {s t : PyStr} {c : CodePoint}

lemma Plain.nil : Plain [] := by
  intro c hc
  cases hc

lemma Plain.append (hs : Plain s) (ht : Plain t) : Plain (s ++ t) := by
  intro c hc
  rcases List.mem_append.mp hc with hc | hc
  · exact hs c hc
  · exact ht c hc

lemma Plain.cons (hc : isSurrogate c = false ∧ c.val ≠ 0) (hs : Plain s) : Plain (c :: s) := by
  intro d hd
  rcases List.mem_cons.mp hd with rfl | hd
  · exact hc
  · exact hs d hd

lemma Plain.encodable (hs : Plain s) : encodable s = true :=
  encodable_iff.mpr fun c hc => (hs c hc).1

lemma Plain.of_printed {w : PyStr} (hw : Plain w) (hs : Printed w s) : Plain s := by
  intro c hc
  obtain hprint | hblank := hs c hc
  · simp only [isPrintable, Bool.and_eq_true, decide_eq_true_eq] at hprint
    simp only [isSurrogate, Bool.and_eq_false_iff, decide_eq_false_iff_not]
    omega
  · exact hw c hblank

lemma Plain.of_printable (hs : printable s = true) : Plain s :=
  .of_printed .nil (.of_printable (w := []) hs)

lemma plain_blank {w : PyStr} (hw : IsBlank w) : Plain w := by
  intro c hc
  have hspace := List.all_eq_true.mp hw c hc
  simp only [isJsonSpace, Bool.or_eq_true, decide_eq_true_eq] at hspace
  rcases hspace with ((rfl | rfl) | rfl) | rfl <;> decide

lemma plain_text {w : PyStr} (hw : IsBlank w) (v : Value) : Plain (v.text w) :=
  (plain_blank hw).of_printed (printed_text w v)

lemma plain_escapeRaw (hc : isSurrogate c = false) : Plain (escapeRaw c) := by
  rw [escapeRaw, escapeChar]
  split_ifs with hlow h1 h2 h3 h4 h5 h6 h7 h8 h9
  any_goals decide
  · exact Plain.nil.cons ⟨hc, by omega⟩
  · exact .of_printable (printable_escapeUnicode _)
  · omega
  · exact Plain.nil.cons ⟨hc, by omega⟩

lemma plain_quoteRaw (hs : encodable s = true) : Plain (quoteRaw s) := by
  have hbody : Plain (s.flatMap escapeRaw) := by
    intro c hc
    obtain ⟨d, hd, hc⟩ := List.mem_flatMap.mp hc
    exact plain_escapeRaw (encodable_iff.mp hs d hd) c hc
  exact (hbody.append (Plain.nil.cons (by decide))).cons (by decide)

lemma plain_scalar {v : Value} (hraw : rawText v = v.text []) : Plain (rawText v) := by
  have hblank : IsBlank [] := rfl
  exact hraw ▸ plain_text hblank v

mutual

lemma plain_rawText : ∀ v : Value, v.IsJson → Plain (rawText v)
  | .none, _ => plain_scalar (by simp [rawText])
  | .bool _, _ => plain_scalar (by simp [rawText])
  | .int _, _ => plain_scalar (by simp [rawText])
  | .float _, _ => plain_scalar (by simp [rawText])
  | .tuple _, hv => by simp [Value.IsJson] at hv
  | .str s, hv => by
    rw [Value.IsJson] at hv
    rw [rawText]
    exact plain_quoteRaw hv
  | .list xs, hv => by
    rw [Value.IsJson] at hv
    rw [rawText]
    exact ((plain_rawElems xs hv).append (by decide)).cons (by decide)
  | .dict items, hv => by
    rw [Value.IsJson] at hv
    rw [rawText]
    exact ((plain_rawMembers items hv.2).append (by decide)).cons (by decide)

lemma plain_rawElems : ∀ xs : List Value, AllJson xs → Plain (rawElems xs)
  | [], _ => by
    rw [rawElems]
    exact Plain.nil
  | x :: xs, hv => by
    rw [AllJson] at hv
    have hrest := (plain_rawElems xs hv.2).cons (c := ch ',') (by decide)
    rw [rawElems]
    refine (plain_rawText x hv.1).append ?_
    split_ifs
    · exact Plain.nil
    · exact hrest

lemma plain_rawMembers : ∀ items : List (PyStr × Value), AllMembersJson items → Plain (rawMembers items)
  | [], _ => by
    rw [rawMembers]
    exact Plain.nil
  | (k, v) :: items, hv => by
    rw [AllMembersJson] at hv
    have hmember := (plain_rawText v hv.2.1).cons (c := ch ':') (by decide)
    have hrest := (plain_rawMembers items hv.2.2).cons (c := ch ',') (by decide)
    rw [rawMembers]
    refine ((plain_quoteRaw hv.1).append hmember).append ?_
    split_ifs
    · exact Plain.nil
    · exact hrest

end

mutual

lemma finite_of_json : ∀ v : Value, v.IsJson → nonFinite v = false
  | .none, _ => by simp [nonFinite]
  | .bool _, _ => by simp [nonFinite]
  | .int _, _ => by simp [nonFinite]
  | .str _, _ => by simp [nonFinite]
  | .float (.finite _), _ => by simp [nonFinite]
  | .float (.inf _), hv => by simp [Value.IsJson] at hv
  | .float .nan, hv => by simp [Value.IsJson] at hv
  | .tuple _, hv => by simp [Value.IsJson] at hv
  | .list xs, hv => by
    rw [Value.IsJson] at hv
    rw [nonFinite, finite_elems xs hv]
  | .dict items, hv => by
    rw [Value.IsJson] at hv
    rw [nonFinite, finite_members items hv.2]

lemma finite_elems : ∀ xs : List Value, AllJson xs → anyNonFinite xs = false
  | [], _ => by rw [anyNonFinite]
  | x :: xs, hv => by
    rw [AllJson] at hv
    rw [anyNonFinite, finite_of_json x hv.1, finite_elems xs hv.2, Bool.or_false]

lemma finite_members : ∀ items : List (PyStr × Value), AllMembersJson items → anyMemberNonFinite items = false
  | [], _ => by rw [anyMemberNonFinite]
  | (_, v) :: items, hv => by
    rw [AllMembersJson] at hv
    rw [anyMemberNonFinite, finite_of_json v hv.2.1, finite_members items hv.2.2, Bool.or_false]

end

end Bytes

section Rendering

/-- How clients write a value: compactly with the characters themselves, or escaped as `json.dumps` does it,
with any blanks behind the separators. -/
inductive Rendering (v : Value) : PyBytes → Prop
  | compact : Rendering v (utf8Bytes (rawText v))
  | dumps {w : PyStr} (hw : IsBlank w) : Rendering v (utf8Bytes (v.text w))

variable [Interpreter] {v : Value}

lemma jsonLoadsBytes_plain {s : PyStr} (hstart : StartsValue s) (hplain : Plain s) :
    jsonLoadsBytes (utf8Bytes s) = jsonLoads s := by
  obtain ⟨c, t, rfl, -, hlt, -⟩ := hstart
  exact jsonLoadsBytes_utf8 hlt fun d hd => (hplain d hd).2

lemma jsonLoadsBytes_raw (hv : v.IsJson) (hf : v.Readable) :
    jsonLoadsBytes (utf8Bytes (rawText v)) = .ok v := by
  rw [jsonLoadsBytes_plain (startsValue_raw v) (plain_rawText v hv)]
  exact jsonLoads_raw hv hf

lemma jsonLoadsBytes_rendering {bytes : PyBytes} (hbytes : Rendering v bytes) (hv : v.IsJson) (hf : v.Readable) :
    jsonLoadsBytes bytes = .ok v := by
  cases hbytes with
  | compact => exact jsonLoadsBytes_raw hv hf
  | @dumps w hw =>
    rw [jsonLoadsBytes_plain (startsValue_text w v) (plain_text hw v)]
    exact jsonLoads_text hw hv hf

end Rendering

section Answers

/-- What the engine has to say without a stream, and the status that says it. -/
def Generation.answer (g : Generation) : ℕ × Value :=
  match g.raised, g.batches.getLast? with
  | some text, _ => (500, errorContent text)
  | none, none | none, some .none => (500, errorContent (lit "No response generated"))
  | none, some result => (if hasError result then 400 else 200, result)

lemma jsonResponse_json {v : Value} (hv : v.IsJson) (status : ℕ) :
    jsonResponse status v = .ok ⟨status, rawText v⟩ := by
  have hencode : encodeUtf8 (rawText v) = .ok (rawText v) := by
    rw [encodeUtf8, List.findIdx?_eq_none_iff.mpr fun c hc => (plain_rawText v hv c hc).1]
  rw [jsonResponse, finite_of_json v hv, hencode]
  rfl

lemma foldl_last (batches : List Value) (result : Option Value) :
    batches.foldl (fun _ batch => some batch) result = batches.getLast?.or result := by
  induction batches generalizing result with
  | nil => rfl
  | cons b batches ih =>
    rw [List.foldl_cons, ih, List.getLast?_cons]
    cases batches.getLast? <;> rfl

lemma answer_rendered {g : Generation} (h : g.answer.2.IsJson) :
    nonStreamResponse g.outcome = .ok ⟨g.answer.1, rawText g.answer.2⟩ := by
  have hjson := jsonResponse_json h g.answer.1
  rw [Generation.outcome, foldl_last, Option.or_none]
  rw [Generation.answer] at hjson ⊢
  cases hraised : g.raised with
  | some text => simpa [hraised, nonStreamResponse] using hjson
  | none =>
    cases hlast : g.batches.getLast? with
    | none => simp_all [nonStreamResponse, collected]
    | some result => cases result <;> simp_all [nonStreamResponse, collected]

end Answers

section Responses

variable [Interpreter]

/-- What a client makes of the bytes of a response. -/
def Response.read (r : Response) : Except PyError Value :=
  jsonLoadsBytes (utf8Bytes r.body)

variable {σ : Type} {backend : Backend σ} {route : PyStr} {now : ℕ → ℚ} {tr : LoadTracker}

lemma handleNonStream_read {job : JobInput σ} (h : (backend.generate job).answer.2.IsJson)
    (hfits : (backend.generate job).answer.2.Readable) :
    ∃ r, (handleNonStream backend now tr job).result = .ok (.json r) ∧
      (r.status, r.read) = ((backend.generate job).answer.1, .ok (backend.generate job).answer.2) := by
  refine ⟨⟨(backend.generate job).answer.1, rawText (backend.generate job).answer.2⟩, ?_, ?_⟩
  · rw [handleNonStream_result, answer_rendered h]
    rfl
  · rw [Response.read, jsonLoadsBytes_raw h hfits]

/-- The engine gets the object that the client has posted, and the client reads what the engine has to say. -/
theorem answer_round_trip {body : Body} {bytes : PyBytes} {job : JobInput σ}
    (hbytes : Rendering (.dict body) bytes) (hbody : (Value.dict body).IsJson)
    (hfits : (Value.dict body).Readable) (hstream : serverStreams body = false)
    (hjob : backend.job route body = .ok job) (hanswer : (backend.generate job).answer.2.IsJson)
    (hanswerFits : (backend.generate job).answer.2.Readable) :
    ∃ r, (handleOpenai backend route now tr true bytes).result = .ok (.json r) ∧
      (r.status, r.read) = ((backend.generate job).answer.1, .ok (backend.generate job).answer.2) := by
  have hread := jsonLoadsBytes_rendering hbytes hbody hfits
  rw [handleOpenai_object hread hjob, hstream, if_neg Bool.false_ne_true]
  exact handleNonStream_read hanswer hanswerFits

end Responses

section Witness

/-- An engine that sends back what it was asked. -/
def echoBackend : Backend (List (PyStr × Value)) where
  samplingParams := .ok
  randomUuid := lit "0"
  generate job := ⟨[job.openaiInput], none⟩

def greeting : Body :=
  [(lit "prompt", .str [code 0xE9, code 0x1F600, code 0x0A, code 0x22]), (lit "n", .int 2)]

theorem greeting_echoed : ∃ r, (handleOpenai echoBackend (lit "/v1/completions") (fun k => k) ⟨0, 0⟩ true
      (utf8Bytes (jsonDumps (.dict greeting)))).result = .ok (.json r) ∧
    (r.status, r.read) = (200, .ok (.dict greeting)) := by
  have hjson : (Value.dict greeting).IsJson := by
    simp only [greeting, Value.IsJson, AllMembersJson]
    decide
  have hfits : (Value.dict greeting).Readable :=
    ⟨Interpreter.nesting_pos, trivial, (by decide : FitsInt 2), trivial⟩
  have hjob : echoBackend.job (lit "/v1/completions") greeting = .ok _ := rfl
  exact answer_round_trip (.dumps (rfl : IsBlank (lit " "))) hjson hfits rfl hjob hjson hfits

end Witness

end GemmaWorker.Server
