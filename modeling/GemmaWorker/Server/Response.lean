import GemmaWorker.Python.Json

/-! `JSONResponse` and the responses of `_non_stream_response`. Its handler renders the text of any
exception, and only that rendering can raise again. -/

namespace GemmaWorker.Server

open Python

section Rendering

/-- `ensure_ascii=False` escapes the quote, the backslash and the control characters only. -/
def escapeRaw (c : CodePoint) : PyStr :=
  if c.val < 0x7F then escapeChar c else [c]

def quoteRaw (s : PyStr) : PyStr :=
  ch '"' :: (s.flatMap escapeRaw ++ [ch '"'])

mutual

def rawText : Value → PyStr
  | .str s => quoteRaw s
  | .list xs => ch '[' :: (rawElems xs ++ [ch ']'])
  | .tuple xs => ch '[' :: (rawElems xs ++ [ch ']'])
  | .dict items => ch '{' :: (rawMembers items ++ [ch '}'])
  | v => v.text []

def rawElems : List Value → PyStr
  | [] => []
  | x :: xs => rawText x ++ (if xs.isEmpty then [] else ch ',' :: rawElems xs)

def rawMembers : List (PyStr × Value) → PyStr
  | [] => []
  | (k, v) :: items =>
    quoteRaw k ++ ch ':' :: rawText v ++ (if items.isEmpty then [] else ch ',' :: rawMembers items)

end

mutual

def nonFinite : Value → Bool
  | .float (.finite _) => false
  | .float _ => true
  | .list xs => anyNonFinite xs
  | .tuple xs => anyNonFinite xs
  | .dict items => anyMemberNonFinite items
  | _ => false

def anyNonFinite : List Value → Bool
  | [] => false
  | x :: xs => nonFinite x || anyNonFinite xs

def anyMemberNonFinite : List (PyStr × Value) → Bool
  | [] => false
  | (_, v) :: items => nonFinite v || anyMemberNonFinite items

end

/-- The text of the `UnicodeEncodeError` for the surrogates at position `i`. -/
def encodeErrorText (s : PyStr) (i : ℕ) : PyStr :=
  let run := (s.drop i).takeWhile isSurrogate
  let what :=
    match run with
    | [c] => lit "character '\\u" ++ hexText 4 c.val ++ lit "' in position " ++ natText i
    | _ => lit "characters in position " ++ natText i ++ ch '-' :: natText (i + run.length - 1)
  lit "'utf-8' codec can't encode " ++ what ++ lit ": surrogates not allowed"

def encodeUtf8 (s : PyStr) : Except PyStr PyStr :=
  match s.findIdx? isSurrogate with
  | none => .ok s
  | some i => .error (encodeErrorText s i)

structure Response where
  status : ℕ
  body : PyStr

def jsonResponse (status : ℕ) (content : Value) : Except PyStr Response :=
  if nonFinite content then .error (lit "Out of range float values are not JSON compliant")
  else (encodeUtf8 (rawText content)).map (Response.mk status)

end Rendering

section NonStream

/-- How `openai_engine.generate` ends: with its last batch, or with an exception that has this text. -/
inductive Outcome
  | finished (result : Option Value)
  | raised (text : PyStr)

def errorContent (text : PyStr) : Value :=
  .dict [(lit "error", .str text)]

def hasError : Value → Bool
  | .dict items => items.any (fun kv => kv.1 == lit "error")
  | _ => false

/-- A last batch that is `None` counts as none. -/
def collected : Option Value → Except PyStr Response
  | none | some .none => jsonResponse 500 (errorContent (lit "No response generated"))
  | some result => jsonResponse (if hasError result then 400 else 200) result

def nonStreamResponse : Outcome → Except PyStr Response
  | .finished result =>
    match collected result with
    | .ok r => .ok r
    | .error text => jsonResponse 500 (errorContent text)
  | .raised text => jsonResponse 500 (errorContent text)

end NonStream

section Encoding

lemma encodable_of_ascii {s : PyStr} (h : isAscii s = true) : encodable s = true := by
  refine encodable_of_latin1 (List.all_eq_true.mpr fun c hc => ?_)
  have hlt : c.val < 128 := by simpa using List.all_eq_true.mp h c hc
  simp only [decide_eq_true_eq]
  omega

lemma natText_encodable (n : ℕ) : encodable (natText n) = true := by
  refine encodable_iff.mpr fun c hc => ?_
  obtain ⟨d, rfl⟩ := mem_natText hc
  have hrange := digit_range d
  simp only [isSurrogate, Bool.and_eq_false_iff, decide_eq_false_iff_not]
  omega

lemma encodeErrorText_encodable (s : PyStr) (i : ℕ) : encodable (encodeErrorText s i) = true := by
  have hhex (n : ℕ) : encodable (hexText 4 n) = true := encodable_of_ascii (hexText_ascii 4 n)
  have hdash : isSurrogate (ch '-') = false := by decide
  have hlits : encodable (lit "'utf-8' codec can't encode ") = true ∧
      encodable (lit ": surrogates not allowed") = true ∧ encodable (lit "character '\\u") = true ∧
      encodable (lit "' in position ") = true ∧ encodable (lit "characters in position ") = true := by
    decide
  obtain ⟨h1, h2, h3, h4, h5⟩ := hlits
  simp only [encodeErrorText]
  split
  · simp only [encodable_append, h1, h2, h3, h4, hhex, natText_encodable, and_self]
  · simp only [encodable_append, encodable_cons, h1, h2, h5, hdash, natText_encodable, and_self]

lemma encodeUtf8_isOk (s : PyStr) : (encodeUtf8 s).isOk = encodable s := by
  rw [encodeUtf8]
  cases h : s.findIdx? isSurrogate with
  | none => exact (encodable_iff.mpr (List.findIdx?_eq_none_iff.mp h)).symm
  | some i =>
    have hs : encodable s = false := by
      by_contra hs
      have hplain : ∀ c ∈ s, isSurrogate c = false := encodable_iff.mp (by simpa using hs)
      have hnone : s.findIdx? isSurrogate = none := List.findIdx?_eq_none_iff.mpr hplain
      rw [hnone] at h
      cases h
    exact hs.symm

lemma escapeRaw_encodable (c : CodePoint) : encodable (escapeRaw c) = !isSurrogate c := by
  rw [escapeRaw]
  split_ifs with hc
  · have hplain : isSurrogate c = false := by
      simp only [isSurrogate, Bool.and_eq_false_iff, decide_eq_false_iff_not]
      omega
    rw [hplain, escapeChar]
    split_ifs
    any_goals decide
    · simp [hplain, encodable]
    · rw [Bool.not_false, escapeUnicode, encodable_cons, encodable_cons]
      exact ⟨by decide, by decide, encodable_of_ascii (hexText_ascii 4 c.val)⟩
    · omega
  · simp [encodable]

lemma quoteRaw_encodable (s : PyStr) : encodable (quoteRaw s) = encodable s := by
  have hquote : isSurrogate (ch '"') = false := by decide
  have hbody : encodable (s.flatMap escapeRaw) = encodable s := by
    induction s with
    | nil => rfl
    | cons c s ih =>
      have happend : encodable (escapeRaw c ++ s.flatMap escapeRaw) =
          (encodable (escapeRaw c) && encodable (s.flatMap escapeRaw)) := List.all_append
      rw [List.flatMap_cons, happend, escapeRaw_encodable, ih]
      rfl
  rw [quoteRaw, Bool.eq_iff_iff, encodable_cons, encodable_append, hbody]
  simp [hquote, encodable]

lemma jsonResponse_error_isOk (status : ℕ) (text : PyStr) :
    (jsonResponse status (errorContent text)).isOk = encodable text := by
  have hkey : encodable (quoteRaw (lit "error")) = true := by
    rw [quoteRaw_encodable]
    decide
  have htext : rawText (errorContent text) =
      ch '{' :: (quoteRaw (lit "error") ++ ch ':' :: quoteRaw text ++ [ch '}']) := by
    simp [errorContent, rawText, rawMembers]
  have hraw : encodable (rawText (errorContent text)) = encodable text := by
    have hmarks : isSurrogate (ch '{') = false ∧ isSurrogate (ch ':') = false ∧ encodable [ch '}'] = true := by
      decide
    rw [htext, Bool.eq_iff_iff]
    simp only [encodable_cons, encodable_append, hkey, hmarks, quoteRaw_encodable, true_and, and_true]
  have hfinite : nonFinite (errorContent text) = false := by
    simp [errorContent, nonFinite, anyMemberNonFinite]
  rw [jsonResponse, hfinite, ← hraw, ← encodeUtf8_isOk]
  cases encodeUtf8 (rawText (errorContent text)) <;> rfl

lemma collected_error {result : Option Value} {text : PyStr} (h : collected result = .error text) :
    encodable text = true := by
  have hjson (status : ℕ) (content : Value) (h : jsonResponse status content = .error text) :
      encodable text = true := by
    rw [jsonResponse] at h
    split_ifs at h
    · rw [← Except.error.inj h]
      decide
    · rw [encodeUtf8] at h
      split at h
      · cases h
      · rw [← Except.error.inj h]
        exact encodeErrorText_encodable _ _
  rw [collected.eq_def] at h
  split at h <;> exact hjson _ _ h

/-- `_non_stream_response` raises on an exception text that UTF-8 cannot encode, and never else. -/
theorem nonStreamResponse_isOk (o : Outcome) :
    (nonStreamResponse o).isOk = match o with | .finished _ => true | .raised text => encodable text := by
  cases o with
  | finished result =>
    cases h : collected result with
    | ok r => simp [nonStreamResponse, h]; rfl
    | error text => simp only [nonStreamResponse, h, jsonResponse_error_isOk, collected_error h]
  | raised text => exact jsonResponse_error_isOk 500 text

end Encoding

end GemmaWorker.Server
