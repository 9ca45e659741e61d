import GemmaWorker.Server.Requests

/-! The body of `_stream_response` and the events that a client reads from it. -/

namespace GemmaWorker.Server

open Python

section Body

def streamResponse : List EngineEvent → List PyStr
  | [] => []
  | e :: events => (chunks e).1 ++ if (chunks e).2 then [] else streamResponse events

def streamBody (events : List EngineEvent) : PyStr :=
  (streamResponse events).flatten

lemma streamBody_batches {batches : List Value} (h : ∀ b ∈ batches, hasError b = false) :
    streamBody (batches.map .batch ++ [.exhausted]) =
      batches.flatMap (fun b => (batchChunks b).flatten) ++ dataLine (lit "[DONE]") := by
  induction batches with
  | nil => simp [streamBody, streamResponse, chunks]
  | cons b batches ih =>
    have hb := h b List.mem_cons_self
    have hrest := ih fun c hc => h c (List.mem_cons_of_mem b hc)
    rw [streamBody] at hrest
    simp [streamBody, streamResponse, chunks, hb, hrest]

end Body

section Reader

/-- A line ends at LF, CR or CRLF. -/
def unifyBreaks : PyStr → PyStr
  | [] => []
  | c :: s =>
    if c = ch '\r' then
      match s with
      | [] => [ch '\n']
      | d :: t => if d = ch '\n' then ch '\n' :: unifyBreaks t else ch '\n' :: unifyBreaks (d :: t)
    else c :: unifyBreaks s

/-- A text after the last line break is no line. -/
def sseLines (body : PyStr) : List PyStr :=
  (split (ch '\n') (unifyBreaks body)).dropLast

/-- The value of a line of the field `data`; one blank after the colon is not part of it. -/
def dataField (line : PyStr) : Option PyStr :=
  if (cut (ch ':') line).1 = lit "data" then some (removePrefix (lit " ") (cut (ch ':') line).2) else none

def joinLines : List PyStr → PyStr
  | [] => []
  | [l] => l
  | l :: ls => l ++ ch '\n' :: joinLines ls

/-- An empty line ends an event; an event without data is dropped. -/
def dispatch : List PyStr → List PyStr → List PyStr
  | _, [] => []
  | data, line :: lines =>
    if line = [] then
      if data = [] then dispatch [] lines else joinLines data :: dispatch [] lines
    else dispatch (data ++ (dataField line).toList) lines

def sseEvents (body : PyStr) : List PyStr :=
  dispatch [] (sseLines body)

end Reader

section Lines

def OneLine (s : PyStr) : Prop :=
  ch '\n' ∉ s ∧ ch '\r' ∉ s

instance (s : PyStr) : Decidable (OneLine s) :=
  inferInstanceAs (Decidable (_ ∧ _))

lemma OneLine.append {s t : PyStr} (hs : OneLine s) (ht : OneLine t) : OneLine (s ++ t) :=
  ⟨by simp [hs.1, ht.1], by simp [hs.2, ht.2]⟩

lemma unifyBreaks_append {s : PyStr} (h : ch '\r' ∉ s) (t : PyStr) :
    unifyBreaks (s ++ t) = s ++ unifyBreaks t := by
  induction s with
  | nil => rfl
  | cons c s ih =>
    have hc : ¬ c = ch '\r' := fun he => h (he ▸ List.mem_cons_self)
    rw [List.cons_append, unifyBreaks.eq_def]
    simp only [if_neg hc, ih fun hs => h (List.mem_cons_of_mem c hs), List.cons_append]

lemma unifyBreaks_newline (t : PyStr) : unifyBreaks (ch '\n' :: t) = ch '\n' :: unifyBreaks t := by
  have hne : ¬ ch '\n' = ch '\r' := by decide
  rw [unifyBreaks.eq_def]
  simp only [if_neg hne]

lemma split_ne_nil (c : CodePoint) (s : PyStr) : split c s ≠ [] := by
  cases s with
  | nil => simp [split]
  | cons d s =>
    rw [split]
    split_ifs
    · simp
    · split <;> simp

lemma sseLines_line {line : PyStr} (h : OneLine line) (rest : PyStr) :
    sseLines (line ++ ch '\n' :: rest) = line :: sseLines rest := by
  rw [sseLines, unifyBreaks_append h.2, unifyBreaks_newline, split_append_cons h.1,
    List.dropLast_cons_of_ne_nil (split_ne_nil _ _), sseLines]

lemma dataField_data (text : PyStr) : dataField (lit "data: " ++ text) = some text := by
  have hcolon : ch ':' ∉ lit "data" := by decide
  have hline : lit "data: " ++ text = lit "data" ++ ch ':' :: (lit " " ++ text) := rfl
  have hblank : removePrefix (lit " ") (lit " " ++ text) = text := by
    simp [removePrefix, lit]
  rw [dataField, hline, cut_append_cons hcolon, if_pos rfl, hblank]

lemma sseEvents_dataLine {text : PyStr} (h : OneLine text) (rest : PyStr) :
    sseEvents (dataLine text ++ rest) = text :: sseEvents rest := by
  have hpre : OneLine (lit "data: ") := by decide
  have hnil : OneLine [] := by decide
  have hbody : dataLine text ++ rest = (lit "data: " ++ text) ++ ch '\n' :: ([] ++ ch '\n' :: rest) := by
    simp [dataLine, lit]
  have hne : lit "data: " ++ text ≠ [] := by simp [lit]
  rw [sseEvents, hbody, sseLines_line (hpre.append h), sseLines_line hnil, dispatch, if_neg hne,
    dataField_data, dispatch, if_pos rfl]
  rfl

theorem sseEvents_dataLines {texts : List PyStr} (h : ∀ t ∈ texts, OneLine t) :
    sseEvents (texts.flatMap dataLine) = texts := by
  induction texts with
  | nil => rfl
  | cons t texts ih =>
    rw [List.flatMap_cons, sseEvents_dataLine (h t List.mem_cons_self),
      ih fun u hu => h u (List.mem_cons_of_mem t hu)]

end Lines

section Json

lemma oneLine_iff {s : PyStr} : OneLine s ↔ ∀ c ∈ s, c ≠ ch '\n' ∧ c ≠ ch '\r' :=
  ⟨fun h _ hc => ⟨fun he => h.1 (he ▸ hc), fun he => h.2 (he ▸ hc)⟩,
    fun h => ⟨fun hn => (h _ hn).1 rfl, fun hr => (h _ hr).2 rfl⟩⟩

/-- Nothing that is printable breaks a line. -/
theorem oneLine_text {w : PyStr} (hw : OneLine w) (v : Value) : OneLine (v.text w) := by
  refine oneLine_iff.mpr fun c hc => ?_
  obtain hprint | hblank := printed_text w v c hc
  · refine ⟨?_, ?_⟩
    · rintro rfl
      exact absurd hprint (by decide)
    · rintro rfl
      exact absurd hprint (by decide)
  · exact oneLine_iff.mp hw c hblank

lemma oneLine_jsonDumps (v : Value) : OneLine (jsonDumps v) :=
  oneLine_text (by decide) v

end Json

end GemmaWorker.Server
