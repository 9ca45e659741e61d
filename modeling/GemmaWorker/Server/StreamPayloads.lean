import GemmaWorker.Engine.ChatStream
import GemmaWorker.Python.JsonReader
import GemmaWorker.Python.JsonRoundTrip
import GemmaWorker.Server.EventStream

/-! What an OpenAI stream delivers: the payloads of the engine's chunks and the terminator. -/

namespace GemmaWorker.Server

open Python Engine

section Chunks

variable [Interpreter]

/-- A JSON payload of vLLM, which is an object and no bare string, with the one line it is written on. -/
structure Payload where
  value : Value
  text : PyStr
  reads : jsonLoads text = .ok value
  isJson : value.IsJson
  notStr : ∀ s, value ≠ .str s
  oneLine : OneLine text

def done : PyStr := lit "[DONE]"

def vllmChunks (ps : List Payload) : List PyStr :=
  ps.map (fun p => dataLine p.text) ++ [dataLine done]

def Payload.mentionsDone (p : Payload) : Bool :=
  contains done p.text

def kept (ps : List Payload) : List Payload :=
  ps.filter (fun p => !p.mentionsDone)

def OneTerminator (body : PyStr) : Prop :=
  ∃ events, done ∉ events ∧ sseEvents body = events ++ [done]

/-- The events that are no terminator, each as `json.loads` reads it. -/
def decoded (body : PyStr) : List (Except PyError Value) :=
  ((sseEvents body).filter (· ≠ done)).map jsonLoads

end Chunks

section Texts

lemma contains_of_prefix {pattern s : PyStr} (t : PyStr) (h : pattern <+: s) : contains pattern (s ++ t) = true :=
  contains_iff.mpr (h.isInfix.trans (List.prefix_append s t).isInfix)

lemma contains_data (text : PyStr) : contains (lit "data") (dataLine text) = true := by
  have hpre : lit "data" <+: lit "data: " := by decide
  rw [dataLine, List.append_assoc]
  exact contains_of_prefix _ hpre

lemma infix_of_append_left {c : CodePoint} {p s t : PyStr} (hc : c ∉ s) (h : c :: p <:+: s ++ t) :
    c :: p <:+: t := by
  obtain ⟨a, b, hab⟩ := h
  rw [List.append_assoc] at hab
  obtain ⟨u, rfl, hu⟩ | ⟨u, rfl, hu⟩ := List.append_eq_append_iff.mp hab
  · cases u with
    | nil => exact ⟨[], b, by simpa using hu⟩
    | cons d u =>
      obtain ⟨rfl, -⟩ := List.cons.inj hu
      simp at hc
  · exact ⟨u, b, by simpa using hu.symm⟩

lemma infix_of_append_right {c : CodePoint} {p s t : PyStr} (hc : c ∉ t) (h : p ++ [c] <:+: s ++ t) :
    p ++ [c] <:+: s := by
  rw [← List.reverse_infix, List.reverse_append, List.reverse_singleton] at h ⊢
  rw [List.reverse_append] at h
  exact infix_of_append_left (by simpa using hc) h

lemma contains_done (text : PyStr) : contains (lit "[DONE]") (dataLine text) = contains done text := by
  change contains done (dataLine text) = contains done text
  have hdone : done = ch '[' :: (lit "DONE]") ∧ done = lit "[DONE" ++ [ch ']'] := ⟨rfl, rfl⟩
  have hopen : ch '[' ∉ lit "data: " := by decide
  have hclose : ch ']' ∉ lit "\n\n" := by decide
  rw [Bool.eq_iff_iff, contains_iff, contains_iff, dataLine]
  constructor
  · intro h
    rw [hdone.2] at h
    have hleft := infix_of_append_right hclose h
    rw [← hdone.2, hdone.1] at hleft
    exact infix_of_append_left hopen hleft
  · rintro ⟨a, b, hab⟩
    exact ⟨lit "data: " ++ a, b ++ lit "\n\n", by simp [← hab]⟩

lemma chunk_text {text : PyStr} (h : OneLine text) :
    rstripChar (ch '\n') (removePrefix (lit "data: ") (dataLine text)) = text := by
  have hpre : removePrefix (lit "data: ") (dataLine text) = text ++ lit "\n\n" := by
    simp [removePrefix, dataLine]
  have hbreaks : (lit "\n\n").reverse = [ch '\n', ch '\n'] := rfl
  have htext : text.reverse.dropWhile (· == ch '\n') = text.reverse := by
    cases hrev : text.reverse with
    | nil => rfl
    | cons c t =>
      have hc : c ∈ text := by
        rw [← List.mem_reverse, hrev]
        exact List.mem_cons_self
      have hne : (c == ch '\n') = false := beq_eq_false_iff_ne.mpr fun he => h.1 (he ▸ hc)
      simp [hne]
  rw [hpre, rstripChar, List.reverse_append, hbreaks]
  simp [htext]

end Texts

section Payloads

variable [Interpreter] (p : Payload)

lemma Payload.loads_dumps : jsonLoads (jsonDumps p.value) = .ok p.value := by
  refine jsonLoads_text ?_ p.isJson ?_
  · show (lit " ").all isJsonSpace = true
    decide
  · exact (jsonLoads_readFrom p.reads).fits

lemma done_no_json (v : Value) : jsonLoads done ≠ .ok v := by
  have herror : jsonLoads done = .error .jsonDecodeError := by
    obtain ⟨levels, hlevels⟩ := Nat.exists_eq_succ_of_ne_zero Interpreter.nesting_pos.ne'
    rw [jsonLoads, hlevels]
    rfl
  simp [herror]

lemma Payload.text_ne_done : p.text ≠ done := fun h => done_no_json p.value (h ▸ p.reads)

lemma Payload.dumps_ne_done : jsonDumps p.value ≠ done := fun h =>
  done_no_json p.value (h ▸ p.loads_dumps)

end Payloads

section Bodies

variable {α : Type} {cfg : StreamSettings α}

lemma joined_flatten (batches : List (List Value)) :
    joined batches.flatten = batches.flatMap joined := by
  induction batches with
  | nil => rfl
  | cons b batches ih =>
    rw [List.flatten_cons, List.flatMap_cons, ← ih]
    exact List.flatMap_append

lemma batchChunks_list {vs : List Value} (h : ∀ v ∈ vs, ∀ s, v ≠ .str s) :
    batchChunks (.list vs) = vs.map (fun v => dataLine (jsonDumps v)) := by
  refine List.map_congr_left fun v hv => ?_
  cases v with
  | str s => exact absurd rfl (h _ hv s)
  | _ => rfl

lemma body_raw (hraw : cfg.rawOpenaiOutput = true) (batches : List (List Value)) :
    streamBody (batches.map (sendBatch cfg) ++ [.exhausted]) =
      joined batches.flatten ++ dataLine done := by
  have hevents : batches.map (sendBatch cfg) = (batches.map fun b => Value.str (joined b)).map .batch := by
    simp [sendBatch, hraw, Function.comp_def]
  rw [hevents, streamBody_batches (by simp [hasError]), List.flatMap_map, joined_flatten]
  simp [batchChunks, done]

lemma body_parsed (hraw : cfg.rawOpenaiOutput = false) {batches : List (List Value)}
    (hstr : ∀ v ∈ batches.flatten, ∀ s, v ≠ .str s) :
    streamBody (batches.map (sendBatch cfg) ++ [.exhausted]) =
      (batches.flatten.map jsonDumps ++ [done]).flatMap dataLine := by
  have hevents : batches.map (sendBatch cfg) = (batches.map Value.list).map .batch := by
    simp [sendBatch, hraw, Function.comp_def]
  have hlines : batches.flatMap (fun b => (batchChunks (.list b)).flatten) =
      batches.flatten.flatMap (fun v => dataLine (jsonDumps v)) := by
    induction batches with
    | nil => rfl
    | cons b batches ih =>
      have hb : ∀ v ∈ b, ∀ s, v ≠ .str s := fun v hv => hstr v (by simp [hv])
      have hrest := ih (fun v hv => hstr v (by simp_all)) (by simp [sendBatch, hraw, Function.comp_def])
      rw [List.flatMap_cons, hrest, batchChunks_list hb, List.flatten_cons, List.flatMap_append]
      rfl
  rw [hevents, streamBody_batches (by simp [hasError]), List.flatMap_map, hlines, List.flatMap_append,
    List.flatMap_map, List.flatMap_singleton]
  rfl

end Bodies

section Modes

variable [Interpreter] {α : Type} {cfg : StreamSettings α} (ps : List Payload)

lemma yields_raw (hraw : cfg.rawOpenaiOutput = true) (texts : List PyStr) :
    Yields cfg (texts.map dataLine) (texts.map fun t => .str (dataLine t)) := by
  induction texts with
  | nil => exact .nil
  | cons t texts ih =>
    refine .data ?_ ih
    rw [chunkData, if_pos (contains_data t), if_pos hraw]

lemma yields_parsed (hraw : cfg.rawOpenaiOutput = false) :
    Yields cfg (vllmChunks ps) ((kept ps).map Payload.value) := by
  have hmode : ¬ cfg.rawOpenaiOutput = true := by simp [hraw]
  induction ps with
  | nil =>
    refine .skipped ?_ .nil
    rw [chunkData, if_pos (contains_data _), if_neg hmode, contains_done, if_pos (by decide)]
  | cons p ps ih =>
    have hchunk : chunkData cfg (dataLine p.text) =
        if p.mentionsDone then .skipped else .data p.value := by
      rw [chunkData, if_pos (contains_data _), if_neg hmode, contains_done, chunk_text p.oneLine, p.reads]
      rfl
    cases hp : p.mentionsDone with
    | true =>
      have hkept : kept (p :: ps) = kept ps := by simp [kept, hp]
      rw [hkept]
      exact .skipped (by rw [hchunk, hp, if_pos rfl]) ih
    | false =>
      have hkept : kept (p :: ps) = p :: kept ps := by simp [kept, hp]
      rw [hkept]
      exact .data (by rw [hchunk, hp, if_neg (by simp)]) ih

variable [LT α] [DecidableLT α] [LE α] [DecidableLE α] [Mul α] [One α] [NatCast α]

/-- In raw mode the terminator of vLLM is forwarded and the server appends its own. -/
theorem sseEvents_stream : sseEvents (streamBody (handleChatStream cfg (vllmChunks ps))) =
    if cfg.rawOpenaiOutput then ps.map Payload.text ++ [done, done]
    else (kept ps).map (fun p => jsonDumps p.value) ++ [done] := by
  have hdone : OneLine done := by decide
  cases hraw : cfg.rawOpenaiOutput with
  | true =>
    have hchunks : vllmChunks ps = (ps.map Payload.text ++ [done]).map dataLine := by simp [vllmChunks]
    obtain ⟨batches, hflat, hevents⟩ := handleChatStream_batched
      (yields_raw hraw (ps.map Payload.text ++ [done]))
    have hbody : streamBody (handleChatStream cfg (vllmChunks ps)) =
        (ps.map Payload.text ++ [done, done]).flatMap dataLine := by
      rw [hchunks, hevents, body_raw hraw, hflat]
      simp [joined, List.flatMap_map]
    rw [hbody, if_pos rfl]
    refine sseEvents_dataLines fun t ht => ?_
    obtain ht | ht := List.mem_append.mp ht
    · obtain ⟨p, _, rfl⟩ := List.mem_map.mp ht
      exact p.oneLine
    · obtain rfl : t = done := by simpa using ht
      exact hdone
  | false =>
    obtain ⟨batches, hflat, hevents⟩ := handleChatStream_batched (yields_parsed ps hraw)
    have hstr : ∀ v ∈ batches.flatten, ∀ s, v ≠ .str s := by
      intro v hv
      rw [hflat] at hv
      obtain ⟨p, _, rfl⟩ := List.mem_map.mp hv
      exact p.notStr
    rw [hevents, body_parsed hraw hstr, hflat, if_neg (by simp), List.map_map]
    refine sseEvents_dataLines fun t ht => ?_
    obtain ht | ht := List.mem_append.mp ht
    · obtain ⟨p, _, rfl⟩ := List.mem_map.mp ht
      exact oneLine_jsonDumps _
    · obtain rfl : t = done := by simpa using ht
      exact hdone

/-- A stream ends with exactly one terminator in parsed mode only. -/
theorem oneTerminator_iff : OneTerminator (streamBody (handleChatStream cfg (vllmChunks ps))) ↔
    cfg.rawOpenaiOutput = false := by
  rw [OneTerminator, sseEvents_stream]
  cases hraw : cfg.rawOpenaiOutput with
  | true =>
    refine iff_of_false ?_ (by simp)
    rintro ⟨events, hnone, hevents⟩
    rw [if_pos rfl] at hevents
    have hsplit : ps.map Payload.text ++ [done] ++ [done] = events ++ [done] := by simpa using hevents
    rw [← List.append_cancel_right hsplit] at hnone
    simp at hnone
  | false =>
    refine iff_of_true ⟨_, ?_, rfl⟩ rfl
    intro hmem
    obtain ⟨p, _, hp⟩ := List.mem_map.mp hmem
    exact p.dumps_ne_done hp

lemma decoded_append {texts ends : List PyStr} {body : PyStr} (hbody : sseEvents body = texts ++ ends)
    (htexts : ∀ t ∈ texts, t ≠ done) (hends : ∀ t ∈ ends, t = done) :
    decoded body = texts.map jsonLoads := by
  have hkeep : texts.filter (· ≠ done) = texts :=
    List.filter_eq_self.mpr fun t ht => decide_eq_true (htexts t ht)
  have hdrop : ends.filter (· ≠ done) = [] :=
    List.filter_eq_nil_iff.mpr fun t ht => by simp [hends t ht]
  rw [decoded, hbody, List.filter_append, hkeep, hdrop, List.append_nil]

lemma decoded_stream : decoded (streamBody (handleChatStream cfg (vllmChunks ps))) =
    (if cfg.rawOpenaiOutput then ps else kept ps).map (fun p => .ok p.value) := by
  have hevents : sseEvents (streamBody (handleChatStream cfg (vllmChunks ps))) = _ := sseEvents_stream ps
  cases hraw : cfg.rawOpenaiOutput with
  | true =>
    rw [hraw, if_pos rfl] at hevents
    have htexts : ∀ t ∈ ps.map Payload.text, t ≠ done := by
      intro t ht
      obtain ⟨p, _, rfl⟩ := List.mem_map.mp ht
      exact p.text_ne_done
    rw [decoded_append hevents htexts (by simp), List.map_map, if_pos rfl]
    exact List.map_congr_left fun p _ => p.reads
  | false =>
    rw [hraw, if_neg (by simp)] at hevents
    have htexts : ∀ t ∈ (kept ps).map (fun p => jsonDumps p.value), t ≠ done := by
      intro t ht
      obtain ⟨p, _, rfl⟩ := List.mem_map.mp ht
      exact p.dumps_ne_done
    rw [decoded_append hevents htexts (by simp), List.map_map, if_neg (by simp)]
    exact List.map_congr_left fun p _ => p.loads_dumps

/-- A payload is lost where parsed mode takes the text of a reply for the terminator, and nowhere else. -/
theorem delivers_iff : decoded (streamBody (handleChatStream cfg (vllmChunks ps))) =
    ps.map (fun p => .ok p.value) ↔
      cfg.rawOpenaiOutput = true ∨ ∀ p ∈ ps, p.mentionsDone = false := by
  rw [decoded_stream]
  cases cfg.rawOpenaiOutput with
  | true => simp
  | false =>
    simp only [Bool.false_eq_true, if_false, false_or]
    constructor
    · intro h
      have hlength := congrArg List.length h
      rw [List.length_map, List.length_map] at hlength
      have hall := List.length_filter_eq_length_iff.mp hlength
      exact fun p hp => by simpa using hall p hp
    · intro h
      have hkept : kept ps = ps := List.filter_eq_self.mpr fun p hp => by simp [h p hp]
      rw [hkept]

end Modes

section Defects

def defaultSettings (raw : Bool) : StreamSettings ℕ :=
  ⟨raw, 50, 1, 3, fun _ => []⟩

def doneValue : Value := .dict [(lit "text", .str done)]

lemma doneValue_isJson : doneValue.IsJson := by
  refine ⟨by simp, ?_, ?_, trivial⟩
  · decide
  · show encodable done = true
    decide

def doneReply : Payload where
  value := doneValue
  text := doneValue.text []
  reads := jsonLoads_text (w := []) (show IsBlank [] from rfl) doneValue_isJson
    ⟨Interpreter.nesting_pos, trivial, trivial⟩
  isJson := doneValue_isJson
  notStr := by simp [doneValue]
  oneLine := oneLine_text (by decide) doneValue

/-- The events that a client reads when a reply says `[DONE]`. -/
example : sseEvents (streamBody (handleChatStream (defaultSettings true) (vllmChunks [doneReply]))) =
    [doneReply.text, done, done] := by
  decide +kernel

theorem two_terminators :
    ¬ OneTerminator (streamBody (handleChatStream (defaultSettings true) (vllmChunks [doneReply]))) := by
  have hevents : sseEvents (streamBody (handleChatStream (defaultSettings true) (vllmChunks [doneReply]))) = _ :=
    sseEvents_stream [doneReply]
  rintro ⟨events, hnone, h⟩
  rw [h] at hevents
  have hmem : done ∈ events := by
    have hsplit : events ++ [done] = [doneReply.text, done] ++ [done] := hevents
    rw [List.append_cancel_right hsplit]
    simp
  exact hnone hmem

theorem payload_lost :
    decoded (streamBody (handleChatStream (defaultSettings false) (vllmChunks [doneReply]))) ≠
      [doneReply].map (fun p => .ok p.value) := by
  have hkept : kept [doneReply] = [] := by decide +kernel
  rw [decoded_stream, show (defaultSettings false).rawOpenaiOutput = false from rfl, if_neg (by simp), hkept]
  simp

end Defects

end GemmaWorker.Server
