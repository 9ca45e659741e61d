import GemmaWorker.Server.Delivery

/-! A stream that an exception of vLLM breaks off: what its client has got, and what is lost. -/

namespace GemmaWorker.Server

open Python Engine Library

section Items

variable [Interpreter] {α : Type} {cfg : StreamSettings α}

/-- The parsed mode takes a payload that mentions the terminator for it. -/
def accepted (cfg : StreamSettings α) (ps : List Payload) : List Payload :=
  if cfg.rawOpenaiOutput then ps else kept ps

def payloadItem (cfg : StreamSettings α) (p : Payload) : Value :=
  if cfg.rawOpenaiOutput then .str (dataLine p.text) else p.value

lemma chunkData_payload (p : Payload) : chunkData cfg (dataLine p.text) =
    if cfg.rawOpenaiOutput = false ∧ p.mentionsDone = true then .skipped else .data (payloadItem cfg p) := by
  rw [chunkData, if_pos (contains_data _), payloadItem]
  cases cfg.rawOpenaiOutput with
  | true => simp
  | false =>
    rw [if_neg Bool.false_ne_true, contains_done, chunk_text p.oneLine, p.reads]
    simp [Payload.mentionsDone]

lemma accepted_cons (p : Payload) (ps : List Payload) : accepted cfg (p :: ps) =
    if cfg.rawOpenaiOutput = false ∧ p.mentionsDone = true then accepted cfg ps else p :: accepted cfg ps := by
  rw [accepted, accepted]
  cases cfg.rawOpenaiOutput with
  | true => simp
  | false => cases hp : p.mentionsDone <;> simp [kept, hp]

lemma yields_payloads (ps : List Payload) :
    Yields cfg (ps.map fun p => dataLine p.text) ((accepted cfg ps).map (payloadItem cfg)) := by
  induction ps with
  | nil =>
    have hnil : accepted cfg [] = [] := by
      rw [accepted]
      split_ifs <;> rfl
    rw [hnil]
    exact .nil
  | cons p ps ih =>
    have hdata := @chunkData_payload _ α cfg p
    rw [accepted_cons]
    split_ifs at hdata ⊢
    · exact .skipped hdata ih
    · exact .data hdata ih

lemma item_payload (p : Payload) : Item cfg (payloadItem cfg p) := by
  rw [Item, payloadItem]
  split_ifs
  · exact ⟨p.text, p.oneLine, rfl⟩
  · exact ⟨p, rfl⟩

lemma decoded_joined (ps : List Payload) :
    decoded (joined (ps.map fun p => .str (dataLine p.text))) = ps.map fun p => .ok p.value := by
  induction ps with
  | nil => rfl
  | cons p ps ih =>
    have hjoined : joined ((p :: ps).map fun p => .str (dataLine p.text)) =
        dataLine p.text ++ joined (ps.map fun p => .str (dataLine p.text)) := rfl
    rw [hjoined, decoded_dataLine p.oneLine, if_neg p.text_ne_done, p.reads, ih]
    rfl

/-- A batch of payloads is sent so that its values can be read. -/
lemma sendBatch_values (ps : List Payload) : ∃ b, sendBatch cfg (ps.map (payloadItem cfg)) = .batch b ∧ Clean b ∧
    hasError b = false ∧ itemValues b = ps.map fun p => .ok p.value := by
  have hitems : ∀ v ∈ ps.map (payloadItem cfg), Item cfg v := by
    intro v hv
    obtain ⟨p, -, rfl⟩ := List.mem_map.mp hv
    exact item_payload p
  obtain ⟨b, hsend, hclean, herror⟩ := sendBatch_clean hitems
  refine ⟨b, hsend, hclean, herror, ?_⟩
  obtain rfl := EngineEvent.batch.inj hsend
  cases hraw : cfg.rawOpenaiOutput with
  | true =>
    have hline : payloadItem cfg = fun p => .str (dataLine p.text) := by
      funext p
      rw [payloadItem, if_pos hraw]
    rw [if_pos rfl, hline]
    exact decoded_joined ps
  | false =>
    have hvalue : payloadItem cfg = Payload.value := by
      funext p
      rw [payloadItem, if_neg (by simp [hraw])]
    rw [if_neg Bool.false_ne_true, hvalue]
    simp [itemValues, Function.comp_def]

lemma decoded_brokenOff {text : PyStr} (htext : encodable text = true) (batches : List (List Payload)) :
    decoded (streamBody ((batches.map (List.map (payloadItem cfg))).map (sendBatch cfg) ++ [.raised text])) =
      (batches.flatten.map fun p => .ok p.value) ++ [.ok (errorContent text)] := by
  induction batches with
  | nil => exact decoded_raised htext
  | cons ps batches ih =>
    obtain ⟨b, hsend, hclean, herror, hvalues⟩ := @sendBatch_values _ α cfg ps
    rw [List.map_cons, List.map_cons, List.cons_append, hsend, streamBody_batch herror, decoded_batch hclean, ih,
      hvalues, List.flatten_cons, List.map_append, List.append_assoc]

end Items

section Client

variable [Interpreter] {α ρ σ : Type} [LT α] [DecidableLT α] [LE α] [DecidableLE α] [Mul α] [One α] [NatCast α]
variable {engines : Engines α ρ σ} {route : PyStr} {body : Body} {job : JobInput σ}

end Client

section Witness

end Witness

end GemmaWorker.Server
