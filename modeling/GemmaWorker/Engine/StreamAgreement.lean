import GemmaWorker.Engine.Generate

/-! Streaming `_generate_vllm` yields in batches what it yields at once without streaming. -/

namespace GemmaWorker.Engine

open Python

section Texts

def newTexts : List PyStr → List CompletionOutput → List (ℕ × PyStr)
  | _, [] => []
  | last, o :: outs =>
    (o.index, o.text.drop (last.getD o.index []).length) :: newTexts (last.set o.index o.text) outs

def lastTexts (last : List PyStr) (outs : List CompletionOutput) : List PyStr :=
  outs.foldl (fun texts o => texts.set o.index o.text) last

def ofIndex (i : ℕ) (items : List (ℕ × PyStr)) : List PyStr :=
  (items.filter (fun x => x.1 = i)).map Prod.snd

def grouped (n : ℕ) (items : List (ℕ × PyStr)) : List (List PyStr) :=
  (List.range n).map (fun i => ofIndex i items)

/-- The outputs of vLLM: indices of choices, each with a text that only grows. -/
structure Cumulative (n : ℕ) (outs : List CompletionOutput) : Prop where
  index_lt : ∀ o ∈ outs, o.index < n
  extends_text : outs.Pairwise (fun o p => o.index = p.index → o.text <+: p.text)

variable {n : ℕ} {last : List PyStr}

lemma Cumulative.tail {o : CompletionOutput} {outs : List CompletionOutput} (h : Cumulative n (o :: outs)) :
    Cumulative n outs :=
  ⟨fun p hp => h.index_lt p (List.mem_cons_of_mem o hp), (List.pairwise_cons.mp h.extends_text).2⟩

lemma newTexts_length (outs : List CompletionOutput) : (newTexts last outs).length = outs.length := by
  induction outs generalizing last with
  | nil => rfl
  | cons o outs ih => simp [newTexts, ih]

lemma lastTexts_length (outs : List CompletionOutput) : (lastTexts last outs).length = last.length := by
  induction outs generalizing last with
  | nil => rfl
  | cons o outs ih =>
    rw [lastTexts, List.foldl_cons]
    exact ih.trans (List.length_set ..)

lemma index_of_mem_newTexts {outs : List CompletionOutput} {x : ℕ × PyStr} (hx : x ∈ newTexts last outs) :
    ∃ o ∈ outs, o.index = x.1 := by
  induction outs generalizing last with
  | nil => cases hx
  | cons o outs ih =>
    obtain rfl | hx := List.mem_cons.mp hx
    · exact ⟨o, List.mem_cons_self, rfl⟩
    · obtain ⟨p, hp, hpx⟩ := ih hx
      exact ⟨p, List.mem_cons_of_mem o hp, hpx⟩

lemma ofIndex_cons (i : ℕ) (x : ℕ × PyStr) (items : List (ℕ × PyStr)) :
    ofIndex i (x :: items) = if x.1 = i then x.2 :: ofIndex i items else ofIndex i items := by
  rw [ofIndex, List.filter_cons]
  split_ifs with h <;> simp_all [ofIndex]

lemma ofIndex_append (i : ℕ) (xs ys : List (ℕ × PyStr)) : ofIndex i (xs ++ ys) = ofIndex i xs ++ ofIndex i ys := by
  simp [ofIndex]

/-- The pieces of a growing text, behind what was known of it, are the text. -/
theorem flatten_newTexts {outs : List CompletionOutput} (h : Cumulative last.length outs)
    (hlast : ∀ o ∈ outs, last.getD o.index [] <+: o.text) (i : ℕ) :
    last.getD i [] ++ (ofIndex i (newTexts last outs)).flatten = (lastTexts last outs).getD i [] := by
  induction outs generalizing last with
  | nil => simp [newTexts, lastTexts, ofIndex]
  | cons o outs ih =>
    have ho : o.index < last.length := h.index_lt o List.mem_cons_self
    have hself : (last.set o.index o.text).getD o.index [] = o.text := by simp [ho]
    have hother : ∀ j, o.index ≠ j → (last.set o.index o.text).getD j [] = last.getD j [] := by
      intro j hj
      simp [List.getD_eq_getElem?_getD, List.getElem?_set_ne hj]
    have hnext : ∀ p ∈ outs, (last.set o.index o.text).getD p.index [] <+: p.text := by
      intro p hp
      by_cases hpo : o.index = p.index
      · rw [← hpo, hself]
        exact (List.pairwise_cons.mp h.extends_text).1 p hp hpo
      · rw [hother _ hpo]
        exact hlast p (List.mem_cons_of_mem o hp)
    have hrest := @ih (last.set o.index o.text) (by simpa using h.tail) hnext
    rw [newTexts, ofIndex_cons]
    split_ifs with hi
    · obtain ⟨u, hu⟩ := hlast o List.mem_cons_self
      obtain rfl : o.index = i := hi
      have hpiece : last.getD o.index [] ++ o.text.drop (last.getD o.index []).length = o.text := by
        rw [← hu, List.drop_left]
      rw [hself] at hrest
      rw [List.flatten_cons, ← List.append_assoc, hpiece]
      exact hrest
    · rw [← hother i hi]
      exact hrest

end Texts

section Groups

variable {n : ℕ}

lemma grouped_nil : grouped n [] = emptyChoices n := by
  simp [grouped, ofIndex, emptyChoices, List.map_const']

lemma getElem?_grouped {i : ℕ} (h : i < n) (items : List (ℕ × PyStr)) :
    (grouped n items)[i]? = some (ofIndex i items) := by
  simp [grouped, h]

lemma grouped_push {i : ℕ} (items : List (ℕ × PyStr)) (t : PyStr) :
    grouped n (items ++ [(i, t)]) = (grouped n items).modify i (fun ts => ts ++ [t]) := by
  refine List.ext_getElem? fun j => ?_
  have hnil : ofIndex j [] = [] := rfl
  by_cases hj : j < n
  · rw [getElem?_grouped hj, List.getElem?_modify, getElem?_grouped hj, ofIndex_append, ofIndex_cons, hnil]
    by_cases hij : i = j <;> simp [hij]
  · have hlen : ∀ xs, (grouped n xs).length ≤ j := by simpa [grouped] using hj
    rw [List.getElem?_eq_none (hlen _), List.getElem?_eq_none (by simpa using hlen _)]

end Groups

section Batches

def yielded (n input : ℕ) : ℕ → List (List (ℕ × PyStr)) → List Batch
  | _, [] => []
  | t, b :: bs => ⟨grouped n b, some ⟨input, t + b.length⟩⟩ :: yielded n input (t + b.length) bs

variable {n input : ℕ}

lemma flatten_yielded {i : ℕ} (hi : i < n) (t : ℕ) (bs : List (List (ℕ × PyStr))) :
    (yielded n input t bs).flatMap (fun b => b.choices.getD i []) = ofIndex i bs.flatten := by
  induction bs generalizing t with
  | nil => rfl
  | cons b bs ih =>
    rw [yielded, List.flatMap_cons, ih, List.flatten_cons, ofIndex_append, List.getD_eq_getElem?_getD,
      getElem?_grouped hi, Option.getD_some]

def Batch.Complete (n : ℕ) (b : Batch) : Prop :=
  b.choices.length = n ∧ (∃ i < n, b.choices.getD i [] ≠ []) ∧ b.usage.isSome

lemma complete_yielded {t : ℕ} {bs : List (List (ℕ × PyStr))} (hne : ∀ b ∈ bs, b ≠ [])
    (hindex : ∀ x ∈ bs.flatten, x.1 < n) : ∀ b ∈ yielded n input t bs, b.Complete n := by
  induction bs generalizing t with
  | nil => simp [yielded]
  | cons b bs ih =>
    have hrest := ih (t := t + b.length) (fun c hc => hne c (List.mem_cons_of_mem b hc))
      (fun x hx => hindex x (by simp_all))
    refine List.forall_mem_cons.mpr ⟨⟨by simp [grouped], ?_, rfl⟩, hrest⟩
    obtain ⟨x, xs, rfl⟩ := List.exists_cons_of_ne_nil (hne b List.mem_cons_self)
    have hx : x.1 < n := hindex x (by simp)
    refine ⟨x.1, hx, ?_⟩
    rw [List.getD_eq_getElem?_getD, getElem?_grouped hx, ofIndex_cons, if_pos rfl]
    simp

def outputCounts (ys : List Batch) : List ℕ :=
  ys.filterMap (fun b => b.usage.map Usage.output)

lemma le_outputCounts {t : ℕ} {bs : List (List (ℕ × PyStr))} :
    ∀ k ∈ outputCounts (yielded n input t bs), t ≤ k := by
  induction bs generalizing t with
  | nil => simp [yielded, outputCounts]
  | cons b bs ih =>
    intro k hk
    obtain rfl | hk := List.mem_cons.mp hk
    · exact Nat.le_add_right t b.length
    · have hle := ih k hk
      omega

lemma outputCounts_sorted (t : ℕ) (bs : List (List (ℕ × PyStr))) :
    (outputCounts (yielded n input t bs)).Pairwise (· ≤ ·) := by
  induction bs generalizing t with
  | nil => exact List.Pairwise.nil
  | cons b bs ih => exact List.Pairwise.cons le_outputCounts (ih _)

lemma getLast_yielded {t : ℕ} {bs : List (List (ℕ × PyStr))} (hne : bs ≠ []) :
    (yielded n input t bs).getLast?.bind Batch.usage = some ⟨input, t + bs.flatten.length⟩ := by
  induction bs generalizing t with
  | nil => exact absurd rfl hne
  | cons b bs ih =>
    cases bs with
    | nil => simp [yielded]
    | cons c bs =>
      have hrest := ih (t := t + b.length) (by simp)
      rw [yielded, List.flatten_cons, List.length_append, ← Nat.add_assoc, ← hrest, yielded,
        List.getLast?_cons_cons]

end Batches

section Runs

variable {α : Type} [LT α] [DecidableLT α] [LE α] [DecidableLE α] [Mul α] [NatCast α]
variable {r : GenerateRequest α} {st : GenerateLoop α}

lemma outputLoop_plain {outs : List CompletionOutput} (hindex : ∀ o ∈ outs, o.index < st.lastOutputTexts.length) :
    outputLoop r false st outs = ([], some { st with
      totalCounter := st.totalCounter + outs.length
      lastOutputTexts := lastTexts st.lastOutputTexts outs }) := by
  induction outs generalizing st with
  | nil => rfl
  | cons o outs ih =>
    have ho : o.index < st.lastOutputTexts.length := hindex o List.mem_cons_self
    have hstep : takeOutput r false st o = some ([], { st with
        totalCounter := st.totalCounter + 1
        lastOutputTexts := st.lastOutputTexts.set o.index o.text }) := by
      simp [takeOutput, List.getElem?_eq_getElem ho]
    have hrest : ∀ p ∈ outs, p.index < (st.lastOutputTexts.set o.index o.text).length := by
      intro p hp
      rw [List.length_set]
      exact hindex p (List.mem_cons_of_mem o hp)
    simp only [outputLoop, hstep]
    rw [ih hrest]
    simp [lastTexts, Nat.add_assoc, Nat.add_comm 1]

/-- The streaming loop from any point: `pending` is in the batch, and `t` outputs were yielded. -/
lemma outputLoop_stream {outs : List CompletionOutput} {pending : List (ℕ × PyStr)} {t : ℕ}
    (hindex : ∀ o ∈ outs, o.index < st.lastOutputTexts.length)
    (htokens : st.tokens = grouped r.n pending) (hbatch : st.batchCounter = pending.length)
    (htotal : st.totalCounter = t + pending.length) :
    ∃ ys st', outputLoop r true st outs = (ys, some st') ∧ ys ++ finalBatch true st' =
      yielded r.n st.nInputTokens t
        (BatchSize.batcher.batched st.batchSize pending (newTexts st.lastOutputTexts outs)) := by
  induction outs generalizing st pending t with
  | nil =>
    refine ⟨[], st, rfl, ?_⟩
    cases pending with
    | nil => simp [finalBatch, newTexts, Library.Batcher.batched, yielded, hbatch]
    | cons x pending =>
      simp [finalBatch, newTexts, Library.Batcher.batched, yielded, GenerateLoop.batch, htokens, hbatch, htotal]
  | cons o outs ih =>
    have ho : o.index < st.lastOutputTexts.length := hindex o List.mem_cons_self
    have hlast : st.lastOutputTexts[o.index]? = some (st.lastOutputTexts.getD o.index []) := by
      simp [List.getElem?_eq_getElem ho]
    have hrest : ∀ p ∈ outs, p.index < (st.lastOutputTexts.set o.index o.text).length := by
      intro p hp
      rw [List.length_set]
      exact hindex p (List.mem_cons_of_mem o hp)
    set last := st.lastOutputTexts.getD o.index [] with hdef
    set next := takeText st o last with hnext
    have htokens' : next.tokens = grouped r.n (pending ++ [(o.index, o.text.drop last.length)]) := by
      rw [grouped_push, ← htokens]
      rfl
    have hlen : (pending ++ [(o.index, o.text.drop last.length)]).length = pending.length + 1 := by simp
    have hbatch' : next.batchCounter = pending.length + 1 := by
      show st.batchCounter + 1 = _
      rw [hbatch]
    have htotal' : next.totalCounter = t + (pending.length + 1) := by
      show st.totalCounter + 1 = _
      omega
    have hstep : takeOutput r true st o =
        some (if next.batchSize.reached next.batchCounter then ([next.batch], nextBatch r.n next)
          else ([], next)) := by
      rw [takeOutput, hlast]
      rfl
    have hfull : next.batchSize.reached next.batchCounter =
        BatchSize.batcher.full st.batchSize (pending.length + 1) := by
      rw [hbatch']
      rfl
    rw [newTexts, Library.Batcher.batched_cons, ← hfull]
    cases hreached : next.batchSize.reached next.batchCounter with
    | true =>
      obtain ⟨ys, st', hys, hyielded⟩ := @ih (nextBatch r.n next) []
        (t + (pending.length + 1)) hrest grouped_nil.symm rfl htotal'
      rw [hreached, if_pos rfl] at hstep
      refine ⟨next.batch :: ys, st', by simp [outputLoop, hstep, hys], ?_⟩
      rw [if_pos rfl, yielded, hlen, List.cons_append, hyielded, GenerateLoop.batch, htokens', htotal']
      rfl
    | false =>
      obtain ⟨ys, st', hys, hyielded⟩ := @ih next _ t hrest htokens' (by rw [hlen, hbatch'])
        (by rw [hlen, htotal'])
      rw [hreached, if_neg (by simp)] at hstep
      refine ⟨ys, st', by simp [outputLoop, hstep, hys], ?_⟩
      rw [if_neg (by simp)]
      exact hyielded

variable [One α] [Zero α] [DecidableEq α] (d : BatchDefaults α)

def counted (d : BatchDefaults α) (r : GenerateRequest α) : List RequestOutput → GenerateLoop α
  | [] => .init d r
  | out :: _ => (GenerateLoop.init d r).countInput out

lemma requestLoop_counted (stream : Bool) (outs : List RequestOutput) :
    requestLoop r stream (.init d r) outs =
      outputLoop r stream (counted d r outs) (outs.flatMap RequestOutput.outputs) := by
  cases outs with
  | nil => rfl
  | cons out outs => exact requestLoop_init r stream rfl out outs

def firstTexts (n : ℕ) : List PyStr :=
  List.replicate n []

def batches (d : BatchDefaults α) (r : GenerateRequest α) (items : List CompletionOutput) :
    List (List (ℕ × PyStr)) :=
  BatchSize.batcher.batched (GenerateLoop.init d r).batchSize [] (newTexts (firstTexts r.n) items)

lemma batches_flatten (items : List CompletionOutput) :
    (batches d r items).flatten = newTexts (firstTexts r.n) items := by
  rw [batches, Library.Batcher.flatten_batched, List.nil_append]

omit [Mul α] [NatCast α] in
lemma counted_init (outs : List RequestOutput) : ∃ input, counted d r outs =
    { GenerateLoop.init d r with nInputTokens := input, isFirstOutput := outs.isEmpty } := by
  cases outs with
  | nil => exact ⟨0, rfl⟩
  | cons out outs => exact ⟨out.promptTokenIds.length, rfl⟩

/-- The streaming loop from its start, over outputs whose indices are choices. -/
lemma outputLoop_counted (outs : List RequestOutput) {items : List CompletionOutput}
    (hindex : ∀ o ∈ items, o.index < r.n) :
    ∃ ys st', outputLoop r true (counted d r outs) items = (ys, some st') ∧
      ys ++ finalBatch true st' =
        yielded r.n (counted d r outs).nInputTokens 0 (batches d r items) := by
  obtain ⟨input, hst⟩ := counted_init (r := r) d outs
  have hlast : ∀ o ∈ items, o.index < (counted d r outs).lastOutputTexts.length := by
    intro o ho
    simpa [hst, GenerateLoop.init] using hindex o ho
  have htokens : (counted d r outs).tokens = grouped r.n [] := by
    rw [hst, grouped_nil]
    rfl
  have hrun := outputLoop_stream (t := 0) hlast htokens (by rw [hst]; rfl) (by rw [hst]; rfl)
  have htexts : (counted d r outs).lastOutputTexts = firstTexts r.n := by
    rw [hst]
    rfl
  have hsize : (counted d r outs).batchSize = (GenerateLoop.init d r).batchSize := by rw [hst]
  rwa [htexts, hsize] at hrun

lemma generateVllm_runs (outs : List RequestOutput) {items : List CompletionOutput}
    (hitems : outs.flatMap RequestOutput.outputs = items) (hindex : ∀ o ∈ items, o.index < r.n) :
    generateVllm d r true outs =
        (yielded r.n (counted d r outs).nInputTokens 0 (batches d r items), .exhausted) ∧
      generateVllm d r false outs =
        ([⟨(lastTexts (firstTexts r.n) items).map (fun t => [t]),
          some ⟨(counted d r outs).nInputTokens, items.length⟩⟩], .exhausted) := by
  constructor
  · obtain ⟨ys, st', hloop, hys⟩ := outputLoop_counted d outs hindex
    rw [generateVllm, requestLoop_counted, hitems, hloop]
    simp only [hys]
  · obtain ⟨input, hst⟩ := counted_init (r := r) d outs
    have hlast : ∀ o ∈ items, o.index < (counted d r outs).lastOutputTexts.length := by
      intro o ho
      simpa [hst, GenerateLoop.init] using hindex o ho
    rw [generateVllm, requestLoop_counted, hitems, outputLoop_plain hlast, hst]
    simp [finalBatch, GenerateLoop.batch, GenerateLoop.init, firstTexts]

/-- What the batches `ys` of a stream have in common with the one batch `b` of a plain run. -/
structure Agrees (n : ℕ) (ys : List Batch) (b : Batch) : Prop where
  text : ∀ i < n, ∃ t, b.choices[i]? = some [t] ∧ (ys.flatMap (fun y => y.choices.getD i [])).flatten = t
  complete : ∀ y ∈ ys, y.Complete n
  growing : (outputCounts ys).Pairwise (· ≤ ·)

lemma agrees_yielded {items : List CompletionOutput} (h : Cumulative r.n items) (input : ℕ) (u : Usage) :
    Agrees r.n (yielded r.n input 0 (batches d r items))
      ⟨(lastTexts (firstTexts r.n) items).map (fun t => [t]), some u⟩ where
  text i hi := by
    have hfirst : ∀ o ∈ items, (firstTexts r.n).getD o.index [] <+: o.text := by
      intro o ho
      simp [firstTexts, h.index_lt o ho]
    have hlen : i < (lastTexts (firstTexts r.n) items).length := by
      rw [lastTexts_length, firstTexts, List.length_replicate]
      exact hi
    have hcumulative : Cumulative (firstTexts r.n).length items := by simpa [firstTexts] using h
    have htext := flatten_newTexts hcumulative hfirst i
    refine ⟨(lastTexts (firstTexts r.n) items).getD i [], by simp [hlen], ?_⟩
    rw [flatten_yielded hi, batches_flatten, ← htext]
    simp [firstTexts, hi]
  complete := by
    refine complete_yielded (fun b hb => Library.Batcher.ne_nil_of_mem_batched _ hb) fun x hx => ?_
    rw [batches_flatten] at hx
    obtain ⟨o, ho, hox⟩ := index_of_mem_newTexts hx
    exact hox ▸ h.index_lt o ho
  growing := outputCounts_sorted 0 _

/-- Streaming and plain runs over the same outputs yield the same texts and, at last, the same usage. -/
theorem stream_agrees (r : GenerateRequest α) (outs : List RequestOutput)
    (h : Cumulative r.n (outs.flatMap RequestOutput.outputs)) :
    ∃ ys b, generateVllm d r true outs = (ys, .exhausted) ∧
      generateVllm d r false outs = ([b], .exhausted) ∧ Agrees r.n ys b ∧
      (outs.flatMap RequestOutput.outputs ≠ [] →
        b.usage.isSome ∧ ys.getLast?.bind Batch.usage = b.usage) := by
  obtain ⟨hstream, hplain⟩ := generateVllm_runs d outs rfl h.index_lt
  refine ⟨_, _, hstream, hplain, agrees_yielded d h _ _, fun hne => ⟨rfl, ?_⟩⟩
  have hnew : [] ++ newTexts (firstTexts r.n) (outs.flatMap RequestOutput.outputs) ≠ [] := by
    rw [List.nil_append, ← List.length_pos_iff, newTexts_length, List.length_pos_iff]
    exact hne
  have hbatches : batches d r (outs.flatMap RequestOutput.outputs) ≠ [] := Library.Batcher.batched_ne_nil _ _ hnew
  rw [getLast_yielded hbatches, batches_flatten, newTexts_length, Nat.zero_add]

def twoChoices : List RequestOutput :=
  [⟨[5, 7, 9], [⟨0, lit "The"⟩, ⟨1, lit "A"⟩]⟩, ⟨[5, 7, 9], [⟨1, lit "A cat"⟩]⟩, ⟨[5, 7, 9], [⟨0, lit "The cat"⟩]⟩]

theorem stream_agrees_twoChoices :
    ∃ ys b, generateVllm (⟨50, 1, 3⟩ : BatchDefaults ℕ) ⟨2, none, none, none⟩ true twoChoices = (ys, .exhausted) ∧
      generateVllm (⟨50, 1, 3⟩ : BatchDefaults ℕ) ⟨2, none, none, none⟩ false twoChoices = ([b], .exhausted) ∧
      Agrees 2 ys b ∧ (twoChoices.flatMap RequestOutput.outputs ≠ [] →
        b.usage.isSome ∧ ys.getLast?.bind Batch.usage = b.usage) :=
  stream_agrees (⟨50, 1, 3⟩ : BatchDefaults ℕ) ⟨2, none, none, none⟩ twoChoices ⟨by decide, by decide⟩

example : (generateVllm (⟨50, 1, 3⟩ : BatchDefaults ℕ) ⟨2, none, none, none⟩ true twoChoices).1 =
    [⟨[[lit "The"], []], some ⟨3, 1⟩⟩, ⟨[[lit " cat"], [lit "A", lit " cat"]], some ⟨3, 4⟩⟩] := by
  decide +kernel

end Runs

end GemmaWorker.Engine
