import GemmaWorker.Engine.ChatStream
import GemmaWorker.Engine.StreamAgreement
import Mathlib.Data.Rat.Floor
import Mathlib.Algebra.Order.Archimedean.Basic

/-! The lengths of the batches that the two streaming loops yield, for rational settings. -/

namespace GemmaWorker.Engine

open Python Server Library

section Sizes

variable (M m g : ℚ)

/-- The length of the `k`-th batch for maximum `M`, minimum `m` and growth factor `g`. -/
def schedule (k : ℕ) : ℕ :=
  if 1 < g ∧ 1 ≤ m ∧ m < M then ⌈min M (m * g ^ k)⌉₊ else ⌈M⌉₊

variable {M m g}

lemma iterate_update (k : ℕ) : BatchSize.update^[k] (.init M m g) =
    { BatchSize.init M m g with
      currentBatchSize := if 1 < g ∧ 1 ≤ m ∧ m < M then min M (m * g ^ k) else M } := by
  induction k with
  | zero =>
    by_cases h : 1 < g ∧ 1 ≤ m ∧ m < M
    · simp [BatchSize.init, h, h.2.2.le]
    · simp [BatchSize.init, h]
  | succ k ih =>
    rw [Function.iterate_succ_apply', ih]
    by_cases h : 1 < g ∧ 1 ≤ m ∧ m < M
    · have hM : 0 ≤ M := by linarith [h.2.1, h.2.2]
      have hcap : M ≤ M * g := le_mul_of_one_le_right hM h.1.le
      have hgrown : min M (m * g ^ k) * g = min (M * g) (m * g ^ (k + 1)) := by
        rw [min_mul_of_nonneg _ _ (by linarith [h.1]), pow_succ, mul_assoc]
      have hnext : (if M < min M (m * g ^ k) * g then M else min M (m * g ^ k) * g) =
          min M (m * g ^ (k + 1)) := by
        rw [hgrown]
        split_ifs with hlt
        · exact (min_eq_left (hlt.le.trans (min_le_right _ _))).symm
        · rcases le_total (M * g) (m * g ^ (k + 1)) with hle | hle
          · rw [min_eq_left hle] at hlt ⊢
            rw [min_eq_left (hcap.trans hle)]
            exact le_antisymm (not_lt.mp hlt) hcap
          · rw [min_eq_right hle] at hlt ⊢
            exact (min_eq_right (not_lt.mp hlt)).symm
      simp only [BatchSize.update, BatchSize.init, h, and_self, decide_true, if_true, hnext]
    · simp only [BatchSize.update, BatchSize.init, h, decide_false, if_false, Bool.false_eq_true]

lemma schedule_eq (k : ℕ) :
    schedule M m g k = ⌈(BatchSize.update^[k] (.init M m g)).currentBatchSize⌉₊ := by
  rw [iterate_update, schedule]
  split_ifs <;> rfl

lemma schedule_le (k : ℕ) : schedule M m g k ≤ ⌈M⌉₊ := by
  rw [schedule]
  split_ifs
  · exact Nat.ceil_mono (min_le_left _ _)
  · exact le_rfl

lemma schedule_pos (hM : 1 ≤ M) (k : ℕ) : 1 ≤ schedule M m g k := by
  rw [schedule]
  split_ifs with h
  · have hgrown : 0 < m * g ^ k := mul_pos (by linarith [h.2.1]) (pow_pos (by linarith [h.1]) k)
    exact Nat.one_le_ceil_iff.mpr (lt_min (by linarith) hgrown)
  · exact Nat.one_le_ceil_iff.mpr (by linarith)

lemma schedule_mono : Monotone (schedule M m g) := by
  intro j k hjk
  rw [schedule, schedule]
  split_ifs with h
  · have hpow : g ^ j ≤ g ^ k := pow_le_pow_right₀ h.1.le hjk
    have hm : 0 ≤ m := by linarith [h.2.1]
    exact Nat.ceil_mono (min_le_min_left M (mul_le_mul_of_nonneg_left hpow hm))
  · exact le_rfl

lemma schedule_reaches : ∃ K, ∀ k, K ≤ k → schedule M m g k = ⌈M⌉₊ := by
  by_cases h : 1 < g ∧ 1 ≤ m ∧ m < M
  · obtain ⟨K, hK⟩ := pow_unbounded_of_one_lt M h.1
    refine ⟨K, fun k hk => ?_⟩
    have hpow : g ^ K ≤ g ^ k := pow_le_pow_right₀ h.1.le hk
    have hpos : 0 ≤ g ^ k := pow_nonneg (by linarith [h.1]) k
    have hcap : M ≤ m * g ^ k := by nlinarith [h.2.1]
    rw [schedule, if_pos h, min_eq_left hcap]
  · exact ⟨0, fun k _ => if_neg h⟩

lemma batched_schedule (hM : 1 ≤ M) {β : Type} (items : List β) :
    Scheduled (schedule M m g)
      ((BatchSize.batcher.batched (.init M m g) [] items).map List.length) := by
  have hneed : (fun k => ⌈(BatchSize.update^[k] (.init M m g)).currentBatchSize⌉₊) =
      schedule M m g := by
    funext k
    exact (schedule_eq k).symm
  have hpos : ∀ k, 1 ≤ ⌈(BatchSize.update^[k] (.init M m g)).currentBatchSize⌉₊ := by
    intro k
    rw [← schedule_eq]
    exact schedule_pos hM k
  have hstart : ([] : List β).length < ⌈(BatchSize.init M m g).currentBatchSize⌉₊ := hpos 0
  rw [← hneed]
  refine Batcher.batched_scheduled BatchSize.batcher
    (fun b : BatchSize ℚ => ⌈b.currentBatchSize⌉₊) (fun b k => ?_) hpos hstart items
  simp only [BatchSize.batcher, BatchSize.reached, decide_eq_true_eq, Nat.ceil_le]

end Sizes

section Generate

/-- The texts that a batch carries, over all choices. -/
def Batch.chunks (b : Batch) : ℕ :=
  (b.choices.map List.length).sum

variable {n : ℕ}

lemma chunks_grouped {items : List (ℕ × PyStr)} (h : ∀ x ∈ items, x.1 < n) :
    ((grouped n items).map List.length).sum = items.length := by
  induction items with
  | nil => simp [grouped_nil, emptyChoices]
  | cons x items ih =>
    have hrest := ih fun y hy => h y (List.mem_cons_of_mem x hy)
    have hx : x.1 < n := h x List.mem_cons_self
    have hlen : ∀ i, (ofIndex i (x :: items)).length =
        (if x.1 = i then 1 else 0) + (ofIndex i items).length := by
      intro i
      rw [ofIndex_cons]
      split_ifs
      · rw [List.length_cons, Nat.add_comm]
      · rw [Nat.zero_add]
    have hone : ((List.range n).map (fun i => if x.1 = i then 1 else 0)).sum = 1 := by
      show ∑ i ∈ Finset.range n, (if x.1 = i then 1 else 0) = 1
      rw [Finset.sum_ite_eq, if_pos (Finset.mem_range.mpr hx)]
    simp only [grouped, List.map_map, Function.comp_def] at hrest ⊢
    simp only [hlen, List.sum_map_add, hone, hrest, List.length_cons]
    omega

lemma chunks_yielded {input : ℕ} {bs : List (List (ℕ × PyStr))} (h : ∀ x ∈ bs.flatten, x.1 < n)
    (t : ℕ) : (yielded n input t bs).map Batch.chunks = bs.map List.length := by
  induction bs generalizing t with
  | nil => rfl
  | cons b bs ih =>
    have hb : ∀ x ∈ b, x.1 < n := fun x hx => h x (by simp [hx])
    have hbs : ∀ x ∈ bs.flatten, x.1 < n := by
      intro x hx
      exact h x (by rw [List.flatten_cons]; exact List.mem_append_right b hx)
    rw [yielded, List.map_cons, List.map_cons, ih hbs, Batch.chunks, chunks_grouped hb]

variable (d : BatchDefaults ℚ) (r : GenerateRequest ℚ)

lemma takeOutput_bad {st : GenerateLoop ℚ} {o : CompletionOutput}
    (h : st.lastOutputTexts.length ≤ o.index) : takeOutput r true st o = none := by
  rw [takeOutput, List.getElem?_eq_none h, Option.map_none]

/-- A streaming run yields the batches of the outputs in front of the first bad index, up to the batch
that the exception takes with it. -/
lemma stream_yields {outs : List RequestOutput} {items rest : List CompletionOutput}
    (hitems : outs.flatMap RequestOutput.outputs = items ++ rest)
    (hindex : ∀ o ∈ items, o.index < r.n) (hbad : ∀ o ∈ rest.head?, r.n ≤ o.index) :
    (generateVllm d r true outs).1 <+:
      yielded r.n (counted d r outs).nInputTokens 0 (batches d r items) := by
  obtain ⟨ys, st', hloop, hys⟩ := outputLoop_counted d outs hindex
  rw [generateVllm, requestLoop_counted, hitems, outputLoop_append, hloop, ← hys]
  cases rest with
  | nil => simp [outputLoop]
  | cons o rest =>
    have hlen : st'.lastOutputTexts.length = r.n := by
      rw [outputLoop_keeps r true (fun st => st.lastOutputTexts.length)
        (fun h => (takeOutput_keeps r true h).2) hloop]
      obtain ⟨input, hst⟩ := counted_init (r := r) d outs
      rw [hst]
      exact List.length_replicate
    have hnone : takeOutput r true st' o = none := by
      apply takeOutput_bad
      rw [hlen]
      exact hbad o rfl
    simp [outputLoop, hnone]

variable {d r} {M m g : ℚ}

lemma generateVllm_scheduled (hM : 1 ≤ M) (hmax : orDefault r.batchSize d.defaultBatchSize = M)
    (hmin : orDefault r.minBatchSize d.minBatchSize = m)
    (hgrowth : orDefault r.batchSizeGrowthFactor d.batchSizeGrowthFactor = g)
    (outs : List RequestOutput) :
    Scheduled (schedule M m g) ((generateVllm d r true outs).1.map Batch.chunks) := by
  let good : CompletionOutput → Bool := fun o => o.index < r.n
  set all := outs.flatMap RequestOutput.outputs
  set items := all.takeWhile good
  have hindex : ∀ o ∈ items, o.index < r.n := by
    intro o ho
    simpa [good] using List.mem_takeWhile_imp ho
  have hbad : ∀ o ∈ (all.dropWhile good).head?, r.n ≤ o.index := by
    intro o ho
    have hn := List.head?_dropWhile_not good all
    rw [Option.mem_def.mp ho] at hn
    simpa [good] using hn
  have hrun := stream_yields d r (List.takeWhile_append_dropWhile (p := good)).symm hindex hbad
  have hflat : ∀ x ∈ (batches d r items).flatten, x.1 < r.n := by
    intro x hx
    rw [batches_flatten] at hx
    obtain ⟨o, ho, hox⟩ := index_of_mem_newTexts hx
    exact hox ▸ hindex o ho
  refine Scheduled.of_prefix (schedule_pos hM) (hrun.map Batch.chunks) ?_
  have hsize : (GenerateLoop.init d r).batchSize = .init M m g := by
    rw [← hmax, ← hmin, ← hgrowth]
    rfl
  rw [chunks_yielded hflat, batches, hsize]
  exact batched_schedule hM _

end Generate

section Chat

variable [Interpreter] {cfg : StreamSettings ℚ}

/-- The data of the chunks, up to the first chunk that `json.loads` rejects. -/
def chunkValues (cfg : StreamSettings ℚ) : List PyStr → List Value
  | [] => []
  | chunk :: chunks =>
    match chunkData cfg chunk with
    | .skipped => chunkValues cfg chunks
    | .raised _ => []
    | .data v => v :: chunkValues cfg chunks

/-- The chat loop sends its batches in turn; an exception takes the unfinished one with it. -/
lemma streamLoop_sent (chunks : List PyStr) (batch : List Value) (size : BatchSize ℚ) :
    ∃ (bs : List (List Value)) (ending : EngineEvent),
      streamLoop cfg ⟨batch, batch.length, size⟩ chunks = bs.map (sendBatch cfg) ++ [ending] ∧
      (∀ v, ending ≠ .batch v) ∧
      bs <+: BatchSize.batcher.batched size batch (chunkValues cfg chunks) ∧
      (ending = .exhausted → bs = BatchSize.batcher.batched size batch (chunkValues cfg chunks)) := by
  induction chunks generalizing batch size with
  | nil =>
    refine ⟨BatchSize.batcher.batched size batch [], .exhausted, ?_, by simp, List.prefix_rfl,
      fun _ => rfl⟩
    rw [streamLoop, Batcher.batched]
    split_ifs <;> rfl
  | cons chunk chunks ih =>
    cases hdata : chunkData cfg chunk with
    | skipped =>
      simp only [streamLoop, chunkValues, hdata]
      exact ih batch size
    | raised text =>
      refine ⟨[], .raised text, ?_, by simp, List.nil_prefix, by simp⟩
      simp only [streamLoop, hdata, List.map_nil, List.nil_append]
    | data v =>
      have hfull : size.reached (batch.length + 1) = BatchSize.batcher.full size (batch.length + 1) := rfl
      simp only [streamLoop, chunkValues, hdata, Batcher.batched_cons, hfull]
      split_ifs
      · obtain ⟨bs, ending, hloop, hending, hbs, hall⟩ := ih [] size.update
        refine ⟨(batch ++ [v]) :: bs, ending, ?_, hending, ?_, fun he => ?_⟩
        · rw [List.length_nil] at hloop
          rw [hloop, List.map_cons, List.cons_append]
        · exact (List.cons_prefix_cons).mpr ⟨rfl, hbs⟩
        · rw [hall he]
          rfl
      · have hlonger := ih (batch ++ [v]) size
        rw [List.length_append, List.length_singleton] at hlonger
        exact hlonger

lemma handleChatStream_scheduled (hM : 1 ≤ cfg.defaultBatchSize) (chunks : List PyStr) :
    ∃ (bs : List (List Value)) (ending : EngineEvent),
      handleChatStream cfg chunks = bs.map (sendBatch cfg) ++ [ending] ∧
      (∀ v, ending ≠ .batch v) ∧ bs.flatten <+: chunkValues cfg chunks ∧
      (ending = .exhausted → bs.flatten = chunkValues cfg chunks) ∧
      Scheduled (schedule cfg.defaultBatchSize cfg.minBatchSize cfg.batchSizeGrowthFactor)
        (bs.map List.length) := by
  obtain ⟨bs, ending, hloop, hending, hbs, hall⟩ := @streamLoop_sent _ cfg chunks []
    (.init cfg.defaultBatchSize cfg.minBatchSize cfg.batchSizeGrowthFactor)
  have hflat := Batcher.flatten_batched BatchSize.batcher (.init cfg.defaultBatchSize
    cfg.minBatchSize cfg.batchSizeGrowthFactor) [] (chunkValues cfg chunks)
  rw [List.nil_append] at hflat
  refine ⟨bs, ending, hloop, hending, ?_, fun he => by rw [hall he, hflat], ?_⟩
  · obtain ⟨rest, hrest⟩ := hbs
    exact ⟨rest.flatten, by rw [← List.flatten_append, hrest, hflat]⟩
  · exact Scheduled.of_prefix (schedule_pos hM) (hbs.map List.length) (batched_schedule hM _)

end Chat

/-- Both streaming loops send batches of the lengths that the settings prescribe. -/
structure FollowsSchedule [Interpreter] (M m g : ℚ) : Prop where
  generate : ∀ (d : BatchDefaults ℚ) (r : GenerateRequest ℚ) (outs : List RequestOutput),
    orDefault r.batchSize d.defaultBatchSize = M → orDefault r.minBatchSize d.minBatchSize = m →
    orDefault r.batchSizeGrowthFactor d.batchSizeGrowthFactor = g →
      Scheduled (schedule M m g) ((generateVllm d r true outs).1.map Batch.chunks)
  chat : ∀ (cfg : StreamSettings ℚ) (chunks : List PyStr), cfg.defaultBatchSize = M →
    cfg.minBatchSize = m → cfg.batchSizeGrowthFactor = g →
      ∃ (bs : List (List Value)) (ending : EngineEvent),
        handleChatStream cfg chunks = bs.map (sendBatch cfg) ++ [ending] ∧
        (∀ v, ending ≠ .batch v) ∧ bs.flatten <+: chunkValues cfg chunks ∧
        (ending = .exhausted → bs.flatten = chunkValues cfg chunks) ∧
        Scheduled (schedule M m g) (bs.map List.length)
  sizes : ∀ k, ⌈(BatchSize.update^[k] (.init M m g)).currentBatchSize⌉₊ = schedule M m g k
  monotone : Monotone (schedule M m g)
  bounded : ∀ k, schedule M m g k ≤ ⌈M⌉₊
  reaches : ∃ K, ∀ k, K ≤ k → schedule M m g k = ⌈M⌉₊

theorem batch_schedule [Interpreter] (M m g : ℚ) (hM : 1 ≤ M) : FollowsSchedule M m g where
  generate _ _ outs hmax hmin hgrowth := generateVllm_scheduled hM hmax hmin hgrowth outs
  chat cfg chunks hmax hmin hgrowth := by
    subst hmax hmin hgrowth
    exact handleChatStream_scheduled hM chunks
  sizes k := (schedule_eq k).symm
  monotone := schedule_mono
  bounded := schedule_le
  reaches := schedule_reaches

theorem default_batch_schedule : FollowsSchedule 50 1 3 :=
  batch_schedule 50 1 3 (by norm_num)

example : (List.range 6).map (schedule 50 1 3) = [1, 3, 9, 27, 50, 50] := by
  norm_num [schedule, List.range_succ]

end GemmaWorker.Engine
