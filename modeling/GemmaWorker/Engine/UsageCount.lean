import GemmaWorker.Engine.StreamAgreement
import Mathlib.Algebra.BigOperators.Group.Finset.Basic

/-! `usage.output` counts the outputs of vLLM. This module says when that is the number of tokens. -/

namespace GemmaWorker.Engine

open Python

/-- An output of vLLM with the ids of all tokens of its choice so far, which the loop does not read. -/
structure TokenOutput extends CompletionOutput where
  tokenIds : List ℕ

structure TokenRequestOutput where
  promptTokenIds : List ℕ
  outputs : List TokenOutput

def TokenRequestOutput.forget (out : TokenRequestOutput) : RequestOutput :=
  ⟨out.promptTokenIds, out.outputs.map TokenOutput.toCompletionOutput⟩

section Tokens

/-- The last token ids seen for the choice `i`. -/
def lastIds (i : ℕ) (outs : List TokenOutput) : List ℕ :=
  outs.foldl (fun ids o => if o.index = i then o.tokenIds else ids) []

def totalTokens (n : ℕ) (outs : List TokenOutput) : ℕ :=
  ∑ i ∈ Finset.range n, (lastIds i outs).length

/-- Indices of choices, and token ids that go on from the last ones of their index by at least one. -/
structure CumulativeTokens (n : ℕ) (outs : List TokenOutput) : Prop where
  index_lt : ∀ o ∈ outs, o.index < n
  extends_ids : ∀ before o after, outs = before ++ o :: after → lastIds o.index before <+: o.tokenIds
  new_token : ∀ before o after, outs = before ++ o :: after →
    (lastIds o.index before).length < o.tokenIds.length

def OneTokenEach (outs : List TokenOutput) : Prop :=
  ∀ before o after, outs = before ++ o :: after →
    o.tokenIds.length = (lastIds o.index before).length + 1

variable {n : ℕ} {outs : List TokenOutput} {o : TokenOutput}

lemma lastIds_append (i : ℕ) : lastIds i (outs ++ [o]) =
    if o.index = i then o.tokenIds else lastIds i outs := by
  rw [lastIds, List.foldl_append]
  rfl

lemma totalTokens_append (ho : o.index < n) :
    totalTokens n (outs ++ [o]) + (lastIds o.index outs).length =
      totalTokens n outs + o.tokenIds.length := by
  have hmem : o.index ∈ Finset.range n := Finset.mem_range.mpr ho
  have hother : ∑ i ∈ (Finset.range n).erase o.index, (lastIds i (outs ++ [o])).length =
      ∑ i ∈ (Finset.range n).erase o.index, (lastIds i outs).length := by
    apply Finset.sum_congr rfl
    intro i hi
    rw [lastIds_append, if_neg (Finset.ne_of_mem_erase hi).symm]
  rw [totalTokens, totalTokens, ← Finset.add_sum_erase _ _ hmem, ← Finset.add_sum_erase _ _ hmem,
    hother, lastIds_append, if_pos rfl]
  omega

/-- What is said of every output and those before it, one output at a time from the end. -/
lemma forall_split_append {P : List TokenOutput → TokenOutput → Prop} :
    (∀ before p after, outs ++ [o] = before ++ p :: after → P before p) ↔
      (∀ before p after, outs = before ++ p :: after → P before p) ∧ P outs o := by
  constructor
  · intro h
    refine ⟨fun before p after hp => h before p (after ++ [o]) (by simp [hp]), ?_⟩
    exact h outs o [] rfl
  · rintro ⟨h, ho⟩ before p after hp
    rcases List.eq_nil_or_concat after with rfl | ⟨after, q, rfl⟩
    · obtain ⟨rfl, hlast⟩ := List.append_inj' hp rfl
      obtain rfl := (List.cons.inj hlast).1
      exact ho
    · rw [List.concat_eq_append, ← List.cons_append, ← List.append_assoc] at hp
      exact h before p after (List.append_inj' hp rfl).1

lemma cumulativeTokens_nil : CumulativeTokens n [] where
  index_lt := by simp
  extends_ids before o after h := by simp at h
  new_token before o after h := by simp at h

lemma cumulativeTokens_append : CumulativeTokens n (outs ++ [o]) ↔ CumulativeTokens n outs ∧
    o.index < n ∧ lastIds o.index outs <+: o.tokenIds ∧
      (lastIds o.index outs).length < o.tokenIds.length := by
  constructor
  · intro h
    obtain ⟨hids, ho⟩ := forall_split_append.mp h.extends_ids
    obtain ⟨hnew, ho'⟩ := forall_split_append.mp h.new_token
    exact ⟨⟨fun p hp => h.index_lt p (List.mem_append_left _ hp), hids, hnew⟩,
      h.index_lt o (by simp), ho, ho'⟩
  · rintro ⟨h, hindex, hids, hnew⟩
    refine ⟨fun p hp => ?_, forall_split_append.mpr ⟨h.extends_ids, hids⟩,
      forall_split_append.mpr ⟨h.new_token, hnew⟩⟩
    rcases List.mem_append.mp hp with hp | hp
    · exact h.index_lt p hp
    · rwa [List.mem_singleton.mp hp]

lemma oneTokenEach_append : OneTokenEach (outs ++ [o]) ↔
    OneTokenEach outs ∧ o.tokenIds.length = (lastIds o.index outs).length + 1 :=
  forall_split_append

/-- Every output adds at least one token, so the outputs are as many as the tokens only if every
output adds exactly one. -/
lemma length_eq_totalTokens_iff (h : CumulativeTokens n outs) :
    outs.length ≤ totalTokens n outs ∧ (outs.length = totalTokens n outs ↔ OneTokenEach outs) := by
  induction outs using List.reverseRecOn with
  | nil =>
    have hnone : OneTokenEach [] := fun before o after hp => by simp at hp
    simp [totalTokens, lastIds, hnone]
  | append_singleton outs o ih =>
    obtain ⟨hinit, hindex, -, hnew⟩ := cumulativeTokens_append.mp h
    obtain ⟨hle, hiff⟩ := ih hinit
    have htotal := @totalTokens_append n outs o hindex
    rw [oneTokenEach_append, ← hiff, List.length_append, List.length_singleton]
    constructor
    · omega
    · omega

end Tokens

section Usage

variable {α : Type} [LT α] [DecidableLT α] [LE α] [DecidableLE α] [Mul α] [NatCast α] [One α] [Zero α]
variable [DecidableEq α]

/-- The last batch of a run, streaming or not, bills the prompt and the tokens generated. -/
def BillsTokens (d : BatchDefaults α) (r : GenerateRequest α) (prompt : List ℕ)
    (outs : List TokenRequestOutput) : Prop :=
  ∀ stream b, (generateVllm d r stream (outs.map TokenRequestOutput.forget)).1.getLast? = some b →
    b.usage = some ⟨prompt.length, totalTokens r.n (outs.flatMap TokenRequestOutput.outputs)⟩

variable {d : BatchDefaults α} {r : GenerateRequest α} {outs : List TokenRequestOutput}

omit [LT α] [DecidableLT α] [LE α] [DecidableLE α] [Mul α] [NatCast α] [One α] [Zero α] [DecidableEq α] in
lemma flatMap_forget : (outs.map TokenRequestOutput.forget).flatMap RequestOutput.outputs =
    (outs.flatMap TokenRequestOutput.outputs).map TokenOutput.toCompletionOutput := by
  induction outs with
  | nil => rfl
  | cons out outs ih =>
    rw [List.map_cons, List.flatMap_cons, ih, List.flatMap_cons, List.map_append]
    rfl

omit [Mul α] [NatCast α] in
lemma counted_input (outs : List RequestOutput) :
    (counted d r outs).nInputTokens = (outs.head?.map (fun out => out.promptTokenIds.length)).getD 0 := by
  cases outs <;> rfl

lemma getLast_usage (hindex : ∀ o ∈ outs.flatMap TokenRequestOutput.outputs, o.index < r.n)
    (stream : Bool) {b : Batch}
    (hb : (generateVllm d r stream (outs.map TokenRequestOutput.forget)).1.getLast? = some b) :
    b.usage = some ⟨(outs.head?.map (fun out => out.promptTokenIds.length)).getD 0,
      (outs.flatMap TokenRequestOutput.outputs).length⟩ := by
  have hitems := @flatMap_forget outs
  have hindex' : ∀ o ∈ (outs.flatMap TokenRequestOutput.outputs).map TokenOutput.toCompletionOutput,
      o.index < r.n := by
    intro o ho
    obtain ⟨p, hp, rfl⟩ := List.mem_map.mp ho
    exact hindex p hp
  obtain ⟨hstream, hplain⟩ := generateVllm_runs d _ hitems hindex'
  have hinput : (counted d r (outs.map TokenRequestOutput.forget)).nInputTokens =
      (outs.head?.map (fun out => out.promptTokenIds.length)).getD 0 := by
    rw [counted_input]
    cases outs <;> rfl
  cases stream with
  | false =>
    rw [hplain, hinput] at hb
    obtain rfl := Option.some.inj hb
    simp
  | true =>
    rw [hstream, hinput] at hb
    have hne : batches d r ((outs.flatMap TokenRequestOutput.outputs).map
        TokenOutput.toCompletionOutput) ≠ [] := by
      intro hnil
      rw [hnil] at hb
      cases hb
    have hlast := @getLast_yielded r.n
      ((outs.head?.map (fun out => out.promptTokenIds.length)).getD 0) 0 _ hne
    rw [hb, batches_flatten, newTexts_length, List.length_map, Nat.zero_add] at hlast
    exact hlast

lemma plain_last (hindex : ∀ o ∈ outs.flatMap TokenRequestOutput.outputs, o.index < r.n) :
    ∃ b, (generateVllm d r false (outs.map TokenRequestOutput.forget)).1.getLast? = some b := by
  have hindex' : ∀ o ∈ (outs.flatMap TokenRequestOutput.outputs).map TokenOutput.toCompletionOutput,
      o.index < r.n := by
    intro o ho
    obtain ⟨p, hp, rfl⟩ := List.mem_map.mp ho
    exact hindex p hp
  rw [(generateVllm_runs d _ flatMap_forget hindex').2]
  exact ⟨_, rfl⟩

/-- The usage is that of the tokens exactly when every output brings one new token (and the prompt is
not left uncounted for want of any request output). -/
theorem bills_tokens_iff (d : BatchDefaults α) (r : GenerateRequest α) (prompt : List ℕ)
    (outs : List TokenRequestOutput) (hprompt : ∀ out ∈ outs, out.promptTokenIds = prompt)
    (h : CumulativeTokens r.n (outs.flatMap TokenRequestOutput.outputs)) :
    BillsTokens d r prompt outs ↔
      OneTokenEach (outs.flatMap TokenRequestOutput.outputs) ∧ (outs = [] → prompt = []) := by
  have hinput : (outs.head?.map (fun out => out.promptTokenIds.length)).getD 0 = prompt.length ↔
      (outs = [] → prompt = []) := by
    cases outs with
    | nil => simp [eq_comm]
    | cons out outs => simp [hprompt out List.mem_cons_self]
  rw [← (length_eq_totalTokens_iff h).2, ← hinput]
  constructor
  · intro hbills
    obtain ⟨b, hb⟩ := plain_last (d := d) h.index_lt
    have husage := (getLast_usage h.index_lt false hb).symm.trans (hbills false b hb)
    obtain ⟨hin, hout⟩ := Usage.mk.inj (Option.some.inj husage)
    exact ⟨hout, hin⟩
  · rintro ⟨hout, hin⟩ stream b hb
    rw [getLast_usage h.index_lt stream hb, hout, hin]

end Usage

def oneByOne : List TokenRequestOutput :=
  [⟨[5, 7, 9], [⟨⟨0, lit "The"⟩, [1]⟩]⟩, ⟨[5, 7, 9], [⟨⟨0, lit "The cat"⟩, [1, 2]⟩]⟩]

theorem oneByOne_billed : BillsTokens (⟨50, 1, 3⟩ : BatchDefaults ℕ) ⟨1, none, none, none⟩ [5, 7, 9]
    oneByOne := by
  have hnone : OneTokenEach [] := fun before o after hp => by simp at hp
  have hcumulative : CumulativeTokens 1 (oneByOne.flatMap TokenRequestOutput.outputs) := by
    refine (@cumulativeTokens_append 1 [⟨⟨0, lit "The"⟩, [1]⟩] _).mpr
       ⟨?_, by decide, by decide, by decide⟩
    exact (@cumulativeTokens_append 1 [] _).mpr
      ⟨cumulativeTokens_nil, by decide, by decide, by decide⟩
  have hone : OneTokenEach (oneByOne.flatMap TokenRequestOutput.outputs) := by
    refine (@oneTokenEach_append [⟨⟨0, lit "The"⟩, [1]⟩] _).mpr ⟨?_, by decide⟩
    exact (@oneTokenEach_append [] _).mpr ⟨hnone, by decide⟩
  exact (bills_tokens_iff _ ⟨1, none, none, none⟩ [5, 7, 9] oneByOne (by decide) hcumulative).mpr
    ⟨hone, by decide⟩

/-- Two new tokens in one output, as with a stream interval of two: one token is billed. -/
theorem twoAtOnce_billed_as_one :
    let outs : List TokenRequestOutput := [⟨[5, 7, 9], [⟨⟨0, lit "The cat"⟩, [1, 2]⟩]⟩]
    let d : BatchDefaults ℕ := ⟨50, 1, 3⟩
    CumulativeTokens 1 (outs.flatMap TokenRequestOutput.outputs) ∧
      totalTokens 1 (outs.flatMap TokenRequestOutput.outputs) = 2 ∧
      (generateVllm d ⟨1, none, none, none⟩ true (outs.map TokenRequestOutput.forget)).1.map
        Batch.usage = [some ⟨3, 1⟩] ∧
      ¬ BillsTokens d ⟨1, none, none, none⟩ [5, 7, 9] outs := by
  intro outs d
  have hlast : (generateVllm d ⟨1, none, none, none⟩ true
      (outs.map TokenRequestOutput.forget)).1 = [⟨[[lit "The cat"]], some ⟨3, 1⟩⟩] := by
    decide +kernel
  refine ⟨(@cumulativeTokens_append 1 [] _).mpr
    ⟨cumulativeTokens_nil, by decide, by decide, by decide⟩, by decide, by rw [hlast]; rfl, fun h => ?_⟩
  have husage := h true _ (congrArg List.getLast? hlast)
  exact absurd husage (by decide)

end GemmaWorker.Engine
