import GemmaWorker.Engine.BatchSize
import GemmaWorker.Python.Text
import Mathlib.Data.List.Sort

/-! `vLLMEngine._generate_vllm`: the loop over the request outputs of vLLM, streaming and not. -/

namespace GemmaWorker.Engine

open Python

section Model

structure CompletionOutput where
  index : ℕ
  text : PyStr

structure RequestOutput where
  promptTokenIds : List ℕ
  outputs : List CompletionOutput

structure BatchDefaults (α : Type) where
  defaultBatchSize : α
  minBatchSize : α
  batchSizeGrowthFactor : α

structure GenerateRequest (α : Type) where
  n : ℕ
  batchSize : Option α
  batchSizeGrowthFactor : Option α
  minBatchSize : Option α

structure Usage where
  input : ℕ
  output : ℕ
deriving DecidableEq

/-- The tokens of each choice; the usage is set right before the batch is yielded. -/
structure Batch where
  choices : List (List PyStr)
  usage : Option Usage
deriving DecidableEq

/-- An output whose index is no choice ends the generator with an `IndexError`. -/
inductive Ending
  | exhausted
  | indexError
deriving DecidableEq

variable {α : Type} [LT α] [DecidableLT α] [LE α] [DecidableLE α] [Mul α] [One α] [NatCast α]
variable [Zero α] [DecidableEq α]

def orDefault (setting : Option α) (dflt : α) : α :=
  match setting with
  | some a => if a = 0 then dflt else a
  | none => dflt

structure GenerateLoop (α : Type) where
  isFirstOutput : Bool
  nInputTokens : ℕ
  lastOutputTexts : List PyStr
  tokens : List (List PyStr)
  batchCounter : ℕ
  totalCounter : ℕ
  batchSize : BatchSize α

variable (d : BatchDefaults α) (r : GenerateRequest α) (stream : Bool)

def emptyChoices (n : ℕ) : List (List PyStr) :=
  List.replicate n []

def GenerateLoop.init : GenerateLoop α where
  isFirstOutput := true
  nInputTokens := 0
  lastOutputTexts := List.replicate r.n []
  tokens := emptyChoices r.n
  batchCounter := 0
  totalCounter := 0
  batchSize := .init (orDefault r.batchSize d.defaultBatchSize) (orDefault r.minBatchSize d.minBatchSize)
    (orDefault r.batchSizeGrowthFactor d.batchSizeGrowthFactor)

def GenerateLoop.countInput (st : GenerateLoop α) (out : RequestOutput) : GenerateLoop α :=
  if st.isFirstOutput then { st with nInputTokens := out.promptTokenIds.length, isFirstOutput := false } else st

def GenerateLoop.batch (st : GenerateLoop α) : Batch :=
  ⟨st.tokens, some ⟨st.nInputTokens, st.totalCounter⟩⟩

def takeText (st : GenerateLoop α) (o : CompletionOutput) (last : PyStr) : GenerateLoop α :=
  { st with
    tokens := st.tokens.modify o.index (fun ts => ts ++ [o.text.drop last.length])
    batchCounter := st.batchCounter + 1
    totalCounter := st.totalCounter + 1
    lastOutputTexts := st.lastOutputTexts.set o.index o.text }

def nextBatch (n : ℕ) (st : GenerateLoop α) : GenerateLoop α :=
  { st with tokens := emptyChoices n, batchCounter := 0, batchSize := st.batchSize.update }

/-- The batch yielded at an output and the loop behind it, or none when the index is no choice. -/
def takeOutput (st : GenerateLoop α) (o : CompletionOutput) : Option (List Batch × GenerateLoop α) :=
  st.lastOutputTexts[o.index]?.map (fun last =>
    if stream then
      let st := takeText st o last
      if st.batchSize.reached st.batchCounter then ([st.batch], nextBatch r.n st) else ([], st)
    else
      ([], { st with
        totalCounter := st.totalCounter + 1
        lastOutputTexts := st.lastOutputTexts.set o.index o.text }))

def outputLoop : GenerateLoop α → List CompletionOutput → List Batch × Option (GenerateLoop α)
  | st, [] => ([], some st)
  | st, o :: outs =>
    match takeOutput r stream st o with
    | none => ([], none)
    | some (ys, st) => (ys ++ (outputLoop st outs).1, (outputLoop st outs).2)

def requestLoop : GenerateLoop α → List RequestOutput → List Batch × Option (GenerateLoop α)
  | st, [] => ([], some st)
  | st, out :: outs =>
    match outputLoop r stream (st.countInput out) out.outputs with
    | (ys, none) => (ys, none)
    | (ys, some st) => (ys ++ (requestLoop st outs).1, (requestLoop st outs).2)

def finalBatch (st : GenerateLoop α) : List Batch :=
  let st := if stream then st else
    { st with tokens := st.lastOutputTexts.map (fun t => [t]), batchCounter := st.batchCounter + 1 }
  if 0 < st.batchCounter then [st.batch] else []

def generateVllm (outs : List RequestOutput) : List Batch × Ending :=
  match requestLoop r stream (.init d r) outs with
  | (ys, some st) => (ys ++ finalBatch stream st, .exhausted)
  | (ys, none) => (ys, .indexError)

end Model

section Outputs

variable {α : Type} [LT α] [DecidableLT α] [LE α] [DecidableLE α] [Mul α] [NatCast α]
variable (r : GenerateRequest α) (stream : Bool)

lemma outputLoop_append (st : GenerateLoop α) (xs ys : List CompletionOutput) :
    outputLoop r stream st (xs ++ ys) =
      match outputLoop r stream st xs with
      | (bs, none) => (bs, none)
      | (bs, some st) => (bs ++ (outputLoop r stream st ys).1, (outputLoop r stream st ys).2) := by
  induction xs generalizing st with
  | nil => simp [outputLoop]
  | cons o xs ih =>
    cases ho : takeOutput r stream st o with
    | none => simp [outputLoop, ho]
    | some next =>
      obtain ⟨bs, st⟩ := next
      simp only [List.cons_append, outputLoop, ho, ih st]
      rcases outputLoop r stream st xs with ⟨cs, _ | st'⟩
      · rfl
      · simp

lemma takeOutput_keeps {st : GenerateLoop α} {o : CompletionOutput} {ys : List Batch} {st' : GenerateLoop α}
    (h : takeOutput r stream st o = some (ys, st')) :
    st'.isFirstOutput = st.isFirstOutput ∧ st'.lastOutputTexts.length = st.lastOutputTexts.length := by
  obtain ⟨last, _, hlast⟩ := Option.map_eq_some_iff.mp h
  have hset : (st.lastOutputTexts.set o.index o.text).length = st.lastOutputTexts.length :=
    List.length_set ..
  split_ifs at hlast with hs
  · by_cases hfull : (takeText st o last).batchSize.reached (takeText st o last).batchCounter
    · simp only [hfull, if_true] at hlast
      obtain ⟨-, rfl⟩ := Prod.mk.inj hlast
      exact ⟨rfl, hset⟩
    · simp only [hfull] at hlast
      obtain ⟨-, rfl⟩ := Prod.mk.inj hlast
      exact ⟨rfl, hset⟩
  · obtain ⟨-, rfl⟩ := Prod.mk.inj hlast
    exact ⟨rfl, hset⟩

/-- What every output leaves as it is, the loop over the outputs does too. -/
lemma outputLoop_keeps {β : Type} (f : GenerateLoop α → β)
    (hstep : ∀ {st o ys st'}, takeOutput r stream st o = some (ys, st') → f st' = f st)
    {st : GenerateLoop α} {outs : List CompletionOutput} {ys : List Batch} {st' : GenerateLoop α}
    (h : outputLoop r stream st outs = (ys, some st')) : f st' = f st := by
  induction outs generalizing st ys with
  | nil =>
    obtain ⟨-, h⟩ := Prod.mk.inj h
    obtain rfl := Option.some.inj h
    rfl
  | cons o outs ih =>
    cases ho : takeOutput r stream st o with
    | none => simp [outputLoop, ho] at h
    | some next =>
      obtain ⟨bs, st₁⟩ := next
      simp only [outputLoop, ho] at h
      have hrest : outputLoop r stream st₁ outs = ((outputLoop r stream st₁ outs).1, some st') :=
        Prod.ext rfl (Prod.mk.inj h).2
      rw [ih hrest, hstep ho]

omit [LT α] [DecidableLT α] [LE α] [DecidableLE α] [Mul α] [NatCast α] in
lemma countInput_of_counted {st : GenerateLoop α} (h : st.isFirstOutput = false) (out : RequestOutput) :
    st.countInput out = st := by
  rw [GenerateLoop.countInput, if_neg (by simp [h])]

lemma requestLoop_flat {st : GenerateLoop α} (h : st.isFirstOutput = false) (outs : List RequestOutput) :
    requestLoop r stream st outs = outputLoop r stream st (outs.flatMap RequestOutput.outputs) := by
  induction outs generalizing st with
  | nil => rfl
  | cons out outs ih =>
    rw [requestLoop, countInput_of_counted h, List.flatMap_cons, outputLoop_append]
    rcases hout : outputLoop r stream st out.outputs with ⟨bs, _ | st'⟩
    · rfl
    · have hkept := outputLoop_keeps r stream GenerateLoop.isFirstOutput
        (fun h => (takeOutput_keeps r stream h).1) hout
      have hst : st'.isFirstOutput = false := hkept.trans h
      simp only [ih hst]

lemma requestLoop_init {st : GenerateLoop α} (h : st.isFirstOutput = true) (out : RequestOutput)
    (outs : List RequestOutput) : requestLoop r stream st (out :: outs) =
      outputLoop r stream (st.countInput out) ((out :: outs).flatMap RequestOutput.outputs) := by
  have hcounted : (st.countInput out).isFirstOutput = false := by simp [GenerateLoop.countInput, h]
  have hflat := requestLoop_flat r stream hcounted (out :: outs)
  rwa [requestLoop, countInput_of_counted hcounted] at hflat

end Outputs

end GemmaWorker.Engine
