import GemmaWorker.Boot.Marker

/-! What each boot knows of the completed downloads, kept by every operation that reads a whole marker. -/

namespace GemmaWorker.Boot

open GemmaWorker.Python GemmaWorker.Library GemmaWorker.EngineArgs

section Statement

def NamesCompleted (models tokenizers : List Download) (args : Value) : Prop :=
  ∃ items, args = .dict items ∧ (∃ d ∈ models, dictGet items (lit "MODEL_NAME") .none = .str d.path) ∧
    ∃ d ∈ tokenizers, dictGet items (lit "TOKENIZER_NAME") .none = .str d.path

/-- A boot that no download left without a path has not raised, and what it returned names completed
downloads. -/
def Consistent (s : World) : Prop :=
  ∀ i, (s.runs i).missed = false → (s.runs i).phase ≠ .raised ∧
    ∀ args, (s.runs i).phase = .returned args → NamesCompleted s.models s.tokenizers args

def WholeText (s : World) (text : PyStr) : Prop :=
  ∃ model ∈ s.models, ∃ tokenizer ∈ s.tokenizers, text = wholeText model tokenizer

instance (s : World) (text : PyStr) : Decidable (WholeText s text) :=
  inferInstanceAs (Decidable (∃ model ∈ s.models, ∃ tokenizer ∈ s.tokenizers, _))

def textRead (s : World) (a : ℕ × Operation) : Option PyStr :=
  match a.2, (s.runs a.1).phase, s.marker with
  | .readEnd, .reading text, some content => if content.length ≤ text.length then some text else none
  | _, _, _ => none

def ReadsWhole (s : World) (a : ℕ × Operation) : Prop :=
  ∀ text ∈ textRead s a, WholeText s text

instance (s : World) (a : ℕ × Operation) : Decidable (ReadsWhole s a) :=
  inferInstanceAs (Decidable (∀ text ∈ textRead s a, WholeText s text))

end Statement

section Invariant

variable {env : ℕ → Environ} {s t : World} {i : ℕ} {r : Run} {models tokenizers : List Download}

def PathOf (downloads : List Download) (path : Option PyStr) : Prop :=
  ∃ d ∈ downloads, path = some d.path

/-- What a boot knows at each place; one that missed a download promises nothing. -/
def RunSound (models tokenizers : List Download) (r : Run) : Prop :=
  match r.phase with
  | .downloadingTokenizer model => r.missed = false → PathOf models model
  | .patching model tokenizer => r.missed = false → PathOf models model ∧ PathOf tokenizers tokenizer
  | .opening items => r.missed = false → NamesCompleted models tokenizers (.dict items)
  | .writing items _ => r.missed = false → NamesCompleted models tokenizers (.dict items)
  | .writingLocal items => r.missed = false → NamesCompleted models tokenizers (.dict items)
  | .syncing args => NamesCompleted models tokenizers args
  | .returned args => r.missed = false → NamesCompleted models tokenizers args
  | .raised => r.missed = true
  | _ => True

structure Sound (s : World) : Prop where
  models : ∀ d ∈ s.models, d.Valid = true
  tokenizers : ∀ d ∈ s.tokenizers, d.Valid = true
  runs : ∀ i, RunSound s.models s.tokenizers (s.runs i)

lemma NamesCompleted.mono {ms ts : List Download} {args : Value} (h : NamesCompleted models tokenizers args)
    (hm : models ⊆ ms) (ht : tokenizers ⊆ ts) : NamesCompleted ms ts args := by
  obtain ⟨items, hargs, ⟨m, hm', hmodel⟩, t, ht', htokenizer⟩ := h
  exact ⟨items, hargs, ⟨m, hm hm', hmodel⟩, t, ht ht', htokenizer⟩

lemma PathOf.mono {ds : List Download} {path : Option PyStr} (h : PathOf models path) (hd : models ⊆ ds) :
    PathOf ds path := by
  obtain ⟨d, hm, hpath⟩ := h
  exact ⟨d, hd hm, hpath⟩

lemma RunSound.mono {ms ts : List Download} (h : RunSound models tokenizers r) (hm : models ⊆ ms)
    (ht : tokenizers ⊆ ts) : RunSound ms ts r := by
  obtain ⟨phase, missed, localArgs⟩ := r
  cases phase with
  | downloadingTokenizer model => exact fun hr => (h hr).mono hm
  | patching model tokenizer => exact fun hr => ⟨(h hr).1.mono hm, (h hr).2.mono ht⟩
  | opening items => exact fun hr => (h hr).mono hm ht
  | writing items written => exact fun hr => (h hr).mono hm ht
  | writingLocal items => exact fun hr => (h hr).mono hm ht
  | syncing args => exact NamesCompleted.mono h hm ht
  | returned args => exact fun hr => (h hr).mono hm ht
  | _ => exact h

lemma Sound.setRun (hs : Sound s) (hr : RunSound s.models s.tokenizers r) : Sound (s.setRun i r) where
  models := hs.models
  tokenizers := hs.tokenizers
  runs j := by
    by_cases hj : j = i
    · subst hj
      simpa [World.setRun] using hr
    · simpa [World.setRun, hj] using hs.runs j

lemma Sound.addModel (hs : Sound s) {d : Download} (hd : d.Valid = true) :
    Sound { s with models := d :: s.models } where
  models := by simpa using ⟨hd, hs.models⟩
  tokenizers := hs.tokenizers
  runs j := (hs.runs j).mono (List.subset_cons_self d s.models) (List.Subset.refl _)

lemma Sound.addTokenizer (hs : Sound s) {d : Download} (hd : d.Valid = true) :
    Sound { s with tokenizers := d :: s.tokenizers } where
  models := hs.models
  tokenizers := by simpa using ⟨hd, hs.tokenizers⟩
  runs j := (hs.runs j).mono (List.Subset.refl _) (List.subset_cons_self d s.tokenizers)

lemma Sound.setMarker (hs : Sound s) (content : PyStr) : Sound { s with marker := some content } where
  models := hs.models
  tokenizers := hs.tokenizers
  runs := hs.runs

lemma sound_emptyVolume : Sound emptyVolume where
  models := by simp [emptyVolume]
  tokenizers := by simp [emptyVolume]
  runs _ := trivial

lemma valid_path {d : Download} (h : d.Valid = true) : d.path ≠ [] := by
  simp only [Download.Valid, Bool.and_eq_true, decide_eq_true_eq] at h
  exact h.1.1

lemma metadata_completed (hs : Sound s) {m d : Download} (hm : m ∈ s.models) (hd : d ∈ s.tokenizers)
    (mr tr : Option PyStr) :
    NamesCompleted s.models s.tokenizers (.dict (metadata (some m.path) mr (some d.path) tr)) :=
  ⟨_, rfl, ⟨m, hm, metadata_model _ _ _ (valid_path (hs.models m hm))⟩, d, hd,
    metadata_tokenizer _ _ _ (valid_path (hs.tokenizers d hd))⟩

lemma Sound.consistent (hs : Sound s) : Consistent s := by
  intro i hr
  have hrun := hs.runs i
  rw [RunSound] at hrun
  constructor
  · intro hp
    rw [hp] at hrun
    exact Bool.noConfusion (hr.symm.trans hrun)
  · intro args hp
    rw [hp] at hrun
    exact hrun hr

variable [Interpreter]

lemma load_sound (hs : Sound s) {text : PyStr} (hw : WholeText s text) (missed : Bool)
    (localArgs : Option PyStr) : RunSound s.models s.tokenizers ⟨load text, missed, localArgs⟩ := by
  obtain ⟨m, hm, d, hd, rfl⟩ := hw
  rw [load_whole (hs.models m hm) (hs.tokenizers d hd)]
  exact metadata_completed hs hm hd _ _

lemma operate_sound {op : Operation} (hs : Sound s) (hread : ReadsWhole s (i, op))
    (h : operate env s i op = some t) : Sound t := by
  have hrun := hs.runs i
  cases operates h with
  | check =>
    apply hs.setRun
    cases s.marker <;> trivial
  | readChunk => exact hs.setRun trivial
  | readEnd hp hm hend =>
    apply hs.setRun
    exact load_sound hs (hread _ (by simp [textRead, hp, hm, hend])) _ _
  | sync hp =>
    rw [RunSound, hp] at hrun
    exact hs.setRun fun _ => hrun
  | missModel => exact hs.setRun (by simp [RunSound])
  | model hp hv =>
    apply (hs.addModel hv).setRun
    exact fun _ => ⟨_, List.mem_cons_self, rfl⟩
  | missTokenizer => exact hs.setRun (by simp [RunSound])
  | tokenizer hp hv =>
    rw [RunSound, hp] at hrun
    apply (hs.addTokenizer hv).setRun
    exact fun hr => ⟨hrun hr, _, List.mem_cons_self, rfl⟩
  | fail => exact hs.setRun trivial
  | unpatched hp =>
    rw [RunSound, hp] at hrun
    apply hs.setRun
    -- only a missed download leaves the tokenizer without a path
    by_contra hr
    obtain ⟨-, d, -, hd⟩ := hrun (by simpa [RunSound] using hr)
    cases hd
  | patch hp =>
    rw [RunSound, hp] at hrun
    apply hs.setRun
    intro hr
    obtain ⟨⟨m, hm, rfl⟩, d, hd, rfl⟩ := hrun hr
    exact metadata_completed hs hm hd _ _
  | openMarker hp =>
    rw [RunSound, hp] at hrun
    exact (hs.setMarker []).setRun hrun
  | writeChunk hp =>
    rw [RunSound, hp] at hrun
    exact (hs.setMarker _).setRun hrun
  | closeMarker hp =>
    rw [RunSound, hp] at hrun
    exact hs.setRun hrun
  | writeLocal hp =>
    rw [RunSound, hp] at hrun
    exact hs.setRun hrun
  | kill => exact hs.setRun trivial

lemma sound_run {as : List (ℕ × Operation)} (h : (boots env).Guarded ReadsWhole emptyVolume as) :
    (boots env).Always Sound emptyVolume as :=
  h.always sound_emptyVolume fun _ _ _ hs hread ht => operate_sound hs hread ht

end Invariant

end GemmaWorker.Boot
