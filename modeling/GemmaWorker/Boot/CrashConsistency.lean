import GemmaWorker.Boot.SoundRuns

/-! Boots that are killed anywhere and interleaved in any way, as long as each reads a whole marker. -/

namespace GemmaWorker.Boot

open GemmaWorker.Python GemmaWorker.Library GemmaWorker.EngineArgs

section Statement

def Undisturbed (model tokenizer : PyStr) (vendored : Bool) : Operation → Prop
  | .downloadModel path => path = some model
  | .downloadTokenizer path => path = some tokenizer
  | .patch v => v = vendored
  | .downloadFail | .kill => False
  | _ => True

variable [Interpreter]

/-- Boot `i` can run alone to its end, and what it then returns names completed downloads. -/
def AloneReturns (env : ℕ → Environ) (i : ℕ) (model tokenizer : PyStr) (vendored : Bool) (s : World) : Prop :=
  ∃ t args, (boots env).Reach (fun _ a => a.1 = i ∧ Undisturbed model tokenizer vendored a.2) s t ∧
    (t.runs i).phase = .returned args ∧ NamesCompleted t.models t.tokenizers args

/-- A boot that starts now returns, whatever its downloads give, if the marker is absent or whole. -/
def LaterBootReturns (env : ℕ → Environ) (s : World) : Prop :=
  ∀ i model tokenizer vendored, s.runs i = freshRun → (∀ text ∈ s.marker, WholeText s text) →
    (modelDownload env i model).Valid = true → (tokenizerDownload env i tokenizer).Valid = true →
    AloneReturns env i model tokenizer vendored s

end Statement

section Alone

variable {env : ℕ → Environ} {s u : World} {i : ℕ} {r : Run} {p : Phase} {op : Operation} {args : Value}
  {items : List (PyStr × Value)} {written : ℕ} {text content model tokenizer : PyStr} {vendored : Bool}

@[simp] lemma setRun_runs : (s.setRun i r).runs i = r := by
  simp [World.setRun]

@[simp] lemma setPhase_phase : ((s.setPhase i p).runs i).phase = p := by
  simp [World.setPhase]

@[simp] lemma setPhase_missed : ((s.setPhase i p).runs i).missed = (s.runs i).missed := by
  simp [World.setPhase]

@[simp] lemma setPhase_marker : (s.setPhase i p).marker = s.marker := rfl

lemma reads_nothing (hp : ∀ text, (s.runs i).phase ≠ .reading text) : ReadsWhole s (i, op) := by
  intro text htext
  rw [textRead] at htext
  split at htext
  · exact absurd ‹_› (hp _)
  · cases htext

variable [Interpreter]

lemma alone_step (hs : Sound s) (hread : ReadsWhole s (i, op)) (h : operate env s i op = some u)
    (hop : Undisturbed model tokenizer vendored op)
    (hu : Sound u → AloneReturns env i model tokenizer vendored u) :
    AloneReturns env i model tokenizer vendored s := by
  obtain ⟨t, args, hr, ht⟩ := hu (operate_sound hs hread h)
  exact ⟨t, args, Relation.ReflTransGen.head ⟨(i, op), ⟨rfl, hop⟩, h⟩ hr, ht⟩

lemma alone_returned (hs : Sound s) (hr : (s.runs i).missed = false) (hp : (s.runs i).phase = .returned args) :
    AloneReturns env i model tokenizer vendored s :=
  ⟨s, args, Relation.ReflTransGen.refl, hp, (hs.consistent i hr).2 args hp⟩

lemma alone_syncing (hs : Sound s) (hr : (s.runs i).missed = false) (hp : (s.runs i).phase = .syncing args) :
    AloneReturns env i model tokenizer vendored s := by
  have h : operate env s i .sync =
      some (s.setRun i ⟨.returned args, (s.runs i).missed, some (jsonDumps args)⟩) := by
    simp [operate, hp]
  apply alone_step hs (reads_nothing (by simp [hp])) h trivial
  intro hu
  exact alone_returned hu (by rwa [setRun_runs]) (by rw [setRun_runs])

lemma alone_read (hs : Sound s) (hr : (s.runs i).missed = false) (hp : (s.runs i).phase = .reading text)
    (hm : s.marker = some text) (hw : WholeText s text) : AloneReturns env i model tokenizer vendored s := by
  have h : operate env s i .readEnd = some (s.setPhase i (load text)) := by
    simp [operate, hp, hm]
  apply alone_step hs (by simpa [ReadsWhole, textRead, hp, hm] using hw) h trivial
  intro hu
  obtain ⟨m, hmodel, d, htokenizer, rfl⟩ := hw
  rw [load_whole (hs.models m hmodel) (hs.tokenizers d htokenizer)] at hu ⊢
  exact alone_syncing hu (by rwa [setPhase_missed]) setPhase_phase

lemma alone_reading (hs : Sound s) (hr : (s.runs i).missed = false) (hp : (s.runs i).phase = .reading [])
    (hm : s.marker = some text) (hw : WholeText s text) : AloneReturns env i model tokenizer vendored s := by
  have hpos : 0 < text.length := by
    obtain ⟨m, -, d, -, rfl⟩ := hw
    rw [wholeText, jsonDumps, Value.text]
    exact Nat.succ_pos _
  have h : operate env s i (.readChunk text.length) = some (s.setPhase i (.reading text)) := by
    simp [operate, hp, hm, hpos, List.take_of_length_le]
  apply alone_step hs (by simp [ReadsWhole, textRead]) h trivial
  intro hu
  exact alone_read hu (by rwa [setPhase_missed]) setPhase_phase hm hw

lemma alone_writingLocal (hs : Sound s) (hr : (s.runs i).missed = false)
    (hp : (s.runs i).phase = .writingLocal items) : AloneReturns env i model tokenizer vendored s := by
  have h : operate env s i .writeLocal = some (s.setRun i
      ⟨.returned (.dict items), (s.runs i).missed, some (jsonDumps (.dict items))⟩) := by
    simp [operate, hp]
  apply alone_step hs (reads_nothing (by simp [hp])) h trivial
  intro hu
  exact alone_returned hu (by rwa [setRun_runs]) (by rw [setRun_runs])

lemma alone_written (hs : Sound s) (hr : (s.runs i).missed = false)
    (hp : (s.runs i).phase = .writing items written)
    (hlen : (jsonDumps (.dict items)).length ≤ written) : AloneReturns env i model tokenizer vendored s := by
  have h : operate env s i .closeMarker = some (s.setPhase i (.writingLocal items)) := by
    simp [operate, hp, hlen]
  apply alone_step hs (reads_nothing (by simp [hp])) h trivial
  intro hu
  exact alone_writingLocal hu (by rwa [setPhase_missed]) setPhase_phase

lemma alone_writing (hs : Sound s) (hr : (s.runs i).missed = false)
    (hp : (s.runs i).phase = .writing items written) (hm : s.marker = some content) :
    AloneReturns env i model tokenizer vendored s := by
  by_cases hlen : (jsonDumps (.dict items)).length ≤ written
  · exact alone_written hs hr hp hlen
  · have hchunk : ((jsonDumps (.dict items)).drop written).take ((jsonDumps (.dict items)).length + 1) =
        (jsonDumps (.dict items)).drop written := by
      apply List.take_of_length_le
      rw [List.length_drop]
      omega
    have h : operate env s i (.writeChunk (jsonDumps (.dict items)).length) = some
        ({ s with marker := some (overwrite written ((jsonDumps (.dict items)).drop written) content) }.setPhase i
          (.writing items (written + ((jsonDumps (.dict items)).drop written).length))) := by
      simp [operate, hp, hm, hchunk, hlen]
    apply alone_step hs (reads_nothing (by simp [hp])) h trivial
    intro hu
    refine alone_written hu (by rwa [setPhase_missed]) setPhase_phase ?_
    rw [List.length_drop]
    omega

lemma alone_opening (hs : Sound s) (hr : (s.runs i).missed = false)
    (hp : (s.runs i).phase = .opening items) : AloneReturns env i model tokenizer vendored s := by
  have h : operate env s i .openMarker = some ({ s with marker := some [] }.setPhase i (.writing items 0)) := by
    simp [operate, hp]
  apply alone_step hs (reads_nothing (by simp [hp])) h trivial
  intro hu
  exact alone_writing hu (by rwa [setPhase_missed]) setPhase_phase setPhase_marker

lemma alone_patching {path : Option PyStr} (hs : Sound s) (hr : (s.runs i).missed = false)
    (hp : (s.runs i).phase = .patching path (some tokenizer)) :
    AloneReturns env i model tokenizer vendored s := by
  have h : operate env s i (.patch vendored) =
      some (s.setPhase i (.opening (runMetadata env i path (some tokenizer)))) := by
    simp [operate, hp]
  apply alone_step hs (reads_nothing (by simp [hp])) h rfl
  intro hu
  exact alone_opening hu (by rwa [setPhase_missed]) setPhase_phase

lemma alone_downloadingTokenizer {path : Option PyStr} (hs : Sound s) (hr : (s.runs i).missed = false)
    (hp : (s.runs i).phase = .downloadingTokenizer path)
    (hd : (tokenizerDownload env i tokenizer).Valid = true) :
    AloneReturns env i model tokenizer vendored s := by
  have h : operate env s i (.downloadTokenizer (some tokenizer)) = some
      ({ s with tokenizers := tokenizerDownload env i tokenizer :: s.tokenizers }.setPhase i
        (.patching path (some tokenizer))) := by
    simp [operate, hp, hd]
  apply alone_step hs (reads_nothing (by simp [hp])) h rfl
  intro hu
  exact alone_patching hu (by rwa [setPhase_missed]) setPhase_phase

lemma alone_downloadingModel (hs : Sound s) (hr : (s.runs i).missed = false)
    (hp : (s.runs i).phase = .downloadingModel) (hm : (modelDownload env i model).Valid = true)
    (hd : (tokenizerDownload env i tokenizer).Valid = true) :
    AloneReturns env i model tokenizer vendored s := by
  have h : operate env s i (.downloadModel (some model)) = some
      ({ s with models := modelDownload env i model :: s.models }.setPhase i
        (.downloadingTokenizer (some model))) := by
    simp [operate, hp, hm]
  apply alone_step hs (reads_nothing (by simp [hp])) h rfl
  intro hu
  exact alone_downloadingTokenizer hu (by rwa [setPhase_missed]) setPhase_phase hd

lemma Sound.laterBootReturns (hs : Sound s) : LaterBootReturns env s := by
  intro i model tokenizer vendored hi hwhole hm hd
  have hp : (s.runs i).phase = .checking := by rw [hi, freshRun]
  have hr : (s.runs i).missed = false := by rw [hi, freshRun]
  have hreads : ReadsWhole s (i, .check) := reads_nothing (by simp [hp])
  cases hmarker : s.marker with
  | none =>
    have h : operate env s i .check = some (s.setPhase i .downloadingModel) := by
      simp [operate, hp, hmarker]
    apply alone_step hs hreads h trivial
    intro hu
    exact alone_downloadingModel hu (by rwa [setPhase_missed]) setPhase_phase hm hd
  | some text =>
    have h : operate env s i .check = some (s.setPhase i (.reading [])) := by
      simp [operate, hp, hmarker]
    apply alone_step hs hreads h trivial
    intro hu
    exact alone_reading hu (by rwa [setPhase_missed]) setPhase_phase hmarker (hwhole text hmarker)

end Alone

section Runs

variable (env : ℕ → Environ) (as : List (ℕ × Operation))

/-- As long as every boot that reads the marker reads a whole one, no kill and no interleaving does harm. -/
theorem crash_consistent [Interpreter] (h : (boots env).Guarded ReadsWhole emptyVolume as) :
    (boots env).Always (fun s => Consistent s ∧ LaterBootReturns env s) emptyVolume as :=
  (sound_run h).mono fun _ hs => ⟨hs.consistent, hs.laterBootReturns⟩

def noSettings (_ : ℕ) : Environ := fun _ => none

def firstBoot : List (ℕ × Operation) :=
  [(0, .check), (0, .downloadModel (some (lit "/m"))), (0, .downloadTokenizer (some (lit "/t"))),
    (0, .patch true), (0, .openMarker)]

def overlappingBoots : List (ℕ × Operation) :=
  (1, .check) :: firstBoot ++ [(1, .downloadModel (some (lit "/m"))), (0, .writeChunk 9), (1, .kill),
    (0, .writeChunk 99), (2, .check), (0, .closeMarker), (2, .readChunk 20), (0, .writeLocal),
    (2, .readChunk 99), (2, .readEnd), (2, .sync)]

theorem overlapping_boots_consistent :
    ((boots noSettings).exec emptyVolume overlappingBoots).isSome = true ∧
      (boots noSettings).Always (fun s => Consistent s ∧ LaterBootReturns noSettings s) emptyVolume
        overlappingBoots := by
  have h : (boots noSettings).Guarded ReadsWhole emptyVolume overlappingBoots := by decide +kernel
  exact ⟨by decide +kernel, crash_consistent noSettings overlappingBoots h⟩

/-- Killed between the truncation of the marker and the first byte of its text. -/
def tornBoot : List (ℕ × Operation) :=
  firstBoot ++ [(0, .kill), (1, .check), (1, .readEnd)]

def hasRaised (r : Run) : Bool :=
  match r.phase with
  | .raised => !r.missed
  | _ => false

lemma not_consistent_of_raised {s : World} {i : ℕ} (h : hasRaised (s.runs i) = true) : ¬ Consistent s := by
  intro hs
  rw [hasRaised] at h
  split at h
  · exact (hs i (by simpa using h)).1 ‹_›
  · cases h

theorem torn_boot_raises :
    ∃ s, (boots noSettings).exec emptyVolume tornBoot = some s ∧ ¬ Consistent s := by
  have h : ((boots noSettings).exec emptyVolume tornBoot).any (fun s => hasRaised (s.runs 1)) = true := by
    decide +kernel
  obtain ⟨s, hs, hraised⟩ := (Option.any_eq_true _ _).mp h
  exact ⟨s, hs, not_consistent_of_raised hraised⟩

end Runs

end GemmaWorker.Boot
