import GemmaWorker.Boot.SoundRuns

/-! Boots that take the marker in turn: every one of them reads a whole marker. -/

namespace GemmaWorker.Boot

open GemmaWorker.Python GemmaWorker.Library GemmaWorker.EngineArgs

section Statement

def isWriting : Phase → Bool
  | .writing _ _ => true
  | _ => false

def isReading : Phase → Bool
  | .reading _ => true
  | _ => false

def NoWriter (s : World) : Prop :=
  ∀ i, isWriting (s.runs i).phase = false

def NoReader (s : World) : Prop :=
  ∀ i, isReading (s.runs i).phase = false

/-- What a lock around the marker would give, held to the end of the write and never by a boot that missed
a download. -/
def Exclusive (s : World) (a : ℕ × Operation) : Prop :=
  match a.2 with
  | .check => NoWriter s
  | .openMarker => NoWriter s ∧ NoReader s ∧ (s.runs a.1).missed = false
  | .kill => isWriting (s.runs a.1).phase = false
  | _ => True

end Statement

section Invariant

variable {env : ℕ → Environ} {s t : World} {i : ℕ} {r : Run} {text content : PyStr}
  {items : List (PyStr × Value)} {written : ℕ}

/-- The metadata a boot is about to write is that of its own two downloads. -/
def OwnPaths (env : ℕ → Environ) (models tokenizers : List Download) (i : ℕ) (r : Run) : Prop :=
  match r.phase with
  | .downloadingTokenizer path => r.missed = false → ∃ p, path = some p ∧ modelDownload env i p ∈ models
  | .patching model tokenizer => r.missed = false → ∃ p q, model = some p ∧ tokenizer = some q ∧
      modelDownload env i p ∈ models ∧ tokenizerDownload env i q ∈ tokenizers
  | .opening items => r.missed = false → ∃ p q, items = runMetadata env i (some p) (some q) ∧
      modelDownload env i p ∈ models ∧ tokenizerDownload env i q ∈ tokenizers
  | _ => True

structure InTurn (env : ℕ → Environ) (s : World) : Prop where
  paths : ∀ i, OwnPaths env s.models s.tokenizers i (s.runs i)
  whole : NoWriter s → ∀ text ∈ s.marker, WholeText s text
  reader : ∀ i text, (s.runs i).phase = .reading text →
    NoWriter s ∧ ∃ content, s.marker = some content ∧ text <+: content
  writer : ∀ i items written, (s.runs i).phase = .writing items written →
    (∀ j, j ≠ i → isWriting (s.runs j).phase = false) ∧ WholeText s (jsonDumps (.dict items)) ∧
      s.marker = some ((jsonDumps (.dict items)).take written)

lemma WholeText.mono (h : WholeText s text) (hm : s.models ⊆ t.models) (hd : s.tokenizers ⊆ t.tokenizers) :
    WholeText t text := by
  obtain ⟨m, hmodel, d, htokenizer, htext⟩ := h
  exact ⟨m, hm hmodel, d, hd htokenizer, htext⟩

lemma OwnPaths.mono {models tokenizers ms ds : List Download} (h : OwnPaths env models tokenizers i r)
    (hm : models ⊆ ms) (hd : tokenizers ⊆ ds) : OwnPaths env ms ds i r := by
  obtain ⟨phase, missed, localArgs⟩ := r
  cases phase with
  | downloadingTokenizer path =>
    intro hr
    obtain ⟨p, hpath, hmodel⟩ := h hr
    exact ⟨p, hpath, hm hmodel⟩
  | patching model tokenizer =>
    intro hr
    obtain ⟨p, q, hp, hq, hmodel, htokenizer⟩ := h hr
    exact ⟨p, q, hp, hq, hm hmodel, hd htokenizer⟩
  | opening items =>
    intro hr
    obtain ⟨p, q, hitems, hmodel, htokenizer⟩ := h hr
    exact ⟨p, q, hitems, hm hmodel, hd htokenizer⟩
  | _ => trivial

lemma noWriter_of_others (h : ∀ j, j ≠ i → isWriting (s.runs j).phase = false)
    (hi : isWriting (s.runs i).phase = false) : NoWriter s := by
  intro j
  by_cases hj : j = i
  · subst hj
    exact hi
  · exact h j hj

lemma InTurn.keep (hs : InTurn env s) (hmarker : t.marker = s.marker)
    (hruns : t.runs = Function.update s.runs i r) (hm : s.models ⊆ t.models)
    (hd : s.tokenizers ⊆ t.tokenizers) (hpaths : OwnPaths env t.models t.tokenizers i r)
    (hw : isWriting r.phase = false)
    (hreader : ∀ text, r.phase = .reading text →
      NoWriter s ∧ ∃ content, s.marker = some content ∧ text <+: content)
    (hwhole : (∀ j, j ≠ i → isWriting (s.runs j).phase = false) → ∀ text ∈ s.marker, WholeText s text) :
    InTurn env t where
  paths j := by
    by_cases hj : j = i
    · subst hj
      rwa [hruns, Function.update_self]
    · rw [hruns, Function.update_of_ne hj]
      exact (hs.paths j).mono hm hd
  whole hnone text htext := by
    rw [hmarker] at htext
    refine (hwhole (fun j hj => ?_) text htext).mono hm hd
    have hother := hnone j
    rwa [hruns, Function.update_of_ne hj] at hother
  reader j text hp := by
    have hread : NoWriter s ∧ ∃ content, s.marker = some content ∧ text <+: content := by
      by_cases hj : j = i
      · subst hj
        rw [hruns, Function.update_self] at hp
        exact hreader text hp
      · rw [hruns, Function.update_of_ne hj] at hp
        exact hs.reader j text hp
    have hnone : NoWriter t := by
      intro k
      by_cases hk : k = i
      · subst hk
        rwa [hruns, Function.update_self]
      · rw [hruns, Function.update_of_ne hk]
        exact hread.1 k
    rw [hmarker]
    exact ⟨hnone, hread.2⟩
  writer j items written hp := by
    have hj : j ≠ i := by
      rintro rfl
      rw [hruns, Function.update_self] at hp
      rw [hp] at hw
      cases hw
    rw [hruns, Function.update_of_ne hj] at hp
    obtain ⟨hothers, hall, hcontent⟩ := hs.writer j items written hp
    rw [hmarker]
    refine ⟨fun k hk => ?_, hall.mono hm hd, hcontent⟩
    by_cases hki : k = i
    · subst hki
      rwa [hruns, Function.update_self]
    · rw [hruns, Function.update_of_ne hki]
      exact hothers k hk

lemma InTurn.aside (hs : InTurn env s) (hi : isWriting (s.runs i).phase = false)
    (hr : isReading r.phase = false ∧ isWriting r.phase = false) (hmarker : t.marker = s.marker)
    (hruns : t.runs = Function.update s.runs i r) (hm : s.models ⊆ t.models)
    (hd : s.tokenizers ⊆ t.tokenizers) (hpaths : OwnPaths env t.models t.tokenizers i r) :
    InTurn env t := by
  apply hs.keep hmarker hruns hm hd hpaths hr.2
  · intro text hp
    rw [hp] at hr
    cases hr.1
  · intro hothers
    exact hs.whole (noWriter_of_others hothers hi)

lemma InTurn.setPhase {p : Phase} (hs : InTurn env s) (hi : isWriting (s.runs i).phase = false)
    (hr : isReading p = false ∧ isWriting p = false)
    (hpaths : OwnPaths env s.models s.tokenizers i { s.runs i with phase := p }) :
    InTurn env (s.setPhase i p) :=
  hs.aside hi hr rfl rfl (List.Subset.refl _) (List.Subset.refl _) hpaths

lemma InTurn.notReading (hs : InTurn env s) (hi : (s.runs i).phase = .writing items written) (j : ℕ) :
    isReading (s.runs j).phase = false := by
  rw [isReading.eq_def]
  split
  · rename_i text hp
    have hnone := (hs.reader j text hp).1 i
    rw [hi] at hnone
    cases hnone
  · rfl

/-- The only writer, with no reader. -/
lemma InTurn.write (written : ℕ) (hs : InTurn env s)
    (hothers : ∀ j, j ≠ i → isWriting (s.runs j).phase = false ∧ isReading (s.runs j).phase = false)
    (hwhole : WholeText s (jsonDumps (.dict items))) :
    InTurn env ({ s with marker := some ((jsonDumps (.dict items)).take written) }.setPhase i
      (.writing items written)) where
  paths j := by
    by_cases hj : j = i
    · subst hj
      simp [World.setPhase, World.setRun, OwnPaths]
    · simpa [World.setPhase, World.setRun, hj] using hs.paths j
  whole hnone := by
    have hwriting := hnone i
    simp [World.setPhase, World.setRun, isWriting] at hwriting
  reader j text hp := by
    by_cases hj : j = i
    · subst hj
      simp [World.setPhase, World.setRun] at hp
    · have hread := (hothers j hj).2
      simp only [World.setPhase, World.setRun, Function.update_of_ne hj] at hp
      rw [hp] at hread
      cases hread
  writer j items' written' hp := by
    have hj : j = i := by
      by_contra hj
      have hwriting := (hothers j hj).1
      simp only [World.setPhase, World.setRun, Function.update_of_ne hj] at hp
      rw [hp] at hwriting
      cases hwriting
    subst hj
    simp only [World.setPhase, World.setRun, Function.update_self, Phase.writing.injEq] at hp
    obtain ⟨rfl, rfl⟩ := hp
    refine ⟨fun k hk => ?_, hwhole, rfl⟩
    simpa [World.setPhase, World.setRun, hk] using (hothers k hk).1

lemma inTurn_emptyVolume : InTurn env emptyVolume where
  paths _ := trivial
  whole _ := by simp [emptyVolume]
  reader i text hp := by simp [emptyVolume, freshRun] at hp
  writer i items written hp := by simp [emptyVolume, freshRun] at hp

/-- What is written at the writer's own offset comes right after what it has written so far. -/
lemma overwrite_take {whole : PyStr} (hw : written ≤ whole.length) (n : ℕ) :
    overwrite written ((whole.drop written).take n) (whole.take written) =
      whole.take (written + ((whole.drop written).take n).length) := by
  have hlen : (whole.take written).length = written := List.length_take_of_le hw
  have hdrop : (whole.take written).drop (written + ((whole.drop written).take n).length) = [] := by
    apply List.drop_eq_nil_of_le
    omega
  have hchunk : (whole.drop written).take ((whole.drop written).take n).length =
      (whole.drop written).take n := by
    rw [List.length_take, List.take_eq_take_iff]
    omega
  rw [overwrite, hlen, Nat.sub_self, List.replicate_zero, List.append_nil, hdrop, List.append_nil,
    List.take_add, hchunk, List.take_of_length_le hlen.le]

lemma InTurn.readsWhole (hs : InTurn env s) (a : ℕ × Operation) : ReadsWhole s a := by
  intro text htext
  rw [textRead] at htext
  split at htext
  · rename_i text' content hop hp hm
    split_ifs at htext with hend
    · obtain rfl := Option.some.inj htext
      obtain ⟨hnone, content', hcontent, hread⟩ := hs.reader a.1 text' hp
      obtain rfl := Option.some.inj (hm.symm.trans hcontent)
      rw [hread.eq_of_length_le hend]
      exact hs.whole hnone content hm
    · cases htext
  · cases htext

variable [Interpreter]

lemma InTurn.step {op : Operation} (hs : InTurn env s) (hex : Exclusive s (i, op))
    (h : operate env s i op = some t) : InTurn env t := by
  have hpaths := hs.paths i
  cases operates h with
  | check hp =>
    have hi : isWriting (s.runs i).phase = false := by rw [hp]; rfl
    refine hs.keep rfl rfl (List.Subset.refl _) (List.Subset.refl _) ?_ ?_ ?_ ?_
    · split_ifs <;> trivial
    · split_ifs <;> rfl
    · intro text htext
      split_ifs at htext with hm
      obtain ⟨content, hcontent⟩ := Option.isSome_iff_exists.mp hm
      cases htext
      exact ⟨hex, content, hcontent, List.nil_prefix⟩
    · intro hothers
      exact hs.whole (noWriter_of_others hothers hi)
  | readChunk hp hm =>
    have hi : isWriting (s.runs i).phase = false := by rw [hp]; rfl
    obtain ⟨hnone, content', hcontent, rest, rfl⟩ := hs.reader i _ hp
    obtain rfl := Option.some.inj (hm.symm.trans hcontent)
    refine hs.keep rfl rfl (List.Subset.refl _) (List.Subset.refl _) trivial rfl ?_ ?_
    · intro text' htext
      cases htext
      rw [List.drop_left]
      exact ⟨hnone, _, hm, (List.prefix_append_right_inj _).mpr (List.take_prefix _ _)⟩
    · intro hothers
      exact hs.whole (noWriter_of_others hothers hi)
  | readEnd hp =>
    refine hs.setPhase (by rw [hp]; rfl) ?_ ?_
    · rw [load]
      split <;> exact ⟨rfl, rfl⟩
    · rw [load]
      split <;> trivial
  | sync hp =>
    exact hs.aside (by rw [hp]; rfl) ⟨rfl, rfl⟩ rfl rfl (List.Subset.refl _) (List.Subset.refl _) trivial
  | missModel hp =>
    refine hs.aside (by rw [hp]; rfl) ⟨rfl, rfl⟩ rfl rfl (List.Subset.refl _) (List.Subset.refl _) ?_
    simp [OwnPaths]
  | model hp =>
    refine hs.aside (by rw [hp]; rfl) ⟨rfl, rfl⟩ rfl rfl (List.subset_cons_self _ _) (List.Subset.refl _) ?_
    exact fun _ => ⟨_, rfl, List.mem_cons_self⟩
  | missTokenizer hp =>
    refine hs.aside (by rw [hp]; rfl) ⟨rfl, rfl⟩ rfl rfl (List.Subset.refl _) (List.Subset.refl _) ?_
    simp [OwnPaths]
  | tokenizer hp =>
    rw [OwnPaths, hp] at hpaths
    refine hs.aside (by rw [hp]; rfl) ⟨rfl, rfl⟩ rfl rfl (List.Subset.refl _) (List.subset_cons_self _ _) ?_
    intro hr
    obtain ⟨p, rfl, hmodel⟩ := hpaths hr
    exact ⟨p, _, rfl, rfl, hmodel, List.mem_cons_self⟩
  | fail hp =>
    refine hs.setPhase ?_ ⟨rfl, rfl⟩ trivial
    rcases hp with hp | ⟨model, hp⟩ <;> rw [hp] <;> rfl
  | unpatched hp => exact hs.setPhase (by rw [hp]; rfl) ⟨rfl, rfl⟩ trivial
  | patch hp =>
    rw [OwnPaths, hp] at hpaths
    refine hs.setPhase (by rw [hp]; rfl) ⟨rfl, rfl⟩ ?_
    intro hr
    obtain ⟨p, q, rfl, rfl, hmodel, htokenizer⟩ := hpaths hr
    exact ⟨p, q, rfl, hmodel, htokenizer⟩
  | openMarker hp =>
    obtain ⟨hnone, hread, hr⟩ := hex
    rw [OwnPaths, hp] at hpaths
    obtain ⟨p, q, rfl, hmodel, htokenizer⟩ := hpaths hr
    have hwhole : WholeText s (jsonDumps (.dict (runMetadata env i (some p) (some q)))) :=
      ⟨_, hmodel, _, htokenizer, rfl⟩
    exact hs.write 0 (fun j _ => ⟨hnone j, hread j⟩) hwhole
  | @writeChunk n written items content hp hm hchunk =>
    obtain ⟨hothers, hwhole, hcontent⟩ := hs.writer i items written hp
    obtain rfl := Option.some.inj (hm.symm.trans hcontent)
    have hwritten : written ≤ (jsonDumps (.dict items)).length := by
      by_contra hlt
      rw [List.drop_eq_nil_of_le (by omega), List.take_nil] at hchunk
      exact hchunk rfl
    rw [overwrite_take hwritten]
    exact hs.write _ (fun j hj => ⟨hothers j hj, hs.notReading hp j⟩) hwhole
  | @closeMarker written items hp hlen =>
    obtain ⟨-, hwhole, hcontent⟩ := hs.writer i items written hp
    rw [List.take_of_length_le hlen] at hcontent
    refine hs.keep rfl rfl (List.Subset.refl _) (List.Subset.refl _) trivial rfl ?_ ?_
    · intro text htext
      cases htext
    · intro _ text htext
      obtain rfl := Option.some.inj (hcontent.symm.trans htext)
      exact hwhole
  | writeLocal hp =>
    exact hs.aside (by rw [hp]; rfl) ⟨rfl, rfl⟩ rfl rfl (List.Subset.refl _) (List.Subset.refl _) trivial
  | kill => exact hs.setPhase hex ⟨rfl, rfl⟩ trivial

end Invariant

variable [Interpreter] (env : ℕ → Environ) (as : List (ℕ × Operation))

theorem exclusive_reads_whole (h : (boots env).Guarded Exclusive emptyVolume as) :
    (boots env).Guarded ReadsWhole emptyVolume as :=
  h.imp inTurn_emptyVolume (fun _ _ _ hs hex ht => hs.step hex ht) fun _ a hs _ => hs.readsWhole a

/-- Boots that take the marker in turn never raise, whatever else is killed or interleaved. -/
theorem exclusive_boots_consistent (h : (boots env).Guarded Exclusive emptyVolume as) :
    (boots env).Always Consistent emptyVolume as :=
  (sound_run (exclusive_reads_whole env as h)).mono fun _ hs => hs.consistent

end GemmaWorker.Boot
