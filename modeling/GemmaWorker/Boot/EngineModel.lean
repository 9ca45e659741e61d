import GemmaWorker.Boot.CrashConsistency
import GemmaWorker.EngineArgs.KnownArguments

/-! From the volume to the engine: a boot leaves a file from which `get_engine_args` takes the model, the
tokenizer and their revisions, over whatever the environment names. -/

namespace GemmaWorker.Boot

open GemmaWorker.Python GemmaWorker.Library GemmaWorker.EngineArgs

section Statement

def recorded (model tokenizer : Download) : Value :=
  .dict (metadata (some model.path) model.revision (some tokenizer.path) tokenizer.revision)

/-- `/local_model_args.json` of the container that the boot ran in. -/
def localFile (r : Run) : LocalArgsFile :=
  match r.localArgs with
  | none => .absent
  | some text => .text text

def engineEntries (model tokenizer : Download) : List (PyStr × Option PyStr) :=
  [(lit "model", some model.path), (lit "revision", model.revision), (lit "tokenizer", some tokenizer.path),
    (lit "tokenizer_revision", tokenizer.revision)]

/-- Each known argument that the two downloads give a text for is that text, unless it is one of those that
stand for nothing. -/
def Serves (fields : EngineFields) (model tokenizer : Download) (args : Dict) : Prop :=
  ∀ entry ∈ engineEntries model tokenizer, ∀ v ∈ entry.2, isSentinel (.str v) = false →
    entry.1 ∈ fields.names → args.lookup entry.1 = some (.str v)

end Statement

section Reading

variable {rt : Runtime} {fields : EngineFields} {env : Environ} {entries : List (PyStr × Option PyStr)}
  {m t : Download} {args : Dict} {file : LocalArgsFile}

/-- No two entries are for one argument, so each supplies its own. -/
lemma localLayer_present (hnodup : (entries.map fun kv => localTarget rt kv.1).Nodup) {k v : PyStr}
    (h : (k, some v) ∈ entries) (hv : isSentinel (.str v) = false) :
    localLayer rt (present entries) (localTarget rt k) = some (.str v) := by
  have hne : v ≠ [] := by
    rintro rfl
    cases hv
  have hmem : (k, Value.str v) ∈ present entries := List.mem_filterMap.mpr ⟨(k, some v), h, by simp [hne]⟩
  rw [localLayer]
  cases hfind : (present entries).reverse.find?
      (fun kv => localTarget rt kv.1 = localTarget rt k && !isSentinel kv.2) with
  | none =>
    have hno := List.find?_eq_none.mp hfind _ (List.mem_reverse.mpr hmem)
    simp [hv] at hno
  | some kv =>
    have htarget : localTarget rt kv.1 = localTarget rt k := by
      have hsome := List.find?_some hfind
      simp only [Bool.and_eq_true, decide_eq_true_eq] at hsome
      exact hsome.1
    obtain ⟨⟨k', o⟩, hentry, hkv⟩ := List.mem_filterMap.mp (List.mem_reverse.mp (List.mem_of_find?_eq_some hfind))
    obtain ⟨w, hw, rfl⟩ := Option.map_eq_some_iff.mp hkv
    obtain ⟨rfl, -⟩ := Option.filter_eq_some_iff.mp hw
    obtain ⟨-, hwv⟩ := Prod.mk.inj (List.inj_on_of_nodup_map hnodup hentry h htarget)
    obtain rfl := Option.some.inj hwv
    rfl

lemma localTarget_alias {k target : PyStr} (h : envAliases.lookup k = some target) :
    localTarget rt k = target := by
  rw [localTarget, h]

lemma engineEntries_eq (hlower : rt.lower (lit "TOKENIZER_REVISION") = lit "tokenizer_revision") :
    engineEntries m t = (metadataEntries (some m.path) m.revision (some t.path) t.revision).map
      fun kv => (localTarget rt kv.1, kv.2) := by
  have hmodel : localTarget rt (lit "MODEL_NAME") = lit "model" := localTarget_alias (by decide)
  have hrevision : localTarget rt (lit "MODEL_REVISION") = lit "revision" := localTarget_alias (by decide)
  have htokenizer : localTarget rt (lit "TOKENIZER_NAME") = lit "tokenizer" := localTarget_alias (by decide)
  have hother : localTarget rt (lit "TOKENIZER_REVISION") = lit "tokenizer_revision" := by
    have hnone : envAliases.lookup (lit "TOKENIZER_REVISION") = none := by decide
    have hdash : (lit "tokenizer_revision").map (fun c => if c = ch '-' then ch '_' else c) =
        lit "tokenizer_revision" := by decide
    rw [localTarget, hnone]
    simp only [hlower, hdash]
  simp only [engineEntries, metadataEntries, List.map_cons, List.map_nil, hmodel, hrevision, htokenizer, hother]

lemma engineEntries_nodup : ((engineEntries m t).map Prod.fst).Nodup := by
  simp [engineEntries, lit_inj]

lemma Serves.model (h : Serves fields m t args) (hpath : isSentinel (.str m.path) = false)
    (hknown : lit "model" ∈ fields.names) : args.get (lit "model") = .str m.path := by
  have hlookup : args.lookup (lit "model") = some (.str m.path) :=
    h (lit "model", some m.path) List.mem_cons_self m.path rfl hpath hknown
  rw [Dict.get, hlookup]
  rfl

variable [Interpreter]

lemma getLocalArgs_recorded (hm : m.Valid = true) (ht : t.Valid = true) :
    getLocalArgs (.text (jsonDumps (recorded m t))) =
      some (metadata (some m.path) m.revision (some t.path) t.revision) := by
  have hload := load_whole hm ht
  rw [load, wholeText] at hload
  rw [recorded, getLocalArgs]
  split at hload
  · rename_i args hargs
    obtain rfl := Phase.syncing.inj hload
    rw [hargs]
  · cases hload

/-- No special case touches these arguments. -/
lemma lookup_engineEntry (h : getEngineArgs rt fields env file = some args) {entry : PyStr × Option PyStr}
    (hentry : entry ∈ engineEntries m t) : args.lookup entry.1 = layered rt fields env file entry.1 := by
  rw [lookup_getEngineArgs h]
  simp only [engineEntries, List.mem_cons, List.not_mem_nil, or_false] at hentry
  rcases hentry with rfl | rfl | rfl | rfl <;> simp [lateOverride, normalised, lit_inj]

lemma serves_of_recorded (hm : m.Valid = true) (ht : t.Valid = true)
    (hlower : rt.lower (lit "TOKENIZER_REVISION") = lit "tokenizer_revision")
    (h : getEngineArgs rt fields env (.text (jsonDumps (recorded m t))) = some args) :
    Serves fields m t args := by
  intro entry hentry v hv hsentinel hknown
  rw [lookup_engineEntry h hentry]
  have hnodup : ((metadataEntries (some m.path) m.revision (some t.path) t.revision).map
      fun kv => localTarget rt kv.1).Nodup := by
    have hkeys := @engineEntries_nodup m t
    rwa [engineEntries_eq hlower, List.map_map] at hkeys
  rw [engineEntries_eq hlower] at hentry
  obtain ⟨⟨k, o⟩, hmem, rfl⟩ := List.mem_map.mp hentry
  obtain rfl : o = some v := hv
  have hlocal := localLayer_present hnodup hmem hsentinel
  rw [layered, bakedItems, getLocalArgs_recorded hm ht, Option.getD_some, supplied, if_pos hknown, layers,
    List.findSome?_cons, metadata, hlocal]
  simp [hsentinel]

end Reading

section Runs

variable {env : ℕ → Environ} {s u : World} {i : ℕ} {r : Run} {models tokenizers : List Download} {m t : Download}

def Backed (models tokenizers : List Download) (args : Value) : Prop :=
  ∃ m ∈ models, ∃ t ∈ tokenizers, args = recorded m t

/-- What a boot holds at each place comes from its own downloads or from a whole marker. -/
def Known (env : ℕ → Environ) (models tokenizers : List Download) (i : ℕ) (r : Run) : Prop :=
  match r.phase with
  | .downloadingTokenizer model => r.missed = false → ∃ p, model = some p ∧ modelDownload env i p ∈ models
  | .patching model tokenizer => r.missed = false → ∃ p q, model = some p ∧ tokenizer = some q ∧
      modelDownload env i p ∈ models ∧ tokenizerDownload env i q ∈ tokenizers
  | .opening items => r.missed = false → Backed models tokenizers (.dict items)
  | .writing items _ => r.missed = false → Backed models tokenizers (.dict items)
  | .writingLocal items => r.missed = false → Backed models tokenizers (.dict items)
  | .syncing args => Backed models tokenizers args
  | .returned args => r.localArgs = some (jsonDumps args) ∧ (r.missed = false → Backed models tokenizers args)
  | _ => True

def AllKnown (env : ℕ → Environ) (s : World) : Prop :=
  ∀ i, Known env s.models s.tokenizers i (s.runs i)

lemma Backed.mono {ms ts : List Download} {args : Value} (h : Backed models tokenizers args) (hm : models ⊆ ms)
    (ht : tokenizers ⊆ ts) : Backed ms ts args := by
  obtain ⟨m, hmem, t, htem, rfl⟩ := h
  exact ⟨m, hm hmem, t, ht htem, rfl⟩

lemma Known.mono {ms ts : List Download} (h : Known env models tokenizers i r) (hm : models ⊆ ms)
    (ht : tokenizers ⊆ ts) : Known env ms ts i r := by
  obtain ⟨phase, missed, localArgs⟩ := r
  cases phase with
  | downloadingTokenizer model =>
    intro hr
    obtain ⟨p, hp, hmodel⟩ := h hr
    exact ⟨p, hp, hm hmodel⟩
  | patching model tokenizer =>
    intro hr
    obtain ⟨p, q, hp, hq, hmodel, htokenizer⟩ := h hr
    exact ⟨p, q, hp, hq, hm hmodel, ht htokenizer⟩
  | opening items => exact fun hr => (h hr).mono hm ht
  | writing items written => exact fun hr => (h hr).mono hm ht
  | writingLocal items => exact fun hr => (h hr).mono hm ht
  | syncing args => exact Backed.mono h hm ht
  | returned args => exact ⟨h.1, fun hr => (h.2 hr).mono hm ht⟩
  | _ => trivial

lemma AllKnown.advance (hs : AllKnown env s) (hruns : u.runs = Function.update s.runs i r)
    (hm : s.models ⊆ u.models) (ht : s.tokenizers ⊆ u.tokenizers)
    (hr : Known env u.models u.tokenizers i r) : AllKnown env u := by
  intro j
  by_cases hj : j = i
  · subst hj
    rwa [hruns, Function.update_self]
  · rw [hruns, Function.update_of_ne hj]
    exact (hs j).mono hm ht

lemma AllKnown.setRun (hs : AllKnown env s) (hr : Known env s.models s.tokenizers i r) :
    AllKnown env (s.setRun i r) :=
  hs.advance rfl (List.Subset.refl _) (List.Subset.refl _) hr

variable [Interpreter]

lemma load_known (hs : Sound s) {text : PyStr} (hw : WholeText s text) (missed : Bool) (localArgs : Option PyStr) :
    Known env s.models s.tokenizers i ⟨load text, missed, localArgs⟩ := by
  obtain ⟨m, hm, t, ht, rfl⟩ := hw
  rw [load_whole (hs.models m hm) (hs.tokenizers t ht)]
  exact ⟨m, hm, t, ht, rfl⟩

lemma operate_known {op : Operation} (hs : Sound s) (hk : AllKnown env s) (hread : ReadsWhole s (i, op))
    (h : operate env s i op = some u) : AllKnown env u := by
  have hrun := hk i
  cases operates h with
  | check =>
    apply hk.setRun
    cases s.marker <;> trivial
  | readChunk => exact hk.setRun trivial
  | readEnd hp hm hend =>
    apply hk.setRun
    exact load_known hs (hread _ (by simp [textRead, hp, hm, hend])) _ _
  | sync hp =>
    rw [Known, hp] at hrun
    exact hk.setRun ⟨rfl, fun _ => hrun⟩
  | missModel => exact hk.setRun (by simp [Known])
  | model hp hv =>
    refine hk.advance rfl (List.subset_cons_self _ _) (List.Subset.refl _) ?_
    exact fun _ => ⟨_, rfl, List.mem_cons_self⟩
  | missTokenizer hp => exact hk.setRun (by simp [Known])
  | tokenizer hp hv =>
    rw [Known, hp] at hrun
    refine hk.advance rfl (List.Subset.refl _) (List.subset_cons_self _ _) ?_
    intro hr
    obtain ⟨p, rfl, hmodel⟩ := hrun hr
    exact ⟨p, _, rfl, rfl, hmodel, List.mem_cons_self⟩
  | fail => exact hk.setRun trivial
  | unpatched => exact hk.setRun trivial
  | patch hp =>
    rw [Known, hp] at hrun
    apply hk.setRun
    intro hr
    obtain ⟨p, q, rfl, rfl, hmodel, htokenizer⟩ := hrun hr
    exact ⟨_, hmodel, _, htokenizer, rfl⟩
  | openMarker hp =>
    rw [Known, hp] at hrun
    exact hk.advance rfl (List.Subset.refl _) (List.Subset.refl _) hrun
  | writeChunk hp =>
    rw [Known, hp] at hrun
    exact hk.advance rfl (List.Subset.refl _) (List.Subset.refl _) hrun
  | closeMarker hp =>
    rw [Known, hp] at hrun
    exact hk.setRun hrun
  | writeLocal hp =>
    rw [Known, hp] at hrun
    exact hk.setRun ⟨rfl, hrun⟩
  | kill => exact hk.setRun trivial

lemma known_run {as : List (ℕ × Operation)} (hread : (boots env).Guarded ReadsWhole emptyVolume as)
    (he : (boots env).exec emptyVolume as = some s) : Sound s ∧ AllKnown env s := by
  refine hread.invariant (I := fun s => Sound s ∧ AllKnown env s) he ⟨sound_emptyVolume, fun _ => trivial⟩ ?_
  rintro s ⟨i, op⟩ u ⟨hs, hk⟩ hok h
  exact ⟨operate_sound hs hok h, operate_known hs hk hok h⟩

end Runs

section Overlap

def servingFields : EngineFields where
  items := [(lit "model", .simple (.scalar .str)), (lit "tokenizer", .union [.scalar .str, .noneType])]
  nodup := by decide

def otherModel : Environ :=
  environ [(lit "MODEL_NAME", lit "other")]

def hasReturned (r : Run) : Bool :=
  match r.phase with
  | .returned _ => !r.missed
  | _ => false

lemma builds_otherModel {file : LocalArgsFile} {items : List (PyStr × Value)}
    (h : getLocalArgs file = some items) :
    ∃ args, getEngineArgs oneGpu servingFields otherModel file = some args := by
  rw [builds_iff]
  apply builds_of_unset (environ_shallow (by decide)) h <;> simp [lit_inj]

end Overlap

section Pinning

variable {env : ℕ → Environ} {s u : World} {i : ℕ} {r : Run} {m t : Download}

/-- Where a boot that has found the marker can be, or one that is done with it. -/
def KeepsOff : Phase → Prop
  | .downloadingModel | .downloadingTokenizer _ | .patching _ _ | .opening _ | .writing _ _ => False
  | _ => True

/-- The marker is whole and no boot is on its way to write it. -/
structure Settled (m t : Download) (s : World) : Prop where
  marker : s.marker = some (wholeText m t)
  off : ∀ i, KeepsOff (s.runs i).phase

def FromMarker (m t : Download) (r : Run) : Prop :=
  match r.phase with
  | .checking | .killed => True
  | .reading text => text <+: wholeText m t
  | .syncing args => args = recorded m t
  | .returned args => args = recorded m t ∧ r.localArgs = some (wholeText m t)
  | _ => False

/-- What stays as it is from `s` on: the volume, and what the boots of `late` can get from it. -/
structure Pinned (m t : Download) (late : ℕ → Prop) (s u : World) : Prop where
  settled : Settled m t u
  models : u.models = s.models
  tokenizers : u.tokenizers = s.tokenizers
  runs : ∀ i, late i → FromMarker m t (u.runs i)

variable {late : ℕ → Prop}

lemma Pinned.advance (hs : Pinned m t late s u) (hoff : KeepsOff r.phase)
    (hr : late i → FromMarker m t r) : Pinned m t late s (u.setRun i r) where
  settled := by
    refine ⟨hs.settled.marker, fun j => ?_⟩
    by_cases hj : j = i
    · subst hj
      simpa [World.setRun] using hoff
    · simpa [World.setRun, hj] using hs.settled.off j
  models := hs.models
  tokenizers := hs.tokenizers
  runs j hj := by
    by_cases hji : j = i
    · subst hji
      simpa [World.setRun] using hr hj
    · simpa [World.setRun, hji] using hs.runs j hj

variable [Interpreter]

/-- A marker that cannot be read makes no boot write it anew. -/
lemma keepsOff_load (text : PyStr) : KeepsOff (load text) := by
  rw [load]
  cases jsonLoads text <;> trivial

lemma Pinned.step {op : Operation} {v : World} (hm : m.Valid = true) (ht : t.Valid = true)
    (hs : Pinned m t late s u) (h : operate env u i op = some v) : Pinned m t late s v := by
  have hoff := hs.settled.off i
  have hrun := hs.runs i
  rw [FromMarker] at hrun
  cases operates h with
  | check =>
    rw [hs.settled.marker]
    exact hs.advance trivial fun _ => List.nil_prefix
  | readChunk hp hcontent =>
    obtain rfl := Option.some.inj (hs.settled.marker.symm.trans hcontent)
    rw [hp] at hrun
    refine hs.advance trivial fun hi => ?_
    obtain ⟨rest, hrest⟩ := hrun hi
    change _ <+: wholeText m t
    rw [← hrest, List.drop_left]
    exact (List.prefix_append_right_inj _).mpr (List.take_prefix _ _)
  | @readEnd text content hp hcontent hend =>
    obtain rfl := Option.some.inj (hs.settled.marker.symm.trans hcontent)
    rw [hp] at hrun
    refine hs.advance (keepsOff_load text) fun hi => ?_
    rw [(hrun hi).eq_of_length_le hend, load_whole hm ht]
    rfl
  | sync hp =>
    rw [hp] at hrun
    refine hs.advance trivial fun hi => ?_
    obtain rfl := hrun hi
    exact ⟨rfl, rfl⟩
  | writeLocal hp =>
    rw [hp] at hrun
    exact hs.advance trivial fun hi => (hrun hi).elim
  | fail hp =>
    rcases hp with hp | ⟨model, hp⟩
    · rw [hp] at hoff
      exact hoff.elim
    · rw [hp] at hoff
      exact hoff.elim
  | kill => exact hs.advance trivial fun _ => trivial
  | missModel hp | model hp | missTokenizer hp | tokenizer hp
  | unpatched hp | patch hp | openMarker hp | writeChunk hp | closeMarker hp =>
    rw [hp] at hoff
    exact hoff.elim

/-- Once the marker is whole and no boot is about to write it, the volume stays as it is in every run, and
every boot that starts then gives the engine the recorded model, whatever its own environment asks for. -/
theorem volume_pins_model {as : List (ℕ × Operation)} (hm : m.Valid = true) (ht : t.Valid = true)
    (hs : Settled m t s) (he : (boots env).exec s as = some u) :
    u.marker = s.marker ∧ u.models = s.models ∧ u.tokenizers = s.tokenizers ∧
      ∀ i, s.runs i = freshRun → FromMarker m t (u.runs i) ∧
        ∀ returned, (u.runs i).phase = .returned returned →
          ∀ (rt : Runtime) (fields : EngineFields) (env' : Environ) (args : Dict),
            rt.lower (lit "TOKENIZER_REVISION") = lit "tokenizer_revision" →
            getEngineArgs rt fields env' (localFile (u.runs i)) = some args → Serves fields m t args := by
  have hstart : Pinned m t (fun i => s.runs i = freshRun) s s := by
    refine ⟨hs, rfl, rfl, fun i hi => ?_⟩
    rw [hi]
    trivial
  have hpinned := Machine.exec_invariant he hstart fun v a w hv hn => hv.step hm ht hn
  refine ⟨hpinned.settled.marker.trans hs.marker.symm, hpinned.models, hpinned.tokenizers, fun i hi => ?_⟩
  have hfrom := hpinned.runs i hi
  refine ⟨hfrom, fun returned hp rt fields env' args hlower h => ?_⟩
  rw [FromMarker, hp] at hfrom
  rw [localFile, hfrom.2] at h
  exact serves_of_recorded hm ht hlower h

end Pinning

section Cached

def cachedModel : Download := ⟨lit "gemma", none, lit "/m"⟩

def cachedTokenizer : Download := ⟨lit "gemma", none, lit "/t"⟩

def cachedVolume : World :=
  ⟨some (wholeText cachedModel cachedTokenizer), [cachedModel], [cachedTokenizer], fun _ => freshRun⟩

def bootFromCache : List (ℕ × Operation) :=
  [(0, .check), (0, .readChunk 20), (0, .readChunk 99), (0, .readEnd), (0, .sync)]

theorem boot_from_cache_pinned : ∃ u args, (boots fun _ => otherModel).exec cachedVolume bootFromCache = some u ∧
    u.models = [cachedModel] ∧ getEngineArgs oneGpu servingFields otherModel (localFile (u.runs 0)) = some args ∧
    args.get (lit "model") = .str (lit "/m") := by
  have hend : ((boots fun _ => otherModel).exec cachedVolume bootFromCache).any
      (fun u => hasReturned (u.runs 0)) = true := by decide +kernel
  have hm : cachedModel.Valid = true := by decide +kernel
  have ht : cachedTokenizer.Valid = true := by decide +kernel
  have hsettled : Settled cachedModel cachedTokenizer cachedVolume := ⟨rfl, fun _ => trivial⟩
  obtain ⟨u, he, hreturned⟩ := (Option.any_eq_true _ _).mp hend
  rw [hasReturned] at hreturned
  split at hreturned
  · rename_i returned hp
    obtain ⟨-, hmodels, -, hruns⟩ := volume_pins_model hm ht hsettled he
    obtain ⟨hfrom, hserves⟩ := hruns 0 rfl
    rw [FromMarker, hp] at hfrom
    have hfile : localFile (u.runs 0) = .text (wholeText cachedModel cachedTokenizer) := by
      rw [localFile, hfrom.2]
    have hread : getLocalArgs (localFile (u.runs 0)) = some (metadata (some cachedModel.path) cachedModel.revision
        (some cachedTokenizer.path) cachedTokenizer.revision) := by
      rw [hfile]
      exact getLocalArgs_recorded hm ht
    obtain ⟨args, hargs⟩ := builds_otherModel hread
    refine ⟨u, args, he, hmodels, hargs, ?_⟩
    exact (hserves returned hp oneGpu servingFields otherModel args (by decide) hargs).model (by decide)
      (by decide)
  · cases hreturned

end Cached

end GemmaWorker.Boot
