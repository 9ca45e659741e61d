import GemmaWorker.Python.Text

/-! `download`: one call of `snapshot_download` after the other, until something of the call's pattern
set stands in the snapshot directory. -/

namespace GemmaWorker.Boot

open GemmaWorker.Python

section Patterns

/-- `fnmatch` for the one wildcard of the patterns here; it takes the `/` of a path too. -/
def fnmatch : PyStr → PyStr → Bool
  | [], s => s.isEmpty
  | p :: ps, s =>
    if p = ch '*' then s.tails.any (fnmatch ps)
    else match s with
    | [] => false
    | c :: t => c = p && fnmatch ps t

def tokenizerSet : List PyStr := [lit "*.json", lit "tokenizer*"]

def tokenizerPatterns : List (List PyStr) := [tokenizerSet]

def modelPatterns : List (List PyStr) := [[lit "*.safetensors"], [lit "*.bin"], [lit "*.pt"]]

def modelSets : List (List PyStr) :=
  modelPatterns.map (· ++ tokenizerSet)

/-- The file or directory of the snapshot directory that the file is or lies in. -/
def entry (f : PyStr) : PyStr :=
  f.takeWhile (· ≠ ch '/')

/-- `*` matches no name that starts with a dot. -/
def shown (pattern f : PyStr) : Bool :=
  (entry f).head? ≠ some (ch '.') && fnmatch pattern (entry f)

def glob (present : List PyStr) (pattern : PyStr) : Bool :=
  present.any (shown pattern)

def isWeight (f : PyStr) : Bool :=
  modelPatterns.any (fun set => set.any (fun p => fnmatch p f))

end Patterns

section Calls

/-- From the patterns and the files in the snapshot directory to the directory and its files after the
call. -/
abbrev SnapshotDownload :=
  PyStr → Option PyStr → PyStr → List PyStr → List PyStr → Except PyError (PyStr × List PyStr)

variable (snapshotDownload : SnapshotDownload) (name : PyStr) (revision : Option PyStr) (cacheDir : PyStr)

def trySets : List (List PyStr) → List PyStr → Except PyError (Option PyStr × List PyStr)
  | [], present => .ok (none, present)
  | set :: sets, present =>
    match snapshotDownload name revision cacheDir set present with
    | .error e => .error e
    | .ok (path, present) =>
      if set.any (glob present) then .ok (some path, present) else trySets sets present

/-- Each kind of `ValueError` is raised anew as one. -/
def raisedAnew : PyError → PyError
  | .jsonDecodeError => .valueError
  | .unicodeEncodeError => .valueError
  | e => e

def download (type : PyStr) (present : List PyStr) : Except PyError (Option PyStr × List PyStr) :=
  if type = lit "model" then
    (trySets snapshotDownload name revision cacheDir modelSets present).mapError raisedAnew
  else if type = lit "tokenizer" then
    (trySets snapshotDownload name revision cacheDir tokenizerPatterns present).mapError raisedAnew
  else .error .valueError

end Calls

section Outcome

/-- The files in the snapshot directory after the calls with these pattern sets. -/
def Fetched (files present : List PyStr) (sets : List (List PyStr)) (f : PyStr) : Prop :=
  f ∈ present ∨ f ∈ files ∧ ∃ set ∈ sets, ∃ p ∈ set, fnmatch p f = true

/-- What `snapshot_download` does for one revision of a repository. -/
def Materialises (snapshotDownload : SnapshotDownload) (name : PyStr) (revision : Option PyStr)
    (cacheDir : PyStr) (files : List PyStr) : Prop :=
  ∀ set present, ∃ path present', snapshotDownload name revision cacheDir set present =
    .ok (path, present') ∧ ∀ f, f ∈ present' ↔ Fetched files present [set] f

def Shows (files present : List PyStr) (sets : List (List PyStr)) (set : List PyStr) : Prop :=
  ∃ f, Fetched files present sets f ∧ ∃ p ∈ set, shown p f = true

/-- The first pattern set of which something stands in the directory once it is fetched. -/
structure FirstShown (files present : List PyStr) (sets tried : List (List PyStr)) (set : List PyStr) :
    Prop where
  split : ∃ rest, sets = tried ++ set :: rest
  shows : Shows files present (tried ++ [set]) set
  before : ∀ a s b, tried = a ++ s :: b → ¬ Shows files present (a ++ [s]) s

variable {snapshotDownload : SnapshotDownload} {name : PyStr} {revision : Option PyStr} {cacheDir : PyStr}
variable {files present : List PyStr} {sets tried : List (List PyStr)} {set : List PyStr}

lemma fetched_cons {present' : List PyStr} (h : ∀ f, f ∈ present' ↔ Fetched files present [set] f)
    (f : PyStr) : Fetched files present' sets f ↔ Fetched files present (set :: sets) f := by
  simp only [Fetched, h, List.mem_cons, List.not_mem_nil, or_false, exists_eq_left, exists_eq_or_imp]
  rw [or_assoc, ← and_or_left]

lemma shows_cons {present' : List PyStr} (h : ∀ f, f ∈ present' ↔ Fetched files present [set] f)
    (s : List PyStr) : Shows files present' sets s ↔ Shows files present (set :: sets) s := by
  simp only [Shows, fetched_cons h]

lemma glob_iff {present' : List PyStr} (h : ∀ f, f ∈ present' ↔ Fetched files present [set] f) :
    set.any (glob present') = true ↔ Shows files present [set] set := by
  simp only [List.any_eq_true, glob, Shows, h]
  exact ⟨fun ⟨p, hp, f, hf, hs⟩ => ⟨f, hf, p, hp, hs⟩, fun ⟨f, hf, p, hp, hs⟩ => ⟨p, hp, f, hf, hs⟩⟩

lemma trySets_stops (hfetch : Materialises snapshotDownload name revision cacheDir files)
    (h : FirstShown files present sets tried set) : ∃ path present',
      trySets snapshotDownload name revision cacheDir sets present = .ok (some path, present') ∧
        ∀ f, f ∈ present' ↔ Fetched files present (tried ++ [set]) f := by
  obtain ⟨⟨rest, rfl⟩, hshows, hbefore⟩ := h
  induction tried generalizing present with
  | nil =>
    obtain ⟨path, present', hcall, hpresent⟩ := hfetch set present
    refine ⟨path, present', ?_, hpresent⟩
    rw [List.nil_append, trySets, hcall]
    simp only [if_pos ((glob_iff hpresent).mpr hshows)]
  | cons s tried ih =>
    obtain ⟨path, present', hcall, hpresent⟩ := hfetch s present
    have hno : ¬ Shows files present [s] s := hbefore [] s tried rfl
    have hlater : ∀ a t b, tried = a ++ t :: b → ¬ Shows files present' (a ++ [t]) t := by
      rintro a t b rfl
      rw [shows_cons hpresent]
      exact hbefore (s :: a) t b rfl
    obtain ⟨path', final, hrun, hfinal⟩ := ih ((shows_cons hpresent set).mpr hshows) hlater
    refine ⟨path', final, ?_, fun f => (hfinal f).trans (fetched_cons hpresent f)⟩
    rw [List.cons_append, trySets, hcall]
    simp only [if_neg (mt (glob_iff hpresent).mp hno)]
    exact hrun

lemma trySets_path (hfetch : Materialises snapshotDownload name revision cacheDir files)
    {path : PyStr} {final : List PyStr}
    (h : trySets snapshotDownload name revision cacheDir sets present = .ok (some path, final)) :
    ∃ tried set, FirstShown files present sets tried set ∧
      ∀ f, f ∈ final ↔ Fetched files present (tried ++ [set]) f := by
  induction sets generalizing present with
  | nil => cases h
  | cons s sets ih =>
    obtain ⟨path', present', hcall, hpresent⟩ := hfetch s present
    rw [trySets, hcall] at h
    simp only at h
    split_ifs at h with hshown
    · cases h
      refine ⟨[], s, ⟨⟨sets, rfl⟩, (glob_iff hpresent).mp hshown, ?_⟩, hpresent⟩
      intro a t b hab
      exact absurd hab (by simp)
    · obtain ⟨tried, set, hfirst, hfinal⟩ := ih h
      obtain ⟨⟨rest, rfl⟩, hshows, hbefore⟩ := hfirst
      refine ⟨s :: tried, set, ⟨⟨rest, rfl⟩, (shows_cons hpresent set).mp hshows, ?_⟩,
        fun f => (hfinal f).trans (fetched_cons hpresent f)⟩
      intro a t b hab
      cases a with
      | nil =>
        obtain ⟨rfl, -⟩ := List.cons.inj hab
        exact mt (glob_iff hpresent).mpr hshown
      | cons u a =>
        obtain ⟨rfl, htried⟩ := List.cons.inj hab
        have hno := hbefore a t b htried
        rwa [shows_cons hpresent] at hno

end Outcome

section Weights

variable (snapshotDownload : SnapshotDownload) (name : PyStr) (revision : Option PyStr) (cacheDir : PyStr)

/-- The formats are tried in order up to one with which a weight file is there, and without any in the
repository there is an exception. -/
def WeightsThere (files present : List PyStr) : Prop :=
  ((∃ f ∈ files, isWeight f = true) → ∃ tried path final, tried <+: modelSets ∧
    download snapshotDownload name revision cacheDir (lit "model") present = .ok (some path, final) ∧
    (∀ f, f ∈ final ↔ Fetched files present tried f) ∧ ∃ f ∈ final, isWeight f = true) ∧
  ((∀ f ∈ files, isWeight f = false) →
    download snapshotDownload name revision cacheDir (lit "model") present = .error .valueError)

/-- A weight file is fetched by the first call of which anything shows. -/
def WeightFetchedFirst (files present : List PyStr) : Prop :=
  ∃ tried set, FirstShown files present modelSets tried set ∧
    ∃ f, Fetched files present (tried ++ [set]) f ∧ isWeight f = true

lemma download_model (present : List PyStr) :
    download snapshotDownload name revision cacheDir (lit "model") present =
      (trySets snapshotDownload name revision cacheDir modelSets present).mapError raisedAnew :=
  if_pos rfl

lemma trySets_ok {files : List PyStr}
    (hfetch : Materialises snapshotDownload name revision cacheDir files) (sets : List (List PyStr))
    (present : List PyStr) :
    ∃ r, trySets snapshotDownload name revision cacheDir sets present = .ok r := by
  induction sets generalizing present with
  | nil => exact ⟨_, rfl⟩
  | cons s sets ih =>
    obtain ⟨path, present', hcall, -⟩ := hfetch s present
    rw [trySets, hcall]
    simp only
    split_ifs
    · exact ⟨_, rfl⟩
    · exact ih present'

/-- The weights are there exactly when the repository has some and one is fetched by the first call of
which anything shows. -/
theorem weights_there_iff (files present : List PyStr)
    (hfetch : Materialises snapshotDownload name revision cacheDir files) :
    WeightsThere snapshotDownload name revision cacheDir files present ↔
      (∃ f ∈ files, isWeight f = true) ∧ WeightFetchedFirst files present := by
  rw [WeightsThere, download_model]
  constructor
  · rintro ⟨hsome, hnone⟩
    have hweight : ∃ f ∈ files, isWeight f = true := by
      by_contra hno
      obtain ⟨r, hr⟩ := trySets_ok snapshotDownload name revision cacheDir hfetch modelSets present
      have hraise := hnone fun f hf => by simpa using fun hw => hno ⟨f, hf, hw⟩
      rw [hr] at hraise
      cases hraise
    refine ⟨hweight, ?_⟩
    obtain ⟨_, path, final, -, hrun, -, f, hf, hw⟩ := hsome hweight
    obtain ⟨r, hr⟩ := trySets_ok snapshotDownload name revision cacheDir hfetch modelSets present
    have hpath : trySets snapshotDownload name revision cacheDir modelSets present =
        .ok (some path, final) := by
      rw [hr] at hrun ⊢
      simpa [Except.mapError] using hrun
    obtain ⟨tried, set, hfirst, hfinal⟩ := trySets_path hfetch hpath
    exact ⟨tried, set, hfirst, f, (hfinal f).mp hf, hw⟩
  · rintro ⟨⟨f, hf, hw⟩, tried, set, hfirst, g, hg, hgw⟩
    refine ⟨fun _ => ?_, fun hno => absurd (hno f hf) (by simp [hw])⟩
    obtain ⟨path, final, hrun, hfinal⟩ := trySets_stops hfetch hfirst
    have hprefix : tried ++ [set] <+: modelSets := by
      obtain ⟨rest, hrest⟩ := hfirst.split
      exact ⟨rest, by simp [hrest]⟩
    refine ⟨tried ++ [set], path, final, hprefix, ?_, hfinal, g, (hfinal g).mpr hg, hgw⟩
    rw [hrun, Except.mapError]

end Weights

section Example

/-- The snapshot directory of one revision, with a repository's files that match. -/
def hub (files : List PyStr) : SnapshotDownload := fun _ _ _ set present =>
  .ok (lit "/models/snapshot", present ++ files.filter (fun f => set.any (fun p => fnmatch p f)))

lemma hub_materialises (name : PyStr) (revision : Option PyStr) (cacheDir : PyStr) (files : List PyStr) :
    Materialises (hub files) name revision cacheDir files := by
  intro set present
  refine ⟨_, _, rfl, fun f => ?_⟩
  simp [Fetched]

theorem safetensors_there : WeightsThere (hub [lit "config.json", lit "model.safetensors"]) (lit "gemma")
    none (lit "/cache") [lit "config.json", lit "model.safetensors"] [] := by
  have hweight : isWeight (lit "model.safetensors") = true := by decide +kernel
  have hmatch : fnmatch (lit "*.safetensors") (lit "model.safetensors") = true := by decide +kernel
  have hshown : shown (lit "*.safetensors") (lit "model.safetensors") = true := by decide +kernel
  have hfetched : Fetched [lit "config.json", lit "model.safetensors"] []
      [lit "*.safetensors" :: tokenizerSet] (lit "model.safetensors") :=
    Or.inr ⟨by simp, _, List.mem_singleton_self _, _, List.mem_cons_self, hmatch⟩
  apply (weights_there_iff _ _ _ _ _ _ (hub_materialises _ _ _ _)).mpr
  refine ⟨⟨_, by simp, hweight⟩, [], lit "*.safetensors" :: tokenizerSet, ⟨⟨_, rfl⟩, ?_, ?_⟩,
    _, hfetched, hweight⟩
  · exact ⟨_, hfetched, _, List.mem_cons_self, hshown⟩
  · intro a s b hab
    exact absurd hab (by simp)

/-- The configuration is fetched with the first format, so that the second is never tried; and without
weights the configuration alone is taken for the model. -/
theorem config_taken_for_weights :
    let files := [lit "config.json", lit "pytorch_model.bin"]
    (∃ f ∈ files, isWeight f = true) ∧
      download (hub files) (lit "gemma") none (lit "/cache") (lit "model") [] =
        .ok (some (lit "/models/snapshot"), [lit "config.json"]) ∧
      ¬ WeightsThere (hub files) (lit "gemma") none (lit "/cache") files [] := by
  intro files
  have hweight : isWeight (lit "pytorch_model.bin") = true := by decide +kernel
  have hconfig : isWeight (lit "config.json") = false := by decide +kernel
  have hrun : download (hub files) (lit "gemma") none (lit "/cache") (lit "model") [] =
      .ok (some (lit "/models/snapshot"), [lit "config.json"]) := by
    decide +kernel
  refine ⟨⟨_, by simp [files], hweight⟩, hrun, ?_⟩
  rintro ⟨hsome, -⟩
  obtain ⟨_, path, final, -, hrun', -, f, hf, hw⟩ := hsome ⟨_, by simp [files], hweight⟩
  cases hrun.symm.trans hrun'
  obtain rfl := List.mem_singleton.mp hf
  exact absurd hw (by simp [hconfig])

end Example

end GemmaWorker.Boot
