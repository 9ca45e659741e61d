import GemmaWorker.Boot.ModelCache
import GemmaWorker.EngineArgs.Layers

/-! The text of the marker and the metadata that is read back from it. -/

namespace GemmaWorker.Boot

open GemmaWorker.Python GemmaWorker.Library GemmaWorker.EngineArgs

section Texts

def wholeText (model tokenizer : Download) : PyStr :=
  jsonDumps (.dict (metadata (some model.path) model.revision (some tokenizer.path) tokenizer.revision))

end Texts

section Metadata

variable {entries : List (PyStr × Option PyStr)}

lemma present_cons (entries : List (PyStr × Option PyStr)) (kv : PyStr × Option PyStr) :
    present (kv :: entries) = present entries ∨
      ∃ s, kv.2 = some s ∧ s ≠ [] ∧ present (kv :: entries) = (kv.1, .str s) :: present entries := by
  obtain ⟨k, o⟩ := kv
  cases o with
  | none => exact Or.inl rfl
  | some s =>
    by_cases hs : s = []
    · subst hs
      exact Or.inl rfl
    · exact Or.inr ⟨s, rfl, hs, by simp [present, hs]⟩

lemma present_keys : ((present entries).map Prod.fst).Sublist (entries.map Prod.fst) := by
  induction entries with
  | nil => exact List.Sublist.refl []
  | cons kv entries ih =>
    rcases present_cons entries kv with h | ⟨s, -, -, h⟩
    · rw [h]
      exact ih.trans (List.sublist_cons_self _ _)
    · rw [h]
      exact ih.cons_cons kv.1

lemma present_joinless (hkeys : ∀ kv ∈ entries, joinless kv.1 = true)
    (htexts : ∀ kv ∈ entries, ∀ s ∈ kv.2, joinless s = true) : JoinlessMembers (present entries) := by
  intro kv hkv
  obtain ⟨⟨k, o⟩, hmem, hkv⟩ := List.mem_filterMap.mp hkv
  obtain ⟨s, hs, rfl⟩ := Option.map_eq_some_iff.mp hkv
  obtain ⟨hs, -⟩ := Option.filter_eq_some_iff.mp hs
  exact ⟨hkeys _ hmem, s, rfl, htexts _ hmem s hs⟩

lemma present_get (hnodup : (entries.map Prod.fst).Nodup) {k s : PyStr} (h : (k, some s) ∈ entries)
    (hs : s ≠ []) : dictGet (present entries) k .none = .str s := by
  have hmem : (k, Value.str s) ∈ present entries :=
    List.mem_filterMap.mpr ⟨(k, some s), h, by simp [hs]⟩
  have hlookup := lookup_of_mem (hnodup.sublist present_keys) hmem
  rw [dictGet]
  have hfind : (fun kv : PyStr × Value => kv.1 == k) = fun kv => decide (kv.1 = k) := by
    funext kv
    exact beq_eq_decide kv.1 k
  rw [hfind, find_fst, hlookup]
  rfl

variable (mp mr tp tr : Option PyStr)

lemma metadataEntries_nodup : ((metadataEntries mp mr tp tr).map Prod.fst).Nodup := by
  simp [metadataEntries, lit_inj]

lemma metadata_model {p : PyStr} (h : p ≠ []) :
    dictGet (metadata (some p) mr tp tr) (lit "MODEL_NAME") .none = .str p :=
  present_get (metadataEntries_nodup _ _ _ _) List.mem_cons_self h

lemma metadata_tokenizer {p : PyStr} (h : p ≠ []) :
    dictGet (metadata mp mr (some p) tr) (lit "TOKENIZER_NAME") .none = .str p :=
  present_get (metadataEntries_nodup _ _ _ _) (by simp [metadataEntries]) h

lemma load_whole [Interpreter] {model tokenizer : Download} (hm : model.Valid = true)
    (ht : tokenizer.Valid = true) : load (wholeText model tokenizer) =
      .syncing (.dict (metadata (some model.path) model.revision (some tokenizer.path) tokenizer.revision)) := by
  simp only [Download.Valid, Bool.and_eq_true, Option.all_eq_true] at hm ht
  have hkeys : ∀ kv ∈ metadataEntries (some model.path) model.revision (some tokenizer.path)
      tokenizer.revision, joinless kv.1 = true := by
    have hlits : ∀ k ∈ [lit "MODEL_NAME", lit "MODEL_REVISION", lit "TOKENIZER_NAME",
      lit "TOKENIZER_REVISION"], joinless k = true := by decide +kernel
    simpa [metadataEntries] using hlits
  have hnodup := (metadataEntries_nodup (some model.path) model.revision (some tokenizer.path)
    tokenizer.revision).sublist present_keys
  have hmembers := present_joinless hkeys (by simp_all [metadataEntries])
  have hblank : IsBlank (lit " ") := rfl
  rw [load, wholeText, jsonDumps, metadata, jsonLoads_strs hblank hnodup hmembers]

end Metadata

end GemmaWorker.Boot
