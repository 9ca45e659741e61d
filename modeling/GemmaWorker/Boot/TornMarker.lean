import GemmaWorker.Boot.ModelCache

/-! A marker that a killed boot left unreadable: no boot after it ever returns. -/

namespace GemmaWorker.Boot

open GemmaWorker.Python GemmaWorker.Library GemmaWorker.EngineArgs

variable {env : ℕ → Environ} {s t : World} {i : ℕ} {p : Phase} {r : Run} {text : PyStr} {op : Operation}

/-- The boot has ended, or it has yet to look for the marker, or it is reading it. -/
def Waiting (text : PyStr) : Phase → Prop
  | .checking => True
  | .reading read => read <+: text
  | p => finished p = true

structure Stuck (text : PyStr) (s : World) : Prop where
  marker : s.marker = some text
  runs : ∀ i, Waiting text (s.runs i).phase

def NoneReturned (s t : World) : Prop :=
  ∀ i args, (t.runs i).phase = .returned args → (s.runs i).phase = .returned args

lemma NoneReturned.trans {u : World} (h : NoneReturned s t) (h' : NoneReturned t u) : NoneReturned s u :=
  fun i args hp => h i args (h' i args hp)

lemma Stuck.setPhase (hs : Stuck text s) (hp : Waiting text p) (hr : ∀ args, p ≠ .returned args) :
    Stuck text (s.setPhase i p) ∧ NoneReturned s (s.setPhase i p) := by
  refine ⟨⟨hs.marker, fun j => ?_⟩, fun j args hj => ?_⟩
  · by_cases hji : j = i
    · subst hji
      simpa [World.setPhase, World.setRun] using hp
    · simpa [World.setPhase, World.setRun, hji] using hs.runs j
  · by_cases hji : j = i
    · subst hji
      simp only [World.setPhase, World.setRun, Function.update_self] at hj
      exact absurd hj (hr args)
    · simpa [World.setPhase, World.setRun, hji] using hj

lemma Stuck.no_phase {q : Phase} (hs : Stuck text s) (hp : (s.runs i).phase = q) (hq : ¬ Waiting text q) :
    False := by
  have hwait := hs.runs i
  rw [hp] at hwait
  exact hq hwait

variable [Interpreter]

lemma Stuck.step (hs : Stuck text s) (hload : load text = .raised) (h : operate env s i op = some t) :
    Stuck text t ∧ NoneReturned s t := by
  have hwait := hs.runs i
  cases operates h with
  | check hp =>
    rw [hs.marker, Option.isSome_some, if_pos rfl]
    exact hs.setPhase List.nil_prefix (by simp)
  | @readChunk n read content hp hm =>
    obtain rfl := Option.some.inj (hs.marker.symm.trans hm)
    rw [hp] at hwait
    obtain ⟨rest, rfl⟩ := hwait
    rw [List.drop_left]
    exact hs.setPhase ((List.prefix_append_right_inj read).mpr (List.take_prefix _ _)) (by simp)
  | @readEnd read content hp hm hend =>
    obtain rfl := Option.some.inj (hs.marker.symm.trans hm)
    rw [hp] at hwait
    rw [hwait.eq_of_length_le hend, hload]
    exact hs.setPhase rfl (by simp)
  | kill => exact hs.setPhase rfl (by simp)
  | fail hp =>
    rcases hp with hp | ⟨model, hp⟩
    · exact (hs.no_phase hp (by simp [Waiting, finished])).elim
    · exact (hs.no_phase hp (by simp [Waiting, finished])).elim
  | sync hp | missModel hp | model hp | missTokenizer hp | tokenizer hp | unpatched hp | patch hp
  | openMarker hp | writeChunk hp | closeMarker hp | writeLocal hp =>
    exact (hs.no_phase hp (by simp [Waiting, finished])).elim

theorem stuck_forever (hs : Stuck text s) (hload : load text = .raised) (as : List (ℕ × Operation)) :
    (boots env).Always (fun t => Stuck text t ∧ NoneReturned s t) s as := by
  have hg : (boots env).Guarded (fun _ _ => True) s as := Machine.Guarded.of_forall fun _ _ => trivial
  apply hg.always ⟨hs, fun _ _ hp => hp⟩
  intro u a t hu _ ht
  obtain ⟨hstuck, hreturned⟩ := hu.1.step hload ht
  exact ⟨hstuck, hu.2.trans hreturned⟩

lemma stuck_of_kill (hm : s.marker = some text) (hothers : ∀ j, j ≠ i → Waiting text (s.runs j).phase)
    (h : operate env s i .kill = some t) : Stuck text t := by
  simp only [operate] at h
  split_ifs at h
  obtain rfl := Option.some.inj h
  refine ⟨hm, fun j => ?_⟩
  by_cases hj : j = i
  · subst hj
    simp [World.setPhase, World.setRun, Waiting, finished]
  · simpa [World.setPhase, World.setRun, hj] using hothers j hj

/-- A boot killed right after it has truncated the marker: none of the others ever returns, and none
repairs it. -/
theorem killed_writer_stuck (hm : s.marker = some []) (hothers : ∀ j, j ≠ i → Waiting [] (s.runs j).phase)
    (h : operate env s i .kill = some t) (as : List (ℕ × Operation)) :
    (boots env).Always (fun u => u.marker = some [] ∧ NoneReturned t u) t as := by
  have hload : load [] = .raised := rfl
  apply (stuck_forever (stuck_of_kill hm hothers h) hload as).mono
  intro u hu
  exact ⟨hu.1.marker, hu.2⟩

end GemmaWorker.Boot
