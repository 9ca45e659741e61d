import GemmaWorker.Server.HandleOpenai
import GemmaWorker.Server.Isolation
import Mathlib.Tactic.Linarith

/-! Requests served at once are answered as the handler answers them one by one. -/

namespace GemmaWorker.Server

open Python Heartbeat Library

section Refinement

variable [Interpreter] {σ : Type} {backend : Backend σ} {route : PyStr} {now : ℕ → ℚ} {bytes : PyBytes}
variable {cfg : Config} {s : State} {i : ℕ}

/-- A request that came when the engines were ready and did what its handler does, whatever was done in
between for others, has the response of the handler. -/
theorem concurrent_answer {as : List Action} {ready arrived : Action} {params : σ}
    (hparams : backend.samplingParams [(lit "max_tokens", .int 100)] = .ok params) (hnow : Monotone now)
    (he : (server cfg).exec (State.init cfg) as = some s) (hready : ready.event = .enginesReady)
    (harrived : arrived.event = .arrive)
    (hown : (server cfg).seen (own i) (State.init cfg) as =
      ready :: arrived :: handlerActions backend route now bytes 0) :
    s.requests[i]?.bind Request.response =
      (handleOpenai backend route now (State.init cfg).tracker true bytes).result.toOption.bind
        Answer.response := by
  obtain ⟨t, ht, hrequests⟩ := State.request_alone he i
  rw [hown] at ht
  obtain ⟨s₁, hs₁, ht⟩ := Option.bind_eq_some_iff.mp ht
  obtain ⟨s₂, hs₂, ht⟩ := Option.bind_eq_some_iff.mp ht
  have hstart : s₂.requests[0]? = some ⟨.reading, none, []⟩ ∧ s₂.tracker = (State.init cfg).tracker := by
    obtain ⟨-, -, u₁, hu₁, rfl⟩ := State.next_elim hs₁
    obtain ⟨-, -, u₂, hu₂, rfl⟩ := State.next_elim hs₂
    rw [hready] at hu₁
    rw [harrived] at hu₂
    obtain rfl := Option.some.inj hu₁
    obtain rfl := Option.some.inj hu₂
    exact ⟨rfl, rfl⟩
  have hclock : s₂.clock ≤ now 0 := by
    obtain ⟨s₃, hs₃, -⟩ := Option.bind_eq_some_iff.mp ht
    exact (State.next_elim hs₃).1
  obtain ⟨t', ht', hshows⟩ := handleOpenai_exec backend route now bytes hparams hstart.1 rfl rfl hclock hnow
  obtain rfl := Option.some.inj (ht'.symm.trans ht)
  have hfirst : t'.requests[0]? = s.requests[i]? := by
    rw [hrequests]
    cases s.requests[i]? <;> rfl
  rw [← hfirst, ← hstart.2]
  exact hshows.2

end Refinement

section Witness

def twoJobs : List Action :=
  [⟨.enginesReady, 0, 0⟩, ⟨.arrive, 1, 1⟩, ⟨.arrive, 2, 2⟩, ⟨.body 1 (some (.dict [])), 3, 3⟩,
    ⟨.body 0 (some (.dict [])), 10, 11⟩, ⟨.engine 1 (.batch (.dict [])), 11, 11⟩,
    ⟨.engine 0 (.raised (lit "out of memory")), 12, 13⟩, ⟨.engine 1 .exhausted, 14, 14⟩]

theorem twoJobs_answered : ∃ s, (server .sample).exec (.init .sample) twoJobs = some s ∧
    s.requests[0]?.bind Request.response = (handleOpenai (raisingBackend (lit "out of memory"))
      (lit "/v1/completions") (fun k => k + 10) ⟨0, 0⟩ true [0x7B, 0x7D]).result.toOption.bind
        Answer.response := by
  have hrun : ((server .sample).exec (.init .sample) twoJobs).isSome = true := by decide +kernel
  have hnow : Monotone fun k : ℕ => (k + 10 : ℚ) := fun a b hab => by
    have hcast : (a : ℚ) ≤ b := Nat.cast_le.mpr hab
    linarith
  have hown : (server .sample).seen (own 0) (.init .sample) twoJobs =
      ⟨.enginesReady, 0, 0⟩ :: ⟨.arrive, 1, 1⟩ :: handlerActions (raisingBackend (lit "out of memory"))
        (lit "/v1/completions") (fun k => k + 10) [0x7B, 0x7D] 0 := by
    have hseen : (server .sample).seen (own 0) (.init .sample) twoJobs = [⟨.enginesReady, 0, 0⟩, ⟨.arrive, 1, 1⟩,
        ⟨.body 0 (some (.dict [])), 10, 11⟩, ⟨.engine 0 (.raised (lit "out of memory")), 12, 13⟩] := by rfl
    have hactions : handlerActions (raisingBackend (lit "out of memory")) (lit "/v1/completions")
        (fun k => (k + 10 : ℚ)) [0x7B, 0x7D] 0 = [⟨.body 0 (some (.dict [])), (0 : ℕ) + 10, (1 : ℕ) + 10⟩,
          ⟨.engine 0 (.raised (lit "out of memory")), (2 : ℕ) + 10, (3 : ℕ) + 10⟩] := by rfl
    rw [hseen, hactions]
    norm_num
  obtain ⟨s, hs⟩ := Option.isSome_iff_exists.mp hrun
  exact ⟨s, hs, @concurrent_answer _ _ (raisingBackend (lit "out of memory")) _ _ _ _ s 0 _ _ _
    [(lit "max_tokens", .int 100)] rfl hnow hs rfl rfl hown⟩

end Witness

end GemmaWorker.Server
