import GemmaWorker.Server.Requests

/-! The load counter against the number of requests in flight. Two mishaps drive them apart: a stream
that is dropped before it starts, and an exception that leaves `_non_stream_response`. -/

namespace GemmaWorker.Server

open Python Heartbeat Library

inductive Mishap
  | none
  | dropped
  | escaped
deriving DecidableEq

namespace State

variable {cfg : Config} {s t : State} {a : Action}

def inFlight (s : State) : ℕ :=
  s.requests.countP (fun r => r.pc.inFlight)

def mishap (s : State) : Event → Mishap
  | .cancel i =>
    match s.requests[i]?.map Request.pc with
    | some .unstarted => .dropped
    | _ => .none
  | .engine i (.raised text) =>
    match s.requests[i]?.map Request.pc with
    | some (.collecting _) => if encodable text then .none else .escaped
    | _ => .none
  | _ => .none

/-- Every request of `t` that has ended had ended in `s`, or ends at `now`. -/
def EndsAt (s t : State) (now : ℚ) : Prop :=
  ∀ r ∈ t.requests, ∀ e, r.pc = .ended e → e = now ∨ ∃ r ∈ s.requests, r.pc = .ended e

inductive Change (s : State) (a : Action) (t : State) : Mishap → Prop
  | quiet (htr : t.tracker = s.tracker) (hn : t.inFlight = s.inFlight)
      (he : ∀ r ∈ t.requests, ∀ e, r.pc = .ended e → ∃ r ∈ s.requests, r.pc = .ended e) :
      Change s a t .none
  | admitted (htr : t.tracker = (s.tracker.incrementLoad a.now).touchActivity a.later)
      (hn : t.inFlight = s.inFlight + 1)
      (he : ∀ r ∈ t.requests, ∀ e, r.pc = .ended e → ∃ r ∈ s.requests, r.pc = .ended e) :
      Change s a t .none
  | finished (htr : t.tracker = s.tracker.decrementLoad a.now) (hn : s.inFlight = t.inFlight + 1)
      (he : EndsAt s t a.now) : Change s a t .none
  | dropped (htr : t.tracker = s.tracker) (hn : s.inFlight = t.inFlight + 1) (he : EndsAt s t a.now) :
      Change s a t .dropped
  | escaped (htr : t.tracker = (s.tracker.decrementLoad a.now).decrementLoad a.later)
      (hn : s.inFlight = t.inFlight + 1) (he : EndsAt s t a.later) : Change s a t .escaped

section Requests

variable {i : ℕ} {r r' : Request}

lemma inFlight_set (hi : s.requests[i]? = some r) (htr : t.requests = s.requests.set i r') :
    t.inFlight + (if r.pc.inFlight then 1 else 0) = s.inFlight + if r'.pc.inFlight then 1 else 0 := by
  obtain ⟨hlt, hget⟩ := List.getElem?_eq_some_iff.mp hi
  have hmem : r ∈ s.requests := List.mem_of_getElem? hi
  have hpos : (if r.pc.inFlight then 1 else 0) ≤ s.inFlight := by
    split_ifs with hr
    · exact List.countP_pos_iff.mpr ⟨r, hmem, hr⟩
    · exact Nat.zero_le _
  have hset := List.countP_set (p := fun r : Request => r.pc.inFlight) (a := r') hlt
  rw [hget] at hset
  rw [inFlight, htr, hset]
  rw [inFlight] at hpos ⊢
  omega

lemma ended_set (htr : t.requests = s.requests.set i r') :
    ∀ x ∈ t.requests, ∀ e, x.pc = .ended e → r'.pc = .ended e ∨ ∃ r ∈ s.requests, r.pc = .ended e := by
  intro x hx e he
  rw [htr] at hx
  rcases List.mem_or_eq_of_mem_set hx with hx | rfl
  · exact Or.inr ⟨x, hx, he⟩
  · exact Or.inl he

lemma change_quiet (hi : s.requests[i]? = some r) (htr : t.tracker = s.tracker)
    (hreq : t.requests = s.requests.set i r') (hsame : r'.pc.inFlight = r.pc.inFlight)
    (hend : ∀ e, r'.pc ≠ .ended e) : Change s a t .none := by
  have hn := inFlight_set hi hreq
  rw [hsame] at hn
  refine .quiet htr (by omega) fun x hx e he => ?_
  exact (ended_set hreq x hx e he).resolve_left (hend e)

lemma change_ended {time : ℚ} (hi : s.requests[i]? = some r) (hreq : t.requests = s.requests.set i r')
    (hr : r.pc.inFlight = true) (hr' : r'.pc = .ended time) :
    s.inFlight = t.inFlight + 1 ∧ EndsAt s t time := by
  have hn := inFlight_set hi hreq
  rw [hr, hr'] at hn
  simp only [if_true, RequestPc.inFlight, Bool.false_eq_true, if_false] at hn
  refine ⟨by omega, fun x hx e he => (ended_set hreq x hx e he).imp_left fun hx => ?_⟩
  rw [hr'] at hx
  exact (RequestPc.ended.inj hx).symm

lemma refuse_change (hi : s.requests[i]? = some r) (hpc : r.pc = .reading) (response : Option Response) :
    Change s a (s.refuse i r response) .none :=
  change_quiet hi rfl rfl (by simp [hpc, RequestPc.inFlight]) (by simp)

lemma branch_inFlight (items : List (PyStr × Value)) : (branch items).inFlight = true := by
  rw [branch]
  split_ifs <;> rfl

lemma inFlight_not_ended {pc : RequestPc} (h : pc.inFlight = true) (e : ℚ) : pc ≠ .ended e := by
  rintro rfl
  cases h

lemma body_change (hi : s.requests[i]? = some r) (hpc : r.pc = .reading) (content : Option Value) :
    Change s a (s.handleBody a.now a.later i r content) .none := by
  rw [handleBody.eq_def]
  split
  · rename_i items
    have hn := @inFlight_set s ((s.track [(.increment, a.now), (.touch, a.later)]).setRequest i
      { r with pc := branch items }) i r { r with pc := branch items } hi rfl
    rw [hpc, branch_inFlight] at hn
    refine .admitted rfl (by simpa [RequestPc.inFlight] using hn) fun x hx e he => ?_
    exact (ended_set rfl x hx e he).resolve_left (inFlight_not_ended (branch_inFlight items) e)
  · exact refuse_change hi hpc none
  · exact refuse_change hi hpc _

lemma finished_change {time : ℚ} (hi : s.requests[i]? = some r) (hpc : r.pc.inFlight = true)
    (htime : time = a.now) (htr : t.tracker = s.tracker.decrementLoad a.now)
    (hreq : t.requests = s.requests.set i r') (hr' : r'.pc = .ended time) : Change s a t .none := by
  obtain ⟨hn, he⟩ := change_ended hi hreq hpc hr'
  exact .finished htr hn (htime ▸ he)

lemma finishNonStream_change (hi : s.requests[i]? = some r) (hpc : r.pc.inFlight = true)
    (answer : Except PyStr Response) : Change s a (s.finishNonStream a.now a.later i r answer)
      (if answer.isOk then .none else .escaped) := by
  cases answer with
  | ok response => exact finished_change hi hpc rfl rfl rfl rfl
  | error text =>
    obtain ⟨hn, he⟩ := change_ended (t := s.finishNonStream a.now a.later i r (.error text)) hi rfl hpc rfl
    exact .escaped rfl hn he

lemma advance_change (hi : s.requests[i]? = some r) (hpc : r.pc.inFlight = true) (rest : List PyStr)
    (last : Bool) : Change s a (s.advance a.now i r rest last) .none := by
  rw [advance.eq_def]
  split
  · exact change_quiet hi rfl rfl hpc.symm (by simp)
  · exact change_quiet hi rfl rfl hpc.symm (by simp)
  · exact finished_change hi hpc rfl rfl rfl rfl

lemma engine_change (hi : s.requests[i]? = some r) {e : EngineEvent}
    (h : s.handleEngine a.now a.later i r e = some t) : Change s a t (s.mishap (.engine i e)) := by
  cases hpc : r.pc with
  | collecting result =>
    have hin : r.pc.inFlight = true := by rw [hpc]; rfl
    have hanswer := fun answer => @finishNonStream_change s a i r hi hin answer
    cases e with
    | batch b =>
      simp only [handleEngine, hpc] at h
      obtain rfl := Option.some.inj h
      exact change_quiet hi rfl rfl (by rw [hin]; rfl) (by simp)
    | exhausted =>
      simp only [handleEngine, hpc] at h
      obtain rfl := Option.some.inj h
      have hchange := hanswer (nonStreamResponse (.finished result))
      rwa [nonStreamResponse_isOk] at hchange
    | raised text =>
      simp only [handleEngine, hpc] at h
      obtain rfl := Option.some.inj h
      have hchange := hanswer (nonStreamResponse (.raised text))
      rw [nonStreamResponse_isOk] at hchange
      simpa [mishap, hi, hpc] using hchange
  | awaiting =>
    have hnone : s.mishap (.engine i e) = .none := by
      cases e <;> simp [mishap, hi, hpc]
    simp only [handleEngine, hpc] at h
    obtain rfl := Option.some.inj h
    rw [hnone]
    exact advance_change hi (by rw [hpc]; rfl) _ _
  | _ => simp [handleEngine, hpc] at h

lemma pull_change (hi : s.requests[i]? = some r) (h : s.handlePull a.now i r = some t) :
    Change s a t .none := by
  rw [handlePull.eq_def] at h
  split at h
  · rename_i hpc
    obtain rfl := Option.some.inj h
    exact change_quiet hi rfl rfl (by simp [hpc, RequestPc.inFlight]) (by simp)
  · rename_i hpc
    obtain rfl := Option.some.inj h
    exact advance_change hi (by simp [hpc, RequestPc.inFlight]) _ _
  · cases h

lemma cancel_change (hi : s.requests[i]? = some r) (h : s.handleCancel a.now i r = some t) :
    Change s a t (s.mishap (.cancel i)) := by
  simp only [mishap, hi, Option.map_some]
  cases hpc : r.pc with
  | reading =>
    rw [handleCancel, hpc] at h
    obtain rfl := Option.some.inj h
    exact refuse_change hi hpc none
  | unstarted =>
    rw [handleCancel, hpc] at h
    obtain rfl := Option.some.inj h
    obtain ⟨hn, he⟩ := change_ended (t := s.setRequest i { r with pc := .ended a.now }) hi rfl
      (by simp [hpc, RequestPc.inFlight]) rfl
    exact .dropped rfl hn he
  | refused => simp [handleCancel, hpc] at h
  | ended time => simp [handleCancel, hpc] at h
  | _ =>
    rw [handleCancel, hpc] at h
    obtain rfl := Option.some.inj h
    exact finished_change hi (by simp [hpc, RequestPc.inFlight]) rfl rfl rfl rfl

lemma append_change (hreq : t.requests = s.requests ++ [r]) (htr : t.tracker = s.tracker)
    (hr : r.pc = .reading ∨ r.pc = .refused) : Change s a t .none := by
  have hin : r.pc.inFlight = false := by rcases hr with hr | hr <;> rw [hr] <;> rfl
  refine .quiet htr (by simp [inFlight, hreq, hin]) fun x hx e he => ?_
  rw [hreq] at hx
  rcases List.mem_append.mp hx with hx | hx
  · exact ⟨x, hx, he⟩
  · obtain rfl := List.mem_singleton.mp hx
    rcases hr with hr | hr <;> simp [hr] at he

end Requests

lemma same_change (hreq : t.requests = s.requests) (htr : t.tracker = s.tracker) : Change s a t .none :=
  .quiet htr (by rw [inFlight, inFlight, hreq]) fun x hx e he => ⟨x, hreq ▸ hx, he⟩

lemma step_change (h : s.step cfg a.now a.later a.event = some t) : Change s a t (s.mishap a.event) := by
  cases hevent : a.event with
  | enginesReady =>
    rw [hevent] at h
    obtain rfl := Option.some.inj h
    exact same_change rfl rfl
  | startIdleTimeout =>
    rw [hevent, step, startIdleTimeout.eq_def] at h
    split at h
    · obtain rfl := Option.some.inj h
      split_ifs <;> exact same_change rfl rfl
    · cases h
  | arrive =>
    rw [hevent] at h
    obtain rfl := Option.some.inj h
    split_ifs
    · exact append_change rfl rfl (Or.inl rfl)
    · exact append_change rfl rfl (Or.inr rfl)
  | body i content =>
    rw [hevent] at h
    obtain ⟨r, hi, h⟩ := Option.bind_eq_some_iff.mp h
    split at h
    · rename_i hpc
      obtain rfl := Option.some.inj h
      exact body_change hi hpc content
    · cases h
  | engine i e =>
    rw [hevent] at h
    obtain ⟨r, hi, h⟩ := Option.bind_eq_some_iff.mp h
    exact engine_change hi h
  | pull i =>
    rw [hevent] at h
    obtain ⟨r, hi, h⟩ := Option.bind_eq_some_iff.mp h
    exact pull_change hi h
  | cancel i =>
    rw [hevent] at h
    obtain ⟨r, hi, h⟩ := Option.bind_eq_some_iff.mp h
    exact cancel_change hi h
  | tick =>
    rw [hevent, step, handleTick.eq_def] at h
    split at h
    · obtain rfl := Option.some.inj h
      split_ifs <;> exact same_change rfl rfl
    · cases h

/-- Every step of the server is one of the five changes, at times that do not go back. -/
theorem next_change (h : s.next cfg a = some t) :
    s.clock ≤ a.now ∧ a.now ≤ a.later ∧ t.clock = a.later ∧ Change s a t (s.mishap a.event) := by
  rw [next] at h
  split_ifs at h with hclock
  obtain ⟨u, hu, rfl⟩ := Option.map_eq_some_iff.mp h
  refine ⟨hclock.1, hclock.2, rfl, ?_⟩
  have hchange := step_change hu
  generalize s.mishap a.event = m at hchange ⊢
  cases hchange with
  | quiet htr hn he => exact .quiet htr hn he
  | admitted htr hn he => exact .admitted htr hn he
  | finished htr hn he => exact .finished htr hn he
  | dropped htr hn he => exact .dropped htr hn he
  | escaped htr hn he => exact .escaped htr hn he

section Exactness

def Exact (s : State) : Prop :=
  s.tracker.load = s.inFlight

/-- No stream is dropped before it starts, and no exception escapes while another request is in flight. -/
def Sound (s : State) (a : Action) : Prop :=
  s.mishap a.event ≠ .dropped ∧ (s.mishap a.event = .escaped → s.inFlight ≤ 1)

instance : Decidable s.Exact :=
  inferInstanceAs (Decidable (_ = _))

instance : Decidable (s.Sound a) :=
  inferInstanceAs (Decidable (_ ∧ _))

lemma decrementLoad_load (tr : LoadTracker) (now : ℚ) : (tr.decrementLoad now).load = max (tr.load - 1) 0 := by
  simp only [LoadTracker.decrementLoad]
  split_ifs <;> omega

lemma Change.exact {m : Mishap} (h : Change s a t m) (hs : s.Exact) (hd : m ≠ .dropped)
    (he : m = .escaped → s.inFlight ≤ 1) : t.Exact := by
  rw [Exact] at hs ⊢
  cases h with
  | quiet htr hn => rw [htr, hn, hs]
  | admitted htr hn =>
    rw [htr, hn]
    simp only [LoadTracker.touchActivity, LoadTracker.incrementLoad, hs]
    push_cast
    rfl
  | finished htr hn =>
    rw [htr, decrementLoad_load]
    omega
  | dropped => exact absurd rfl hd
  | escaped htr hn =>
    have hone := he rfl
    rw [htr, decrementLoad_load, decrementLoad_load]
    omega

lemma Change.inexact {m : Mishap} (h : Change s a t m) (hs : s.Exact)
    (hm : m = .dropped ∨ m = .escaped ∧ 1 < s.inFlight) : ¬ t.Exact := by
  rw [Exact] at hs ⊢
  cases h with
  | dropped htr hn =>
    rw [htr, hs, hn]
    push_cast
    omega
  | escaped htr hn =>
    have hmany : 1 < s.inFlight := by simpa using hm
    rw [htr, decrementLoad_load, decrementLoad_load]
    omega
  | _ => simp at hm

/-- The load counter is exact in every state of a run if and only if no step of the run is a mishap that
it cannot absorb. -/
theorem load_exact_iff {as : List Action} (hrun : ((server cfg).exec (init cfg) as).isSome) :
    (server cfg).Always Exact (init cfg) as ↔ (server cfg).Guarded Sound (init cfg) as := by
  refine Machine.always_iff_guarded (I := Exact) hrun (Machine.Guarded.of_forall fun _ _ => trivial) rfl
    (fun _ h => h) ?_ ?_
  · intro s a t hs _ hok hn
    exact (next_change hn).2.2.2.exact hs hok.1 hok.2
  · intro s a t hs _ hbad hn
    refine (next_change hn).2.2.2.inexact hs ?_
    by_contra hm
    refine hbad ⟨fun hd => hm (Or.inl hd), fun he => ?_⟩
    by_contra hmany
    exact hm (Or.inr ⟨he, by omega⟩)

def streamAndPlain : List Action :=
  [⟨.enginesReady, 0, 0⟩, ⟨.arrive, 1, 1⟩, ⟨.body 0 (some (.dict [(lit "stream", .bool true)])), 2, 2⟩,
    ⟨.pull 0, 3, 3⟩, ⟨.arrive, 4, 4⟩, ⟨.body 1 (some (.dict [])), 5, 5⟩, ⟨.engine 1 (.batch (.dict [])), 6, 6⟩,
    ⟨.engine 1 .exhausted, 7, 7⟩, ⟨.engine 0 .exhausted, 8, 8⟩, ⟨.pull 0, 9, 9⟩]

theorem streamAndPlain_exact : (server .sample).Always Exact (init .sample) streamAndPlain :=
  (load_exact_iff (by decide +kernel)).mpr (by decide +kernel)

def droppedStream : List Action :=
  [⟨.enginesReady, 0, 0⟩, ⟨.arrive, 1, 1⟩, ⟨.body 0 (some (.dict [(lit "stream", .bool true)])), 2, 2⟩,
    ⟨.cancel 0, 3, 3⟩]

theorem droppedStream_counted :
    ∃ s, (server .sample).exec (init .sample) droppedStream = some s ∧ s.inFlight = 0 ∧ ¬ s.Exact := by
  have hrun : ((server .sample).exec (init .sample) droppedStream).any (fun s =>
      s.inFlight = 0 ∧ ¬ s.Exact) = true := by
    decide +kernel
  obtain ⟨s, he, hs⟩ := (Option.any_eq_true _ _).mp hrun
  exact ⟨s, he, by simpa using hs⟩

end Exactness

end State

end GemmaWorker.Server
