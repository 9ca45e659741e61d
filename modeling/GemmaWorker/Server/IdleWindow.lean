import GemmaWorker.Heartbeat.Lifecycle
import GemmaWorker.Server.LoadCount

/-! What the idle monitor knows when it takes its shutdown branch. The tracker that it reads here is the
one of the lifecycle. -/

namespace GemmaWorker.Server

open Python Heartbeat Library

def RequestPc.quietSince (time : ℚ) : RequestPc → Bool
  | .reading | .refused => true
  | .ended e => e ≤ time
  | _ => false

namespace State

variable {cfg : Config} {s t : State} {a : Action}

def fires (cfg : Config) (s : State) (a : Action) : Bool :=
  match a.event, s.monitor with
  | .tick, .watching => s.tracker.Idle a.now cfg.idleTimeoutS
  | _, _ => false

def PausesIdle (cfg : Config) (s : State) (a : Action) : Prop :=
  s.fires cfg a = true → ∀ r ∈ s.requests, r.pc.quietSince (a.now - cfg.idleTimeoutS) = true

/-- An exception that escapes leaves the load no lower than the number of requests in flight. -/
def Absorbs (s : State) (a : Action) : Prop :=
  s.mishap a.event = .escaped → s.inFlight ≤ 1 ∨ (s.inFlight : ℤ) < s.tracker.load

instance : Decidable (s.PausesIdle cfg a) :=
  inferInstanceAs (Decidable (_ → _))

instance : Decidable (s.Absorbs a) :=
  inferInstanceAs (Decidable (_ → _))

/-- The load covers the requests in flight, and unless it exceeds them the last activity is not before
any end. -/
structure Covered (s : State) : Prop where
  activity : s.tracker.lastActivity ≤ s.clock
  ended : ∀ r ∈ s.requests, ∀ e, r.pc = .ended e → e ≤ s.clock
  load : (s.inFlight : ℤ) ≤ s.tracker.load
  recent : (s.inFlight : ℤ) < s.tracker.load ∨
    ∀ r ∈ s.requests, ∀ e, r.pc = .ended e → e ≤ s.tracker.lastActivity

lemma Covered.ended_endsAt {time : ℚ} (h : Covered s) (he : EndsAt s t time) (htime : s.clock ≤ time) :
    ∀ r ∈ t.requests, ∀ e, r.pc = .ended e → e ≤ time := by
  intro r hr e hpc
  rcases he r hr e hpc with rfl | ⟨r', hr', hpc'⟩
  · exact le_refl e
  · exact (h.ended r' hr' e hpc').trans htime

lemma endsAt_of_old (he : ∀ r ∈ t.requests, ∀ e, r.pc = .ended e → ∃ r ∈ s.requests, r.pc = .ended e)
    (time : ℚ) : EndsAt s t time :=
  fun r hr e hpc => Or.inr (he r hr e hpc)

lemma Covered.of_active {time : ℚ} (h : Covered s) (he : EndsAt s t time) (hs : s.clock ≤ time)
    (ht : time ≤ t.clock) (hactivity : t.tracker.lastActivity = time)
    (hload : (t.inFlight : ℤ) ≤ t.tracker.load) : Covered t := by
  have hend := h.ended_endsAt he hs
  refine ⟨hactivity ▸ ht, fun r hr e hpc => (hend r hr e hpc).trans ht, hload, Or.inr ?_⟩
  rwa [hactivity]

lemma Covered.next (h : Covered s) (ha : s.Absorbs a) (hn : s.next cfg a = some t) : Covered t := by
  obtain ⟨hnow, hlater, hclock, hchange⟩ := next_change hn
  have hlate : s.clock ≤ t.clock := hclock ▸ hnow.trans hlater
  have hnow' : a.now ≤ t.clock := hclock ▸ hlater
  have hload := h.load
  rw [Absorbs] at ha
  generalize s.mishap a.event = m at hchange ha
  cases hchange with
  | quiet htr hin he =>
    refine ⟨?_, h.ended_endsAt (endsAt_of_old he t.clock) hlate, ?_, ?_⟩
    · rw [htr]
      exact h.activity.trans hlate
    · rw [htr, hin]
      exact hload
    · rw [htr, hin]
      refine h.recent.imp_right fun hrecent r hr e hpc => ?_
      obtain ⟨r', hr', hpc'⟩ := he r hr e hpc
      exact hrecent r' hr' e hpc'
  | admitted htr hin he =>
    have hcount : t.tracker.load = s.tracker.load + 1 := by rw [htr]; rfl
    refine h.of_active (endsAt_of_old he a.later) (hnow.trans hlater) hclock.ge (by rw [htr]; rfl) ?_
    rw [hcount, hin]
    push_cast
    omega
  | finished htr hin he =>
    refine h.of_active he hnow hnow' (by rw [htr]; rfl) ?_
    rw [htr, decrementLoad_load]
    omega
  | dropped htr hin he =>
    refine ⟨?_, fun r hr e hpc => (h.ended_endsAt he hnow r hr e hpc).trans hnow', ?_, Or.inl ?_⟩
    · rw [htr]
      exact h.activity.trans hlate
    · rw [htr]
      omega
    · rw [htr]
      omega
  | escaped htr hin he =>
    refine h.of_active he (hnow.trans hlater) hclock.ge (by rw [htr]; rfl) ?_
    rw [htr, decrementLoad_load, decrementLoad_load]
    rcases ha rfl with hone | hmore <;> omega

lemma Covered.pausesIdle (h : Covered s) : s.PausesIdle cfg a := by
  intro hf r hr
  obtain ⟨hzero, hidle⟩ : s.tracker.Idle a.now cfg.idleTimeoutS := by
    rw [fires.eq_def] at hf
    split at hf
    · simpa using hf
    · cases hf
  have hload := h.load
  have hrecent := h.recent.resolve_left (by omega)
  have hnone : s.inFlight = 0 := by omega
  have hpc : r.pc.inFlight = false := by simpa using List.countP_eq_zero.mp hnone r hr
  cases hr' : r.pc with
  | ended e =>
    have hlast := hrecent r hr e hr'
    simp only [RequestPc.quietSince, decide_eq_true_eq]
    linarith
  | reading => rfl
  | refused => rfl
  | _ => simp [hr', RequestPc.inFlight] at hpc

section Monitor

variable {i : ℕ} {r : Request} {now later : ℚ}

lemma monitor_advance (rest : List PyStr) (last : Bool) : (s.advance now i r rest last).monitor = s.monitor := by
  rw [advance.eq_def]
  split <;> rfl

lemma monitor_finishNonStream (answer : Except PyStr Response) :
    (s.finishNonStream now later i r answer).monitor = s.monitor := by
  cases answer <;> rfl

lemma monitor_engine {e : EngineEvent} (h : s.handleEngine now later i r e = some t) :
    t.monitor = s.monitor := by
  rw [handleEngine.eq_def] at h
  split at h
  · obtain rfl := Option.some.inj h
    rfl
  · obtain rfl := Option.some.inj h
    exact monitor_finishNonStream _
  · obtain rfl := Option.some.inj h
    exact monitor_finishNonStream _
  · obtain rfl := Option.some.inj h
    exact monitor_advance _ _
  · cases h

lemma monitor_pull (h : s.handlePull now i r = some t) : t.monitor = s.monitor := by
  rw [handlePull.eq_def] at h
  split at h
  · obtain rfl := Option.some.inj h
    rfl
  · obtain rfl := Option.some.inj h
    exact monitor_advance _ _
  · cases h

lemma monitor_cancel (h : s.handleCancel now i r = some t) : t.monitor = s.monitor := by
  rw [handleCancel.eq_def] at h
  split at h
  any_goals
    obtain rfl := Option.some.inj h
    rfl
  cases h

lemma monitor_body (content : Option Value) : (s.handleBody now later i r content).monitor = s.monitor := by
  rw [handleBody.eq_def]
  split <;> rfl

lemma monitor_absent (hzero : cfg.idleTimeoutS = 0) (h : s.monitor = .absent) (hn : s.next cfg a = some t) :
    t.monitor = .absent := by
  rw [next] at hn
  split_ifs at hn
  obtain ⟨u, hu, rfl⟩ := Option.map_eq_some_iff.mp hn
  rw [← h]
  change u.monitor = s.monitor
  cases hevent : a.event with
  | enginesReady =>
    rw [hevent] at hu
    obtain rfl := Option.some.inj hu
    rfl
  | startIdleTimeout =>
    rw [hevent, step, startIdleTimeout, h, if_pos hzero] at hu
    obtain rfl := Option.some.inj hu
    rfl
  | arrive =>
    rw [hevent] at hu
    obtain rfl := Option.some.inj hu
    split_ifs <;> rfl
  | body i content =>
    rw [hevent] at hu
    obtain ⟨r, -, hu⟩ := Option.bind_eq_some_iff.mp hu
    split at hu
    · obtain rfl := Option.some.inj hu
      exact monitor_body content
    · cases hu
  | engine i e =>
    rw [hevent] at hu
    obtain ⟨r, -, hu⟩ := Option.bind_eq_some_iff.mp hu
    exact monitor_engine hu
  | pull i =>
    rw [hevent] at hu
    obtain ⟨r, -, hu⟩ := Option.bind_eq_some_iff.mp hu
    exact monitor_pull hu
  | cancel i =>
    rw [hevent] at hu
    obtain ⟨r, -, hu⟩ := Option.bind_eq_some_iff.mp hu
    exact monitor_cancel hu
  | tick => simp [hevent, step, handleTick, h] at hu

end Monitor

/-- Where every escape is absorbed, the monitor pauses a worker that was idle for the whole time-out. With
no time-out it pauses none. -/
theorem pauses_idle {as : List Action} (hg : (server cfg).Guarded Absorbs (init cfg) as) :
    (server cfg).Guarded (PausesIdle cfg) (init cfg) as ∧
      (cfg.idleTimeoutS = 0 → (server cfg).Guarded (fun s a => s.fires cfg a = false) (init cfg) as) := by
  have hinit : Covered (init cfg) := ⟨le_refl _, by simp [init], le_refl _, Or.inr (by simp [init])⟩
  refine ⟨hg.imp hinit (fun s a t h ha hn => h.next ha hn) fun s a h _ => h.pausesIdle, fun hzero => ?_⟩
  refine hg.imp (I := fun s => s.monitor = .absent) rfl (fun s a t h _ hn => monitor_absent hzero h hn)
    fun s a h _ => ?_
  rw [fires, h]
  cases a.event <;> rfl

section Tracker

variable {w : World}

lemma exec_requests (hx : w.exited = false) (ops : List (RequestOp × ℚ)) :
    (lifecycle cfg).exec w (ops.map fun op => .request op.1 op.2) =
      some { w with tracker := ops.foldl (fun tr op => op.1.apply tr op.2) w.tracker } := by
  induction ops generalizing w with
  | nil => rfl
  | cons op ops ih =>
    have hn : (lifecycle cfg).next w (.request op.1 op.2) =
        some { w with tracker := op.1.apply w.tracker op.2 } := by
      simp [lifecycle, World.next, World.run, hx]
    have hx' : World.exited { w with tracker := op.1.apply w.tracker op.2 } = false := hx
    rw [List.map_cons, Machine.exec_cons hn, ih hx']
    rfl

/-- What a step of the server does to the load tracker, requests do to it in the lifecycle. -/
theorem lifecycle_follows (hx : w.exited = false) (hw : w.tracker = s.tracker) (hn : s.next cfg a = some t) :
    ∃ as, (lifecycle cfg).exec w as = some { w with tracker := t.tracker } := by
  obtain ⟨ops, hops⟩ : ∃ ops : List (RequestOp × ℚ),
      t.tracker = ops.foldl (fun tr op => op.1.apply tr op.2) s.tracker := by
    have hchange := (next_change hn).2.2.2
    generalize s.mishap a.event = m at hchange
    cases hchange with
    | quiet htr => exact ⟨[], htr⟩
    | admitted htr => exact ⟨[(.increment, a.now), (.touch, a.later)], htr⟩
    | finished htr => exact ⟨[(.decrement, a.now)], htr⟩
    | dropped htr => exact ⟨[], htr⟩
    | escaped htr => exact ⟨[(.decrement, a.now), (.decrement, a.later)], htr⟩
  refine ⟨ops.map fun op => .request op.1 op.2, ?_⟩
  rw [exec_requests hx, hw, hops]

end Tracker

def servedThenIdle : List Action :=
  [⟨.enginesReady, 0, 0⟩, ⟨.startIdleTimeout, 0, 0⟩, ⟨.arrive, 1, 1⟩, ⟨.body 0 (some (.dict [])), 2, 2⟩,
    ⟨.tick, 60, 60⟩, ⟨.engine 0 (.raised [code 0xD800]), 70, 70⟩, ⟨.tick, 1200, 1200⟩, ⟨.tick, 1270, 1270⟩]

theorem servedThenIdle_pauses :
    (server .sample).Guarded (PausesIdle .sample) (init .sample) servedThenIdle ∧
      ((server .sample).exec (init .sample) servedThenIdle).any (fun s =>
        match s.monitor with | .fired => true | _ => false) :=
  ⟨(pauses_idle (by decide +kernel)).1, by decide +kernel⟩

def streamForgotten : List Action :=
  [⟨.enginesReady, 0, 0⟩, ⟨.startIdleTimeout, 0, 0⟩, ⟨.arrive, 1, 1⟩,
    ⟨.body 0 (some (.dict [(lit "stream", .bool true)])), 2, 2⟩, ⟨.pull 0, 3, 3⟩, ⟨.arrive, 4, 4⟩,
    ⟨.body 1 (some (.dict [])), 5, 5⟩, ⟨.engine 1 (.raised [code 0xD800]), 6, 6⟩, ⟨.tick, 1206, 1206⟩]

theorem streamForgotten_paused :
    ((server .sample).exec (init .sample) streamForgotten).any (fun s =>
      (match s.monitor with | .fired => true | _ => false) && s.inFlight = 1) ∧
      ¬ (server .sample).Guarded (PausesIdle .sample) (init .sample) streamForgotten :=
  ⟨by decide +kernel, by decide +kernel⟩

end State

end GemmaWorker.Server
