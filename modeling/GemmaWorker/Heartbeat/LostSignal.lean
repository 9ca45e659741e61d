import GemmaWorker.Heartbeat.Signal

/-! Signals that a failing or cancelled `publish` loses while the once-only flag stays set. -/

namespace GemmaWorker.Heartbeat

open Python World Library

variable {cfg : Config} {v v' : View} {w w' : World}

/-- The flag is set, no call is under way, and no termination message was published. -/
def Stuck (w : World) : Prop :=
  w.signaled = true ∧ (∀ c ∈ w.calls, c.pc.suspended = false) ∧ ∀ cmd ∈ w.log, cmd.signals = false

instance (w : World) : Decidable (Stuck w) :=
  inferInstanceAs (Decidable (_ ∧ _ ∧ _))

/-- A call begins only when no other call is under way. -/
def OneAfterAnother (cfg : Config) (w : World) (a : Action) : Prop :=
  (w.next cfg a).any (fun w' => w.calls.length < w'.calls.length) →
    ∀ c ∈ w.calls, c.pc.suspended = false

instance (w : World) (a : Action) : Decidable (OneAfterAnother cfg w a) :=
  inferInstanceAs (Decidable (_ → _))

structure Delivers (v : View) (first : Call) (later : List Call) : Prop where
  alone : first.pc.suspended = true → later = []
  signal : (∃ cmd ∈ v.log, cmd.signals = true) ∨ first.pc.signalPending = true

def Sequential (v : View) : Prop :=
  ∀ first later, v.calls = first :: later → Delivers v first later

lemma PcMove.suspended {reason : PyStr} {lossy : Bool} {pc pc' : CallPc} {lost : List Command}
    (h : PcMove cfg reason lossy pc pc' lost) (hs : pc'.suspended = true) : pc.suspended = true := by
  cases h with
  | stay pc f => cases pc <;> simp_all [CallPc.mapAwait, CallPc.suspended]
  | skipped h _ => rcases h with ⟨a, rfl⟩ | ⟨a, rfl⟩ <;> rfl
  | closed pc hpc => rfl
  | cancelled pc => cases hs
  | _ => rfl

lemma PcMove.signalPending {reason : PyStr} {pc pc' : CallPc} {lost : List Command}
    (h : PcMove cfg reason false pc pc' lost) (hs : pc.signalPending = true) :
    pc'.signalPending = true := by
  generalize hl : false = lossy at h
  cases h with
  | stay pc f _ hf => rw [hf, hs]
  | paused ha => simp [CallPc.signalPending, ha] at hs
  | signalled k ha => simp [CallPc.signalPending, ha] at hs
  | skipped h _ => rcases h with ⟨a, rfl⟩ | ⟨a, rfl⟩ <;> cases hs
  | raised m a => rw [hs] at hl; cases hl
  | cancelled pc => rw [hs] at hl; cases hl
  | _ => cases hs

lemma PcMove.lossy {reason : PyStr} {lossy : Bool} {pc pc' : CallPc} {lost : List Command}
    (h : PcMove cfg reason lossy pc pc' lost) (hl : lossy = true) :
    pc.signalPending = true ∧ pc'.suspended = false := by
  cases h with
  | raised m a => exact ⟨hl, rfl⟩
  | cancelled pc => exact ⟨hl, rfl⟩
  | _ => cases hl

lemma Delivers.of_log {first : Call} {later : List Call} {log : List Command} (h : Delivers v first later)
    (hlog : ∀ cmd ∈ v.log, cmd ∈ log) (orphans : List Command) :
    Delivers { v with orphans := orphans, log := log } first later := by
  refine ⟨h.alone, ?_⟩
  rcases h.signal with ⟨cmd, hcmd, hs⟩ | hs
  · exact Or.inl ⟨cmd, hlog cmd hcmd, hs⟩
  · exact Or.inr hs

lemma signalPending_suspended {pc : CallPc} (h : pc.signalPending = true) : pc.suspended = true := by
  cases pc <;> simp_all [CallPc.signalPending, CallPc.suspended]

lemma flight_suspended {pc : CallPc} {cmd : Command} {a : Await} (h : pc.flight cfg = some (cmd, a)) :
    pc.suspended = true := by
  cases pc <;> simp_all [CallPc.flight, CallPc.suspended]

lemma signalPending_flight {pc : CallPc} {cmd : Command} {a : Await} (hf : pc.flight cfg = some (cmd, a))
    (hs : pc.signalPending = true) : cmd.signals = true := by
  cases pc with
  | publishing m b =>
    obtain ⟨rfl, -⟩ : Command.publish cfg.terminateChannel m = cmd ∧ _ := by simpa [CallPc.flight] using hf
    rfl
  | _ => cases hs

lemma Delivers.apply {first : Call} {later : List Call} {cmd : Command} {a : Await} (h : Delivers v first later)
    (hf : first.pc.flight cfg = some (cmd, a)) (calls : List Call) (pc : CallPc) :
    Delivers { v with calls := calls, log := v.log ++ [cmd] } { first with pc := pc } later := by
  refine ⟨fun _ => h.alone (flight_suspended hf), Or.inl ?_⟩
  rcases h.signal with ⟨x, hx, hs⟩ | hs
  · exact ⟨x, List.mem_append_left _ hx, hs⟩
  · exact ⟨cmd, List.mem_append_right _ (List.mem_singleton_self cmd), signalPending_flight hf hs⟩

lemma sequential_step (henabled : cfg.isHeartbeatEnabled = true) (hone : OneSignal cfg v)
    (h : Sequential v) (hs : ViewStep cfg false v v')
    (hseq : v.calls.length < v'.calls.length → ∀ c ∈ v.calls, c.pc.suspended = false) :
    Sequential v' := by
  generalize hl : false = lossy at hs
  cases hs with
  | quiet => exact h
  | leaveWrite _ cmd _ => exact fun first later hc => (h first later hc).of_log (fun _ hx => hx) _
  | applyWrite _ cmd _ =>
    exact fun first later hc => (h first later hc).of_log (fun _ hx => List.mem_append_left _ hx) _
  | applyOrphan _ k cmd _ =>
    exact fun first later hc => (h first later hc).of_log (fun _ hx => List.mem_append_left _ hx) _
  | dropOrphan _ k => exact fun first later hc => (h first later hc).of_log (fun _ hx => hx) _
  | first _ c hv hc =>
    intro first later hcalls
    rcases hone with hno | ⟨_, _, hfirst⟩
    · obtain ⟨rfl, rfl⟩ : c = first ∧ [] = later := by simpa [hno.calls] using hcalls
      rw [Starts, if_pos henabled] at hc
      obtain ⟨m, k, _, hpc⟩ := hc
      exact ⟨fun _ => rfl, Or.inr (by simp [hpc, CallPc.signalPending, Await.start])⟩
    · rw [hfirst.signaled] at hv
      cases hv
  | duplicate _ c hv hc =>
    intro first later hcalls
    rcases hone with hno | ⟨first', later', hfirst⟩
    · rw [hno.signaled] at hv
      cases hv
    · obtain ⟨rfl, rfl⟩ : first' = first ∧ later' ++ [c] = later := by simpa [hfirst.calls] using hcalls
      have hidle := hseq (by simp) first' (by simp [hfirst.calls])
      refine ⟨fun hsus => ?_, (h first' later' hfirst.calls).signal⟩
      rw [hidle] at hsus
      cases hsus
  | apply _ i c cmd a hc hf ha =>
    intro first later hcalls
    rcases hone with hno | ⟨first', later', hfirst⟩
    · simp [hno.calls] at hc
    · obtain ⟨rfl, rfl⟩ := hfirst.is_first hc (flight_open hf)
      obtain ⟨rfl, rfl⟩ := List.cons.inj ((congrArg (List.set · 0 _) hfirst.calls).symm.trans hcalls)
      exact (h first' later' hfirst.calls).apply hf _ _
  | move _ i c _ cancelled pc lost hc hm =>
    subst hl
    intro first later hcalls
    rcases hone with hno | ⟨first', later', hfirst⟩
    · simp [hno.calls] at hc
    · have hd := h first' later' hfirst.calls
      rw [hfirst.calls] at hc hcalls
      cases i with
      | zero =>
        obtain rfl := Option.some.inj hc
        obtain ⟨rfl, rfl⟩ := List.cons.inj hcalls
        exact ⟨fun hsus => hd.alone (hm.suspended hsus), hd.signal.imp_right hm.signalPending⟩
      | succ i =>
        obtain ⟨rfl, rfl⟩ := List.cons.inj hcalls
        refine ⟨fun hsus => ?_, hd.signal⟩
        simp [hd.alone hsus] at hc

lemma stuck_of_lossy (hone : OneSignal cfg v) (h : Sequential v) (hs : ViewStep cfg true v v') :
    v'.signaled = true ∧ (∀ c ∈ v'.calls, c.pc.suspended = false) ∧
      ∀ cmd ∈ v'.log, cmd.signals = false := by
  obtain ⟨lossy, hl, hs⟩ : ∃ lossy, lossy = true ∧ ViewStep cfg lossy v v' := ⟨true, rfl, hs⟩
  cases hs with
  | move _ i c _ cancelled pc lost hc hm =>
    obtain ⟨hpending, hended⟩ := hm.lossy hl
    rcases hone with hno | ⟨first, later, hfirst⟩
    · simp [hno.calls] at hc
    · obtain ⟨rfl, rfl⟩ := hfirst.is_first hc (signalPending_open hpending)
      have hlater := (h first later hfirst.calls).alone (signalPending_suspended hpending)
      have honce := hfirst.once
      rw [if_pos hpending] at honce
      have hnone : signalCount v.log = 0 := by omega
      refine ⟨hfirst.signaled, ?_, fun cmd hcmd => ?_⟩
      · simp [hfirst.calls, hlater, hended]
      · simpa using List.countP_eq_zero.mp hnone cmd hcmd
  | _ => cases hl

/-- With the heartbeat enabled and one call after the other, a run never gets stuck exactly when no
call leaves `publish` before its message is applied. -/
theorem never_stuck_iff (henabled : cfg.isHeartbeatEnabled = true) {as : List Action}
    (hrun : ((lifecycle cfg).exec (init cfg) as).isSome)
    (hseq : (lifecycle cfg).Guarded (OneAfterAnother cfg) (init cfg) as) :
    (lifecycle cfg).Always (fun w => ¬ Stuck w) (init cfg) as ↔
      (lifecycle cfg).Guarded (fun w a => w.losesSignal a = false) (init cfg) as := by
  refine Machine.always_iff_guarded (I := fun w => OneSignal cfg w.view ∧ Sequential w.view) hrun hseq
    ⟨Or.inl ⟨rfl, rfl, by simp [view, init], by simp [view, init]⟩, by simp [Sequential, view, init]⟩ ?_ ?_ ?_
  · rintro w ⟨hone, hsequential⟩ ⟨hsignaled, hended, hlog⟩
    rcases hone with hno | ⟨first, later, hfirst⟩
    · rw [show w.signaled = false from hno.signaled] at hsignaled
      cases hsignaled
    · have hcalls : w.calls = first :: later := hfirst.calls
      rcases (hsequential first later hfirst.calls).signal with ⟨cmd, hcmd, hs⟩ | hs
      · rw [hlog cmd hcmd] at hs
        cases hs
      · have hsus := hended first (by simp [hcalls])
        rw [signalPending_suspended hs] at hsus
        cases hsus
  · rintro w a w' ⟨hone, hsequential⟩ hpre hok hn
    have hstep := view_step hn
    rw [hok] at hstep
    refine ⟨hone.step hstep, sequential_step henabled hone hsequential hstep fun hlen => hpre ?_⟩
    have hn' : w.next cfg a = some w' := hn
    simpa [hn', view] using hlen
  · rintro w a w' ⟨hone, hsequential⟩ - hbad hn hok
    have hstep := view_step hn
    rw [Bool.not_eq_false _ |>.mp hbad] at hstep
    exact hok (stuck_of_lossy hone hsequential hstep)

def failThenTerm : List Action :=
  [.call (lit "unhealthy") false, .fail (.call 0), .call (lit "shutdown") false, .closed 1]

theorem failThenTerm_stuck : ∃ w, (lifecycle .sample).exec (init .sample) failThenTerm = some w ∧
    (lifecycle .sample).Guarded (OneAfterAnother .sample) (init .sample) failThenTerm ∧
      Stuck w ∧ w.log.length = 0 ∧ w.calls.length = 2 := by
  have hrun : ((lifecycle .sample).exec (init .sample) failThenTerm).any (fun w =>
      Stuck w ∧ w.log.length = 0 ∧ w.calls.length = 2) = true := by
    decide +kernel
  have hseq : (lifecycle .sample).Guarded (OneAfterAnother .sample) (init .sample) failThenTerm := by
    decide +kernel
  obtain ⟨w, he, hw⟩ := (Option.any_eq_true _ _).mp hrun
  exact ⟨w, he, hseq, by simpa using hw⟩

def oneShutdown : List Action :=
  [.call (lit "shutdown") false, .send (.call 0), .apply (.call 0), .fail (.call 0)]

theorem oneShutdown_never_stuck :
    (lifecycle .sample).Always (fun w => ¬ Stuck w) (init .sample) oneShutdown :=
  (never_stuck_iff (by decide) (by decide +kernel) (by decide +kernel)).mpr (by decide +kernel)

end GemmaWorker.Heartbeat
