import GemmaWorker.Heartbeat.Signal

/-! The signal of the idle monitor is lost: the monitor cancels its own task before it signals, and the
cancellation comes at the first suspension, inside `publish`. -/

namespace GemmaWorker.Heartbeat

open Python World Library

variable {cfg : Config} {w w' : World} {t : Task}

/-- Only the idle monitor shuts the worker down, and Redis accepts every command. -/
def undisturbed : Action → Bool
  | .call _ _ | .executorDone false | .fail _ | .closeFailed _ | .cancel _ => false
  | _ => true

def NoSignal (w : World) : Prop :=
  ∀ cmd, cmd ∈ w.log ∨ cmd ∈ w.orphans → cmd.signals = false

/-- A step that touches neither the calls nor the monitor, and does not bring the boot task back. -/
structure Aside (w w' : World) : Prop where
  calls : w'.calls = w.calls
  signaled : w'.signaled = w.signaled
  monitor : w'.monitor = w.monitor
  idleHandle : w'.idleHandle = w.idleHandle
  boot : w.boot.pc = .ended → w'.boot.pc = .ended
  noSignal : NoSignal w → NoSignal w'

lemma Aside.refl (w : World) : Aside w w := ⟨rfl, rfl, rfl, rfl, id, id⟩

lemma Aside.trans {u : World} (h : Aside w w') (h' : Aside w' u) : Aside w u :=
  ⟨h'.calls.trans h.calls, h'.signaled.trans h.signaled, h'.monitor.trans h.monitor,
    h'.idleHandle.trans h.idleHandle, h'.boot ∘ h.boot, h'.noSignal ∘ h.noSignal⟩

structure Watching (w : World) : Prop where
  calls : w.calls = []
  signaled : w.signaled = false
  noSignal : NoSignal w
  monitor : w.monitor.pc = .absent ∨
    w.monitor = ⟨.sleeping, false⟩ ∧ w.idleHandle = true ∧ w.boot.pc = .ended

structure Pausing (w : World) (c : Call) : Prop where
  calls : w.calls = [c]
  reason : c.reason = idleReason
  cancelRequested : c.cancelRequested = true
  pc : (∃ m k, c.pc = .publishing m (.start k)) ∨ c.pc = .cancelled
  signaled : w.signaled = true
  noSignal : NoSignal w
  monitor : w.monitor.pc = .shuttingDown 0
  boot : w.boot.pc = .ended

lemma Watching.aside (h : Watching w) (ha : Aside w w') : Watching w' := by
  refine ⟨ha.calls.trans h.calls, ha.signaled.trans h.signaled, ha.noSignal h.noSignal, ?_⟩
  rw [ha.monitor, ha.idleHandle]
  exact h.monitor.imp_right fun hm => ⟨hm.1, hm.2.1, ha.boot hm.2.2⟩

lemma Pausing.aside {c : Call} (h : Pausing w c) (ha : Aside w w') : Pausing w' c :=
  ⟨ha.calls.trans h.calls, h.reason, h.cancelRequested, h.pc, ha.signaled.trans h.signaled,
    ha.noSignal h.noSignal, ha.monitor ▸ h.monitor, ha.boot h.boot⟩

lemma aside_getRedis (w : World) : Aside w w.getRedis := by
  rw [getRedis]
  split <;> exact ⟨rfl, rfl, rfl, rfl, id, id⟩

lemma aside_setBeat (w : World) (b : BeatId) (pc : BeatPc) : Aside w (w.setBeat b pc) :=
  ⟨rfl, rfl, rfl, rfl, id, id⟩

lemma aside_sendHeartbeat (w : World) (b : BeatId) (now : ℚ) : Aside w (w.sendHeartbeat cfg b now) :=
  (aside_getRedis w).trans (aside_setBeat _ b _)

lemma aside_mapAwait (ht : ∀ i, t ≠ .call i) (f : Await → Await) : Aside w (w.mapAwait f t) := by
  cases t with
  | boot => exact ⟨rfl, rfl, rfl, rfl, fun h => by simp [mapAwait, setBoot, h, BootPc.mapAwait], id⟩
  | beat b => exact aside_setBeat w b _
  | monitor => exact Aside.refl w
  | call i => exact absurd rfl (ht i)

lemma noSignal_append {cmd : Command} (h : NoSignal w) (hs : cmd.signals = false) :
    (∀ x, x ∈ w.log ++ [cmd] ∨ x ∈ w.orphans → x.signals = false) ∧
      ∀ x, x ∈ w.log ∨ x ∈ w.orphans ++ [cmd] → x.signals = false := by
  have hor : ∀ xs : List Command, (∀ x ∈ xs, x.signals = false) →
      ∀ x ∈ xs ++ [cmd], x.signals = false := by
    intro xs hxs x hx
    rcases List.mem_append.mp hx with hx | hx
    · exact hxs x hx
    · exact List.mem_singleton.mp hx ▸ hs
  exact ⟨fun x hx => hx.elim (hor w.log (fun y hy => h y (Or.inl hy)) x) fun hx => h x (Or.inr hx),
    fun x hx => hx.elim (fun hx => h x (Or.inl hx)) (hor w.orphans (fun y hy => h y (Or.inr hy)) x)⟩

lemma aside_record {cmd : Command} (hw : cmd.signals = false) : Aside w (w.record cmd) :=
  ⟨rfl, rfl, rfl, rfl, id, fun h => (noSignal_append h hw).1⟩

lemma aside_abandon (ht : ∀ i, t ≠ .call i) : Aside w (w.abandon cfg t) := by
  obtain h | ⟨cmd, a, hf, -, h⟩ := abandon_cases cfg w t <;> rw [h]
  · exact Aside.refl w
  · have hs := writes_not_signals (flight_writes cfg w ht hf)
    exact ⟨rfl, rfl, rfl, rfl, id, fun h => (noSignal_append h hs).2⟩

/-- What a step may do besides standing aside, when only the monitor shuts the worker down. -/
inductive Special (cfg : Config) (w w' : World) : Prop
  | healthy (a : Await) (h : w.boot.pc = .markingHealthy a)
      (hw : w' = (w.startIdleTimeout cfg).setBoot .ended)
  | idle (h : w.monitor.pc = .sleeping)
      (hw : w' = w.enterCallback.beginCall cfg idleReason false w.idleHandle)
  | monitorCancelled (h : w.monitor.pc = .sleeping) (hc : w.monitor.cancelRequested = true)
  | call (i : ℕ) (c : Call) (f : Command × Await) (hc : w.calls[i]? = some c)
      (hf : c.pc.flight cfg = some f) (hp : f.2.phase = .waiting → c.cancelRequested = false)
  | closing (i : ℕ) (c : Call) (hc : w.calls[i]? = some c) (h : c.pc = .closing)
  | callCancelled (i : ℕ) (c : Call) (hc : w.calls[i]? = some c) (hs : c.pc.suspended = true)
      (hw : w' = (w.abandon cfg (.call i)).setCall i .cancelled)

lemma special_of_flight {i : ℕ} {f : Command × Await} (hf : w.flight cfg (.call i) = some f)
    (hp : f.2.phase = .waiting → w.cancelRequested (.call i) = false) : Special cfg w w' := by
  obtain ⟨c, hc, hcf⟩ := flight_call hf
  exact .call i c f hc hcf fun h => by simpa [cancelRequested, hc] using hp h

lemma undisturbed_cancelled (hreq : w.cancelRequested t = true)
    (hn : (w.abandon cfg t).cancelled t = some w') : Aside w w' ∨ Special cfg w w' := by
  cases cancelled_unwound hn with
  | boot => exact Or.inl ((aside_abandon (by simp)).trans ⟨rfl, rfl, rfl, rfl, fun _ => rfl, id⟩)
  | beat b => exact Or.inl ((aside_abandon (by simp)).trans (aside_setBeat _ b _))
  | monitor hpc => exact Or.inr (.monitorCancelled hpc hreq)
  | call i c' hc' hs =>
    obtain ⟨c, hc⟩ := requested_call hreq
    obtain rfl := Option.some.inj ((abandon_calls hc).symm.trans hc')
    exact Or.inr (.callCancelled i c hc hs rfl)

lemma undisturbed_executor (hn : w.executorDone cfg true = some w') : Aside w w' := by
  cases executorDone_loaded hn with
  | downloaded hpc =>
    have hne : w.boot.pc ≠ .ended := by rw [hpc]; simp
    exact ⟨rfl, rfl, rfl, rfl, fun hb => absurd hb hne, id⟩
  | started hpc =>
    have hne : w.boot.pc ≠ .ended := by rw [hpc]; simp
    have h := aside_getRedis w
    exact ⟨h.calls, h.signaled, h.monitor, h.idleHandle, fun hb => absurd hb hne, h.noSignal⟩
  | silent => exact ⟨rfl, rfl, rfl, rfl, fun _ => rfl, id⟩

lemma aside_bootRun (hpc : w.boot.pc = .created) : Aside w (w.bootRun cfg) := by
  have hne : w.boot.pc ≠ .ended := by rw [hpc]; simp
  rw [bootRun, startHeartbeat]
  split_ifs <;> exact ⟨rfl, rfl, rfl, rfl, fun h => absurd h hne, id⟩

theorem undisturbed_step {a : Action} (ha : undisturbed a = true) (hn : w.next cfg a = some w') :
    Aside w w' ∨ Special cfg w w' := by
  cases next_stepped hn with
  | bootRun _ hpc => exact Or.inl (aside_bootRun hpc)
  | executorDone ok _ _ _ h =>
    cases ok with
    | false => cases ha
    | true => exact Or.inl (undisturbed_executor h)
  | wakeBeat b now => exact Or.inl (aside_sendHeartbeat w b now)
  | early => exact Or.inl (Aside.refl w)
  | idle _ _ hpc => exact Or.inr (.idle hpc rfl)
  | request => exact Or.inl ⟨rfl, rfl, rfl, rfl, id, id⟩
  | send t cmd a _ hf _ hc =>
    rcases task_cases t with ⟨i, rfl⟩ | ht
    · exact Or.inr (special_of_flight hf fun _ => hc)
    · exact Or.inl ((aside_mapAwait ht _).trans ⟨rfl, rfl, rfl, rfl, id, id⟩)
  | apply t cmd a hf hp =>
    rcases task_cases t with ⟨i, rfl⟩ | ht
    · exact Or.inr (special_of_flight hf fun h => by rw [hp] at h; cases h)
    · exact Or.inl ((aside_mapAwait ht _).trans (aside_record (writes_not_signals (flight_writes cfg w ht hf))))
  | deliver t cmd a _ hf hp =>
    rcases task_cases t with ⟨i, rfl⟩ | ht
    · exact Or.inr (special_of_flight hf fun h => by rw [hp] at h; cases h)
    · exact Or.inl (aside_mapAwait ht _)
  | resume t cmd a _ _ hf hp hc h =>
    cases t with
    | boot =>
      obtain rfl := Option.some.inj h
      cases hpc : w.boot.pc with
      | markingHealthy a => exact Or.inr (.healthy a hpc rfl)
      | _ => simp [flight, hpc, BootPc.flight] at hf
    | beat b =>
      obtain rfl := Option.some.inj h
      exact Or.inl (aside_setBeat w b _)
    | monitor => cases hf
    | call i => exact Or.inr (special_of_flight hf fun _ => hc)
  | cancelled t _ _ hreq h => exact undisturbed_cancelled hreq h
  | closed i c _ hi hpc => exact Or.inr (.closing i c hi hpc)
  | applyOrphan k cmd hk =>
    refine Or.inl ⟨rfl, rfl, rfl, rfl, id, fun h x hx => ?_⟩
    rcases hx with hx | hx
    · rcases List.mem_append.mp hx with hx | hx
      · exact h x (Or.inl hx)
      · exact List.mem_singleton.mp hx ▸ h cmd (Or.inr (List.mem_of_getElem? hk))
    · exact h x (Or.inr (List.mem_of_mem_eraseIdx hx))
  | dropOrphan k =>
    exact Or.inl ⟨rfl, rfl, rfl, rfl, id, fun h x hx => h x (hx.imp_right List.mem_of_mem_eraseIdx)⟩
  | expire => exact Or.inl ⟨rfl, rfl, rfl, rfl, id, id⟩
  | _ => cases ha

lemma stopHeartbeat_aside (w : World) : Aside w w.stopHeartbeat := by
  rw [stopHeartbeat]
  split_ifs <;> exact ⟨rfl, rfl, rfl, rfl, id, id⟩

lemma halted_aside (h : w.idleHandle = false) : Aside { w with signaled := true } w.halted := by
  have hside := stopHeartbeat_aside { w with signaled := true }
  have hidle := hside.idleHandle.trans h
  rw [halted, stopIdleTimeout, hidle]
  exact hside

lemma Watching.pause (henabled : cfg.isHeartbeatEnabled = true) (h : Watching w)
    (hpc : w.monitor.pc = .sleeping) :
    ∃ c, Pausing (w.enterCallback.beginCall cfg idleReason false w.idleHandle) c := by
  rcases h.monitor with hm | ⟨_, hhandle, hboot⟩
  · rw [hm] at hpc
    cases hpc
  set u := w.enterCallback.halted with hu
  have hside : Aside { w.enterCallback with signaled := true } u.getRedis :=
    (halted_aside rfl).trans (aside_getRedis u)
  have hcalls : u.getRedis.calls = [] := hside.calls.trans h.calls
  have hmonitor : u.getRedis.monitor.pc = .shuttingDown 0 := by
    rw [hside.monitor]
    simp [enterCallback, h.calls]
  have hsignaled : w.enterCallback.signaled = false := h.signaled
  rw [beginCall_first henabled hsignaled, hhandle, ← hu]
  generalize jsonDumps _ = m
  refine ⟨⟨idleReason, false, true, .publishing m (.start u.client)⟩, ?_, rfl, rfl, Or.inl ⟨m, _, rfl⟩,
    hside.signaled, hside.noSignal h.noSignal, hmonitor, hside.boot hboot⟩
  rw [addCall, hcalls, List.nil_append]

lemma Watching.step (henabled : cfg.isHeartbeatEnabled = true) {a : Action} (h : Watching w)
    (ha : undisturbed a = true) (hn : w.next cfg a = some w') : Watching w' ∨ ∃ c, Pausing w' c := by
  have hempty (i : ℕ) (c : Call) (hc : w.calls[i]? = some c) : Watching w' ∨ ∃ c, Pausing w' c := by
    simp [h.calls] at hc
  rcases undisturbed_step ha hn with hside | hspecial
  · exact Or.inl (h.aside hside)
  · cases hspecial with
    | healthy a hpc hw =>
      have hmonitor := h.monitor.resolve_right fun hm => by simp [hm.2.2] at hpc
      subst hw
      refine Or.inl ?_
      rw [startIdleTimeout]
      split_ifs
      · exact ⟨h.calls, h.signaled, h.noSignal, Or.inl hmonitor⟩
      · exact ⟨h.calls, h.signaled, h.noSignal, Or.inr ⟨rfl, rfl, rfl⟩⟩
    | idle hpc hw => exact Or.inr (hw ▸ h.pause henabled hpc)
    | monitorCancelled hpc hc =>
      rcases h.monitor with hm | ⟨hm, _⟩
      · rw [hm] at hpc
        cases hpc
      · simp [hm] at hc
    | call i c f hc => exact hempty i c hc
    | closing i c hc => exact hempty i c hc
    | callCancelled i c hc => exact hempty i c hc

lemma Pausing.step {a : Action} {c : Call} (h : Pausing w c) (ha : undisturbed a = true)
    (hn : w.next cfg a = some w') : ∃ c', Pausing w' c' := by
  have hfirst {i : ℕ} {d : Call} (hd : w.calls[i]? = some d) : i = 0 ∧ c = d := by
    rw [h.calls] at hd
    cases i with
    | zero => exact ⟨rfl, Option.some.inj hd⟩
    | succ i => simp at hd
  rcases undisturbed_step ha hn with hside | hspecial
  · exact ⟨c, h.aside hside⟩
  · cases hspecial with
    | healthy a hpc => simp [h.boot] at hpc
    | idle hpc => simp [h.monitor] at hpc
    | monitorCancelled hpc => simp [h.monitor] at hpc
    | call i d f hd hf hp =>
      obtain ⟨rfl, rfl⟩ := hfirst hd
      rcases h.pc with ⟨m, k, hpc⟩ | hpc
      · obtain rfl : (Command.publish cfg.terminateChannel m, Await.start k) = f := by
          simpa [hpc, CallPc.flight] using hf
        have hc := hp rfl
        rw [h.cancelRequested] at hc
        cases hc
      · simp [hpc, CallPc.flight] at hf
    | closing i d hd hpc' =>
      obtain ⟨rfl, rfl⟩ := hfirst hd
      rcases h.pc with ⟨m, k, hpc⟩ | hpc <;> simp [hpc] at hpc'
    | callCancelled i d hd hs hw =>
      obtain ⟨rfl, rfl⟩ := hfirst hd
      rcases h.pc with ⟨m, k, hpc⟩ | hpc
      · have hstay : w.abandon cfg (.call 0) = w := by
          simp [abandon, flight, h.calls, hpc, CallPc.flight, Await.start]
        refine ⟨{ c with pc := .cancelled }, ?_⟩
        rw [hw, hstay]
        exact ⟨by simp [setCall, modifyCall, h.calls], h.reason, h.cancelRequested, Or.inr rfl, h.signaled,
          h.noSignal, h.monitor, h.boot⟩
      · simp [hpc, CallPc.suspended] at hs

def monitorEnded (w : World) : Bool :=
  match w.monitor.pc with
  | .ended => true
  | .shuttingDown i => w.calls[i]?.all (fun c => !c.pc.suspended)
  | _ => false

lemma Pausing.cancelled {c : Call} {m : PyStr} {k : ℕ} (h : Pausing w c)
    (hpc : c.pc = .publishing m (.start k)) : ∃ u, w.next cfg (.cancelled (.call 0)) = some u ∧
      monitorEnded u = true ∧ u.signaled = true ∧ NoSignal u := by
  have hstay : w.abandon cfg (.call 0) = w := by
    simp [abandon, flight, h.calls, hpc, CallPc.flight, Await.start]
  have hexited : w.exited = false := by
    simp [World.exited, h.boot, h.calls, hpc, Call.hasExited]
  refine ⟨w.setCall 0 .cancelled, ?_, ?_, h.signaled, h.noSignal⟩
  · have hreq : w.cancelRequested (.call 0) = true := by
      simp [World.cancelRequested, h.calls, h.cancelRequested]
    simp [next, hexited, run, hreq, hstay, World.cancelled, h.calls, hpc, CallPc.suspended]
  · simp [monitorEnded, setCall, modifyCall, h.monitor, h.calls, CallPc.suspended]

/-- Whenever only the idle monitor shuts the worker down, its signal is lost: nothing is or will be
published, and the callback's next step ends the monitor task with the flag set. -/
theorem idle_signal_lost (henabled : cfg.isHeartbeatEnabled = true) {as : List Action}
    (hg : (lifecycle cfg).Guarded (fun _ a => undisturbed a = true) (init cfg) as)
    (he : (lifecycle cfg).exec (init cfg) as = some w) {i : ℕ} (hm : w.monitor.pc = .shuttingDown i) :
    w.signaled = true ∧ NoSignal w ∧ (monitorEnded w = true ∨
      ∃ u, w.next cfg (.cancelled (.call i)) = some u ∧ monitorEnded u = true ∧ u.signaled = true ∧
        NoSignal u) := by
  have hinv : Watching w ∨ ∃ c, Pausing w c := by
    have hinit : Watching (init cfg) := ⟨rfl, rfl, by simp [NoSignal, init], Or.inl rfl⟩
    refine Machine.Guarded.invariant (I := fun w => Watching w ∨ ∃ c, Pausing w c) hg he (Or.inl hinit)
      fun w a w' h ha hn => ?_
    rcases h with h | ⟨c, h⟩
    · exact h.step henabled ha hn
    · exact Or.inr (h.step ha hn)
  rcases hinv with h | ⟨c, h⟩
  · rcases h.monitor with hpc | ⟨hpc, _⟩ <;> simp [hpc] at hm
  · obtain rfl : 0 = i := by simpa [h.monitor] using hm
    refine ⟨h.signaled, h.noSignal, ?_⟩
    rcases h.pc with ⟨m, k, hpc⟩ | hpc
    · exact Or.inr (h.cancelled hpc)
    · exact Or.inl (by simp [monitorEnded, hm, h.calls, hpc, CallPc.suspended])

def bootThenIdle : List Action :=
  [.bootRun, .executorDone true, .executorDone true, .send .boot, .apply .boot, .deliver .boot, .resume .boot,
    .tick 1200]

theorem bootThenIdle_unsignalled :
    ∃ w, (lifecycle .sample).exec (init .sample) (bootThenIdle ++ [.cancelled (.call 0)]) = some w ∧
      (lifecycle .sample).Guarded (fun _ a => undisturbed a = true) (init .sample)
        (bootThenIdle ++ [.cancelled (.call 0)]) ∧
      monitorEnded w = true ∧ w.signaled = true ∧ ∀ cmd ∈ w.log ++ w.orphans, cmd.signals = false := by
  have hrun : ((lifecycle .sample).exec (init .sample) (bootThenIdle ++ [.cancelled (.call 0)])).any
      (fun w => monitorEnded w = true ∧ w.signaled = true ∧
        ∀ cmd ∈ w.log ++ w.orphans, cmd.signals = false) = true := by
    decide +kernel
  obtain ⟨w, he, hw⟩ := (Option.any_eq_true _ _).mp hrun
  exact ⟨w, he, by decide +kernel, by simpa using hw⟩

theorem bootThenIdle_signal_lost :
    ∃ w, (lifecycle .sample).exec (init .sample) bootThenIdle = some w ∧ w.signaled = true ∧ NoSignal w := by
  have hrun : ((lifecycle .sample).exec (init .sample) bootThenIdle).any
      (fun w => match w.monitor.pc with | .shuttingDown 0 => true | _ => false) = true := by
    decide +kernel
  obtain ⟨w, he, hm⟩ := (Option.any_eq_true _ _).mp hrun
  have hpc : w.monitor.pc = .shuttingDown 0 := by
    split at hm
    · assumption
    · cases hm
  have h := idle_signal_lost (by decide) (by decide +kernel) he hpc
  exact ⟨w, he, h.1, h.2.1⟩

end GemmaWorker.Heartbeat
