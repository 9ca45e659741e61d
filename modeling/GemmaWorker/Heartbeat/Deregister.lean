import GemmaWorker.Heartbeat.Writers

/-! Which commands may follow the `srem` of `deregister`: none, in a run whose deregistration meets a
quiet worker. From any other deregistration some run writes to the registry again. -/

namespace GemmaWorker.Heartbeat

open Python World Library

namespace World

variable {cfg : Config} {w w' : World} {t : Task}

section Recreation

def Recreates (cfg : Config) (w : World) : Prop :=
  ∃ as u cmd, (lifecycle cfg).exec w as = some u ∧ u.log = w.log ++ [cmd] ∧ cmd.writes = true

lemma Recreates.of_next {a : Action} (hn : w.next cfg a = some w') (hl : w'.log = w.log)
    (h : Recreates cfg w') : Recreates cfg w := by
  obtain ⟨as, u, cmd, he, hlog, hw⟩ := h
  exact ⟨a :: as, u, cmd, (Machine.exec_cons hn).trans he, hl ▸ hlog, hw⟩

/-- Some run from here applies the command next. -/
def Applies (cfg : Config) (w : World) (cmd : Command) : Prop :=
  ∃ as u, (lifecycle cfg).exec w as = some u ∧ u.log = w.log ++ [cmd]

lemma Applies.recreates {cmd : Command} (h : Applies cfg w cmd) (hw : cmd.writes = true) :
    Recreates cfg w := by
  obtain ⟨as, u, he, hlog⟩ := h
  exact ⟨as, u, cmd, he, hlog, hw⟩

lemma applies_of_applied {a : Action} {cmd : Command} (hn : w.next cfg a = some w')
    (ha : w.applied cfg a = some cmd) : Applies cfg w cmd := by
  refine ⟨[a], w', Machine.exec_cons hn, ?_⟩
  rw [log_step hn, ha]
  rfl

lemma flight_mapAwait (w : World) (f : Await → Await) (ht : ∀ i, t ≠ .call i) :
    (w.mapAwait f t).flight cfg t = (w.flight cfg t).map (fun x => (x.1, f x.2)) := by
  cases t with
  | boot => cases hpc : w.boot.pc <;> simp [mapAwait, setBoot, flight, BootPc.mapAwait, BootPc.flight, hpc]
  | beat b =>
    cases hpc : (w.beat b).pc <;> simp [mapAwait, setBeat, flight, BeatPc.mapAwait, BeatPc.flight, hpc]
  | monitor => rfl
  | call i => exact absurd rfl (ht i)

lemma applies_sent {cmd : Command} {a : Await} (hf : w.flight cfg t = some (cmd, a))
    (ha : a.phase = .sent) : Applies cfg w cmd := by
  have hn : w.next cfg (.apply t) = some ((w.setPhase t .applied).record cmd) := by simp [next, hf, ha]
  exact applies_of_applied hn (by simp [applied, hf, ha])

lemma applies_orphan {cmd : Command} (h : cmd ∈ w.orphans) : Applies cfg w cmd := by
  obtain ⟨k, hk⟩ := List.mem_iff_getElem?.mp h
  have hn : w.next cfg (.applyOrphan k) = some ({ w with orphans := w.orphans.eraseIdx k }.record cmd) := by
    simp [next, hk]
  exact applies_of_applied hn hk

lemma applies_waiting {cmd : Command} {a : Await} (hx : w.exited = false) (ht : ∀ i, t ≠ .call i)
    (hf : w.flight cfg t = some (cmd, a)) (ha : a.phase = .waiting) (hc : w.cancelRequested t = false) :
    Applies cfg w cmd := by
  have hn : w.next cfg (.send t) = some (w.send t a) := by simp [next, hx, run, hf, ha, hc]
  have hf' : (w.send t a).flight cfg t = some (cmd, { a with epoch := w.epoch a.client, phase := .sent }) := by
    have hm := @flight_mapAwait cfg _ w (fun a => { a with epoch := w.epoch a.client, phase := .sent }) ht
    rw [hf] at hm
    exact hm
  have hl : (w.send t a).log = w.log := log_mapAwait w _ t
  obtain ⟨as, u, he, hlog⟩ := applies_sent hf' rfl
  exact ⟨.send t :: as, u, (Machine.exec_cons hn).trans he, hl ▸ hlog⟩

lemma recreates_sent {cmd : Command} {a : Await} (ht : ∀ i, t ≠ .call i)
    (hf : w.flight cfg t = some (cmd, a)) (ha : a.phase = .sent) : Recreates cfg w :=
  (applies_sent hf ha).recreates (flight_writes cfg w ht hf)

lemma recreates_waiting {cmd : Command} {a : Await} (hx : w.exited = false) (ht : ∀ i, t ≠ .call i)
    (hf : w.flight cfg t = some (cmd, a)) (ha : a.phase = .waiting) (hc : w.cancelRequested t = false) :
    Recreates cfg w :=
  (applies_waiting hx ht hf ha hc).recreates (flight_writes cfg w ht hf)

lemma exited_getRedis (w : World) : w.getRedis.exited = w.exited := by
  rw [getRedis]
  split <;> rfl

lemma recreates_awake {b : BeatId} (hx : w.exited = false) (ha : awake (w.beat b).pc = true)
    (hc : w.cancelRequested (.beat b) = false) : Recreates cfg w := by
  have hn : w.next cfg (.wakeBeat b 0) = some (w.sendHeartbeat cfg b 0) := by
    have hc' : (w.beat b).cancelRequested = false := hc
    simp [next, hx, run, ha, hc']
  have hbeat : w.getRedis.beat = w.beat := by
    rw [getRedis]
    split <;> rfl
  have hf : (w.sendHeartbeat cfg b 0).flight cfg (.beat b) =
      some (.heartbeat (heartbeatFields cfg w.tracker.load w.status 0), .start w.client) := by
    simp [sendHeartbeat, flight, setBeat, BeatPc.flight]
  refine Recreates.of_next hn (log_getRedis w) (recreates_waiting ?_ (by simp) hf rfl ?_)
  · exact (exited_getRedis w).trans hx
  · simpa [sendHeartbeat, World.cancelRequested, setBeat, hbeat] using hc

lemma recreates_loop {fields : Fields} {a : Await} (hx : w.exited = false)
    (hpc : (w.beat .loop).pc = .beating fields a) (hc : w.cancelRequested (.beat .loop) = false) :
    Recreates cfg w := by
  have hf : w.flight cfg (.beat .loop) = some (.heartbeat fields, a) := flight_beat hpc
  have hnext : Recreates cfg (w.setBeat .loop .sleeping) := by
    refine recreates_awake (b := .loop) hx (by simp [setBeat, awake]) ?_
    simpa [World.cancelRequested, setBeat] using hc
  cases hp : a.phase with
  | waiting => exact recreates_waiting hx (by simp) hf hp hc
  | sent => exact recreates_sent (by simp) hf hp
  | applied =>
    have hn : w.next cfg (.fail (.beat .loop)) = some (w.setBeat .loop .sleeping) := by
      simp [next, hx, run, hf, hp, hc, World.abandon, resume, afterBeat]
    exact hnext.of_next hn rfl
  | answered =>
    have hn : w.next cfg (.resume (.beat .loop)) = some (w.setBeat .loop .sleeping) := by
      simp [next, hx, run, hf, hp, hc, resume, afterBeat]
    exact hnext.of_next hn rfl

lemma exited_setBoot {pc : BootPc} (hx : w.exited = false) (hpc : pc ≠ .exited) :
    (w.setBoot pc).exited = false := by
  cases pc <;> simp_all [World.exited, setBoot]

lemma recreates_initialising (henabled : cfg.isHeartbeatEnabled = true) (hx : w.exited = false)
    (hpc : w.boot.pc = .initialising) (hc : w.cancelRequested .boot = false) : Recreates cfg w := by
  have hc' : w.boot.cancelRequested = false := hc
  have hn : w.next cfg (.executorDone true) =
      some ((w.getRedis.setStatus .healthy).setBoot (.markingHealthy (.start w.client))) := by
    simp [next, hx, run, hc', executorDone, hpc, henabled]
  have hboot : w.getRedis.boot = w.boot := by
    rw [getRedis]
    split <;> rfl
  refine Recreates.of_next hn (log_getRedis w) (recreates_waiting (t := .boot) ?_ (by simp) rfl rfl ?_)
  · exact exited_setBoot ((exited_getRedis w).trans hx) (by simp)
  · simpa [World.cancelRequested, setBoot, setStatus, hboot] using hc'

lemma recreates_downloading (henabled : cfg.isHeartbeatEnabled = true) (hx : w.exited = false)
    (hpc : w.boot.pc = .downloading) (hc : w.cancelRequested .boot = false) : Recreates cfg w := by
  have hc' : w.boot.cancelRequested = false := hc
  have hn : w.next cfg (.executorDone true) = some (w.setBoot .initialising) := by
    simp [next, hx, run, hc', executorDone, hpc]
  refine Recreates.of_next hn rfl (recreates_initialising henabled ?_ rfl hc)
  exact exited_setBoot hx (by simp)

lemma recreates_created (henabled : cfg.isHeartbeatEnabled = true) (hskip : cfg.skipModelLoad = false)
    (hx : w.exited = false) (hpc : w.boot.pc = .created) (hc : w.cancelRequested .boot = false) :
    Recreates cfg w := by
  have hc' : w.boot.cancelRequested = false := hc
  have hn : w.next cfg .bootRun = some ((w.startHeartbeat cfg).setBoot .downloading) := by
    simp [next, hx, run, hc', hpc, World.bootRun, hskip]
  have hstart : w.startHeartbeat cfg = { w with beat := fun _ => ⟨.created, false⟩, loopHandle := true } := by
    rw [startHeartbeat, if_pos henabled]
  rw [hstart] at hn
  refine Recreates.of_next hn rfl (recreates_downloading henabled ?_ rfl hc)
  exact exited_setBoot (w := { w with beat := fun _ => ⟨.created, false⟩, loopHandle := true }) hx (by simp)

lemma recreates_onWire {t : Task} (h : w.onWire t = true) : Recreates cfg w := by
  cases t with
  | boot =>
    cases hpc : w.boot.pc <;> simp [World.onWire, BootPc.onWire, hpc] at h
    exact recreates_sent (by simp) (flight_boot hpc) h
  | beat b =>
    cases hpc : (w.beat b).pc <;> simp [World.onWire, BeatPc.onWire, hpc] at h
    exact recreates_sent (by simp) (flight_beat hpc) h
  | _ => cases h

lemma recreates_boot (henabled : cfg.isHeartbeatEnabled = true) (hx : w.exited = false)
    (hc : w.cancelRequested .boot = false) (h : w.boot.pc.writesAgain cfg = true) : Recreates cfg w := by
  cases hpc : w.boot.pc with
  | created =>
    have hskip : cfg.skipModelLoad = false := by simpa [BootPc.writesAgain, hpc] using h
    exact recreates_created henabled hskip hx hpc hc
  | downloading => exact recreates_downloading henabled hx hpc hc
  | initialising => exact recreates_initialising henabled hx hpc hc
  | markingHealthy a =>
    have ha : a.phase = .waiting := by simpa [BootPc.writesAgain, hpc] using h
    exact recreates_waiting hx (by simp) (flight_boot hpc) ha hc
  | _ => simp [BootPc.writesAgain, hpc] at h

lemma recreates_beat {b : BeatId} (hx : w.exited = false) (hc : w.cancelRequested (.beat b) = false)
    (h : (w.beat b).pc.writesAgain b = true) : Recreates cfg w := by
  cases hpc : (w.beat b).pc with
  | created => exact recreates_awake hx (by simp [hpc, awake]) hc
  | sleeping => exact recreates_awake hx (by simp [hpc, awake]) hc
  | beating fields a =>
    have hb : a.phase = .waiting ∨ b = .loop := by simpa [BeatPc.writesAgain, hpc] using h
    rcases hb with ha | rfl
    · exact recreates_waiting hx (by simp) (flight_beat hpc) ha hc
    · exact recreates_loop hx hpc hc
  | _ => simp [BeatPc.writesAgain, hpc] at h

theorem recreates_of_not_quiet (henabled : cfg.isHeartbeatEnabled = true) (h : ¬ w.Quiet cfg) :
    Recreates cfg w := by
  by_contra hnone
  refine h ⟨fun cmd hcmd => ?_, fun t _ => Bool.eq_false_iff.mpr fun hw => hnone (recreates_onWire hw),
    fun hx t _ => Bool.eq_false_iff.mpr fun hw => hnone ?_⟩
  · by_contra hw
    exact hnone ((applies_orphan hcmd).recreates (by simpa using hw))
  · obtain ⟨hc, hagain⟩ : w.cancelRequested t = false ∧ w.writesAgain cfg t = true := by
      simpa [World.willWrite] using hw
    cases t with
    | boot => exact recreates_boot henabled hx hc hagain
    | beat b => exact recreates_beat hx hc hagain
    | _ => cases hagain

end Recreation

section Finality

/-- The step applies the `srem` of `deregister`, which comes after its `delete`. -/
def Deregisters (cfg : Config) (w : World) (a : Action) : Prop :=
  (w.applied cfg a).any Command.removesMember = true

def DeregistrationFinal (w : World) : Prop :=
  w.log.Pairwise (fun x y => x.removesMember = true → y.writes = false)

instance (a : Action) : Decidable (Deregisters cfg w a) :=
  inferInstanceAs (Decidable (_ = _))

instance : Decidable (DeregistrationFinal w) :=
  inferInstanceAs (Decidable (List.Pairwise _ _))

lemma mem_eraseIdx_of_ne {α : Type} {l : List α} {k : ℕ} {x y : α} (hx : x ∈ l) (hk : l[k]? = some y)
    (hne : x ≠ y) : x ∈ l.eraseIdx k := by
  obtain ⟨j, hj⟩ := List.mem_iff_getElem?.mp hx
  refine List.mem_eraseIdx_iff_getElem?.mpr ⟨j, fun hjk => ?_, hj⟩
  rw [hjk, hk] at hj
  exact hne (Option.some.inj hj).symm

lemma Quiet.before {a : Action} (h : w'.Quiet cfg) (ha : Deregisters cfg w a)
    (hn : w.next cfg a = some w') : w.Quiet cfg := by
  cases next_stepped hn with
  | apply t cmd a hf hp =>
    have hr : cmd.removesMember = true := by simpa [Deregisters, applied, hf, hp] using ha
    rcases task_cases t with ⟨i, rfl⟩ | ht
    · have hx : ((w.setPhase (.call i) .applied).record cmd).exited = w.exited := exited_setPhase w i .applied
      exact h.calmer (hx ▸ id) (calmer_of_eq rfl rfl rfl)
    · have hw := flight_writes cfg w ht hf
      cases cmd with
      | srem => cases hw
      | _ => cases hr
  | applyOrphan k cmd hk =>
    have hr : cmd.removesMember = true := by simpa [Deregisters, applied, hk] using ha
    refine h.calmer id (calmer_of_tasks rfl rfl fun x hx hw => mem_eraseIdx_of_ne hx hk ?_)
    rintro rfl
    cases x with
    | srem => cases hw
    | _ => cases hr
  | _ => simp [Deregisters, applied] at ha

/-- A deregistration that meets a quiet worker is final in every run. One that does not is undone by
some continuation. -/
theorem deregistration_final (henabled : cfg.isHeartbeatEnabled = true) :
    (∀ as, (lifecycle cfg).Guarded (fun w a => Deregisters cfg w a → w.Quiet cfg) (init cfg) as →
      (lifecycle cfg).Always DeregistrationFinal (init cfg) as) ∧
    ∀ as w a w', (lifecycle cfg).exec (init cfg) as = some w → w.next cfg a = some w' →
      Deregisters cfg w a → ¬ w.Quiet cfg →
        ∃ bs u, (lifecycle cfg).exec (init cfg) (as ++ a :: bs) = some u ∧ ¬ DeregistrationFinal u := by
  refine ⟨fun as hg => ?_, fun as w a w' he hn ha hq => ?_⟩
  · have hlog : (lifecycle cfg).Always (fun w => w.log.Pairwise fun x y => x.removesMember = true →
        ¬ y.writes = true) (init cfg) as := by
      have hcalm (w : World) (a : Action) (w' : World) (_ : True) (hq : w.Quiet cfg)
          (hn : (lifecycle cfg).next w a = some w') :
          w'.Quiet cfg ∧ ∀ x ∈ w.applied cfg a, ¬ x.writes = true :=
        (hq.step hn).imp_right fun hw x hx => by simp [hw x hx]
      have hfirst (w : World) (a : Action) (_ : True) (hok : Deregisters cfg w a → w.Quiet cfg)
          (hr : ∃ x ∈ w.applied cfg a, x.removesMember = true) : w.Quiet cfg :=
        hok ((Option.any_eq_true _ _).mpr hr)
      exact hg.pairwise_log (fun _ _ _ hn => log_step hn) (fun _ _ _ _ _ => trivial) hcalm hfirst trivial
        (by simp [init])
    exact hlog.mono fun w hw => hw.imp fun hxy hr => by simpa using hxy hr
  · obtain ⟨bs, u, cmd, hu, hlog, hw⟩ := recreates_of_not_quiet henabled fun h => hq (h.before ha hn)
    refine ⟨bs, u, ?_, fun hfinal => ?_⟩
    · rw [Machine.exec_append he]
      exact (Machine.exec_cons hn).trans hu
    · obtain ⟨cmd', hcmd', hr⟩ := (Option.any_eq_true _ _).mp ha
      rw [DeregistrationFinal, hlog, log_step hn, hcmd', List.pairwise_append] at hfinal
      have hlast := hfinal.2.2 cmd' (by simp) cmd (by simp) hr
      rw [hw] at hlast
      cases hlast

def shutdownToSrem : List Action :=
  [.call (lit "shutdown") false, .send (.call 0), .apply (.call 0), .deliver (.call 0), .resume (.call 0),
    .send (.call 0), .apply (.call 0), .deliver (.call 0), .resume (.call 0), .send (.call 0), .apply (.call 0)]

def beatThenTerm : List Action :=
  [.bootRun, .wakeBeat .oneShot 1, .send (.beat .oneShot), .apply (.beat .oneShot), .deliver (.beat .oneShot),
    .resume (.beat .oneShot), .executorDone true, .executorDone true, .send .boot, .apply .boot, .deliver .boot,
    .resume .boot] ++ shutdownToSrem

theorem beatThenTerm_final :
    (lifecycle .sample).Always DeregistrationFinal (init .sample) beatThenTerm ∧
      ((lifecycle .sample).exec (init .sample) beatThenTerm).any (fun w => w.log.any Command.removesMember) :=
  ⟨(deregistration_final (by decide)).1 beatThenTerm (by decide +kernel), by decide +kernel⟩

def termWhileBooting : List Action :=
  .bootRun :: shutdownToSrem ++ [.executorDone true, .executorDone true, .send .boot, .apply .boot]

theorem termWhileBooting_not_final :
    ∃ w, (lifecycle .sample).exec (init .sample) termWhileBooting = some w ∧ ¬ DeregistrationFinal w ∧
      w.registry.entry.isSome := by
  have hrun : ((lifecycle .sample).exec (init .sample) termWhileBooting).any (fun w =>
      ¬ DeregistrationFinal w ∧ w.registry.entry.isSome) = true := by
    decide +kernel
  obtain ⟨w, he, hw⟩ := (Option.any_eq_true _ _).mp hrun
  exact ⟨w, he, by simpa using hw⟩

end Finality

end World

end GemmaWorker.Heartbeat
