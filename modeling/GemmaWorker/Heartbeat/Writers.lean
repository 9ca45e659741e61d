import GemmaWorker.Heartbeat.Protocol

/-! The boot task and the two heartbeat tasks write to the registry, and what they leave on the wire may
be applied at any time. A worker where no write is left stays so. -/

namespace GemmaWorker.Heartbeat

open Python World Library

def BootPc.onWire : BootPc → Bool
  | .markingHealthy a => a.phase = .sent
  | _ => false

def BeatPc.onWire : BeatPc → Bool
  | .beating _ a => a.phase = .sent
  | _ => false

def BootPc.writesAgain (cfg : Config) : BootPc → Bool
  | .created => !cfg.skipModelLoad
  | .downloading | .initialising => true
  | .markingHealthy a => a.phase = .waiting
  | _ => false

def BeatPc.writesAgain (b : BeatId) : BeatPc → Bool
  | .created | .sleeping => true
  | .beating _ a => a.phase = .waiting ∨ b = .loop
  | _ => false

namespace World

section Writers

variable (cfg : Config) (w : World)

def onWire : Task → Bool
  | .boot => w.boot.pc.onWire
  | .beat b => (w.beat b).pc.onWire
  | _ => false

def writesAgain : Task → Bool
  | .boot => w.boot.pc.writesAgain cfg
  | .beat b => (w.beat b).pc.writesAgain b
  | _ => false

def willWrite (t : Task) : Bool :=
  !w.cancelRequested t && w.writesAgain cfg t

/-- Nobody of this worker can write to the registry any more. -/
structure Quiet : Prop where
  orphans : ∀ cmd ∈ w.orphans, cmd.writes = false
  onWire : ∀ t ∈ [Task.boot, .beat .oneShot, .beat .loop], w.onWire t = false
  willWrite : w.exited = false → ∀ t ∈ [Task.boot, .beat .oneShot, .beat .loop], w.willWrite cfg t = false

instance : Decidable (w.Quiet cfg) :=
  decidable_of_iff (_ ∧ _ ∧ _) ⟨fun h => ⟨h.1, h.2.1, h.2.2⟩, fun h => ⟨h.orphans, h.onWire, h.willWrite⟩⟩

end Writers

variable {cfg : Config} {w w' u : World} {t : Task}

lemma Quiet.not_onWire (h : w.Quiet cfg) (t : Task) : w.onWire t = false := by
  cases t with
  | boot => exact h.onWire _ (by simp)
  | beat b => cases b <;> exact h.onWire _ (by simp)
  | _ => rfl

lemma Quiet.not_willWrite (h : w.Quiet cfg) (hx : w.exited = false) (t : Task) :
    w.willWrite cfg t = false := by
  cases t with
  | boot => exact h.willWrite hx _ (by simp)
  | beat b => cases b <;> exact h.willWrite hx _ (by simp)
  | _ => simp [World.willWrite, writesAgain]

section Calm

structure Calmer (cfg : Config) (w w' : World) : Prop where
  orphans : ∀ cmd ∈ w'.orphans, cmd.writes = true → cmd ∈ w.orphans
  onWire : ∀ t, w'.onWire t = true → w.onWire t = true
  willWrite : ∀ t, w'.willWrite cfg t = true → w.willWrite cfg t = true

lemma Calmer.trans (h : Calmer cfg w w') (h' : Calmer cfg w' u) : Calmer cfg w u :=
  ⟨fun cmd hc hw => h.orphans cmd (h'.orphans cmd hc hw) hw, fun t ht => h.onWire t (h'.onWire t ht),
    fun t ht => h.willWrite t (h'.willWrite t ht)⟩

lemma calmer_of_tasks (hb : w'.boot = w.boot) (hbeat : w'.beat = w.beat)
    (ho : ∀ cmd ∈ w'.orphans, cmd.writes = true → cmd ∈ w.orphans) : Calmer cfg w w' := by
  refine ⟨ho, fun t ht => ?_, fun t ht => ?_⟩
  · cases t <;> simp_all [World.onWire]
  · cases t <;> simp_all [World.willWrite, World.writesAgain, World.cancelRequested]

lemma calmer_of_eq (hb : w'.boot = w.boot) (hbeat : w'.beat = w.beat) (ho : w'.orphans = w.orphans) :
    Calmer cfg w w' :=
  calmer_of_tasks hb hbeat fun _ hc _ => ho ▸ hc

lemma Quiet.calmer (h : w.Quiet cfg) (hx : w'.exited = false → w.exited = false)
    (hc : Calmer cfg w w') : w'.Quiet cfg := by
  refine ⟨fun cmd hcmd => ?_, fun t _ => ?_, fun hx' t _ => ?_⟩
  · by_contra hw
    have hw : cmd.writes = true := by simpa using hw
    simp [h.orphans cmd (hc.orphans cmd hcmd hw)] at hw
  · by_contra ht
    have hold := hc.onWire t (by simpa using ht)
    simp [h.not_onWire t] at hold
  · by_contra ht
    have hold := hc.willWrite t (by simpa using ht)
    simp [h.not_willWrite (hx hx') t] at hold

/-- The tasks that write stay where they are, with their commands. -/
structure Retains (w w' : World) : Prop where
  status : w'.status = w.status
  boot : w'.boot.pc = w.boot.pc
  beat : ∀ b, (w'.beat b).pc = (w.beat b).pc
  bootCancel : w'.boot.cancelRequested = false → w.boot.cancelRequested = false
  beatCancel : ∀ b, (w'.beat b).cancelRequested = false → (w.beat b).cancelRequested = false
  orphans : ∀ cmd ∈ w'.orphans, cmd.writes = true → cmd ∈ w.orphans

lemma Retains.trans (h : Retains w w') (h' : Retains w' u) : Retains w u where
  status := h'.status.trans h.status
  boot := h'.boot.trans h.boot
  beat b := (h'.beat b).trans (h.beat b)
  bootCancel hc := h.bootCancel (h'.bootCancel hc)
  beatCancel b hc := h.beatCancel b (h'.beatCancel b hc)
  orphans cmd hcmd hw := h.orphans cmd (h'.orphans cmd hcmd hw) hw

lemma retains_of_eq (hs : w'.status = w.status) (hb : w'.boot = w.boot) (hbeat : w'.beat = w.beat)
    (ho : w'.orphans = w.orphans) : Retains w w' where
  status := hs
  boot := by rw [hb]
  beat b := by rw [hbeat]
  bootCancel hc := hb ▸ hc
  beatCancel b hc := hbeat ▸ hc
  orphans _ hcmd _ := ho ▸ hcmd

lemma Retains.calmer (h : Retains w w') : Calmer cfg w w' := by
  refine ⟨h.orphans, fun t ht => ?_, fun t ht => ?_⟩
  · cases t with
    | boot => simpa [World.onWire, h.boot] using ht
    | beat b => simpa [World.onWire, h.beat b] using ht
    | _ => exact ht
  · cases t with
    | boot =>
      simp only [World.willWrite, World.cancelRequested, World.writesAgain, h.boot, Bool.and_eq_true,
        Bool.not_eq_true'] at ht ⊢
      exact ⟨h.bootCancel ht.1, ht.2⟩
    | beat b =>
      simp only [World.willWrite, World.cancelRequested, World.writesAgain, h.beat b, Bool.and_eq_true,
        Bool.not_eq_true'] at ht ⊢
      exact ⟨h.beatCancel b ht.1, ht.2⟩
    | _ => simp [World.willWrite, World.writesAgain] at ht

lemma retains_getRedis (w : World) : Retains w w.getRedis := by
  rw [getRedis]
  split <;> exact retains_of_eq rfl rfl rfl rfl

lemma calmer_setBoot (w : World) {pc : BootPc} (hw : pc.onWire = false) (ha : pc.writesAgain cfg = false) :
    Calmer cfg w (w.setBoot pc) := by
  refine ⟨fun cmd hc _ => hc, fun t ht => ?_, fun t ht => ?_⟩
  · cases t <;> simp_all [World.onWire, setBoot]
  · cases t <;> simp_all [World.willWrite, World.writesAgain, World.cancelRequested, setBoot]

lemma calmer_setBeat (w : World) (b : BeatId) {pc : BeatPc} (hw : pc.onWire = false)
    (ha : (w.beat b).cancelRequested = true ∨ pc.writesAgain b = false) :
    Calmer cfg w (w.setBeat b pc) := by
  refine ⟨fun cmd hc _ => hc, fun t ht => ?_, fun t ht => ?_⟩
  · cases t with
    | beat b' =>
      by_cases hb : b' = b
      · subst hb
        simp [World.onWire, setBeat, hw] at ht
      · simpa [World.onWire, setBeat, hb] using ht
    | _ => exact ht
  · cases t with
    | beat b' =>
      by_cases hb : b' = b
      · subst hb
        rcases ha with ha | ha <;>
          simp [World.willWrite, World.writesAgain, World.cancelRequested, setBeat, ha] at ht
      · simpa [World.willWrite, World.writesAgain, World.cancelRequested, setBeat, hb] using ht
    | _ => exact ht

lemma retains_requestCancel (w : World) (t : Task) : Retains w (w.requestCancel t) := by
  cases t with
  | boot => exact ⟨rfl, rfl, fun _ => rfl, fun hc => Bool.noConfusion hc, fun _ => id, fun _ hc _ => hc⟩
  | beat b =>
    refine ⟨rfl, rfl, fun d => ?_, id, fun d hc => ?_, fun _ hc _ => hc⟩
    · by_cases hd : d = b <;> simp_all [requestCancel]
    · by_cases hd : d = b <;> simp_all [requestCancel]
  | monitor => exact retains_of_eq rfl rfl rfl rfl
  | call i => exact retains_of_eq rfl rfl rfl rfl

lemma retains_stopHeartbeat (w : World) : Retains w w.stopHeartbeat := by
  rw [stopHeartbeat]
  split_ifs
  · exact (retains_requestCancel w (.beat .loop)).trans (retains_of_eq rfl rfl rfl rfl)
  · exact retains_of_eq rfl rfl rfl rfl

lemma retains_stopIdleTimeout (w : World) : Retains w w.stopIdleTimeout := by
  rw [stopIdleTimeout]
  split
  · exact (retains_requestCancel w .monitor).trans (retains_of_eq rfl rfl rfl rfl)
  · exact retains_of_eq rfl rfl rfl rfl

lemma retains_beginCall (w : World) (reason : PyStr) (exits cancelled : Bool) :
    Retains w (w.beginCall cfg reason exits cancelled) := by
  have hflag : Retains w { w with signaled := true } := retains_of_eq rfl rfl rfl rfl
  have hstop : Retains w ({ w with signaled := true }.stopHeartbeat.stopIdleTimeout) :=
    (hflag.trans (retains_stopHeartbeat _)).trans (retains_stopIdleTimeout _)
  rw [beginCall]
  split_ifs
  · cases w.redis <;> exact retains_of_eq rfl rfl rfl rfl
  · rw [terminationMessage_eq]
    exact (hstop.trans (retains_getRedis _)).trans (retains_of_eq rfl rfl rfl rfl)
  · exact hstop.trans (retains_of_eq rfl rfl rfl rfl)

lemma call_flight_writes {pc : CallPc} {cmd : Command} {a : Await} (h : pc.flight cfg = some (cmd, a)) :
    cmd.writes = false := by
  cases pc <;> simp [CallPc.flight] at h
  all_goals simp [← h.1, Command.writes]

lemma retains_abandonCall (w : World) (i : ℕ) : Retains w (w.abandon cfg (.call i)) := by
  obtain h | ⟨cmd, a, hf, -, h⟩ := abandon_cases cfg w (.call i) <;> rw [h]
  · exact retains_of_eq rfl rfl rfl rfl
  · obtain ⟨c, -, hcf⟩ := flight_call hf
    refine ⟨rfl, rfl, fun _ => rfl, id, fun _ => id, fun x hx hw => ?_⟩
    rcases List.mem_append.mp hx with hx | hx
    · exact hx
    · rw [List.mem_singleton.mp hx, call_flight_writes hcf] at hw
      cases hw

lemma retains_closeRedis (w : World) (i : ℕ) : Retains w (w.closeRedis i) := by
  rw [closeRedis]
  cases w.redis <;> exact retains_of_eq rfl rfl rfl rfl

lemma retains_resumeCall {ok : Bool} {i : ℕ} (h : w.resume cfg ok (.call i) = some w') : Retains w w' := by
  obtain ⟨c, -, h⟩ := Option.bind_eq_some_iff.mp h
  split_ifs at h
  · rw [resumeCall.eq_def] at h
    split at h
    · split_ifs at h
      · obtain rfl := Option.some.inj h
        exact retains_of_eq rfl rfl rfl rfl
      · obtain rfl := Option.some.inj h
        exact (retains_getRedis w).trans (retains_of_eq rfl rfl rfl rfl)
    · obtain rfl := Option.some.inj h
      exact retains_of_eq rfl rfl rfl rfl
    · obtain rfl := Option.some.inj h
      exact retains_closeRedis w i
    · cases h
  · rw [failCall.eq_def] at h
    split at h
    · obtain rfl := Option.some.inj h
      exact retains_of_eq rfl rfl rfl rfl
    · obtain rfl := Option.some.inj h
      exact retains_closeRedis w i
    · obtain rfl := Option.some.inj h
      exact retains_closeRedis w i
    · cases h

lemma retains_startIdleTimeout (w : World) : Retains w (w.startIdleTimeout cfg) := by
  rw [startIdleTimeout]
  split_ifs <;> exact retains_of_eq rfl rfl rfl rfl

lemma writer_cases {cmd : Command} {a : Await} (ht : ∀ i, t ≠ .call i)
    (hf : w.flight cfg t = some (cmd, a)) : t = .boot ∧ w.boot.pc = .markingHealthy a ∨
      ∃ b fields, t = .beat b ∧ (w.beat b).pc = .beating fields a := by
  cases t with
  | boot =>
    cases hpc : w.boot.pc <;> simp [flight, BootPc.flight, hpc] at hf
    exact Or.inl ⟨rfl, by rw [hf.2]⟩
  | beat b =>
    cases hpc : (w.beat b).pc <;> simp [flight, BeatPc.flight, hpc] at hf
    exact Or.inr ⟨b, _, rfl, hf.2 ▸ hpc⟩
  | monitor => cases hf
  | call i => exact absurd rfl (ht i)

lemma onWire_of_sent {cmd : Command} {a : Await} (ht : ∀ i, t ≠ .call i)
    (hf : w.flight cfg t = some (cmd, a)) (ha : a.phase = .sent) : w.onWire t = true := by
  rcases writer_cases ht hf with ⟨rfl, hpc⟩ | ⟨b, fields, rfl, hpc⟩
  · simp [World.onWire, hpc, BootPc.onWire, ha]
  · simp [World.onWire, hpc, BeatPc.onWire, ha]

lemma writesAgain_of_waiting {cmd : Command} {a : Await} (ht : ∀ i, t ≠ .call i)
    (hf : w.flight cfg t = some (cmd, a)) (ha : a.phase = .waiting) : w.writesAgain cfg t = true := by
  rcases writer_cases ht hf with ⟨rfl, hpc⟩ | ⟨b, fields, rfl, hpc⟩
  · simp [World.writesAgain, hpc, BootPc.writesAgain, ha]
  · simp [World.writesAgain, hpc, BeatPc.writesAgain, ha]

lemma flight_boot {a : Await} (h : w.boot.pc = .markingHealthy a) :
    w.flight cfg .boot = some (.setStatus .healthy, a) := by
  rw [flight, h]
  rfl

lemma flight_beat {b : BeatId} {fields : Fields} {a : Await} (h : (w.beat b).pc = .beating fields a) :
    w.flight cfg (.beat b) = some (.heartbeat fields, a) := by
  rw [flight, h]
  rfl

section QuietSteps

variable {cmd : Command} {a : Await}

lemma Quiet.not_sent (h : w.Quiet cfg) (ht : ∀ i, t ≠ .call i) (hf : w.flight cfg t = some (cmd, a)) :
    a.phase ≠ .sent := by
  intro ha
  have hw := onWire_of_sent ht hf ha
  simp [h.not_onWire t] at hw

lemma Quiet.not_waiting (h : w.Quiet cfg) (hx : w.exited = false) (ht : ∀ i, t ≠ .call i)
    (hf : w.flight cfg t = some (cmd, a)) (hc : w.cancelRequested t = false) : a.phase ≠ .waiting := by
  intro ha
  have hw := h.not_willWrite hx t
  simp [World.willWrite, hc, writesAgain_of_waiting ht hf ha] at hw

lemma Quiet.abandon (h : w.Quiet cfg) (ht : ∀ i, t ≠ .call i) : w.abandon cfg t = w := by
  rw [World.abandon]
  cases hf : w.flight cfg t with
  | none => rfl
  | some f =>
    obtain ⟨cmd, a⟩ := f
    simp [h.not_sent ht hf]

lemma Quiet.calmer_resume (h : w.Quiet cfg) (hx : w.exited = false) (ht : ∀ i, t ≠ .call i)
    (hf : w.flight cfg t = some (cmd, a)) (hc : w.cancelRequested t = false) {ok : Bool}
    (hr : w.resume cfg ok t = some w') : Calmer cfg w w' := by
  rcases writer_cases ht hf with ⟨rfl, hpc⟩ | ⟨b, fields, rfl, hpc⟩
  · obtain rfl := Option.some.inj hr
    exact (retains_startIdleTimeout w).calmer.trans (calmer_setBoot _ rfl rfl)
  · obtain rfl := Option.some.inj hr
    cases b with
    | oneShot => exact calmer_setBeat w .oneShot rfl (Or.inr rfl)
    | loop =>
      have hw := h.not_willWrite hx (.beat .loop)
      simp [World.willWrite, hc, World.writesAgain, hpc, BeatPc.writesAgain] at hw

lemma Quiet.calmer_deliver (h : w.Quiet cfg) (hx : w.exited = false) (ht : ∀ i, t ≠ .call i)
    (hf : w.flight cfg t = some (cmd, a)) : Calmer cfg w (w.setPhase t .answered) := by
  rcases writer_cases ht hf with ⟨rfl, hpc⟩ | ⟨b, fields, rfl, hpc⟩
  · have hset : w.setPhase .boot .answered = w.setBoot (.markingHealthy { a with phase := .answered }) := by
      rw [setPhase, mapAwait, hpc]
      rfl
    rw [hset]
    exact calmer_setBoot w (by simp [BootPc.onWire]) (by simp [BootPc.writesAgain])
  · have hset : w.setPhase (.beat b) .answered = w.setBeat b (.beating fields { a with phase := .answered }) := by
      rw [setPhase, mapAwait, hpc]
      rfl
    rw [hset]
    refine calmer_setBeat w b (by simp [BeatPc.onWire]) ?_
    cases b with
    | oneShot => exact Or.inr (by simp [BeatPc.writesAgain])
    | loop =>
      have hw := h.not_willWrite hx (.beat .loop)
      simp only [World.willWrite, World.writesAgain, hpc, BeatPc.writesAgain] at hw
      exact Or.inl (by simpa [World.cancelRequested] using hw)

lemma calmer_cancelled (h : w.cancelled t = some w') : Calmer cfg w w' := by
  cases cancelled_unwound h with
  | boot => exact calmer_setBoot w rfl rfl
  | beat b => exact calmer_setBeat w b rfl (Or.inr rfl)
  | _ => exact calmer_of_eq rfl rfl rfl

lemma Quiet.not_booting (h : w.Quiet cfg) (hx : w.exited = false) (hc : w.cancelRequested .boot = false) :
    w.boot.pc.writesAgain cfg = false := by
  have hw := h.not_willWrite hx .boot
  simpa [World.willWrite, hc, World.writesAgain] using hw

lemma Quiet.not_executing (h : w.Quiet cfg) (hx : w.exited = false) (hc : w.cancelRequested .boot = false)
    {ok : Bool} : w.executorDone cfg ok = none := by
  have hw := h.not_booting hx hc
  rw [executorDone.eq_def]
  split
  all_goals first
    | rfl
    | simp_all [BootPc.writesAgain]

lemma Quiet.calmer_run (h : w.Quiet cfg) {b : Action} (hn : w.next cfg b = some w') (hx : w.exited = false)
    (hb : w.applied cfg b = none) : Calmer cfg w w' := by
  cases next_stepped hn with
  | bootRun _ hpc hc =>
    have hw := h.not_booting hx hc
    have hskip : cfg.skipModelLoad = true := by simpa [hpc, BootPc.writesAgain] using hw
    rw [World.bootRun, if_pos hskip]
    exact calmer_setBoot w rfl rfl
  | executorDone ok _ _ hc hd =>
    rw [h.not_executing hx hc] at hd
    cases hd
  | wakeBeat b now _ ha hc =>
    have hw := h.not_willWrite hx (.beat b)
    cases hpc : (w.beat b).pc <;>
      simp [awake, World.willWrite, World.writesAgain, hpc, hc, BeatPc.writesAgain] at ha hw
  | idle =>
    have henter : Calmer cfg w w.enterCallback := calmer_of_eq rfl rfl rfl
    exact henter.trans (retains_beginCall _ _ _ _).calmer
  | call reason exits => exact (retains_beginCall _ _ _ _).calmer
  | send t cmd a _ hf ha hc =>
    rcases task_cases t with ⟨i, rfl⟩ | ht
    · exact calmer_of_eq rfl rfl rfl
    · exact absurd ha (h.not_waiting hx ht hf hc)
  | apply t cmd a hf ha => simp [applied, hf, ha] at hb
  | deliver t cmd a _ hf =>
    rcases task_cases t with ⟨i, rfl⟩ | ht
    · exact calmer_of_eq rfl rfl rfl
    · exact h.calmer_deliver hx ht hf
  | resume t cmd a _ _ hf _ hc hr =>
    rcases task_cases t with ⟨i, rfl⟩ | ht
    · exact (retains_resumeCall hr).calmer
    · exact h.calmer_resume hx ht hf hc hr
  | fail t cmd a _ _ hf _ hc hr =>
    rcases task_cases t with ⟨i, rfl⟩ | ht
    · exact (retains_abandonCall w i).calmer.trans (retains_resumeCall hr).calmer
    · rw [h.abandon ht] at hr
      exact h.calmer_resume hx ht hf hc hr
  | cancel t => exact (retains_requestCancel w t).calmer
  | cancelled t _ _ _ hr =>
    rcases task_cases t with ⟨i, rfl⟩ | ht
    · exact (retains_abandonCall w i).calmer.trans (calmer_cancelled hr)
    · rw [h.abandon ht] at hr
      exact calmer_cancelled hr
  | applyOrphan k cmd hk => simp [applied, hk] at hb
  | dropOrphan k => exact calmer_of_tasks rfl rfl fun x hx _ => List.mem_of_mem_eraseIdx hx
  | _ => exact calmer_of_eq rfl rfl rfl

lemma any_modify {α : Type} {p : α → Bool} {f : α → α} (h : ∀ x, p (f x) = p x) (l : List α) (i : ℕ) :
    (l.modify i f).any p = l.any p := by
  induction l generalizing i with
  | nil => simp
  | cons x l ih =>
    cases i with
    | zero => simp [h]
    | succ i => simp [ih]

lemma exited_setPhase (w : World) (i : ℕ) (phase : Phase) :
    (w.setPhase (.call i) phase).exited = w.exited := by
  have hsame (c : Call) : Call.hasExited { c with pc := c.pc.mapAwait fun a => { a with phase := phase } } =
      c.hasExited := by
    obtain ⟨_, _, _, pc⟩ := c
    cases pc <;> rfl
  have hany := any_modify hsame w.calls i
  unfold World.exited
  exact congrArg (_ || ·) hany

theorem Quiet.step (h : w.Quiet cfg) {b : Action} (hn : w.next cfg b = some w') :
    w'.Quiet cfg ∧ ∀ cmd ∈ w.applied cfg b, cmd.writes = false := by
  by_cases happ : w.exited = false ∧ w.applied cfg b = none
  · refine ⟨h.calmer (fun _ => happ.1) (h.calmer_run hn happ.1 happ.2), ?_⟩
    simp [happ.2]
  cases next_stepped hn with
  | apply t cmd a hf ha =>
    rcases task_cases t with ⟨i, rfl⟩ | ht
    · obtain ⟨c, -, hcf⟩ := flight_call hf
      have hx : ((w.setPhase (.call i) .applied).record cmd).exited = w.exited := exited_setPhase w i .applied
      refine ⟨h.calmer (hx ▸ id) (calmer_of_eq rfl rfl rfl), fun x hx => ?_⟩
      obtain rfl : cmd = x := by simpa [applied, hf, ha] using hx
      exact call_flight_writes hcf
    · exact absurd ha (h.not_sent ht hf)
  | applyOrphan k cmd hk =>
    refine ⟨h.calmer id (calmer_of_tasks rfl rfl fun x hx _ => List.mem_of_mem_eraseIdx hx), fun x hx => ?_⟩
    exact h.orphans x (List.mem_of_getElem? hx)
  | dropOrphan k =>
    exact ⟨h.calmer id (calmer_of_tasks rfl rfl fun x hx _ => List.mem_of_mem_eraseIdx hx), by simp [applied]⟩
  | expire => exact ⟨h.calmer id (calmer_of_eq rfl rfl rfl), by simp [applied]⟩
  | _ => exact absurd ⟨by assumption, rfl⟩ happ

end QuietSteps

end Calm

end World

end GemmaWorker.Heartbeat
