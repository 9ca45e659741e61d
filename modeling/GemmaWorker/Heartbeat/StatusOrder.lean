import GemmaWorker.Heartbeat.Deregister

/-! In which order the status is set to `booting` and to `healthy`. A heartbeat takes the status when it
is built, and Redis applies it at any time after. -/

namespace GemmaWorker.Heartbeat

open Python World Library

section Statuses

def statusField (fields : Fields) : Option PyStr :=
  (fields.find? (fun kv => kv.1 = lit "status")).map Prod.snd

def Command.status : Command → Option PyStr
  | .heartbeat fields => statusField fields
  | .setStatus status => some status.text
  | _ => none

lemma statusField_setField (fields : Fields) (kv : PyStr × PyStr) : statusField (setField fields kv) =
    if kv.1 = lit "status" then some kv.2 else statusField fields := by
  rw [setField]
  split_ifs with hany hkey hkey
  · induction fields with
    | nil => simp at hany
    | cons old fields ih =>
      by_cases hold : old.1 = kv.1
      · simp [statusField, hold, hkey]
      · have hrest : fields.any (fun old => old.1 == kv.1) = true := by simpa [hold] using hany
        have hstatus : old.1 ≠ lit "status" := hkey ▸ hold
        simpa [statusField, hold, hstatus] using ih hrest
  · clear hany
    induction fields with
    | nil => rfl
    | cons old fields ih =>
      by_cases hold : old.1 = kv.1
      · have hstatus : old.1 ≠ lit "status" := hold ▸ hkey
        simpa [statusField, hold, hkey] using ih
      · by_cases hstatus : old.1 = lit "status"
        · simp [statusField, hstatus, Ne.symm hkey]
        · simpa [statusField, hold, hstatus] using ih
  · have hnone : fields.find? (fun kv => kv.1 = lit "status") = none := by
      rw [List.find?_eq_none]
      intro old hold hstatus
      refine hany (List.any_eq_true.mpr ⟨old, hold, ?_⟩)
      simpa [hkey] using hstatus
    simp [statusField, List.find?_append, hnone, hkey]
  · simp [statusField, List.find?_append, hkey]

/-- What a command of the worker leaves in the status field of the hash. -/
theorem status_apply {r : Registry} {cfg : Config} {load : ℤ} {s : Status} {now : ℚ} {cmd : Command}
    (hcmd : cmd = .heartbeat (heartbeatFields cfg load s now) ∨ cmd = .setStatus s) :
    (r.apply cmd).entry.bind (fun e => statusField e.fields) = cmd.status := by
  rcases hcmd with rfl | rfl
  · simp only [Registry.apply, Command.status, heartbeatFields, List.foldl_cons, List.foldl_nil,
      Option.bind_some, statusField_setField]
    simp [statusField, lit_inj]
  · simp [Registry.apply, Command.status, statusField_setField]

def Command.sets (status : Status) (cmd : Command) : Bool :=
  cmd.status = some status.text

lemma text_inj {s s' : Status} : s.text = s'.text ↔ s = s' := by
  cases s <;> cases s' <;> simp [Status.text, lit_inj]

lemma sets_heartbeat {cfg : Config} {load : ℤ} {s s' : Status} {now : ℚ} :
    (Command.heartbeat (heartbeatFields cfg load s now)).sets s' = true ↔ s = s' := by
  simp [Command.sets, Command.status, statusField, heartbeatFields, lit_inj, text_inj]

lemma sets_setStatus {s s' : Status} : (Command.setStatus s).sets s' = true ↔ s = s' := by
  simp [Command.sets, Command.status, text_inj]

lemma writes_of_sets {cmd : Command} {s : Status} (h : cmd.sets s = true) : cmd.writes = true := by
  cases cmd <;> simp [Command.sets, Command.status, Command.writes] at h ⊢

lemma sets_unique {cmd : Command} {s s' : Status} (h : cmd.sets s = true) (h' : cmd.sets s' = true) :
    s = s' := by
  rw [Command.sets, decide_eq_true_eq] at h h'
  exact text_inj.mp (Option.some.inj (h.symm.trans h'))

def Task.writer : Task → Bool
  | .boot | .beat _ => true
  | _ => false

end Statuses

namespace World

variable {cfg : Config} {w w' u : World} {t : Task} {cmd : Command} {a : Await}

section Due

def Sent (cfg : Config) (w : World) (cmd : Command) : Prop :=
  cmd ∈ w.orphans ∨ ∃ t a, w.flight cfg t = some (cmd, a) ∧ a.phase = .sent

def Waits (cfg : Config) (w : World) (cmd : Command) : Prop :=
  ∃ t a, w.flight cfg t = some (cmd, a) ∧ a.phase = .waiting ∧ w.cancelRequested t = false

/-- A command to the registry that was built and may still be applied. -/
def Due (cfg : Config) (w : World) (cmd : Command) : Prop :=
  cmd.writes = true ∧ (Sent cfg w cmd ∨ w.exited = false ∧ Waits cfg w cmd)

lemma writer_task (hw : cmd.writes = true) (hf : w.flight cfg t = some (cmd, a)) : t.writer = true := by
  cases t with
  | call i =>
    obtain ⟨c, -, hcf⟩ := flight_call hf
    rw [call_flight_writes hcf] at hw
    cases hw
  | monitor => cases hf
  | _ => rfl

lemma Due.applies (h : Due cfg w cmd) : Applies cfg w cmd := by
  obtain ⟨hw, (ho | ⟨t, a, hf, ha⟩) | ⟨hx, t, a, hf, ha, hc⟩⟩ := h
  · exact applies_orphan ho
  · exact applies_sent hf ha
  · refine applies_waiting hx ?_ hf ha hc
    rintro i rfl
    cases writer_task hw hf

lemma due_of_applied {b : Action} (hb : w.applied cfg b = some cmd) (hw : cmd.writes = true) :
    Due cfg w cmd := by
  cases b with
  | apply t =>
    obtain ⟨⟨x, a⟩, hf, hx⟩ := Option.bind_eq_some_iff.mp hb
    split_ifs at hx with ha
    obtain rfl := Option.some.inj hx
    exact ⟨hw, Or.inl (Or.inr ⟨t, a, hf, ha⟩)⟩
  | applyOrphan k => exact ⟨hw, Or.inl (Or.inl (List.mem_of_getElem? hb))⟩
  | _ => cases hb

/-- No other task that writes gets on, and nothing comes to the wire without a task. -/
structure Only (cfg : Config) (t : Task) (w w' : World) : Prop where
  flight : ∀ t', t' ≠ t → t'.writer = true → w'.flight cfg t' = w.flight cfg t'
  cancelRequested : ∀ t', t' ≠ t → t'.writer = true → w'.cancelRequested t' = false →
    w.cancelRequested t' = false
  orphans : ∀ x ∈ w'.orphans, x.writes = true → x ∈ w.orphans

lemma Only.trans (h : Only cfg t w u) (h' : Only cfg t u w') : Only cfg t w w' where
  flight t' ht hw := (h'.flight t' ht hw).trans (h.flight t' ht hw)
  cancelRequested t' ht hw hr := h.cancelRequested t' ht hw (h'.cancelRequested t' ht hw hr)
  orphans x hx hw := h.orphans x (h'.orphans x hx hw) hw

lemma Retains.only (h : Retains w w') (t : Task) : Only cfg t w w' where
  flight t' _ hw := by
    cases t' with
    | boot => simp [World.flight, h.boot]
    | beat b => simp [World.flight, h.beat b]
    | _ => cases hw
  cancelRequested t' _ hw hr := by
    cases t' with
    | boot => exact h.bootCancel hr
    | beat b => exact h.beatCancel b hr
    | _ => cases hw
  orphans := h.orphans

lemma only_setBoot (w : World) (pc : BootPc) : Only cfg .boot w (w.setBoot pc) := by
  refine ⟨fun t' ht hw => ?_, fun t' ht hw hr => ?_, fun _ hx _ => hx⟩
  · cases t' with
    | boot => exact absurd rfl ht
    | beat b => rfl
    | _ => cases hw
  · cases t' with
    | boot => exact absurd rfl ht
    | beat b => exact hr
    | _ => cases hw

lemma only_setBeat (w : World) (b : BeatId) (pc : BeatPc) : Only cfg (.beat b) w (w.setBeat b pc) := by
  have hne {d : BeatId} (h : Task.beat d ≠ .beat b) : d ≠ b := fun hd => h (hd ▸ rfl)
  refine ⟨fun t' ht hw => ?_, fun t' ht hw hr => ?_, fun _ hx _ => hx⟩
  · cases t' with
    | boot => rfl
    | beat d => simp [World.flight, setBeat, hne ht]
    | _ => cases hw
  · cases t' with
    | boot => exact hr
    | beat d => simpa [World.cancelRequested, setBeat, hne ht] using hr
    | _ => cases hw

lemma only_mapAwait (w : World) (f : Await → Await) (t : Task) : Only cfg t w (w.mapAwait f t) := by
  cases t with
  | boot => exact only_setBoot w _
  | beat b => exact only_setBeat w b _
  | monitor =>
    have h : Retains w (w.mapAwait f .monitor) := retains_of_eq rfl rfl rfl rfl
    exact h.only _
  | call i =>
    have h : Retains w (w.mapAwait f (.call i)) := retains_of_eq rfl rfl rfl rfl
    exact h.only _

lemma due_of_only (h : Only cfg t w w') (hx : w'.exited = false → w.exited = false) (hd : Due cfg w' cmd) :
    Due cfg w cmd ∨ ∃ a, w'.flight cfg t = some (cmd, a) ∧ (a.phase = .sent ∨ a.phase = .waiting) := by
  obtain ⟨hw, (ho | ⟨t', a, hf, ha⟩) | ⟨hx', t', a, hf, ha, hc⟩⟩ := hd
  · exact Or.inl ⟨hw, Or.inl (Or.inl (h.orphans cmd ho hw))⟩
  · by_cases ht : t' = t
    · exact Or.inr ⟨a, ht ▸ hf, Or.inl ha⟩
    · rw [h.flight t' ht (writer_task hw hf)] at hf
      exact Or.inl ⟨hw, Or.inl (Or.inr ⟨t', a, hf, ha⟩)⟩
  · by_cases ht : t' = t
    · exact Or.inr ⟨a, ht ▸ hf, Or.inr ha⟩
    · have hwriter := writer_task hw hf
      rw [h.flight t' ht hwriter] at hf
      exact Or.inl ⟨hw, Or.inr ⟨hx hx', t', a, hf, ha, h.cancelRequested t' ht hwriter hc⟩⟩

lemma due_of_quiet (h : Only cfg t w w') (hx : w'.exited = false → w.exited = false)
    (ht : t.writer = true → ∀ a, w'.flight cfg t = some (cmd, a) → a.phase ≠ .sent ∧ a.phase ≠ .waiting)
    (hd : Due cfg w' cmd) : Due cfg w cmd := by
  rcases due_of_only h hx hd with hdue | ⟨a, hf, ha⟩
  · exact hdue
  · exact absurd ha (not_or.mpr (ht (writer_task hd.1 hf) a hf))

lemma due_of_idle (h : Only cfg t w w') (hx : w.exited = false) (ht : t.writer = true → w'.flight cfg t = none)
    (hd : Due cfg w' cmd) : Due cfg w cmd := by
  apply due_of_quiet h (fun _ => hx) _ hd
  intro hw a hf
  cases (ht hw).symm.trans hf

lemma due_of_retains (h : Retains w w') (hx : w'.exited = false → w.exited = false)
    (hd : Due cfg w' cmd) : Due cfg w cmd :=
  due_of_quiet (h.only .monitor) hx (fun hw => by cases hw) hd

lemma retains_setCall (w : World) (i : ℕ) (pc : CallPc) : Retains w (w.setCall i pc) :=
  retains_of_eq rfl rfl rfl rfl

lemma only_setStatus (w : World) (status : Status) (t : Task) : Only cfg t w (w.setStatus status) := by
  refine ⟨fun t' _ _ => ?_, fun t' _ _ hr => ?_, fun _ hx _ => hx⟩
  · cases t' <;> rfl
  · cases t' <;> exact hr

end Due

section Steps

lemma exited_setPhase_task (w : World) (t : Task) (phase : Phase) :
    (w.setPhase t phase).exited = w.exited := by
  cases t with
  | boot =>
    unfold World.exited
    rw [setPhase, mapAwait, setBoot]
    cases w.boot.pc <;> rfl
  | call i => exact exited_setPhase w i phase
  | _ => rfl

lemma due_setPhase {phase : Phase} (hp : phase ≠ .sent ∧ phase ≠ .waiting)
    (hd : Due cfg (w.setPhase t phase) cmd) : Due cfg w cmd := by
  have hx : (w.setPhase t phase).exited = false → w.exited = false := by
    rw [exited_setPhase_task]
    exact id
  apply due_of_quiet (only_mapAwait w (fun a => { a with phase := phase }) t) hx _ hd
  intro hw a hf
  have ht : ∀ i, t ≠ .call i := by
    rintro i rfl
    cases hw
  rw [flight_mapAwait w _ ht] at hf
  obtain ⟨⟨x, b⟩, -, hb⟩ := Option.map_eq_some_iff.mp hf
  obtain ⟨rfl, rfl⟩ := Prod.mk.inj hb
  exact hp

lemma exited_abandon (w : World) (t : Task) : (w.abandon cfg t).exited = w.exited := by
  obtain h | ⟨cmd, a, -, -, h⟩ := abandon_cases cfg w t <;> rw [h]
  rfl

lemma due_abandon (hd : Due cfg (w.abandon cfg t) cmd) : Due cfg w cmd := by
  obtain habandon | ⟨x, b, hf, hb, habandon⟩ := abandon_cases cfg w t <;> rw [habandon] at hd
  · exact hd
  · obtain ⟨hw, (ho | ⟨t', a, hf', ha⟩) | ⟨hx, t', a, hf', ha, hc⟩⟩ := hd
    · rcases List.mem_append.mp ho with ho | ho
      · exact ⟨hw, Or.inl (Or.inl ho)⟩
      · obtain rfl := List.mem_singleton.mp ho
        exact ⟨hw, Or.inl (Or.inr ⟨t, b, hf, hb⟩)⟩
    · exact ⟨hw, Or.inl (Or.inr ⟨t', a, by cases t' <;> exact hf', ha⟩)⟩
    · exact ⟨hw, Or.inr ⟨hx, t', a, by cases t' <;> exact hf', ha, by cases t' <;> exact hc⟩⟩

lemma due_resume {ok : Bool} (hx : w.exited = false) (h : w.resume cfg ok t = some w')
    (hd : Due cfg w' cmd) : Due cfg w cmd := by
  cases t with
  | boot =>
    obtain rfl := Option.some.inj h
    exact due_of_idle (((retains_startIdleTimeout w).only _).trans (only_setBoot _ _)) hx (fun _ => rfl) hd
  | beat b =>
    obtain rfl := Option.some.inj h
    apply due_of_idle (only_setBeat w b _) hx _ hd
    intro _
    cases b <;> simp [World.flight, setBeat, afterBeat, BeatPc.flight]
  | monitor => cases h
  | call i => exact due_of_retains (retains_resumeCall h) (fun _ => hx) hd

lemma due_cancelled (hx : w.exited = false) (h : w.cancelled t = some w') (hd : Due cfg w' cmd) :
    Due cfg w cmd := by
  cases cancelled_unwound h with
  | boot => exact due_of_idle (only_setBoot w _) hx (fun _ => rfl) hd
  | beat b =>
    apply due_of_idle (only_setBeat w b _) hx _ hd
    intro _
    simp [World.flight, setBeat, BeatPc.flight]
  | monitor => exact due_of_retains (retains_of_eq rfl rfl rfl rfl) (fun _ => hx) hd
  | call i => exact due_of_retains (retains_setCall w i .cancelled) (fun _ => hx) hd

lemma due_bootRun (hx : w.exited = false) (hd : Due cfg (w.bootRun cfg) cmd) : Due cfg w cmd := by
  rw [bootRun, startHeartbeat] at hd
  split_ifs at hd
  · exact due_of_idle (only_setBoot w _) hx (fun _ => rfl) hd
  · obtain ⟨hw, (ho | ⟨t, a, hf, -⟩) | ⟨-, t, a, hf, -⟩⟩ := hd
    · exact ⟨hw, Or.inl (Or.inl ho)⟩
    · have hwriter := writer_task hw hf
      cases t <;> first | cases hf | cases hwriter
    · have hwriter := writer_task hw hf
      cases t <;> first | cases hf | cases hwriter
  · exact due_of_idle (only_setBoot w _) hx (fun _ => rfl) hd

lemma due_executorDone {ok : Bool} (hx : w.exited = false) (h : w.executorDone cfg ok = some w')
    (hd : Due cfg w' cmd) : Due cfg w cmd ∨ cmd = .setStatus .healthy ∧ w'.status = .healthy := by
  cases executorDone_loaded h with
  | started =>
    have hget : Only cfg .boot w w.getRedis := (retains_getRedis w).only _
    have honly := (hget.trans (only_setStatus _ .healthy .boot)).trans
      (only_setBoot _ (.markingHealthy (.start w.client)))
    rcases due_of_only honly (fun _ => hx) hd with hd | ⟨a, hf, -⟩
    · exact Or.inl hd
    · cases hf
      exact Or.inr ⟨rfl, rfl⟩
  | failing =>
    have hbegin : Only cfg .boot w (w.beginCall cfg (lit "unhealthy") true false) :=
      (retains_beginCall w _ _ _).only _
    have honly := hbegin.trans (only_setBoot _ .failing)
    exact Or.inl (due_of_idle honly hx (fun _ => rfl) hd)
  | _ => exact Or.inl (due_of_idle (only_setBoot w _) hx (fun _ => rfl) hd)

/-- A command that is due was due before, or it was built in this step from the worker's status. -/
lemma due_step {b : Action} (hn : w.next cfg b = some w') (hd : Due cfg w' cmd) :
    Due cfg w cmd ∨ cmd = .setStatus .healthy ∧ w'.status = .healthy ∨
      ∃ now, cmd = .heartbeat (heartbeatFields cfg w.tracker.load w.status now) := by
  cases next_stepped hn with
  | bootRun hx => exact Or.inl (due_bootRun hx hd)
  | executorDone ok _ hx _ h => exact (due_executorDone hx h hd).imp_right Or.inl
  | wakeBeat b now hx =>
    have honly : Only cfg (.beat b) w (w.sendHeartbeat cfg b now) :=
      ((retains_getRedis w).only _).trans (only_setBeat _ _ _)
    rcases due_of_only honly (fun _ => hx) hd with hd | ⟨a, hf, -⟩
    · exact Or.inl hd
    · refine Or.inr (Or.inr ⟨now, ?_⟩)
      simp only [sendHeartbeat, World.flight, setBeat, Function.update_self, BeatPc.flight,
        Option.some.injEq, Prod.mk.injEq] at hf
      exact hf.1.symm
  | early => exact Or.inl hd
  | idle now hx =>
    have henter : Retains w w.enterCallback := retains_of_eq rfl rfl rfl rfl
    exact Or.inl (due_of_retains (henter.trans (retains_beginCall _ _ _ _)) (fun _ => hx) hd)
  | request op now hx => exact Or.inl (due_of_retains (retains_of_eq rfl rfl rfl rfl) (fun _ => hx) hd)
  | call reason exits hx => exact Or.inl (due_of_retains (retains_beginCall w _ _ _) (fun _ => hx) hd)
  | send t x a hx hf ha hc =>
    have hopened : Retains (w.mapAwait (fun a => { a with epoch := w.epoch a.client, phase := .sent }) t)
        (w.send t a) := retains_of_eq rfl rfl rfl rfl
    have honly : Only cfg t w (w.send t a) := (only_mapAwait w _ t).trans (hopened.only t)
    rcases due_of_only honly (fun _ => hx) hd with hdue | ⟨b, hb, -⟩
    · exact Or.inl hdue
    · have hwriter := writer_task hd.1 hb
      have ht : ∀ i, t ≠ .call i := by
        rintro i rfl
        cases hwriter
      have hmap := @flight_mapAwait cfg _ w (fun a => { a with epoch := w.epoch a.client, phase := .sent }) ht
      rw [hf] at hmap
      obtain ⟨rfl, -⟩ := Prod.mk.inj (Option.some.inj (hmap.symm.trans hb))
      exact Or.inl ⟨hd.1, Or.inr ⟨hx, t, a, hf, ha, hc⟩⟩
  | apply t x a hf ha =>
    have hd' : Due cfg (w.setPhase t .applied) cmd := by
      obtain ⟨hw, hs | ⟨hx, hwaits⟩⟩ := hd
      · exact ⟨hw, Or.inl hs⟩
      · exact ⟨hw, Or.inr ⟨hx, hwaits⟩⟩
    exact Or.inl (due_setPhase (by simp) hd')
  | deliver t x a => exact Or.inl (due_setPhase (by simp) hd)
  | resume t _ _ _ hx _ _ _ h => exact Or.inl (due_resume hx h hd)
  | fail t _ _ _ hx _ _ _ h => exact Or.inl (due_abandon (due_resume ((exited_abandon w t).trans hx) h hd))
  | cancel t hx => exact Or.inl (due_of_retains (retains_requestCancel w t) (fun _ => hx) hd)
  | cancelled t _ hx _ h => exact Or.inl (due_abandon (due_cancelled ((exited_abandon w t).trans hx) h hd))
  | closed i c hx =>
    have hretains : Retains w { w.setCall i .returned with redis := none } := retains_of_eq rfl rfl rfl rfl
    exact Or.inl (due_of_retains hretains (fun _ => hx) hd)
  | closeFailed i c hx => exact Or.inl (due_of_retains (retains_setCall w i .raised) (fun _ => hx) hd)
  | applyOrphan k x hk =>
    have hretains : Retains w ({ w with orphans := w.orphans.eraseIdx k }.record x) :=
      ⟨rfl, rfl, fun _ => rfl, id, fun _ => id, fun _ hy _ => List.mem_of_mem_eraseIdx hy⟩
    exact Or.inl (due_of_retains hretains id hd)
  | dropOrphan k x hk =>
    have hretains : Retains w { w with orphans := w.orphans.eraseIdx k } :=
      ⟨rfl, rfl, fun _ => rfl, id, fun _ => id, fun _ hy _ => List.mem_of_mem_eraseIdx hy⟩
    exact Or.inl (due_of_retains hretains id hd)
  | expire =>
    have hretains : Retains w { w with registry := w.registry.expire } := retains_of_eq rfl rfl rfl rfl
    exact Or.inl (due_of_retains hretains id hd)

lemma status_resume {ok : Bool} (h : w.resume cfg ok t = some w') : w'.status = w.status := by
  cases t with
  | boot =>
    obtain rfl := Option.some.inj h
    exact (retains_startIdleTimeout w).status
  | beat b =>
    obtain rfl := Option.some.inj h
    rfl
  | monitor => cases h
  | call i => exact (retains_resumeCall h).status

lemma status_cancelled (h : w.cancelled t = some w') : w'.status = w.status := by
  cases cancelled_unwound h <;> rfl

lemma status_abandon (w : World) (t : Task) : (w.abandon cfg t).status = w.status := by
  obtain h | ⟨cmd, a, -, -, h⟩ := abandon_cases cfg w t <;> rw [h]

lemma status_mapAwait (w : World) (f : Await → Await) (t : Task) : (w.mapAwait f t).status = w.status := by
  cases t <;> rfl

lemma status_executorDone {ok : Bool} (h : w.executorDone cfg ok = some w') :
    w'.status = w.status ∨ w'.status = .healthy := by
  cases executorDone_loaded h with
  | started => exact Or.inr rfl
  | failing => exact Or.inl (@retains_beginCall cfg w (lit "unhealthy") true false).status
  | _ => exact Or.inl rfl

/-- The module's status changes only where `mark_healthy` begins. -/
lemma status_step {b : Action} (hn : w.next cfg b = some w') :
    w'.status = w.status ∨ w'.status = .healthy := by
  cases next_stepped hn with
  | bootRun =>
    left
    rw [bootRun, startHeartbeat]
    split_ifs <;> rfl
  | executorDone ok _ _ _ h => exact status_executorDone h
  | wakeBeat b now => exact Or.inl (retains_getRedis w).status
  | idle => exact Or.inl (retains_beginCall w.enterCallback _ _ _).status
  | call reason exits => exact Or.inl (retains_beginCall w _ _ _).status
  | send t => exact Or.inl (status_mapAwait w _ t)
  | apply t => exact Or.inl (status_mapAwait w _ t)
  | deliver t => exact Or.inl (status_mapAwait w _ t)
  | resume t _ _ _ _ _ _ _ h => exact Or.inl (status_resume h)
  | fail t _ _ _ _ _ _ _ h => exact Or.inl ((status_resume h).trans (status_abandon w t))
  | cancel t => exact Or.inl (retains_requestCancel w t).status
  | cancelled t _ _ _ h => exact Or.inl ((status_cancelled h).trans (status_abandon w t))
  | _ => exact Or.inl rfl

end Steps

section Order

def mayApply (cfg : Config) (w : World) (t : Task) : List Command :=
  match w.flight cfg t with
  | some (cmd, a) =>
    if a.phase = .sent ∨ a.phase = .waiting ∧ w.exited = false ∧ w.cancelRequested t = false then [cmd] else []
  | none => []

/-- No heartbeat built before `mark_healthy`, or command left on the wire, can still set `booting`. -/
def NoBootingDue (cfg : Config) (w : World) : Prop :=
  ∀ cmd ∈ w.orphans ++ [Task.boot, .beat .oneShot, .beat .loop].flatMap (w.mayApply cfg),
    cmd.sets .booting = false

def AnnouncesHealthy (cfg : Config) (w : World) (b : Action) : Prop :=
  (w.applied cfg b).any (Command.sets .healthy) = true

/-- Nothing applied after a command that set `healthy` has set `booting`. -/
def StatusOrdered (w : World) : Prop :=
  w.log.Pairwise (fun x y => x.sets .healthy = true → y.sets .booting = false)

instance : Decidable (NoBootingDue cfg w) :=
  inferInstanceAs (Decidable (∀ _ ∈ _, _))

instance (b : Action) : Decidable (AnnouncesHealthy cfg w b) :=
  inferInstanceAs (Decidable (_ = _))

instance : Decidable (StatusOrdered w) :=
  inferInstanceAs (Decidable (List.Pairwise _ _))

lemma mem_mayApply : cmd ∈ w.mayApply cfg t ↔ ∃ a, w.flight cfg t = some (cmd, a) ∧
    (a.phase = .sent ∨ a.phase = .waiting ∧ w.exited = false ∧ w.cancelRequested t = false) := by
  rw [mayApply]
  cases hf : w.flight cfg t with
  | none => simp
  | some f =>
    obtain ⟨x, a⟩ := f
    simp only
    split_ifs with ha
    · simp only [List.mem_singleton, Option.some.injEq, Prod.mk.injEq]
      exact ⟨fun h => ⟨a, ⟨h.symm, rfl⟩, ha⟩, fun ⟨_, h, _⟩ => h.1.symm⟩
    · refine iff_of_false List.not_mem_nil ?_
      rintro ⟨b, hb, hcases⟩
      obtain ⟨-, rfl⟩ := Prod.mk.inj (Option.some.inj hb)
      exact ha hcases

lemma noBootingDue_iff : NoBootingDue cfg w ↔ ∀ cmd, Due cfg w cmd → cmd.sets .booting = false := by
  constructor
  · intro h cmd hd
    refine h cmd (List.mem_append.mpr ?_)
    have hmay {t : Task} {a : Await} (hf : w.flight cfg t = some (cmd, a))
        (ha : a.phase = .sent ∨ a.phase = .waiting ∧ w.exited = false ∧ w.cancelRequested t = false) :
        cmd ∈ [Task.boot, .beat .oneShot, .beat .loop].flatMap (w.mayApply cfg) := by
      refine List.mem_flatMap.mpr ⟨t, ?_, mem_mayApply.mpr ⟨a, hf, ha⟩⟩
      have hwriter := writer_task hd.1 hf
      cases t with
      | boot => simp
      | beat b => cases b <;> simp
      | _ => cases hwriter
    obtain ⟨-, (ho | ⟨t, a, hf, ha⟩) | ⟨hx, t, a, hf, ha, hc⟩⟩ := hd
    · exact Or.inl ho
    · exact Or.inr (hmay hf (Or.inl ha))
    · exact Or.inr (hmay hf (Or.inr ⟨ha, hx, hc⟩))
  · intro h cmd hcmd
    by_contra hsets
    have hsets : cmd.sets .booting = true := by simpa using hsets
    have hw := writes_of_sets hsets
    have hdue : Due cfg w cmd := by
      rcases List.mem_append.mp hcmd with ho | hm
      · exact ⟨hw, Or.inl (Or.inl ho)⟩
      · obtain ⟨t, -, ht⟩ := List.mem_flatMap.mp hm
        obtain ⟨a, hf, ha | ⟨ha, hx, hc⟩⟩ := mem_mayApply.mp ht
        · exact ⟨hw, Or.inl (Or.inr ⟨t, a, hf, ha⟩)⟩
        · exact ⟨hw, Or.inr ⟨hx, t, a, hf, ha, hc⟩⟩
    rw [h cmd hdue] at hsets
    cases hsets

/-- While the module's status is `booting`, nothing that was built says otherwise. -/
def HealthyUnsaid (cfg : Config) (w : World) : Prop :=
  w.status = .booting → (∀ cmd, Due cfg w cmd → cmd.sets .healthy = false) ∧
    ∀ cmd ∈ w.log, cmd.sets .healthy = false

lemma healthyUnsaid_init : HealthyUnsaid cfg (init cfg) := by
  refine fun _ => ⟨fun cmd hd => ?_, by simp [init]⟩
  obtain ⟨-, (ho | ⟨t, a, hf, -⟩) | ⟨-, t, a, hf, -⟩⟩ := hd
  · cases ho
  · cases t <;> cases hf
  · cases t <;> cases hf

lemma HealthyUnsaid.step {b : Action} (h : HealthyUnsaid cfg w) (hn : w.next cfg b = some w') :
    HealthyUnsaid cfg w' := by
  intro hs'
  have hs : w.status = .booting := by
    rcases status_step hn with hs | hs
    · exact hs.symm.trans hs'
    · cases hs.symm.trans hs'
  obtain ⟨hdue, hlog⟩ := h hs
  refine ⟨fun cmd hd => ?_, fun cmd hcmd => ?_⟩
  · rcases due_step hn hd with hd | ⟨-, hhealthy⟩ | ⟨now, rfl⟩
    · exact hdue cmd hd
    · cases hhealthy.symm.trans hs'
    · rw [hs, Bool.eq_false_iff, Ne, sets_heartbeat]
      exact Status.noConfusion
  · rw [log_step hn] at hcmd
    rcases List.mem_append.mp hcmd with hcmd | hcmd
    · exact hlog cmd hcmd
    · by_contra hsets
      have hsets : cmd.sets .healthy = true := by simpa using hsets
      have hd := due_of_applied (Option.mem_toList.mp hcmd) (writes_of_sets hsets)
      rw [hdue cmd hd] at hsets
      cases hsets

lemma NoBootingDue.step {b : Action} (h : NoBootingDue cfg w) (hs : w.status ≠ .booting)
    (hn : w.next cfg b = some w') : w'.status ≠ .booting ∧ NoBootingDue cfg w' := by
  refine ⟨?_, noBootingDue_iff.mpr fun cmd hd => ?_⟩
  · rcases status_step hn with hs' | hs' <;> rw [hs']
    · exact hs
    · exact Status.noConfusion
  · rcases due_step hn hd with hd | ⟨rfl, -⟩ | ⟨now, rfl⟩
    · exact noBootingDue_iff.mp h cmd hd
    · rw [Bool.eq_false_iff, Ne, sets_setStatus]
      exact Status.noConfusion
    · rw [Bool.eq_false_iff, Ne, sets_heartbeat]
      exact hs

lemma HealthyUnsaid.announces {b : Action} (h : HealthyUnsaid cfg w) (hb : AnnouncesHealthy cfg w b) :
    w.status ≠ .booting := by
  intro hs
  obtain ⟨cmd, hcmd, hsets⟩ := (Option.any_eq_true _ _).mp hb
  rw [(h hs).1 cmd (due_of_applied hcmd (writes_of_sets hsets))] at hsets
  cases hsets

lemma cancelRequested_mapAwait (w : World) (f : Await → Await) (t t' : Task) (hw : t'.writer = true) :
    (w.mapAwait f t).cancelRequested t' = w.cancelRequested t' := by
  cases t' with
  | boot => cases t <;> rfl
  | beat d =>
    cases t with
    | beat b => by_cases hd : d = b <;> simp [mapAwait, setBeat, World.cancelRequested, hd]
    | _ => rfl
  | _ => cases hw

lemma Due.survives {b : Action} {x : Command} (h : Due cfg w cmd) (hn : w.next cfg b = some w')
    (hb : w.applied cfg b = some x) (hne : cmd ≠ x) : Due cfg w' cmd := by
  cases next_stepped hn with
  | apply t y a hf ha =>
    obtain rfl : y = x := by simpa [applied, hf, ha] using hb
    have hother {t' : Task} {c : Await} (hf' : w.flight cfg t' = some (cmd, c)) :
        (w.setPhase t .applied).flight cfg t' = some (cmd, c) := by
      have ht : t' ≠ t := by
        rintro rfl
        exact hne (Prod.mk.inj (Option.some.inj (hf'.symm.trans hf))).1
      exact ((only_mapAwait w _ t).flight t' ht (writer_task h.1 hf')).trans hf'
    have horphans : (w.setPhase t .applied).orphans = w.orphans := by cases t <;> rfl
    have hdue : Due cfg (w.setPhase t .applied) cmd := by
      obtain ⟨hw, (ho | ⟨t', c, hf', hc⟩) | ⟨hx, t', c, hf', hc, hr⟩⟩ := h
      · exact ⟨hw, Or.inl (Or.inl (horphans ▸ ho))⟩
      · exact ⟨hw, Or.inl (Or.inr ⟨t', c, hother hf', hc⟩)⟩
      · refine ⟨hw, Or.inr ⟨(exited_setPhase_task w t .applied).trans hx, t', c, hother hf', hc, ?_⟩⟩
        exact (cancelRequested_mapAwait w _ t t' (writer_task hw hf')).trans hr
    obtain ⟨hw, hs | hwaits⟩ := hdue
    · exact ⟨hw, Or.inl hs⟩
    · exact ⟨hw, Or.inr hwaits⟩
  | applyOrphan k y hk =>
    obtain rfl : y = x := Option.some.inj (hk.symm.trans hb)
    obtain ⟨hw, (ho | hsent) | hwaits⟩ := h
    · exact ⟨hw, Or.inl (Or.inl (mem_eraseIdx_of_ne ho hk hne))⟩
    · exact ⟨hw, Or.inl (Or.inr hsent)⟩
    · exact ⟨hw, Or.inr hwaits⟩
  | _ => cases hb

/-- If `healthy` is only set once no `booting` is due, the status never goes back. Where it is set
earlier, some continuation sets `booting` again. -/
theorem status_ordered (cfg : Config) :
    (∀ as, (lifecycle cfg).Guarded (fun w b => AnnouncesHealthy cfg w b → NoBootingDue cfg w) (init cfg) as →
      (lifecycle cfg).Always StatusOrdered (init cfg) as) ∧
    ∀ as w b w', (lifecycle cfg).exec (init cfg) as = some w → w.next cfg b = some w' →
      AnnouncesHealthy cfg w b → ¬ NoBootingDue cfg w →
        ∃ bs u, (lifecycle cfg).exec (init cfg) (as ++ b :: bs) = some u ∧ ¬ StatusOrdered u := by
  refine ⟨fun as hg => ?_, fun as w b w' he hn hb hdue => ?_⟩
  · have hcalm (w : World) (b : Action) (w' : World) (_ : HealthyUnsaid cfg w)
        (hc : w.status ≠ .booting ∧ NoBootingDue cfg w) (hn : (lifecycle cfg).next w b = some w') :
        (w'.status ≠ .booting ∧ NoBootingDue cfg w') ∧
          ∀ x ∈ w.applied cfg b, ¬ x.sets .booting = true := by
      refine ⟨hc.2.step hc.1 hn, fun x hx hsets => ?_⟩
      rw [noBootingDue_iff.mp hc.2 x (due_of_applied hx (writes_of_sets hsets))] at hsets
      cases hsets
    have hfirst (w : World) (b : Action) (h : HealthyUnsaid cfg w)
        (hok : AnnouncesHealthy cfg w b → NoBootingDue cfg w)
        (hr : ∃ x ∈ w.applied cfg b, x.sets .healthy = true) :
        w.status ≠ .booting ∧ NoBootingDue cfg w := by
      have hb : AnnouncesHealthy cfg w b := (Option.any_eq_true _ _).mpr hr
      exact ⟨h.announces hb, hok hb⟩
    have hlog := hg.pairwise_log (fun _ _ _ hn => log_step hn) (fun _ _ _ h hn => h.step hn) hcalm hfirst
      healthyUnsaid_init (by simp [init])
    exact hlog.mono fun w hw => hw.imp fun hxy hr => by simpa using hxy hr
  · have hstale : ∃ cmd, Due cfg w cmd ∧ cmd.sets .booting = true := by
      by_contra hnone
      refine hdue (noBootingDue_iff.mpr fun cmd hd => ?_)
      by_contra hsets
      exact hnone ⟨cmd, hd, by simpa using hsets⟩
    obtain ⟨cmd, hd, hsets⟩ := hstale
    obtain ⟨x, hx, hhealthy⟩ := (Option.any_eq_true _ _).mp hb
    have hne : cmd ≠ x := by
      rintro rfl
      cases sets_unique hsets hhealthy
    obtain ⟨bs, u, hu, hlog⟩ := (hd.survives hn hx hne).applies
    refine ⟨bs, u, ?_, fun hordered => ?_⟩
    · rw [Machine.exec_append he]
      exact (Machine.exec_cons hn).trans hu
    · rw [StatusOrdered, hlog, log_step hn, hx, List.pairwise_append] at hordered
      have hlast := hordered.2.2 x (by simp) cmd (by simp) hhealthy
      rw [hsets] at hlast
      cases hlast

def answeredBeat : List Action :=
  [.bootRun, .wakeBeat .oneShot 1, .send (.beat .oneShot), .apply (.beat .oneShot), .deliver (.beat .oneShot),
    .resume (.beat .oneShot), .executorDone true, .executorDone true, .send .boot, .apply .boot,
    .wakeBeat .loop 11, .send (.beat .loop), .apply (.beat .loop)]

theorem answeredBeat_ordered :
    (lifecycle .sample).Always StatusOrdered (init .sample) answeredBeat ∧
      ((lifecycle .sample).exec (init .sample) answeredBeat).any (fun w => w.log.length = 3) :=
  ⟨(status_ordered .sample).1 answeredBeat (by decide +kernel), by decide +kernel⟩

/-- A heartbeat that waits for its connection while `mark_healthy` writes on another. -/
def lateBeat : List Action :=
  [.bootRun, .wakeBeat .oneShot 1, .executorDone true, .executorDone true, .send .boot, .apply .boot,
    .send (.beat .oneShot), .apply (.beat .oneShot)]

theorem lateBeat_regresses :
    ∃ w, (lifecycle .sample).exec (init .sample) lateBeat = some w ∧ w.status = .healthy ∧
      ¬ StatusOrdered w ∧ w.registry.entry.any (fun e => (lit "status", lit "booting") ∈ e.fields) := by
  have hrun : ((lifecycle .sample).exec (init .sample) lateBeat).any (fun w => w.status = .healthy ∧
      ¬ StatusOrdered w ∧ w.registry.entry.any (fun e => (lit "status", lit "booting") ∈ e.fields)) = true := by
    decide +kernel
  obtain ⟨w, he, hw⟩ := (Option.any_eq_true _ _).mp hrun
  exact ⟨w, he, by simpa using hw⟩

end Order

end World

end GemmaWorker.Heartbeat
