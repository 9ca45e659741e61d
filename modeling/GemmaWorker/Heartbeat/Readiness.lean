import GemmaWorker.Heartbeat.StatusOrder

/-! What the HTTP routes and the control plane can see of the life cycle: the tracker and the status, and the
status that the hash in Redis shows. -/

namespace GemmaWorker.Heartbeat.World

open Python Library

section Shown

variable {cfg : Config} {w w' : World} {t : Task}

def isRequest : Action → Bool
  | .request _ _ => true
  | _ => false

/-- `_boot_in_background` sets `_engines_ready` when the engines are there, or at once if it skips them. -/
def readies (cfg : Config) (w : World) : Action → Bool
  | .bootRun => cfg.skipModelLoad
  | .executorDone true => match w.boot.pc with | .initialising => true | _ => false
  | _ => false

def shown (w : World) : LoadTracker × Status := (w.tracker, w.status)

lemma shown_getRedis (w : World) : w.getRedis.shown = w.shown := by
  rw [getRedis]
  split <;> rfl

lemma shown_halted (w : World) : w.halted.shown = w.shown := by
  have hbeat (u : World) : u.stopHeartbeat.shown = u.shown := by
    rw [stopHeartbeat]
    split_ifs <;> rfl
  have hidle (u : World) : u.stopIdleTimeout.shown = u.shown := by
    rw [stopIdleTimeout]
    split <;> rfl
  exact (hidle _).trans (hbeat _)

lemma shown_beginCall (w : World) (reason : PyStr) (exits cancelled : Bool) :
    (w.beginCall cfg reason exits cancelled).shown = w.shown := by
  cases hs : w.signaled with
  | true =>
    rw [beginCall, if_pos hs]
    cases w.redis <;> rfl
  | false =>
    cases he : cfg.isHeartbeatEnabled with
    | true =>
      rw [beginCall_first he hs]
      exact (shown_getRedis _).trans (shown_halted w)
    | false =>
      rw [beginCall, if_neg (by simp [hs]), if_neg (by simp [he])]
      exact shown_halted w

lemma shown_closeRedis (w : World) (i : ℕ) : (w.closeRedis i).shown = w.shown := by
  rw [closeRedis]
  cases w.redis <;> rfl

lemma shown_resumeCall {i : ℕ} {c : Call} (h : w.resumeCall i c = some w') : w'.shown = w.shown := by
  rw [resumeCall.eq_def] at h
  split at h
  · split_ifs at h
    · obtain rfl := Option.some.inj h
      rfl
    · obtain rfl := Option.some.inj h
      exact shown_getRedis w
  · obtain rfl := Option.some.inj h
    rfl
  · obtain rfl := Option.some.inj h
    exact shown_closeRedis w i
  · cases h

lemma shown_failCall {i : ℕ} {c : Call} (h : w.failCall i c = some w') : w'.shown = w.shown := by
  rw [failCall.eq_def] at h
  split at h
  · obtain rfl := Option.some.inj h
    rfl
  · obtain rfl := Option.some.inj h
    exact shown_closeRedis w i
  · obtain rfl := Option.some.inj h
    exact shown_closeRedis w i
  · cases h

lemma shown_resume {ok : Bool} (h : w.resume cfg ok t = some w') : w'.shown = w.shown := by
  cases t with
  | boot =>
    obtain rfl := Option.some.inj h
    rw [startIdleTimeout]
    split_ifs <;> rfl
  | beat b =>
    obtain rfl := Option.some.inj h
    rfl
  | monitor => cases h
  | call i =>
    obtain ⟨c, -, h⟩ := Option.bind_eq_some_iff.mp h
    split_ifs at h
    · exact shown_resumeCall h
    · exact shown_failCall h

lemma shown_mapAwait (w : World) (f : Await → Await) (t : Task) : (w.mapAwait f t).shown = w.shown := by
  cases t <;> rfl

lemma shown_abandon (w : World) (t : Task) : (w.abandon cfg t).shown = w.shown := by
  obtain h | ⟨cmd, a, -, -, h⟩ := abandon_cases cfg w t <;> rw [h]
  rfl

lemma shown_cancelled (h : w.cancelled t = some w') : w'.shown = w.shown := by
  cases cancelled_unwound h <;> rfl

lemma shown_executorDone {ok : Bool} (h : w.executorDone cfg ok = some w') :
    w'.tracker = w.tracker ∧ (w'.status = w.status ∨ readies cfg w (.executorDone ok) = true) := by
  cases executorDone_loaded h with
  | started hpc => exact ⟨congrArg Prod.fst (shown_getRedis w), Or.inr (by simp [readies, hpc])⟩
  | failing =>
    obtain ⟨htracker, hstatus⟩ := Prod.mk.inj (@shown_beginCall cfg w (lit "unhealthy") true false)
    exact ⟨htracker, Or.inl hstatus⟩
  | _ => exact ⟨rfl, Or.inl rfl⟩

theorem shown_step {a : Action} (hn : w.next cfg a = some w') (ha : isRequest a = false) :
    w'.tracker = w.tracker ∧ (w'.status = w.status ∨ readies cfg w a = true) := by
  have hkeep (h : w'.shown = w.shown) : w'.tracker = w.tracker ∧ (w'.status = w.status ∨ readies cfg w a = true) :=
    ⟨congrArg Prod.fst h, Or.inl (congrArg Prod.snd h)⟩
  cases next_stepped hn with
  | bootRun =>
    refine hkeep ?_
    rw [bootRun, startHeartbeat]
    split_ifs <;> rfl
  | executorDone ok _ _ _ h => exact shown_executorDone h
  | wakeBeat b now => exact hkeep (shown_getRedis w)
  | idle => exact hkeep (shown_beginCall w.enterCallback _ _ _)
  | request => cases ha
  | call reason exits => exact hkeep (shown_beginCall w _ _ _)
  | send t => exact hkeep (shown_mapAwait w _ t)
  | apply t => exact hkeep (shown_mapAwait w _ t)
  | deliver t => exact hkeep (shown_mapAwait w _ t)
  | resume t _ _ _ _ _ _ _ h => exact hkeep (shown_resume h)
  | fail t _ _ _ _ _ _ _ h => exact hkeep ((shown_resume h).trans (shown_abandon w t))
  | cancel t => exact hkeep (by cases t <;> rfl)
  | cancelled t _ _ _ h => exact hkeep ((shown_cancelled h).trans (shown_abandon w t))
  | _ => exact hkeep rfl

end Shown

section Hash

variable {cfg : Config} {w w' : World}

def Genuine (cfg : Config) (cmd : Command) : Prop :=
  ∃ load s now, cmd = .heartbeat (heartbeatFields cfg load s now) ∨ cmd = .setStatus s

def statusShown (w : World) : Option PyStr :=
  w.registry.entry.bind (fun e => statusField e.fields)

/-- What the hash shows was said by a command, and nothing is due that the worker did not build. -/
structure Told (cfg : Config) (w : World) : Prop where
  due : ∀ cmd, Due cfg w cmd → Genuine cfg cmd
  shown : ∀ text ∈ w.statusShown, ∃ cmd ∈ w.log, cmd.status = some text

lemma not_due_init (cmd : Command) : ¬ Due cfg (init cfg) cmd := by
  rintro ⟨-, (ho | ⟨t, a, hf, -⟩) | ⟨-, t, a, hf, -⟩⟩
  · cases ho
  · cases t <;> cases hf
  · cases t <;> cases hf

lemma told_init : Told cfg (init cfg) :=
  ⟨fun cmd hd => absurd hd (not_due_init cmd), by simp [statusShown, init, Registry.empty]⟩

lemma shown_apply {r : Registry} {cmd : Command} (hcmd : cmd.writes = true → Genuine cfg cmd) {text : PyStr}
    (h : (r.apply cmd).entry.bind (fun e => statusField e.fields) = some text) :
    cmd.status = some text ∨ r.entry.bind (fun e => statusField e.fields) = some text := by
  cases cmd with
  | heartbeat fields =>
    obtain ⟨load, s, now, hs⟩ := hcmd rfl
    exact Or.inl ((status_apply hs).symm.trans h)
  | setStatus status =>
    obtain ⟨load, s, now, hs⟩ := hcmd rfl
    exact Or.inl ((status_apply hs).symm.trans h)
  | publish channel message => exact Or.inr h
  | delete => cases h
  | srem => exact Or.inr h

lemma shown_expire {r : Registry} {text : PyStr}
    (h : r.expire.entry.bind (fun e => statusField e.fields) = some text) :
    r.entry.bind (fun e => statusField e.fields) = some text := by
  obtain ⟨e, he, hs⟩ := Option.bind_eq_some_iff.mp h
  exact Option.bind_eq_some_iff.mpr ⟨e, (Option.mem_filter_iff.mp he).1, hs⟩

lemma Told.step {a : Action} (h : Told cfg w) (hn : w.next cfg a = some w') : Told cfg w' := by
  refine ⟨fun cmd hd => ?_, fun text htext => ?_⟩
  · rcases due_step hn hd with hd | ⟨rfl, -⟩ | ⟨now, rfl⟩
    · exact h.due cmd hd
    · exact ⟨0, .healthy, 0, Or.inr rfl⟩
    · exact ⟨_, _, now, Or.inl rfl⟩
  · have hlog : w'.log = (w.restored cfg a).1 := congrArg Prod.fst (stored_step hn)
    have hregistry : w'.registry = (w.restored cfg a).2 := congrArg Prod.snd (stored_step hn)
    rw [statusShown, hregistry] at htext
    rw [hlog]
    obtain ⟨cmd, hcmd, hw⟩ | ⟨-, hw⟩ | ⟨-, hw⟩ := restored_cases cfg w a <;> rw [hw] at htext ⊢
    · have hgenuine (hw : cmd.writes = true) : Genuine cfg cmd := h.due cmd (due_of_applied hcmd hw)
      rcases shown_apply hgenuine htext with hsaid | hold
      · exact ⟨cmd, by simp, hsaid⟩
      · obtain ⟨x, hx, hsaid⟩ := h.shown text hold
        exact ⟨x, List.mem_append_left _ hx, hsaid⟩
    · exact h.shown text (shown_expire htext)
    · exact h.shown text htext

/-- Once the hash shows `healthy`, the status of the worker is not `booting` any more. -/
theorem booted_of_shown {as : List Action} (he : (lifecycle cfg).exec (init cfg) as = some w)
    (h : w.statusShown = some Status.healthy.text) : w.status ≠ .booting := by
  have htold : Told cfg w := Machine.exec_invariant he told_init fun _ _ _ h hn => h.step hn
  have hunsaid : HealthyUnsaid cfg w := Machine.exec_invariant he healthyUnsaid_init fun _ _ _ h hn => h.step hn
  intro hs
  obtain ⟨cmd, hcmd, hsaid⟩ := htold.shown _ h
  have hsets : cmd.sets .healthy = true := by simp [Command.sets, hsaid]
  rw [(hunsaid hs).2 cmd hcmd] at hsets
  cases hsets

end Hash

end GemmaWorker.Heartbeat.World
