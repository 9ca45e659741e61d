import GemmaWorker.Heartbeat.Lifecycle

/-! What the calls of `graceful_shutdown` do, apart from clients, connections and the other tasks: the
once-only flag, the calls, and the commands applied or left on the wire. The lifecycle refines it. -/

namespace GemmaWorker.Heartbeat

open Python World

structure View where
  signaled : Bool
  calls : List Call
  orphans : List Command
  log : List Command

section Calls

variable {cfg : Config}

def CallPc.pending (cfg : Config) (pc : CallPc) : Option Command :=
  match pc.flight cfg with
  | some (cmd, a) => if a.phase = .waiting ∨ a.phase = .sent then some cmd else none
  | none => none

def CallPc.wire (cfg : Config) (pc : CallPc) : List Command :=
  match pc.flight cfg with
  | some (cmd, a) => if a.phase = .sent then [cmd] else []
  | none => []

/-- The call waits in `publish` and its message has not been applied. -/
def CallPc.signalPending : CallPc → Bool
  | .publishing _ a => a.phase = .waiting || a.phase = .sent
  | _ => false

def CallPc.closed : CallPc → Bool
  | .closing | .returned | .raised | .cancelled => true
  | _ => false

/-- How a call goes on, what it leaves on the wire, and whether it leaves its signal behind. -/
inductive PcMove (cfg : Config) (reason : PyStr) : Bool → CallPc → CallPc → List Command → Prop
  | stay (pc : CallPc) (f : Await → Await)
      (hf : (pc.mapAwait f).pending cfg = pc.pending cfg)
      (hs : (pc.mapAwait f).signalPending = pc.signalPending) :
      PcMove cfg reason false pc (pc.mapAwait f) []
  | paused {m : PyStr} {a : Await} (ha : a.phase = .answered) (hr : reason = idleReason) :
      PcMove cfg reason false (.publishing m a) .returned []
  | signalled {m : PyStr} {a : Await} (k : ℕ) (ha : a.phase = .answered) (hr : reason ≠ idleReason) :
      PcMove cfg reason false (.publishing m a) (.deleting (.start k)) []
  | deleted {a : Await} (ha : a.phase = .answered) :
      PcMove cfg reason false (.deleting a) (.removing (.start a.client)) []
  | removed {a : Await} {pc : CallPc} (ha : a.phase = .answered) (hpc : pc = .closing ∨ pc = .returned) :
      PcMove cfg reason false (.removing a) pc []
  | skipped {pc pc' : CallPc} (h : (∃ a, pc = .deleting a) ∨ ∃ a, pc = .removing a)
      (hpc : pc' = .closing ∨ pc' = .returned) : PcMove cfg reason false pc pc' (pc.wire cfg)
  | raised (m : PyStr) (a : Await) : PcMove cfg reason (CallPc.publishing m a).signalPending
      (.publishing m a) .raised ((CallPc.publishing m a).wire cfg)
  | cancelled (pc : CallPc) : PcMove cfg reason pc.signalPending pc .cancelled (pc.wire cfg)
  | closed (pc : CallPc) (hpc : pc = .returned ∨ pc = .raised) : PcMove cfg reason false .closing pc []

def Starts (cfg : Config) (c : Call) : Prop :=
  if cfg.isHeartbeatEnabled then
    ∃ m k, terminationMessage cfg c.reason = .ok m ∧ c.pc = .publishing m (.start k)
  else c.pc = .returned

inductive ViewStep (cfg : Config) : Bool → View → View → Prop
  | quiet (v : View) : ViewStep cfg false v v
  | leaveWrite (v : View) (cmd : Command) (hw : cmd.writes) :
      ViewStep cfg false v { v with orphans := v.orphans ++ [cmd] }
  | applyWrite (v : View) (cmd : Command) (hw : cmd.writes) :
      ViewStep cfg false v { v with log := v.log ++ [cmd] }
  | applyOrphan (v : View) (k : ℕ) (cmd : Command) (hk : v.orphans[k]? = some cmd) :
      ViewStep cfg false v { v with orphans := v.orphans.eraseIdx k, log := v.log ++ [cmd] }
  | dropOrphan (v : View) (k : ℕ) :
      ViewStep cfg false v { v with orphans := v.orphans.eraseIdx k }
  | first (v : View) (c : Call) (h : v.signaled = false) (hc : Starts cfg c) :
      ViewStep cfg false v { v with signaled := true, calls := v.calls ++ [c] }
  | duplicate (v : View) (c : Call) (h : v.signaled = true) (hc : c.pc = .closing ∨ c.pc = .returned) :
      ViewStep cfg false v { v with calls := v.calls ++ [c] }
  | apply (v : View) (i : ℕ) (c : Call) (cmd : Command) (a : Await) (hc : v.calls[i]? = some c)
      (hf : c.pc.flight cfg = some (cmd, a)) (ha : a.phase = .sent) :
      ViewStep cfg false v
        { v with
          calls := v.calls.set i { c with pc := c.pc.mapAwait (fun a => { a with phase := .applied }) }
          log := v.log ++ [cmd] }
  | move (v : View) (i : ℕ) (c : Call) (lossy cancelled : Bool) (pc : CallPc) (lost : List Command)
      (hc : v.calls[i]? = some c) (hm : PcMove cfg c.reason lossy c.pc pc lost) :
      ViewStep cfg lossy v
        { v with
          calls := v.calls.set i { c with pc := pc, cancelRequested := cancelled }
          orphans := v.orphans ++ lost }

end Calls

namespace World

variable {cfg : Config} {w w' : World}

def view (w : World) : View := ⟨w.signaled, w.calls, w.orphans, w.log⟩

section Frames

variable (cfg w)

@[simp] lemma view_setBoot (pc : BootPc) : (w.setBoot pc).view = w.view := rfl

@[simp] lemma view_setStatus (status : Status) : (w.setStatus status).view = w.view := rfl

@[simp] lemma view_setBeat (b : BeatId) (pc : BeatPc) : (w.setBeat b pc).view = w.view := rfl

@[simp] lemma view_getRedis : w.getRedis.view = w.view := by
  rw [getRedis]
  split <;> rfl

@[simp] lemma view_closeClient (c : ℕ) : (w.closeClient c).view = w.view := rfl

@[simp] lemma view_sendHeartbeat (b : BeatId) (now : ℚ) : (w.sendHeartbeat cfg b now).view = w.view := by
  simp [sendHeartbeat]

@[simp] lemma view_startHeartbeat : (w.startHeartbeat cfg).view = w.view := by
  rw [startHeartbeat]
  split_ifs <;> rfl

@[simp] lemma view_bootRun : (w.bootRun cfg).view = w.view := by
  rw [bootRun]
  split_ifs <;> simp

@[simp] lemma view_startIdleTimeout : (w.startIdleTimeout cfg).view = w.view := by
  rw [startIdleTimeout]
  split_ifs <;> rfl

@[simp] lemma view_stopHeartbeat : w.stopHeartbeat.view = w.view := by
  rw [stopHeartbeat]
  split_ifs <;> rfl

@[simp] lemma view_stopIdleTimeout : w.stopIdleTimeout.view = w.view := by
  rw [stopIdleTimeout]
  split <;> rfl

@[simp] lemma view_addCall (reason : PyStr) (exits cancelled : Bool) (pc : CallPc) :
    (w.addCall reason exits cancelled pc).view =
      { w.view with calls := w.view.calls ++ [⟨reason, exits, cancelled, pc⟩] } := rfl

lemma modify_eq_set {α : Type} {l : List α} {i : ℕ} {x : α} (h : l[i]? = some x) (f : α → α) :
    l.modify i f = l.set i (f x) := by
  refine List.ext_getElem? fun j => ?_
  rw [List.getElem?_modify, List.getElem?_set]
  by_cases hj : i = j
  · subst hj
    obtain ⟨hi, hx⟩ := List.getElem?_eq_some_iff.mp h
    simp [hi, hx]
  · simp [hj]

lemma modifyCall_view {i : ℕ} {c : Call} (hc : w.calls[i]? = some c) (f : CallPc → CallPc) :
    (w.modifyCall i f).view = { w.view with calls := w.view.calls.set i { c with pc := f c.pc } } := by
  simp [view, modifyCall, modify_eq_set hc]

lemma flight_writes {t : Task} {cmd : Command} {a : Await} (ht : ∀ i, t ≠ .call i)
    (h : w.flight cfg t = some (cmd, a)) : cmd.writes = true := by
  cases t with
  | boot =>
    cases hpc : w.boot.pc <;> simp [flight, BootPc.flight, hpc] at h
    simp [← h.1, Command.writes]
  | beat b =>
    cases hpc : (w.beat b).pc <;> simp [flight, BeatPc.flight, hpc] at h
    simp [← h.1, Command.writes]
  | monitor => cases h
  | call i => exact absurd rfl (ht i)

end Frames

section Simulation

/-- The step makes a call leave `publish` before its message is applied. -/
def losesSignal (w : World) : Action → Bool
  | .fail (.call i) => w.calls[i]?.any (fun c => c.pc.signalPending)
  | .cancelled (.call i) => w.calls[i]?.any (fun c => c.pc.signalPending)
  | _ => false

def halted (w : World) : World :=
  { w with signaled := true }.stopHeartbeat.stopIdleTimeout

@[simp] lemma view_halted (w : World) : w.halted.view = { w.view with signaled := true } := by
  rw [halted, view_stopIdleTimeout, view_stopHeartbeat]
  rfl

lemma beginCall_first (henabled : cfg.isHeartbeatEnabled = true) (hs : w.signaled = false) (reason : PyStr)
    (exits cancelled : Bool) : w.beginCall cfg reason exits cancelled =
      w.halted.getRedis.addCall reason exits cancelled (.publishing
        (jsonDumps (.dict (terminationItems cfg reason (.str cfg.getPodId)))) (.start w.halted.client)) := by
  rw [beginCall, if_neg (by simp [hs]), if_pos henabled, terminationMessage_eq]
  rfl

lemma beginCall_step (w : World) (reason : PyStr) (exits cancelled : Bool) :
    ViewStep cfg false w.view (w.beginCall cfg reason exits cancelled).view := by
  rw [beginCall]
  split_ifs with hs he
  · cases w.redis with
    | none => exact .duplicate w.view _ hs (Or.inr rfl)
    | some c => exact .duplicate w.view _ hs (Or.inl rfl)
  · have hfirst : w.view.signaled = false := by simpa [view] using hs
    rw [terminationMessage_eq]
    simp only [view_addCall, view_getRedis, view_stopIdleTimeout, view_stopHeartbeat]
    refine .first w.view _ hfirst ?_
    rw [Starts, if_pos he]
    exact ⟨_, _, terminationMessage_eq cfg reason, rfl⟩
  · have hfirst : w.view.signaled = false := by simpa [view] using hs
    simp only [view_addCall, view_stopIdleTimeout, view_stopHeartbeat]
    refine .first w.view _ hfirst ?_
    rw [Starts, if_neg he]

lemma executorDone_step {ok : Bool} (h : w.executorDone cfg ok = some w') :
    ViewStep cfg false w.view w'.view := by
  cases executorDone_loaded h with
  | started =>
    rw [view_setBoot, view_setStatus, view_getRedis]
    exact .quiet _
  | failing => exact @beginCall_step cfg w (lit "unhealthy") true false
  | _ => exact .quiet _

lemma mapAwait_quiet {t : Task} (ht : ∀ i, t ≠ .call i) (f : Await → Await) :
    (w.mapAwait f t).view = w.view := by
  cases t with
  | call i => exact absurd rfl (ht i)
  | _ => rfl

lemma abandon_step {t : Task} (ht : ∀ i, t ≠ .call i) :
    ViewStep cfg false w.view (w.abandon cfg t).view := by
  obtain h | ⟨cmd, a, hf, -, h⟩ := abandon_cases cfg w t <;> rw [h]
  · exact .quiet _
  · exact .leaveWrite w.view cmd (flight_writes cfg w ht hf)

lemma resume_quiet {t : Task} {ok : Bool} (ht : ∀ i, t ≠ .call i) (h : w.resume cfg ok t = some w') :
    w'.view = w.view := by
  cases t with
  | boot =>
    obtain rfl := Option.some.inj h
    simp
  | beat b =>
    obtain rfl := Option.some.inj h
    simp
  | monitor => cases h
  | call i => exact absurd rfl (ht i)

lemma cancelled_quiet {t : Task} (ht : ∀ i, t ≠ .call i) (h : w.cancelled t = some w') :
    w'.view = w.view := by
  cases cancelled_unwound h with
  | call i => exact absurd rfl (ht i)
  | _ => rfl

section CallSteps

variable {i : ℕ} {c : Call}

lemma flight_call {f : Command × Await} (h : w.flight cfg (.call i) = some f) :
    ∃ c, w.calls[i]? = some c ∧ c.pc.flight cfg = some f :=
  Option.bind_eq_some_iff.mp h

lemma setCall_view (hc : w.calls[i]? = some c) (pc : CallPc) :
    (w.setCall i pc).view = { w.view with calls := w.view.calls.set i { c with pc := pc } } :=
  modifyCall_view w hc _

lemma closeRedis_view (hc : w.calls[i]? = some c) : ∃ pc, (pc = .closing ∨ pc = .returned) ∧
    (w.closeRedis i).view = { w.view with calls := w.view.calls.set i { c with pc := pc } } := by
  rw [closeRedis]
  cases w.redis with
  | none => exact ⟨.returned, Or.inr rfl, setCall_view hc .returned⟩
  | some k =>
    have hc' : (w.closeClient k).calls[i]? = some c := hc
    exact ⟨.closing, Or.inl rfl, setCall_view hc' .closing⟩

lemma move_step (hc : w.calls[i]? = some c) {lossy : Bool} {pc : CallPc}
    (hm : PcMove cfg c.reason lossy c.pc pc []) :
    ViewStep cfg lossy w.view { w.view with calls := w.view.calls.set i { c with pc := pc } } := by
  have h := ViewStep.move w.view i c lossy c.cancelRequested pc [] hc hm
  rwa [List.append_nil] at h

lemma resumeCall_step (hc : w.calls[i]? = some c) {cmd : Command} {a : Await}
    (hf : c.pc.flight cfg = some (cmd, a)) (ha : a.phase = .answered)
    (h : w.resumeCall i c = some w') : ViewStep cfg false w.view w'.view := by
  rw [resumeCall] at h
  cases hpc : c.pc with
  | publishing m b =>
    simp only [hpc, CallPc.flight, Option.some.injEq, Prod.mk.injEq] at hf h
    obtain ⟨-, rfl⟩ := hf
    split_ifs at h with hr
    · obtain rfl := Option.some.inj h
      rw [setCall_view hc]
      exact move_step hc (hpc ▸ .paused ha hr)
    · obtain rfl := Option.some.inj h
      have hg : w.getRedis.calls[i]? = some c := by
        have hv : w.getRedis.calls = w.calls := congrArg View.calls (view_getRedis w)
        rw [hv, hc]
      rw [setCall_view hg, view_getRedis]
      exact move_step hc (hpc ▸ .signalled w.client ha hr)
  | deleting b =>
    simp only [hpc, CallPc.flight, Option.some.injEq, Prod.mk.injEq] at hf h
    obtain ⟨-, rfl⟩ := hf
    obtain rfl := h
    rw [setCall_view hc]
    exact move_step hc (hpc ▸ .deleted ha)
  | removing b =>
    simp only [hpc, CallPc.flight, Option.some.injEq, Prod.mk.injEq] at hf h
    obtain ⟨-, rfl⟩ := hf
    obtain rfl := h
    obtain ⟨pc, hpc', hv⟩ := closeRedis_view hc
    rw [hv]
    exact move_step hc (hpc ▸ .removed ha hpc')
  | _ => simp [hpc, CallPc.flight] at hf

lemma abandon_view (hc : w.calls[i]? = some c) :
    (w.abandon cfg (.call i)).view = { w.view with orphans := w.view.orphans ++ c.pc.wire cfg } := by
  have hf : w.flight cfg (.call i) = c.pc.flight cfg := by simp [flight, hc]
  rw [abandon, CallPc.wire, hf]
  cases c.pc.flight cfg with
  | none => simp [view]
  | some f =>
    simp only
    split_ifs <;> simp [view]

lemma abandon_calls (hc : w.calls[i]? = some c) : (w.abandon cfg (.call i)).calls[i]? = some c :=
  (congrArg (fun v : View => v.calls[i]?) (abandon_view hc)).trans hc

lemma leave_step (hc : w.calls[i]? = some c) {lossy : Bool} {pc : CallPc}
    (hm : PcMove cfg c.reason lossy c.pc pc (c.pc.wire cfg))
    (hv : w'.view = { (w.abandon cfg (.call i)).view with
      calls := (w.abandon cfg (.call i)).view.calls.set i { c with pc := pc } }) :
    ViewStep cfg lossy w.view w'.view := by
  rw [hv, abandon_view hc]
  exact .move w.view i c lossy c.cancelRequested pc _ hc hm

lemma failCall_step (hc : w.calls[i]? = some c) {f : Command × Await}
    (hf : c.pc.flight cfg = some f) (h : (w.abandon cfg (.call i)).failCall i c = some w') :
    ViewStep cfg c.pc.signalPending w.view w'.view := by
  have hcalls := @abandon_calls cfg _ _ _ hc
  rw [failCall] at h
  cases hpc : c.pc with
  | publishing m b =>
    simp only [hpc] at h
    obtain rfl := Option.some.inj h
    refine leave_step hc ?_ (setCall_view hcalls .raised)
    rw [hpc]
    exact .raised m b
  | deleting b =>
    simp only [hpc] at h
    obtain rfl := Option.some.inj h
    obtain ⟨pc, hpc', hv⟩ := closeRedis_view hcalls
    refine leave_step hc ?_ hv
    rw [hpc]
    exact .skipped (Or.inl ⟨b, rfl⟩) hpc'
  | removing b =>
    simp only [hpc] at h
    obtain rfl := Option.some.inj h
    obtain ⟨pc, hpc', hv⟩ := closeRedis_view hcalls
    refine leave_step hc ?_ hv
    rw [hpc]
    exact .skipped (Or.inr ⟨b, rfl⟩) hpc'
  | _ => simp [hpc, CallPc.flight] at hf

lemma cancelledCall_step (hc : w.calls[i]? = some c)
    (h : (w.abandon cfg (.call i)).cancelled (.call i) = some w') :
    ViewStep cfg c.pc.signalPending w.view w'.view := by
  have hcalls := @abandon_calls cfg _ _ _ hc
  cases cancelled_unwound h with
  | call => exact leave_step hc (.cancelled c.pc) (setCall_view hcalls .cancelled)

lemma stay_step (hc : w.calls[i]? = some c) {cmd : Command} {a : Await} (f : Await → Await)
    (hf : c.pc.flight cfg = some (cmd, a))
    (hphase : ((f a).phase = .waiting ∨ (f a).phase = .sent) ↔ (a.phase = .waiting ∨ a.phase = .sent)) :
    ViewStep cfg false w.view (w.mapAwait f (.call i)).view := by
  rw [mapAwait, modifyCall_view w hc]
  refine move_step hc (.stay c.pc f ?_ ?_)
  · cases hpc : c.pc <;> simp_all [CallPc.pending, CallPc.mapAwait, CallPc.flight]
  · cases hpc : c.pc <;> simp_all [CallPc.signalPending, CallPc.mapAwait, CallPc.flight]
    rw [← Bool.decide_or, ← Bool.decide_or]
    exact decide_eq_decide.mpr hphase

end CallSteps

section TaskSteps

variable {t : Task}

lemma task_cases (t : Task) : (∃ i, t = .call i) ∨ ∀ i, t ≠ .call i := by
  cases t with
  | call i => exact Or.inl ⟨i, rfl⟩
  | _ => exact Or.inr (by simp)

lemma losesSignal_other (ht : ∀ i, t ≠ .call i) :
    w.losesSignal (.fail t) = false ∧ w.losesSignal (.cancelled t) = false := by
  cases t with
  | call i => exact absurd rfl (ht i)
  | _ => exact ⟨rfl, rfl⟩

lemma send_step {cmd : Command} {a : Await} (hf : w.flight cfg t = some (cmd, a)) (ha : a.phase = .waiting) :
    ViewStep cfg false w.view (w.send t a).view := by
  have hv : (w.send t a).view =
      (w.mapAwait (fun a => { a with epoch := w.epoch a.client, phase := .sent }) t).view :=
    rfl
  rw [hv]
  rcases task_cases t with ⟨i, rfl⟩ | ht
  · obtain ⟨c, hc, hcf⟩ := flight_call hf
    exact stay_step hc _ hcf (by simp [ha])
  · rw [mapAwait_quiet ht]
    exact .quiet _

lemma deliver_step {cmd : Command} {a : Await} (hf : w.flight cfg t = some (cmd, a))
    (ha : a.phase = .applied) : ViewStep cfg false w.view (w.setPhase t .answered).view := by
  rcases task_cases t with ⟨i, rfl⟩ | ht
  · obtain ⟨c, hc, hcf⟩ := flight_call hf
    exact stay_step hc _ hcf (by simp [ha])
  · rw [setPhase, mapAwait_quiet ht]
    exact .quiet _

lemma apply_step {cmd : Command} {a : Await} (hf : w.flight cfg t = some (cmd, a)) (ha : a.phase = .sent) :
    ViewStep cfg false w.view ((w.setPhase t .applied).record cmd).view := by
  have hv : ((w.setPhase t .applied).record cmd).view =
      { (w.setPhase t .applied).view with log := (w.setPhase t .applied).view.log ++ [cmd] } := rfl
  rw [hv]
  rcases task_cases t with ⟨i, rfl⟩ | ht
  · obtain ⟨c, hc, hcf⟩ := flight_call hf
    have hm : (w.setPhase (.call i) .applied).view = _ := modifyCall_view w hc _
    rw [hm]
    exact .apply w.view i c cmd a hc hcf ha
  · rw [setPhase, mapAwait_quiet ht]
    exact .applyWrite w.view cmd (flight_writes cfg w ht hf)

lemma resume_step {cmd : Command} {a : Await} (hf : w.flight cfg t = some (cmd, a)) (ha : a.phase = .answered)
    (h : w.resume cfg true t = some w') : ViewStep cfg false w.view w'.view := by
  rcases task_cases t with ⟨i, rfl⟩ | ht
  · obtain ⟨c, hc, hcf⟩ := flight_call hf
    simp only [resume, hc, Option.bind_some, if_true] at h
    exact resumeCall_step hc hcf ha h
  · rw [resume_quiet ht h]
    exact .quiet _

lemma fail_step {f : Command × Await} (hf : w.flight cfg t = some f)
    (h : (w.abandon cfg t).resume cfg false t = some w') :
    ViewStep cfg (w.losesSignal (.fail t)) w.view w'.view := by
  rcases task_cases t with ⟨i, rfl⟩ | ht
  · obtain ⟨c, hc, hcf⟩ := flight_call hf
    have hcalls := @abandon_calls cfg _ _ _ hc
    have hloss : w.losesSignal (.fail (.call i)) = c.pc.signalPending := by simp [losesSignal, hc]
    simp only [resume, hcalls, Option.bind_some, Bool.false_eq_true, if_false] at h
    rw [hloss]
    exact failCall_step hc hcf h
  · rw [(losesSignal_other ht).1, resume_quiet ht h]
    exact abandon_step ht

lemma requested_call {i : ℕ} (h : w.cancelRequested (.call i) = true) : ∃ c, w.calls[i]? = some c := by
  cases hc : w.calls[i]? with
  | none => simp [cancelRequested, hc] at h
  | some c => exact ⟨c, rfl⟩

lemma cancelled_step (hreq : w.cancelRequested t = true) (h : (w.abandon cfg t).cancelled t = some w') :
    ViewStep cfg (w.losesSignal (.cancelled t)) w.view w'.view := by
  rcases task_cases t with ⟨i, rfl⟩ | ht
  · obtain ⟨c, hc⟩ := requested_call hreq
    have hloss : w.losesSignal (.cancelled (.call i)) = c.pc.signalPending := by simp [losesSignal, hc]
    rw [hloss]
    exact cancelledCall_step hc h
  · rw [(losesSignal_other ht).2, cancelled_quiet ht h]
    exact abandon_step ht

lemma requestCancel_step (t : Task) : ViewStep cfg false w.view (w.requestCancel t).view := by
  rcases task_cases t with ⟨i, rfl⟩ | ht
  · cases hc : w.calls[i]? with
    | none =>
      have hlen : w.calls.length ≤ i := List.getElem?_eq_none_iff.mp hc
      have hv : (w.requestCancel (.call i)).view = w.view := by
        simp [requestCancel, view, List.modify_eq_self hlen]
      rw [hv]
      exact .quiet _
    | some c =>
      have hv : (w.requestCancel (.call i)).view =
          { w.view with calls := w.view.calls.set i { c with cancelRequested := true } } := by
        simp [requestCancel, view, modify_eq_set hc]
      have hid : c.pc.mapAwait id = c.pc := by cases c.pc <;> rfl
      have hm : PcMove cfg c.reason false c.pc c.pc [] := by
        have hstay := @PcMove.stay cfg c.reason c.pc id (by rw [hid]) (by rw [hid])
        rwa [hid] at hstay
      have h := ViewStep.move w.view i c false true c.pc [] hc hm
      rw [List.append_nil] at h
      exact hv ▸ h
  · have hv : (w.requestCancel t).view = w.view := by
      cases t with
      | call i => exact absurd rfl (ht i)
      | _ => rfl
    rw [hv]
    exact .quiet _

lemma closed_step {i : ℕ} {c : Call} {pc : CallPc} (hc : w.calls[i]? = some c) (hpc : c.pc = .closing)
    (h : pc = .returned ∨ pc = .raised) : ViewStep cfg false w.view (w.setCall i pc).view := by
  rw [setCall_view hc]
  exact move_step hc (hpc ▸ .closed pc h)

end TaskSteps

theorem view_step {a : Action} (h : w.next cfg a = some w') :
    ViewStep cfg (w.losesSignal a) w.view w'.view := by
  cases next_stepped h with
  | bootRun =>
    rw [view_bootRun]
    exact .quiet _
  | executorDone ok _ _ _ h => exact executorDone_step h
  | wakeBeat b now =>
    rw [view_sendHeartbeat]
    exact .quiet _
  | idle => exact beginCall_step w.enterCallback idleReason false w.idleHandle
  | call reason exits => exact beginCall_step w reason exits false
  | send t cmd a _ hf ha => exact send_step hf ha
  | apply t cmd a hf ha => exact apply_step hf ha
  | deliver t cmd a _ hf ha => exact deliver_step hf ha
  | resume t cmd a _ _ hf ha _ h => exact resume_step hf ha h
  | fail t cmd a _ _ hf _ _ h => exact fail_step hf h
  | cancel t => exact requestCancel_step t
  | cancelled t _ _ hc h => exact cancelled_step hc h
  | closed i c _ hi hpc => exact closed_step hi hpc (Or.inl rfl)
  | closeFailed i c _ hi hpc => exact closed_step hi hpc (Or.inr rfl)
  | applyOrphan k cmd hk => exact .applyOrphan w.view k cmd hk
  | dropOrphan k => exact .dropOrphan w.view k
  | _ => exact .quiet _

end Simulation

section Log

variable {t : Task}

def applied (cfg : Config) (w : World) : Action → Option Command
  | .apply t => (w.flight cfg t).bind (fun f => if f.2.phase = .sent then some f.1 else none)
  | .applyOrphan k => w.orphans[k]?
  | _ => none

/-- What Redis has and what it was told. -/
def stored (w : World) : List Command × Registry := (w.log, w.registry)

/-- The same with the commands left on the wire and the states of the heartbeat tasks. -/
def wire (w : World) : (List Command × Registry) × List Command × (BeatId → BeatPc) :=
  (w.stored, w.orphans, fun b => (w.beat b).pc)

lemma stored_of_wire (h : w'.wire = w.wire) : w'.stored = w.stored := congrArg Prod.fst h

lemma wire_getRedis (w : World) : w.getRedis.wire = w.wire := by
  rw [getRedis]
  split <;> rfl

lemma wire_requestCancel (w : World) (t : Task) : (w.requestCancel t).wire = w.wire := by
  cases t with
  | beat b =>
    have hpcs : (fun d => ((w.requestCancel (.beat b)).beat d).pc) = fun d => (w.beat d).pc := by
      funext d
      by_cases hd : d = b
      · subst hd
        simp [requestCancel]
      · simp [requestCancel, hd]
    exact congrArg (fun pcs => (w.stored, w.orphans, pcs)) hpcs
  | _ => rfl

lemma wire_halted (w : World) : w.halted.wire = w.wire := by
  have hbeat (u : World) : u.stopHeartbeat.wire = u.wire := by
    rw [stopHeartbeat]
    split_ifs
    · exact wire_requestCancel u (.beat .loop)
    · rfl
  have hidle (u : World) : u.stopIdleTimeout.wire = u.wire := by
    rw [stopIdleTimeout]
    split <;> rfl
  exact (hidle _).trans (hbeat _)

lemma wire_beginCall (w : World) (reason : PyStr) (exits cancelled : Bool) :
    (w.beginCall cfg reason exits cancelled).wire = w.wire := by
  cases hs : w.signaled with
  | true =>
    rw [beginCall, if_pos hs]
    cases w.redis <;> rfl
  | false =>
    cases he : cfg.isHeartbeatEnabled with
    | true =>
      rw [beginCall_first he hs]
      exact (wire_getRedis _).trans (wire_halted w)
    | false =>
      rw [beginCall, if_neg (by simp [hs]), if_neg (by simp [he])]
      exact wire_halted w

lemma wire_closeRedis (w : World) (i : ℕ) : (w.closeRedis i).wire = w.wire := by
  rw [closeRedis]
  cases w.redis <;> rfl

lemma wire_resumeCall {i : ℕ} {c : Call} (h : w.resumeCall i c = some w') : w'.wire = w.wire := by
  rw [resumeCall.eq_def] at h
  split at h
  · split_ifs at h
    · obtain rfl := Option.some.inj h
      rfl
    · obtain rfl := Option.some.inj h
      exact wire_getRedis w
  · obtain rfl := Option.some.inj h
    rfl
  · obtain rfl := Option.some.inj h
    exact wire_closeRedis w i
  · cases h

lemma wire_failCall {i : ℕ} {c : Call} (h : w.failCall i c = some w') : w'.wire = w.wire := by
  rw [failCall.eq_def] at h
  split at h
  · obtain rfl := Option.some.inj h
    rfl
  · obtain rfl := Option.some.inj h
    exact wire_closeRedis w i
  · obtain rfl := Option.some.inj h
    exact wire_closeRedis w i
  · cases h

lemma wire_startIdleTimeout (w : World) : (w.startIdleTimeout cfg).wire = w.wire := by
  rw [startIdleTimeout]
  split_ifs <;> rfl

lemma wire_resume {ok : Bool} (ht : ∀ b, t ≠ .beat b) (h : w.resume cfg ok t = some w') : w'.wire = w.wire := by
  cases t with
  | boot =>
    obtain rfl := Option.some.inj h
    exact wire_startIdleTimeout w
  | beat b => exact absurd rfl (ht b)
  | monitor => cases h
  | call i =>
    obtain ⟨c, -, h⟩ := Option.bind_eq_some_iff.mp h
    split_ifs at h
    · exact wire_resumeCall h
    · exact wire_failCall h

lemma wire_executorDone {ok : Bool} (h : w.executorDone cfg ok = some w') : w'.wire = w.wire := by
  cases executorDone_loaded h with
  | started => exact wire_getRedis w
  | failing => exact @wire_beginCall cfg w (lit "unhealthy") true false
  | _ => rfl

lemma stored_mapAwait (w : World) (f : Await → Await) (t : Task) : (w.mapAwait f t).stored = w.stored := by
  cases t <;> rfl

lemma stored_abandon (w : World) (t : Task) : (w.abandon cfg t).stored = w.stored := by
  obtain h | ⟨cmd, a, -, -, h⟩ := abandon_cases cfg w t <;> rw [h]
  rfl

lemma stored_resume {ok : Bool} (h : w.resume cfg ok t = some w') : w'.stored = w.stored := by
  by_cases ht : ∃ b, t = .beat b
  · obtain ⟨b, rfl⟩ := ht
    obtain rfl := Option.some.inj h
    rfl
  · exact stored_of_wire (wire_resume (fun b hb => ht ⟨b, hb⟩) h)

lemma stored_cancelled (h : w.cancelled t = some w') : w'.stored = w.stored := by
  cases cancelled_unwound h <;> rfl

lemma stored_bootRun (w : World) : (w.bootRun cfg).stored = w.stored := by
  rw [bootRun, startHeartbeat]
  split_ifs <;> rfl

/-- What an applied command, or else the passing of the time to live, does to what Redis has. -/
def restored (cfg : Config) (w : World) (a : Action) : List Command × Registry :=
  match w.applied cfg a, a with
  | some cmd, _ => (w.log ++ [cmd], w.registry.apply cmd)
  | none, .expire => (w.log, w.registry.expire)
  | none, _ => w.stored

theorem stored_step {a : Action} (h : w.next cfg a = some w') : w'.stored = w.restored cfg a := by
  have hget : w.getRedis.stored = w.stored := stored_of_wire (wire_getRedis w)
  cases next_stepped h with
  | bootRun => exact stored_bootRun w
  | executorDone ok _ _ _ h => exact stored_of_wire (wire_executorDone h)
  | wakeBeat b now => exact hget
  | idle => exact stored_of_wire (wire_beginCall _ _ _ _)
  | call reason exits => exact stored_of_wire (wire_beginCall _ _ _ _)
  | send t => exact stored_mapAwait w _ t
  | apply t cmd a hf ha =>
    have hs : (w.setPhase t .applied).stored = w.stored := stored_mapAwait w _ t
    obtain ⟨hlog, hregistry⟩ := Prod.mk.inj hs
    simp [stored, restored, applied, hf, ha, record, hlog, hregistry]
  | deliver t => exact stored_mapAwait w _ t
  | resume t _ _ _ _ _ _ _ h => exact stored_resume h
  | fail t _ _ _ _ _ _ _ h => exact (stored_resume h).trans (stored_abandon w t)
  | cancel t => exact stored_of_wire (wire_requestCancel w t)
  | cancelled t _ _ _ h => exact (stored_cancelled h).trans (stored_abandon w t)
  | applyOrphan k cmd hk => simp [stored, restored, applied, hk, record]
  | _ => rfl

lemma restored_cases (cfg : Config) (w : World) (a : Action) :
    (∃ cmd, w.applied cfg a = some cmd ∧ w.restored cfg a = (w.log ++ [cmd], w.registry.apply cmd)) ∨
      (a = .expire ∧ w.restored cfg a = (w.log, w.registry.expire)) ∨
      w.applied cfg a = none ∧ w.restored cfg a = w.stored := by
  rw [restored.eq_def]
  cases h : w.applied cfg a with
  | some cmd => exact Or.inl ⟨cmd, rfl, rfl⟩
  | none =>
    by_cases ha : a = .expire
    · subst ha
      exact Or.inr (Or.inl ⟨rfl, rfl⟩)
    · refine Or.inr (Or.inr ⟨rfl, ?_⟩)
      cases a <;> first | rfl | exact absurd rfl ha

lemma log_getRedis (w : World) : w.getRedis.log = w.log := congrArg Prod.fst (stored_of_wire (wire_getRedis w))

lemma log_mapAwait (w : World) (f : Await → Await) (t : Task) : (w.mapAwait f t).log = w.log :=
  congrArg Prod.fst (stored_mapAwait w f t)

theorem log_step {a : Action} (h : w.next cfg a = some w') :
    w'.log = w.log ++ (w.applied cfg a).toList := by
  have hlog : w'.log = (w.restored cfg a).1 := congrArg Prod.fst (stored_step h)
  rw [hlog, restored.eq_def]
  split <;> simp_all [stored]

end Log

end World

end GemmaWorker.Heartbeat
