import GemmaWorker.Heartbeat.Protocol

/-! At most one termination message, with the reason of the first call. -/

namespace GemmaWorker.Heartbeat

open Python World Library

section Invariant

variable {cfg : Config}

def Allowed (cfg : Config) (reason : PyStr) (cmd : Command) : Prop :=
  cmd.writes = true ∨
    (∃ m, terminationMessage cfg reason = .ok m ∧ cmd = .publish cfg.terminateChannel m) ∨
    (cmd.deregisters = true ∧ reason ≠ idleReason)

def signalCount (cmds : List Command) : ℕ := cmds.countP Command.signals

structure FirstCall (cfg : Config) (v : View) (first : Call) (later : List Call) : Prop where
  calls : v.calls = first :: later
  signaled : v.signaled = true
  later_closed : ∀ c ∈ later, c.pc.closed = true
  once : signalCount v.log + signalCount v.orphans + (if first.pc.signalPending then 1 else 0) ≤ 1
  flight : ∀ cmd a, first.pc.flight cfg = some (cmd, a) → Allowed cfg first.reason cmd
  log : ∀ cmd ∈ v.log, Allowed cfg first.reason cmd
  orphans : ∀ cmd ∈ v.orphans, Allowed cfg first.reason cmd

structure NoCall (v : View) : Prop where
  calls : v.calls = []
  signaled : v.signaled = false
  log : ∀ cmd ∈ v.log, cmd.writes = true
  orphans : ∀ cmd ∈ v.orphans, cmd.writes = true

def OneSignal (cfg : Config) (v : View) : Prop :=
  NoCall v ∨ ∃ first later, FirstCall cfg v first later

lemma writes_not_signals {cmd : Command} (h : cmd.writes = true) : cmd.signals = false := by
  cases cmd <;> simp_all [Command.writes, Command.signals]

lemma signalCount_writes {cmds : List Command} (h : ∀ cmd ∈ cmds, cmd.writes = true) :
    signalCount cmds = 0 := by
  refine List.countP_eq_zero.mpr fun cmd hcmd => ?_
  simp [writes_not_signals (h cmd hcmd)]

lemma closed_flight {pc : CallPc} (h : pc.closed = true) : pc.flight cfg = none := by
  cases pc <;> simp_all [CallPc.closed, CallPc.flight]

lemma flight_open {pc : CallPc} {cmd : Command} {a : Await} (h : pc.flight cfg = some (cmd, a)) :
    pc.closed = false := by
  by_contra hpc
  rw [closed_flight (by simpa using hpc)] at h
  cases h

lemma signalPending_open {pc : CallPc} (h : pc.signalPending = true) : pc.closed = false := by
  cases pc <;> simp_all [CallPc.closed, CallPc.signalPending]

lemma closed_mapAwait {pc : CallPc} (h : pc.closed = true) (f : Await → Await) : pc.mapAwait f = pc := by
  cases pc <;> simp_all [CallPc.closed, CallPc.mapAwait]

end Invariant

section Moves

variable {cfg : Config} {reason : PyStr} {lossy : Bool} {pc pc' : CallPc} {lost : List Command}

lemma PcMove.of_closed (h : PcMove cfg reason lossy pc pc' lost) (hpc : pc.closed = true) :
    pc'.closed = true ∧ lost = [] := by
  have hflight := @closed_flight cfg _ hpc
  cases h with
  | stay pc f => exact ⟨by rwa [closed_mapAwait hpc], rfl⟩
  | cancelled pc => exact ⟨rfl, by simp [CallPc.wire, hflight]⟩
  | closed pc h => rcases h with rfl | rfl <;> exact ⟨rfl, rfl⟩
  | skipped h => rcases h with ⟨a, rfl⟩ | ⟨a, rfl⟩ <;> cases hpc
  | _ => cases hpc

lemma signalCount_wire : signalCount (pc.wire cfg) ≤ if pc.signalPending then 1 else 0 := by
  cases pc with
  | publishing m a =>
    simp only [CallPc.wire, CallPc.flight, CallPc.signalPending, signalCount]
    split_ifs <;> simp_all [Command.signals]
  | _ => simp +contextual [CallPc.wire, CallPc.flight, CallPc.signalPending, signalCount, Command.signals]

lemma PcMove.once (h : PcMove cfg reason lossy pc pc' lost) :
    signalCount lost + (if pc'.signalPending then 1 else 0) ≤ if pc.signalPending then 1 else 0 := by
  have hwire := @signalCount_wire cfg pc
  cases h with
  | stay pc f _ hs => simp [signalCount, hs]
  | skipped h hpc => rcases hpc with rfl | rfl <;> simpa [CallPc.signalPending] using hwire
  | raised m a => simpa [CallPc.signalPending] using hwire
  | cancelled pc => simpa [CallPc.signalPending] using hwire
  | removed ha hpc => rcases hpc with rfl | rfl <;> simp [signalCount, CallPc.signalPending]
  | closed pc hpc => rcases hpc with rfl | rfl <;> simp [signalCount, CallPc.signalPending]
  | _ => simp [signalCount, CallPc.signalPending]

lemma flight_mapAwait {f : Await → Await} {cmd : Command} {a : Await}
    (h : (pc.mapAwait f).flight cfg = some (cmd, a)) : ∃ b, pc.flight cfg = some (cmd, b) := by
  cases pc <;> simp_all [CallPc.mapAwait, CallPc.flight]

lemma PcMove.flight (h : PcMove cfg reason lossy pc pc' lost)
    (hpc : ∀ cmd a, pc.flight cfg = some (cmd, a) → Allowed cfg reason cmd) :
    (∀ cmd a, pc'.flight cfg = some (cmd, a) → Allowed cfg reason cmd) ∧
      ∀ cmd ∈ lost, Allowed cfg reason cmd := by
  have hwire : ∀ cmd ∈ pc.wire cfg, Allowed cfg reason cmd := by
    intro cmd hcmd
    rw [CallPc.wire] at hcmd
    split at hcmd
    · rename_i cmd' a hf
      split_ifs at hcmd
      · exact List.mem_singleton.mp hcmd ▸ hpc cmd' a hf
      · cases hcmd
    · cases hcmd
  have hderegister {cmd : Command} (hd : cmd.deregisters = true) (hr : reason ≠ idleReason) :
      Allowed cfg reason cmd := Or.inr (Or.inr ⟨hd, hr⟩)
  cases h with
  | stay pc f =>
    refine ⟨fun cmd a hf => ?_, by simp⟩
    obtain ⟨b, hb⟩ := flight_mapAwait hf
    exact hpc cmd b hb
  | paused => exact ⟨by simp [CallPc.flight], by simp⟩
  | signalled k ha hr =>
    refine ⟨fun cmd a hf => ?_, by simp⟩
    obtain ⟨rfl, -⟩ : Command.delete = cmd ∧ _ := by simpa [CallPc.flight] using hf
    exact hderegister rfl hr
  | @deleted a ha =>
    refine ⟨fun cmd b hf => ?_, by simp⟩
    obtain ⟨rfl, -⟩ : Command.srem = cmd ∧ _ := by simpa [CallPc.flight] using hf
    have hdelete := hpc .delete a rfl
    simpa [Allowed, Command.writes, Command.deregisters] using hdelete
  | removed ha hpc' => rcases hpc' with rfl | rfl <;> exact ⟨by simp [CallPc.flight], by simp⟩
  | skipped h hpc' => rcases hpc' with rfl | rfl <;> exact ⟨by simp [CallPc.flight], hwire⟩
  | raised => exact ⟨by simp [CallPc.flight], hwire⟩
  | cancelled => exact ⟨by simp [CallPc.flight], hwire⟩
  | closed pc hpc' => rcases hpc' with rfl | rfl <;> exact ⟨by simp [CallPc.flight], by simp⟩

end Moves

section Steps

variable {cfg : Config} {v v' : View} {lossy : Bool} {first : Call} {later : List Call}

lemma signalCount_append (xs ys : List Command) :
    signalCount (xs ++ ys) = signalCount xs + signalCount ys :=
  List.countP_append

lemma signalCount_eraseIdx {cmds : List Command} {k : ℕ} {cmd : Command} (h : cmds[k]? = some cmd) :
    signalCount cmds = signalCount (cmds.eraseIdx k) + signalCount [cmd] := by
  obtain ⟨hk, rfl⟩ := List.getElem?_eq_some_iff.mp h
  have hperm := (List.getElem_cons_eraseIdx_perm hk).countP_eq Command.signals
  rw [signalCount, ← hperm, ← List.singleton_append, List.countP_append, Nat.add_comm]
  rfl

lemma FirstCall.move {i : ℕ} {c : Call} {pc : CallPc} {cancelled : Bool} {lost : List Command}
    (h : FirstCall cfg v first later) (hc : v.calls[i]? = some c)
    (hm : PcMove cfg c.reason lossy c.pc pc lost) : OneSignal cfg
      { v with
        calls := v.calls.set i { c with pc := pc, cancelRequested := cancelled }
        orphans := v.orphans ++ lost } := by
  rw [h.calls] at hc
  refine Or.inr ?_
  cases i with
  | zero =>
    obtain rfl := Option.some.inj hc
    have honce := hm.once
    have hsum := h.once
    have hflight := hm.flight h.flight
    refine ⟨{ first with pc := pc, cancelRequested := cancelled }, later,
      ⟨by simp [h.calls], h.signaled, h.later_closed, ?_, hflight.1, h.log, ?_⟩⟩
    · change signalCount v.log + signalCount (v.orphans ++ lost) + (if pc.signalPending then 1 else 0) ≤ 1
      rw [signalCount_append]
      omega
    · intro cmd hcmd
      rcases List.mem_append.mp hcmd with hcmd | hcmd
      · exact h.orphans cmd hcmd
      · exact hflight.2 cmd hcmd
  | succ i =>
    have hmem : c ∈ later := List.mem_of_getElem? hc
    obtain ⟨hclosed, rfl⟩ := hm.of_closed (h.later_closed c hmem)
    refine ⟨first, later.set i { c with pc := pc, cancelRequested := cancelled },
      ⟨by simp [h.calls], h.signaled, ?_, ?_, h.flight, h.log, ?_⟩⟩
    · intro d hd
      rcases List.mem_or_eq_of_mem_set hd with hd | rfl
      · exact h.later_closed d hd
      · exact hclosed
    · simpa using h.once
    · simpa using h.orphans

lemma FirstCall.is_first {i : ℕ} {c : Call} (h : FirstCall cfg v first later) (hc : v.calls[i]? = some c)
    (hopen : c.pc.closed = false) : i = 0 ∧ first = c := by
  rw [h.calls] at hc
  cases i with
  | zero => exact ⟨rfl, Option.some.inj hc⟩
  | succ i =>
    have hclosed := h.later_closed c (List.mem_of_getElem? hc)
    rw [hclosed] at hopen
    cases hopen

lemma FirstCall.apply {i : ℕ} {c : Call} {cmd : Command} {a : Await}
    (h : FirstCall cfg v first later) (hc : v.calls[i]? = some c)
    (hf : c.pc.flight cfg = some (cmd, a)) (ha : a.phase = .sent) : OneSignal cfg
      { v with
        calls := v.calls.set i { c with pc := c.pc.mapAwait (fun a => { a with phase := .applied }) }
        log := v.log ++ [cmd] } := by
  obtain ⟨rfl, rfl⟩ := h.is_first hc (flight_open hf)
  have hcmd := h.flight cmd a hf
  have hpending : signalCount [cmd] + (if (first.pc.mapAwait fun a => { a with phase := .applied }).signalPending
      then 1 else 0) ≤ if first.pc.signalPending then 1 else 0 := by
    cases hpc : first.pc <;>
      simp_all [CallPc.mapAwait, CallPc.signalPending, CallPc.flight, signalCount] <;>
      obtain ⟨rfl, -⟩ := hf <;> simp [Command.signals]
  have honce := h.once
  refine Or.inr ⟨{ first with pc := first.pc.mapAwait fun a => { a with phase := .applied } }, later,
    ⟨by rw [h.calls]; rfl, h.signaled, h.later_closed, ?_, ?_, ?_, h.orphans⟩⟩
  · change signalCount (v.log ++ [cmd]) + signalCount v.orphans +
      (if (first.pc.mapAwait fun a => { a with phase := .applied }).signalPending then 1 else 0) ≤ 1
    rw [signalCount_append]
    omega
  · intro cmd' b hb
    obtain ⟨b', hb'⟩ := flight_mapAwait hb
    exact h.flight cmd' b' hb'
  · intro cmd' hcmd'
    rcases List.mem_append.mp hcmd' with hcmd' | hcmd'
    · exact h.log cmd' hcmd'
    · exact List.mem_singleton.mp hcmd' ▸ hcmd

lemma OneSignal.commands {orphans log : List Command} (h : OneSignal cfg v)
    (hmem : ∀ cmd, cmd ∈ orphans ∨ cmd ∈ log → cmd.writes = true ∨ cmd ∈ v.orphans ∨ cmd ∈ v.log)
    (hcount : signalCount log + signalCount orphans ≤ signalCount v.log + signalCount v.orphans) :
    OneSignal cfg { v with orphans := orphans, log := log } := by
  rcases h with h | ⟨first, later, h⟩
  · have hwrites : ∀ cmd, cmd ∈ orphans ∨ cmd ∈ log → cmd.writes = true := by
      intro cmd hcmd
      rcases hmem cmd hcmd with hw | ho | hl
      · exact hw
      · exact h.orphans cmd ho
      · exact h.log cmd hl
    exact Or.inl ⟨h.calls, h.signaled, fun cmd hc => hwrites cmd (Or.inr hc),
      fun cmd hc => hwrites cmd (Or.inl hc)⟩
  · have hallowed : ∀ cmd, cmd ∈ orphans ∨ cmd ∈ log → Allowed cfg first.reason cmd := by
      intro cmd hcmd
      rcases hmem cmd hcmd with hw | ho | hl
      · exact Or.inl hw
      · exact h.orphans cmd ho
      · exact h.log cmd hl
    have honce := h.once
    refine Or.inr ⟨first, later, ⟨h.calls, h.signaled, h.later_closed, ?_, h.flight,
      fun cmd hc => hallowed cmd (Or.inr hc), fun cmd hc => hallowed cmd (Or.inl hc)⟩⟩
    exact le_trans (Nat.add_le_add_right hcount _) honce

lemma FirstCall.starts {c : Call} (h : NoCall v) (hc : Starts cfg c) :
    OneSignal cfg { v with signaled := true, calls := v.calls ++ [c] } := by
  have hlog := signalCount_writes h.log
  have horphans := signalCount_writes h.orphans
  refine Or.inr ⟨c, [], ⟨by simp [h.calls], rfl, by simp, ?_, ?_, fun cmd hc => Or.inl (h.log cmd hc),
    fun cmd hc => Or.inl (h.orphans cmd hc)⟩⟩
  · change signalCount v.log + signalCount v.orphans + _ ≤ 1
    split_ifs <;> omega
  · intro cmd a hf
    rw [Starts] at hc
    split_ifs at hc
    · obtain ⟨m, k, hm, hpc⟩ := hc
      obtain ⟨rfl, -⟩ : Command.publish cfg.terminateChannel m = cmd ∧ _ := by
        simpa [hpc, CallPc.flight] using hf
      exact Or.inr (Or.inl ⟨m, hm, rfl⟩)
    · simp [hc, CallPc.flight] at hf

theorem OneSignal.step (h : OneSignal cfg v) (hs : ViewStep cfg lossy v v') : OneSignal cfg v' := by
  cases hs with
  | quiet => exact h
  | leaveWrite _ cmd hw =>
    refine h.commands ?_ ?_
    · rintro cmd' (hc | hc)
      · rcases List.mem_append.mp hc with hc | hc
        · exact Or.inr (Or.inl hc)
        · exact Or.inl (List.mem_singleton.mp hc ▸ hw)
      · exact Or.inr (Or.inr hc)
    · rw [signalCount_append, signalCount_writes (by simpa using hw : ∀ c ∈ [cmd], c.writes = true)]
      omega
  | applyWrite _ cmd hw =>
    refine h.commands ?_ ?_
    · rintro cmd' (hc | hc)
      · exact Or.inr (Or.inl hc)
      · rcases List.mem_append.mp hc with hc | hc
        · exact Or.inr (Or.inr hc)
        · exact Or.inl (List.mem_singleton.mp hc ▸ hw)
    · rw [signalCount_append, signalCount_writes (by simpa using hw : ∀ c ∈ [cmd], c.writes = true)]
      omega
  | applyOrphan _ k cmd hk =>
    have hcount := signalCount_eraseIdx hk
    refine h.commands ?_ ?_
    · rintro cmd' (hc | hc)
      · exact Or.inr (Or.inl (List.mem_of_mem_eraseIdx hc))
      · rcases List.mem_append.mp hc with hc | hc
        · exact Or.inr (Or.inr hc)
        · exact Or.inr (Or.inl (List.mem_singleton.mp hc ▸ List.mem_of_getElem? hk))
    · rw [signalCount_append]
      omega
  | dropOrphan _ k =>
    refine h.commands ?_ ?_
    · rintro cmd' (hc | hc)
      · exact Or.inr (Or.inl (List.mem_of_mem_eraseIdx hc))
      · exact Or.inr (Or.inr hc)
    · have hle : signalCount (v.orphans.eraseIdx k) ≤ signalCount v.orphans :=
        (List.eraseIdx_sublist v.orphans k).countP_le
      omega
  | first _ c hv hc =>
    rcases h with h | ⟨first, later, h⟩
    · exact FirstCall.starts h hc
    · rw [h.signaled] at hv
      cases hv
  | duplicate _ c hv hc =>
    rcases h with h | ⟨first, later, h⟩
    · rw [h.signaled] at hv
      cases hv
    · refine Or.inr ⟨first, later ++ [c],
        ⟨by simp [h.calls], h.signaled, ?_, h.once, h.flight, h.log, h.orphans⟩⟩
      intro d hd
      rcases List.mem_append.mp hd with hd | hd
      · exact h.later_closed d hd
      · rw [List.mem_singleton.mp hd]
        rcases hc with hc | hc <;> rw [hc] <;> rfl
  | apply _ i c cmd a hc hf ha =>
    rcases h with h | ⟨first, later, h⟩
    · simp [h.calls] at hc
    · exact h.apply hc hf ha
  | move _ i c _ cancelled pc lost hc hm =>
    rcases h with h | ⟨first, later, h⟩
    · simp [h.calls] at hc
    · exact h.move hc hm

end Steps

section Runs

variable {cfg : Config} {w w' : World} {as : List Action}

lemma oneSignal_run (he : (lifecycle cfg).exec (init cfg) as = some w) : OneSignal cfg w.view :=
  Machine.exec_invariant (I := fun w => OneSignal cfg w.view) he
    (Or.inl ⟨rfl, rfl, by simp [view, init], by simp [view, init]⟩)
    fun _ _ _ h hn => h.step (view_step hn)

lemma reasons_kept {v v' : View} {lossy : Bool} (h : ViewStep cfg lossy v v') :
    v.calls.map Call.reason <+: v'.calls.map Call.reason := by
  have hset {i : ℕ} {c d : Call} (hc : v.calls[i]? = some c) (hd : d.reason = c.reason) :
      v.calls.map Call.reason <+: (v.calls.set i d).map Call.reason := by
    have hi : (v.calls.map Call.reason)[i]? = some d.reason := by simp [hc, hd]
    obtain ⟨hlt, hget⟩ := List.getElem?_eq_some_iff.mp hi
    rw [List.map_set, ← hget, List.set_getElem_self]
  cases h with
  | first _ c _ _ => simp
  | duplicate _ c _ _ => simp
  | apply _ i c cmd a hc _ _ => exact hset hc rfl
  | move _ i c _ cancelled pc lost hc _ => exact hset hc rfl
  | _ => exact List.prefix_rfl

lemma first_reason {first : Call} {later : List Call} (he : (lifecycle cfg).exec w as = some w')
    (hw : w.calls = first :: later) :
    ∃ first' later', w'.calls = first' :: later' ∧ first'.reason = first.reason := by
  have hprefix : w.calls.map Call.reason <+: w'.calls.map Call.reason :=
    Machine.exec_invariant (I := fun u => w.calls.map Call.reason <+: u.calls.map Call.reason) he
      List.prefix_rfl fun _ _ _ h hn => h.trans (reasons_kept (view_step hn))
  rw [hw] at hprefix
  obtain ⟨rest, hrest⟩ := hprefix
  obtain ⟨first', later', hcalls⟩ := List.exists_cons_of_ne_nil
    (show w'.calls ≠ [] by rintro h; simp [h] at hrest)
  rw [hcalls] at hrest
  exact ⟨first', later', hcalls, (List.cons.inj hrest).1.symm⟩

lemma allowed_signals {reason : PyStr} {cmd : Command} (h : Allowed cfg reason cmd)
    (hs : cmd.signals = true) :
    ∃ m, terminationMessage cfg reason = .ok m ∧ cmd = .publish cfg.terminateChannel m := by
  rcases h with hw | hp | ⟨hd, _⟩
  · rw [writes_not_signals hw] at hs
    cases hs
  · exact hp
  · cases cmd <;> simp_all [Command.signals, Command.deregisters]

lemma allowed_idle {cmd : Command} (h : Allowed cfg idleReason cmd) : cmd.deregisters = false := by
  rcases h with hw | ⟨m, _, rfl⟩ | ⟨_, hr⟩
  · cases cmd <;> simp_all [Command.writes, Command.deregisters]
  · rfl
  · exact absurd rfl hr

/-- In every run at most one termination message is published, for the reason of the first call, and
after a pause nothing deletes the hash or removes the member. -/
theorem at_most_one_signal (he : (lifecycle cfg).exec (init cfg) as = some w) :
    (w.log.filter Command.signals).length ≤ 1 ∧
      (∀ cmd ∈ w.log, cmd.signals = true → ∃ first later m, w.calls = first :: later ∧
        terminationMessage cfg first.reason = .ok m ∧ cmd = .publish cfg.terminateChannel m) ∧
      ∀ first later, w.calls = first :: later → first.reason = idleReason →
        (∀ cmd ∈ w.log, cmd.deregisters = false) ∧
        ∀ c ∈ w.calls, ∀ cmd a, c.pc.flight cfg = some (cmd, a) → cmd.deregisters = false := by
  rw [← List.countP_eq_length_filter]
  rcases oneSignal_run he with h | ⟨first, later, h⟩
  · have hlog : ∀ cmd ∈ w.log, cmd.writes = true := h.log
    have hcalls : w.calls = [] := h.calls
    have hcount := signalCount_writes hlog
    refine ⟨by rw [signalCount] at hcount; omega, fun cmd hcmd hs => ?_, by simp [hcalls]⟩
    rw [writes_not_signals (hlog cmd hcmd)] at hs
    cases hs
  · have hcalls : w.calls = first :: later := h.calls
    have honce : signalCount w.log + signalCount w.orphans + _ ≤ 1 := h.once
    refine ⟨by rw [signalCount] at honce; omega, fun cmd hcmd hs => ?_, ?_⟩
    · obtain ⟨m, hm, hcmd⟩ := allowed_signals (h.log cmd hcmd) hs
      exact ⟨first, later, m, hcalls, hm, hcmd⟩
    · rintro first' later' hcalls' hr
      obtain ⟨rfl, rfl⟩ := List.cons.inj (hcalls.symm.trans hcalls')
      refine ⟨fun cmd hcmd => allowed_idle (hr ▸ h.log cmd hcmd), ?_⟩
      intro c hc cmd a hf
      rw [hcalls] at hc
      rcases List.mem_cons.mp hc with rfl | hc
      · exact allowed_idle (hr ▸ h.flight cmd a hf)
      · rw [closed_flight (h.later_closed c hc)] at hf
        cases hf

def pauseThenTerm : List Action :=
  [.call idleReason false, .send (.call 0), .apply (.call 0), .deliver (.call 0), .resume (.call 0),
    .call (lit "shutdown") false, .closed 1]

theorem pauseThenTerm_signals_once : ∃ w,
    (lifecycle .sample).exec (init .sample) pauseThenTerm = some w ∧
      (w.log.filter Command.signals).length ≤ 1 := by
  have hrun : ((lifecycle .sample).exec (init .sample) pauseThenTerm).isSome = true := by
    decide +kernel
  obtain ⟨w, he⟩ := Option.isSome_iff_exists.mp hrun
  exact ⟨w, he, (at_most_one_signal he).1⟩

end Runs

end GemmaWorker.Heartbeat
