import GemmaWorker.Heartbeat.Duplicate

/-! A call of `graceful_shutdown` that is followed to its end, for every way in which Redis answers. -/

namespace GemmaWorker.Heartbeat

open Python World Library

section Driver

structure Outcomes where
  publish : Bool
  delete : Bool
  srem : Bool
  close : Bool
deriving DecidableEq

def Outcomes.succeeds (out : Outcomes) : CallPc → Bool
  | .publishing _ _ => out.publish
  | .deleting _ => out.delete
  | .removing _ => out.srem
  | _ => out.close

def awaitAction (t : Task) : Phase → Action
  | .waiting => .send t
  | .sent => .apply t
  | .applied => .deliver t
  | .answered => .resume t

variable (cfg : Config) (out : Outcomes) (i : ℕ)

def nextAction (pc : CallPc) : Option Action :=
  match pc.flight cfg, pc with
  | some (_, a), pc => some (if out.succeeds pc then awaitAction (.call i) a.phase else .fail (.call i))
  | none, .closing => some (if out.close then .closed i else .closeFailed i)
  | none, _ => none

def attempted (pc : CallPc) : Action → List Command
  | .resume _ | .fail _ => ((pc.flight cfg).map Prod.fst).toList
  | _ => []

/-- The steps of call `i`: the commands it has attempted and the world it leaves. -/
def drive : ℕ → World → List Command × World
  | 0, w => ([], w)
  | n + 1, w =>
    match w.calls[i]?.bind (fun c => (nextAction cfg out i c.pc).map (Prod.mk c)) with
    | none => ([], w)
    | some (c, a) =>
      match (lifecycle cfg).next w a with
      | none => ([], w)
      | some w' => (attempted cfg c.pc a ++ (drive n w').1, (drive n w').2)

end Driver

section Calls

variable (cfg : Config) (out : Outcomes)

def returns : CallPc → Bool
  | .publishing _ _ => out.publish && out.close
  | .deleting _ | .removing _ | .closing => out.close
  | .returned => true
  | _ => false

def ending (pc : CallPc) : CallPc :=
  if returns out pc then .returned else .raised

structure Driven (w : World) (i : ℕ) (c : Call) : Prop where
  call : w.calls[i]? = some c
  uncancelled : c.cancelRequested = false
  exits : c.exits = true
  reason : c.reason ≠ idleReason
  alive : c.pc ≠ .returned → w.exited = false
  finished : c.pc ≠ .cancelled
  client : (c.pc.flight cfg).isSome → w.redis.isSome
  epoch : ∀ cmd a, c.pc.flight cfg = some (cmd, a) → a.phase ≠ .waiting → a.epoch = w.epoch a.client
  failsFirst : ∀ cmd a, c.pc.flight cfg = some (cmd, a) → a.phase ≠ .waiting → out.succeeds c.pc = true

end Calls

section Steps

variable {cfg : Config} {out : Outcomes} {w w' : World} {i : ℕ} {c : Call} {cmd : Command} {a : Await}

structure Moved (w w' : World) (i : ℕ) (c : Call) (pc : CallPc) : Prop where
  calls : w'.calls = w.calls.set i { c with pc := pc }
  boot : w'.boot = w.boot

lemma exited_of_moved (hm : Moved w w' i c pc) (hx : w.exited = false)
    (hpc : pc ≠ .returned) : w'.exited = false := by
  obtain ⟨hboot, hcalls⟩ := Bool.or_eq_false_iff.mp (show (_ || w.calls.any Call.hasExited) = false from hx)
  have hnone : w'.calls.any Call.hasExited = false := by
    rw [hm.calls, List.any_eq_false]
    intro d hd
    obtain hd | rfl := List.mem_or_eq_of_mem_set hd
    · exact List.any_eq_false.mp hcalls d hd
    · cases pc <;> simp_all [Call.hasExited]
  rw [World.exited, hm.boot, hnone, Bool.or_false]
  exact hboot

lemma Driven.flight (h : Driven cfg out w i c) (hf : c.pc.flight cfg = some (cmd, a)) :
    w.flight cfg (.call i) = some (cmd, a) ∧ w.cancelRequested (.call i) = false := by
  simp [World.flight, World.cancelRequested, h.call, hf, h.uncancelled]

def signalsLeft : CallPc → ℕ
  | .publishing _ _ => 1
  | _ => 0

structure Progress (cfg : Config) (out : Outcomes) (w : World) (i : ℕ) (c : Call) (b : Action) (w' : World)
    (pc : CallPc) : Prop where
  action : nextAction cfg out i c.pc = some b
  next : w.next cfg b = some w'
  moved : Moved w w' i c pc
  driven : Driven cfg out w' i { c with pc := pc }
  rank : pc.rank < c.pc.rank
  bound : returns out pc = returns out c.pc
  attempts : ((attempted cfg c.pc b).filter Command.signals).length + signalsLeft pc ≤ signalsLeft c.pc

lemma pc_flight_mapAwait (pc : CallPc) (f : Await → Await) :
    (pc.mapAwait f).flight cfg = (pc.flight cfg).map (fun x => (x.1, f x.2)) := by
  cases pc <;> rfl

lemma Driven.moved_call (h : Driven cfg out w i c) (hm : Moved w w' i c pc) :
    w'.calls[i]? = some { c with pc := pc } := by
  have hlt : i < w.calls.length := (List.getElem?_eq_some_iff.mp h.call).1
  rw [hm.calls, List.getElem?_set_self hlt]

lemma Driven.await (h : Driven cfg out w i c) {b : Action} (hf : c.pc.flight cfg = some (cmd, a))
    (hs : out.succeeds c.pc = true) (hb : b = awaitAction (.call i) a.phase) (hn : w.next cfg b = some w')
    (f : Await → Await) (hm : Moved w w' i c (c.pc.mapAwait f)) (hr : w'.redis = w.redis)
    (hlt : (f a).phase.rank < a.phase.rank) (hnone : attempted cfg c.pc b = [])
    (he : (f a).phase ≠ .waiting → (f a).epoch = w'.epoch (f a).client) :
    Progress cfg out w i c b w' (c.pc.mapAwait f) := by
  have hflight : (c.pc.mapAwait f).flight cfg = some (cmd, f a) := by rw [pc_flight_mapAwait, hf]; rfl
  have hpc : c.pc ≠ .returned := by
    intro hpc
    simp [hpc, CallPc.flight] at hf
  have hsame : returns out (c.pc.mapAwait f) = returns out c.pc ∧
      out.succeeds (c.pc.mapAwait f) = out.succeeds c.pc ∧
      signalsLeft (c.pc.mapAwait f) = signalsLeft c.pc := by
    cases c.pc <;> exact ⟨rfl, rfl, rfl⟩
  have hrank : (c.pc.mapAwait f).rank < c.pc.rank := by
    cases hcpc : c.pc <;> simp [hcpc, CallPc.flight] at hf
    all_goals
      obtain ⟨-, rfl⟩ := hf
      simpa [CallPc.mapAwait, CallPc.rank] using hlt
  have hending : c.pc.mapAwait f ≠ .returned ∧ c.pc.mapAwait f ≠ .cancelled := by
    cases hcpc : c.pc <;> simp [hcpc, CallPc.flight] at hf <;> simp [CallPc.mapAwait]
  refine ⟨?_, hn, hm, ⟨h.moved_call hm, h.uncancelled, h.exits, h.reason, fun _ => ?_, hending.2, fun _ => ?_,
    fun cmd' a' hf' hp => ?_, fun _ _ _ _ => ?_⟩, hrank, hsame.1, ?_⟩
  · simp [nextAction, hf, hs, hb]
  · exact exited_of_moved hm (h.alive hpc) hending.1
  · rw [hr]
    exact h.client (by simp [hf])
  · rw [hflight] at hf'
    obtain ⟨-, rfl⟩ := Prod.mk.inj (Option.some.inj hf')
    exact he hp
  · exact hsame.2.1.trans hs
  · rw [hnone, hsame.2.2]
    simp

lemma Driven.stage (h : Driven cfg out w i c) {b : Action} {pc : CallPc} (hb : nextAction cfg out i c.pc = some b)
    (hn : w.next cfg b = some w') (hm : Moved w w' i c pc) (hrank : pc.rank < c.pc.rank)
    (hbound : returns out pc = returns out c.pc) (hredis : (pc.flight cfg).isSome → w'.redis.isSome)
    (hwaiting : ∀ cmd a, pc.flight cfg = some (cmd, a) → a.phase = .waiting) (hpc : pc ≠ .cancelled)
    (hattempts : ((attempted cfg c.pc b).filter Command.signals).length + signalsLeft pc ≤ signalsLeft c.pc) :
    Progress cfg out w i c b w' pc := by
  have halive : c.pc ≠ .returned := by
    intro hret
    simp [hret, CallPc.rank] at hrank
  refine ⟨hb, hn, hm, ⟨h.moved_call hm, h.uncancelled, h.exits, h.reason, ?_, hpc, hredis, ?_, ?_⟩, hrank,
    hbound, hattempts⟩
  · exact fun hret => exited_of_moved hm (h.alive halive) hret
  · intro cmd a hf hp
    simp [hwaiting cmd a hf] at hp
  · intro cmd a hf hp
    exact absurd (hwaiting cmd a hf) hp

lemma Driven.next_await (h : Driven cfg out w i c) (hf : c.pc.flight cfg = some (cmd, a))
    (hs : out.succeeds c.pc = true) (ha : a.phase ≠ .answered) : ∃ b w' pc, Progress cfg out w i c b w' pc := by
  have hpc : c.pc ≠ .returned := by
    intro hpc
    simp [hpc, CallPc.flight] at hf
  have hx := h.alive hpc
  obtain ⟨hflight, hreq⟩ := h.flight hf
  have hmap (f : Await → Await) :
      (w.mapAwait f (.call i)).calls = w.calls.set i { c with pc := c.pc.mapAwait f } :=
    mapAwait_calls h.call f
  cases hp : a.phase with
  | waiting =>
    have hn : w.next cfg (.send (.call i)) = some (w.send (.call i) a) := by
      simp [next, hx, run, hflight, hp, hreq]
    exact ⟨_, _, _, h.await hf hs (by rw [hp]; rfl) hn _ ⟨hmap _, rfl⟩ rfl (by simp [hp, Phase.rank]) rfl
      fun _ => rfl⟩
  | sent =>
    have hn : w.next cfg (.apply (.call i)) = some ((w.setPhase (.call i) .applied).record cmd) := by
      simp [next, hflight, hp]
    exact ⟨_, _, _, h.await hf hs (by rw [hp]; rfl) hn _ ⟨hmap _, rfl⟩ rfl (by simp [hp, Phase.rank]) rfl
      fun _ => h.epoch cmd a hf (by simp [hp])⟩
  | applied =>
    have he := h.epoch cmd a hf (by simp [hp])
    have hn : w.next cfg (.deliver (.call i)) = some (w.setPhase (.call i) .answered) := by
      simp [next, hx, run, hflight, hp, he]
    exact ⟨_, _, _, h.await hf hs (by rw [hp]; rfl) hn _ ⟨hmap _, rfl⟩ rfl (by simp [hp, Phase.rank]) rfl
      fun _ => he⟩
  | answered => exact absurd hp ha

lemma Driven.next_close (h : Driven cfg out w i c) {b : Action} (hb : nextAction cfg out i c.pc = some b)
    (hn : w.next cfg b = some (w.closeRedis i)) (hredis : w.redis.isSome) (hrank : 1 < c.pc.rank)
    (hbound : returns out c.pc = out.close)
    (hattempts : ((attempted cfg c.pc b).filter Command.signals).length ≤ signalsLeft c.pc) :
    ∃ w' pc, Progress cfg out w i c b w' pc := by
  obtain ⟨k, hk⟩ := Option.isSome_iff_exists.mp hredis
  have hclose : w.closeRedis i = (w.closeClient k).setCall i .closing := by rw [World.closeRedis, hk]
  have hm : Moved w (w.closeRedis i) i c .closing := by
    rw [hclose]
    exact ⟨modify_eq_set h.call _, rfl⟩
  exact ⟨_, .closing, h.stage hb hn hm hrank hbound.symm (by simp [CallPc.flight]) (by simp [CallPc.flight])
    (by simp) hattempts⟩

lemma setCall_moved (h : w.calls[i]? = some c) (pc : CallPc) : Moved w (w.setCall i pc) i c pc :=
  ⟨modify_eq_set h _, rfl⟩

lemma Driven.next_answered (h : Driven cfg out w i c) (hf : c.pc.flight cfg = some (cmd, a))
    (ha : a.phase = .answered) : ∃ b w' pc, Progress cfg out w i c b w' pc := by
  have hpc : c.pc ≠ .returned := by
    intro hpc
    simp [hpc, CallPc.flight] at hf
  have hx := h.alive hpc
  have hs := h.failsFirst cmd a hf (by simp [ha])
  have hredis := h.client (by simp [hf])
  obtain ⟨hflight, hreq⟩ := h.flight hf
  have hresume : w.next cfg (.resume (.call i)) = w.resumeCall i c := by
    simp [next, hx, run, hflight, ha, hreq, World.resume, h.call]
  have hb : nextAction cfg out i c.pc = some (.resume (.call i)) := by
    simp [nextAction, hf, hs, ha, awaitAction]
  obtain ⟨k, hk⟩ := Option.isSome_iff_exists.mp hredis
  cases hc : c.pc with
  | publishing m b =>
    have hphase : b.phase = .answered := by
      rw [hc] at hf
      obtain ⟨-, rfl⟩ := Prod.mk.inj (Option.some.inj hf)
      exact ha
    have hn : w.next cfg (.resume (.call i)) = some (w.setCall i (.deleting (.start w.client))) := by
      simp [hresume, resumeCall, hc, h.reason, getRedis_of_some hk]
    have hout : out.publish = true := by simpa [hc, Outcomes.succeeds] using hs
    refine ⟨_, _, _, h.stage hb hn (setCall_moved h.call _) ?_ ?_ (fun _ => hredis) ?_ (by simp) ?_⟩
    · simp [hc, CallPc.rank, Phase.rank, hphase]
    · simp [hc, returns, hout]
    · rintro _ _ ⟨⟩
      rfl
    · rw [hc]
      exact le_refl 1
  | deleting b =>
    have hphase : b.phase = .answered := by
      rw [hc] at hf
      obtain ⟨-, rfl⟩ := Prod.mk.inj (Option.some.inj hf)
      exact ha
    have hn : w.next cfg (.resume (.call i)) = some (w.setCall i (.removing (.start b.client))) := by
      simp [hresume, resumeCall, hc]
    refine ⟨_, _, _, h.stage hb hn (setCall_moved h.call _) ?_ ?_ (fun _ => hredis) ?_ (by simp) ?_⟩
    · simp [hc, CallPc.rank, Phase.rank, hphase]
    · simp [hc, returns]
    · rintro _ _ ⟨⟩
      rfl
    · rw [hc]
      exact le_refl 0
  | removing b =>
    have hphase : b.phase = .answered := by
      rw [hc] at hf
      obtain ⟨-, rfl⟩ := Prod.mk.inj (Option.some.inj hf)
      exact ha
    have hn : w.next cfg (.resume (.call i)) = some (w.closeRedis i) := by simp [hresume, resumeCall, hc]
    refine ⟨_, h.next_close hb hn hredis ?_ ?_ ?_⟩
    · simp [hc, CallPc.rank, Phase.rank, hphase]
    · simp [hc, returns]
    · rw [hc]
      exact le_refl 0
  | _ => simp [hc, CallPc.flight] at hf

lemma Driven.next_failed (h : Driven cfg out w i c) (hf : c.pc.flight cfg = some (cmd, a))
    (hs : out.succeeds c.pc = false) : ∃ b w' pc, Progress cfg out w i c b w' pc := by
  have hpc : c.pc ≠ .returned := by
    intro hpc
    simp [hpc, CallPc.flight] at hf
  have hx := h.alive hpc
  have ha : a.phase = .waiting := by
    by_contra ha
    simp [h.failsFirst cmd a hf ha] at hs
  have hredis := h.client (by simp [hf])
  obtain ⟨hflight, hreq⟩ := h.flight hf
  have hfail : w.next cfg (.fail (.call i)) = w.failCall i c := by
    simp [next, hx, run, hflight, ha, hreq, World.resume, World.abandon, h.call]
  have hb : nextAction cfg out i c.pc = some (.fail (.call i)) := by simp [nextAction, hf, hs]
  cases hc : c.pc with
  | publishing m b =>
    have hn : w.next cfg (.fail (.call i)) = some (w.setCall i .raised) := by simp [hfail, failCall, hc]
    have hout : out.publish = false := by simpa [hc, Outcomes.succeeds] using hs
    refine ⟨_, _, _, h.stage hb hn (setCall_moved h.call _) ?_ ?_ (fun _ => hredis) ?_ (by simp) ?_⟩
    · simp [hc, CallPc.rank]
    · simp [hc, returns, hout]
    · rintro _ _ ⟨⟩
    · rw [hc]
      exact le_refl 1
  | deleting b =>
    have hn : w.next cfg (.fail (.call i)) = some (w.closeRedis i) := by simp [hfail, failCall, hc]
    refine ⟨_, h.next_close hb hn hredis ?_ ?_ ?_⟩
    · simp [hc, CallPc.rank]
      omega
    · simp [hc, returns]
    · rw [hc]
      exact le_refl 0
  | removing b =>
    have hphase : b.phase = .waiting := by
      rw [hc] at hf
      obtain ⟨-, rfl⟩ := Prod.mk.inj (Option.some.inj hf)
      exact ha
    have hn : w.next cfg (.fail (.call i)) = some (w.closeRedis i) := by simp [hfail, failCall, hc]
    refine ⟨_, h.next_close hb hn hredis ?_ ?_ ?_⟩
    · simp [hc, CallPc.rank, Phase.rank, hphase]
    · simp [hc, returns]
    · rw [hc]
      exact le_refl 0
  | _ => simp [hc, CallPc.flight] at hf

lemma Driven.next_closing (h : Driven cfg out w i c) (hc : c.pc = .closing) :
    ∃ b w' pc, Progress cfg out w i c b w' pc := by
  have hx := h.alive (by simp [hc])
  have hcall : w.calls[i]? = some ⟨c.reason, c.exits, false, .closing⟩ := by
    rw [h.call, ← h.uncancelled, ← hc]
  cases hout : out.close with
  | true =>
    have hb : nextAction cfg out i c.pc = some (.closed i) := by simp [nextAction, hc, CallPc.flight, hout]
    have hn : w.next cfg (.closed i) = some { w.setCall i .returned with redis := none } := by
      simp [next, hx, run, hcall]
    refine ⟨_, _, .returned, h.stage hb hn ⟨modify_eq_set h.call _, rfl⟩ ?_ ?_ ?_ ?_ (by simp) ?_⟩
    · simp [hc, CallPc.rank]
    · simp [hc, returns, hout]
    · simp [CallPc.flight]
    · simp [CallPc.flight]
    · simp [attempted, signalsLeft]
  | false =>
    have hb : nextAction cfg out i c.pc = some (.closeFailed i) := by simp [nextAction, hc, CallPc.flight, hout]
    have hn : w.next cfg (.closeFailed i) = some (w.setCall i .raised) := by simp [next, hx, run, hcall]
    refine ⟨_, _, .raised, h.stage hb hn (setCall_moved h.call _) ?_ ?_ ?_ ?_ (by simp) ?_⟩
    · simp [hc, CallPc.rank]
    · simp [hc, returns, hout]
    · simp [CallPc.flight]
    · simp [CallPc.flight]
    · simp [attempted, signalsLeft]

lemma Driven.progress (h : Driven cfg out w i c) (hreturned : c.pc ≠ .returned) (hraised : c.pc ≠ .raised) :
    ∃ b w' pc, Progress cfg out w i c b w' pc := by
  cases hf : c.pc.flight cfg with
  | some f =>
    cases hs : out.succeeds c.pc with
    | false => exact h.next_failed hf hs
    | true =>
      by_cases ha : f.2.phase = .answered
      · exact h.next_answered hf ha
      · exact h.next_await hf hs ha
  | none =>
    have hfinished := h.finished
    cases hc : c.pc with
    | closing => exact h.next_closing hc
    | _ => simp_all [CallPc.flight]

lemma Driven.settled (h : Driven cfg out w i c) (hc : c.pc = .returned ∨ c.pc = .raised) (n : ℕ) :
    drive cfg out i n w = ([], w) ∧ Moved w w i c (ending out c.pc) := by
  have hnone : nextAction cfg out i c.pc = none := by
    rcases hc with hc | hc <;> simp [nextAction, hc, CallPc.flight]
  have hend : ending out c.pc = c.pc := by
    rcases hc with hc | hc <;> simp [ending, hc, returns]
  refine ⟨?_, ?_, rfl⟩
  · cases n with
    | zero => rfl
    | succ n => simp [drive, h.call, hnone]
  · rw [hend]
    obtain ⟨hlt, hget⟩ := List.getElem?_eq_some_iff.mp h.call
    rw [← hget]
    exact (List.set_getElem_self hlt).symm

/-- A driven call comes to the end that it is bound for, and the others stay as they are. -/
theorem drive_settles {n : ℕ} (h : Driven cfg out w i c) (hn : c.pc.rank ≤ n) :
    Moved w (drive cfg out i n w).2 i c (ending out c.pc) ∧
      ((drive cfg out i n w).1.filter Command.signals).length ≤ signalsLeft c.pc := by
  induction n generalizing w c with
  | zero =>
    have hc : c.pc = .returned ∨ c.pc = .raised := by
      by_contra hc
      obtain ⟨_, _, _, hp⟩ := h.progress (fun hr => hc (Or.inl hr)) (fun hr => hc (Or.inr hr))
      have hlt := hp.rank
      omega
    exact ⟨(h.settled hc 0).2, Nat.zero_le _⟩
  | succ n ih =>
    by_cases hc : c.pc = .returned ∨ c.pc = .raised
    · obtain ⟨hdrive, hm⟩ := h.settled hc (n + 1)
      rw [hdrive]
      exact ⟨hm, Nat.zero_le _⟩
    · obtain ⟨b, w', pc, hp⟩ := h.progress (fun hr => hc (Or.inl hr)) (fun hr => hc (Or.inr hr))
      have hlt := hp.rank
      obtain ⟨hm, hsignals⟩ := ih hp.driven (show pc.rank ≤ n by omega)
      have hnext : (lifecycle cfg).next w b = some w' := hp.next
      have hdrive : drive cfg out i (n + 1) w =
          (attempted cfg c.pc b ++ (drive cfg out i n w').1, (drive cfg out i n w').2) := by
        simp [drive, h.call, hp.action, hnext]
      rw [hdrive]
      refine ⟨⟨?_, hm.boot.trans hp.moved.boot⟩, ?_⟩
      · rw [hm.calls, hp.moved.calls, List.set_set]
        simp [ending, hp.bound]
      · have hattempts := hp.attempts
        rw [List.filter_append, List.length_append]
        simp only at hsignals
        omega

end Steps

section Fatal

variable (cfg : Config) (out : Outcomes) (w : World)

def unhealthyReason : PyStr := lit "unhealthy"

def fatalShutdown : List Command × World :=
  drive cfg out w.calls.length 13 (w.beginCall cfg unhealthyReason true false)

/-- The shutdown was signaled and there is nothing to close or it closes; or it signals and closes now. -/
def ShutdownReturns : Prop :=
  (w.signaled = true ∧ (w.redis = none ∨ out.close = true)) ∨
    (w.signaled = false ∧ (cfg.isHeartbeatEnabled = false ∨ (out.publish = true ∧ out.close = true)))

instance : Decidable (ShutdownReturns cfg out w) :=
  inferInstanceAs (Decidable (_ ∨ _))

variable {cfg out w}

lemma driven_added {u : World} {pc : CallPc} (hcalls : u.calls = w.calls) (hboot : u.boot = w.boot)
    (hx : w.exited = false) (hpc : pc ≠ .cancelled) (hredis : (pc.flight cfg).isSome → u.redis.isSome)
    (hwaiting : ∀ cmd a, pc.flight cfg = some (cmd, a) → a.phase = .waiting) :
    Driven cfg out (u.addCall unhealthyReason true false pc) w.calls.length
    ⟨unhealthyReason, true, false, pc⟩ where
  call := by simp [addCall, hcalls]
  uncancelled := rfl
  exits := rfl
  reason := (by decide : unhealthyReason ≠ idleReason)
  alive hret := by
    obtain ⟨hboot', hcalls'⟩ := Bool.or_eq_false_iff.mp (show (_ || w.calls.any Call.hasExited) = false from hx)
    have hnone : (u.addCall unhealthyReason true false pc).calls.any Call.hasExited = false := by
      have hlast : Call.hasExited ⟨unhealthyReason, true, false, pc⟩ = false := by
        cases pc <;> simp_all [Call.hasExited]
      simp only [addCall, hcalls, List.any_append, hcalls', List.any_cons, List.any_nil,
        Bool.or_false, hlast]
    rw [World.exited, hnone, Bool.or_false]
    simpa [addCall, hboot] using hboot'
  finished := hpc
  client := hredis
  epoch cmd a hf hp := absurd (hwaiting cmd a hf) hp
  failsFirst cmd a hf hp := absurd (hwaiting cmd a hf) hp

lemma halted_boot (w : World) : w.halted.getRedis.boot = w.boot ∧ w.halted.boot = w.boot := by
  have hstop : w.halted.boot = w.boot := by
    rw [halted, stopIdleTimeout, stopHeartbeat]
    split <;> split <;> rfl
  have hredis (u : World) : u.getRedis.boot = u.boot := by
    rw [World.getRedis]
    split <;> rfl
  exact ⟨(hredis _).trans hstop, hstop⟩

lemma getRedis_isSome (w : World) : w.getRedis.redis.isSome := by
  rw [World.getRedis]
  split <;> simp_all

lemma beginCall_driven (hx : w.exited = false) : ∃ pc,
    Driven cfg out (w.beginCall cfg unhealthyReason true false) w.calls.length ⟨unhealthyReason, true, false, pc⟩ ∧
      pc.rank ≤ 13 ∧ (w.beginCall cfg unhealthyReason true false).calls =
        w.calls ++ [⟨unhealthyReason, true, false, pc⟩] ∧
      (w.beginCall cfg unhealthyReason true false).boot = w.boot ∧
      (returns out pc = true ↔ ShutdownReturns cfg out w) := by
  have hcalls : w.halted.calls = w.calls := congrArg View.calls (view_halted w)
  have hcalls' : w.halted.getRedis.calls = w.calls := (congrArg View.calls (view_getRedis _)).trans hcalls
  cases hs : w.signaled with
  | true =>
    cases hr : w.redis with
    | none =>
      have hbegin : w.beginCall cfg unhealthyReason true false =
          w.addCall unhealthyReason true false .returned := by
        simp [beginCall, hs, hr]
      rw [hbegin]
      refine ⟨.returned, driven_added rfl rfl hx (by simp) (by simp [CallPc.flight]) (by simp [CallPc.flight]),
        by simp [CallPc.rank], rfl, rfl, ?_⟩
      simp [returns, ShutdownReturns, hs, hr]
    | some k =>
      have hbegin : w.beginCall cfg unhealthyReason true false =
          (w.closeClient k).addCall unhealthyReason true false .closing := by
        simp [beginCall, hs, hr]
      rw [hbegin]
      refine ⟨.closing, driven_added rfl rfl hx (by simp) (by simp [CallPc.flight]) (by simp [CallPc.flight]),
        by simp [CallPc.rank], rfl, rfl, ?_⟩
      simp [returns, ShutdownReturns, hs, hr]
  | false =>
    cases he : cfg.isHeartbeatEnabled with
    | true =>
      rw [beginCall_first he hs]
      refine ⟨_, driven_added hcalls' (halted_boot w).1 hx (by simp) (fun _ => getRedis_isSome _) ?_, ?_, ?_,
        (halted_boot w).1, ?_⟩
      · rintro _ _ ⟨⟩
        rfl
      · simp [CallPc.rank, Phase.rank]
      · exact congrArg (· ++ [_]) hcalls'
      · simp [returns, ShutdownReturns, hs, he]
    | false =>
      have hbegin : w.beginCall cfg unhealthyReason true false =
          w.halted.addCall unhealthyReason true false .returned := by
        simp [beginCall, hs, he, halted]
      rw [hbegin]
      refine ⟨.returned, driven_added hcalls (halted_boot w).2 hx (by simp)
        (by simp [CallPc.flight]) (by simp [CallPc.flight]), by simp [CallPc.rank], ?_, (halted_boot w).2, ?_⟩
      · exact congrArg (· ++ [_]) hcalls
      · simp [returns, ShutdownReturns, hs, he]

/-- The shutdown ends the process exactly when it returns, and it signals at most once. -/
theorem fatalShutdown_exits (hx : w.exited = false) :
    ((fatalShutdown cfg out w).2.exited = true ↔ ShutdownReturns cfg out w) ∧
      ((fatalShutdown cfg out w).1.filter Command.signals).length ≤ 1 := by
  obtain ⟨pc, hdriven, hrank, hcalls, hboot, hbound⟩ := @beginCall_driven cfg out w hx
  obtain ⟨hm, hsignals⟩ := drive_settles hdriven hrank
  refine ⟨?_, hsignals.trans ?_⟩
  · obtain ⟨hboot', hcalls'⟩ := Bool.or_eq_false_iff.mp (show (_ || w.calls.any Call.hasExited) = false from hx)
    have hfinal : (fatalShutdown cfg out w).2.calls =
        w.calls ++ [⟨unhealthyReason, true, false, ending out pc⟩] := by
      rw [fatalShutdown, hm.calls, hcalls]
      simp
    have hlast : Call.hasExited ⟨unhealthyReason, true, false, ending out pc⟩ = returns out pc := by
      rw [ending]
      cases returns out pc <;> rfl
    have hexited : (fatalShutdown cfg out w).2.exited = returns out pc := by
      rw [World.exited, hfinal, List.any_append, hcalls', List.any_cons, hlast, List.any_nil, Bool.or_false,
        Bool.false_or, fatalShutdown, hm.boot, hboot, hboot', Bool.false_or]
    rw [hexited, hbound]
  · cases pc <;> simp [signalsLeft]

end Fatal

end GemmaWorker.Heartbeat
