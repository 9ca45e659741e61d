import GemmaWorker.Heartbeat.Clients
import GemmaWorker.Library.Renewal

/-! The hash of an instance lives for half a minute after a heartbeat. For which delays and failures of its
commands a worker that goes on beating keeps it alive. -/

namespace GemmaWorker.Heartbeat

open Python World Library

/-- How long a heartbeat may take, how late the loop may wake up, and how many heartbeats in a row may fail. -/
structure Delays where
  attempt : ℚ
  jitter : ℚ
  failures : ℕ
  attempt_nonneg : 0 ≤ attempt
  jitter_nonneg : 0 ≤ jitter

def Delays.pace (d : Delays) : Pace ℚ := ⟨heartbeatIntervalS, d.attempt, d.jitter, d.failures⟩

lemma Delays.sound (d : Delays) : d.pace.Sound :=
  ⟨Nat.cast_nonneg _, d.attempt_nonneg, d.jitter_nonneg⟩

/-- A worker with the time. The mark says when the loop began what it does, or else when it will wake up; then
come the heartbeats of the loop that have failed in a row, and the time of the last heartbeat that Redis has
applied since the boot task began. -/
structure Leased where
  world : World
  clock : ℚ
  mark : ℚ
  failed : ℕ
  renewal : Option ℚ

def World.loop (w : World) : BeatPc := (w.beat .loop).pc

namespace Leased

variable (cfg : Config) (d : Delays) (s : Leased)

def init : Leased := ⟨.init cfg, 0, 0, 0, none⟩

/-- The time until which the event loop may leave the loop where it is. -/
def latest : Option ℚ :=
  match s.world.loop with
  | .created | .sleeping => some (s.mark + d.jitter)
  | .beating _ _ => some (s.mark + d.attempt)
  | _ => none

/-- `asyncio.sleep` does not wake up early, and Redis keeps a key until its time to live is over. -/
def may (now : ℚ) : Action → Bool
  | .wakeBeat .loop _ => s.mark ≤ now
  | .fail (.beat .loop) => s.failed < d.failures
  | .expire => s.renewal.all (fun renewal => renewal + heartbeatTtlS ≤ now)
  | _ => true

def markAfter (now : ℚ) : Action → ℚ
  | .wakeBeat .loop _ => now
  | .resume (.beat .loop) | .fail (.beat .loop) => now + heartbeatIntervalS
  | _ => s.mark

def failedAfter : Action → ℕ
  | .resume (.beat .loop) => 0
  | .fail (.beat .loop) => s.failed + 1
  | _ => s.failed

def renewalAfter (now : ℚ) (a : Action) : Option ℚ :=
  match s.world.applied cfg a with
  | some (.heartbeat _) => some now
  | some .delete => none
  | _ => s.renewal

def after (w : World) (now : ℚ) : Action → Leased
  | .bootRun => ⟨w, now, now, 0, none⟩
  | a => ⟨w, now, s.markAfter now a, s.failedAfter a, s.renewalAfter cfg now a⟩

def next (a : Action × ℚ) : Option Leased :=
  if s.clock ≤ a.2 ∧ (s.latest d).all (a.2 ≤ ·) ∧ s.may d a.2 a.1 then
    (s.world.next cfg a.1).map fun w => s.after cfg w a.2 a.1
  else none

end Leased

def leased (cfg : Config) (d : Delays) : Machine Leased (World.Action × ℚ) := ⟨Leased.next cfg d⟩

/-- While nobody has begun a shutdown and the loop goes on, the hash that was set is there. -/
def Leased.Kept (s : Leased) : Prop :=
  s.world.signaled = false → s.world.loop.suspended = true → s.renewal.isSome → s.world.registry.entry.isSome

namespace World

variable {cfg : Config} {w w' : World} {a : Action}

/-- The task that runs, or whose command moves. -/
def task : Action → Option Task
  | .wakeBeat b _ => some (.beat b)
  | .send t | .apply t | .deliver t | .resume t | .fail t | .cancelled t => some t
  | _ => none

/-- What becomes of the heartbeat loop in a step. -/
inductive LoopStep (w : World) : Action → BeatPc → Prop
  | created (h : w.boot.pc = .created) : LoopStep w .bootRun .created
  | woken (now : ℚ) (fields : Fields) (a : Await) (h : awake w.loop = true) (ha : a.phase = .waiting) :
      LoopStep w (.wakeBeat .loop now) (.beating fields a)
  | sent (fields : Fields) (a b : Await) (h : w.loop = .beating fields a) (ha : a.phase = .waiting)
      (hb : b.phase = .sent) : LoopStep w (.send (.beat .loop)) (.beating fields b)
  | applied (fields : Fields) (a b : Await) (h : w.loop = .beating fields a) (ha : a.phase = .sent)
      (hb : b.phase = .applied) : LoopStep w (.apply (.beat .loop)) (.beating fields b)
  | delivered (fields : Fields) (a b : Await) (h : w.loop = .beating fields a) (ha : a.phase = .applied)
      (hb : b.phase = .answered) : LoopStep w (.deliver (.beat .loop)) (.beating fields b)
  | answered (fields : Fields) (a : Await) (h : w.loop = .beating fields a) (ha : a.phase = .answered) :
      LoopStep w (.resume (.beat .loop)) .sleeping
  | failed (fields : Fields) (a : Await) (h : w.loop = .beating fields a) :
      LoopStep w (.fail (.beat .loop)) .sleeping
  | ended : LoopStep w (.cancelled (.beat .loop)) .ended
  | kept (a : Action) (ha : task a ≠ some (.beat .loop)) : LoopStep w a w.loop

lemma loop_of_wire (h : w'.wire = w.wire) : w'.loop = w.loop :=
  congrFun (congrArg (fun x => x.2.2) h) .loop

lemma flight_loop {cmd : Command} {x : Await} (h : w.flight cfg (.beat .loop) = some (cmd, x)) :
    ∃ fields, w.loop = .beating fields x ∧ cmd = .heartbeat fields := by
  cases hpc : (w.beat .loop).pc <;> simp [flight, BeatPc.flight, hpc] at h
  exact ⟨_, by rw [loop, hpc, h.2], h.1.symm⟩

lemma flight_of_loop {fields : Fields} {x : Await} (h : w.loop = .beating fields x) :
    w.flight cfg (.beat .loop) = some (.heartbeat fields, x) := by
  rw [flight]
  exact congrArg BeatPc.flight h

lemma loop_setBeat (w : World) (b : BeatId) (pc : BeatPc) :
    (w.setBeat b pc).loop = if b = .loop then pc else w.loop := by
  cases b with
  | oneShot => simp [setBeat, loop]
  | loop => simp [setBeat, loop]

lemma loop_mapped {fields : Fields} {x : Await} (hl : w.loop = .beating fields x) (f : Await → Await) :
    (w.mapAwait f (.beat .loop)).loop = .beating fields (f x) := by
  rw [mapAwait, loop_setBeat, if_pos rfl]
  exact congrArg (BeatPc.mapAwait f) hl

lemma loop_mapAwait (w : World) (f : Await → Await) (t : Task) (ht : t ≠ .beat .loop) :
    (w.mapAwait f t).loop = w.loop := by
  cases t with
  | beat b =>
    cases b with
    | oneShot => exact loop_setBeat w .oneShot _
    | loop => exact absurd rfl ht
  | _ => rfl

lemma loop_abandon (w : World) (t : Task) : (w.abandon cfg t).loop = w.loop := by
  obtain h | ⟨cmd, a, -, -, h⟩ := abandon_cases cfg w t <;> rw [h]
  rfl

lemma loop_resume {ok : Bool} {t : Task} (h : w.resume cfg ok t = some w') :
    w'.loop = if t = .beat .loop then .sleeping else w.loop := by
  by_cases ht : ∃ b, t = .beat b
  · obtain ⟨b, rfl⟩ := ht
    obtain rfl := Option.some.inj h
    rw [loop_setBeat]
    cases b <;> rfl
  · rw [if_neg fun hl => ht ⟨_, hl⟩]
    exact loop_of_wire (wire_resume (fun b hb => ht ⟨b, hb⟩) h)

lemma loop_unwound {t : Task} (h : w.Unwound t w') : w'.loop = if t = .beat .loop then .ended else w.loop := by
  cases h with
  | beat b =>
    rw [loop_setBeat]
    cases b <;> rfl
  | _ => rfl

lemma loop_bootRun (w : World) : (w.bootRun cfg).loop = .created ∨ (w.bootRun cfg).loop = w.loop := by
  rw [bootRun, startHeartbeat]
  split_ifs
  · exact Or.inr rfl
  · exact Or.inl rfl
  · exact Or.inr rfl

/-- A command that moves is that of the loop, or leaves the loop where it is. -/
lemma loop_moved {t : Task} {cmd : Command} {x : Await} (hf : w.flight cfg t = some (cmd, x)) (f : Await → Await)
    (ht : task a = some t)
    (hstep : t = .beat .loop → ∀ fields, w.loop = .beating fields x → LoopStep w a (.beating fields (f x))) :
    LoopStep w a (w.mapAwait f t).loop := by
  by_cases hloop : t = .beat .loop
  · subst hloop
    obtain ⟨fields, hl, -⟩ := flight_loop hf
    rw [loop_mapped hl]
    exact hstep rfl fields hl
  · rw [loop_mapAwait w f t hloop]
    refine .kept a fun h => hloop ?_
    exact Option.some.inj (ht.symm.trans h)

theorem loop_step (hn : w.next cfg a = some w') : LoopStep w a w'.loop := by
  have hkept {u : World} {b : Action} (hu : u.loop = w.loop) (hb : task b ≠ some (.beat .loop)) :
      LoopStep w b u.loop := by
    rw [hu]
    exact .kept b hb
  have hnone {b : Action} (hb : task b = none) : task b ≠ some (.beat .loop) := by
    rw [hb]
    exact (Option.some_ne_none _).symm
  cases next_stepped hn with
  | bootRun _ h =>
    rcases @loop_bootRun cfg w with hl | hl
    · rw [hl]
      exact .created h
    · exact hkept hl (hnone rfl)
  | executorDone ok _ _ _ h => exact hkept (loop_of_wire (wire_executorDone h)) (hnone rfl)
  | wakeBeat b now _ h =>
    have hget : w.getRedis.loop = w.loop := loop_of_wire (wire_getRedis w)
    rw [sendHeartbeat, loop_setBeat]
    cases b with
    | oneShot => exact hkept hget fun h => BeatId.noConfusion (Task.beat.inj (Option.some.inj h))
    | loop => exact .woken now _ _ h rfl
  | idle => exact hkept (loop_of_wire (wire_beginCall w.enterCallback _ _ _)) (hnone rfl)
  | call => exact hkept (loop_of_wire (wire_beginCall w _ _ _)) (hnone rfl)
  | send t cmd x _ hf hx =>
    refine loop_moved hf (fun y => { y with epoch := w.epoch y.client, phase := .sent }) rfl ?_
    rintro rfl fields hl
    exact .sent fields x _ hl hx rfl
  | apply t cmd x hf hx =>
    refine loop_moved hf (fun y => { y with phase := .applied }) rfl ?_
    rintro rfl fields hl
    exact .applied fields x _ hl hx rfl
  | deliver t cmd x _ hf hx =>
    refine loop_moved hf (fun y => { y with phase := .answered }) rfl ?_
    rintro rfl fields hl
    exact .delivered fields x _ hl hx rfl
  | resume t _ x _ _ hf hx _ h =>
    rw [loop_resume h]
    split_ifs with ht
    · subst ht
      obtain ⟨fields, hl, -⟩ := flight_loop hf
      exact .answered fields x hl hx
    · exact .kept _ fun h => ht (Option.some.inj h)
  | fail t _ x _ _ hf _ _ h =>
    rw [loop_resume h]
    split_ifs with ht
    · subst ht
      obtain ⟨fields, hl, -⟩ := flight_loop hf
      exact .failed fields x hl
    · exact hkept (loop_abandon w t) fun h => ht (Option.some.inj h)
  | cancel t => exact hkept (loop_of_wire (wire_requestCancel w t)) (hnone rfl)
  | cancelled t _ _ _ h =>
    rw [loop_unwound (cancelled_unwound h)]
    split_ifs with ht
    · subst ht
      exact .ended
    · exact hkept (loop_abandon w t) fun h => ht (Option.some.inj h)
  | _ => exact hkept rfl (hnone rfl)

end World

namespace Leased

open Renewal

section Refinement

variable {cfg : Config} {d : Delays} {s t : Leased} {a : Action} {now : ℚ} {as : List (Action × ℚ)}

def phaseOf : BeatPc → Renewal.Phase
  | .beating _ a => match a.phase with
    | .waiting | .sent => .trying
    | .applied | .answered => .renewed
  | _ => .resting

/-- The loop as the holder of the hash. -/
def holder (s : Leased) : Holder ℚ := ⟨s.clock, phaseOf s.world.loop, s.mark, s.failed, s.renewal⟩

def event (cfg : Config) (w : World) (a : Action) : Event :=
  match a with
  | .wakeBeat .loop _ => .start
  | .apply (.beat .loop) => .renew
  | .resume (.beat .loop) => .finish
  | .fail (.beat .loop) => .fail
  | a => match w.applied cfg a with
    | some (.heartbeat _) => .renewElsewhere
    | _ => .wait

lemma next_elim (hn : (leased cfg d).next s (a, now) = some t) :
    (s.clock ≤ now ∧ (s.latest d).all (now ≤ ·) = true ∧ s.may d now a = true) ∧
      ∃ w, s.world.next cfg a = some w ∧ t = s.after cfg w now a := by
  simp only [leased, next] at hn
  split_ifs at hn with hguard
  obtain ⟨w, hw, rfl⟩ := Option.map_eq_some_iff.mp hn
  exact ⟨hguard, w, hw, rfl⟩

lemma after_of_ne (hb : a ≠ .bootRun) (w : World) : s.after cfg w now a =
    ⟨w, now, s.markAfter now a, s.failedAfter a, s.renewalAfter cfg now a⟩ := by
  cases a <;> first | rfl | exact absurd rfl hb

lemma world_after (w : World) : (s.after cfg w now a).world = w := by
  cases a <;> rfl

lemma latest_holder (hs : s.world.loop.suspended = true) :
    s.latest d = some (s.holder.latest d.pace) := by
  rw [latest, Holder.latest]
  cases hl : s.world.loop with
  | created => simp [holder, hl, phaseOf, Delays.pace]
  | sleeping => simp [holder, hl, phaseOf, Delays.pace]
  | beating fields x => cases hx : x.phase <;> simp [holder, hl, phaseOf, hx, Delays.pace]
  | _ => simp [hl, BeatPc.suspended] at hs

lemma aside (ha : task a ≠ some (.beat .loop)) : s.markAfter now a = s.mark ∧ s.failedAfter a = s.failed ∧
    event cfg s.world a = match s.world.applied cfg a with
      | some (.heartbeat _) => .renewElsewhere
      | _ => .wait := by
  refine ⟨?_, ?_, ?_⟩
  · rw [markAfter.eq_def]
    split <;> first | exact absurd rfl ha | rfl
  · rw [failedAfter.eq_def]
    split <;> first | exact absurd rfl ha | rfl
  · rw [event.eq_def]
    split <;> first | exact absurd rfl ha | rfl

/-- A step of a worker whose loop goes on is a step of the holder. -/
theorem follows (hn : (leased cfg d).next s (a, now) = some t) (hs : s.world.loop.suspended = true)
    (ht : t.world.loop.suspended = true) (hb : a ≠ .bootRun)
    (hwrites : ∀ cmd ∈ s.world.applied cfg a, cmd.writes = true) :
    (Renewal.holder d.pace).next s.holder (event cfg s.world a, now) = some t.holder := by
  obtain ⟨⟨hclock, hlatest, hmay⟩, w, hw, rfl⟩ := next_elim hn
  rw [after_of_ne hb] at ht ⊢
  have hloop := loop_step hw
  rw [latest_holder hs, Option.all_some, decide_eq_true_eq] at hlatest
  apply holder_next hclock hlatest
  have hphase : s.holder.phase = phaseOf s.world.loop := rfl
  change s.holder.act d.pace now _ =
    some ⟨now, phaseOf w.loop, s.markAfter now a, s.failedAfter a, s.renewalAfter cfg now a⟩
  change w.loop.suspended = true at ht
  generalize w.loop = pc at hloop ht ⊢
  cases hloop with
  | created => exact absurd rfl hb
  | woken _ fields x h hx =>
    have hrest : phaseOf s.world.loop = .resting := by
      cases hl : s.world.loop <;> first | rfl | simp [hl, awake] at h
    have hmark : s.mark ≤ now := by simpa [may] using hmay
    refine (if_pos ⟨hphase.trans hrest, hmark⟩).trans ?_
    simp [phaseOf, hx, markAfter, failedAfter, renewalAfter, World.applied, holder]
  | sent fields x y h hx hy =>
    simp [event, Holder.act, holder, phaseOf, h, hx, hy, markAfter, failedAfter, renewalAfter, World.applied]
  | applied fields x y h hx hy =>
    have happlied : s.world.applied cfg (.apply (.beat .loop)) = some (.heartbeat fields) := by
      simp [World.applied, flight_of_loop h, hx]
    simp [event, Holder.act, holder, phaseOf, h, hx, hy, markAfter, failedAfter, renewalAfter, happlied]
  | delivered fields x y h hx hy =>
    simp [event, Holder.act, holder, phaseOf, h, hx, hy, markAfter, failedAfter, renewalAfter, World.applied]
  | answered fields x h hx =>
    simp [event, Holder.act, holder, phaseOf, h, hx, markAfter, failedAfter, renewalAfter, World.applied,
      Delays.pace]
  | failed fields x h =>
    have htrying : phaseOf s.world.loop ≠ .resting := by
      rw [h]
      cases hx : x.phase <;> simp [phaseOf, hx]
    have hfailed : s.failed < d.failures := by simpa [may] using hmay
    refine (if_pos ⟨hphase ▸ htrying, hfailed⟩).trans ?_
    simp [phaseOf, markAfter, failedAfter, renewalAfter, World.applied, holder, Delays.pace]
  | ended => cases ht
  | kept _ ha =>
    obtain ⟨hmark, hfailed, hevent⟩ := @aside cfg s a now ha
    rw [hmark, hfailed, hevent, renewalAfter]
    cases hx : s.world.applied cfg a with
    | none => rfl
    | some cmd =>
      have hwrite := hwrites cmd hx
      cases cmd <;> first | rfl | cases hwrite

lemma suspended_before {w w' : World} (hw : w.next cfg a = some w') (hb : a ≠ .bootRun)
    (ht : w'.loop.suspended = true) : w.loop.suspended = true := by
  have hloop := loop_step hw
  generalize w'.loop = pc at hloop ht
  cases hloop with
  | created => exact absurd rfl hb
  | woken _ fields x h => cases hl : w.loop <;> first | rfl | simp [hl, awake] at h
  | ended => cases ht
  | kept => exact ht
  | _ fields x => rw [‹w.loop = _›]; rfl

/-- Before a shutdown nothing is deleted. -/
lemma unsignaled_step {w w' : World} (h : OneSignal cfg w.view) (hw : w.next cfg a = some w')
    (hs : w'.signaled = false) :
    w.signaled = false ∧ ∀ cmd ∈ w.applied cfg a, cmd.writes = true := by
  have hno {u : World} (hu : OneSignal cfg u.view) (hsu : u.signaled = false) : NoCall u.view := by
    rcases hu with hu | ⟨first, later, hu⟩
    · exact hu
    · cases hu.signaled.symm.trans hsu
  have hafter := hno (h.step (view_step hw)) hs
  have hcalls : w.calls = [] := calls_step hw hafter.calls
  refine ⟨?_, fun cmd hcmd => hafter.log cmd ?_⟩
  · rcases h with h | ⟨first, later, h⟩
    · exact h.signaled
    · cases h.calls.symm.trans hcalls
  · change cmd ∈ w'.log
    rw [log_step hw]
    exact List.mem_append_right _ (Option.mem_toList.mpr hcmd)

structure Lasting (cfg : Config) (d : Delays) (s : Leased) : Prop where
  once : OneSignal cfg s.world.view
  held : s.world.signaled = false → s.world.loop.suspended = true →
    ∃ start es, (Renewal.holder d.pace).exec (begun start) es = some s.holder
  kept : s.Kept

lemma world_bootRun (henabled : cfg.isHeartbeatEnabled = true) (hload : cfg.skipModelLoad = false) (w : World) :
    (w.bootRun cfg).loop = .created := by
  rw [bootRun, startHeartbeat, if_neg (by simp [hload]), if_pos henabled]
  rfl

/-- The hash outlives a step that is neither a deletion nor the end of its time to live. -/
lemma entry_step {w w' : World} (hw : w.next cfg a = some w')
    (hwrites : ∀ cmd ∈ w.applied cfg a, cmd.writes = true) (hexpire : a ≠ .expire)
    (h : w.registry.entry.isSome ∨ ∃ fields, w.applied cfg a = some (.heartbeat fields)) :
    w'.registry.entry.isSome := by
  have hregistry : w'.registry = (w.restored cfg a).2 := congrArg Prod.snd (stored_step hw)
  rw [hregistry]
  obtain ⟨cmd, hcmd, hr⟩ | ⟨he, -⟩ | ⟨hnone, hr⟩ := restored_cases cfg w a
  · rw [hr]
    have hwrite := hwrites cmd hcmd
    cases cmd <;> first | rfl | cases hwrite
  · exact absurd he hexpire
  · rw [hr]
    rcases h with h | ⟨fields, hf⟩
    · exact h
    · cases hnone.symm.trans hf

lemma lasting_bootRun (henabled : cfg.isHeartbeatEnabled = true) (hload : cfg.skipModelLoad = false)
    (h : OneSignal cfg (s.world.bootRun cfg).view) :
    (s.after cfg (s.world.bootRun cfg) now .bootRun).Lasting cfg d := by
  have hholder : (s.after cfg (s.world.bootRun cfg) now .bootRun).holder = begun now := by
    change Holder.mk now (phaseOf (s.world.bootRun cfg).loop) now 0 none = begun now
    rw [world_bootRun henabled hload]
    rfl
  exact ⟨h, fun _ _ => ⟨now, [], congrArg some hholder.symm⟩, fun _ _ hr => Bool.noConfusion hr⟩

lemma Lasting.held_step (h : s.Lasting cfg d) (hn : (leased cfg d).next s (a, now) = some t) (hb : a ≠ .bootRun)
    (hs : t.world.signaled = false) (ht : t.world.loop.suspended = true) :
    ∃ start es, (Renewal.holder d.pace).exec (begun start) es = some t.holder := by
  obtain ⟨-, w, hw, hafter⟩ := next_elim hn
  have hworld : t.world = w := by rw [hafter, world_after]
  obtain ⟨hunsignaled, hwrites⟩ := unsignaled_step h.once hw (hworld ▸ hs)
  have hloop := suspended_before hw hb (hworld ▸ ht)
  obtain ⟨start, es, he⟩ := h.held hunsignaled hloop
  exact ⟨start, es ++ [(event cfg s.world a, now)], Machine.exec_snoc he (follows hn hloop ht hb hwrites)⟩

/-- Where the span is shorter than the time to live, the hash does not expire. -/
lemma unexpired (hspan : d.pace.span < heartbeatTtlS) (hn : (leased cfg d).next s (a, now) = some t)
    (hheld : ∃ start es, (Renewal.holder d.pace).exec (begun start) es = some t.holder) (hr : t.renewal.isSome) :
    a ≠ .expire := by
  rintro rfl
  obtain ⟨⟨-, -, hmay⟩, w, -, hafter⟩ := next_elim hn
  obtain ⟨renewal, hrenewal⟩ := Option.isSome_iff_exists.mp hr
  obtain ⟨start, es, he⟩ := hheld
  have hrecent := renewal_recent d.sound he hrenewal
  have hsame : s.renewal = some renewal := by
    rw [hafter] at hrenewal
    exact hrenewal
  have hover : renewal + heartbeatTtlS ≤ now := by simpa [may, hsame] using hmay
  have hnow : t.holder.clock = now := by
    rw [hafter]
    rfl
  rw [hnow] at hrecent
  linarith

lemma Lasting.step (henabled : cfg.isHeartbeatEnabled = true) (hload : cfg.skipModelLoad = false)
    (hspan : d.pace.span < heartbeatTtlS) (h : s.Lasting cfg d) (hn : (leased cfg d).next s (a, now) = some t) :
    t.Lasting cfg d := by
  obtain ⟨-, w, hw, hafter⟩ := next_elim hn
  have hworld : t.world = w := by rw [hafter, world_after]
  have honce : OneSignal cfg w.view := h.once.step (view_step hw)
  by_cases hb : a = .bootRun
  · subst hb
    obtain rfl : w = s.world.bootRun cfg := by
      cases next_stepped hw
      rfl
    rw [hafter]
    exact lasting_bootRun henabled hload honce
  · refine ⟨hworld ▸ honce, h.held_step hn hb, fun hs ht hr => ?_⟩
    obtain ⟨hunsignaled, hwrites⟩ := unsignaled_step h.once hw (hworld ▸ hs)
    have hexpire := unexpired hspan hn (h.held_step hn hb hs ht) hr
    rw [hworld]
    refine entry_step hw hwrites hexpire ?_
    by_cases hcmd : ∃ fields, s.world.applied cfg a = some (.heartbeat fields)
    · exact Or.inr hcmd
    · refine Or.inl (h.kept hunsignaled (suspended_before hw hb (hworld ▸ ht)) ?_)
      rw [hafter, after_of_ne hb] at hr
      change (s.renewalAfter cfg now a).isSome at hr
      rw [renewalAfter] at hr
      split at hr
      · exact absurd ⟨_, ‹_›⟩ hcmd
      · cases hr
      · exact hr

lemma lasting_init : (init cfg).Lasting cfg d :=
  ⟨@oneSignal_run cfg (World.init cfg) [] rfl, fun _ h => Bool.noConfusion h, fun _ h => Bool.noConfusion h⟩

end Refinement

end Leased

end GemmaWorker.Heartbeat
