import GemmaWorker.Heartbeat.Lease

/-! The hash can be as old as the delays allow: a worker whose loop does what the holder of a lease does, as late
as it may. What is kept for all delays and failures follows from both directions. -/

namespace GemmaWorker.Heartbeat

open Python World Library

namespace Leased

open Renewal

section Schedule

variable {cfg : Config} {d : Delays} {s t : Leased} {a : Action} {now : ℚ} {w : World} {fields : Fields}
  {x : Await}

def Unhindered (w : World) : Prop :=
  w.exited = false ∧ w.signaled = false ∧ (w.beat .loop).cancelRequested = false

/-- The actions by which the loop goes on, and those that have nothing to do with it. -/
def ordinary : Action → Bool
  | .wakeBeat .loop _ | .send (.beat .loop) | .apply (.beat .loop) | .deliver (.beat .loop)
  | .resume (.beat .loop) | .fail (.beat .loop) | .request _ _ => true
  | _ => false

lemma exited_getRedis (w : World) : w.getRedis.exited = w.exited := by
  rw [getRedis]
  split <;> rfl

lemma unhindered_step {w' : World} (h : Unhindered w) (hw : w.next cfg a = some w') (ha : ordinary a = true) :
    Unhindered w' := by
  have hbeat {b : BeatId} {u : World} {pc : BeatPc} (hu : Unhindered u) : Unhindered (u.setBeat b pc) := by
    refine ⟨hu.1, hu.2.1, ?_⟩
    cases b with
    | oneShot => exact hu.2.2
    | loop => simpa [setBeat] using hu.2.2
  cases next_stepped hw with
  | wakeBeat b =>
    refine hbeat ⟨(exited_getRedis w).trans h.1, ?_, ?_⟩
    · exact (congrArg View.signaled (view_getRedis w)).trans h.2.1
    · rw [getRedis]
      split <;> exact h.2.2
  | request => exact h
  | send t =>
    rcases t with _ | _ | _ | _ <;> first | exact hbeat h | cases ha
  | apply t =>
    rcases t with _ | _ | _ | _ <;> first | exact hbeat h | cases ha
  | deliver t =>
    rcases t with _ | _ | _ | _ <;> first | exact hbeat h | cases ha
  | resume t _ _ _ _ _ _ _ hr =>
    rcases t with _ | _ | _ | _ <;> first | (obtain rfl := Option.some.inj hr; exact hbeat h) | cases ha
  | fail t _ _ _ _ _ _ _ hr =>
    have habandon : Unhindered (w.abandon cfg t) := by
      obtain hk | ⟨cmd, y, -, -, hk⟩ := abandon_cases cfg w t <;> rw [hk] <;> exact h
    rcases t with _ | _ | _ | _ <;> first | (obtain rfl := Option.some.inj hr; exact hbeat habandon) | cases ha
  | _ => cases ha

lemma wake_next (h : Unhindered w) (hl : awake w.loop = true) :
    ∃ w' fields x, w.next cfg (.wakeBeat .loop now) = some w' ∧ w'.loop = .beating fields x ∧
      x.phase = .waiting := by
  have hawake : awake (w.beat .loop).pc = true := hl
  refine ⟨w.sendHeartbeat cfg .loop now, _, .start w.client, ?_, loop_setBeat _ _ _, rfl⟩
  simp [World.next, World.run, h.1, hawake, h.2.2]

lemma send_next (h : Unhindered w) (hl : w.loop = .beating fields x) (hx : x.phase = .waiting) :
    ∃ w' y, w.next cfg (.send (.beat .loop)) = some w' ∧ w'.loop = .beating fields y ∧ y.phase = .sent ∧
      y.epoch = w'.epoch y.client := by
  refine ⟨w.send (.beat .loop) x, _, ?_, loop_mapped hl _, rfl, rfl⟩
  simp [World.next, World.run, flight_of_loop hl, h.1, hx, cancelRequested, h.2.2]

lemma apply_next (hl : w.loop = .beating fields x) (hx : x.phase = .sent) (he : x.epoch = w.epoch x.client) :
    ∃ w' y, w.next cfg (.apply (.beat .loop)) = some w' ∧ w'.loop = .beating fields y ∧ y.phase = .applied ∧
      y.epoch = w'.epoch y.client := by
  refine ⟨(w.setPhase (.beat .loop) .applied).record (.heartbeat fields), _, ?_, loop_mapped hl _, rfl, he⟩
  simp [World.next, flight_of_loop hl, hx]

lemma deliver_next (h : Unhindered w) (hl : w.loop = .beating fields x) (hx : x.phase = .applied)
    (he : x.epoch = w.epoch x.client) : ∃ w' y, w.next cfg (.deliver (.beat .loop)) = some w' ∧
      w'.loop = .beating fields y ∧ y.phase = .answered := by
  refine ⟨w.setPhase (.beat .loop) .answered, _, ?_, loop_mapped hl _, rfl⟩
  simp [World.next, World.run, flight_of_loop hl, h.1, hx, he]

lemma resume_next (h : Unhindered w) (hl : w.loop = .beating fields x) (hx : x.phase = .answered) :
    ∃ w', w.next cfg (.resume (.beat .loop)) = some w' ∧ w'.loop = .sleeping := by
  refine ⟨w.setBeat .loop .sleeping, ?_, loop_setBeat _ _ _⟩
  simp [World.next, World.run, flight_of_loop hl, h.1, hx, cancelRequested, h.2.2, World.resume, afterBeat]

lemma fail_next (h : Unhindered w) (hl : w.loop = .beating fields x) (hx : x.phase ≠ .answered) :
    ∃ w', w.next cfg (.fail (.beat .loop)) = some w' ∧ w'.loop = .sleeping := by
  refine ⟨(w.abandon cfg (.beat .loop)).setBeat .loop .sleeping, ?_, loop_setBeat _ _ _⟩
  simp [World.next, World.run, flight_of_loop hl, h.1, hx, cancelRequested, h.2.2, World.resume, afterBeat]

/-- Nobody interferes with the loop, and the hash of the last renewal has a time to live. -/
structure Ticking (s : Leased) : Prop where
  unhindered : Unhindered s.world
  suspended : s.world.loop.suspended = true
  expiring : s.renewal.isSome → s.world.registry.entry.any Entry.expires = true

lemma leased_next (hguard : s.clock ≤ now ∧ (s.latest d).all (now ≤ ·) = true ∧ s.may d now a = true)
    (hw : s.world.next cfg a = some w) : (leased cfg d).next s (a, now) = some (s.after cfg w now a) := by
  simp only [leased, next]
  rw [if_pos hguard, hw]
  rfl

def OnlyBeats (cfg : Config) (w : World) (a : Action) : Prop :=
  ∀ cmd ∈ w.applied cfg a, ∃ fields, cmd = .heartbeat fields

lemma onlyBeats_none (h : w.applied cfg a = none) : OnlyBeats cfg w a := by
  intro cmd hcmd
  cases h.symm.trans hcmd

lemma expiring_step {w' : World} (hw : w.next cfg a = some w') (ha : ordinary a = true)
    (hbeats : OnlyBeats cfg w a) (h : w.registry.entry.any Entry.expires = true ∨ (w.applied cfg a).isSome) :
    w'.registry.entry.any Entry.expires = true := by
  have hregistry : w'.registry = (w.restored cfg a).2 := congrArg Prod.snd (stored_step hw)
  rw [hregistry]
  obtain ⟨cmd, hcmd, hr⟩ | ⟨rfl, -⟩ | ⟨hnone, hr⟩ := restored_cases cfg w a
  · obtain ⟨fields, rfl⟩ := hbeats cmd hcmd
    rw [hr]
    rfl
  · cases ha
  · rw [hr]
    rw [hnone] at h
    exact h.resolve_right Bool.noConfusion

/-- An ordinary action that the worker can take is a step of the holder. -/
lemma Ticking.play (hs : s.Ticking) (hw : s.world.next cfg a = some w) (ha : ordinary a = true)
    (hbeats : OnlyBeats cfg s.world a) (hloop : w.loop.suspended = true) (hclock : s.clock ≤ now)
    (hlatest : now ≤ s.holder.latest d.pace) (hmay : s.may d now a = true) :
    ∃ t, (leased cfg d).next s (a, now) = some t ∧ t.world = w ∧ t.Ticking ∧
      (Renewal.holder d.pace).next s.holder (event cfg s.world a, now) = some t.holder := by
  have hb : a ≠ .bootRun := by
    rintro rfl
    cases ha
  have hguard : s.clock ≤ now ∧ (s.latest d).all (now ≤ ·) = true ∧ s.may d now a = true := by
    rw [latest_holder hs.suspended, Option.all_some, decide_eq_true_eq]
    exact ⟨hclock, hlatest, hmay⟩
  have hstep := leased_next hguard hw
  have hworld : (s.after cfg w now a).world = w := world_after w
  have hwrites : ∀ cmd ∈ s.world.applied cfg a, cmd.writes = true := by
    intro cmd hcmd
    obtain ⟨fields, rfl⟩ := hbeats cmd hcmd
    rfl
  refine ⟨_, hstep, hworld, ⟨?_, ?_, ?_⟩, ?_⟩
  · rw [hworld]
    exact unhindered_step hs.unhindered hw ha
  · rw [hworld]
    exact hloop
  · intro hr
    rw [hworld]
    refine expiring_step hw ha hbeats ?_
    rw [after_of_ne hb] at hr
    change (s.renewalAfter cfg now a).isSome at hr
    rw [renewalAfter] at hr
    split at hr
    · exact Or.inr (by rw [‹s.world.applied cfg a = _›]; rfl)
    · cases hr
    · exact Or.inl (hs.expiring hr)
  · exact follows hstep hs.suspended (by rw [hworld]; exact hloop) hb hwrites

/-- Two ordinary actions at one time, the first of which the holder does not notice, are one step of it. -/
lemma Ticking.play_two {b : Action} {v : World} (hs : s.Ticking) (hw : s.world.next cfg a = some w)
    (ha : ordinary a = true) (hbeats : OnlyBeats cfg s.world a) (hloop : w.loop.suspended = true)
    (hwait : event cfg s.world a = .wait) (hv : w.next cfg b = some v) (hb : ordinary b = true)
    (hbeats' : OnlyBeats cfg w b) (hloop' : v.loop.suspended = true) (hclock : s.clock ≤ now)
    (hlatest : now ≤ s.holder.latest d.pace) (hmay : s.may d now a = true)
    (hmay' : ∀ t : Leased, t.may d now b = true) :
    ∃ u, (leased cfg d).exec s [(a, now), (b, now)] = some u ∧ u.world = v ∧ u.Ticking ∧
      s.holder.act d.pace now (event cfg w b) = some u.holder := by
  obtain ⟨t, ht, rfl, hticks, hholder⟩ := hs.play hw ha hbeats hloop hclock hlatest hmay
  have hwaited : t.holder = { s.holder with clock := now } := by
    rw [hwait, holder_next hclock hlatest rfl] at hholder
    exact (Option.some.inj hholder).symm
  have htclock : t.clock = now := congrArg Holder.clock hwaited
  have htlatest : now ≤ t.holder.latest d.pace := by
    rw [hwaited]
    exact hlatest
  obtain ⟨u, hu, hworld, huticks, huholder⟩ := hticks.play hv hb hbeats' hloop' htclock.le htlatest (hmay' t)
  refine ⟨u, ?_, hworld, huticks, ?_⟩
  · rw [Machine.exec_cons ht, Machine.exec_cons hu]
    rfl
  · rw [hwaited] at huholder
    obtain ⟨-, -, hact⟩ := holder_elim huholder
    rw [← hact]
    cases event cfg t.world b <;> rfl

/-- How the worker does what the holder does. -/
def played (now : ℚ) : Event → List (Action × ℚ)
  | .start => [(.wakeBeat .loop now, now)]
  | .renew => [(.send (.beat .loop), now), (.apply (.beat .loop), now)]
  | .renewElsewhere => []
  | .finish => [(.deliver (.beat .loop), now), (.resume (.beat .loop), now)]
  | .fail => [(.fail (.beat .loop), now)]
  | .wait => [(.request .touch now, now)]

/-- The worker stands where the holder stands, with nothing of the loop on the wire. -/
structure Shadows (h : Holder ℚ) (s : Leased) : Prop where
  holder : s.holder = h
  ticking : s.Ticking
  settled : ∀ fields x, s.world.loop = .beating fields x →
    x.phase = .waiting ∨ x.phase = .applied ∧ x.epoch = s.world.epoch x.client

variable {h g : Holder ℚ}

lemma Shadows.start (hs : Shadows h s) (hn : (Renewal.holder d.pace).next h (.start, now) = some g) :
    ∃ t, (leased cfg d).exec s (played now .start) = some t ∧ Shadows g t := by
  obtain ⟨rfl, hticking, -⟩ := hs
  obtain ⟨hclock, hlatest, ha⟩ := holder_elim hn
  have hrest : phaseOf s.world.loop = .resting ∧ s.mark ≤ now := (Option.ite_none_right_eq_some.mp ha).1
  have hawake : awake s.world.loop = true := by
    have hphase := hrest.1
    have hsuspended := hticking.suspended
    cases hl : s.world.loop with
    | beating fields x => cases hp : x.phase <;> simp [hl, phaseOf, hp] at hphase
    | created => rfl
    | sleeping => rfl
    | _ => simp [hl, BeatPc.suspended] at hsuspended
  obtain ⟨w, fields, x, hw, hl, hx⟩ := @wake_next cfg now _ hticking.unhindered hawake
  obtain ⟨t, ht, rfl, hticks, hholder⟩ :=
    hticking.play hw rfl (onlyBeats_none rfl) (by rw [hl]; rfl) hclock hlatest
    (by simpa [may] using hrest.2)
  refine ⟨t, (Machine.exec_cons ht).trans rfl, Option.some.inj (hholder.symm.trans hn), hticks, ?_⟩
  intro fields' y hy
  obtain ⟨-, rfl⟩ := BeatPc.beating.inj (hl.symm.trans hy)
  exact Or.inl hx

lemma beating_of_phase (hphase : phaseOf w.loop ≠ .resting) : ∃ fields x, w.loop = .beating fields x := by
  cases hl : w.loop with
  | beating fields x => exact ⟨fields, x, rfl⟩
  | _ => exact absurd (by rw [hl]; rfl) hphase

lemma Shadows.renew (hs : Shadows h s) (hn : (Renewal.holder d.pace).next h (.renew, now) = some g) :
    ∃ t, (leased cfg d).exec s (played now .renew) = some t ∧ Shadows g t := by
  obtain ⟨rfl, hticking, hset⟩ := hs
  obtain ⟨hclock, hlatest, ha⟩ := holder_elim hn
  have htrying : phaseOf s.world.loop = .trying := (Option.ite_none_right_eq_some.mp ha).1
  obtain ⟨fields, x, hl⟩ := beating_of_phase (w := s.world) (by rw [htrying]; exact Renewal.Phase.noConfusion)
  have hx : x.phase = .waiting := by
    rcases hset fields x hl with hx | ⟨hx, -⟩
    · exact hx
    · simp [hl, phaseOf, hx] at htrying
  obtain ⟨w, y, hw, hy, hyphase, hyepoch⟩ := @send_next cfg _ _ _ hticking.unhindered hl hx
  obtain ⟨v, z, hv, hz, hzphase, hzepoch⟩ := @apply_next cfg _ _ _ hy hyphase hyepoch
  have hbeats : OnlyBeats cfg w (.apply (.beat .loop)) := by
    intro cmd hcmd
    simp only [World.applied, flight_of_loop hy, Option.bind_some, hyphase, if_true, Option.mem_some] at hcmd
    exact ⟨fields, hcmd.symm⟩
  obtain ⟨u, hu, rfl, hticks, hact⟩ := hticking.play_two hw rfl (onlyBeats_none rfl) (by rw [hy]; rfl) rfl hv rfl
    hbeats (by rw [hz]; rfl) hclock hlatest rfl fun _ => rfl
  refine ⟨u, hu, Option.some.inj (hact.symm.trans ha), hticks, ?_⟩
  intro fields' z' hz'
  obtain ⟨-, rfl⟩ := BeatPc.beating.inj (hz.symm.trans hz')
  exact Or.inr ⟨hzphase, hzepoch⟩

lemma Shadows.finish (hs : Shadows h s) (hn : (Renewal.holder d.pace).next h (.finish, now) = some g) :
    ∃ t, (leased cfg d).exec s (played now .finish) = some t ∧ Shadows g t := by
  obtain ⟨rfl, hticking, hset⟩ := hs
  obtain ⟨hclock, hlatest, ha⟩ := holder_elim hn
  have hrenewed : phaseOf s.world.loop = .renewed := (Option.ite_none_right_eq_some.mp ha).1
  obtain ⟨fields, x, hl⟩ := beating_of_phase (w := s.world) (by rw [hrenewed]; exact Renewal.Phase.noConfusion)
  obtain ⟨hx, hepoch⟩ : x.phase = .applied ∧ x.epoch = s.world.epoch x.client := by
    rcases hset fields x hl with hx | hx
    · simp [hl, phaseOf, hx] at hrenewed
    · exact hx
  obtain ⟨w, y, hw, hy, hyphase⟩ := @deliver_next cfg _ _ _ hticking.unhindered hl hx hepoch
  obtain ⟨v, hv, hz⟩ := @resume_next cfg _ _ _ (unhindered_step hticking.unhindered hw rfl) hy hyphase
  obtain ⟨u, hu, rfl, hticks, hact⟩ := hticking.play_two hw rfl (onlyBeats_none rfl) (by rw [hy]; rfl) rfl hv rfl
    (onlyBeats_none rfl) (by rw [hz]; rfl) hclock hlatest rfl fun _ => rfl
  exact ⟨u, hu, Option.some.inj (hact.symm.trans ha), hticks,
    fun _ _ hz' => BeatPc.noConfusion (hz.symm.trans hz')⟩

lemma Shadows.fail (hs : Shadows h s) (hn : (Renewal.holder d.pace).next h (.fail, now) = some g) :
    ∃ t, (leased cfg d).exec s (played now .fail) = some t ∧ Shadows g t := by
  obtain ⟨rfl, hticking, hset⟩ := hs
  obtain ⟨hclock, hlatest, ha⟩ := holder_elim hn
  have hfailing : phaseOf s.world.loop ≠ .resting ∧ s.failed < d.failures :=
    (Option.ite_none_right_eq_some.mp ha).1
  obtain ⟨fields, x, hl⟩ := beating_of_phase hfailing.1
  have hx : x.phase ≠ .answered := by
    rcases hset fields x hl with hx | ⟨hx, -⟩ <;> rw [hx] <;> exact Heartbeat.Phase.noConfusion
  obtain ⟨w, hw, hz⟩ := @fail_next cfg _ _ _ hticking.unhindered hl hx
  obtain ⟨t, ht, rfl, hticks, hholder⟩ :=
    hticking.play hw rfl (onlyBeats_none rfl) (by rw [hz]; rfl) hclock hlatest
    (by simpa [may] using hfailing.2)
  exact ⟨t, (Machine.exec_cons ht).trans rfl, Option.some.inj (hholder.symm.trans hn), hticks,
    fun _ _ hz' => BeatPc.noConfusion (hz.symm.trans hz')⟩

lemma Shadows.wait (hs : Shadows h s) (hn : (Renewal.holder d.pace).next h (.wait, now) = some g) :
    ∃ t, (leased cfg d).exec s (played now .wait) = some t ∧ Shadows g t := by
  obtain ⟨rfl, hticking, hset⟩ := hs
  obtain ⟨hclock, hlatest, -⟩ := holder_elim hn
  have hw : s.world.next cfg (.request .touch now) =
      some { s.world with tracker := RequestOp.touch.apply s.world.tracker now } := by
    simp [World.next, World.run, hticking.unhindered.1]
  obtain ⟨t, ht, hworld, hticks, hholder⟩ :=
    hticking.play hw rfl (onlyBeats_none rfl) hticking.suspended hclock hlatest rfl
  refine ⟨t, (Machine.exec_cons ht).trans rfl, Option.some.inj (hholder.symm.trans hn), hticks, ?_⟩
  rw [hworld]
  exact hset

lemma Shadows.exec {es : List (Event × ℚ)} (hs : Shadows h s) (hes : ∀ e ∈ es, e.1 ≠ .renewElsewhere)
    (he : (Renewal.holder d.pace).exec h es = some g) :
    ∃ t, (leased cfg d).exec s (es.flatMap fun e => played e.2 e.1) = some t ∧ Shadows g t := by
  induction es generalizing h s with
  | nil =>
    obtain rfl := Option.some.inj he
    exact ⟨s, rfl, hs⟩
  | cons e es ih =>
    obtain ⟨e, now⟩ := e
    obtain ⟨h', hh', he⟩ := Option.bind_eq_some_iff.mp he
    obtain ⟨t, ht, hst⟩ : ∃ t, (leased cfg d).exec s (played now e) = some t ∧ Shadows h' t := by
      cases e with
      | start => exact hs.start hh'
      | renew => exact hs.renew hh'
      | renewElsewhere => exact absurd rfl (hes _ List.mem_cons_self)
      | finish => exact hs.finish hh'
      | fail => exact hs.fail hh'
      | wait => exact hs.wait hh'
    obtain ⟨u, hu, hsu⟩ := ih hst (fun e he => hes e (List.mem_cons_of_mem _ he)) he
    exact ⟨u, (Machine.exec_append ht).trans hu, hsu⟩

/-- The boot task has started the heartbeats and downloads the model. -/
def booted (cfg : Config) : World :=
  { World.init cfg with beat := fun _ => ⟨.created, false⟩, loopHandle := true }.setBoot .downloading

/-- The first heartbeat, which is no part of the loop, fails at once. -/
def started : List (Action × ℚ) := [(.bootRun, 0), (.wakeBeat .oneShot 0, 0), (.fail (.beat .oneShot), 0)]

lemma started_shadows (henabled : cfg.isHeartbeatEnabled = true) (hload : cfg.skipModelLoad = false) :
    ∃ s, (leased cfg d).exec (init cfg) started = some s ∧ Shadows (begun 0) s := by
  have hboot : (World.init cfg).next cfg .bootRun = some (booted cfg) := by
    apply congrArg some
    rw [bootRun, startHeartbeat, if_neg (by simp [hload]), if_pos henabled]
    rfl
  have hjitter : (0 : ℚ) ≤ 0 + d.jitter := by
    rw [zero_add]
    exact d.jitter_nonneg
  have hfirst : (leased cfg d).next (init cfg) (.bootRun, 0) = some ⟨booted cfg, 0, 0, 0, none⟩ :=
    @leased_next cfg d (init cfg) .bootRun 0 (booted cfg) ⟨le_refl _, rfl, rfl⟩ hboot
  have hsecond : (leased cfg d).next ⟨booted cfg, 0, 0, 0, none⟩ (.wakeBeat .oneShot 0, 0) =
      some ⟨(booted cfg).sendHeartbeat cfg .oneShot 0, 0, 0, 0, none⟩ :=
    @leased_next cfg d _ (.wakeBeat .oneShot 0) 0 _ ⟨le_refl _, decide_eq_true hjitter, rfl⟩ rfl
  have hthird : (leased cfg d).next ⟨(booted cfg).sendHeartbeat cfg .oneShot 0, 0, 0, 0, none⟩
      (.fail (.beat .oneShot), 0) =
        some ⟨((booted cfg).sendHeartbeat cfg .oneShot 0).setBeat .oneShot .ended, 0, 0, 0, none⟩ :=
    @leased_next cfg d _ (.fail (.beat .oneShot)) 0 _ ⟨le_refl _, decide_eq_true hjitter, rfl⟩ rfl
  have hrun : (leased cfg d).exec (init cfg) started =
      some ⟨((booted cfg).sendHeartbeat cfg .oneShot 0).setBeat .oneShot .ended, 0, 0, 0, none⟩ := by
    rw [started, Machine.exec_cons hfirst, Machine.exec_cons hsecond, Machine.exec_cons hthird]
    rfl
  exact ⟨_, hrun, rfl, ⟨⟨rfl, rfl, rfl⟩, rfl, fun h => Bool.noConfusion h⟩, fun _ _ h => BeatPc.noConfusion h⟩

end Schedule

end Leased

open Leased Renewal

variable {cfg : Config} {d : Delays}

/-- The worker renews its hash once, and then as late as it may, so that the hash can expire before. -/
lemma lease_lost (henabled : cfg.isHeartbeatEnabled = true) (hload : cfg.skipModelLoad = false)
    (hover : (heartbeatTtlS : ℚ) ≤ d.pace.span) :
    ∃ as s, (leased cfg d).exec (init cfg) as = some s ∧ ¬ s.Kept := by
  obtain ⟨s, hs, hshadows⟩ := @started_shadows cfg d henabled hload
  obtain ⟨es, h, hes, he, hrenewal, hclock⟩ := span_reached d.sound 0
  obtain ⟨t, ht, hholder, hticking, -⟩ := hshadows.exec hes he
  have htrenewal : t.renewal = some 0 := (congrArg Holder.renewal hholder).trans hrenewal
  have htclock : t.clock = 0 + d.pace.span := (congrArg Holder.clock hholder).trans hclock
  have hlatest : (t.latest d).all (t.clock ≤ ·) = true := by
    rw [latest_holder hticking.suspended, Option.all_some, decide_eq_true_eq, hholder]
    exact hholder ▸ (paced_run d.sound he).due
  have hmay : t.may d t.clock .expire = true := by
    simp only [may, htrenewal, Option.all_some, decide_eq_true_eq, htclock]
    linarith
  have hexpire := @leased_next cfg d t _ _ { t.world with registry := t.world.registry.expire }
    ⟨le_refl _, hlatest, hmay⟩ rfl
  refine ⟨_, _, Machine.exec_snoc ((Machine.exec_append hs).trans ht) hexpire, fun hkept => ?_⟩
  have hset : t.renewal.isSome := by
    rw [htrenewal]
    rfl
  have hentry : t.world.registry.expire.entry.isSome := hkept hticking.unhindered.2.1 hticking.suspended hset
  obtain ⟨e, he⟩ := Option.isSome_iff_exists.mp hentry
  obtain ⟨hold, hkeeps⟩ := Option.mem_filter_iff.mp he
  have hexpires := hticking.expiring hset
  rw [Option.mem_def.mp hold] at hexpires
  simp [show e.expires = true from hexpires] at hkeeps

/-- A worker whose heartbeats take so long, start so late and fail so often in a row keeps its hash until it
shuts down, exactly when the next one that succeeds is certain to come within the time to live. -/
theorem lease_kept_iff (henabled : cfg.isHeartbeatEnabled = true) (hload : cfg.skipModelLoad = false) :
    (∀ as s, (leased cfg d).exec (init cfg) as = some s → s.Kept) ↔
      (d.failures + 1) * (heartbeatIntervalS + d.jitter + d.attempt) + d.attempt < (heartbeatTtlS : ℚ) := by
  constructor
  · intro hkept
    by_contra hlong
    obtain ⟨as, s, he, hlost⟩ := @lease_lost cfg d henabled hload (not_lt.mp hlong)
    exact hlost (hkept as s he)
  · intro hspan as s he
    have hlasting : s.Lasting cfg d := Machine.exec_invariant he lasting_init
      fun u a v hu hn => hu.step henabled hload hspan hn
    exact hlasting.kept

def oneFailure : Delays := ⟨2, 1, 1, by norm_num, by norm_num⟩

def twoFailures : Delays := ⟨0, 0, 2, le_refl 0, le_refl 0⟩

/-- The hash outlives one failed heartbeat, but not two, however fast the others are. -/
theorem failures_survived :
    (∀ as s, (leased .sample oneFailure).exec (init .sample) as = some s → s.Kept) ∧
      ¬ ∀ as s, (leased .sample twoFailures).exec (init .sample) as = some s → s.Kept := by
  constructor
  · refine (@lease_kept_iff .sample oneFailure rfl rfl).mpr ?_
    norm_num [oneFailure, heartbeatIntervalS, heartbeatTtlS]
  · intro hkept
    have hshort := (@lease_kept_iff .sample twoFailures rfl rfl).mp hkept
    norm_num [twoFailures, heartbeatIntervalS, heartbeatTtlS] at hshort

end GemmaWorker.Heartbeat
