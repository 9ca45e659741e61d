import GemmaWorker.Heartbeat.Signal

/-! Before the first call of `graceful_shutdown` every connection belongs to the client in use. -/

namespace GemmaWorker.Heartbeat

open Python World Library

section Clients

variable {cfg : Config} {w w' : World} {t : Task}

structure OneClient (w : World) : Prop where
  opened : ∀ k, w.opened k = true → w.redis = some k
  boot : ∀ a, w.boot.pc = .markingHealthy a → w.redis = some a.client
  beat : ∀ b fields a, (w.beat b).pc = .beating fields a → w.redis = some a.client

lemma redis_getRedis (w : World) : w.getRedis.redis = some w.client := by
  cases hr : w.redis <;> simp [getRedis, client, hr]

lemma getRedis_of_some {c : ℕ} (h : w.redis = some c) : w.getRedis = w := by
  rw [getRedis, h]

lemma OneClient.getRedis (h : OneClient w) : OneClient w.getRedis := by
  cases hr : w.redis with
  | some c => rwa [getRedis_of_some hr]
  | none =>
    have hopened (k : ℕ) : w.opened k = false := by
      by_contra hk
      simpa [hr] using h.opened k (by simpa using hk)
    have hget : w.getRedis = { w with
      redis := some w.created
      created := w.created + 1
      opened := Function.update w.opened w.created true } := by rw [World.getRedis, hr]
    rw [hget]
    refine ⟨fun k hk => ?_, fun a ha => ?_, fun b fields a ha => ?_⟩
    · by_cases hne : k = w.created
      · rw [hne]
      · simp [Function.update_of_ne hne, hopened k] at hk
    · simpa [hr] using h.boot a ha
    · simpa [hr] using h.beat b fields a ha

lemma OneClient.setBoot (h : OneClient w) {pc : BootPc}
    (hpc : ∀ a, pc = .markingHealthy a → w.redis = some a.client) : OneClient (w.setBoot pc) :=
  ⟨h.opened, fun a ha => hpc a ha, h.beat⟩

lemma OneClient.setBeat (h : OneClient w) (b : BeatId) {pc : BeatPc}
    (hpc : ∀ fields a, pc = .beating fields a → w.redis = some a.client) : OneClient (w.setBeat b pc) := by
  refine ⟨h.opened, h.boot, fun b' fields a ha => ?_⟩
  by_cases hb : b' = b
  · subst hb
    exact hpc fields a (by simpa [World.setBeat] using ha)
  · exact h.beat b' fields a (by simpa [World.setBeat, hb] using ha)

lemma OneClient.mapAwait (h : OneClient w) {f : Await → Await} (hf : ∀ a, (f a).client = a.client) :
    OneClient (w.mapAwait f t) := by
  cases t with
  | boot =>
    refine h.setBoot fun a ha => ?_
    cases hpc : w.boot.pc <;> simp [hpc, BootPc.mapAwait] at ha
    rw [← ha, hf]
    exact h.boot _ hpc
  | beat b =>
    refine h.setBeat b fun fields a ha => ?_
    cases hpc : (w.beat b).pc <;> simp [hpc, BeatPc.mapAwait] at ha
    rw [← ha.2, hf]
    exact h.beat b _ _ hpc
  | monitor => exact h
  | call i => exact ⟨h.opened, h.boot, h.beat⟩

lemma OneClient.abandon (h : OneClient w) : OneClient (w.abandon cfg t) := by
  obtain habandon | ⟨cmd, a, -, -, habandon⟩ := abandon_cases cfg w t <;> rw [habandon]
  · exact h
  · exact ⟨h.opened, h.boot, h.beat⟩

lemma OneClient.calm (h : OneClient w) (hr : w'.redis = w.redis) (ho : w'.opened = w.opened)
    (hb : w'.boot.pc = w.boot.pc) (hbeat : ∀ b, (w'.beat b).pc = (w.beat b).pc) : OneClient w' := by
  refine ⟨fun k hk => hr ▸ h.opened k (ho ▸ hk), fun a ha => hr ▸ h.boot a (hb ▸ ha), fun b fields a ha => ?_⟩
  rw [hbeat] at ha
  exact hr ▸ h.beat b fields a ha

lemma calls_beginCall (w : World) (reason : PyStr) (exits cancelled : Bool) :
    (w.beginCall cfg reason exits cancelled).calls ≠ [] := by
  rw [beginCall]
  split_ifs
  · cases w.redis <;> simp [addCall, closeClient]
  · rw [terminationMessage_eq]
    simp [addCall]
  · simp [addCall]

lemma OneClient.startIdleTimeout (h : OneClient w) : OneClient (w.startIdleTimeout cfg) := by
  rw [World.startIdleTimeout]
  split_ifs
  · exact h
  · exact ⟨h.opened, h.boot, h.beat⟩

lemma OneClient.resume {ok : Bool} (h : OneClient w) (hcalls : w.calls = [])
    (hr : w.resume cfg ok t = some w') : OneClient w' := by
  cases t with
  | boot =>
    obtain rfl := Option.some.inj hr
    exact h.startIdleTimeout.setBoot (by simp)
  | beat b =>
    obtain rfl := Option.some.inj hr
    exact h.setBeat b (by cases b <;> simp [afterBeat])
  | monitor => cases hr
  | call i => simp [World.resume, hcalls] at hr

lemma OneClient.cancelled (h : OneClient w) (hcalls : w.calls = []) (hc : w.cancelled t = some w') :
    OneClient w' := by
  cases cancelled_unwound hc with
  | boot => exact h.setBoot (by simp)
  | beat b => exact h.setBeat b (by simp)
  | monitor => exact ⟨h.opened, h.boot, h.beat⟩
  | call i c hi => simp [hcalls] at hi

lemma OneClient.executorDone {ok : Bool} (h : OneClient w) (hd : w.executorDone cfg ok = some w')
    (hcalls : w'.calls = []) : OneClient w' := by
  cases executorDone_loaded hd with
  | started =>
    have hmark : OneClient (w.getRedis.setStatus .healthy) := h.getRedis.calm rfl rfl rfl fun _ => rfl
    refine hmark.setBoot fun a ha => ?_
    obtain rfl := BootPc.markingHealthy.inj ha
    exact redis_getRedis w
  | failing => exact absurd hcalls (@calls_beginCall cfg w (lit "unhealthy") true false)
  | _ => exact h.setBoot (by simp)

lemma OneClient.bootRun (h : OneClient w) : OneClient (w.bootRun cfg) := by
  rw [World.bootRun, startHeartbeat]
  split_ifs
  · exact h.setBoot (by simp)
  · have hstart : OneClient { w with beat := fun _ => ⟨.created, false⟩, loopHandle := true } :=
      ⟨h.opened, h.boot, by simp⟩
    exact hstart.setBoot (by simp)
  · exact h.setBoot (by simp)

lemma OneClient.flight (h : OneClient w) (hcalls : w.calls = []) {cmd : Command} {a : Await}
    (hf : w.flight cfg t = some (cmd, a)) : w.redis = some a.client := by
  cases t with
  | boot =>
    cases hpc : w.boot.pc <;> simp [World.flight, BootPc.flight, hpc] at hf
    exact hf.2 ▸ h.boot _ hpc
  | beat b =>
    cases hpc : (w.beat b).pc <;> simp [World.flight, BeatPc.flight, hpc] at hf
    exact hf.2 ▸ h.beat b _ _ hpc
  | monitor => cases hf
  | call i => simp [World.flight, hcalls] at hf

lemma calls_abandon (w : World) (t : Task) : (w.abandon cfg t).calls = w.calls := by
  obtain h | ⟨cmd, a, -, -, h⟩ := abandon_cases cfg w t <;> rw [h]

lemma OneClient.step {a : Action} (h : OneClient w) (hold : w.calls = []) (hcalls : w'.calls = [])
    (hn : w.next cfg a = some w') : OneClient w' := by
  cases next_stepped hn with
  | bootRun => exact h.bootRun
  | executorDone ok _ _ _ hd => exact h.executorDone hd hcalls
  | wakeBeat b now =>
    refine h.getRedis.setBeat b fun fields a ha => ?_
    rw [← (BeatPc.beating.inj ha).2]
    exact redis_getRedis w
  | early => exact h
  | idle => exact absurd hcalls (calls_beginCall _ _ _ _)
  | request => exact h.calm rfl rfl rfl fun _ => rfl
  | call reason exits => exact absurd hcalls (calls_beginCall _ _ _ _)
  | send t cmd a _ hf =>
    have hredis := h.flight hold hf
    have hmap : OneClient (w.mapAwait (fun b => { b with epoch := w.epoch b.client, phase := .sent }) t) :=
      h.mapAwait fun _ => rfl
    have hsame : (w.mapAwait (fun b => { b with epoch := w.epoch b.client, phase := .sent }) t).redis =
        w.redis := by
      cases t <;> rfl
    refine ⟨fun k hk => hsame.trans ?_, hmap.boot, hmap.beat⟩
    by_cases hk' : k = a.client
    · rw [hk', hredis]
    · exact h.opened k (by simpa [World.send, hk'] using hk)
  | apply t cmd =>
    have hset : OneClient (w.setPhase t .applied) := h.mapAwait fun _ => rfl
    exact hset.calm rfl rfl rfl fun _ => rfl
  | deliver t => exact h.mapAwait fun _ => rfl
  | resume t _ _ _ _ _ _ _ hr => exact h.resume hold hr
  | fail t _ _ _ _ _ _ _ hr => exact h.abandon.resume ((calls_abandon w t).trans hold) hr
  | cancel t =>
    cases t with
    | beat b =>
      refine h.calm rfl rfl rfl fun b' => ?_
      by_cases hb : b' = b <;> simp [requestCancel, hb]
    | _ => exact h.calm rfl rfl rfl fun _ => rfl
  | cancelled t _ _ _ hr => exact h.abandon.cancelled ((calls_abandon w t).trans hold) hr
  | closed i c _ hi => simp [hold] at hi
  | closeFailed i c _ hi => simp [hold] at hi
  | _ => exact h.calm rfl rfl rfl fun _ => rfl

lemma OneClient.halted (h : OneClient w) : OneClient w.halted := by
  have hflag : OneClient { w with signaled := true } := h.calm rfl rfl rfl fun _ => rfl
  have hbeat : OneClient ({ w with signaled := true }.stopHeartbeat) := by
    rw [stopHeartbeat]
    split_ifs
    · refine hflag.calm rfl rfl rfl fun b => ?_
      by_cases hb : b = .loop <;> simp [requestCancel, hb]
    · exact hflag
  rw [World.halted, stopIdleTimeout]
  split
  · exact hbeat.calm rfl rfl rfl fun _ => rfl
  · exact hbeat

lemma calls_step {a : Action} (hn : w.next cfg a = some w') (hcalls : w'.calls = []) : w.calls = [] := by
  have hprefix := reasons_kept (view_step hn)
  have hnil : w'.view.calls = [] := hcalls
  rw [hnil] at hprefix
  exact List.map_eq_nil_iff.mp (List.prefix_nil.mp hprefix)

lemma oneClient_run {as : List Action} (he : (lifecycle cfg).exec (init cfg) as = some w)
    (hcalls : w.calls = []) : OneClient w := by
  have hinit : OneClient (init cfg) := ⟨by simp [init], by simp [init], by simp [init]⟩
  have hrun : w.calls = [] → OneClient w :=
    Machine.exec_invariant (I := fun w => w.calls = [] → OneClient w) he (fun _ => hinit)
      fun _ _ _ h hn hcalls => (h (calls_step hn hcalls)).step (calls_step hn hcalls) hcalls hn
  exact hrun hcalls

end Clients

end GemmaWorker.Heartbeat
