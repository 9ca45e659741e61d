import GemmaWorker.Heartbeat.Clients

/-! The way of a first call of `graceful_shutdown` when the later calls, which close its client, come after
Redis has applied its `srem`. -/

namespace GemmaWorker.Heartbeat

open Python World Library

section FirstCall

variable {cfg : Config} {w w' : World} {first : Call} {later : List Call} {cmd : Command} {a : Await}

/-- The call still has to bring a command to Redis over the client. -/
def CallPc.needsClient : CallPc → Bool
  | .publishing _ _ | .deleting _ => true
  | .removing a => a.phase = .waiting ∨ a.phase = .sent
  | _ => false

structure Published (cfg : Config) (reason : PyStr) (w : World) : Prop where
  once : signalCount w.log = 1
  message : ∃ m, terminationMessage cfg reason = .ok m ∧ .publish cfg.terminateChannel m ∈ w.log

def Deleted (w : World) : Prop :=
  .delete ∈ w.log ∧ w.registry.entry = none

def Removed (w : World) : Prop :=
  .srem ∈ w.log ∧ w.registry.member = false

structure HasClient (w : World) (a : Await) : Prop where
  redis : w.redis = some a.client
  epoch : a.phase ≠ .waiting → a.epoch = w.epoch a.client

def Stage (cfg : Config) (reason : PyStr) (w : World) : CallPc → Prop
  | .publishing m a =>
    terminationMessage cfg reason = .ok m ∧ HasClient w a ∧
      if a.phase = .waiting ∨ a.phase = .sent then signalCount w.log = 0 else Published cfg reason w
  | .deleting a =>
    HasClient w a ∧ Published cfg reason w ∧ (a.phase = .applied ∨ a.phase = .answered → Deleted w)
  | .removing a =>
    Published cfg reason w ∧ Deleted w ∧
      if a.phase = .waiting ∨ a.phase = .sent then HasClient w a else Removed w
  | .closing => Published cfg reason w ∧ Deleted w ∧ Removed w ∧ ∀ k, w.opened k = false
  | .returned => Published cfg reason w ∧ Deleted w ∧ Removed w ∧ w.redis = none
  | _ => False

/-- The first call goes its way, and the later calls have come after its last command was applied. -/
structure Orderly (cfg : Config) (w : World) (first : Call) (later : List Call) : Prop where
  calls : w.calls = first :: later
  signaled : w.signaled = true
  reason : first.reason ≠ idleReason
  uncancelled : first.cancelRequested = false
  alone : first.pc.needsClient = true → later = []
  later_closing : ∀ c ∈ later, c.pc = .closing ∨ c.pc = .returned ∧ w.redis = none
  shut : later ≠ [] → ∀ k, w.opened k = false
  opened : ∀ k, w.opened k = true → w.redis = some k
  orphans : ∀ cmd ∈ w.orphans, cmd.writes = true
  stage : Stage cfg first.reason w first.pc

lemma Published.append {reason : PyStr} (h : Published cfg reason w) (hl : w'.log = w.log ++ [cmd])
    (hs : cmd.signals = false) : Published cfg reason w' := by
  obtain ⟨m, hm, hmem⟩ := h.message
  refine ⟨?_, m, hm, hl ▸ List.mem_append_left _ hmem⟩
  rw [hl, signalCount_append, h.once]
  simp [signalCount, hs]

lemma Published.of_log {reason : PyStr} (h : Published cfg reason w) (hl : w'.log = w.log) :
    Published cfg reason w' := by
  refine ⟨by rw [hl, h.once], ?_⟩
  rw [hl]
  exact h.message

lemma hasClient_start {k : ℕ} (h : w.redis = some k) : HasClient w (.start k) :=
  ⟨h, by simp [Await.start]⟩

lemma Orderly.flight (h : Orderly cfg w first later) {i : ℕ} (hf : w.flight cfg (.call i) = some (cmd, a)) :
    i = 0 ∧ first.pc.flight cfg = some (cmd, a) := by
  obtain ⟨c, hc, hcf⟩ := flight_call hf
  rw [h.calls] at hc
  cases i with
  | zero =>
    obtain rfl := Option.some.inj hc
    exact ⟨rfl, hcf⟩
  | succ i =>
    rcases h.later_closing c (List.mem_of_getElem? hc) with hpc | ⟨hpc, _⟩ <;> simp [hpc, CallPc.flight] at hcf

lemma Orderly.alone_step (h : Orderly cfg w first later) (hn : first.pc.needsClient = true) {pc : CallPc}
    (hcalls : w'.calls = w.calls.set 0 { first with pc := pc }) (hs : w'.signaled = w.signaled)
    (ho : ∀ k, w'.opened k = true → w'.redis = some k) (hor : w'.orphans = w.orphans)
    (hstage : Stage cfg first.reason w' pc) : Orderly cfg w' { first with pc := pc } later := by
  have hlater := h.alone hn
  subst hlater
  refine ⟨by simp [hcalls, h.calls], hs.trans h.signaled, h.reason, h.uncancelled, fun _ => rfl, by simp,
    by simp, ho, fun x hx => h.orphans x (hor ▸ hx), hstage⟩

lemma mapAwait_calls {i : ℕ} (hc : w.calls[i]? = some first) (f : Await → Await) : (w.mapAwait f (.call i)).calls =
    w.calls.set i { first with pc := first.pc.mapAwait f } := by
  exact modify_eq_set hc _

lemma Orderly.send (h : Orderly cfg w first later) (hf : first.pc.flight cfg = some (cmd, a))
    (ha : a.phase = .waiting) : ∃ first, Orderly cfg (w.send (.call 0) a) first later := by
  have hfirst : w.calls[0]? = some first := by simp [h.calls]
  have hstage := h.stage
  have hmap := mapAwait_calls hfirst fun b => { b with epoch := w.epoch b.client, phase := .sent }
  have hopened (hr : w.redis = some a.client) (k : ℕ) (hk : (w.send (.call 0) a).opened k = true) :
      (w.send (.call 0) a).redis = some k := by
    by_cases hk' : k = a.client
    · rw [hk']
      exact hr
    · exact h.opened k (by simpa [World.send, hk'] using hk)
  cases hpc : first.pc with
  | publishing m b =>
    rw [hpc] at hf hstage hmap
    obtain rfl := (Prod.mk.inj (Option.some.inj hf)).2
    rw [Stage, if_pos (Or.inl ha)] at hstage
    obtain ⟨hm, hclient, hcount⟩ := hstage
    refine ⟨_, h.alone_step (by rw [hpc]; rfl) hmap rfl (hopened hclient.redis) rfl ?_⟩
    refine ⟨hm, ⟨hclient.redis, fun _ => rfl⟩, ?_⟩
    rw [if_pos (Or.inr rfl)]
    exact hcount
  | deleting b =>
    rw [hpc] at hf hstage hmap
    obtain rfl := (Prod.mk.inj (Option.some.inj hf)).2
    obtain ⟨hclient, hpub, _⟩ := hstage
    refine ⟨_, h.alone_step (by rw [hpc]; rfl) hmap rfl (hopened hclient.redis) rfl ?_⟩
    exact ⟨⟨hclient.redis, fun _ => rfl⟩, hpub.of_log rfl, by simp⟩
  | removing b =>
    rw [hpc] at hf hstage hmap
    obtain rfl := (Prod.mk.inj (Option.some.inj hf)).2
    rw [Stage, if_pos (Or.inl ha)] at hstage
    obtain ⟨hpub, hdel, hclient⟩ := hstage
    refine ⟨_, h.alone_step (by simp [hpc, CallPc.needsClient, ha]) hmap rfl (hopened hclient.redis) rfl ?_⟩
    refine ⟨hpub.of_log rfl, hdel, ?_⟩
    rw [if_pos (Or.inr rfl)]
    exact ⟨hclient.redis, fun _ => rfl⟩
  | _ => simp [hpc, CallPc.flight] at hf

lemma Orderly.apply (h : Orderly cfg w first later) (hf : first.pc.flight cfg = some (cmd, a))
    (ha : a.phase = .sent) : ∃ first, Orderly cfg ((w.setPhase (.call 0) .applied).record cmd) first later := by
  have hfirst : w.calls[0]? = some first := by simp [h.calls]
  have hstage := h.stage
  have hmap := mapAwait_calls hfirst fun b => { b with phase := .applied }
  cases hpc : first.pc with
  | publishing m b =>
    rw [hpc] at hf hstage hmap
    obtain ⟨rfl, rfl⟩ := Prod.mk.inj (Option.some.inj hf)
    rw [Stage, if_pos (Or.inr ha)] at hstage
    obtain ⟨hm, hclient, hcount⟩ := hstage
    refine ⟨_, h.alone_step (by rw [hpc]; rfl) hmap rfl h.opened rfl ?_⟩
    refine ⟨hm, ⟨hclient.redis, fun _ => hclient.epoch (by simp [ha])⟩, ?_⟩
    rw [if_neg (by simp)]
    refine ⟨?_, m, hm, List.mem_append_right _ (by simp)⟩
    have hcount' : signalCount (w.log ++ [.publish cfg.terminateChannel m]) = 1 := by
      rw [signalCount_append, hcount]
      rfl
    exact hcount'
  | deleting b =>
    rw [hpc] at hf hstage hmap
    obtain ⟨rfl, rfl⟩ := Prod.mk.inj (Option.some.inj hf)
    obtain ⟨hclient, hpub, _⟩ := hstage
    refine ⟨_, h.alone_step (by rw [hpc]; rfl) hmap rfl h.opened rfl ?_⟩
    refine ⟨⟨hclient.redis, fun _ => hclient.epoch (by simp [ha])⟩, hpub.append rfl rfl, fun _ => ?_⟩
    exact ⟨List.mem_append_right _ (by simp), rfl⟩
  | removing b =>
    rw [hpc] at hf hstage hmap
    obtain ⟨rfl, rfl⟩ := Prod.mk.inj (Option.some.inj hf)
    obtain ⟨hpub, hdel, _⟩ := hstage
    refine ⟨_, h.alone_step (by simp [hpc, CallPc.needsClient, ha]) hmap rfl h.opened rfl ?_⟩
    refine ⟨hpub.append rfl rfl, ⟨List.mem_append_left _ hdel.1, hdel.2⟩, ?_⟩
    rw [if_neg (by simp)]
    exact ⟨List.mem_append_right _ (by simp), rfl⟩
  | _ => simp [hpc, CallPc.flight] at hf

lemma Orderly.own_step (h : Orderly cfg w first later) {pc : CallPc} (hn : pc.needsClient = true → later = [])
    (hcalls : w'.calls = w.calls.set 0 { first with pc := pc }) (hs : w'.signaled = w.signaled)
    (hr : w'.redis = w.redis ∨ w'.redis = none)
    (ho : ∀ k, w'.opened k = true → w.opened k = true ∧ w'.redis = some k) (hor : w'.orphans = w.orphans)
    (hstage : Stage cfg first.reason w' pc) : Orderly cfg w' { first with pc := pc } later := by
  refine ⟨by simp [hcalls, h.calls], hs.trans h.signaled, h.reason, h.uncancelled, hn, fun c hc => ?_,
    fun hne k => ?_, fun k hk => (ho k hk).2, fun x hx => h.orphans x (hor ▸ hx), hstage⟩
  · refine (h.later_closing c hc).imp_right fun hret => ⟨hret.1, ?_⟩
    rcases hr with hr | hr
    · exact hr.trans hret.2
    · exact hr
  · by_contra hk
    have hold := (ho k (by simpa using hk)).1
    simp [h.shut hne k] at hold

lemma Orderly.deliver (h : Orderly cfg w first later) (hf : first.pc.flight cfg = some (cmd, a))
    (ha : a.phase = .applied) (he : a.epoch = w.epoch a.client) :
    ∃ first, Orderly cfg (w.setPhase (.call 0) .answered) first later := by
  have hfirst : w.calls[0]? = some first := by simp [h.calls]
  have hstage := h.stage
  have hmap := mapAwait_calls hfirst fun b => { b with phase := .answered }
  have hopened (k : ℕ) (hk : w.opened k = true) : w.opened k = true ∧ w.redis = some k := ⟨hk, h.opened k hk⟩
  cases hpc : first.pc with
  | publishing m b =>
    rw [hpc] at hf hstage hmap
    obtain ⟨rfl, rfl⟩ := Prod.mk.inj (Option.some.inj hf)
    rw [Stage, if_neg (by simp [ha])] at hstage
    obtain ⟨hm, hclient, hpub⟩ := hstage
    refine ⟨_, h.own_step (fun _ => h.alone (by rw [hpc]; rfl)) hmap rfl (Or.inl rfl) hopened rfl ?_⟩
    refine ⟨hm, ⟨hclient.redis, fun _ => he⟩, ?_⟩
    rw [if_neg (by simp)]
    exact hpub.of_log rfl
  | deleting b =>
    rw [hpc] at hf hstage hmap
    obtain ⟨rfl, rfl⟩ := Prod.mk.inj (Option.some.inj hf)
    obtain ⟨hclient, hpub, hdel⟩ := hstage
    refine ⟨_, h.own_step (fun _ => h.alone (by rw [hpc]; rfl)) hmap rfl (Or.inl rfl) hopened rfl ?_⟩
    exact ⟨⟨hclient.redis, fun _ => he⟩, hpub.of_log rfl, fun _ => hdel (Or.inl ha)⟩
  | removing b =>
    rw [hpc] at hf hstage hmap
    obtain ⟨rfl, rfl⟩ := Prod.mk.inj (Option.some.inj hf)
    rw [Stage, if_neg (by simp [ha])] at hstage
    obtain ⟨hpub, hdel, hrem⟩ := hstage
    refine ⟨_, h.own_step (by simp [CallPc.mapAwait, CallPc.needsClient]) hmap rfl (Or.inl rfl) hopened rfl ?_⟩
    refine ⟨hpub.of_log rfl, hdel, ?_⟩
    rw [if_neg (by simp)]
    exact hrem
  | _ => simp [hpc, CallPc.flight] at hf

lemma Orderly.closeRedis (h : Orderly cfg w first later) (hpub : Published cfg first.reason w)
    (hdel : Deleted w) (hrem : Removed w) : ∃ first, Orderly cfg (w.closeRedis 0) first later := by
  have hfirst : w.calls[0]? = some first := by simp [h.calls]
  rw [World.closeRedis]
  cases hr : w.redis with
  | none =>
    have hset : (w.setCall 0 .returned).calls = w.calls.set 0 { first with pc := .returned } :=
      modify_eq_set hfirst _
    refine ⟨_, h.own_step (by simp [CallPc.needsClient]) hset rfl (Or.inl rfl)
      (fun k hk => ⟨hk, h.opened k hk⟩) rfl ⟨hpub.of_log rfl, hdel, hrem, hr⟩⟩
  | some c =>
    have hset : ((w.closeClient c).setCall 0 .closing).calls = w.calls.set 0 { first with pc := .closing } :=
      modify_eq_set hfirst _
    have hopened (k : ℕ) : (w.closeClient c).opened k = false := by
      by_cases hk : k = c
      · simp [closeClient, hk]
      · by_contra hopen
        have hk' := h.opened k (by simpa [closeClient, hk] using hopen)
        exact hk (Option.some.inj (hk'.symm.trans hr))
    refine ⟨_, h.own_step (by simp [CallPc.needsClient]) hset rfl (Or.inl rfl) (fun k hk => ?_) rfl
      ⟨hpub.of_log rfl, hdel, hrem, hopened⟩⟩
    simp [World.setCall, modifyCall, hopened k] at hk

lemma Orderly.resume (h : Orderly cfg w first later) (hf : first.pc.flight cfg = some (cmd, a))
    (ha : a.phase = .answered) (hr : w.resumeCall 0 first = some w') : ∃ first, Orderly cfg w' first later := by
  have hfirst : w.calls[0]? = some first := by simp [h.calls]
  have hstage := h.stage
  have hopened (k : ℕ) (hk : w.opened k = true) : w.opened k = true ∧ w.redis = some k := ⟨hk, h.opened k hk⟩
  cases hpc : first.pc with
  | publishing m b =>
    rw [hpc] at hf hstage
    obtain ⟨rfl, rfl⟩ := Prod.mk.inj (Option.some.inj hf)
    rw [Stage, if_neg (by simp [ha])] at hstage
    obtain ⟨hm, hclient, hpub⟩ := hstage
    rw [resumeCall, hpc] at hr
    simp only [if_neg h.reason, getRedis_of_some hclient.redis] at hr
    obtain rfl := Option.some.inj hr
    have hset : (w.setCall 0 (.deleting (.start w.client))).calls =
        w.calls.set 0 { first with pc := .deleting (.start w.client) } := modify_eq_set hfirst _
    refine ⟨_, h.own_step (fun _ => h.alone (by rw [hpc]; rfl)) hset rfl (Or.inl rfl) hopened rfl ?_⟩
    have hredis : w.redis = some w.client := by rw [client, hclient.redis, Option.getD_some]
    exact ⟨hasClient_start hredis, hpub.of_log rfl, by simp [Await.start]⟩
  | deleting b =>
    rw [hpc] at hf hstage
    obtain ⟨rfl, rfl⟩ := Prod.mk.inj (Option.some.inj hf)
    obtain ⟨hclient, hpub, hdel⟩ := hstage
    rw [resumeCall, hpc] at hr
    obtain rfl := Option.some.inj hr
    have hset : (w.setCall 0 (.removing (.start b.client))).calls =
        w.calls.set 0 { first with pc := .removing (.start b.client) } := modify_eq_set hfirst _
    refine ⟨_, h.own_step (fun _ => h.alone (by rw [hpc]; rfl)) hset rfl (Or.inl rfl) hopened rfl ?_⟩
    refine ⟨hpub.of_log rfl, hdel (Or.inr ha), ?_⟩
    rw [if_pos (Or.inl (Await.phase_start _))]
    exact hasClient_start hclient.redis
  | removing b =>
    rw [hpc] at hf hstage
    obtain ⟨rfl, rfl⟩ := Prod.mk.inj (Option.some.inj hf)
    rw [Stage, if_neg (by simp [ha])] at hstage
    obtain ⟨hpub, hdel, hrem⟩ := hstage
    rw [resumeCall, hpc] at hr
    obtain rfl := Option.some.inj hr
    exact h.closeRedis hpub hdel hrem
  | _ => simp [hpc, CallPc.flight] at hf

lemma Orderly.fail (h : Orderly cfg w first later) (hf : first.pc.flight cfg = some (cmd, a))
    (hsent : a.phase = .sent ∨ a.phase = .applied) (he : a.epoch ≠ w.epoch a.client)
    (hr : (w.abandon cfg (.call 0)).failCall 0 first = some w') : ∃ first, Orderly cfg w' first later := by
  have hstage := h.stage
  have hwaiting : a.phase ≠ .waiting := by rcases hsent with hp | hp <;> simp [hp]
  cases hpc : first.pc with
  | publishing m b =>
    rw [hpc] at hf hstage
    obtain ⟨rfl, rfl⟩ := Prod.mk.inj (Option.some.inj hf)
    exact absurd (hstage.2.1.epoch hwaiting) he
  | deleting b =>
    rw [hpc] at hf hstage
    obtain ⟨rfl, rfl⟩ := Prod.mk.inj (Option.some.inj hf)
    exact absurd (hstage.1.epoch hwaiting) he
  | removing b =>
    rw [hpc] at hf hstage
    obtain ⟨rfl, rfl⟩ := Prod.mk.inj (Option.some.inj hf)
    rcases hsent with hp | hp
    · rw [Stage, if_pos (Or.inr hp)] at hstage
      exact absurd (hstage.2.2.epoch hwaiting) he
    · rw [Stage, if_neg (by simp [hp])] at hstage
      obtain ⟨hpub, hdel, hrem⟩ := hstage
      have hstay : w.abandon cfg (.call 0) = w := by
        simp [World.abandon, World.flight, h.calls, hpc, CallPc.flight, hp]
      rw [hstay, failCall, hpc] at hr
      obtain rfl := Option.some.inj hr
      exact h.closeRedis hpub hdel hrem
  | _ => simp [hpc, CallPc.flight] at hf

lemma Stage.late {reason : PyStr} {pc : CallPc} (h : Stage cfg reason w pc) (hn : pc.needsClient = false)
    (hl : w'.log = w.log) (hreg : w'.registry = w.registry)
    (ho : ∀ k, w'.opened k = true → w.opened k = true) (hr : w'.redis = w.redis ∨ w'.redis = none) :
    Stage cfg reason w' pc := by
  have hdeleted (hd : Deleted w) : Deleted w' := ⟨hl ▸ hd.1, hreg ▸ hd.2⟩
  have hremoved (hd : Removed w) : Removed w' := ⟨hl ▸ hd.1, hreg ▸ hd.2⟩
  cases pc with
  | removing a =>
    have hphase : ¬ (a.phase = .waiting ∨ a.phase = .sent) := by simpa [CallPc.needsClient] using hn
    obtain ⟨hpub, hdel, hrem⟩ := h
    rw [if_neg hphase] at hrem
    refine ⟨hpub.of_log hl, hdeleted hdel, ?_⟩
    rw [if_neg hphase]
    exact hremoved hrem
  | closing =>
    obtain ⟨hpub, hdel, hrem, hopened⟩ := h
    refine ⟨hpub.of_log hl, hdeleted hdel, hremoved hrem, fun k => ?_⟩
    by_contra hk
    simpa [hopened k] using ho k (by simpa using hk)
  | returned =>
    obtain ⟨hpub, hdel, hrem, hredis⟩ := h
    exact ⟨hpub.of_log hl, hdeleted hdel, hremoved hrem, hr.elim (fun hr => hr.trans hredis) id⟩
  | publishing => cases hn
  | deleting => cases hn
  | _ => exact h

lemma Orderly.call (h : Orderly cfg w first later) (hlate : first.pc.needsClient = false) (reason : PyStr)
    (exits : Bool) : ∃ later, Orderly cfg (w.beginCall cfg reason exits false) first later := by
  rw [beginCall, if_pos h.signaled]
  cases hr : w.redis with
  | none =>
    have hclosed (k : ℕ) : w.opened k = false := by
      by_contra hk
      simpa [hr] using h.opened k (by simpa using hk)
    refine ⟨later ++ [⟨reason, exits, false, .returned⟩], ⟨by simp [addCall, h.calls], h.signaled, h.reason,
      h.uncancelled, by simp [hlate], fun c hc => ?_, fun _ k => hclosed k, h.opened, h.orphans,
      h.stage.late hlate rfl rfl (fun _ => id) (Or.inl rfl)⟩⟩
    rcases List.mem_append.mp hc with hc | hc
    · exact h.later_closing c hc
    · rw [List.mem_singleton.mp hc]
      exact Or.inr ⟨rfl, hr⟩
  | some c =>
    have hclosed (k : ℕ) : (w.closeClient c).opened k = false := by
      by_cases hk : k = c
      · simp [closeClient, hk]
      · by_contra hopen
        have hk' := h.opened k (by simpa [closeClient, hk] using hopen)
        exact hk (Option.some.inj (hk'.symm.trans hr))
    have hnone {k : ℕ} {P : Prop} (hk : (w.closeClient c).opened k = true) : P := by simp [hclosed k] at hk
    refine ⟨later ++ [⟨reason, exits, false, .closing⟩], ⟨by simp [addCall, closeClient, h.calls], h.signaled,
      h.reason, h.uncancelled, by simp [hlate], fun d hd => ?_, fun _ k => hclosed k, fun k hk => hnone hk,
      h.orphans, h.stage.late hlate rfl rfl (fun k hk => hnone hk) (Or.inl rfl)⟩⟩
    rcases List.mem_append.mp hd with hd | hd
    · exact h.later_closing d hd
    · rw [List.mem_singleton.mp hd]
      exact Or.inl rfl

lemma Orderly.closed (h : Orderly cfg w first later) {i : ℕ} {c : Call} (hi : w.calls[i]? = some c)
    (hpc : c.pc = .closing) :
    ∃ first later, Orderly cfg { w.setCall i .returned with redis := none } first later := by
  have hfirst := hi
  rw [h.calls] at hi
  have hset : (w.setCall i .returned).calls = w.calls.set i { c with pc := .returned } := modify_eq_set hfirst _
  cases i with
  | zero =>
    obtain rfl := Option.some.inj hi
    have hstage := h.stage
    rw [hpc] at hstage
    obtain ⟨hpub, hdel, hrem, hopened⟩ := hstage
    refine ⟨_, later, h.own_step (by simp [CallPc.needsClient]) hset rfl (Or.inr rfl) (fun k hk => ?_) rfl
      ⟨hpub.of_log rfl, hdel, hrem, rfl⟩⟩
    simp [World.setCall, modifyCall, hopened k] at hk
  | succ i =>
    have hmem : c ∈ later := List.mem_of_getElem? hi
    have hne : later ≠ [] := List.ne_nil_of_mem hmem
    have hlate : first.pc.needsClient = false := by
      by_contra hn
      exact hne (h.alone (by simpa using hn))
    have hnone {k : ℕ} {P : Prop} (hk : w.opened k = true) : P := by simp [h.shut hne k] at hk
    refine ⟨first, later.set i { c with pc := .returned }, ⟨?_, h.signaled, h.reason, h.uncancelled,
      by simp [hlate], fun d hd => ?_, fun _ k => h.shut hne k, fun k hk => hnone hk, h.orphans,
      h.stage.late hlate rfl rfl (fun _ => id) (Or.inr rfl)⟩⟩
    · rw [hset, h.calls]
      rfl
    · rcases List.mem_or_eq_of_mem_set hd with hd | rfl
      · exact (h.later_closing d hd).imp_right fun hret => ⟨hret.1, rfl⟩
      · exact Or.inr ⟨rfl, rfl⟩

lemma Orderly.expire (h : Orderly cfg w first later) :
    Orderly cfg { w with registry := w.registry.expire } first later := by
  have hdeleted (hd : Deleted w) : Deleted { w with registry := w.registry.expire } := by
    refine ⟨hd.1, ?_⟩
    simp [Registry.expire, hd.2]
  have hstage := h.stage
  refine ⟨h.calls, h.signaled, h.reason, h.uncancelled, h.alone, h.later_closing, h.shut, h.opened,
    h.orphans, ?_⟩
  cases hpc : first.pc with
  | publishing m b =>
    rw [hpc] at hstage
    refine ⟨hstage.1, ⟨hstage.2.1.redis, hstage.2.1.epoch⟩, ?_⟩
    have hsent := hstage.2.2
    split_ifs at hsent ⊢
    · exact hsent
    · exact hsent.of_log rfl
  | deleting b =>
    rw [hpc] at hstage
    obtain ⟨hclient, hpub, hdel⟩ := hstage
    exact ⟨⟨hclient.redis, hclient.epoch⟩, hpub.of_log rfl, fun hp => hdeleted (hdel hp)⟩
  | removing b =>
    rw [hpc] at hstage
    obtain ⟨hpub, hdel, hrem⟩ := hstage
    refine ⟨hpub.of_log rfl, hdeleted hdel, ?_⟩
    split_ifs at hrem ⊢
    · exact ⟨hrem.redis, hrem.epoch⟩
    · exact hrem
  | closing =>
    rw [hpc] at hstage
    exact ⟨hstage.1.of_log rfl, hdeleted hstage.2.1, hstage.2.2⟩
  | returned =>
    rw [hpc] at hstage
    exact ⟨hstage.1.of_log rfl, hdeleted hstage.2.1, hstage.2.2⟩
  | _ =>
    rw [hpc] at hstage
    exact hstage

/-- Only the calls take steps, and Redis accepts what they send on connections that are still open. -/
def callsOnly (cfg : Config) (w : World) : Action → Bool
  | .call _ _ | .closed _ | .expire => true
  | .send (.call _) | .apply (.call _) | .deliver (.call _) | .resume (.call _) => true
  | .fail (.call i) => (w.flight cfg (.call i)).any (fun f =>
      (f.2.phase = .sent ∨ f.2.phase = .applied) ∧ f.2.epoch ≠ w.epoch f.2.client)
  | .applyOrphan k | .dropOrphan k => w.orphans[k]?.any (fun cmd => !cmd.writes)
  | _ => false

/-- A call begins only after the commands of the calls before it. -/
def late (w : World) : Action → Bool
  | .call _ _ => w.calls.all (fun c => !c.pc.needsClient)
  | _ => true

theorem Orderly.step {b : Action} (h : Orderly cfg w first later) (hb : callsOnly cfg w b = true)
    (hlate : late w b = true) (hn : w.next cfg b = some w') : ∃ first later, Orderly cfg w' first later := by
  have horphan {k : ℕ} {cmd : Command} {P : Prop} (hk : w.orphans[k]? = some cmd)
      (hw : w.orphans[k]?.any (fun cmd => !cmd.writes) = true) : P := by
    simp [hk, h.orphans cmd (List.mem_of_getElem? hk)] at hw
  cases next_stepped hn with
  | call reason exits =>
    refine ⟨first, h.call ?_ reason exits⟩
    have hall : ∀ c ∈ w.calls, c.pc.needsClient = false := by simpa [late] using hlate
    exact hall first (by simp [h.calls])
  | send t cmd a _ hf ha =>
    cases t with
    | call i =>
      obtain ⟨rfl, hcf⟩ := h.flight hf
      obtain ⟨first, h⟩ := h.send hcf ha
      exact ⟨first, later, h⟩
    | _ => cases hb
  | apply t cmd a hf ha =>
    cases t with
    | call i =>
      obtain ⟨rfl, hcf⟩ := h.flight hf
      obtain ⟨first, h⟩ := h.apply hcf ha
      exact ⟨first, later, h⟩
    | _ => cases hb
  | deliver t cmd a _ hf ha he =>
    cases t with
    | call i =>
      obtain ⟨rfl, hcf⟩ := h.flight hf
      obtain ⟨first, h⟩ := h.deliver hcf ha he
      exact ⟨first, later, h⟩
    | _ => cases hb
  | resume t cmd a _ _ hf ha _ hr =>
    cases t with
    | call i =>
      obtain ⟨rfl, hcf⟩ := h.flight hf
      have hcalls : w.calls[0]? = some first := by simp [h.calls]
      simp only [World.resume, hcalls, Option.bind_some, if_true] at hr
      obtain ⟨first, h⟩ := h.resume hcf ha hr
      exact ⟨first, later, h⟩
    | _ => cases hb
  | fail t cmd a _ _ hf _ _ hr =>
    cases t with
    | call i =>
      obtain ⟨rfl, hcf⟩ := h.flight hf
      obtain ⟨hsent, he⟩ : (a.phase = .sent ∨ a.phase = .applied) ∧ a.epoch ≠ w.epoch a.client := by
        simpa [callsOnly, hf] using hb
      have hcalls : (w.abandon cfg (.call 0)).calls[0]? = some first := by simp [calls_abandon, h.calls]
      simp only [World.resume, hcalls, Option.bind_some, Bool.false_eq_true, if_false] at hr
      obtain ⟨first, h⟩ := h.fail hcf hsent he hr
      exact ⟨first, later, h⟩
    | _ => cases hb
  | closed i c _ hi hpc => exact h.closed hi hpc
  | applyOrphan k cmd hk => exact horphan hk hb
  | dropOrphan k cmd hk => exact horphan hk hb
  | expire => exact ⟨first, later, h.expire⟩
  | _ => cases hb

end FirstCall

section Begin

variable {cfg : Config} {w : World}

lemma orderly_begin (henabled : cfg.isHeartbeatEnabled = true) (hno : NoCall w.view) (hw : OneClient w)
    {reason : PyStr} (hr : reason ≠ idleReason) (exits : Bool) :
    ∃ first, Orderly cfg (w.beginCall cfg reason exits false) first [] := by
  have hlog : ∀ cmd ∈ w.log, cmd.writes = true := hno.log
  have horphans : ∀ cmd ∈ w.orphans, cmd.writes = true := hno.orphans
  have hview : w.halted.getRedis.view = { w.view with signaled := true } := by simp
  have hone : OneClient w.halted.getRedis := hw.halted.getRedis
  have hcalls : w.halted.getRedis.calls = [] := (congrArg View.calls hview).trans hno.calls
  have hlog' : w.halted.getRedis.log = w.log := congrArg View.log hview
  have horphans' : w.halted.getRedis.orphans = w.orphans := congrArg View.orphans hview
  rw [beginCall_first henabled hno.signaled]
  refine ⟨_, ⟨by rw [addCall, hcalls]; rfl, congrArg View.signaled hview, hr, rfl, fun _ => rfl, by simp,
    by simp, hone.opened, fun x hx => horphans x (horphans' ▸ hx), ?_⟩⟩
  refine ⟨terminationMessage_eq cfg reason, hasClient_start (redis_getRedis w.halted), ?_⟩
  rw [if_pos (Or.inl (Await.phase_start _))]
  exact (congrArg signalCount hlog').trans (signalCount_writes hlog)

end Begin

end GemmaWorker.Heartbeat
