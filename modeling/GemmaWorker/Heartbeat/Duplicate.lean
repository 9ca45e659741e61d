import GemmaWorker.Heartbeat.Orderly

/-! A first call that the later calls leave alone comes to its end. One whose client they close early may
raise. -/

namespace GemmaWorker.Heartbeat

open Python World Library

section Progress

variable {cfg : Config} {w w' : World} {first : Call} {later : List Call}

def Phase.rank : Phase → ℕ
  | .waiting => 4
  | .sent => 3
  | .applied => 2
  | .answered => 1

def CallPc.rank : CallPc → ℕ
  | .publishing _ a => 9 + a.phase.rank
  | .deleting a => 5 + a.phase.rank
  | .removing a => 1 + a.phase.rank
  | .closing => 1
  | _ => 0

def World.rank (w : World) : ℕ :=
  (w.calls.head?.map (fun c => c.pc.rank)).getD 0

def FirstReturned (w : World) : Prop :=
  ∃ first later, w.calls = first :: later ∧ first.pc = .returned

def Alive (cfg : Config) (w : World) : Prop :=
  (∃ first later, Orderly cfg w first later) ∧ (w.exited = false ∨ FirstReturned w)

lemma Orderly.advance {b : Action} {pc : CallPc} (h : Orderly cfg w first later) (hx : w.exited = false)
    (hb : callsOnly cfg w b = true) (hlate : late w b = true) (hn : w.next cfg b = some w')
    (hboot : w'.boot = w.boot) (hcalls : w'.calls = w.calls.set 0 { first with pc := pc })
    (hlt : pc.rank < first.pc.rank) : ∃ a t, (callsOnly cfg w a = true ∧ late w a = true) ∧
      (lifecycle cfg).next w a = some t ∧ Alive cfg t ∧ t.rank < w.rank := by
  have hcalls' : w'.calls = { first with pc := pc } :: later := by rw [hcalls, h.calls]; rfl
  have hrank : w'.rank < w.rank := by simpa [World.rank, hcalls', h.calls] using hlt
  refine ⟨b, w', ⟨hb, hlate⟩, hn, ⟨h.step hb hlate hn, ?_⟩, hrank⟩
  have hx' := Bool.or_eq_false_iff.mp (show (_ || w.calls.any Call.hasExited) = false from hx)
  by_cases hpc : pc = .returned
  · exact Or.inr ⟨_, later, hcalls', hpc⟩
  · left
    have hfirst : Call.hasExited { first with pc := pc } = false := by
      cases pc <;> first | rfl | exact absurd rfl hpc
    have hlater : later.any Call.hasExited = false := by
      have hall := hx'.2
      rw [h.calls, List.any_cons, Bool.or_eq_false_iff] at hall
      exact hall.2
    rw [World.exited, hboot, hcalls', hx'.1, List.any_cons, hfirst, hlater]
    rfl

lemma Orderly.next_call (h : Orderly cfg w first later) (hf : first.pc.flight cfg = some (cmd, a)) :
    w.flight cfg (.call 0) = some (cmd, a) ∧ w.cancelRequested (.call 0) = false := by
  simp [World.flight, World.cancelRequested, h.calls, hf, h.uncancelled]

lemma Orderly.advance_await (h : Orderly cfg w first later) (hx : w.exited = false)
    (hf : first.pc.flight cfg = some (cmd, a)) (ha : a.phase ≠ .answered)
    (he : a.phase = .applied → a.epoch = w.epoch a.client) :
    ∃ a t, (callsOnly cfg w a = true ∧ late w a = true) ∧
      (lifecycle cfg).next w a = some t ∧ Alive cfg t ∧ t.rank < w.rank := by
  obtain ⟨hflight, hreq⟩ := h.next_call hf
  have hfirst : w.calls[0]? = some first := by simp [h.calls]
  have hrank (f : Await → Await) (hlt : (f a).phase.rank < a.phase.rank) :
      (first.pc.mapAwait f).rank < first.pc.rank := by
    cases hpc : first.pc <;> simp [hpc, CallPc.flight] at hf
    all_goals
      obtain ⟨-, rfl⟩ := hf
      simpa [CallPc.mapAwait, CallPc.rank] using hlt
  cases hp : a.phase with
  | waiting =>
    have hn : w.next cfg (.send (.call 0)) = some (w.send (.call 0) a) := by
      simp [next, hx, run, hflight, hp, hreq]
    exact h.advance hx rfl rfl hn rfl (mapAwait_calls hfirst _) (hrank _ (by simp [hp, Phase.rank]))
  | sent =>
    have hn : w.next cfg (.apply (.call 0)) = some ((w.setPhase (.call 0) .applied).record cmd) := by
      simp [next, hflight, hp]
    exact h.advance hx rfl rfl hn rfl (mapAwait_calls hfirst _) (hrank _ (by simp [hp, Phase.rank]))
  | applied =>
    have hn : w.next cfg (.deliver (.call 0)) = some (w.setPhase (.call 0) .answered) := by
      simp [next, hx, run, hflight, hp, he hp]
    exact h.advance hx rfl rfl hn rfl (mapAwait_calls hfirst _) (hrank _ (by simp [hp, Phase.rank]))
  | answered => exact absurd hp ha

lemma Orderly.advance_close (h : Orderly cfg w first later) (hx : w.exited = false) {b : Action}
    (hb : callsOnly cfg w b = true) (hlate : late w b = true) (hn : w.next cfg b = some (w.closeRedis 0))
    (hlt : 1 < first.pc.rank) : ∃ a t, (callsOnly cfg w a = true ∧ late w a = true) ∧
      (lifecycle cfg).next w a = some t ∧ Alive cfg t ∧ t.rank < w.rank := by
  have hfirst : w.calls[0]? = some first := by simp [h.calls]
  obtain ⟨pc, hpc, hview⟩ := closeRedis_view hfirst
  have hboot : (w.closeRedis 0).boot = w.boot := by
    rw [World.closeRedis]
    split <;> rfl
  refine h.advance hx hb hlate hn hboot (congrArg View.calls hview) ?_
  rcases hpc with rfl | rfl
  · exact hlt
  · exact Nat.zero_lt_of_lt hlt

lemma Orderly.advance_first (h : Orderly cfg w first later) (hx : w.exited = false)
    (hret : first.pc ≠ .returned) : ∃ a t, (callsOnly cfg w a = true ∧ late w a = true) ∧
      (lifecycle cfg).next w a = some t ∧ Alive cfg t ∧ t.rank < w.rank := by
  have hfirst : w.calls[0]? = some first := by simp [h.calls]
  have hstage := h.stage
  have hset (pc : CallPc) :
      (w.setCall 0 pc).calls = w.calls.set 0 { first with pc := pc } := modify_eq_set hfirst _
  cases hpc : first.pc with
  | publishing m b =>
    have hf : first.pc.flight cfg = some (.publish cfg.terminateChannel m, b) := by rw [hpc]; rfl
    obtain ⟨hflight, hreq⟩ := h.next_call hf
    rw [hpc] at hstage
    have hclient := hstage.2.1
    by_cases ha : b.phase = .answered
    · have hn : w.next cfg (.resume (.call 0)) = some (w.setCall 0 (.deleting (.start w.client))) := by
        simp [next, hx, run, hflight, ha, hreq, World.resume, hfirst, resumeCall, hpc, h.reason,
          getRedis_of_some hclient.redis]
      exact h.advance hx rfl rfl hn rfl (hset _) (by simp [hpc, CallPc.rank, Phase.rank, ha])
    · exact h.advance_await hx hf ha fun hp => hclient.epoch (by simp [hp])
  | deleting b =>
    have hf : first.pc.flight cfg = some (.delete, b) := by rw [hpc]; rfl
    obtain ⟨hflight, hreq⟩ := h.next_call hf
    rw [hpc] at hstage
    by_cases ha : b.phase = .answered
    · have hn : w.next cfg (.resume (.call 0)) = some (w.setCall 0 (.removing (.start b.client))) := by
        simp [next, hx, run, hflight, ha, hreq, World.resume, hfirst, resumeCall, hpc]
      exact h.advance hx rfl rfl hn rfl (hset _) (by simp [hpc, CallPc.rank, Phase.rank, ha])
    · exact h.advance_await hx hf ha fun hp => hstage.1.epoch (by simp [hp])
  | removing b =>
    have hf : first.pc.flight cfg = some (.srem, b) := by rw [hpc]; rfl
    obtain ⟨hflight, hreq⟩ := h.next_call hf
    by_cases ha : b.phase = .answered
    · have hn : w.next cfg (.resume (.call 0)) = some (w.closeRedis 0) := by
        simp [next, hx, run, hflight, ha, hreq, World.resume, hfirst, resumeCall, hpc]
      exact h.advance_close hx rfl rfl hn (by simp [hpc, CallPc.rank, Phase.rank, ha])
    · by_cases hsevered : b.phase = .applied ∧ b.epoch ≠ w.epoch b.client
      · have hn : w.next cfg (.fail (.call 0)) = some (w.closeRedis 0) := by
          simp [next, hx, run, hflight, hreq, World.resume, World.abandon, hfirst, failCall, hpc, hsevered.1]
        have hb : callsOnly cfg w (.fail (.call 0)) = true := by simp [callsOnly, hflight, hsevered.1, hsevered.2]
        exact h.advance_close hx hb rfl hn (by simp [hpc, CallPc.rank, Phase.rank, hsevered.1])
      · exact h.advance_await hx hf ha fun hp => by
          by_contra he
          exact hsevered ⟨hp, he⟩
  | closing =>
    have hcalls : w.calls[0]? = some ⟨first.reason, first.exits, false, .closing⟩ := by
      rw [hfirst, ← h.uncancelled, ← hpc]
    have hn : w.next cfg (.closed 0) = some { w.setCall 0 .returned with redis := none } := by
      simp [next, hx, run, hcalls]
    exact h.advance hx rfl rfl hn rfl (hset _) (by simp [hpc, CallPc.rank])
  | returned => exact absurd hpc hret
  | _ =>
    rw [hpc] at hstage
    exact hstage.elim

lemma Alive.returns (h : Alive cfg w) : ∃ as t, (lifecycle cfg).Guarded
    (fun w a => callsOnly cfg w a = true ∧ late w a = true) w as ∧ (lifecycle cfg).exec w as = some t ∧
      FirstReturned t := by
  obtain ⟨as, t, hg, he, -, ht⟩ := Machine.exists_exec_of_measure (P := FirstReturned) World.rank h
    fun w hw hret => by
      obtain ⟨⟨first, later, horderly⟩, hx⟩ := hw
      exact horderly.advance_first (hx.resolve_right hret) fun hpc => hret ⟨first, later, horderly.calls, hpc⟩
  exact ⟨as, t, hg, he, ht⟩

end Progress

section Harm

variable {cfg : Config} {w w₀ : World} {first : Call} {later : List Call} {reason : PyStr} {exits : Bool}

/-- The first call does not raise. Once it has returned, and once any call has, its message is published,
the instance is deregistered and no connection is left open. It can always run to its end. -/
structure Unharmed (cfg : Config) (reason : PyStr) (w : World) : Prop where
  first : ∃ first later, w.calls = first :: later ∧ first.reason = reason ∧
    first.pc ≠ .raised ∧ first.pc ≠ .cancelled
  effects : (∃ c ∈ w.calls, c.pc = .returned) →
    Published cfg reason w ∧ Deleted w ∧ Removed w ∧ ∀ k, w.opened k = false
  returns : w.exited = false → ∃ as t, (lifecycle cfg).Guarded
    (fun w a => callsOnly cfg w a = true ∧ late w a = true) w as ∧ (lifecycle cfg).exec w as = some t ∧
      FirstReturned t

lemma Orderly.shut_of_none (h : Orderly cfg w first later) (hr : w.redis = none) (k : ℕ) :
    w.opened k = false := by
  by_contra hk
  simpa [hr] using h.opened k (by simpa using hk)

lemma Orderly.effects (h : Orderly cfg w first later) (hc : ∃ c ∈ w.calls, c.pc = .returned) :
    Published cfg first.reason w ∧ Deleted w ∧ Removed w ∧ ∀ k, w.opened k = false := by
  obtain ⟨c, hc, hpc⟩ := hc
  have hstage := h.stage
  rw [h.calls] at hc
  rcases List.mem_cons.mp hc with rfl | hc
  · rw [hpc] at hstage
    obtain ⟨hpub, hdel, hrem, hredis⟩ := hstage
    exact ⟨hpub, hdel, hrem, h.shut_of_none hredis⟩
  · have hne : later ≠ [] := List.ne_nil_of_mem hc
    have hlate : first.pc.needsClient = false := by
      by_contra hn
      exact hne (h.alone (by simpa using hn))
    cases hfirst : first.pc with
    | removing a =>
      rw [hfirst] at hstage hlate
      obtain ⟨hpub, hdel, hrem⟩ := hstage
      rw [if_neg (by simpa [CallPc.needsClient] using hlate)] at hrem
      exact ⟨hpub, hdel, hrem, h.shut hne⟩
    | closing =>
      rw [hfirst] at hstage
      exact ⟨hstage.1, hstage.2.1, hstage.2.2.1, h.shut hne⟩
    | returned =>
      rw [hfirst] at hstage
      exact ⟨hstage.1, hstage.2.1, hstage.2.2.1, h.shut hne⟩
    | publishing => simp [hfirst, CallPc.needsClient] at hlate
    | deleting => simp [hfirst, CallPc.needsClient] at hlate
    | _ =>
      rw [hfirst] at hstage
      exact hstage.elim

lemma Orderly.unharmed (h : Orderly cfg w first later) : Unharmed cfg first.reason w := by
  have hstage := h.stage
  refine ⟨⟨first, later, h.calls, rfl, fun hpc => ?_, fun hpc => ?_⟩, h.effects, fun hx => ?_⟩
  · rw [hpc] at hstage
    exact hstage
  · rw [hpc] at hstage
    exact hstage
  · exact Alive.returns ⟨⟨first, later, h⟩, Or.inl hx⟩

/-- Later calls leave the first one unharmed in every run in which they come after its last command was
applied. -/
theorem duplicate_harmless (henabled : cfg.isHeartbeatEnabled = true) (hreason : reason ≠ idleReason)
    {before as : List Action} (hbefore : (lifecycle cfg).exec (init cfg) before = some w₀)
    (hcalls : w₀.calls = []) (he : (lifecycle cfg).exec w₀ (.call reason exits :: as) = some w)
    (hg : (lifecycle cfg).Guarded (fun w a => callsOnly cfg w a = true ∧ late w a = true) w₀
      (.call reason exits :: as)) : Unharmed cfg reason w := by
  have hno : NoCall w₀.view := by
    rcases oneSignal_run hbefore with h | ⟨first, later, h⟩
    · exact h
    · rw [show w₀.calls = first :: later from h.calls] at hcalls
      cases hcalls
  obtain ⟨u, hu, he⟩ := Option.bind_eq_some_iff.mp he
  have hstep : w₀.next cfg (.call reason exits) = some u := hu
  have hbegin : w₀.beginCall cfg reason exits false = u := by
    cases next_stepped hstep with
    | call => rfl
  obtain ⟨first, hfirst⟩ := orderly_begin henabled hno (oneClient_run hbefore hcalls) hreason exits
  rw [hbegin] at hfirst
  have hfirst_reason : first.reason = reason := by
    have hucalls := hfirst.calls
    rw [← hbegin, beginCall_first henabled hno.signaled] at hucalls
    have hnil : w₀.halted.getRedis.calls = [] := by
      have hview : w₀.halted.getRedis.view = { w₀.view with signaled := true } := by simp
      exact (congrArg View.calls hview).trans hno.calls
    rw [addCall, hnil] at hucalls
    exact (congrArg Call.reason (List.cons.inj hucalls).1).symm
  obtain ⟨first', later', horderly⟩ : ∃ first later, Orderly cfg w first later :=
    Machine.Guarded.invariant (I := fun w => ∃ first later, Orderly cfg w first later) (hg.2 u hu) he
      ⟨first, [], hfirst⟩ fun _ _ _ h hb hn => by
        obtain ⟨first, later, h⟩ := h
        exact h.step hb.1 hb.2 hn
  obtain ⟨d, ds, hd, hreason'⟩ := first_reason he hfirst.calls
  obtain ⟨rfl, -⟩ := List.cons.inj (horderly.calls.symm.trans hd)
  rw [← hfirst_reason, ← hreason']
  exact horderly.unharmed

def lateTerm : List Action :=
  [.send (.call 0), .apply (.call 0), .deliver (.call 0), .resume (.call 0), .send (.call 0), .apply (.call 0),
    .deliver (.call 0), .resume (.call 0), .send (.call 0), .apply (.call 0), .call (lit "shutdown") false,
    .fail (.call 0), .closed 1]

theorem lateTerm_unharmed : ∃ w, (lifecycle .sample).exec (init .sample)
    (.bootRun :: .call (lit "unhealthy") true :: lateTerm) = some w ∧ Unharmed .sample (lit "unhealthy") w := by
  have hrun : ((lifecycle .sample).exec (init .sample)
      (.bootRun :: .call (lit "unhealthy") true :: lateTerm)).isSome = true := by decide +kernel
  have hg : (lifecycle .sample).Guarded (fun w a => callsOnly .sample w a = true ∧ late w a = true)
      ((init .sample).bootRun .sample) (.call (lit "unhealthy") true :: lateTerm) := by decide +kernel
  have hboot : (lifecycle .sample).exec (init .sample) [.bootRun] = some ((init .sample).bootRun .sample) := rfl
  obtain ⟨w, he⟩ := Option.isSome_iff_exists.mp hrun
  have hrest := he
  rw [show (.bootRun :: .call (lit "unhealthy") true :: lateTerm : List Action) =
    [.bootRun] ++ .call (lit "unhealthy") true :: lateTerm from rfl, Machine.exec_append hboot] at hrest
  exact ⟨w, he, duplicate_harmless (by decide) (by decide) hboot rfl hrest hg⟩

def earlyTerm : List Action :=
  [.call (lit "unhealthy") true, .send (.call 0), .call (lit "shutdown") false, .fail (.call 0)]

def firstRaised (w : World) : Bool :=
  match w.calls with
  | ⟨_, _, _, .raised⟩ :: _ => true
  | _ => false

theorem earlyTerm_harmed : ∃ w, (lifecycle .sample).exec (init .sample) earlyTerm = some w ∧
    (lifecycle .sample).Guarded (fun w a => callsOnly .sample w a = true) (init .sample) earlyTerm ∧
      ¬ Unharmed .sample (lit "unhealthy") w := by
  have hrun : ((lifecycle .sample).exec (init .sample) earlyTerm).any firstRaised = true := by decide +kernel
  obtain ⟨w, he, hw⟩ := (Option.any_eq_true _ _).mp hrun
  refine ⟨w, he, by decide +kernel, fun h => ?_⟩
  obtain ⟨first, later, hcalls, -, hraised, -⟩ := h.first
  rw [firstRaised, hcalls] at hw
  split at hw
  · rename_i heq
    obtain ⟨rfl, -⟩ := List.cons.inj heq
    exact hraised rfl
  · cases hw

end Harm

end GemmaWorker.Heartbeat
