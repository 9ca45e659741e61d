import GemmaWorker.Heartbeat.Readiness
import GemmaWorker.Server.CudaFatal
import GemmaWorker.Server.IdleWindow

/-! The whole worker process: the boot, heartbeat and shutdown tasks beside the HTTP requests. They share
the load tracker and the flag that the engines are ready. -/

namespace GemmaWorker.Server

open Python Heartbeat Library

structure Worker where
  world : World
  ready : Bool
  clock : ℚ
  requests : List Request
  fatal : ℕ

namespace Worker

section Machine

variable (cfg : Config) (w : Worker)

def init : Worker := ⟨.init cfg, false, cfg.startTime, [], 0⟩

/-- The part of the worker that answers requests. -/
def serving : State := ⟨w.ready, w.clock, w.world.tracker, .absent, w.requests⟩

/-- A step of a task of the life cycle, a stretch of a request, or the start of a `_fatal_shutdown` task. -/
inductive Action
  | life (a : World.Action)
  | serve (a : Server.Action)
  | fatalShutdown

def time : World.Action → Option ℚ
  | .wakeBeat _ now | .tick now => some now
  | _ => none

def isHttp : Event → Bool
  | .arrive | .body _ _ | .engine _ _ | .pull _ | .cancel _ => true
  | _ => false

/-- The handlers of `_non_stream_response` and `_stream_response` look at the text of an exception. -/
def schedulesFatal (s : State) : Event → Bool
  | .engine i (.raised text) =>
    match s.requests[i]?.map Request.pc with
    | some (.collecting _) | some .awaiting => isCuda text
    | _ => false
  | _ => false

def fatalAfter (e : Event) : ℕ :=
  if schedulesFatal w.serving e then w.fatal + 1 else w.fatal

def next : Action → Option Worker
  | .life a =>
    if World.isRequest a = false ∧ ∀ now ∈ time a, w.clock ≤ now then
      (w.world.next cfg a).map (fun world =>
        { w with
          world := world
          ready := w.ready || w.world.readies cfg a
          clock := (time a).getD w.clock })
    else none
  | .serve a =>
    if w.world.exited = false ∧ isHttp a.event = true then
      (w.serving.next cfg a).map (fun s =>
        { world := { w.world with tracker := s.tracker }
          ready := s.enginesReady
          clock := s.clock
          requests := s.requests
          fatal := w.fatalAfter a.event })
    else none
  | .fatalShutdown =>
    if w.world.exited = false ∧ 0 < w.fatal then
      some { w with world := w.world.beginCall cfg unhealthyReason true false, fatal := w.fatal - 1 }
    else none

end Machine

end Worker

def worker (cfg : Config) : Machine Worker Worker.Action := ⟨Worker.next cfg⟩

section Routes

variable (cfg : Config) (w : Worker)

def ping : Except PyStr Response :=
  if w.ready then jsonResponse 200 (.dict [(lit "status", .str (lit "ok"))]) else .ok ⟨204, []⟩

def ready : Except PyStr Response :=
  if w.ready then
    jsonResponse 200 (.dict [(lit "status", .str (lit "ready")), (lit "heartbeat", .str w.world.status.text)])
  else
    jsonResponse 503 (.dict [(lit "status", .str (lit "loading")), (lit "heartbeat", .str w.world.status.text)])

def health : Except PyStr Response :=
  jsonResponse 200 (.dict [(lit "status", .str (lit "ok")), (lit "heartbeat", .str w.world.status.text),
    (lit "load", .int w.world.tracker.load)])

end Routes

namespace State
variable {cfg : Config} {s t : State} {now later c : ℚ} {e : Event} {a : Action}

def atTime (s : State) (clock : ℚ) : State := { s with clock := clock }

lemma advance_at (i : ℕ) (r : Request) (rest : List PyStr) (last : Bool) :
    (s.atTime c).advance now i r rest last = (s.advance now i r rest last).atTime c := by
  rw [advance.eq_def, advance.eq_def]
  split <;> rfl

lemma finishNonStream_at (i : ℕ) (r : Request) (answer : Except PyStr Response) :
    (s.atTime c).finishNonStream now later i r answer = (s.finishNonStream now later i r answer).atTime c := by
  cases answer <;> rfl

/-- No request and no boot step reads the time of the last step. -/
lemma step_atTime : (s.atTime c).step cfg now later e = (s.step cfg now later e).map (fun t => t.atTime c) := by
  have hrequests : (s.atTime c).requests = s.requests := rfl
  cases e with
  | enginesReady => rfl
  | startIdleTimeout =>
    rw [step, step, startIdleTimeout, startIdleTimeout]
    have hmonitor : (s.atTime c).monitor = s.monitor := rfl
    rw [hmonitor]
    cases s.monitor <;> first | rfl | (simp only [Option.map_some]; split_ifs <;> rfl)
  | arrive =>
    have hready : (s.atTime c).enginesReady = s.enginesReady := rfl
    rw [step, step, hready, Option.map_some]
    split_ifs <;> rfl
  | body i content =>
    rw [step, step, hrequests]
    cases s.requests[i]? with
    | none => rfl
    | some r =>
      obtain ⟨pc, response, sent⟩ := r
      cases pc with
      | reading =>
        simp only [Option.bind_some, Option.map_some, Option.some.injEq]
        rw [handleBody.eq_def, handleBody.eq_def]
        split <;> rfl
      | _ => rfl
  | engine i e =>
    rw [step, step, hrequests]
    cases s.requests[i]? with
    | none => rfl
    | some r =>
      simp only [Option.bind_some]
      rw [handleEngine.eq_def, handleEngine.eq_def]
      split
      · rfl
      · exact congrArg some (finishNonStream_at i r _)
      · exact congrArg some (finishNonStream_at i r _)
      · exact congrArg some (advance_at i r _ _)
      · rfl
  | pull i =>
    rw [step, step, hrequests]
    cases s.requests[i]? with
    | none => rfl
    | some r =>
      simp only [Option.bind_some]
      rw [handlePull.eq_def, handlePull.eq_def]
      split
      · rfl
      · exact congrArg some (advance_at i r _ _)
      · rfl
  | cancel i =>
    rw [step, step, hrequests]
    cases s.requests[i]? with
    | none => rfl
    | some r =>
      simp only [Option.bind_some]
      rw [handleCancel.eq_def, handleCancel.eq_def]
      split <;> rfl
  | tick =>
    rw [step, step, handleTick, handleTick]
    have hmonitor : (s.atTime c).monitor = s.monitor := rfl
    have htracker : (s.atTime c).tracker = s.tracker := rfl
    rw [hmonitor, htracker]
    cases s.monitor <;> first | rfl | (simp only [Option.map_some]; split_ifs <;> rfl)

/-- An action that comes late enough for the clock comes late enough for an earlier one. -/
lemma next_of_atTime (hc : s.clock ≤ c) (h : (s.atTime c).next cfg a = some t) : s.next cfg a = some t := by
  rw [next] at h ⊢
  split_ifs at h with hclock
  obtain ⟨hnow, hlater⟩ : c ≤ a.now ∧ a.now ≤ a.later := hclock
  rw [if_pos ⟨hc.trans hnow, hlater⟩]
  obtain ⟨u, hu, rfl⟩ := Option.map_eq_some_iff.mp h
  rw [step_atTime] at hu
  obtain ⟨v, hv, rfl⟩ := Option.map_eq_some_iff.mp hu
  rw [hv]
  rfl

/-- The flag and the monitor, which no request touches. -/
def gate (s : State) : Bool × MonitorState := (s.enginesReady, s.monitor)

lemma gate_advance (i : ℕ) (r : Request) (rest : List PyStr) (last : Bool) :
    (s.advance now i r rest last).gate = s.gate := by
  rw [advance.eq_def]
  split <;> rfl

lemma gate_engine {i : ℕ} {r : Request} {e : EngineEvent} (h : s.handleEngine now later i r e = some t) :
    t.gate = s.gate ∧ r.pc ≠ .refused := by
  have hanswer (answer : Except PyStr Response) : (s.finishNonStream now later i r answer).gate = s.gate := by
    cases answer <;> rfl
  rw [handleEngine.eq_def] at h
  split at h
  · rename_i hpc
    obtain rfl := Option.some.inj h
    exact ⟨rfl, by simp [hpc]⟩
  · rename_i hpc
    obtain rfl := Option.some.inj h
    exact ⟨hanswer _, by simp [hpc]⟩
  · rename_i hpc
    obtain rfl := Option.some.inj h
    exact ⟨hanswer _, by simp [hpc]⟩
  · rename_i hpc
    obtain rfl := Option.some.inj h
    exact ⟨gate_advance i r _ _, by simp [hpc]⟩
  · cases h

lemma gate_pull {i : ℕ} {r : Request} (h : s.handlePull now i r = some t) : t.gate = s.gate ∧ r.pc ≠ .refused := by
  rw [handlePull.eq_def] at h
  split at h
  · rename_i hpc
    obtain rfl := Option.some.inj h
    exact ⟨rfl, by simp [hpc]⟩
  · rename_i hpc
    obtain rfl := Option.some.inj h
    exact ⟨gate_advance i r _ _, by simp [hpc]⟩
  · cases h

lemma gate_cancel {i : ℕ} {r : Request} (h : s.handleCancel now i r = some t) :
    t.gate = s.gate ∧ r.pc ≠ .refused := by
  rw [handleCancel.eq_def] at h
  split at h
  any_goals
    rename_i hpc
    obtain rfl := Option.some.inj h
    exact ⟨rfl, by simp [hpc]⟩
  cases h

lemma gate_body (i : ℕ) (r : Request) (content : Option Value) :
    (s.handleBody now later i r content).gate = s.gate := by
  rw [handleBody.eq_def]
  split <;> rfl

/-- A step of the HTTP side is the arrival of a request or the stretch of one that was not refused. -/
lemma http_step (he : Worker.isHttp e = true) (h : s.step cfg now later e = some t) : t.gate = s.gate ∧
    (t.requests = (if s.enginesReady then s.arrive else s.arriveEarly).requests ∨
      ∃ r ∈ s.requests, r.pc ≠ .refused) := by
  have hmem {i : ℕ} {r : Request} (hr : s.requests[i]? = some r) (hpc : r.pc ≠ .refused) :
      ∃ r ∈ s.requests, r.pc ≠ .refused := ⟨r, List.mem_of_getElem? hr, hpc⟩
  cases e with
  | arrive =>
    obtain rfl := Option.some.inj h
    refine ⟨?_, Or.inl rfl⟩
    split_ifs <;> rfl
  | body i content =>
    obtain ⟨r, hr, h⟩ := Option.bind_eq_some_iff.mp h
    split at h
    · rename_i hpc
      obtain rfl := Option.some.inj h
      exact ⟨gate_body i r content, Or.inr (hmem hr (by simp [hpc]))⟩
    · cases h
  | engine i e =>
    obtain ⟨r, hr, h⟩ := Option.bind_eq_some_iff.mp h
    exact (gate_engine h).imp_right fun hpc => Or.inr (hmem hr hpc)
  | pull i =>
    obtain ⟨r, hr, h⟩ := Option.bind_eq_some_iff.mp h
    exact (gate_pull h).imp_right fun hpc => Or.inr (hmem hr hpc)
  | cancel i =>
    obtain ⟨r, hr, h⟩ := Option.bind_eq_some_iff.mp h
    exact (gate_cancel h).imp_right fun hpc => Or.inr (hmem hr hpc)
  | _ => cases he

lemma http_next (he : Worker.isHttp a.event = true) (h : s.next cfg a = some t) : t.gate = s.gate ∧
    (t.requests = (if s.enginesReady then s.arrive else s.arriveEarly).requests ∨
      ∃ r ∈ s.requests, r.pc ≠ .refused) := by
  rw [next] at h
  split_ifs at h
  obtain ⟨u, hu, rfl⟩ := Option.map_eq_some_iff.mp h
  have hstep := http_step he hu
  exact ⟨hstep.1, hstep.2⟩

end State

namespace Worker

variable {cfg : Config} {w w' : Worker} {a : Action} {as : List Action}

/-- What a step of the worker does to its parts. -/
inductive Stepped (cfg : Config) (w : Worker) : Action → Worker → Prop
  | life (a : World.Action) (u : World) (ha : World.isRequest a = false) (ht : ∀ now ∈ time a, w.clock ≤ now)
      (hn : w.world.next cfg a = some u) :
      Stepped cfg w (.life a)
        { w with world := u, ready := w.ready || w.world.readies cfg a, clock := (time a).getD w.clock }
  | serve (a : Server.Action) (s : State) (hx : w.world.exited = false) (ha : isHttp a.event = true)
      (hn : w.serving.next cfg a = some s) :
      Stepped cfg w (.serve a) ⟨{ w.world with tracker := s.tracker }, s.enginesReady, s.clock, s.requests,
        w.fatalAfter a.event⟩
  | fatal (hx : w.world.exited = false) (hf : 0 < w.fatal) :
      Stepped cfg w .fatalShutdown
        { w with world := w.world.beginCall cfg unhealthyReason true false, fatal := w.fatal - 1 }

lemma next_stepped (h : w.next cfg a = some w') : Stepped cfg w a w' := by
  cases a with
  | life a =>
    rw [next] at h
    split_ifs at h with hc
    obtain ⟨u, hu, rfl⟩ := Option.map_eq_some_iff.mp h
    exact .life a u hc.1 hc.2 hu
  | serve a =>
    rw [next] at h
    split_ifs at h with hc
    obtain ⟨s, hs, rfl⟩ := Option.map_eq_some_iff.mp h
    exact .serve a s hc.1 hc.2 hs
  | fatalShutdown =>
    rw [next] at h
    split_ifs at h with hc
    obtain rfl := Option.some.inj h
    exact .fatal hc.1 hc.2

/-- The tasks of the worker run as the life cycle does. -/
theorem follows_lifecycle (he : (worker cfg).exec (init cfg) as = some w) :
    ∃ bs, (lifecycle cfg).exec (World.init cfg) bs = some w.world := by
  refine Machine.exec_invariant (I := fun w => ∃ bs, (lifecycle cfg).exec (World.init cfg) bs = some w.world)
    he ⟨[], rfl⟩ ?_
  rintro w a w' ⟨bs, hbs⟩ hn
  cases next_stepped hn with
  | life a u _ _ hu => exact ⟨bs ++ [a], Machine.exec_snoc hbs hu⟩
  | serve a s hx _ hs =>
    obtain ⟨ops, hops⟩ := State.lifecycle_follows hx rfl hs
    exact ⟨bs ++ ops, (Machine.exec_append hbs).trans hops⟩
  | fatal hx _ =>
    have hcall : (lifecycle cfg).next w.world (.call unhealthyReason true) =
        some (w.world.beginCall cfg unhealthyReason true false) := by
      simp [lifecycle, World.next, World.run, hx]
    exact ⟨_, Machine.exec_snoc hbs hcall⟩

/-- Its requests run as those of the server do, apart from the time that the other tasks take. -/
theorem follows_server (he : (worker cfg).exec (init cfg) as = some w) :
    ∃ cs s, (server cfg).exec (State.init cfg) cs = some s ∧ s.clock ≤ w.clock ∧ s.atTime w.clock = w.serving := by
  refine Machine.exec_invariant (I := fun w => ∃ cs s, (server cfg).exec (State.init cfg) cs = some s ∧
    s.clock ≤ w.clock ∧ s.atTime w.clock = w.serving) he ⟨[], _, rfl, le_refl _, rfl⟩ ?_
  rintro w a w' ⟨cs, s, hcs, hclock, hs⟩ hn
  cases next_stepped hn with
  | life a u ha ht hu =>
    have hlate : w.clock ≤ (time a).getD w.clock := by
      cases h : time a with
      | none => exact le_refl _
      | some now => exact ht now h
    have htracker := (World.shown_step hu ha).1
    have hready : s.enginesReady = w.ready := congrArg State.enginesReady hs
    have hrest : s.tracker = w.world.tracker ∧ s.monitor = .absent ∧ s.requests = w.requests :=
      ⟨congrArg State.tracker hs, congrArg State.monitor hs, congrArg State.requests hs⟩
    cases hr : w.world.readies cfg a with
    | false =>
      refine ⟨cs, s, hcs, hclock.trans hlate, ?_⟩
      simp [State.atTime, Worker.serving, htracker, hready, hrest]
    | true =>
      have hnext : (server cfg).next s ⟨.enginesReady, s.clock, s.clock⟩ =
          some { s with enginesReady := true } := by
        simp [Server.server, State.next, State.step]
      refine ⟨_, _, Machine.exec_snoc hcs hnext, hclock.trans hlate, ?_⟩
      simp [State.atTime, Worker.serving, htracker, hrest]
  | serve a t _ ha ht =>
    rw [← hs] at ht
    have hnext : s.next cfg a = some t := State.next_of_atTime hclock ht
    refine ⟨_, t, Machine.exec_snoc hcs hnext, le_refl _, ?_⟩
    have hmonitor : t.monitor = .absent :=
      (congrArg Prod.snd (State.http_next ha ht).1).trans (congrArg State.monitor hs)
    simp [State.atTime, Worker.serving, hmonitor]
  | fatal =>
    refine ⟨cs, s, hcs, hclock, ?_⟩
    have htracker := congrArg Prod.fst (@World.shown_beginCall cfg w.world unhealthyReason true false)
    rw [hs]
    simp only [World.shown] at htracker
    simp [Worker.serving, htracker]

section Readiness

/-- Only a worker whose engines are ready leaves `booting` or takes a request. -/
structure Gated (w : Worker) : Prop where
  status : w.world.status ≠ .booting → w.ready = true
  requests : ∀ r ∈ w.requests, r.pc ≠ .refused → w.ready = true

lemma Gated.step (h : Gated w) (hn : w.next cfg a = some w') : Gated w' ∧ (w.ready = true → w'.ready = true) := by
  cases next_stepped hn with
  | life a u ha ht hu =>
    have hmono (hr : w.ready = true) : (w.ready || w.world.readies cfg a) = true := by simp [hr]
    refine ⟨⟨fun hs => ?_, fun r hr hpc => hmono (h.requests r hr hpc)⟩, hmono⟩
    rcases (World.shown_step hu ha).2 with hsame | hready
    · exact hmono (h.status (hsame ▸ hs))
    · simp [hready]
  | serve a s hx ha hs =>
    obtain ⟨hgate, hrequests⟩ := State.http_next ha hs
    have hready : s.enginesReady = w.ready := congrArg Prod.fst hgate
    refine ⟨⟨fun hstatus => hready.trans (h.status hstatus), fun r hr hpc => hready.trans ?_⟩, hready.trans⟩
    rcases hrequests with harrive | ⟨r, hr, hpc⟩
    · rw [harrive] at hr
      split_ifs at hr with hw
      · exact hw
      · rcases List.mem_append.mp hr with hr | hr
        · exact h.requests r hr hpc
        · obtain rfl := List.mem_singleton.mp hr
          exact absurd rfl hpc
    · exact h.requests r hr hpc
  | fatal =>
    have hstatus : (w.world.beginCall cfg unhealthyReason true false).status = w.world.status :=
      congrArg Prod.snd (@World.shown_beginCall cfg w.world unhealthyReason true false)
    refine ⟨⟨fun hs => h.status ?_, h.requests⟩, id⟩
    rwa [← hstatus]

lemma gated (he : (worker cfg).exec (init cfg) as = some w) : Gated w := by
  have hinit : Gated (init cfg) := ⟨fun h => absurd rfl h, by simp [init]⟩
  exact Machine.exec_invariant he hinit fun _ _ _ h hn => (h.step hn).1

/-- A worker whose hash shows `healthy` is ready, and takes requests as long as it lives. -/
theorem healthy_serves (he : (worker cfg).exec (init cfg) as = some w)
    (h : w.world.statusShown = some Status.healthy.text) :
    (ping w).map Response.status = .ok 200 ∧ (Server.ready w).map Response.status = .ok 200 ∧
      ∀ now later, w.world.exited = false → w.clock ≤ now → now ≤ later →
        ∃ w', (worker cfg).next w (.serve ⟨.arrive, now, later⟩) = some w' ∧
          w'.requests = w.requests ++ [⟨.reading, none, []⟩] := by
  obtain ⟨bs, hbs⟩ := follows_lifecycle he
  have hready : w.ready = true := (gated he).status (World.booted_of_shown hbs h)
  refine ⟨?_, ?_, fun now later hx hnow hlater => ?_⟩
  · rw [ping, if_pos hready]
    rfl
  · rw [Server.ready, if_pos hready]
    cases w.world.status <;> rfl
  · have harrive : w.serving.next cfg ⟨.arrive, now, later⟩ = some ((w.serving.arrive).atTime later) := by
      have hclock : w.serving.clock ≤ now ∧ now ≤ later := ⟨hnow, hlater⟩
      have henginesReady : w.serving.enginesReady = true := hready
      rw [State.next, if_pos hclock, State.step, if_pos henginesReady]
      rfl
    have hnext : (worker cfg).next w (.serve ⟨.arrive, now, later⟩) =
        some ⟨w.world, w.ready, later, w.requests ++ [⟨.reading, none, []⟩], w.fatal⟩ := by
      have hserve : w.world.exited = false ∧ isHttp .arrive = true := ⟨hx, rfl⟩
      simp only [worker, Worker.next, if_pos hserve, harrive]
      rfl
    exact ⟨_, hnext, rfl⟩

def readyRun : List Action :=
  [.life .bootRun, .life (.executorDone true), .life (.executorDone true), .life (.send .boot),
    .life (.apply .boot)]

theorem readyRun_serves : ∃ w, (worker .sample).exec (init .sample) readyRun = some w ∧
    (ping w).map Response.status = .ok 200 ∧ (Server.ready w).map Response.status = .ok 200 ∧
      ∀ now later, w.world.exited = false → w.clock ≤ now → now ≤ later →
        ∃ w', (worker .sample).next w (.serve ⟨.arrive, now, later⟩) = some w' ∧
          w'.requests = w.requests ++ [⟨.reading, none, []⟩] := by
  have hrun : ((worker .sample).exec (init .sample) readyRun).any (fun w =>
      w.world.statusShown = some Status.healthy.text) = true := by
    decide +kernel
  obtain ⟨w, he, hs⟩ := (Option.any_eq_true _ _).mp hrun
  exact ⟨w, he, healthy_serves he (by simpa using hs)⟩

end Readiness

section Reports

/-- The command was built from what the worker counted and was at this point. -/
def Reports (cfg : Config) (w : Worker) (fields : Fields) : Prop :=
  ∃ now, fields = heartbeatFields cfg w.world.tracker.load w.world.status now

lemma due_tracker {world : World} {tracker : LoadTracker} {cmd : Command}
    (h : World.Due cfg { world with tracker := tracker } cmd) : World.Due cfg world cmd :=
  World.due_of_retains (World.retains_of_eq rfl rfl rfl rfl) id h

/-- Every heartbeat that Redis has applied tells the load and the status that the worker had at some point
of the run. -/
lemma heartbeat_reports (he : (worker cfg).exec (init cfg) as = some w) {fields : Fields}
    (h : .heartbeat fields ∈ w.world.log) :
    ∃ as₁ as₂ u, as = as₁ ++ as₂ ∧ (worker cfg).exec (init cfg) as₁ = some u ∧ Reports cfg u fields := by
  refine Machine.exec_origin
    (fun w fields => World.Due cfg w.world (.heartbeat fields) ∨ .heartbeat fields ∈ w.world.log) (Reports cfg)
    he ?_ ?_ (Or.inr h)
  · rintro fields (hdue | hlog)
    · exact World.not_due_init _ hdue
    · cases hlog
  · rintro v a v' fields hn hthere
    cases next_stepped hn with
    | life a u ha ht hu =>
      rcases hthere with hdue | hlog
      · rcases World.due_step hu hdue with hdue | ⟨hcmd, -⟩ | ⟨now, hcmd⟩
        · exact Or.inl (Or.inl hdue)
        · cases hcmd
        · exact Or.inr (Or.inl ⟨now, Command.heartbeat.inj hcmd⟩)
      · rw [World.log_step hu] at hlog
        rcases List.mem_append.mp hlog with hlog | hlog
        · exact Or.inl (Or.inr hlog)
        · exact Or.inl (Or.inl (World.due_of_applied (Option.mem_toList.mp hlog) rfl))
    | serve a s => exact Or.inl (hthere.imp_left due_tracker)
    | fatal hx =>
      have hretains : World.Retains v.world (v.world.beginCall cfg unhealthyReason true false) :=
        World.retains_beginCall v.world _ _ _
      have hsame : (v.world.beginCall cfg unhealthyReason true false).log = v.world.log :=
        congrArg (fun x => x.1.1) (@World.wire_beginCall cfg v.world unhealthyReason true false)
      rcases hthere with hdue | hlog
      · exact Or.inl (Or.inl (World.due_of_retains hretains (fun _ => hx) hdue))
      · rw [hsame] at hlog
        exact Or.inl (Or.inr hlog)

/-- No request is dropped or fails in a way that the load counter does not survive. -/
def Counts (w : Worker) : Action → Prop
  | .serve a => w.serving.Sound a
  | _ => True

instance : Decidable (Counts w a) :=
  match a with
  | .serve a => inferInstanceAs (Decidable (w.serving.Sound a))
  | .life _ | .fatalShutdown => isTrue trivial

lemma exact_step (h : w.serving.Exact) (hc : Counts w a) (hn : w.next cfg a = some w') : w'.serving.Exact := by
  cases next_stepped hn with
  | life a u ha ht hu =>
    have htracker := (World.shown_step hu ha).1
    have hsame : u.tracker.load = (w.serving.inFlight : ℤ) := by
      rw [htracker]
      exact h
    exact hsame
  | serve a s hx ha hs =>
    have hexact := (State.next_change hs).2.2.2.exact h hc.1 hc.2
    exact hexact
  | fatal =>
    have htracker : (w.world.beginCall cfg unhealthyReason true false).tracker = w.world.tracker :=
      congrArg Prod.fst (@World.shown_beginCall cfg w.world unhealthyReason true false)
    have hsame : (w.world.beginCall cfg unhealthyReason true false).tracker.load = (w.serving.inFlight : ℤ) := by
      rw [htracker]
      exact h
    exact hsame

/-- Where every request is counted, each heartbeat tells the number of requests in flight at some point of
the run, and the status of the worker there. -/
theorem heartbeat_truthful (he : (worker cfg).exec (init cfg) as = some w)
    (hg : (worker cfg).Guarded Counts (init cfg) as) {fields : Fields} (h : .heartbeat fields ∈ w.world.log) :
    ∃ as₁ as₂ u now, as = as₁ ++ as₂ ∧ (worker cfg).exec (init cfg) as₁ = some u ∧
      fields = heartbeatFields cfg u.serving.inFlight u.world.status now ∧
      (u.world.status ≠ .booting → u.ready = true) := by
  obtain ⟨as₁, as₂, u, rfl, hu, now, hfields⟩ := heartbeat_reports he h
  have hexact : u.serving.Exact :=
    (hg.of_append).invariant (I := fun v => v.serving.Exact) hu rfl fun _ _ _ h hc hn => exact_step h hc hn
  have hload : u.world.tracker.load = u.serving.inFlight := hexact
  exact ⟨as₁, as₂, u, now, rfl, hu, hload ▸ hfields, (gated hu).status⟩

def beatsWhileServing : List Action :=
  [.life .bootRun, .life (.executorDone true), .life (.executorDone true), .serve ⟨.arrive, 1, 1⟩,
    .serve ⟨.body 0 (some (.dict [(lit "stream", .bool true)])), 2, 2⟩, .life (.wakeBeat .oneShot 3),
    .life (.send (.beat .oneShot)), .life (.apply (.beat .oneShot))]

theorem beatsWhileServing_truthful : ∃ w, (worker .sample).exec (init .sample) beatsWhileServing = some w ∧
    ∃ as₁ as₂ u now, beatsWhileServing = as₁ ++ as₂ ∧ (worker .sample).exec (init .sample) as₁ = some u ∧
      heartbeatFields .sample 1 .healthy 3 = heartbeatFields .sample u.serving.inFlight u.world.status now ∧
      (u.world.status ≠ .booting → u.ready = true) := by
  have hrun : ((worker .sample).exec (init .sample) beatsWhileServing).map (fun w => w.world.log) =
      some [.heartbeat (heartbeatFields .sample 1 .healthy 3)] := rfl
  obtain ⟨w, he, hlog⟩ := Option.map_eq_some_iff.mp hrun
  exact ⟨w, he, heartbeat_truthful he (by decide +kernel) (by simp [hlog])⟩

end Reports
end Worker
end GemmaWorker.Server
