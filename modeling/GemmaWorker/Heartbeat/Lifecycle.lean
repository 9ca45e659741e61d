import GemmaWorker.Library.Transition
import GemmaWorker.Heartbeat.Service

/-! The tasks of a worker that talk to Redis: the boot task, the first heartbeat, the heartbeat loop,
the idle monitor and the calls of `graceful_shutdown`. A step runs one task to its next suspension, or
moves one command on its way to Redis and back. -/

namespace GemmaWorker.Heartbeat

open Python

section Tasks

inductive Phase
  | waiting
  | sent
  | applied
  | answered
deriving DecidableEq

/-- A command on a connection of a client. Closing the client ends the epoch of its connections. -/
structure Await where
  client : ℕ
  epoch : ℕ
  phase : Phase
deriving DecidableEq

def Await.start (client : ℕ) : Await := ⟨client, 0, .waiting⟩

@[simp] lemma Await.phase_start (client : ℕ) : (Await.start client).phase = .waiting := rfl

inductive BootPc
  | created
  | downloading
  | initialising
  | markingHealthy (a : Await)
  | failing
  | ended
  | exited

inductive BeatPc
  | absent
  | created
  | beating (fields : Fields) (a : Await)
  | sleeping
  | ended

inductive MonitorPc
  | absent
  | sleeping
  | shuttingDown (call : ℕ)
  | ended

inductive CallPc
  | publishing (message : PyStr) (a : Await)
  | deleting (a : Await)
  | removing (a : Await)
  | closing
  | returned
  | raised
  | cancelled

structure Boot where
  pc : BootPc
  cancelRequested : Bool

structure Beat where
  pc : BeatPc
  cancelRequested : Bool

structure Monitor where
  pc : MonitorPc
  cancelRequested : Bool

/-- A call of `graceful_shutdown`. Some callers leave the process when the call has returned. -/
structure Call where
  reason : PyStr
  exits : Bool
  cancelRequested : Bool
  pc : CallPc

/-- The first heartbeat, which nobody keeps a handle of, and the heartbeat loop. -/
inductive BeatId
  | oneShot
  | loop
deriving DecidableEq

inductive Task
  | boot
  | beat (b : BeatId)
  | monitor
  | call (i : ℕ)
deriving DecidableEq

def BootPc.flight : BootPc → Option (Command × Await)
  | .markingHealthy a => some (.setStatus .healthy, a)
  | _ => none

def BeatPc.flight : BeatPc → Option (Command × Await)
  | .beating fields a => some (.heartbeat fields, a)
  | _ => none

def CallPc.flight (cfg : Config) : CallPc → Option (Command × Await)
  | .publishing message a => some (.publish cfg.terminateChannel message, a)
  | .deleting a => some (.delete, a)
  | .removing a => some (.srem, a)
  | _ => none

def BootPc.mapAwait (f : Await → Await) : BootPc → BootPc
  | .markingHealthy a => .markingHealthy (f a)
  | pc => pc

def BeatPc.mapAwait (f : Await → Await) : BeatPc → BeatPc
  | .beating fields a => .beating fields (f a)
  | pc => pc

def CallPc.mapAwait (f : Await → Await) : CallPc → CallPc
  | .publishing message a => .publishing message (f a)
  | .deleting a => .deleting (f a)
  | .removing a => .removing (f a)
  | pc => pc

def BootPc.suspended : BootPc → Bool
  | .created | .downloading | .initialising | .markingHealthy _ => true
  | _ => false

def BeatPc.suspended : BeatPc → Bool
  | .created | .beating _ _ | .sleeping => true
  | _ => false

def CallPc.suspended : CallPc → Bool
  | .publishing _ _ | .deleting _ | .removing _ | .closing => true
  | _ => false

def Call.hasExited (c : Call) : Bool :=
  match c.pc with
  | .returned => c.exits
  | _ => false

end Tasks

structure World where
  signaled : Bool
  loopHandle : Bool
  idleHandle : Bool
  status : Status
  redis : Option ℕ
  created : ℕ
  epoch : ℕ → ℕ
  opened : ℕ → Bool
  tracker : LoadTracker
  boot : Boot
  beat : BeatId → Beat
  monitor : Monitor
  calls : List Call
  orphans : List Command
  log : List Command
  registry : Registry

namespace World

variable (cfg : Config) (w : World)

def init : World where
  signaled := false
  loopHandle := false
  idleHandle := false
  status := .booting
  redis := none
  created := 0
  epoch _ := 0
  opened _ := false
  tracker := ⟨0, cfg.startTime⟩
  boot := ⟨.created, false⟩
  beat _ := ⟨.absent, false⟩
  monitor := ⟨.absent, false⟩
  calls := []
  orphans := []
  log := []
  registry := .empty

def exited : Bool :=
  (match w.boot.pc with | .exited => true | _ => false) || w.calls.any Call.hasExited

section Access

def flight : Task → Option (Command × Await)
  | .boot => w.boot.pc.flight
  | .beat b => (w.beat b).pc.flight
  | .monitor => none
  | .call i => w.calls[i]?.bind (fun c => c.pc.flight cfg)

def cancelRequested : Task → Bool
  | .boot => w.boot.cancelRequested
  | .beat b => (w.beat b).cancelRequested
  | .monitor => w.monitor.cancelRequested
  | .call i => w.calls[i]?.any Call.cancelRequested

def setBoot (pc : BootPc) : World :=
  { w with boot := { w.boot with pc := pc } }

def setStatus (status : Status) : World :=
  { w with status := status }

def setBeat (b : BeatId) (pc : BeatPc) : World :=
  { w with beat := Function.update w.beat b { w.beat b with pc := pc } }

def modifyCall (i : ℕ) (f : CallPc → CallPc) : World :=
  { w with calls := w.calls.modify i (fun c => { c with pc := f c.pc }) }

def mapAwait (f : Await → Await) : Task → World
  | .boot => w.setBoot (w.boot.pc.mapAwait f)
  | .beat b => w.setBeat b ((w.beat b).pc.mapAwait f)
  | .monitor => w
  | .call i => w.modifyCall i (CallPc.mapAwait f)

def requestCancel : Task → World
  | .boot => { w with boot := { w.boot with cancelRequested := true } }
  | .beat b => { w with beat := Function.update w.beat b { w.beat b with cancelRequested := true } }
  | .monitor => { w with monitor := { w.monitor with cancelRequested := true } }
  | .call i => { w with calls := w.calls.modify i (fun c => { c with cancelRequested := true }) }

end Access

section Redis

def record (cmd : Command) : World :=
  { w with log := w.log ++ [cmd], registry := w.registry.apply cmd }

def client : ℕ := w.redis.getD w.created

def getRedis : World :=
  match w.redis with
  | some _ => w
  | none =>
    { w with
      redis := some w.created
      created := w.created + 1
      opened := Function.update w.opened w.created true }

def closeClient (c : ℕ) : World :=
  { w with
    epoch := Function.update w.epoch c (w.epoch c + 1)
    opened := Function.update w.opened c false }

/-- A command that was sent stays on the wire when its task leaves it. -/
def abandon (t : Task) : World :=
  match w.flight cfg t with
  | some (cmd, a) => if a.phase = .sent then { w with orphans := w.orphans ++ [cmd] } else w
  | none => w

end Redis

section Functions

def sendHeartbeat (b : BeatId) (now : ℚ) : World :=
  w.getRedis.setBeat b
    (.beating (heartbeatFields cfg w.tracker.load w.status now) (.start w.client))

def startHeartbeat : World :=
  if cfg.isHeartbeatEnabled then
    { w with beat := fun _ => ⟨.created, false⟩, loopHandle := true }
  else w

def startIdleTimeout : World :=
  if cfg.idleTimeoutS = 0 then w else { w with monitor := ⟨.sleeping, false⟩, idleHandle := true }

def stopHeartbeat : World :=
  if w.loopHandle && (w.beat .loop).pc.suspended then
    { w.requestCancel (.beat .loop) with loopHandle := false }
  else w

/-- The monitor is asleep whenever somebody else stops it. -/
def stopIdleTimeout : World :=
  match w.idleHandle, w.monitor.pc with
  | true, .sleeping => { w.requestCancel .monitor with idleHandle := false }
  | _, _ => w

def addCall (reason : PyStr) (exits cancelled : Bool) (pc : CallPc) : World :=
  { w with calls := w.calls ++ [⟨reason, exits, cancelled, pc⟩] }

def idleReason : PyStr := lit "idle-timeout"

def beginCall (reason : PyStr) (exits cancelled : Bool) : World :=
  if w.signaled then
    match w.redis with
    | none => w.addCall reason exits cancelled .returned
    | some c => (w.closeClient c).addCall reason exits cancelled .closing
  else
    let w := { w with signaled := true }.stopHeartbeat.stopIdleTimeout
    if cfg.isHeartbeatEnabled then
      match terminationMessage cfg reason with
      | .ok message => w.getRedis.addCall reason exits cancelled (.publishing message (.start w.client))
      | .error _ => w.addCall reason exits cancelled .raised
    else w.addCall reason exits cancelled .returned

def setCall (i : ℕ) (pc : CallPc) : World :=
  w.modifyCall i (fun _ => pc)

def closeRedis (i : ℕ) : World :=
  match w.redis with
  | none => w.setCall i .returned
  | some c => (w.closeClient c).setCall i .closing

def resumeCall (i : ℕ) (c : Call) : Option World :=
  match c.pc with
  | .publishing _ _ =>
    if c.reason = idleReason then some (w.setCall i .returned)
    else some (w.getRedis.setCall i (.deleting (.start w.client)))
  | .deleting a => some (w.setCall i (.removing (.start a.client)))
  | .removing _ => some (w.closeRedis i)
  | _ => none

/-- `signal_termination` raises again what `deregister` only logs. -/
def failCall (i : ℕ) (c : Call) : Option World :=
  match c.pc with
  | .publishing _ _ => some (w.setCall i .raised)
  | .deleting _ => some (w.closeRedis i)
  | .removing _ => some (w.closeRedis i)
  | _ => none

def afterBeat : BeatId → BeatPc
  | .oneShot => .ended
  | .loop => .sleeping

/-- Heartbeats and `mark_healthy` go on after an answer as after an exception. -/
def resume (ok : Bool) : Task → Option World
  | .boot => some ((w.startIdleTimeout cfg).setBoot .ended)
  | .beat b => some (w.setBeat b (afterBeat b))
  | .monitor => none
  | .call i => w.calls[i]?.bind (fun c => if ok then w.resumeCall i c else w.failCall i c)

def cancelled : Task → Option World
  | .boot =>
    if w.boot.pc.suspended then some (w.setBoot .ended) else none
  | .beat b => if (w.beat b).pc.suspended then some (w.setBeat b .ended) else none
  | .monitor =>
    match w.monitor.pc with
    | .sleeping => some { w with monitor := { w.monitor with pc := .ended } }
    | _ => none
  | .call i =>
    if w.calls[i]?.any (fun c => c.pc.suspended) then some (w.setCall i .cancelled) else none

def bootRun : World :=
  if cfg.skipModelLoad then w.setBoot .ended else (w.startHeartbeat cfg).setBoot .downloading

/-- The model download or the engine start comes to its end in the executor. -/
def executorDone (ok : Bool) : Option World :=
  match w.boot.pc, ok with
  | .downloading, true => some (w.setBoot .initialising)
  | .initialising, true =>
    if cfg.isHeartbeatEnabled then
      some ((w.getRedis.setStatus .healthy).setBoot (.markingHealthy (.start w.client)))
    else some (w.setBoot .ended)
  | .downloading, false | .initialising, false =>
    if cfg.isHeartbeatEnabled then
      some ((w.beginCall cfg (lit "unhealthy") true false).setBoot .failing)
    else some (w.setBoot .exited)
  | _, _ => none

def enterCallback : World :=
  { w with
    idleHandle := false
    monitor := { w.monitor with pc := .shuttingDown w.calls.length } }

/-- The monitor wakes up. In the shutdown branch it cancels its own task before the callback. -/
def tick (now : ℚ) : Option World :=
  match w.monitor.pc with
  | .sleeping =>
    if w.tracker.Idle now cfg.idleTimeoutS then
      some (w.enterCallback.beginCall cfg idleReason false w.idleHandle)
    else some w
  | _ => none

end Functions

section Steps

inductive Action
  | bootRun
  | executorDone (ok : Bool)
  | wakeBeat (b : BeatId) (now : ℚ)
  | tick (now : ℚ)
  | request (op : RequestOp) (now : ℚ)
  | call (reason : PyStr) (exits : Bool)
  | send (t : Task)
  | apply (t : Task)
  | deliver (t : Task)
  | resume (t : Task)
  | fail (t : Task)
  | cancel (t : Task)
  | cancelled (t : Task)
  | closed (i : ℕ)
  | closeFailed (i : ℕ)
  | applyOrphan (k : ℕ)
  | dropOrphan (k : ℕ)
  | expire

def setPhase (t : Task) (phase : Phase) : World :=
  w.mapAwait (fun a => { a with phase := phase }) t

def send (t : Task) (a : Await) : World :=
  { w.mapAwait (fun a => { a with epoch := w.epoch a.client, phase := .sent }) t with
    opened := Function.update w.opened a.client true }

def awake (pc : BeatPc) : Bool :=
  match pc with
  | .created | .sleeping => true
  | _ => false

def run : Action → Option World
  | .bootRun =>
    match w.boot.pc with
    | .created => if w.boot.cancelRequested then none else some (w.bootRun cfg)
    | _ => none
  | .executorDone ok => if w.boot.cancelRequested then none else w.executorDone cfg ok
  | .wakeBeat b now =>
    if awake (w.beat b).pc && !(w.beat b).cancelRequested then some (w.sendHeartbeat cfg b now) else none
  | .tick now => if w.monitor.cancelRequested then none else w.tick cfg now
  | .request op now => some { w with tracker := op.apply w.tracker now }
  | .call reason exits => some (w.beginCall cfg reason exits false)
  | .send t =>
    (w.flight cfg t).bind (fun f =>
      if f.2.phase = .waiting ∧ w.cancelRequested t = false then some (w.send t f.2) else none)
  | .deliver t =>
    (w.flight cfg t).bind (fun f =>
      if f.2.phase = .applied ∧ f.2.epoch = w.epoch f.2.client then some (w.setPhase t .answered) else none)
  | .resume t =>
    (w.flight cfg t).bind (fun f =>
      if f.2.phase = .answered ∧ w.cancelRequested t = false then w.resume cfg true t else none)
  | .fail t =>
    (w.flight cfg t).bind (fun f =>
      if f.2.phase ≠ .answered ∧ w.cancelRequested t = false then (w.abandon cfg t).resume cfg false t
      else none)
  | .cancel t => some (w.requestCancel t)
  | .cancelled t => if w.cancelRequested t then (w.abandon cfg t).cancelled t else none
  | .closed i =>
    match w.calls[i]? with
    | some ⟨_, _, false, .closing⟩ => some { w.setCall i .returned with redis := none }
    | _ => none
  | .closeFailed i =>
    match w.calls[i]? with
    | some ⟨_, _, false, .closing⟩ => some (w.setCall i .raised)
    | _ => none
  | _ => none

def next : Action → Option World
  | .apply t =>
    (w.flight cfg t).bind (fun f =>
      if f.2.phase = .sent then some ((w.setPhase t .applied).record f.1) else none)
  | .applyOrphan k =>
    w.orphans[k]?.map (fun cmd => { w with orphans := w.orphans.eraseIdx k }.record cmd)
  | .dropOrphan k => w.orphans[k]?.map (fun _ => { w with orphans := w.orphans.eraseIdx k })
  | .expire => some { w with registry := w.registry.expire }
  | a => if w.exited then none else w.run cfg a

end Steps

section Inversion

/-- How the boot task goes on when the executor is done. -/
inductive Loaded : Bool → World → Prop
  | downloaded (h : w.boot.pc = .downloading) : Loaded true (w.setBoot .initialising)
  | started (h : w.boot.pc = .initialising) (he : cfg.isHeartbeatEnabled = true) :
      Loaded true ((w.getRedis.setStatus .healthy).setBoot (.markingHealthy (.start w.client)))
  | silent (h : w.boot.pc = .initialising) (he : cfg.isHeartbeatEnabled = false) :
      Loaded true (w.setBoot .ended)
  | failing (h : w.boot.pc = .downloading ∨ w.boot.pc = .initialising) (he : cfg.isHeartbeatEnabled = true) :
      Loaded false ((w.beginCall cfg (lit "unhealthy") true false).setBoot .failing)
  | exits (h : w.boot.pc = .downloading ∨ w.boot.pc = .initialising) (he : cfg.isHeartbeatEnabled = false) :
      Loaded false (w.setBoot .exited)

/-- Where a task is cancelled that waits. -/
inductive Unwound : Task → World → Prop
  | boot (h : w.boot.pc.suspended = true) : Unwound .boot (w.setBoot .ended)
  | beat (b : BeatId) (h : (w.beat b).pc.suspended = true) : Unwound (.beat b) (w.setBeat b .ended)
  | monitor (h : w.monitor.pc = .sleeping) :
      Unwound .monitor { w with monitor := { w.monitor with pc := .ended } }
  | call (i : ℕ) (c : Call) (hc : w.calls[i]? = some c) (h : c.pc.suspended = true) :
      Unwound (.call i) (w.setCall i .cancelled)

/-- What a step has found and done. Only Redis goes on when the process has exited. -/
inductive Stepped : Action → World → Prop
  | bootRun (hx : w.exited = false) (h : w.boot.pc = .created) (hc : w.cancelRequested .boot = false) :
      Stepped .bootRun (w.bootRun cfg)
  | executorDone (ok : Bool) (u : World) (hx : w.exited = false) (hc : w.cancelRequested .boot = false)
      (h : w.executorDone cfg ok = some u) : Stepped (.executorDone ok) u
  | wakeBeat (b : BeatId) (now : ℚ) (hx : w.exited = false) (h : awake (w.beat b).pc = true)
      (hc : w.cancelRequested (.beat b) = false) : Stepped (.wakeBeat b now) (w.sendHeartbeat cfg b now)
  | early (now : ℚ) (hx : w.exited = false) (h : w.monitor.pc = .sleeping)
      (hc : w.monitor.cancelRequested = false) (hi : ¬ w.tracker.Idle now cfg.idleTimeoutS) :
      Stepped (.tick now) w
  | idle (now : ℚ) (hx : w.exited = false) (h : w.monitor.pc = .sleeping)
      (hc : w.monitor.cancelRequested = false) (hi : w.tracker.Idle now cfg.idleTimeoutS) :
      Stepped (.tick now) (w.enterCallback.beginCall cfg idleReason false w.idleHandle)
  | request (op : RequestOp) (now : ℚ) (hx : w.exited = false) :
      Stepped (.request op now) { w with tracker := op.apply w.tracker now }
  | call (reason : PyStr) (exits : Bool) (hx : w.exited = false) :
      Stepped (.call reason exits) (w.beginCall cfg reason exits false)
  | send (t : Task) (cmd : Command) (a : Await) (hx : w.exited = false)
      (hf : w.flight cfg t = some (cmd, a)) (ha : a.phase = .waiting) (hc : w.cancelRequested t = false) :
      Stepped (.send t) (w.send t a)
  | apply (t : Task) (cmd : Command) (a : Await) (hf : w.flight cfg t = some (cmd, a))
      (ha : a.phase = .sent) : Stepped (.apply t) ((w.setPhase t .applied).record cmd)
  | deliver (t : Task) (cmd : Command) (a : Await) (hx : w.exited = false)
      (hf : w.flight cfg t = some (cmd, a)) (ha : a.phase = .applied) (he : a.epoch = w.epoch a.client) :
      Stepped (.deliver t) (w.setPhase t .answered)
  | resume (t : Task) (cmd : Command) (a : Await) (u : World) (hx : w.exited = false)
      (hf : w.flight cfg t = some (cmd, a)) (ha : a.phase = .answered) (hc : w.cancelRequested t = false)
      (h : w.resume cfg true t = some u) : Stepped (.resume t) u
  | fail (t : Task) (cmd : Command) (a : Await) (u : World) (hx : w.exited = false)
      (hf : w.flight cfg t = some (cmd, a)) (ha : a.phase ≠ .answered) (hc : w.cancelRequested t = false)
      (h : (w.abandon cfg t).resume cfg false t = some u) : Stepped (.fail t) u
  | cancel (t : Task) (hx : w.exited = false) : Stepped (.cancel t) (w.requestCancel t)
  | cancelled (t : Task) (u : World) (hx : w.exited = false) (hc : w.cancelRequested t = true)
      (h : (w.abandon cfg t).cancelled t = some u) : Stepped (.cancelled t) u
  | closed (i : ℕ) (c : Call) (hx : w.exited = false) (hi : w.calls[i]? = some c) (h : c.pc = .closing)
      (hc : c.cancelRequested = false) : Stepped (.closed i) { w.setCall i .returned with redis := none }
  | closeFailed (i : ℕ) (c : Call) (hx : w.exited = false) (hi : w.calls[i]? = some c)
      (h : c.pc = .closing) (hc : c.cancelRequested = false) :
      Stepped (.closeFailed i) (w.setCall i .raised)
  | applyOrphan (k : ℕ) (cmd : Command) (hk : w.orphans[k]? = some cmd) :
      Stepped (.applyOrphan k) ({ w with orphans := w.orphans.eraseIdx k }.record cmd)
  | dropOrphan (k : ℕ) (cmd : Command) (hk : w.orphans[k]? = some cmd) :
      Stepped (.dropOrphan k) { w with orphans := w.orphans.eraseIdx k }
  | expire : Stepped .expire { w with registry := w.registry.expire }

variable {cfg w} {w' : World} {a : Action}

lemma flight_stepped {t : Task} {p : Command × Await → Prop} [DecidablePred p]
    {g : Command × Await → Option World}
    (h : (w.flight cfg t).bind (fun f => if p f then g f else none) = some w') :
    ∃ cmd a, w.flight cfg t = some (cmd, a) ∧ p (cmd, a) ∧ g (cmd, a) = some w' := by
  obtain ⟨⟨cmd, a⟩, hf, h⟩ := Option.bind_eq_some_iff.mp h
  split_ifs at h with hp
  exact ⟨cmd, a, hf, hp, h⟩

lemma executorDone_loaded {ok : Bool} (h : w.executorDone cfg ok = some w') : w.Loaded cfg ok w' := by
  have hfail (hpc : w.boot.pc = .downloading ∨ w.boot.pc = .initialising)
      (h : (if cfg.isHeartbeatEnabled then
          some ((w.beginCall cfg (lit "unhealthy") true false).setBoot .failing)
        else some (w.setBoot .exited)) = some w') : w.Loaded cfg false w' := by
    split_ifs at h with he
    · obtain rfl := Option.some.inj h
      exact .failing hpc he
    · obtain rfl := Option.some.inj h
      exact .exits hpc (Bool.eq_false_iff.mpr he)
  rw [executorDone.eq_def] at h
  split at h
  · rename_i hpc
    obtain rfl := Option.some.inj h
    exact .downloaded hpc
  · rename_i hpc
    split_ifs at h with he
    · obtain rfl := Option.some.inj h
      exact .started hpc he
    · obtain rfl := Option.some.inj h
      exact .silent hpc (Bool.eq_false_iff.mpr he)
  · exact hfail (Or.inl ‹_›) h
  · exact hfail (Or.inr ‹_›) h
  · cases h

lemma cancelled_unwound {t : Task} (h : w.cancelled t = some w') : w.Unwound t w' := by
  cases t with
  | boot =>
    rw [cancelled] at h
    split_ifs at h with hs
    obtain rfl := Option.some.inj h
    exact .boot hs
  | beat b =>
    rw [cancelled] at h
    split_ifs at h with hs
    obtain rfl := Option.some.inj h
    exact .beat b hs
  | monitor =>
    rw [cancelled] at h
    split at h
    · rename_i hpc
      obtain rfl := Option.some.inj h
      exact .monitor hpc
    · cases h
  | call i =>
    rw [cancelled] at h
    split_ifs at h with hs
    obtain rfl := Option.some.inj h
    obtain ⟨c, hc, hs⟩ := (Option.any_eq_true _ _).mp hs
    exact .call i c hc hs

lemma abandon_cases (cfg : Config) (w : World) (t : Task) : w.abandon cfg t = w ∨
    ∃ cmd a, w.flight cfg t = some (cmd, a) ∧ a.phase = .sent ∧
      w.abandon cfg t = { w with orphans := w.orphans ++ [cmd] } := by
  rw [abandon]
  cases hf : w.flight cfg t with
  | none => exact Or.inl rfl
  | some f =>
    obtain ⟨cmd, a⟩ := f
    simp only
    split_ifs with ha
    · exact Or.inr ⟨cmd, a, rfl, ha, rfl⟩
    · exact Or.inl rfl

lemma run_stepped (hx : w.exited = false) (h : w.run cfg a = some w') : w.Stepped cfg a w' := by
  cases a with
  | bootRun =>
    rw [run] at h
    split at h
    · rename_i hpc
      split_ifs at h with hc
      obtain rfl := Option.some.inj h
      exact .bootRun hx hpc (by simpa [cancelRequested] using hc)
    · cases h
  | executorDone ok =>
    rw [run] at h
    split_ifs at h with hc
    exact .executorDone ok w' hx (by simpa [cancelRequested] using hc) h
  | wakeBeat b now =>
    rw [run] at h
    split_ifs at h with hc
    obtain rfl := Option.some.inj h
    obtain ⟨ha, hc⟩ : awake (w.beat b).pc = true ∧ (w.beat b).cancelRequested = false := by simpa using hc
    exact .wakeBeat b now hx ha hc
  | tick now =>
    rw [run] at h
    split_ifs at h with hc
    rw [tick.eq_def] at h
    split at h
    · rename_i hpc
      split_ifs at h with hi
      · obtain rfl := Option.some.inj h
        exact .idle now hx hpc (by simpa using hc) hi
      · obtain rfl := Option.some.inj h
        exact .early now hx hpc (by simpa using hc) hi
    · cases h
  | request op now =>
    obtain rfl := Option.some.inj h
    exact .request op now hx
  | call reason exits =>
    obtain rfl := Option.some.inj h
    exact .call reason exits hx
  | send t =>
    obtain ⟨cmd, a, hf, hp, h⟩ := flight_stepped h
    obtain rfl := Option.some.inj h
    exact .send t cmd a hx hf hp.1 hp.2
  | deliver t =>
    obtain ⟨cmd, a, hf, hp, h⟩ := flight_stepped h
    obtain rfl := Option.some.inj h
    exact .deliver t cmd a hx hf hp.1 hp.2
  | resume t =>
    obtain ⟨cmd, a, hf, hp, h⟩ := flight_stepped h
    exact .resume t cmd a w' hx hf hp.1 hp.2 h
  | fail t =>
    obtain ⟨cmd, a, hf, hp, h⟩ := flight_stepped h
    exact .fail t cmd a w' hx hf hp.1 hp.2 h
  | cancel t =>
    obtain rfl := Option.some.inj h
    exact .cancel t hx
  | cancelled t =>
    rw [run] at h
    split_ifs at h with hc
    exact .cancelled t w' hx hc h
  | closed i =>
    rw [run] at h
    split at h
    · rename_i hi
      obtain rfl := Option.some.inj h
      exact .closed i _ hx hi rfl rfl
    · cases h
  | closeFailed i =>
    rw [run] at h
    split at h
    · rename_i hi
      obtain rfl := Option.some.inj h
      exact .closeFailed i _ hx hi rfl rfl
    · cases h
  | _ => cases h

theorem next_stepped (h : w.next cfg a = some w') : w.Stepped cfg a w' := by
  have hrun (hn : (if w.exited then none else w.run cfg a) = some w') : w.Stepped cfg a w' := by
    split_ifs at hn with hx
    exact run_stepped (by simpa using hx) hn
  cases a with
  | apply t =>
    obtain ⟨cmd, a, hf, hp, h⟩ := flight_stepped h
    obtain rfl := Option.some.inj h
    exact .apply t cmd a hf hp
  | applyOrphan k =>
    obtain ⟨cmd, hk, rfl⟩ := Option.map_eq_some_iff.mp h
    exact .applyOrphan k cmd hk
  | dropOrphan k =>
    obtain ⟨cmd, hk, rfl⟩ := Option.map_eq_some_iff.mp h
    exact .dropOrphan k cmd hk
  | expire =>
    obtain rfl := Option.some.inj h
    exact .expire
  | _ => exact hrun h

end Inversion

end World

def lifecycle (cfg : Config) : Library.Machine World World.Action := ⟨World.next cfg⟩

end GemmaWorker.Heartbeat
