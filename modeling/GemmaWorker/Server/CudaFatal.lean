import GemmaWorker.Heartbeat.Shutdown
import GemmaWorker.Server.Requests

/-! Where an exception of vLLM goes on each entry point, and whether it ends the process. -/

namespace GemmaWorker.Server

open Python Heartbeat

section Failures

/-- A generation of the server or of the handler that raises, or one of the two boot phases. -/
inductive Failure
  | streaming
  | plain
  | openaiJob
  | nativeJob
  | modelDownload
  | engineStart
deriving DecidableEq

def Failure.boots : Failure → Bool
  | .modelDownload | .engineStart => true
  | _ => false

/-- A boot phase fails only while it lasts. -/
def Failure.Possible (w : World) : Failure → Prop
  | .modelDownload => w.boot.pc = .downloading
  | .engineStart => w.boot.pc = .initialising
  | _ => True

structure Fate where
  exits : Bool
  signals : ℕ

def Fate.served : Fate := ⟨false, 0⟩

def Fate.ofShutdown (run : List Command × World) : Fate :=
  ⟨run.2.exited, (run.1.filter Command.signals).length⟩

def Fate.Terminates (f : Fate) : Prop :=
  f.exits = true ∧ f.signals ≤ 1

def isCuda (text : PyStr) : Bool :=
  contains (lit "CUDA") text || contains (lit "cuda") text

variable (cfg : Config) (out : Outcomes) (w : World) (modelDump : PyStr → Value) (text : PyStr)

/-- `vLLMEngine.generate` turns every exception into a batch; `modelDump` is the dump of its response. -/
def nativeGenerate : EngineEvent :=
  .batch (.dict [(lit "error", modelDump text)])

/-- The engine for the OpenAI routes lets the exceptions of a generation pass. -/
def openaiGenerate : EngineEvent :=
  .raised text

def handlerFate : EngineEvent → Fate
  | .raised text => if isCuda text then ⟨true, 0⟩ else .served
  | _ => .served

def checkCudaFatal : Fate :=
  if isCuda text then .ofShutdown (fatalShutdown cfg out w) else .served

/-- The handler of an exception in `_stream_response` and in `_non_stream_response`. -/
def responseFate : EngineEvent → Fate
  | .raised text => checkCudaFatal cfg out w text
  | _ => .served

/-- The failure branch of a boot phase, which shuts down only under a control plane. -/
def bootFate : Fate :=
  match w.executorDone cfg false with
  | none => .served
  | some w' =>
    if cfg.isHeartbeatEnabled then .ofShutdown (drive cfg out w.calls.length 13 w') else ⟨w'.exited, 0⟩

def fate : Failure → Fate
  | .streaming | .plain => responseFate cfg out w (openaiGenerate text)
  | .openaiJob => handlerFate (openaiGenerate text)
  | .nativeJob => handlerFate (nativeGenerate modelDump text)
  | .modelDownload | .engineStart => bootFate cfg out w

end Failures

section Ends

variable {cfg : Config} {out : Outcomes} {w : World} {modelDump : PyStr → Value} {text : PyStr} {f : Failure}

lemma setBoot_halted (pc : BootPc) : (w.setBoot pc).halted = w.halted.setBoot pc := by
  have hbeat (u : World) : (u.setBoot pc).stopHeartbeat = u.stopHeartbeat.setBoot pc := by
    rw [World.stopHeartbeat, World.stopHeartbeat]
    have hcond : ((u.setBoot pc).loopHandle && ((u.setBoot pc).beat .loop).pc.suspended) =
        (u.loopHandle && (u.beat .loop).pc.suspended) := rfl
    rw [hcond]
    split_ifs <;> rfl
  have hidle (u : World) : (u.setBoot pc).stopIdleTimeout = u.stopIdleTimeout.setBoot pc := by
    rw [World.stopIdleTimeout, World.stopIdleTimeout]
    have hcond : (u.setBoot pc).idleHandle = u.idleHandle ∧ (u.setBoot pc).monitor = u.monitor := ⟨rfl, rfl⟩
    rw [hcond.1, hcond.2]
    split <;> rfl
  rw [World.halted, World.halted, ← hidle, ← hbeat]
  rfl

lemma setBoot_getRedis (u : World) (pc : BootPc) : (u.setBoot pc).getRedis = u.getRedis.setBoot pc := by
  rw [World.getRedis, World.getRedis]
  have hcond : (u.setBoot pc).redis = u.redis := rfl
  rw [hcond]
  split <;> rfl

lemma setBoot_beginCall (pc : BootPc) : (w.beginCall cfg unhealthyReason true false).setBoot pc =
    (w.setBoot pc).beginCall cfg unhealthyReason true false := by
  cases hs : w.signaled with
  | true =>
    have hs' : (w.setBoot pc).signaled = true := hs
    cases hr : w.redis with
    | none =>
      have hr' : (w.setBoot pc).redis = none := hr
      simp only [World.beginCall, hs, hs', hr, hr', if_true]
      rfl
    | some k =>
      have hr' : (w.setBoot pc).redis = some k := hr
      simp only [World.beginCall, hs, hs', hr, hr', if_true]
      rfl
  | false =>
    have hs' : (w.setBoot pc).signaled = false := hs
    cases he : cfg.isHeartbeatEnabled with
    | true =>
      rw [World.beginCall_first he hs, World.beginCall_first he hs', setBoot_halted, setBoot_getRedis]
      rfl
    | false =>
      have hdisabled (u : World) (hu : u.signaled = false) : u.beginCall cfg unhealthyReason true false =
          u.halted.addCall unhealthyReason true false .returned := by
        simp [World.beginCall, hu, he, World.halted]
      rw [hdisabled w hs, hdisabled _ hs', setBoot_halted]
      rfl

lemma shutdown_terminates (hx : w.exited = false) :
    (Fate.ofShutdown (fatalShutdown cfg out w)).Terminates ↔ ShutdownReturns cfg out w := by
  obtain ⟨hexits, hsignals⟩ := @fatalShutdown_exits cfg out w hx
  exact ⟨fun h => hexits.mp h.1, fun h => ⟨hexits.mpr h, hsignals⟩⟩

lemma exited_setBoot (hx : w.exited = false) : (w.setBoot .failing).exited = false := by
  obtain ⟨-, hcalls⟩ := Bool.or_eq_false_iff.mp (show (_ || w.calls.any Call.hasExited) = false from hx)
  rw [World.exited, Bool.or_eq_false_iff]
  exact ⟨rfl, hcalls⟩

lemma boot_terminates (hx : w.exited = false) (hpc : w.boot.pc = .downloading ∨ w.boot.pc = .initialising) :
    (bootFate cfg out w).Terminates ↔ cfg.isHeartbeatEnabled = false ∨ ShutdownReturns cfg out w := by
  cases he : cfg.isHeartbeatEnabled with
  | true =>
    have hdone : w.executorDone cfg false =
        some ((w.setBoot .failing).beginCall cfg unhealthyReason true false) := by
      rw [← setBoot_beginCall]
      rcases hpc with hpc | hpc <;> simp [World.executorDone, hpc, he, unhealthyReason]
    have hfate : bootFate cfg out w = .ofShutdown (fatalShutdown cfg out (w.setBoot .failing)) := by
      rw [bootFate, hdone]
      simp only [he, if_true]
      rfl
    have hreturns : ShutdownReturns cfg out (w.setBoot .failing) ↔ ShutdownReturns cfg out w := Iff.rfl
    rw [hfate, shutdown_terminates (exited_setBoot hx), hreturns]
    simp
  | false =>
    have hdone : w.executorDone cfg false = some (w.setBoot .exited) := by
      rcases hpc with hpc | hpc <;> simp [World.executorDone, hpc, he]
    have hfate : bootFate cfg out w = ⟨true, 0⟩ := by
      rw [bootFate, hdone]
      simp only [he]
      rfl
    rw [hfate]
    simp [Fate.Terminates]

/-- A GPU failure and a failed boot end the process where no exception of the shutdown comes first, except
for the native jobs of the handler, which always go on. -/
theorem terminates_iff (hx : w.exited = false) (hf : f.Possible w) (hcuda : f.boots = false → isCuda text = true) :
    (fate cfg out w modelDump text f).Terminates ↔ f ≠ .nativeJob ∧ (f = .openaiJob ∨
      (f.boots = true ∧ cfg.isHeartbeatEnabled = false) ∨ ShutdownReturns cfg out w) := by
  have hresponse (hb : f.boots = false) : responseFate cfg out w (openaiGenerate text) =
      .ofShutdown (fatalShutdown cfg out w) := by
    simp [responseFate, openaiGenerate, checkCudaFatal, hcuda hb]
  cases f with
  | streaming =>
    rw [fate, hresponse rfl, shutdown_terminates hx]
    simp [Failure.boots]
  | plain =>
    rw [fate, hresponse rfl, shutdown_terminates hx]
    simp [Failure.boots]
  | openaiJob => simp [fate, handlerFate, openaiGenerate, hcuda rfl, Fate.Terminates]
  | nativeJob => simp [fate, handlerFate, nativeGenerate, Fate.Terminates, Fate.served]
  | modelDownload =>
    rw [fate, boot_terminates hx (Or.inl hf)]
    simp [Failure.boots]
  | engineStart =>
    rw [fate, boot_terminates hx (Or.inr hf)]
    simp [Failure.boots]

def outOfMemory : PyStr := lit "CUDA out of memory"

theorem terminates_answered :
    (fate .sample ⟨true, true, true, true⟩ (.init .sample) .str outOfMemory .streaming).Terminates ↔
      Failure.streaming ≠ .nativeJob ∧ (Failure.streaming = .openaiJob ∨
        (Failure.streaming.boots = true ∧ Config.sample.isHeartbeatEnabled = false) ∨
          ShutdownReturns .sample ⟨true, true, true, true⟩ (.init .sample)) :=
  terminates_iff (by decide) trivial (by decide)

/-- A native job goes on with a broken GPU, and so does the server when Redis refuses the signal. -/
theorem goes_on_serving :
    isCuda outOfMemory = true ∧
      ¬ (fate .sample ⟨true, true, true, true⟩ (.init .sample) .str outOfMemory .nativeJob).Terminates ∧
      ¬ (fate .sample ⟨false, true, true, true⟩ (.init .sample) .str outOfMemory .streaming).Terminates := by
  refine ⟨by decide, by simp [fate, handlerFate, nativeGenerate, Fate.Terminates, Fate.served], ?_⟩
  have hfate : fate .sample ⟨false, true, true, true⟩ (.init .sample) .str outOfMemory .streaming =
      .ofShutdown (fatalShutdown .sample ⟨false, true, true, true⟩ (.init .sample)) := by
    rfl
  rw [hfate, shutdown_terminates (by decide)]
  decide

end Ends

end GemmaWorker.Server
