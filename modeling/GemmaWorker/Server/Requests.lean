import GemmaWorker.Library.Transition
import GemmaWorker.Heartbeat.LoadTracker
import GemmaWorker.Server.Response

/-! The requests of `_handle_openai`, from their arrival to the end of their response, with the load
tracker they share and the idle monitor that reads it. A step runs one request to its next suspension. -/

namespace GemmaWorker.Server

open Python Heartbeat

section Stream

def dataLine (text : PyStr) : PyStr :=
  lit "data: " ++ text ++ lit "\n\n"

def batchChunks : Value → List PyStr
  | .str s => [s]
  | .list xs => xs.map (fun x => match x with | .str s => s | x => dataLine (jsonDumps x))
  | v => [dataLine (jsonDumps v)]

/-- What `openai_engine.generate` does next: a batch, its end, or an exception with this text. -/
inductive EngineEvent
  | batch (b : Value)
  | exhausted
  | raised (text : PyStr)

def chunks : EngineEvent → List PyStr × Bool
  | .batch b => if hasError b then ([dataLine (jsonDumps b)], true) else (batchChunks b, false)
  | .exhausted => ([dataLine (lit "[DONE]")], true)
  | .raised text => ([dataLine (jsonDumps (errorContent text))], true)

end Stream

section State

/-- A streaming response is dropped or pulled for the first time when it is `unstarted`; later it waits
for the engine or for its consumer. -/
inductive RequestPc
  | reading
  | refused
  | collecting (result : Option Value)
  | unstarted
  | awaiting
  | yielded (rest : List PyStr) (last : Bool)
  | ended (time : ℚ)

def RequestPc.inFlight : RequestPc → Bool
  | .collecting _ | .unstarted | .awaiting | .yielded _ _ => true
  | _ => false

structure Request where
  pc : RequestPc
  response : Option Response
  sent : List PyStr

inductive MonitorState
  | absent
  | watching
  | fired

structure State where
  enginesReady : Bool
  clock : ℚ
  tracker : LoadTracker
  monitor : MonitorState
  requests : List Request

inductive Event
  | enginesReady
  | startIdleTimeout
  | arrive
  | body (i : ℕ) (content : Option Value)
  | engine (i : ℕ) (e : EngineEvent)
  | pull (i : ℕ)
  | cancel (i : ℕ)
  | tick

/-- A synchronous stretch reads the clock at `now`, and at `later` when it reads it a second time. -/
structure Action where
  event : Event
  now : ℚ
  later : ℚ

def State.init (cfg : Config) : State :=
  ⟨false, cfg.startTime, ⟨0, cfg.startTime⟩, .absent, []⟩

end State

namespace State

variable (cfg : Config) (s : State) (now later : ℚ)

def setRequest (i : ℕ) (r : Request) : State :=
  { s with requests := s.requests.set i r }

def track (ops : List (RequestOp × ℚ)) : State :=
  { s with tracker := ops.foldl (fun tr op => op.1.apply tr op.2) s.tracker }

def refuse (i : ℕ) (r : Request) (response : Option Response) : State :=
  s.setRequest i { r with pc := .refused, response := response }

def branch (items : List (PyStr × Value)) : RequestPc :=
  if truthy (dictGet items (lit "stream") (.bool false)) then .unstarted else .collecting none

/-- `body.get` raises on other values than dicts, before the load is counted. -/
def handleBody (i : ℕ) (r : Request) : Option Value → State
  | some (.dict items) =>
    (s.track [(.increment, now), (.touch, later)]).setRequest i { r with pc := branch items }
  | some _ => s.refuse i r none
  | none => s.refuse i r (jsonResponse 400 (errorContent (lit "Invalid JSON body"))).toOption

/-- An exception that leaves `_non_stream_response` meets both decrements of `_handle_openai`. -/
def finishNonStream (i : ℕ) (r : Request) : Except PyStr Response → State
  | .ok response =>
    (s.track [(.decrement, now)]).setRequest i { r with pc := .ended now, response := some response }
  | .error _ =>
    (s.track [(.decrement, now), (.decrement, later)]).setRequest i { r with pc := .ended later }

def endStream (i : ℕ) (r : Request) : State :=
  (s.track [(.decrement, now)]).setRequest i { r with pc := .ended now }

def advance (i : ℕ) (r : Request) : List PyStr → Bool → State
  | c :: rest, last => s.setRequest i { r with pc := .yielded rest last, sent := r.sent ++ [c] }
  | [], false => s.setRequest i { r with pc := .awaiting }
  | [], true => s.endStream now i r

def handleEngine (i : ℕ) (r : Request) (e : EngineEvent) : Option State :=
  match r.pc, e with
  | .collecting _, .batch b => some (s.setRequest i { r with pc := .collecting (some b) })
  | .collecting result, .exhausted => some (s.finishNonStream now later i r (nonStreamResponse (.finished result)))
  | .collecting _, .raised text => some (s.finishNonStream now later i r (nonStreamResponse (.raised text)))
  | .awaiting, e => some (s.advance now i r (chunks e).1 (chunks e).2)
  | _, _ => none

def handlePull (i : ℕ) (r : Request) : Option State :=
  match r.pc with
  | .unstarted => some (s.setRequest i { r with pc := .awaiting })
  | .yielded rest last => some (s.advance now i r rest last)
  | _ => none

/-- A generator that has not started runs no `finally` when it is dropped. -/
def handleCancel (i : ℕ) (r : Request) : Option State :=
  match r.pc with
  | .reading => some (s.refuse i r none)
  | .unstarted => some (s.setRequest i { r with pc := .ended now })
  | .collecting _ | .awaiting | .yielded _ _ => some (s.endStream now i r)
  | _ => none

def arrive : State :=
  { s with requests := s.requests ++ [⟨.reading, none, []⟩] }

def arriveEarly : State :=
  { s with
    requests := s.requests ++
      [⟨.refused, (jsonResponse 503 (errorContent (lit "Model loading, please retry"))).toOption, []⟩] }

def handleTick : Option State :=
  match s.monitor with
  | .watching => some (if s.tracker.Idle now cfg.idleTimeoutS then { s with monitor := .fired } else s)
  | _ => none

def startIdleTimeout : Option State :=
  match s.monitor with
  | .absent => some (if cfg.idleTimeoutS = 0 then s else { s with monitor := .watching })
  | _ => none

def step : Event → Option State
  | .enginesReady => some { s with enginesReady := true }
  | .startIdleTimeout => s.startIdleTimeout cfg
  | .arrive => some (if s.enginesReady then s.arrive else s.arriveEarly)
  | .body i content =>
    s.requests[i]?.bind (fun r => match r.pc with
      | .reading => some (s.handleBody now later i r content)
      | _ => none)
  | .engine i e => s.requests[i]?.bind (fun r => s.handleEngine now later i r e)
  | .pull i => s.requests[i]?.bind (fun r => s.handlePull now i r)
  | .cancel i => s.requests[i]?.bind (fun r => s.handleCancel now i r)
  | .tick => s.handleTick cfg now

def next (a : Action) : Option State :=
  if s.clock ≤ a.now ∧ a.now ≤ a.later then
    (s.step cfg a.now a.later a.event).map (fun t => { t with clock := a.later })
  else none

end State

def server (cfg : Config) : Library.Machine State Action := ⟨State.next cfg⟩

end GemmaWorker.Server
