import GemmaWorker.Server.Requests

/-! Who decides that a request streams: the server, the engine and vLLM's request class. -/

namespace GemmaWorker.Server

open Python

abbrev Body := List (PyStr × Value)

section Decisions

def serverStreams (body : Body) : Bool :=
  truthy (dictGet body (lit "stream") (.bool false))

def engineStreams (body : Body) : Bool :=
  truthy (dictGet body (lit "stream") .none)

def trueSpellings : List PyStr :=
  [lit "1", lit "on", lit "t", lit "true", lit "y", lit "yes"]

def falseSpellings : List PyStr :=
  [lit "0", lit "off", lit "f", lit "false", lit "n", lit "no"]

def intBool (n : ℤ) : Option Bool :=
  if n = 0 then some false else if n = 1 then some true else none

def laxBool : Value → Option Bool
  | .bool b => some b
  | .int n => intBool n
  | .float (.finite d) => if d.places = 0 then intBool d.mant else none
  | .str s =>
    if lower s ∈ trueSpellings then some true
    else if lower s ∈ falseSpellings then some false
    else none
  | _ => none

/-- The field `stream: Optional[bool] = False` of a request class, where `None` counts as false; `none`
where the class refuses the value. -/
def requestStream (body : Body) : Option Bool :=
  match dictGet body (lit "stream") (.bool false) with
  | .none => some false
  | v => laxBool v

inductive Reply
  | generator
  | response
  | error
deriving DecidableEq

/-- What `create_chat_completion` and `create_completion` return; they may fail on any request. -/
def vllmReply (stream fails : Bool) : Reply :=
  if fails then .error else if stream then .generator else .response

inductive Handling
  | dumped
  | iterated
  | raised
deriving DecidableEq

/-- A generator has no `model_dump`, and a response is no asynchronous iterable. -/
def handleReply (body : Body) (reply : Reply) : Handling :=
  if ¬ engineStreams body ∨ reply = .error then
    if reply = .generator then .raised else .dumped
  else
    if reply = .generator then .iterated else .raised

/-- One decision, in which the engine handles every reply as what it is. -/
structure OneDecision (body : Body) (stream : Bool) : Prop where
  server : serverStreams body = stream
  engine : engineStreams body = stream
  handled : ∀ fails, handleReply body (vllmReply stream fails) ≠ .raised

def saysFalse : Value → Bool
  | .str s => lower s ∈ falseSpellings
  | _ => false

end Decisions

section Agreement

variable {body : Body} {stream : Bool}

lemma truthy_intBool {n : ℤ} (h : intBool n = some stream) : truthy (.int n) = stream := by
  rw [intBool] at h
  split_ifs at h with h0 h1
  · simpa [truthy, h0] using h
  · simpa [truthy, h1] using h

lemma truthy_float {d : Decimal} (h : laxBool (.float (.finite d)) = some stream) :
    truthy (.float (.finite d)) = stream := by
  obtain ⟨m, places, hc⟩ := d
  rw [laxBool] at h
  split_ifs at h with hp
  obtain rfl : places = 0 := hp
  rw [← truthy_intBool h]
  simp [truthy]

lemma truthy_str {s : PyStr} (h : laxBool (.str s) = some stream) :
    truthy (.str s) = stream ↔ saysFalse (.str s) = false := by
  have hempty : lower ([] : PyStr) ∉ trueSpellings ∧ lower ([] : PyStr) ∉ falseSpellings := by decide
  have hne : s ≠ [] := by
    rintro rfl
    simp [laxBool, hempty] at h
  have hdisjoint : ∀ t ∈ trueSpellings, t ∉ falseSpellings := by decide
  rw [laxBool] at h
  split_ifs at h with ht hf
  · obtain rfl := Option.some.inj h
    simp [truthy, saysFalse, hdisjoint _ ht, hne]
  · obtain rfl := Option.some.inj h
    simp [truthy, saysFalse, hf, hne]

/-- Python's truth value is pydantic's, except for the strings that say false. -/
theorem truthy_eq_iff {v : Value} (h : laxBool v = some stream) : truthy v = stream ↔ saysFalse v = false := by
  cases v with
  | bool b =>
    obtain rfl := Option.some.inj h
    exact iff_of_true rfl rfl
  | int n => exact iff_of_true (truthy_intBool h) rfl
  | float x =>
    cases x with
    | finite d => exact iff_of_true (truthy_float h) rfl
    | _ => cases h
  | str s => exact truthy_str h
  | _ => cases h

lemma engineStreams_eq : engineStreams body = serverStreams body := by
  rw [engineStreams, serverStreams, dictGet, dictGet]
  cases body.find? (fun kv => kv.1 == lit "stream") <;> rfl

lemma serverStreams_eq_iff (h : requestStream body = some stream) :
    serverStreams body = stream ↔ saysFalse (dictGet body (lit "stream") (.bool false)) = false := by
  rw [requestStream] at h
  rw [serverStreams]
  split at h
  next hnone =>
    obtain rfl := Option.some.inj h
    rw [hnone]
    exact iff_of_true rfl rfl
  next => exact truthy_eq_iff h

lemma handleReply_ne_raised (h : engineStreams body = stream) (fails : Bool) :
    handleReply body (vllmReply stream fails) ≠ .raised := by
  cases fails <;> cases stream <;> simp [handleReply, vllmReply, h]

/-- The three decide alike on every accepted body, unless its `stream` is a string that says false. -/
theorem oneDecision_iff (h : requestStream body = some stream) :
    OneDecision body stream ↔ saysFalse (dictGet body (lit "stream") (.bool false)) = false := by
  rw [← serverStreams_eq_iff h]
  constructor
  · exact fun hone => hone.server
  · intro hserver
    have hengine : engineStreams body = stream := engineStreams_eq.trans hserver
    exact ⟨hserver, hengine, handleReply_ne_raised hengine⟩

def offBody : Body := [(lit "stream", .str (lit "off"))]

theorem oneDecision_offBody : OneDecision offBody false ↔
    saysFalse (dictGet offBody (lit "stream") (.bool false)) = false :=
  oneDecision_iff rfl

/-- A client that sends `"stream": "off"` gets an event stream in which the engine fails. -/
theorem off_streams : requestStream offBody = some false ∧ ¬ OneDecision offBody false ∧
    handleReply offBody (vllmReply false false) = .raised := by
  refine ⟨rfl, fun h => ?_, rfl⟩
  exact absurd h.server (by decide)

end Agreement

end GemmaWorker.Server
