import GemmaWorker.Heartbeat.LoadTracker

/-! The commands that `heartbeat/heartbeat_service.py` sends to Redis and what they do to the
registry entry of the instance. -/

namespace GemmaWorker.Heartbeat

open Python

inductive Status
  | booting
  | healthy
  | draining
deriving DecidableEq

def Status.text : Status → PyStr
  | .booting => lit "booting"
  | .healthy => lit "healthy"
  | .draining => lit "draining"

abbrev Fields := List (PyStr × PyStr)

def millisText (t : ℚ) : PyStr :=
  intText ((t * 1000).num.tdiv (t * 1000).den)

def heartbeatFields (cfg : Config) (load : ℤ) (status : Status) (now : ℚ) : Fields :=
  [(lit "instanceId", cfg.instanceId), (lit "serviceId", cfg.serviceId),
    (lit "tenantId", cfg.tenantId), (lit "providerRouting", cfg.getProviderRouting),
    (lit "customMetadata", Config.getCustomMetadata), (lit "load", intText load),
    (lit "lastHeartbeat", millisText now), (lit "status", status.text), (lit "region", cfg.region),
    (lit "startedAt", millisText cfg.startTime)]

/-- The `heartbeat` pipeline sets the fields and the time to live and adds the member, at once. -/
inductive Command
  | heartbeat (fields : Fields)
  | setStatus (status : Status)
  | publish (channel message : PyStr)
  | delete
  | srem

def Command.writes : Command → Bool
  | .heartbeat _ | .setStatus _ => true
  | _ => false

def Command.signals : Command → Bool
  | .publish _ _ => true
  | _ => false

def Command.deregisters : Command → Bool
  | .delete | .srem => true
  | _ => false

def Command.removesMember : Command → Bool
  | .srem => true
  | _ => false

section Messages

variable (cfg : Config) (reason : PyStr)

def terminationItems (podId : Value) : List (PyStr × Value) :=
  [(lit "instanceId", .str cfg.instanceId), (lit "serviceId", .str cfg.serviceId),
    (lit "tenantId", .str cfg.tenantId), (lit "podId", podId), (lit "provider", .str cfg.provider),
    (lit "reason", .str reason)]

/-- The message of `signal_termination`. Its pod id is read back from the routing's JSON text. -/
def terminationMessage : Except PyError PyStr := do
  match ← jsonLoads cfg.getProviderRouting with
  | .dict items => return jsonDumps (.dict (terminationItems cfg reason (dictGet items (lit "podId") (.str []))))
  | _ => .error .typeError

theorem terminationMessage_eq : terminationMessage cfg reason =
    .ok (jsonDumps (.dict (terminationItems cfg reason (.str cfg.getPodId)))) := by
  rw [terminationMessage, cfg.loads_providerRouting]
  rfl

theorem terminationMessage_inj {cfg : Config} {r r' : PyStr} (hr : encodable r = true)
    (hr' : encodable r' = true) (h : terminationMessage cfg r = terminationMessage cfg r') : r = r' := by
  rw [terminationMessage_eq, terminationMessage_eq] at h
  have htext := Except.ok.inj h
  simp only [jsonDumps, terminationItems, Value.text, membersText, List.isEmpty_cons, List.isEmpty_nil,
    if_true, if_false, Bool.false_eq_true, List.append_nil] at htext
  refine quote_inj hr hr' ?_
  simpa using htext

end Messages

section Registry

structure Entry where
  fields : Fields
  expires : Bool

structure Registry where
  entry : Option Entry
  member : Bool

def setField (fields : Fields) (kv : PyStr × PyStr) : Fields :=
  if fields.any (fun old => old.1 == kv.1) then
    fields.map (fun old => if old.1 = kv.1 then kv else old)
  else fields ++ [kv]

namespace Registry

def empty : Registry := ⟨none, false⟩

def apply (r : Registry) : Command → Registry
  | .heartbeat fields =>
    { r with
      entry := some ⟨fields.foldl setField ((r.entry.map Entry.fields).getD []), true⟩
      member := true }
  | .setStatus status =>
    { r with
      entry := some ⟨setField ((r.entry.map Entry.fields).getD []) (lit "status", status.text),
        (r.entry.map Entry.expires).getD false⟩ }
  | .publish _ _ => r
  | .delete => { r with entry := none }
  | .srem => { r with member := false }

def expire (r : Registry) : Registry :=
  { r with entry := r.entry.filter (fun e => !e.expires) }

end Registry

end Registry

end GemmaWorker.Heartbeat
