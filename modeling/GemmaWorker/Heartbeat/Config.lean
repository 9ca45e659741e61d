import GemmaWorker.Python.JsonRoundTrip

/-! The identity, routing and timing of a worker, as `heartbeat/config.py` reads them. -/

namespace GemmaWorker.Heartbeat

open Python

def heartbeatIntervalS : ℕ := 10
def heartbeatTtlS : ℕ := 30
def idleCheckIntervalS : ℕ := 60

/-- The environment of the worker. What goes into the provider routing is Unicode text. -/
structure Config where
  tenantId : PyStr
  serviceId : PyStr
  instanceId : PyStr
  redisUrl : PyStr
  provider : PyStr
  runpodPodId : PyStr
  hostname : PyStr
  region : PyStr
  idleTimeoutMinutes : ℤ
  skipModelLoad : Bool
  startTime : ℚ
  provider_encodable : encodable provider
  runpodPodId_encodable : encodable runpodPodId
  hostname_encodable : encodable hostname

namespace Config

variable (cfg : Config)

def idleTimeoutS : ℤ := cfg.idleTimeoutMinutes * 60

def getPodId : PyStr :=
  if cfg.runpodPodId ≠ [] then cfg.runpodPodId else cfg.hostname

def hashKey : PyStr :=
  lit "machines:" ++ cfg.serviceId ++ ch ':' :: cfg.instanceId

def setKey : PyStr :=
  lit "machines:" ++ cfg.serviceId ++ lit ":active"

def terminateChannel : PyStr :=
  lit "instance:terminate:" ++ cfg.serviceId

def routing : Value :=
  .dict [(lit "provider", .str cfg.provider), (lit "podId", .str cfg.getPodId)]

def getProviderRouting : PyStr :=
  jsonDumps cfg.routing

def getCustomMetadata : PyStr :=
  jsonDumps (.dict [])

def isHeartbeatEnabled : Bool :=
  cfg.tenantId ≠ [] && cfg.serviceId ≠ [] && cfg.instanceId ≠ [] && cfg.redisUrl ≠ []

lemma getPodId_encodable : encodable cfg.getPodId = true := by
  rw [getPodId]
  split_ifs
  · exact cfg.runpodPodId_encodable
  · exact cfg.hostname_encodable

lemma routing_isJson : cfg.routing.IsJson := by
  have hkeys : [lit "provider", lit "podId"].Nodup := by decide
  have hprovider : encodable (lit "provider") = true := by decide
  have hpodId : encodable (lit "podId") = true := by decide
  simp only [routing, Value.IsJson, AllMembersJson]
  exact ⟨hkeys, hprovider, cfg.provider_encodable, hpodId, cfg.getPodId_encodable, trivial⟩

/-- The routing is one object of two texts, which every interpreter reads back. -/
theorem loads_providerRouting [Interpreter] : jsonLoads cfg.getProviderRouting = .ok cfg.routing := by
  have hblank : IsBlank (lit " ") := rfl
  refine jsonLoads_text hblank cfg.routing_isJson ?_
  exact ⟨Interpreter.nesting_pos, trivial, trivial, trivial⟩

def sample : Config where
  tenantId := lit "t1"
  serviceId := lit "gemma"
  instanceId := lit "i1"
  redisUrl := lit "redis://r"
  provider := lit "runpod"
  runpodPodId := lit "p1"
  hostname := []
  region := lit "EU"
  idleTimeoutMinutes := 20
  skipModelLoad := false
  startTime := 0
  provider_encodable := by decide
  runpodPodId_encodable := by decide
  hostname_encodable := encodable_nil

end Config

end GemmaWorker.Heartbeat
