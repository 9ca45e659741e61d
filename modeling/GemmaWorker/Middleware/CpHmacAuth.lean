import GemmaWorker.Python.Url

/-! The HMAC gate in front of the routes, with the request line it reads and the router behind it. -/

namespace GemmaWorker.Middleware

open Python

structure JSONResponse where
  statusCode : ℕ
  error : String
  message : String
deriving DecidableEq, Repr

def unauthorized (message : String) : JSONResponse :=
  ⟨401, "Unauthorized", message⟩

def missingHeaders : JSONResponse := unauthorized "Missing HMAC authentication headers"
def invalidTimestamp : JSONResponse := unauthorized "Invalid timestamp format"
def staleTimestamp : JSONResponse := unauthorized "Request timestamp too old or in future"
def invalidSignature : JSONResponse := unauthorized "Invalid HMAC signature"
def serverConfiguration : JSONResponse :=
  ⟨500, "Internal Server Error", "Server configuration error"⟩

def maxRequestAgeMs : ℤ := 5 * 60 * 1000

inductive Scheme
  | http
  | https
deriving DecidableEq

def Scheme.text : Scheme → PyStr
  | .http => lit "http"
  | .https => lit "https"

lemma get_encodable : encodable (lit "GET") = true := by decide

/-- The parts of the ASGI scope that name the target. Header values are decoded as Latin-1, the
method, path and query string from bytes, so none of them holds a surrogate. -/
structure RequestLine where
  method : PyStr
  scheme : Scheme
  host : PyStr
  path : PyStr
  query : PyStr
  host_latin1 : isLatin1 host
  method_encodable : encodable method
  path_encodable : encodable path
  query_encodable : encodable query

structure Request where
  line : RequestLine
  signature : Option PyStr
  timestamp : Option PyStr

structure Environ where
  secret : Option PyStr
  instanceId : Option PyStr

def targetText (path query : PyStr) : PyStr :=
  if query = [] then path else path ++ ch '?' :: query

def RequestLine.urlText (l : RequestLine) : PyStr :=
  l.scheme.text ++ lit "://" ++ l.host ++ targetText l.path l.query

def RequestLine.url (netlocOk : PyStr → Bool) (l : RequestLine) : Except PyError SplitResult :=
  urlsplit netlocOk l.urlText

def signedMessage (timestamp method target instanceId : PyStr) : PyStr :=
  timestamp ++ ch '.' :: method ++ ch '.' :: target ++ ch '.' :: instanceId

def hexdigest (hmac : PyStr → PyStr → PyStr) (secret message : PyStr) : Except PyError PyStr :=
  if encodable secret && encodable message then .ok (hmac secret message)
  else .error .unicodeEncodeError

def compareDigest (a b : PyStr) : Except PyError Bool :=
  if isAscii a && isAscii b then .ok (a == b) else .error .typeError

section

variable (netlocOk : PyStr → Bool) (hmac : PyStr → PyStr → PyStr)

def verifySignature (l : RequestLine) (secret instanceId signature timestamp : PyStr) :
    Except PyError (Option JSONResponse) := do
  let url ← l.url netlocOk
  let message := signedMessage timestamp l.method (targetText url.path url.query) instanceId
  let expected ← hexdigest hmac secret message
  let same ← compareDigest signature expected
  pure (if same then none else some invalidSignature)

/-- `nowMs` is `int(time.time() * 1000)`. -/
def verifyCpHmac (env : Environ) (nowMs : ℤ) (req : Request) :
    Except PyError (Option JSONResponse) :=
  let signature := req.signature.getD []
  let timestamp := req.timestamp.getD []
  if signature = [] ∨ timestamp = [] then .ok (some missingHeaders)
  else match pyInt timestamp with
    | .error _ => .ok (some invalidTimestamp)
    | .ok requestTime =>
      if maxRequestAgeMs < |nowMs - requestTime| then .ok (some staleTimestamp)
      else if env.secret.getD [] = [] then .ok (some serverConfiguration)
      else if env.instanceId.getD [] = [] then .ok (some serverConfiguration)
      else verifySignature netlocOk hmac req.line (env.secret.getD []) (env.instanceId.getD [])
        signature timestamp

def exemptPaths : List PyStr := [lit "/health", lit "/ready", lit "/ping"]

inductive Outcome
  | callNext
  | respond (r : JSONResponse)
  | raised (e : PyError)
deriving DecidableEq

def dispatch (env : Environ) (nowMs : ℤ) (req : Request) : Outcome :=
  match req.line.url netlocOk with
  | .error e => .raised e
  | .ok url =>
    if url.path ∈ exemptPaths then .callNext
    else match verifyCpHmac netlocOk hmac env nowMs req with
      | .error e => .raised e
      | .ok (some response) => .respond response
      | .ok none => .callNext

end

inductive Endpoint
  | health
  | ping
  | ready
  | chatCompletions
  | completions
  | models
deriving DecidableEq

def routes : List (String × String × Endpoint) :=
  [("GET", "/health", .health), ("GET", "/ping", .ping), ("GET", "/ready", .ready),
    ("POST", "/v1/chat/completions", .chatCompletions), ("POST", "/v1/completions", .completions),
    ("GET", "/v1/models", .models)]

def RequestLine.endpoint (l : RequestLine) : Option Endpoint :=
  (routes.find? (fun r => lit r.1 = l.method && lit r.2.1 = l.path)).map (fun r => r.2.2)

def Endpoint.isProtected : Endpoint → Bool
  | .chatCompletions | .completions | .models => true
  | .health | .ping | .ready => false

def RequestLine.IsProtected (l : RequestLine) : Prop :=
  ∃ e, l.endpoint = some e ∧ e.isProtected

def protectedPaths : List PyStr :=
  [lit "/v1/chat/completions", lit "/v1/completions", lit "/v1/models"]

lemma RequestLine.IsProtected.path_mem {l : RequestLine} (h : l.IsProtected) :
    l.path ∈ protectedPaths := by
  obtain ⟨e, he, hp⟩ := h
  obtain ⟨r, hr, rfl⟩ := Option.map_eq_some_iff.mp he
  have hl := List.find?_some hr
  have hm := List.mem_of_find?_eq_some hr
  simp only [Bool.and_eq_true, decide_eq_true_eq] at hl
  rw [← hl.2]
  revert hp
  fin_cases hm <;> simp [Endpoint.isProtected, protectedPaths]

end GemmaWorker.Middleware
