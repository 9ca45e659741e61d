import GemmaWorker.Middleware.RoutedPath

/-! When the gate answers a request to a path that is not exempt, and when an exception leaves it. -/

namespace GemmaWorker.Middleware

open Python

section

variable (netlocOk : PyStr → Bool) (hmac : PyStr → PyStr → PyStr)

def NotExempt (l : RequestLine) : Prop :=
  ∀ url, l.url netlocOk = .ok url → url.path ∉ exemptPaths

/-- Verification returns, a request passes only with good credentials, and what is sent back otherwise
is one of the gate's own answers: 500 only on a pod without a secret or an id, else 401. -/
def Answers (env : Environ) (nowMs : ℤ) (req : Request) : Prop :=
  (∃ o, verifyCpHmac netlocOk hmac env nowMs req = .ok o) ∧
    match dispatch netlocOk hmac env nowMs req with
    | .callNext => ∃ url, req.line.url netlocOk = .ok url ∧
        Authenticated hmac env nowMs req (targetText url.path url.query)
    | .respond r =>
      (r ∈ [missingHeaders, invalidTimestamp, staleTimestamp, invalidSignature] ∧
        r.statusCode = 401) ∨
      (r = serverConfiguration ∧ r.statusCode = 500 ∧
        (env.secret.getD [] = [] ∨ env.instanceId.getD [] = []))
    | .raised _ => False

/-- `urlsplit` takes the host part, and credentials that reach the comparison are ASCII on the
request's side and free of surrogates on the pod's. -/
def Readable (env : Environ) (nowMs : ℤ) (req : Request) : Prop :=
  netlocOk req.line.netloc = true ∧ ∀ secret instanceId signature timestamp,
    Presented env nowMs req secret instanceId signature timestamp →
      encodable secret = true ∧ encodable instanceId = true ∧ isAscii signature = true

end

section

variable {netlocOk : PyStr → Bool} {hmac : PyStr → PyStr → PyStr} {env : Environ} {nowMs : ℤ}
variable {req : Request} {url : SplitResult}

lemma dispatch_of_url (hu : req.line.url netlocOk = .ok url) (hne : url.path ∉ exemptPaths)
    {o : Option JSONResponse} (h : verifyCpHmac netlocOk hmac env nowMs req = .ok o) :
    dispatch netlocOk hmac env nowMs req = o.elim .callNext .respond := by
  simp only [dispatch, hu, if_neg hne, h]
  cases o <;> rfl

lemma earlyRefusal_status {r : JSONResponse} (h : EarlyRefusal env r) :
    (r ∈ [missingHeaders, invalidTimestamp, staleTimestamp, invalidSignature] ∧
      r.statusCode = 401) ∨
    (r = serverConfiguration ∧ r.statusCode = 500 ∧
      (env.secret.getD [] = [] ∨ env.instanceId.getD [] = [])) := by
  rcases h with h | ⟨rfl, h⟩
  · refine Or.inl ⟨List.mem_append_left [invalidSignature] h, ?_⟩
    fin_cases h <;> rfl
  · exact Or.inr ⟨rfl, rfl, h⟩

lemma readable_answers (hmac_ascii : ∀ secret message, isAscii (hmac secret message) = true)
    (hne : NotExempt netlocOk req.line) (h : Readable netlocOk env nowMs req) :
    Answers netlocOk hmac env nowMs req := by
  obtain ⟨url, hu⟩ : ∃ url, req.line.url netlocOk = .ok url := by
    rw [url_split, if_pos h.1]
    exact ⟨_, rfl⟩
  have hpath := hne url hu
  rcases presented_or_refused netlocOk hmac env nowMs req with
    ⟨secret, instanceId, signature, timestamp, hp⟩ | ⟨r, hr, hearly⟩
  · obtain ⟨hsecret, hid, hsig⟩ := h.2 _ _ _ _ hp
    obtain ⟨requestTime, hint, _⟩ := hp.fresh
    have hv := (verifyCpHmac_of_presented hp).trans (verifySignature_ok hmac_ascii hu
      (encodable_of_pyInt hint) ⟨h.1, hsecret, hid, hsig⟩)
    refine ⟨⟨_, hv⟩, ?_⟩
    rw [dispatch_of_url hu hpath hv]
    split_ifs at hv ⊢
    · exact ⟨url, hu, verifyCpHmac_none hu hv⟩
    · exact Or.inl ⟨by simp, rfl⟩
  · refine ⟨⟨_, hr⟩, ?_⟩
    rw [dispatch_of_url hu hpath hr]
    exact earlyRefusal_status hearly

lemma answers_readable (h : Answers netlocOk hmac env nowMs req) :
    Readable netlocOk env nowMs req := by
  obtain ⟨⟨o, ho⟩, hd⟩ := h
  constructor
  · by_contra hn
    have hu := url_split netlocOk req.line
    rw [if_neg hn] at hu
    simp only [dispatch, hu] at hd
  · intro secret instanceId signature timestamp hp
    by_contra hn
    obtain ⟨e, he⟩ := verifySignature_raises hmac timestamp
      (fun hc : Comparable netlocOk req.line secret instanceId signature => hn hc.2)
    rw [verifyCpHmac_of_presented hp, he] at ho
    cases ho

end

lemma modelsLine_notExempt {host : String} (hh : isLatin1 (lit host)) (netlocOk : PyStr → Bool)
    (hplain : ∀ c ∈ lit host, isUrlDelim c = false) :
    NotExempt netlocOk (modelsLine host hh) := by
  intro url hu
  have hp : (modelsLine host hh).path ∈ protectedPaths := by simp [modelsLine, protectedPaths]
  have hsplit : SplitsAsRouted (modelsLine host hh) :=
    plain_splits hp ⟨hplain, List.not_mem_nil, List.forall_mem_nil _⟩
  rw [url_eq _ _ hp] at hu
  split_ifs at hu
  obtain rfl := Except.ok.inj hu
  rw [congrArg Prod.fst hsplit]
  exact protected_not_exempt hp

lemma pod_notExempt : NotExempt (fun _ => true) (modelsLine "pod:8080" (by decide)) :=
  modelsLine_notExempt _ _ (afterAuthority_eq_nil.mp (by decide))

end GemmaWorker.Middleware
