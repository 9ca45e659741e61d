import GemmaWorker.Middleware.CpHmacAuth

/-! What `request.url` and `verify_cp_hmac` compute: the URL text split behind the Host header, and the
checks up to the comparison of the signatures. -/

namespace GemmaWorker.Middleware

open Python

lemma splitScheme_scheme (s : Scheme) (t : PyStr) :
    splitScheme (s.text ++ ch ':' :: t) = (s.text, t) := by
  have hc : ch ':' ∉ s.text := by cases s <;> decide
  have hs : (s.text ≠ [] ∧ s.text.all isSchemeChar) ∧ lower s.text = s.text := by
    cases s <;> decide
  simp only [splitScheme, cut_append_cons hc]
  rw [if_pos ⟨by simp, hs.1⟩, hs.2]

/-- What is split once the scheme is read off: the Host header with the target pasted behind it. -/
def RequestLine.pasted (l : RequestLine) : PyStr :=
  removeUnsafe (l.host ++ targetText l.path l.query)

def RequestLine.netloc (l : RequestLine) : PyStr :=
  l.pasted.takeWhile (fun c => !isUrlDelim c)

def RequestLine.afterNetloc (l : RequestLine) : PyStr :=
  l.pasted.dropWhile (fun c => !isUrlDelim c)

lemma clean_urlText (l : RequestLine) :
    removeUnsafe (l.urlText.dropWhile (fun c => c.val ≤ 0x20)) =
      l.scheme.text ++ ch ':' :: (lit "//" ++ l.pasted) := by
  have hs : l.urlText.dropWhile (fun c => c.val ≤ 0x20) = l.urlText := by
    cases h : l.scheme <;> simp [RequestLine.urlText, h, Scheme.text, lit, ch]
  have hpre : removeUnsafe l.scheme.text = l.scheme.text ∧
      removeUnsafe (lit "://") = ch ':' :: lit "//" := by
    cases l.scheme <;> decide
  rw [hs, RequestLine.urlText, RequestLine.pasted]
  simp only [removeUnsafe_append, hpre, List.append_assoc, List.cons_append]

lemma url_split (netlocOk : PyStr → Bool) (l : RequestLine) :
    l.url netlocOk =
      if netlocOk l.netloc then
        .ok ⟨l.scheme.text, l.netloc, (cut (ch '?') (cut (ch '#') l.afterNetloc).1).1,
          (cut (ch '?') (cut (ch '#') l.afterNetloc).1).2, (cut (ch '#') l.afterNetloc).2⟩
      else .error .valueError := by
  have hnet : splitNetloc (lit "//" ++ l.pasted) = (l.netloc, l.afterNetloc) := by
    rw [splitNetloc, if_pos (by rfl)]
    rfl
  simp only [RequestLine.url, urlsplit, clean_urlText, splitScheme_scheme, hnet]

lemma pasted_encodable (l : RequestLine) : encodable l.pasted = true := by
  refine encodable_of_subset (removeUnsafe_sublist _).subset ?_
  refine encodable_append.mpr ⟨encodable_of_latin1 l.host_latin1, ?_⟩
  rw [targetText]
  split_ifs
  · exact l.path_encodable
  · exact encodable_append.mpr
      ⟨l.path_encodable, encodable_cons.mpr ⟨by decide, l.query_encodable⟩⟩

lemma url_encodable {netlocOk : PyStr → Bool} {l : RequestLine} {url : SplitResult}
    (hu : l.url netlocOk = .ok url) : encodable (targetText url.path url.query) = true := by
  rw [url_split] at hu
  split_ifs at hu
  obtain rfl := Except.ok.inj hu
  have hcut : encodable (cut (ch '#') l.afterNetloc).1 = true :=
    encodable_of_subset ((List.takeWhile_sublist _).trans (List.dropWhile_sublist _)).subset
      (pasted_encodable l)
  have hpath := encodable_of_subset (List.takeWhile_sublist (· != ch '?')).subset hcut
  have hquery := encodable_of_subset
    ((List.tail_sublist _).trans (List.dropWhile_sublist (· != ch '?'))).subset hcut
  rw [targetText]
  split_ifs
  · exact hpath
  · exact encodable_append.mpr ⟨hpath, encodable_cons.mpr ⟨by decide, hquery⟩⟩

lemma url_target_clean {netlocOk : PyStr → Bool} {l : RequestLine} {url : SplitResult}
    (hu : l.url netlocOk = .ok url) : ch '#' ∉ targetText url.path url.query ∧
      ∀ c ∈ targetText url.path url.query, isUnsafeUrlByte c = false := by
  rw [url_split] at hu
  split_ifs at hu
  obtain rfl := Except.ok.inj hu
  have hback : ∀ c ∈ targetText (cut (ch '?') (cut (ch '#') l.afterNetloc).1).1
      (cut (ch '?') (cut (ch '#') l.afterNetloc).1).2, c ∈ (cut (ch '#') l.afterNetloc).1 := by
    intro c hc
    rcases cut_cases (ch '?') (cut (ch '#') l.afterNetloc).1 with ⟨_, he⟩ | ⟨a, b, _, hs, he⟩
    · simpa [he, targetText] using hc
    · rw [he, targetText] at hc
      rw [hs]
      split_ifs at hc
      · exact List.mem_append_left _ hc
      · exact hc
  refine ⟨fun hc => notMem_cut_fst _ _ (hback _ hc), fun c hc => ?_⟩
  have hm : c ∈ l.pasted :=
    ((List.takeWhile_sublist _).trans (List.dropWhile_sublist _)).subset (hback c hc)
  simpa using (List.mem_filter.mp hm).2

/-- What the gate relies on: `hexdigest` gives non-empty ASCII text, and one key does not sign two
messages alike. -/
structure IsHexMac (hmac : PyStr → PyStr → PyStr) : Prop where
  ascii : ∀ secret message, isAscii (hmac secret message) = true
  nonempty : ∀ secret message, hmac secret message ≠ []
  injective : ∀ secret, Function.Injective (hmac secret)

/-- An injective stand-in for HMAC: six hexadecimal digits for each code point of the message. -/
def hexMac (_secret message : PyStr) : PyStr :=
  ch '0' :: message.flatMap (fun c => hexText 6 c.val)

lemma flatMap_hexText_inj {s t : PyStr}
    (h : s.flatMap (fun c => hexText 6 c.val) = t.flatMap (fun c => hexText 6 c.val)) : s = t := by
  induction s generalizing t with
  | nil =>
    cases t with
    | nil => rfl
    | cons c t => simp [hexText] at h
  | cons c s ih =>
    cases t with
    | nil => simp [hexText] at h
    | cons d t =>
      simp only [List.flatMap_cons] at h
      obtain ⟨hhead, htail⟩ := List.append_inj h (by simp only [hexText_length])
      have hcd := hexText_inj hhead
      have hval : c.val = d.val := by omega
      rw [Fin.ext hval, ih htail]

lemma hexMac_ok : IsHexMac hexMac where
  ascii secret message := by
    have hall : ∀ c ∈ message.flatMap (fun c => hexText 6 c.val), c.val < 128 := by
      intro c hc
      obtain ⟨d, _, hd⟩ := List.mem_flatMap.mp hc
      simpa using List.all_eq_true.mp (hexText_ascii 6 d.val) c hd
    simp only [isAscii, hexMac, List.all_cons, Bool.and_eq_true, List.all_eq_true, decide_eq_true_eq]
    exact ⟨by decide, hall⟩
  nonempty secret message := List.cons_ne_nil _ _
  injective secret s t h := flatMap_hexText_inj (List.cons.inj h).2

def Authenticated (hmac : PyStr → PyStr → PyStr) (env : Environ) (nowMs : ℤ) (req : Request)
    (target : PyStr) : Prop :=
  ∃ secret instanceId timestamp signature : PyStr, ∃ requestTime : ℤ,
    (env.secret = some secret ∧ secret ≠ []) ∧ (env.instanceId = some instanceId ∧ instanceId ≠ []) ∧
    (req.timestamp = some timestamp ∧ pyInt timestamp = .ok requestTime) ∧
    |nowMs - requestTime| ≤ maxRequestAgeMs ∧
    req.signature = some signature ∧
    signature = hmac secret (signedMessage timestamp req.line.method target instanceId)

lemma getD_eq_some {o : Option PyStr} (h : o.getD [] ≠ []) : o = some (o.getD []) := by
  cases o with
  | none => exact absurd rfl h
  | some s => rfl

/-- Credentials that reach the comparison: a pod that knows its secret and its id, a signature, and a
timestamp inside the window. -/
structure Presented (env : Environ) (nowMs : ℤ) (req : Request)
    (secret instanceId signature timestamp : PyStr) : Prop where
  secret_set : env.secret = some secret ∧ secret ≠ []
  id_set : env.instanceId = some instanceId ∧ instanceId ≠ []
  signature_given : req.signature = some signature ∧ signature ≠ []
  timestamp_given : req.timestamp = some timestamp
  fresh : ∃ requestTime, pyInt timestamp = .ok requestTime ∧ |nowMs - requestTime| ≤ maxRequestAgeMs

/-- The answers given before the signature is looked at. -/
def EarlyRefusal (env : Environ) (r : JSONResponse) : Prop :=
  r ∈ [missingHeaders, invalidTimestamp, staleTimestamp] ∨
    r = serverConfiguration ∧ (env.secret.getD [] = [] ∨ env.instanceId.getD [] = [])

section Verify

variable {netlocOk : PyStr → Bool} {hmac : PyStr → PyStr → PyStr} {env : Environ} {nowMs : ℤ}
variable {req : Request} {url : SplitResult} {secret instanceId signature timestamp : PyStr}

lemma verifyCpHmac_of_presented (h : Presented env nowMs req secret instanceId signature timestamp) :
    verifyCpHmac netlocOk hmac env nowMs req =
      verifySignature netlocOk hmac req.line secret instanceId signature timestamp := by
  obtain ⟨requestTime, hint, hfresh⟩ := h.fresh
  have hts : timestamp ≠ [] := by
    rintro rfl
    cases hint
  simp only [verifyCpHmac, h.secret_set.1, h.id_set.1, h.signature_given.1, h.timestamp_given,
    Option.getD_some, hint]
  rw [if_neg (not_or.mpr ⟨h.signature_given.2, hts⟩), if_neg (not_lt.mpr hfresh),
    if_neg h.secret_set.2, if_neg h.id_set.2]

lemma presented_or_refused (netlocOk : PyStr → Bool) (hmac : PyStr → PyStr → PyStr) (env : Environ)
    (nowMs : ℤ) (req : Request) :
    (∃ secret instanceId signature timestamp,
      Presented env nowMs req secret instanceId signature timestamp) ∨
    ∃ r, verifyCpHmac netlocOk hmac env nowMs req = .ok (some r) ∧ EarlyRefusal env r := by
  by_cases hmissing : req.signature.getD [] = [] ∨ req.timestamp.getD [] = []
  · exact Or.inr ⟨missingHeaders, by simp only [verifyCpHmac, if_pos hmissing], Or.inl (by simp)⟩
  obtain ⟨hsig, hts⟩ := not_or.mp hmissing
  cases hint : pyInt (req.timestamp.getD []) with
  | error e =>
    exact Or.inr ⟨invalidTimestamp, by simp only [verifyCpHmac, if_neg hmissing, hint],
      Or.inl (by simp)⟩
  | ok requestTime =>
    simp only [verifyCpHmac, if_neg hmissing, hint]
    split_ifs with hage hsecret hid
    · exact Or.inr ⟨staleTimestamp, rfl, Or.inl (by simp)⟩
    · exact Or.inr ⟨serverConfiguration, rfl, Or.inr ⟨rfl, Or.inl hsecret⟩⟩
    · exact Or.inr ⟨serverConfiguration, rfl, Or.inr ⟨rfl, Or.inr hid⟩⟩
    · exact Or.inl ⟨_, _, _, _, ⟨getD_eq_some hsecret, hsecret⟩, ⟨getD_eq_some hid, hid⟩,
        ⟨getD_eq_some hsig, hsig⟩, getD_eq_some hts, requestTime, hint, not_lt.mp hage⟩

lemma verifySignature_none {l : RequestLine} (hu : l.url netlocOk = .ok url)
    (h : verifySignature netlocOk hmac l secret instanceId signature timestamp = .ok none) :
    signature = hmac secret (signedMessage timestamp l.method (targetText url.path url.query)
      instanceId) := by
  obtain ⟨url', hu', h⟩ := bind_eq_ok.mp h
  obtain rfl : url = url' := Except.ok.inj (hu.symm.trans hu')
  obtain ⟨expected, hexpected, h⟩ := bind_eq_ok.mp h
  obtain ⟨same, hsame, h⟩ := bind_eq_ok.mp h
  unfold hexdigest at hexpected
  unfold compareDigest at hsame
  split_ifs at hexpected hsame
  obtain rfl := Except.ok.inj hexpected
  obtain rfl := Except.ok.inj hsame
  by_contra hne
  simp [hne, pure, Except.pure] at h

/-- What `verifySignature` makes of its five texts when `hexdigest` gives ASCII: it raises for a host
part that `urlsplit` refuses, for a key or id that UTF-8 cannot write, and for a signature outside
ASCII. -/
def Comparable (netlocOk : PyStr → Bool) (l : RequestLine) (secret instanceId signature : PyStr) :
    Prop :=
  netlocOk l.netloc = true ∧ encodable secret = true ∧ encodable instanceId = true ∧
    isAscii signature = true

lemma comparable_of_url {l : RequestLine} (hu : l.url netlocOk = .ok url)
    (hsecret : encodable secret = true) (hid : encodable instanceId = true)
    (hsig : isAscii signature = true) : Comparable netlocOk l secret instanceId signature := by
  refine ⟨?_, hsecret, hid, hsig⟩
  by_contra hn
  rw [url_split, if_neg hn] at hu
  cases hu

lemma signedMessage_encodable {method target : PyStr} :
    encodable (signedMessage timestamp method target instanceId) = true ↔
      encodable timestamp = true ∧ encodable method = true ∧ encodable target = true ∧
        encodable instanceId = true := by
  have hdot : isSurrogate (ch '.') = false := by decide
  simp only [signedMessage, List.append_assoc, List.cons_append, encodable_append, encodable_cons,
    hdot, true_and]

lemma verifySignature_ok (hmac_ascii : ∀ secret message, isAscii (hmac secret message) = true)
    {l : RequestLine} (hu : l.url netlocOk = .ok url) (hts : encodable timestamp = true)
    (h : Comparable netlocOk l secret instanceId signature) :
    verifySignature netlocOk hmac l secret instanceId signature timestamp =
      .ok (if signature = hmac secret (signedMessage timestamp l.method
        (targetText url.path url.query) instanceId) then none else some invalidSignature) := by
  obtain ⟨_, hsecret, hid, hsig⟩ := h
  have hmessage := signedMessage_encodable.mpr ⟨hts, l.method_encodable, url_encodable hu, hid⟩
  simp [verifySignature, hu, hexdigest, hsecret, hmessage, compareDigest, hmac_ascii, hsig, bind,
    Except.bind, pure, Except.pure]

lemma verifySignature_raises (hmac : PyStr → PyStr → PyStr) (timestamp : PyStr) {l : RequestLine}
    (h : ¬ Comparable netlocOk l secret instanceId signature) :
    ∃ e, verifySignature netlocOk hmac l secret instanceId signature timestamp = .error e := by
  cases hv : verifySignature netlocOk hmac l secret instanceId signature timestamp with
  | error e => exact ⟨e, rfl⟩
  | ok o =>
    obtain ⟨url, hu, hv⟩ := bind_eq_ok.mp hv
    obtain ⟨expected, hexpected, hv⟩ := bind_eq_ok.mp hv
    obtain ⟨same, hsame, _⟩ := bind_eq_ok.mp hv
    refine absurd ?_ h
    unfold hexdigest at hexpected
    unfold compareDigest at hsame
    split_ifs at hexpected hsame with henc hascii
    simp only [Bool.and_eq_true] at henc hascii
    exact comparable_of_url hu henc.1 (signedMessage_encodable.mp henc.2).2.2.2 hascii.1

lemma verifyCpHmac_signed (hmac_ascii : ∀ secret message, isAscii (hmac secret message) = true)
    (h : Presented env nowMs req secret instanceId signature timestamp)
    (hu : req.line.url netlocOk = .ok url)
    (hc : Comparable netlocOk req.line secret instanceId signature)
    (hsig : signature = hmac secret (signedMessage timestamp req.line.method
      (targetText url.path url.query) instanceId)) :
    verifyCpHmac netlocOk hmac env nowMs req = .ok none := by
  obtain ⟨requestTime, hint, _⟩ := h.fresh
  rw [verifyCpHmac_of_presented h, verifySignature_ok hmac_ascii hu (encodable_of_pyInt hint) hc,
    if_pos hsig]

lemma verifyCpHmac_none (hu : req.line.url netlocOk = .ok url)
    (h : verifyCpHmac netlocOk hmac env nowMs req = .ok none) :
    Authenticated hmac env nowMs req (targetText url.path url.query) := by
  rcases presented_or_refused netlocOk hmac env nowMs req with ⟨_, _, _, _, hp⟩ | ⟨r, hr, _⟩
  · obtain ⟨requestTime, hint, hfresh⟩ := hp.fresh
    rw [verifyCpHmac_of_presented hp] at h
    exact ⟨_, _, _, _, requestTime, hp.secret_set, hp.id_set, ⟨hp.timestamp_given, hint⟩, hfresh,
      hp.signature_given.1, verifySignature_none hu h⟩
  · cases hr.symm.trans h

lemma dispatch_callNext (h : dispatch netlocOk hmac env nowMs req = .callNext) :
    ∃ url, req.line.url netlocOk = .ok url ∧ (url.path ∈ exemptPaths ∨
      Authenticated hmac env nowMs req (targetText url.path url.query)) := by
  unfold dispatch at h
  split at h
  · cases h
  · next url hu =>
    refine ⟨url, hu, ?_⟩
    split_ifs at h with hex
    · exact Or.inl hex
    · refine Or.inr (verifyCpHmac_none hu ?_)
      split at h <;> first | assumption | cases h

end Verify

end GemmaWorker.Middleware
