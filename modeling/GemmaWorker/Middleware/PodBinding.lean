import GemmaWorker.Middleware.RoutedPath

/-! Which pairs of instance ids keep their signatures apart. The signed text joins its four parts with
dots, and a target may end in a dot and more text, so a longer id can hide behind a longer target. -/

namespace GemmaWorker.Middleware

open Python

def Accepts (netlocOk : PyStr → Bool) (hmac : PyStr → PyStr → PyStr) (secret instanceId : PyStr)
    (nowMs : ℤ) (req : Request) : Prop :=
  verifyCpHmac netlocOk hmac ⟨some secret, some instanceId⟩ nowMs req = .ok none

/-- A method without a slash, and a path that starts with one. -/
def InForm (netlocOk : PyStr → Bool) (l : RequestLine) : Prop :=
  ch '/' ∉ l.method ∧ ∀ url, l.url netlocOk = .ok url → url.path.head? = some (ch '/')

def SignaturesBound (netlocOk : PyStr → Bool) (hmac : PyStr → PyStr → PyStr) (i j : PyStr) : Prop :=
  ∀ secret nowMs req, InForm netlocOk req.line → Accepts netlocOk hmac secret i nowMs req →
    ∀ nowMs' req', InForm netlocOk req'.line → req'.signature = req.signature →
      ¬ Accepts netlocOk hmac secret j nowMs' req'

/-- `j` is `i` behind a dot, after text that may stand at the end of a URL's target. -/
def Extends (i j : PyStr) : Prop :=
  ∃ y, j = y ++ ch '.' :: i ∧ encodable j = true ∧ ch '#' ∉ y ∧ ∀ c ∈ y, isUnsafeUrlByte c = false

section Messages

variable {c : CodePoint} {a b i j : PyStr}

lemma last_part_cases (h : a ++ c :: i = b ++ c :: j) :
    i = j ∨ (∃ y, j = y ++ c :: i ∧ a = b ++ c :: y) ∨ ∃ y, i = y ++ c :: j ∧ b = a ++ c :: y := by
  rcases List.append_eq_append_iff.mp h with ⟨x, hb, hi⟩ | ⟨x, ha, hj⟩
  · cases x with
    | nil => exact Or.inl (List.cons.inj hi).2
    | cons d x =>
      obtain ⟨rfl, hx⟩ := List.cons.inj hi
      exact Or.inr (Or.inr ⟨x, hx, hb⟩)
  · cases x with
    | nil => exact Or.inl (List.cons.inj hj).2.symm
    | cons d x =>
      obtain ⟨rfl, hx⟩ := List.cons.inj hj
      exact Or.inr (Or.inl ⟨x, hx, ha⟩)

variable {timestamp timestamp' method method' target target' : PyStr}

/-- The first slash of a signed text opens the target, since neither timestamp nor method has one. -/
lemma target_of_signed {y : PyStr} (hts : ch '/' ∉ timestamp) (hm : ch '/' ∉ method)
    (hts' : ch '/' ∉ timestamp') (hm' : ch '/' ∉ method') (ht : target.head? = some (ch '/'))
    (ht' : target'.head? = some (ch '/'))
    (h : timestamp ++ ch '.' :: method ++ ch '.' :: target =
      timestamp' ++ ch '.' :: method' ++ ch '.' :: target' ++ ch '.' :: y) :
    target = target' ++ ch '.' :: y := by
  obtain ⟨r, rfl⟩ := List.head?_eq_some_iff.mp ht
  obtain ⟨r', rfl⟩ := List.head?_eq_some_iff.mp ht'
  have hn : ch '/' ∉ timestamp ++ ch '.' :: (method ++ [ch '.']) := by simp [hts, hm]
  have hn' : ch '/' ∉ timestamp' ++ ch '.' :: (method' ++ [ch '.']) := by simp [hts', hm']
  have hcut : cut (ch '/') ((timestamp ++ ch '.' :: (method ++ [ch '.'])) ++ ch '/' :: r) =
      cut (ch '/') ((timestamp' ++ ch '.' :: (method' ++ [ch '.'])) ++
        ch '/' :: (r' ++ ch '.' :: y)) := by
    apply congrArg
    simpa using h
  rw [cut_append_cons hn, cut_append_cons hn', Prod.mk.injEq] at hcut
  rw [hcut.2, List.cons_append]

end Messages

section Accepted

variable {netlocOk : PyStr → Bool} {hmac : PyStr → PyStr → PyStr} {secret i j : PyStr} {nowMs : ℤ}
variable {req : Request}

/-- What a pod checked when it accepts: the id it signs with can be encoded, and the signature is that
of a text whose target came out of `urlsplit`. -/
lemma accepted_signature (hform : InForm netlocOk req.line)
    (h : Accepts netlocOk hmac secret i nowMs req) :
    ∃ timestamp target, ch '/' ∉ timestamp ∧ target.head? = some (ch '/') ∧
      (encodable target = true ∧ ch '#' ∉ target ∧ ∀ c ∈ target, isUnsafeUrlByte c = false) ∧
      encodable i = true ∧
      req.signature = some (hmac secret (signedMessage timestamp req.line.method target i)) := by
  rcases presented_or_refused netlocOk hmac ⟨some secret, some i⟩ nowMs req with
    ⟨secret', i', signature, timestamp, hp⟩ | ⟨r, hr, _⟩
  · obtain rfl : secret = secret' := Option.some.inj hp.secret_set.1
    obtain rfl : i = i' := Option.some.inj hp.id_set.1
    obtain ⟨requestTime, hint, _⟩ := hp.fresh
    have hv := (verifyCpHmac_of_presented hp).symm.trans h
    obtain ⟨url, hu, _⟩ := bind_eq_ok.mp hv
    have hcomparable : Comparable netlocOk req.line secret i signature := by
      by_contra hn
      obtain ⟨e, he⟩ := verifySignature_raises hmac timestamp hn
      cases he.symm.trans hv
    refine ⟨timestamp, targetText url.path url.query, slash_notMem_of_pyInt hint, ?_,
      ⟨url_encodable hu, url_target_clean hu⟩, hcomparable.2.2.1, ?_⟩
    · obtain ⟨t, ht⟩ := List.head?_eq_some_iff.mp (hform.2 url hu)
      rw [targetText, ht]
      split_ifs <;> rfl
    · rw [hp.signature_given.1, ← verifySignature_none hu hv]
  · cases hr.symm.trans h

lemma extends_of_target {y target target' : PyStr} (hi : encodable i = true)
    (hclean : encodable target = true ∧ ch '#' ∉ target ∧ ∀ c ∈ target, isUnsafeUrlByte c = false)
    (ht : target = target' ++ ch '.' :: y) (hj : j = y ++ ch '.' :: i) : Extends i j := by
  have hsub : y ⊆ target := fun c hc => by simp [ht, hc]
  refine ⟨y, hj, ?_, fun hc => hclean.2.1 (hsub hc), fun c hc => hclean.2.2 c (hsub hc)⟩
  rw [hj]
  exact encodable_append.mpr
    ⟨encodable_of_subset hsub hclean.1, encodable_cons.mpr ⟨by decide, hi⟩⟩

/-- One signature taken by two pods: one id is the other behind a dot. -/
lemma extends_of_accepted (injective : ∀ secret, Function.Injective (hmac secret)) (hne : i ≠ j)
    {nowMs' : ℤ} {req' : Request} (hform : InForm netlocOk req.line)
    (h : Accepts netlocOk hmac secret i nowMs req) (hform' : InForm netlocOk req'.line)
    (h' : Accepts netlocOk hmac secret j nowMs' req') (hsig : req'.signature = req.signature) :
    Extends i j ∨ Extends j i := by
  obtain ⟨ts, t, hts, ht, hclean, hi, hs⟩ := accepted_signature hform h
  obtain ⟨ts', t', hts', ht', hclean', hj, hs'⟩ := accepted_signature hform' h'
  have hmessage : signedMessage ts req.line.method t i =
      signedMessage ts' req'.line.method t' j :=
    injective secret (Option.some.inj ((hs.symm.trans hsig.symm).trans hs'))
  rcases last_part_cases hmessage with heq | ⟨y, hy, hp⟩ | ⟨y, hy, hp⟩
  · exact absurd heq hne
  · exact Or.inl (extends_of_target hi hclean
      (target_of_signed hts hform.1 hts' hform'.1 ht ht' hp) hy)
  · exact Or.inr (extends_of_target hj hclean'
      (target_of_signed hts' hform'.1 hts hform.1 ht' ht hp) hy)

end Accepted

section Collision

variable {netlocOk : PyStr → Bool} {hmac : PyStr → PyStr → PyStr} {q i : PyStr}

def rootLine (q : PyStr) (hq : encodable q = true) : RequestLine :=
  ⟨lit "GET", .http, lit "pod", lit "/", q, by decide, get_encodable, by decide, hq⟩

lemma rootLine_url (hhost : netlocOk (lit "pod") = true) (hq : encodable q = true) (hne : q ≠ [])
    (hfrag : ch '#' ∉ q) (hclean : ∀ c ∈ q, isUnsafeUrlByte c = false) :
    (rootLine q hq).url netlocOk = .ok ⟨lit "http", lit "pod", lit "/", q, []⟩ := by
  have htarget : targetText (lit "/") q = lit "/" ++ ch '?' :: q := if_neg hne
  have hpasted : (rootLine q hq).pasted = lit "pod" ++ (lit "/" ++ ch '?' :: q) := by
    simp only [RequestLine.pasted, rootLine, htarget, removeUnsafe_append,
      removeUnsafe_cons (by decide : isUnsafeUrlByte (ch '?') = false), removeUnsafe_self hclean]
    rfl
  have hsplit : (rootLine q hq).netloc = lit "pod" ∧
      (rootLine q hq).afterNetloc = lit "/" ++ ch '?' :: q := by
    rw [RequestLine.netloc, RequestLine.afterNetloc, hpasted]
    exact ⟨rfl, rfl⟩
  have hcut : cut (ch '#') (lit "/" ++ ch '?' :: q) = (lit "/" ++ ch '?' :: q, []) :=
    cut_of_notMem (by simpa using ⟨by decide, hfrag⟩)
  have hcut' : cut (ch '?') (lit "/" ++ ch '?' :: q) = (lit "/", q) :=
    cut_append_cons (by decide) q
  rw [url_split, if_pos (by rw [hsplit.1]; exact hhost), hsplit.1, hsplit.2, hcut, hcut']
  rfl

lemma rootLine_inForm (hhost : netlocOk (lit "pod") = true) (hq : encodable q = true) (hne : q ≠ [])
    (hfrag : ch '#' ∉ q) (hclean : ∀ c ∈ q, isUnsafeUrlByte c = false) :
    InForm netlocOk (rootLine q hq) := by
  have hmethod : ch '/' ∉ lit "GET" := by decide
  refine ⟨hmethod, fun url hu => ?_⟩
  obtain rfl := Except.ok.inj ((rootLine_url hhost hq hne hfrag hclean).symm.trans hu)
  rfl

def rootRequest (hmac : PyStr → PyStr → PyStr) (q message : PyStr) (hq : encodable q = true) :
    Request :=
  ⟨rootLine q hq, some (hmac (lit "s") message), some (lit "0")⟩

lemma rootRequest_accepted (hmac_ok : IsHexMac hmac) (hhost : netlocOk (lit "pod") = true)
    (hq : encodable q = true) (hne : q ≠ []) (hfrag : ch '#' ∉ q)
    (hclean : ∀ c ∈ q, isUnsafeUrlByte c = false) (hi : i ≠ []) (henc : encodable i = true) :
    Accepts netlocOk hmac (lit "s") i 0 (rootRequest hmac q
      (signedMessage (lit "0") (lit "GET") (lit "/" ++ ch '?' :: q) i) hq) := by
  have htarget : targetText (lit "/") q = lit "/" ++ ch '?' :: q := if_neg hne
  have hu := rootLine_url hhost hq hne hfrag hclean
  refine verifyCpHmac_signed hmac_ok.ascii
    ⟨⟨rfl, by decide⟩, ⟨rfl, hi⟩, ⟨rfl, hmac_ok.nonempty _ _⟩, rfl, 0, rfl, by decide⟩ hu
    (comparable_of_url hu (by decide) henc (hmac_ok.ascii _ _)) ?_
  rw [htarget]
  rfl

/-- The text between the ids moves to the end of the other request's query. -/
lemma collide_of_extends (hmac_ok : IsHexMac hmac) (hhost : netlocOk (lit "pod") = true) {j : PyStr}
    (hi : i ≠ []) (h : Extends i j) :
    ∃ req req', InForm netlocOk req.line ∧ Accepts netlocOk hmac (lit "s") i 0 req ∧
      InForm netlocOk req'.line ∧ Accepts netlocOk hmac (lit "s") j 0 req' ∧
      req'.signature = req.signature := by
  obtain ⟨y, hj, henc, hfrag, hclean⟩ := h
  have hy : encodable (y ++ ch '.' :: i) = true := hj ▸ henc
  obtain ⟨hy, hdot⟩ := encodable_append.mp hy
  have hq : encodable (lit "x" ++ ch '.' :: y) = true :=
    encodable_append.mpr ⟨by decide, encodable_cons.mpr ⟨by decide, hy⟩⟩
  have hfrag' : ch '#' ∉ lit "x" ++ ch '.' :: y := by simpa using ⟨by decide, hfrag⟩
  have hclean' : ∀ c ∈ lit "x" ++ ch '.' :: y, isUnsafeUrlByte c = false := by
    intro c hc
    rcases List.mem_append.mp hc with hx | hc
    · obtain rfl : c = ch 'x' := List.mem_singleton.mp hx
      decide
    · rcases List.mem_cons.mp hc with rfl | hc
      · decide
      · exact hclean c hc
  have hplain : ∀ c ∈ lit "x", isUnsafeUrlByte c = false :=
    fun _ => not_unsafe_of_removeUnsafe (by decide)
  have hx : encodable (lit "x") = true := by decide
  have hjne : j ≠ [] := by
    rw [hj]
    simp
  refine ⟨_, _, rootLine_inForm hhost hq (by simp) hfrag' hclean',
    rootRequest_accepted hmac_ok hhost hq (by simp) hfrag' hclean' hi (encodable_cons.mp hdot).2,
    rootLine_inForm hhost hx (by decide) (by decide) hplain,
    rootRequest_accepted hmac_ok hhost hx (by decide) (by decide) hplain hjne henc, ?_⟩
  simp [rootRequest, signedMessage, hj]

end Collision

/-- A signature is worth something on one pod only, exactly for ids of which neither is the other
behind a dot and text that a URL's target can end in. -/
theorem signatures_bound_iff (netlocOk : PyStr → Bool) (hhost : netlocOk (lit "pod") = true)
    (hmac : PyStr → PyStr → PyStr) (hmac_ok : IsHexMac hmac) (i j : PyStr) (hi : i ≠ [])
    (hj : j ≠ []) (hne : i ≠ j) :
    SignaturesBound netlocOk hmac i j ↔ ¬ Extends i j ∧ ¬ Extends j i := by
  constructor
  · intro h
    constructor
    · intro hext
      obtain ⟨req, req', hf, ha, hf', ha', hs⟩ := collide_of_extends hmac_ok hhost hi hext
      exact h _ _ req hf ha _ req' hf' hs ha'
    · intro hext
      obtain ⟨req, req', hf, ha, hf', ha', hs⟩ := collide_of_extends hmac_ok hhost hj hext
      exact h _ _ req' hf' ha' _ req hf hs.symm ha
  · rintro ⟨hij, hji⟩ secret nowMs req hform hacc nowMs' req' hform' hsig hacc'
    exact (extends_of_accepted hmac_ok.injective hne hform hacc hform' hacc' hsig).elim hij hji

theorem numbered_pods_bound :
    SignaturesBound (fun _ => true) hexMac (lit "pod-1") (lit "pod-2") := by
  have hn : ∀ {i j : PyStr}, ch '.' ∉ j → ¬ Extends i j := by
    rintro i j hdot ⟨y, rfl, _⟩
    exact hdot (by simp)
  exact (signatures_bound_iff _ rfl hexMac hexMac_ok _ _ (by decide) (by decide)
    (fun h => by simp [lit_inj] at h)).mpr ⟨hn (by decide), hn (by decide)⟩

theorem dotted_pods_share_signature :
    let req := rootRequest hexMac (lit "q.a") (signedMessage (lit "0") (lit "GET")
      (lit "/" ++ ch '?' :: lit "q.a") (lit "x")) (by decide)
    let req' := rootRequest hexMac (lit "q") (signedMessage (lit "0") (lit "GET")
      (lit "/" ++ ch '?' :: lit "q") (lit "a.x")) (by decide)
    Accepts (fun _ => true) hexMac (lit "s") (lit "x") 0 req ∧
      Accepts (fun _ => true) hexMac (lit "s") (lit "a.x") 0 req' ∧
      req'.signature = req.signature ∧
      ¬ SignaturesBound (fun _ => true) hexMac (lit "x") (lit "a.x") := by
  have hclean : ∀ c ∈ lit "q.a", isUnsafeUrlByte c = false :=
    fun _ => not_unsafe_of_removeUnsafe (by decide)
  have hclean' : ∀ c ∈ lit "q", isUnsafeUrlByte c = false :=
    fun _ => not_unsafe_of_removeUnsafe (by decide)
  have hmessage : signedMessage (lit "0") (lit "GET") (lit "/" ++ ch '?' :: lit "q") (lit "a.x") =
      signedMessage (lit "0") (lit "GET") (lit "/" ++ ch '?' :: lit "q.a") (lit "x") := by decide
  have ha := @rootRequest_accepted (fun _ => true) hexMac (lit "q.a") (lit "x")
    hexMac_ok rfl (by decide) (by decide) (by decide) hclean (by decide) (by decide)
  have ha' := @rootRequest_accepted (fun _ => true) hexMac (lit "q") (lit "a.x")
    hexMac_ok rfl (by decide) (by decide) (by decide) hclean' (by decide) (by decide)
  have hsig := congrArg (fun m => some (hexMac (lit "s") m)) hmessage
  refine ⟨ha, ha', hsig, fun h => ?_⟩
  exact h _ _ _ (rootLine_inForm rfl (by decide) (by decide) (by decide) hclean) ha _ _
    (rootLine_inForm rfl (by decide) (by decide) (by decide) hclean') hsig ha'

end GemmaWorker.Middleware
