import GemmaWorker.Middleware.PodBinding

/-! What a captured signature still opens on the pod that took it: the same timestamp, method and target, with any
body, until the timestamp is too old. -/

namespace GemmaWorker.Middleware

open Python

section Messages

variable {timestamp timestamp' method method' target target' i : PyStr}

/-- The first dot closes the timestamp and the first slash opens the target. -/
lemma signed_parts (hts : ch '.' ∉ timestamp) (hts' : ch '.' ∉ timestamp') (hm : ch '/' ∉ method)
    (hm' : ch '/' ∉ method') (ht : target.head? = some (ch '/')) (ht' : target'.head? = some (ch '/')) :
    signedMessage timestamp method target i = signedMessage timestamp' method' target' i ↔
      timestamp = timestamp' ∧ method = method' ∧ target = target' := by
  constructor
  · intro h
    obtain ⟨r, rfl⟩ := List.head?_eq_some_iff.mp ht
    obtain ⟨r', rfl⟩ := List.head?_eq_some_iff.mp ht'
    have hdots : timestamp ++ ch '.' :: ((method ++ [ch '.']) ++ ch '/' :: r) =
        timestamp' ++ ch '.' :: ((method' ++ [ch '.']) ++ ch '/' :: r') := by
      apply @List.append_cancel_right _ _ (ch '.' :: i) _
      simpa [signedMessage] using h
    have hfirst := congrArg (cut (ch '.')) hdots
    rw [cut_append_cons hts, cut_append_cons hts', Prod.mk.injEq] at hfirst
    have hslash : ch '/' ∉ method ++ [ch '.'] := by simp [hm]
    have hslash' : ch '/' ∉ method' ++ [ch '.'] := by simp [hm']
    have hrest := congrArg (cut (ch '/')) hfirst.2
    rw [cut_append_cons hslash, cut_append_cons hslash', Prod.mk.injEq] at hrest
    exact ⟨hfirst.1, List.append_cancel_right hrest.1, by rw [hrest.2]⟩
  · rintro ⟨rfl, rfl, rfl⟩
    rfl

end Messages

section Replays

variable {netlocOk : PyStr → Bool} {hmac : PyStr → PyStr → PyStr} {secret i : PyStr} {nowMs nowMs' : ℤ}
variable {req req' : Request}

/-- The gate reads one path and one query from the two request lines. -/
def SameTarget (netlocOk : PyStr → Bool) (l l' : RequestLine) : Prop :=
  ∃ url url', l.url netlocOk = .ok url ∧ l'.url netlocOk = .ok url' ∧ url'.path = url.path ∧ url'.query = url.query

def Fresh (nowMs : ℤ) (req : Request) : Prop :=
  ∃ requestTime, pyInt (req.timestamp.getD []) = .ok requestTime ∧ |nowMs - requestTime| ≤ maxRequestAgeMs

lemma url_path_unqueried {l : RequestLine} {url : SplitResult} (hu : l.url netlocOk = .ok url) :
    ch '?' ∉ url.path := by
  rw [url_split] at hu
  split_ifs at hu
  obtain rfl := Except.ok.inj hu
  exact notMem_cut_fst _ _

/-- Everything the gate has checked of a request that it lets through. -/
lemma accepted_credentials (h : Accepts netlocOk hmac secret i nowMs req) :
    ∃ timestamp signature url, Presented ⟨some secret, some i⟩ nowMs req secret i signature timestamp ∧
      req.line.url netlocOk = .ok url ∧ Comparable netlocOk req.line secret i signature ∧
      signature = hmac secret (signedMessage timestamp req.line.method (targetText url.path url.query) i) := by
  rcases presented_or_refused netlocOk hmac ⟨some secret, some i⟩ nowMs req with
    ⟨secret', i', signature, timestamp, hp⟩ | ⟨r, hr, -⟩
  · obtain rfl : secret = secret' := Option.some.inj hp.secret_set.1
    obtain rfl : i = i' := Option.some.inj hp.id_set.1
    have hv := (verifyCpHmac_of_presented hp).symm.trans h
    obtain ⟨url, hu, -⟩ := bind_eq_ok.mp hv
    have hcomparable : Comparable netlocOk req.line secret i signature := by
      by_contra hn
      obtain ⟨e, he⟩ := verifySignature_raises hmac timestamp hn
      cases he.symm.trans hv
    exact ⟨timestamp, signature, url, hp, hu, hcomparable, verifySignature_none hu hv⟩
  · cases hr.symm.trans h

lemma target_head {l : RequestLine} {url : SplitResult} (hform : InForm netlocOk l)
    (hu : l.url netlocOk = .ok url) : (targetText url.path url.query).head? = some (ch '/') := by
  obtain ⟨t, ht⟩ := List.head?_eq_some_iff.mp (hform.2 url hu)
  rw [targetText, ht]
  split_ifs <;> rfl

lemma Presented.dotless {env : Environ} {signature timestamp : PyStr}
    (h : Presented env nowMs req secret i signature timestamp) : ch '.' ∉ timestamp := by
  obtain ⟨requestTime, hint, -⟩ := h.fresh
  exact fun hc => absurd (pyInt_chars hint _ hc) (by decide)

/-- A signature that a pod has taken opens exactly the requests with the same timestamp, method and
target, as long as the timestamp is at most five minutes away. -/
theorem replayed_iff (hmac_ok : IsHexMac hmac) (hform : InForm netlocOk req.line)
    (h : Accepts netlocOk hmac secret i nowMs req) (hform' : InForm netlocOk req'.line)
    (hsig : req'.signature = req.signature) :
    Accepts netlocOk hmac secret i nowMs' req' ↔
      req'.timestamp = req.timestamp ∧ req'.line.method = req.line.method ∧
        SameTarget netlocOk req.line req'.line ∧ Fresh nowMs' req := by
  obtain ⟨timestamp, signature, url, hp, hu, hcomparable, hs⟩ := accepted_credentials h
  constructor
  · intro h'
    obtain ⟨timestamp', signature', url', hp', hu', -, hs'⟩ := accepted_credentials h'
    have hsame : signature' = signature :=
      Option.some.inj ((hp'.signature_given.1.symm.trans hsig).trans hp.signature_given.1)
    have hmessage := hmac_ok.injective secret ((hs'.symm.trans hsame).trans hs)
    obtain ⟨rfl, hmethod, htarget⟩ := (signed_parts hp'.dotless hp.dotless hform'.1 hform.1
      (target_head hform' hu') (target_head hform hu)).mp hmessage
    have hparts := targetText_inj (url_path_unqueried hu') (url_path_unqueried hu) htarget
    refine ⟨hp'.timestamp_given.trans hp.timestamp_given.symm, hmethod, ⟨url, url', hu, hu', hparts⟩, ?_⟩
    rw [Fresh, hp.timestamp_given]
    exact hp'.fresh
  · rintro ⟨htimestamp, hmethod, ⟨url₁, url', hu₁, hu', hpath, hquery⟩, hfresh⟩
    obtain rfl := Except.ok.inj (hu₁.symm.trans hu)
    rw [Fresh, hp.timestamp_given] at hfresh
    have hp' : Presented ⟨some secret, some i⟩ nowMs' req' secret i signature timestamp :=
      ⟨hp.secret_set, hp.id_set, ⟨hsig.trans hp.signature_given.1, hp.signature_given.2⟩,
        htimestamp.trans hp.timestamp_given, hfresh⟩
    have hcomparable' := comparable_of_url hu' hcomparable.2.1 hcomparable.2.2.1 hcomparable.2.2.2
    refine verifyCpHmac_signed hmac_ok.ascii hp' hu' hcomparable' ?_
    rw [hmethod, hpath, hquery]
    exact hs

theorem captured_root_replayed :
    let req := rootRequest hexMac (lit "q") (signedMessage (lit "0") (lit "GET")
      (lit "/" ++ ch '?' :: lit "q") (lit "pod-1")) (by decide)
    Accepts (fun _ => true) hexMac (lit "s") (lit "pod-1") 300000 req ∧
      ¬ Accepts (fun _ => true) hexMac (lit "s") (lit "pod-1") 300001 req := by
  have hclean : ∀ c ∈ lit "q", isUnsafeUrlByte c = false := fun _ => not_unsafe_of_removeUnsafe (by decide)
  have hform := @rootLine_inForm (fun _ => true) (lit "q") rfl (by decide) (by decide) (by decide) hclean
  have ha := @rootRequest_accepted (fun _ => true) hexMac (lit "q") (lit "pod-1")
    hexMac_ok rfl (by decide) (by decide) (by decide) hclean (by decide) (by decide)
  have hurl := @rootLine_url (fun _ => true) (lit "q") rfl (by decide) (by decide) (by decide) hclean
  constructor
  · exact (replayed_iff hexMac_ok hform ha hform rfl).mpr
      ⟨rfl, rfl, ⟨_, _, hurl, hurl, rfl, rfl⟩, 0, rfl, by decide⟩
  · intro h
    obtain ⟨-, -, -, requestTime, hint, hage⟩ := (replayed_iff hexMac_ok hform ha hform rfl).mp h
    obtain rfl : (0 : ℤ) = requestTime := Except.ok.inj hint
    exact absurd hage (by decide)

end Replays

end GemmaWorker.Middleware
