import GemmaWorker.Middleware.Verification

/-! The gate decides on `request.url`, a string split again after the Host header was pasted into it,
while the router reads the path of the scope. This module says for which request lines the two
agree. -/

namespace GemmaWorker.Middleware

open Python

def authority (host : PyStr) : PyStr :=
  (removeUnsafe host).takeWhile (fun c => !isUrlDelim c)

def afterAuthority (host : PyStr) : PyStr :=
  (removeUnsafe host).dropWhile (fun c => !isUrlDelim c)

lemma isUrlDelim_slash : isUrlDelim (ch '/') = true := by decide

section Protected

variable {p : PyStr}

lemma protected_head (hp : p ∈ protectedPaths) : ∃ t, p = ch '/' :: t := by
  fin_cases hp <;> exact ⟨_, rfl⟩

lemma protected_clean (hp : p ∈ protectedPaths) : removeUnsafe p = p := by
  fin_cases hp <;> decide

lemma protected_query (hp : p ∈ protectedPaths) : ch '?' ∉ p := by
  fin_cases hp <;> decide

lemma protected_fragment (hp : p ∈ protectedPaths) : ch '#' ∉ p := by
  fin_cases hp <;> decide

lemma protected_not_exempt (hp : p ∈ protectedPaths) : p ∉ exemptPaths := by
  fin_cases hp <;> decide

end Protected

lemma removeUnsafe_cons {c : CodePoint} (hc : isUnsafeUrlByte c = false) (s : PyStr) :
    removeUnsafe (c :: s) = c :: removeUnsafe s := by
  simp [removeUnsafe, hc]

lemma dropWhile_delim_append (s t : PyStr) (c : CodePoint) (hc : isUrlDelim c = true) :
    (s ++ c :: t).takeWhile (fun d => !isUrlDelim d) = s.takeWhile (fun d => !isUrlDelim d) ∧
    (s ++ c :: t).dropWhile (fun d => !isUrlDelim d) =
      s.dropWhile (fun d => !isUrlDelim d) ++ c :: t := by
  induction s with
  | nil => simp [hc]
  | cons d s ih => cases hd : isUrlDelim d <;> simp [hd, ih]

def urlTail (l : RequestLine) : PyStr :=
  afterAuthority l.host ++
    (l.path ++ removeUnsafe (if l.query = [] then [] else ch '?' :: l.query))

lemma pasted_protected {l : RequestLine} (hp : l.path ∈ protectedPaths) :
    l.netloc = authority l.host ∧ l.afterNetloc = urlTail l := by
  obtain ⟨t, ht⟩ := protected_head hp
  have hd := dropWhile_delim_append (removeUnsafe l.host)
    (t ++ removeUnsafe (if l.query = [] then [] else ch '?' :: l.query)) _ isUrlDelim_slash
  have htarget : targetText l.path l.query =
      l.path ++ (if l.query = [] then [] else ch '?' :: l.query) := by
    unfold targetText
    split_ifs <;> simp
  have hpasted : l.pasted = removeUnsafe l.host ++
      ch '/' :: (t ++ removeUnsafe (if l.query = [] then [] else ch '?' :: l.query)) := by
    rw [RequestLine.pasted, htarget, removeUnsafe_append, removeUnsafe_append, protected_clean hp,
      ht, List.cons_append]
  rw [RequestLine.netloc, RequestLine.afterNetloc, hpasted, hd.1, hd.2, urlTail, ht, List.cons_append]
  exact ⟨rfl, rfl⟩

lemma url_eq (netlocOk : PyStr → Bool) (l : RequestLine) (hp : l.path ∈ protectedPaths) :
    l.url netlocOk =
      if netlocOk (authority l.host) then
        .ok ⟨l.scheme.text, authority l.host, (cut (ch '?') (cut (ch '#') (urlTail l)).1).1,
          (cut (ch '?') (cut (ch '#') (urlTail l)).1).2, (cut (ch '#') (urlTail l)).2⟩
      else .error .valueError := by
  rw [url_split, (pasted_protected hp).1, (pasted_protected hp).2]

/-- The Host header is free of URL delimiters and the query of what `urlsplit` drops or cuts off. -/
def PlainTarget (l : RequestLine) : Prop :=
  (∀ c ∈ l.host, isUrlDelim c = false) ∧ ch '#' ∉ l.query ∧
    ∀ c ∈ l.query, isUnsafeUrlByte c = false

/-- The Host header itself goes on with the routed path and query, closed by a `#`. -/
def HostSpellsTarget (l : RequestLine) : Prop :=
  ch '#' ∉ l.query ∧ ∃ t, (l.query = [] ∧ afterAuthority l.host = l.path ++ ch '#' :: t) ∨
    afterAuthority l.host = l.path ++ ch '?' :: (l.query ++ ch '#' :: t)

def SplitsAsRouted (l : RequestLine) : Prop :=
  cut (ch '?') (cut (ch '#') (urlTail l)).1 = (l.path, l.query)

lemma afterAuthority_eq_nil {host : PyStr} :
    afterAuthority host = [] ↔ ∀ c ∈ host, isUrlDelim c = false := by
  have hs : ∀ c, isUrlDelim c = true → isUnsafeUrlByte c = false := by
    intro c hc
    simp only [isUrlDelim, Bool.or_eq_true, decide_eq_true_eq] at hc
    rcases hc with (rfl | rfl) | rfl <;> decide
  simp only [afterAuthority, List.dropWhile_eq_nil_iff, removeUnsafe, List.mem_filter,
    Bool.not_eq_true']
  constructor
  · intro h c hc
    by_contra hd
    exact hd (h c ⟨hc, hs c (by simpa using hd)⟩)
  · exact fun h c hc => h c hc.1

lemma afterAuthority_clean (host : PyStr) : removeUnsafe (afterAuthority host) = afterAuthority host := by
  refine removeUnsafe_self fun c hc => ?_
  have hm : c ∈ removeUnsafe host := (List.dropWhile_sublist _).subset hc
  simpa using (List.mem_filter.mp hm).2

section Splitting

variable {l : RequestLine}

lemma urlTail_clean (hp : l.path ∈ protectedPaths) : removeUnsafe (urlTail l) = urlTail l := by
  rw [urlTail, removeUnsafe_append, removeUnsafe_append, afterAuthority_clean, protected_clean hp]
  congr 2
  exact removeUnsafe_self fun c hc => by simpa using (List.mem_filter.mp hc).2

lemma urlTail_of_query (hq : l.query ≠ []) : urlTail l =
    afterAuthority l.host ++ (l.path ++ ch '?' :: removeUnsafe l.query) := by
  rw [urlTail, if_neg hq, removeUnsafe_cons (by decide)]

lemma urlTail_of_no_query (hq : l.query = []) : urlTail l = afterAuthority l.host ++ l.path := by
  simp [urlTail, hq, removeUnsafe]

lemma plain_splits (hp : l.path ∈ protectedPaths) (h : PlainTarget l) : SplitsAsRouted l := by
  obtain ⟨hhost, hfrag, hclean⟩ := h
  have hh := afterAuthority_eq_nil.mpr hhost
  by_cases hq : l.query = []
  · rw [SplitsAsRouted, urlTail_of_no_query hq, hh, List.nil_append,
      cut_of_notMem (protected_fragment hp), cut_of_notMem (protected_query hp), hq]
  · have hn : ch '#' ∉ l.path ++ ch '?' :: l.query := by
      simp [protected_fragment hp, hfrag]
    rw [SplitsAsRouted, urlTail_of_query hq, hh, List.nil_append, removeUnsafe_self hclean,
      cut_of_notMem hn, cut_append_cons (protected_query hp)]

lemma spelled_splits (hp : l.path ∈ protectedPaths) (h : HostSpellsTarget l) : SplitsAsRouted l := by
  obtain ⟨hfrag, t, ⟨hq, ht⟩ | ht⟩ := h
  · rw [SplitsAsRouted, urlTail, ht, List.append_assoc, List.cons_append,
      cut_append_cons (protected_fragment hp), cut_of_notMem (protected_query hp), hq]
  · have hn : ch '#' ∉ l.path ++ ch '?' :: l.query := by
      simp [protected_fragment hp, hfrag]
    have htail : urlTail l = (l.path ++ ch '?' :: l.query) ++ ch '#' :: (t ++ (l.path ++
        removeUnsafe (if l.query = [] then [] else ch '?' :: l.query))) := by
      simp [urlTail, ht]
    rw [SplitsAsRouted, htail, cut_append_cons hn, cut_append_cons (protected_query hp)]

lemma before_fragment (h : SplitsAsRouted l) :
    ((cut (ch '#') (urlTail l)).1 = l.path ∧ l.query = []) ∨
      (cut (ch '#') (urlTail l)).1 = l.path ++ ch '?' :: l.query := by
  rcases cut_cases (ch '?') (cut (ch '#') (urlTail l)).1 with ⟨_, hc⟩ | ⟨x, y, _, hx, hc⟩
  · have he := hc.symm.trans h
    simp only [Prod.mk.injEq] at he
    exact Or.inl ⟨he.1, he.2.symm⟩
  · have he := hc.symm.trans h
    simp only [Prod.mk.injEq] at he
    exact Or.inr (by rw [hx, he.1, he.2])

lemma query_of_splits (hp : l.path ∈ protectedPaths) (h : SplitsAsRouted l) :
    ch '#' ∉ l.query ∧ ∀ c ∈ l.query, isUnsafeUrlByte c = false := by
  have hsub : ∀ c ∈ l.query, c ∈ (cut (ch '#') (urlTail l)).1 := by
    intro c hc
    rcases before_fragment h with ⟨_, hq⟩ | ha
    · simp [hq] at hc
    · simp [ha, hc]
  refine ⟨fun hc => notMem_cut_fst _ _ (hsub _ hc), fun c hc => ?_⟩
  have hm : c ∈ urlTail l := (List.takeWhile_sublist _).subset (hsub c hc)
  exact not_unsafe_of_removeUnsafe (urlTail_clean hp) hm

lemma urlTail_of_splits (hp : l.path ∈ protectedPaths) (h : SplitsAsRouted l) :
    urlTail l = afterAuthority l.host ++ targetText l.path l.query := by
  by_cases hq : l.query = []
  · rw [urlTail_of_no_query hq, targetText, if_pos hq]
  · rw [urlTail_of_query hq, targetText, if_neg hq, removeUnsafe_self (query_of_splits hp h).2]

lemma fragment_in_host (hp : l.path ∈ protectedPaths) (h : SplitsAsRouted l)
    (hne : afterAuthority l.host ≠ []) : ch '#' ∈ afterAuthority l.host := by
  by_contra hn
  have hfrag := (query_of_splits hp h).1
  have hR : ch '#' ∉ urlTail l := by
    rw [urlTail_of_splits hp h, targetText]
    split_ifs <;> simp [hn, protected_fragment hp, hfrag]
  have ha : (cut (ch '#') (urlTail l)).1 = afterAuthority l.host ++ targetText l.path l.query := by
    rw [cut_of_notMem hR, urlTail_of_splits hp h]
  have hpos := List.length_pos_of_ne_nil hne
  rcases before_fragment h with ⟨hb, hq⟩ | hb
  · have hlen := congrArg List.length (ha.symm.trans hb)
    simp only [targetText, hq, if_true, List.length_append] at hlen
    omega
  · have he := ha.symm.trans hb
    have hlen := congrArg List.length he
    by_cases hq : l.query = []
    · -- The Host header would have to add one character in front and one question mark behind.
      obtain ⟨t, ht⟩ := protected_head hp
      simp only [targetText, hq, if_true, List.length_append, List.length_cons, List.length_nil] at he hlen
      obtain ⟨c, hc⟩ := List.length_eq_one_iff.mp (by omega : (afterAuthority l.host).length = 1)
      rw [hc, ht] at he
      have hslash : c = ch '/' := (List.cons.inj he).1
      have hmem : ch '?' ∈ [c] ++ l.path := by
        rw [ht, he]
        simp
      simp [hslash, protected_query hp] at hmem
    · simp only [targetText, if_neg hq, List.length_append, List.length_cons] at hlen
      omega

theorem splits_iff (hp : l.path ∈ protectedPaths) :
    SplitsAsRouted l ↔ PlainTarget l ∨ HostSpellsTarget l := by
  constructor
  · intro h
    obtain ⟨hfrag, hclean⟩ := query_of_splits hp h
    by_cases hne : afterAuthority l.host = []
    · exact Or.inl ⟨afterAuthority_eq_nil.mp hne, hfrag, hclean⟩
    · obtain ⟨a, t, ht, ha⟩ := List.eq_append_cons_of_mem (fragment_in_host hp h hne)
      have hcut : (cut (ch '#') (urlTail l)).1 = a := by
        rw [urlTail, ht, List.append_assoc, List.cons_append, cut_append_cons ha]
      refine Or.inr ⟨hfrag, t, ?_⟩
      rcases before_fragment h with ⟨hb, hq⟩ | hb
      · exact Or.inl ⟨hq, by rw [ht, ← hcut, hb]⟩
      · exact Or.inr (by rw [ht, ← hcut, hb, List.append_assoc, List.cons_append])
  · rintro (h | h)
    · exact plain_splits hp h
    · exact spelled_splits hp h

end Splitting

def GatedAsRouted (netlocOk : PyStr → Bool) (hmac : PyStr → PyStr → PyStr) (env : Environ)
    (nowMs : ℤ) (req : Request) : Prop :=
  dispatch netlocOk hmac env nowMs req = .callNext → req.line.IsProtected →
    Authenticated hmac env nowMs req (targetText req.line.path req.line.query)

def signedEnviron : Environ := ⟨some (lit "s"), some (lit "i")⟩

def signedRequest (hmac : PyStr → PyStr → PyStr) (l : RequestLine) (target : PyStr) : Request :=
  ⟨l, some (hmac (lit "s") (signedMessage (lit "0") l.method target (lit "i"))), some (lit "0")⟩

lemma signed_passes {netlocOk : PyStr → Bool} {hmac : PyStr → PyStr → PyStr} (hmac_ok : IsHexMac hmac)
    {l : RequestLine} {url : SplitResult} (hu : l.url netlocOk = .ok url) :
    dispatch netlocOk hmac signedEnviron 0 (signedRequest hmac l (targetText url.path url.query)) =
      .callNext := by
  have hpresented : Presented signedEnviron 0 (signedRequest hmac l (targetText url.path url.query))
      (lit "s") (lit "i") (hmac (lit "s") (signedMessage (lit "0") l.method
        (targetText url.path url.query) (lit "i"))) (lit "0") :=
    ⟨⟨rfl, by decide⟩, ⟨rfl, by decide⟩, ⟨rfl, hmac_ok.nonempty _ _⟩, rfl, 0, rfl, by decide⟩
  have hverify := verifyCpHmac_signed hmac_ok.ascii hpresented hu
    (comparable_of_url hu (by decide) (by decide) (hmac_ok.ascii _ _)) rfl
  simp only [dispatch, signedRequest, hu] at hverify ⊢
  simp only [hverify, ite_self]

lemma targetText_inj {p p' q q' : PyStr} (hp : ch '?' ∉ p) (hp' : ch '?' ∉ p')
    (h : targetText p q = targetText p' q') : p = p' ∧ q = q' := by
  have hcut : ∀ {p q : PyStr}, ch '?' ∉ p → cut (ch '?') (targetText p q) = (p, q) := by
    intro p q hp
    rw [targetText]
    split_ifs with hq
    · rw [cut_of_notMem hp, hq]
    · exact cut_append_cons hp q
  simpa [hcut hp, hcut hp'] using congrArg (cut (ch '?')) h

lemma signedMessage_inj {timestamp method t t' instanceId : PyStr}
    (h : signedMessage timestamp method t instanceId = signedMessage timestamp method t' instanceId) :
    t = t' := by
  simpa [signedMessage] using h

/-- The gate follows the route on a request line, whatever the headers, the clock and the environment,
exactly when `urlsplit` refuses the authority or splits the URL text into the routed target. -/
theorem gate_follows_route_iff (netlocOk : PyStr → Bool) (hmac : PyStr → PyStr → PyStr)
    (hmac_ok : IsHexMac hmac) (l : RequestLine) :
    (∀ env nowMs signature timestamp,
      GatedAsRouted netlocOk hmac env nowMs ⟨l, signature, timestamp⟩) ↔
    (l.IsProtected → netlocOk (authority l.host) = false ∨ PlainTarget l ∨ HostSpellsTarget l) := by
  constructor
  · intro h hprot
    have hp := hprot.path_mem
    by_cases hnet : netlocOk (authority l.host) = true
    · refine Or.inr ((splits_iff hp).mp ?_)
      have hu := url_eq netlocOk l hp
      rw [if_pos hnet] at hu
      obtain ⟨secret, id, ts, sig, _, hs, hi, ht, _, hsig, heq⟩ :=
        h signedEnviron 0 _ _ (signed_passes hmac_ok hu) hprot
      obtain rfl : lit "s" = secret := Option.some.inj hs.1
      obtain rfl : lit "i" = id := Option.some.inj hi.1
      obtain rfl : lit "0" = ts := Option.some.inj ht.1
      obtain rfl := Option.some.inj hsig
      have htarget := signedMessage_inj (hmac_ok.injective _ heq)
      obtain ⟨hpath, hquery⟩ :=
        targetText_inj (notMem_cut_fst _ _) (protected_query hp) htarget
      exact Prod.ext hpath hquery
    · exact Or.inl (by simpa using hnet)
  · intro h env nowMs signature timestamp hpass hprot
    have hp := hprot.path_mem
    obtain ⟨url, hu, hcase⟩ := dispatch_callNext hpass
    have heq := (url_eq netlocOk l hp).symm.trans hu
    rcases h hprot with hnet | hplain
    · simp [hnet] at heq
    · split_ifs at heq
      obtain rfl := Except.ok.inj heq
      have hsplit : cut (ch '?') (cut (ch '#') (urlTail l)).1 = (l.path, l.query) :=
        (splits_iff hp).mpr hplain
      rcases hcase with hex | hauth
      · simp only [hsplit] at hex
        exact absurd hex (protected_not_exempt hp)
      · simpa only [hsplit] using hauth

def modelsLine (host : String) (hh : isLatin1 (lit host)) : RequestLine :=
  ⟨lit "GET", .http, lit host, lit "/v1/models", [], hh, get_encodable, by decide, encodable_nil⟩

theorem models_gated :
    let l := modelsLine "pod:8080" (by decide)
    dispatch (fun _ => true) hexMac signedEnviron 0 (signedRequest hexMac l l.path) = .callNext ∧
      GatedAsRouted (fun _ => true) hexMac signedEnviron 0 (signedRequest hexMac l l.path) := by
  have hplain : PlainTarget (modelsLine "pod:8080" (by decide)) :=
    ⟨afterAuthority_eq_nil.mp (by decide), List.not_mem_nil, List.forall_mem_nil _⟩
  exact ⟨by decide +kernel,
    (gate_follows_route_iff _ hexMac hexMac_ok _).mpr (fun _ => Or.inr (Or.inl hplain)) _ _ _ _⟩

theorem smuggled_models_not_gated :
    let req : Request := ⟨modelsLine "x/health?" (by decide), none, none⟩
    IsHexMac hexMac ∧ req.line.endpoint = some .models ∧
      dispatch (fun _ => true) hexMac ⟨none, none⟩ 0 req = .callNext ∧
      ¬ GatedAsRouted (fun _ => true) hexMac ⟨none, none⟩ 0 req := by
  have hpass : dispatch (fun _ => true) hexMac ⟨none, none⟩ 0
      ⟨modelsLine "x/health?" (by decide), none, none⟩ = .callNext := by decide +kernel
  refine ⟨hexMac_ok, by decide, hpass, fun h => ?_⟩
  obtain ⟨secret, _, _, _, _, hs, _⟩ := h hpass ⟨.models, by decide, rfl⟩
  cases hs.1

end GemmaWorker.Middleware
