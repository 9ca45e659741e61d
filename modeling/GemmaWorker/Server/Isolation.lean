import GemmaWorker.Server.EventStream

/-! Requests do not hear each other: whatever else the server does, a client is answered as if it were the
only one, and what it is sent comes from its own engine events. -/

namespace GemmaWorker.Server

open Python Heartbeat Library

section Views

/-- The request that an event is about. -/
def Event.target : Event → Option ℕ
  | .body i _ | .engine i _ | .pull i | .cancel i => some i
  | _ => none

def Event.retarget (j : ℕ) : Event → Event
  | .body _ content => .body j content
  | .engine _ e => .engine j e
  | .pull _ => .pull j
  | .cancel _ => .cancel j
  | e => e

/-- What concerns request `i`: its own arrival and its own events, as the first request's, and that the
engines are ready. -/
def ownEvent (i : ℕ) (s : State) : Event → Option Event
  | .enginesReady => some .enginesReady
  | .arrive => if s.requests.length = i then some .arrive else none
  | e => if e.target = some i then some (e.retarget 0) else none

def own (i : ℕ) (s : State) (a : Action) : Option Action :=
  (ownEvent i s a.event).map fun e => { a with event := e }

/-- The engine events of request `i`. -/
def heard (i : ℕ) (_ : State) (a : Action) : Option EngineEvent :=
  match a.event with
  | .engine j e => if j = i then some e else none
  | _ => none

end Views

namespace State

variable {cfg : Config} {s t : State} {now later : ℚ} {e : Event} {i j : ℕ} {r : Request}

/-- Only request `i` is another one. -/
def Sets (s t : State) (i : ℕ) (r : Request) : Prop :=
  t.requests = s.requests.set i r ∧ t.enginesReady = s.enginesReady

lemma body_sets (r : Request) (content : Option Value) :
    ∃ r', ∀ s i, Sets s (handleBody s now later i r content) i r' := by
  cases content with
  | none => exact ⟨_, fun s i => ⟨rfl, rfl⟩⟩
  | some v =>
    cases v with
    | dict items => exact ⟨_, fun s i => ⟨rfl, rfl⟩⟩
    | _ => exact ⟨_, fun s i => ⟨rfl, rfl⟩⟩

lemma finish_sets (r : Request) (answer : Except PyStr Response) :
    ∃ r', ∀ s i, Sets s (finishNonStream s now later i r answer) i r' := by
  cases answer with
  | ok response => exact ⟨_, fun s i => ⟨rfl, rfl⟩⟩
  | error text => exact ⟨_, fun s i => ⟨rfl, rfl⟩⟩

lemma advance_sets (r : Request) (rest : List PyStr) (last : Bool) :
    ∃ r', ∀ s i, Sets s (advance s now i r rest last) i r' := by
  cases rest with
  | cons c rest => exact ⟨_, fun s i => ⟨rfl, rfl⟩⟩
  | nil =>
    cases last with
    | false => exact ⟨_, fun s i => ⟨rfl, rfl⟩⟩
    | true => exact ⟨_, fun s i => ⟨rfl, rfl⟩⟩

/-- Whether an operation is possible, and what it makes of the request, depends on the request alone. -/
def Local (f : State → ℕ → Option State) : Prop :=
  (∀ s i, f s i = none) ∨ ∃ r, ∀ s i, ∃ t, f s i = some t ∧ Sets s t i r

lemma Local.of_sets {g : State → ℕ → State} (h : ∃ r, ∀ s i, Sets s (g s i) i r) :
    Local fun s i => some (g s i) := by
  obtain ⟨r, hr⟩ := h
  exact Or.inr ⟨r, fun s i => ⟨g s i, rfl, hr s i⟩⟩

lemma Local.never : Local fun _ _ => none :=
  Or.inl fun _ _ => rfl

lemma engine_local (r : Request) (e : EngineEvent) : Local fun s i => handleEngine s now later i r e := by
  obtain ⟨pc, response, sent⟩ := r
  cases pc with
  | collecting result =>
    cases e with
    | batch b => exact Local.of_sets ⟨_, fun _ _ => ⟨rfl, rfl⟩⟩
    | exhausted => exact Local.of_sets (finish_sets ⟨.collecting result, response, sent⟩ _)
    | raised text => exact Local.of_sets (finish_sets ⟨.collecting result, response, sent⟩ _)
  | awaiting => exact Local.of_sets (advance_sets ⟨.awaiting, response, sent⟩ _ _)
  | _ => exact Local.never

lemma pull_local (r : Request) : Local fun s i => handlePull s now i r := by
  obtain ⟨pc, response, sent⟩ := r
  cases pc with
  | unstarted => exact Local.of_sets ⟨_, fun _ _ => ⟨rfl, rfl⟩⟩
  | yielded rest last => exact Local.of_sets (advance_sets ⟨.yielded rest last, response, sent⟩ rest last)
  | _ => exact Local.never

lemma cancel_local (r : Request) : Local fun s i => handleCancel s now i r := by
  obtain ⟨pc, response, sent⟩ := r
  cases pc with
  | reading | unstarted | collecting | awaiting | yielded => exact Local.of_sets ⟨_, fun _ _ => ⟨rfl, rfl⟩⟩
  | _ => exact Local.never

lemma Local.step {f : Request → State → ℕ → Option State} (hf : ∀ r, Local (f r))
    (h : (s.requests[i]?.bind fun r => f r s i) = some t) : ∃ r r', s.requests[i]? = some r ∧ Sets s t i r' ∧
      ∀ u j, u.requests[j]? = some r → ∃ v, (u.requests[j]?.bind fun r => f r u j) = some v ∧ Sets u v j r' := by
  obtain ⟨r, hr, h⟩ := Option.bind_eq_some_iff.mp h
  rcases hf r with hnone | ⟨r', hsome⟩
  · rw [hnone] at h
    cases h
  · obtain ⟨t', ht', hsets⟩ := hsome s i
    obtain rfl := Option.some.inj (h.symm.trans ht')
    refine ⟨r, r', hr, hsets, fun u j hu => ?_⟩
    rw [hu]
    exact hsome u j

lemma target_step (he : e.target = some i) (h : s.step cfg now later e = some t) :
    ∃ r r', s.requests[i]? = some r ∧ Sets s t i r' ∧ ∀ u j, u.requests[j]? = some r →
      ∃ v, u.step cfg now later (e.retarget j) = some v ∧ Sets u v j r' := by
  cases e with
  | body k content =>
    obtain rfl := Option.some.inj he
    refine Local.step (fun r => ?_) h
    obtain ⟨pc, response, sent⟩ := r
    cases pc with
    | reading => exact Local.of_sets (body_sets ⟨.reading, response, sent⟩ content)
    | _ => exact Local.never
  | engine k e =>
    obtain rfl := Option.some.inj he
    exact Local.step (fun r => engine_local r e) h
  | pull k =>
    obtain rfl := Option.some.inj he
    exact Local.step pull_local h
  | cancel k =>
    obtain rfl := Option.some.inj he
    exact Local.step cancel_local h
  | _ => cases he

lemma quiet_step (he : e = .startIdleTimeout ∨ e = .tick) (h : s.step cfg now later e = some t) :
    t.requests = s.requests ∧ t.enginesReady = s.enginesReady := by
  rcases he with rfl | rfl
  · simp only [State.step, startIdleTimeout] at h
    split at h
    · obtain rfl := Option.some.inj h
      split_ifs <;> exact ⟨rfl, rfl⟩
    · cases h
  · simp only [State.step, handleTick] at h
    split at h
    · obtain rfl := Option.some.inj h
      split_ifs <;> exact ⟨rfl, rfl⟩
    · cases h

variable {a : Action}

lemma next_elim (h : s.next cfg a = some t) : s.clock ≤ a.now ∧ a.now ≤ a.later ∧
    ∃ u, s.step cfg a.now a.later a.event = some u ∧ t = { u with clock := a.later } := by
  rw [State.next] at h
  split_ifs at h with hc
  obtain ⟨u, hu, rfl⟩ := Option.map_eq_some_iff.mp h
  exact ⟨hc.1, hc.2, u, hu, rfl⟩

lemma exec_singleton {u : State} (hc : s.clock ≤ a.now) (hl : a.now ≤ a.later)
    (h : s.step cfg a.now a.later a.event = some u) :
    (server cfg).exec s [a] = some { u with clock := a.later } := by
  refine Machine.exec_cons ?_
  change s.next cfg a = _
  rw [State.next, if_pos ⟨hc, hl⟩, h]
  rfl

/-- `t` is the server as request `i` of `s` would have it for itself. -/
structure Alone (i : ℕ) (s t : State) : Prop where
  ready : t.enginesReady = s.enginesReady
  clock : t.clock ≤ s.clock
  request : t.requests = s.requests[i]?.toList

lemma Alone.keep {c : ℚ} {u : State} (h : Alone i s t) (hc : s.clock ≤ c)
    (hready : u.enginesReady = s.enginesReady)
    (hrequest : u.requests[i]? = s.requests[i]?) : Alone i { u with clock := c } t where
  ready := h.ready.trans hready.symm
  clock := h.clock.trans hc
  request := by
    rw [h.request, ← hrequest]

lemma Alone.target (h : Alone i s t) (he : a.event.target = some j) {u : State} (hc : s.clock ≤ a.now)
    (hl : a.now ≤ a.later) (hu : s.step cfg a.now a.later a.event = some u) :
    ∃ t', (server cfg).exec t (own i s a).toList = some t' ∧ Alone i { u with clock := a.later } t' := by
  obtain ⟨r, r', hr, ⟨hset, hready⟩, hother⟩ := target_step he hu
  have hown : ownEvent i s a.event = if j = i then some (a.event.retarget 0) else none := by
    rw [ownEvent.eq_def]
    split <;> simp_all [Event.target]
  rw [own, hown]
  by_cases hj : j = i
  · subst hj
    have hfirst : t.requests[0]? = some r := by rw [h.request, hr]; rfl
    obtain ⟨v, hv, hvset, hvready⟩ := hother t 0 hfirst
    rw [if_pos rfl]
    refine ⟨_, exec_singleton (h.clock.trans hc) hl hv, ?_, le_refl _, ?_⟩
    · exact hvready.trans (h.ready.trans hready.symm)
    · obtain ⟨hlt, -⟩ := List.getElem?_eq_some_iff.mp hr
      simp only [hvset, hset, h.request, hr, List.getElem?_set_self hlt, Option.toList_some, List.set_cons_zero]
  · rw [if_neg hj]
    refine ⟨t, rfl, h.keep (hc.trans hl) hready ?_⟩
    rw [hset, List.getElem?_set_ne hj]

/-- Whether the engines are ready is all that a new request sees of the server. -/
lemma arrive_step (ready : Bool) : ∃ r, ∀ s : State, s.enginesReady = ready →
    ∃ u, s.step cfg now later .arrive = some u ∧ u.requests = s.requests ++ [r] ∧
      u.enginesReady = s.enginesReady := by
  cases ready with
  | true =>
    refine ⟨_, fun s hs => ⟨s.arrive, ?_, rfl, rfl⟩⟩
    rw [State.step, hs, if_pos rfl]
  | false =>
    refine ⟨_, fun s hs => ⟨s.arriveEarly, ?_, rfl, rfl⟩⟩
    rw [State.step, hs, if_neg Bool.false_ne_true]

lemma getElem?_snoc_ne {rs : List Request} (hi : rs.length ≠ i) (r : Request) : (rs ++ [r])[i]? = rs[i]? := by
  rw [List.getElem?_append]
  split_ifs with hlt
  · rfl
  · rw [List.getElem?_eq_none_iff.mpr (by simp; omega), List.getElem?_eq_none_iff.mpr (by omega)]

lemma Alone.arrived (h : Alone i s t) (hc : s.clock ≤ now) (hl : now ≤ later) {u : State}
    (hu : s.step cfg now later .arrive = some u) :
    ∃ t', (server cfg).exec t (own i s ⟨.arrive, now, later⟩).toList = some t' ∧
      Alone i { u with clock := later } t' := by
  obtain ⟨r, hr⟩ := @arrive_step cfg now later s.enginesReady
  obtain ⟨u', hu', hrequests, hready⟩ := hr s rfl
  obtain rfl := Option.some.inj (hu.symm.trans hu')
  by_cases hi : s.requests.length = i
  · obtain ⟨v, hv, hvrequests, hvready⟩ := hr t h.ready
    have hown : own i s ⟨.arrive, now, later⟩ = some ⟨.arrive, now, later⟩ := by
      rw [own, ownEvent, if_pos hi, Option.map_some]
    have hnew : u.requests[i]? = some r := by rw [hrequests, ← hi, List.getElem?_concat_length]
    have hnone : s.requests[i]? = none := by
      rw [List.getElem?_eq_none_iff]
      omega
    rw [hown]
    refine ⟨_, @exec_singleton cfg t ⟨.arrive, now, later⟩ v (h.clock.trans hc) hl hv, ?_, le_refl _, ?_⟩
    · exact hvready.trans (h.ready.trans hready.symm)
    · simp only [hvrequests, h.request, hnone, hnew, Option.toList_none, Option.toList_some, List.nil_append]
  · have hown : own i s ⟨.arrive, now, later⟩ = none := by
      rw [own, ownEvent, if_neg hi, Option.map_none]
    rw [hown]
    refine ⟨t, rfl, h.keep (hc.trans hl) hready ?_⟩
    rw [hrequests, getElem?_snoc_ne hi]

lemma Alone.next {u : State} (h : Alone i s t) (hn : s.next cfg a = some u) :
    ∃ t', (server cfg).exec t (own i s a).toList = some t' ∧ Alone i u t' := by
  obtain ⟨hc, hl, u, hu, rfl⟩ := next_elim hn
  cases htarget : a.event.target with
  | some j => exact h.target htarget hc hl hu
  | none =>
    obtain ⟨e, now, later⟩ := a
    cases e with
    | enginesReady =>
      obtain rfl := Option.some.inj hu
      have hstep : t.step cfg now later .enginesReady = some { t with enginesReady := true } := rfl
      exact ⟨_, @exec_singleton cfg t ⟨.enginesReady, now, later⟩ _ (h.clock.trans hc) hl hstep, rfl, le_refl _,
        h.request⟩
    | arrive => exact h.arrived hc hl hu
    | startIdleTimeout =>
      obtain ⟨hrequests, hready⟩ := quiet_step (Or.inl rfl) hu
      exact ⟨t, rfl, h.keep (hc.trans hl) hready (by rw [hrequests])⟩
    | tick =>
      obtain ⟨hrequests, hready⟩ := quiet_step (Or.inr rfl) hu
      exact ⟨t, rfl, h.keep (hc.trans hl) hready (by rw [hrequests])⟩
    | _ => cases htarget

/-- Whatever else arrives, streams, fails or hangs up in a run, a request is where its own events alone
would have brought it. -/
lemma request_alone {as : List Action} (he : (server cfg).exec (init cfg) as = some s) (i : ℕ) :
    ∃ t, (server cfg).exec (init cfg) ((server cfg).seen (own i) (init cfg) as) = some t ∧
      t.requests = s.requests[i]?.toList := by
  obtain ⟨t, ht, halone⟩ := Machine.exec_followed (R := Alone i) he ⟨rfl, le_refl _, rfl⟩
    fun s a t v h hn => h.next hn
  exact ⟨t, ht, halone.request⟩

/-- Two runs of one client's events, in whatever company, answer it alike. -/
theorem requests_isolated {as bs : List Action} {u : State} (hs : (server cfg).exec (init cfg) as = some s)
    (hu : (server cfg).exec (init cfg) bs = some u)
    (hsame : (server cfg).seen (own i) (init cfg) as = (server cfg).seen (own j) (init cfg) bs) :
    s.requests[i]? = u.requests[j]? := by
  obtain ⟨t, ht, hreq⟩ := request_alone hs i
  obtain ⟨v, hv, hreq'⟩ := request_alone hu j
  rw [hsame, hv] at ht
  obtain rfl := Option.some.inj ht
  rw [hreq'] at hreq
  have hhead (o : Option Request) : o.toList.head? = o := by cases o <;> rfl
  rw [← hhead s.requests[i]?, ← hhead u.requests[j]?, hreq]

def streamBody : Option Value :=
  some (.dict [(lit "stream", .bool true)])

def twoClients : List Action :=
  [⟨.enginesReady, 0, 0⟩, ⟨.arrive, 1, 1⟩, ⟨.arrive, 2, 2⟩, ⟨.body 1 streamBody, 3, 3⟩, ⟨.body 0 streamBody, 4, 4⟩,
    ⟨.pull 1, 5, 5⟩, ⟨.pull 0, 6, 6⟩, ⟨.engine 1 (.batch (.str (lit "b"))), 7, 7⟩,
    ⟨.engine 0 (.batch (.str (lit "a"))), 8, 8⟩, ⟨.cancel 1, 9, 9⟩, ⟨.pull 0, 10, 10⟩,
      ⟨.engine 0 .exhausted, 11, 11⟩]

def firstClient : List Action :=
  [⟨.enginesReady, 0, 0⟩, ⟨.arrive, 1, 1⟩, ⟨.body 0 streamBody, 4, 4⟩, ⟨.pull 0, 6, 6⟩,
    ⟨.engine 0 (.batch (.str (lit "a"))), 8, 8⟩, ⟨.pull 0, 10, 10⟩, ⟨.engine 0 .exhausted, 11, 11⟩]

theorem twoClients_isolated : ∃ s u, (server .sample).exec (init .sample) twoClients = some s ∧
    (server .sample).exec (init .sample) firstClient = some u ∧ s.requests[0]? = u.requests[0]? := by
  have htwo : ((server .sample).exec (init .sample) twoClients).isSome = true := by decide +kernel
  have hfirst : ((server .sample).exec (init .sample) firstClient).isSome = true := by decide +kernel
  obtain ⟨s, hs⟩ := Option.isSome_iff_exists.mp htwo
  obtain ⟨u, hu⟩ := Option.isSome_iff_exists.mp hfirst
  exact ⟨s, u, hs, hu, requests_isolated hs hu rfl⟩

end State

section Answers

/-- The stream goes on behind these events. -/
def Open (events : List EngineEvent) : Prop :=
  ∀ e ∈ events, (chunks e).2 = false

/-- What a client has been given, from the engine events of its own request. A response that was cut off is
part of what it would have been. -/
def Answered (events : List EngineEvent) (r : Request) : Prop :=
  match r.pc with
  | .refused => events = [] ∧ r.sent = []
  | .reading | .unstarted => events = [] ∧ r.sent = [] ∧ r.response = none
  | .collecting result => r.sent = [] ∧ r.response = none ∧
      ∃ batches : List Value, events = batches.map .batch ∧ result = batches.getLast?
  | .awaiting => r.response = none ∧ r.sent = streamResponse events ∧ Open events
  | .yielded rest last => r.response = none ∧ r.sent ++ rest = streamResponse events ∧
      ∃ earlier e, events = earlier ++ [e] ∧ Open earlier ∧ (chunks e).2 = last
  | .ended _ => (r.response = none ∧ r.sent <+: streamResponse events) ∨ r.sent = [] ∧ ∃ batches : List Value,
      (events = batches.map .batch ++ [.exhausted] ∧
        r.response = (nonStreamResponse (.finished batches.getLast?)).toOption) ∨
      ∃ text, events = batches.map .batch ++ [.raised text] ∧
        r.response = (nonStreamResponse (.raised text)).toOption

def AnsweredAt (i : ℕ) (events : List EngineEvent) (s : State) : Prop :=
  match s.requests[i]? with
  | none => events = []
  | some r => Answered events r

namespace State

variable {cfg : Config} {s t : State} {now later : ℚ} {i : ℕ} {r : Request} {events : List EngineEvent}

lemma answeredAt_of_set {r' : Request} (hr : s.requests[i]? = some r) (ht : t.requests = s.requests.set i r')
    (h : Answered events r') : AnsweredAt i events t := by
  obtain ⟨hlt, -⟩ := List.getElem?_eq_some_iff.mp hr
  rw [AnsweredAt, ht, List.getElem?_set_self hlt]
  exact h

lemma answeredAt_congr (h : AnsweredAt i events s) (hreq : t.requests[i]? = s.requests[i]?) :
    AnsweredAt i events t := by
  rwa [AnsweredAt, hreq]

lemma streamResponse_append {es : List EngineEvent} (h : Open events) :
    streamResponse (events ++ es) = streamResponse events ++ streamResponse es := by
  induction events with
  | nil => rfl
  | cons e events ih =>
    have he := h e List.mem_cons_self
    have hrest := ih fun e' he' => h e' (List.mem_cons_of_mem e he')
    simp [streamResponse, he, hrest]

lemma streamResponse_snoc (h : Open events) (e : EngineEvent) :
    streamResponse (events ++ [e]) = streamResponse events ++ (chunks e).1 := by
  rw [streamResponse_append h]
  simp [streamResponse]

lemma advance_answered (hr : s.requests[i]? = some r) (hnone : r.response = none) {rest : List PyStr}
    (hsent : r.sent ++ rest = streamResponse events) {last : Bool}
    (hlast : ∃ earlier e, events = earlier ++ [e] ∧ Open earlier ∧ (chunks e).2 = last) :
    AnsweredAt i events (advance s now i r rest last) := by
  cases rest with
  | cons c rest =>
    refine answeredAt_of_set hr rfl ⟨hnone, ?_, hlast⟩
    rw [← hsent, List.append_assoc, List.singleton_append]
  | nil =>
    rw [List.append_nil] at hsent
    cases last with
    | false =>
      obtain ⟨earlier, e, rfl, hopen, he⟩ := hlast
      refine answeredAt_of_set hr rfl ⟨hnone, hsent, fun e' he' => ?_⟩
      obtain he' | he' := List.mem_append.mp he'
      · exact hopen e' he'
      · exact List.eq_of_mem_singleton he' ▸ he
    | true => exact answeredAt_of_set hr rfl (Or.inl ⟨hnone, hsent ▸ List.prefix_refl _⟩)

lemma body_answered (hr : s.requests[i]? = some r) (h : Answered events r) (hpc : r.pc = .reading)
    (content : Option Value) : AnsweredAt i events (handleBody s now later i r content) := by
  rw [Answered, hpc] at h
  obtain ⟨hevents, hsent, hnone⟩ := h
  cases content with
  | none => exact answeredAt_of_set hr rfl ⟨hevents, hsent⟩
  | some v =>
    cases v with
    | dict items =>
      have hbranch : Answered events { r with pc := branch items } := by
        rw [Answered, branch]
        split_ifs
        · exact ⟨hevents, hsent, hnone⟩
        · exact ⟨hsent, hnone, [], hevents, rfl⟩
      exact answeredAt_of_set hr rfl hbranch
    | _ => exact answeredAt_of_set hr rfl ⟨hevents, hsent⟩

lemma finish_answered (hr : s.requests[i]? = some r) (hsent : r.sent = []) (hnone : r.response = none)
    {batches : List Value} {outcome : Outcome} {e : EngineEvent}
    (he : e = .exhausted ∧ outcome = .finished batches.getLast? ∨
      ∃ text, e = .raised text ∧ outcome = .raised text) :
    AnsweredAt i (batches.map .batch ++ [e]) (finishNonStream s now later i r (nonStreamResponse outcome)) := by
  have hended (time : ℚ) (response : Option Response) (h : response = (nonStreamResponse outcome).toOption) :
      Answered (batches.map .batch ++ [e]) ⟨.ended time, response, r.sent⟩ := by
    refine Or.inr ⟨hsent, batches, ?_⟩
    rcases he with ⟨rfl, rfl⟩ | ⟨text, rfl, rfl⟩
    · exact Or.inl ⟨rfl, h⟩
    · exact Or.inr ⟨text, rfl, h⟩
  cases hresponse : nonStreamResponse outcome with
  | ok response => exact answeredAt_of_set hr rfl (hended now (some response) (by rw [hresponse]; rfl))
  | error text => exact answeredAt_of_set hr rfl (hended later r.response (by rw [hresponse, hnone]; rfl))

lemma engine_answered (hr : s.requests[i]? = some r) (h : Answered events r) {e : EngineEvent}
    (ht : s.handleEngine now later i r e = some t) : AnsweredAt i (events ++ [e]) t := by
  cases hpc : r.pc with
  | collecting result =>
    rw [Answered, hpc] at h
    obtain ⟨hsent, hnone, batches, rfl, rfl⟩ := h
    cases e with
    | batch b =>
      simp only [handleEngine, hpc, Option.some.injEq] at ht
      subst ht
      refine answeredAt_of_set hr rfl ⟨hsent, hnone, batches ++ [b], by simp, by simp⟩
    | exhausted =>
      simp only [handleEngine, hpc, Option.some.injEq] at ht
      subst ht
      exact finish_answered hr hsent hnone (Or.inl ⟨rfl, rfl⟩)
    | raised text =>
      simp only [handleEngine, hpc, Option.some.injEq] at ht
      subst ht
      exact finish_answered hr hsent hnone (Or.inr ⟨text, rfl, rfl⟩)
  | awaiting =>
    rw [Answered, hpc] at h
    simp only [handleEngine, hpc, Option.some.injEq] at ht
    subst ht
    obtain ⟨hnone, hsent, hopen⟩ := h
    exact advance_answered hr hnone (by rw [streamResponse_snoc hopen, hsent]) ⟨events, e, rfl, hopen, rfl⟩
  | _ => simp [handleEngine, hpc] at ht

lemma pull_answered (hr : s.requests[i]? = some r) (h : Answered events r)
    (ht : s.handlePull now i r = some t) : AnsweredAt i events t := by
  cases hpc : r.pc with
  | unstarted =>
    rw [Answered, hpc] at h
    simp only [handlePull, hpc, Option.some.injEq] at ht
    subst ht
    obtain ⟨rfl, hsent, hnone⟩ := h
    exact answeredAt_of_set hr rfl ⟨hnone, hsent, List.forall_mem_nil _⟩
  | yielded rest last =>
    rw [Answered, hpc] at h
    simp only [handlePull, hpc, Option.some.injEq] at ht
    subst ht
    exact advance_answered hr h.1 h.2.1 h.2.2
  | _ => simp [handlePull, hpc] at ht

lemma cancel_answered (hr : s.requests[i]? = some r) (h : Answered events r)
    (ht : s.handleCancel now i r = some t) : AnsweredAt i events t := by
  have hended (hnone : r.response = none) (hsent : r.sent <+: streamResponse events) :
      Answered events { r with pc := .ended now } := Or.inl ⟨hnone, hsent⟩
  rw [Answered] at h
  cases hpc : r.pc with
  | reading =>
    rw [hpc] at h
    simp only [handleCancel, hpc, Option.some.injEq] at ht
    subst ht
    exact answeredAt_of_set hr rfl ⟨h.1, h.2.1⟩
  | unstarted =>
    rw [hpc] at h
    simp only [handleCancel, hpc, Option.some.injEq] at ht
    subst ht
    exact answeredAt_of_set hr rfl (hended h.2.2 (by rw [h.2.1]; exact List.nil_prefix))
  | collecting result =>
    rw [hpc] at h
    simp only [handleCancel, hpc, Option.some.injEq] at ht
    subst ht
    exact answeredAt_of_set hr rfl (hended h.2.1 (by rw [h.1]; exact List.nil_prefix))
  | awaiting =>
    rw [hpc] at h
    simp only [handleCancel, hpc, Option.some.injEq] at ht
    subst ht
    exact answeredAt_of_set hr rfl (hended h.1 (by rw [h.2.1]))
  | yielded rest last =>
    rw [hpc] at h
    simp only [handleCancel, hpc, Option.some.injEq] at ht
    subst ht
    exact answeredAt_of_set hr rfl (hended h.1 ⟨rest, h.2.1⟩)
  | _ => simp [handleCancel, hpc] at ht

lemma heard_none {a : Action} (h : a.event.target ≠ some i) : heard i s a = none := by
  rw [heard.eq_def]
  split
  · rename_i j e he
    rw [he] at h
    exact if_neg fun hj => h (congrArg some hj)
  · rfl

lemma answeredAt_some (h : AnsweredAt i events s) (hr : s.requests[i]? = some r) : Answered events r := by
  rwa [AnsweredAt, hr] at h

lemma arrive_answered (h : AnsweredAt i events s) (ht : s.step cfg now later .arrive = some t) :
    AnsweredAt i events t := by
  have happend (r : Request) (hreq : t.requests = s.requests ++ [r]) (hr : Answered [] r) :
      AnsweredAt i events t := by
    by_cases hi : i = s.requests.length
    · subst hi
      have hnone : s.requests[s.requests.length]? = none := List.getElem?_eq_none_iff.mpr (le_refl _)
      rw [AnsweredAt, hnone] at h
      obtain rfl : events = [] := h
      rw [AnsweredAt, hreq, List.getElem?_concat_length]
      exact hr
    · refine answeredAt_congr h ?_
      rw [hreq, getElem?_snoc_ne (Ne.symm hi)]
  obtain rfl := Option.some.inj ht
  split_ifs at happend ⊢
  · exact happend _ rfl ⟨rfl, rfl, rfl⟩
  · exact happend _ rfl ⟨rfl, rfl⟩

lemma own_answered {a : Action} (h : AnsweredAt i events s) (htarget : a.event.target = some i)
    (hr : s.requests[i]? = some r) (ht : s.step cfg now later a.event = some t) :
    AnsweredAt i (events ++ (heard i s a).toList) t := by
  have hanswered := answeredAt_some h hr
  obtain ⟨e, now', later'⟩ := a
  cases e with
  | body j content =>
    obtain rfl := Option.some.inj htarget
    simp only [State.step, hr, Option.bind_some] at ht
    split at ht
    · obtain rfl := Option.some.inj ht
      simpa [heard] using body_answered hr hanswered ‹_› content
    · cases ht
  | engine j e =>
    obtain rfl := Option.some.inj htarget
    simp only [State.step, hr, Option.bind_some] at ht
    simpa [heard] using engine_answered hr hanswered ht
  | pull j =>
    obtain rfl := Option.some.inj htarget
    simp only [State.step, hr, Option.bind_some] at ht
    simpa [heard] using pull_answered hr hanswered ht
  | cancel j =>
    obtain rfl := Option.some.inj htarget
    simp only [State.step, hr, Option.bind_some] at ht
    simpa [heard] using cancel_answered hr hanswered ht
  | _ => cases htarget

lemma step_answered {a : Action} (h : AnsweredAt i events s) (ht : s.step cfg now later a.event = some t) :
    AnsweredAt i (events ++ (heard i s a).toList) t := by
  cases htarget : a.event.target with
  | some j =>
    obtain ⟨r, r', hr, ⟨hset, -⟩, -⟩ := target_step htarget ht
    by_cases hj : j = i
    · subst hj
      exact own_answered h htarget hr ht
    · rw [heard_none (by rw [htarget]; exact fun hi => hj (Option.some.inj hi)), Option.toList_none,
        List.append_nil]
      refine answeredAt_congr h ?_
      rw [hset, List.getElem?_set_ne hj]
  | none =>
    rw [heard_none (by rw [htarget]; exact (Option.some_ne_none i).symm), Option.toList_none, List.append_nil]
    obtain ⟨e, now', later'⟩ := a
    cases e with
    | enginesReady =>
      obtain rfl := Option.some.inj ht
      exact h
    | arrive => exact arrive_answered h ht
    | startIdleTimeout => exact answeredAt_congr h (by rw [(quiet_step (Or.inl rfl) ht).1])
    | tick => exact answeredAt_congr h (by rw [(quiet_step (Or.inr rfl) ht).1])
    | _ => cases htarget

lemma answeredAt_exec {as : List Action} (he : (server cfg).exec (init cfg) as = some s) :
    AnsweredAt i ((server cfg).seen (heard i) (init cfg) as) s := by
  have hstart : AnsweredAt i [] (init cfg) := rfl
  have hhistory : AnsweredAt i ([] ++ (server cfg).seen (heard i) (init cfg) as) s := by
    refine Machine.exec_history he hstart ?_
    intro events s a t h hn
    obtain ⟨-, -, u, hu, rfl⟩ := next_elim hn
    exact answeredAt_congr (step_answered h hu) rfl
  exact hhistory

/-- In any run, what a client was sent and how it was answered comes from the engine events of its own
request, in their order and none left out. -/
theorem answers_own_events {as : List Action} (he : (server cfg).exec (init cfg) as = some s)
    (hr : s.requests[i]? = some r) : Answered ((server cfg).seen (heard i) (init cfg) as) r :=
  answeredAt_some (answeredAt_exec he) hr

theorem twoClients_answered : ∃ s r, (server .sample).exec (init .sample) twoClients = some s ∧
    s.requests[0]? = some r ∧ Answered ((server .sample).seen (heard 0) (init .sample) twoClients) r := by
  have hrun : ((server .sample).exec (init .sample) twoClients).any (fun s => s.requests[0]?.isSome) = true := by
    decide +kernel
  obtain ⟨s, hs, hsome⟩ := (Option.any_eq_true _ _).mp hrun
  obtain ⟨r, hr⟩ := Option.isSome_iff_exists.mp hsome
  exact ⟨s, r, hs, hr, answers_own_events hs hr⟩

end State

end Answers

end GemmaWorker.Server
