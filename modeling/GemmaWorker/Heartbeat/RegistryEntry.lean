import GemmaWorker.Heartbeat.Protocol

/-! The registry entry of a worker whose status calls may come at any time: a heartbeat writes all fields
and a time to live, a status alone creates an entry without them. -/

namespace GemmaWorker.Heartbeat

open Python World Library

section Entries

def heartbeatNames : List PyStr :=
  [lit "instanceId", lit "serviceId", lit "tenantId", lit "providerRouting", lit "customMetadata",
    lit "load", lit "lastHeartbeat", lit "status", lit "region", lit "startedAt"]

def names (fields : Fields) : List PyStr :=
  fields.map Prod.fst

structure Entry.Complete (e : Entry) : Prop where
  fields : heartbeatNames ⊆ names e.fields
  expires : e.expires = true

instance (e : Entry) : Decidable e.Complete :=
  decidable_of_iff (heartbeatNames ⊆ names e.fields ∧ e.expires = true)
    ⟨fun h => ⟨h.1, h.2⟩, fun h => ⟨h.fields, h.expires⟩⟩

/-- If the hash exists, it has all fields and a time to live. -/
def Registry.Complete (r : Registry) : Prop :=
  ∀ e ∈ r.entry, e.Complete

instance (r : Registry) : Decidable r.Complete :=
  inferInstanceAs (Decidable (∀ e ∈ r.entry, e.Complete))

variable {r : Registry} {fields : Fields}

lemma subset_setField (fields : Fields) (kv : PyStr × PyStr) : names fields ⊆ names (setField fields kv) := by
  intro name hname
  obtain ⟨old, hold, rfl⟩ := List.mem_map.mp hname
  rw [setField]
  split_ifs
  · by_cases hk : old.1 = kv.1
    · exact List.mem_map.mpr ⟨kv, List.mem_map.mpr ⟨old, hold, if_pos hk⟩, hk.symm⟩
    · exact List.mem_map.mpr ⟨old, List.mem_map.mpr ⟨old, hold, if_neg hk⟩, rfl⟩
  · exact List.mem_map.mpr ⟨old, List.mem_append_left _ hold, rfl⟩

lemma mem_setField (fields : Fields) (kv : PyStr × PyStr) : kv.1 ∈ names (setField fields kv) := by
  rw [setField]
  split_ifs with h
  · obtain ⟨old, hold, hk⟩ := List.any_eq_true.mp h
    exact List.mem_map.mpr ⟨kv, List.mem_map.mpr ⟨old, hold, if_pos (by simpa using hk)⟩, rfl⟩
  · exact List.mem_map.mpr ⟨kv, List.mem_append_right _ (by simp), rfl⟩

lemma subset_setFields (new old : Fields) : names old ⊆ names (new.foldl setField old) ∧
    names new ⊆ names (new.foldl setField old) := by
  induction new generalizing old with
  | nil => exact ⟨fun _ h => h, by simp [names]⟩
  | cons kv new ih =>
    obtain ⟨hold, hnew⟩ := ih (setField old kv)
    refine ⟨fun _ h => hold (subset_setField old kv h), ?_⟩
    intro name hname
    obtain rfl | hname := List.mem_cons.mp hname
    · exact hold (mem_setField old kv)
    · exact hnew hname

lemma Registry.complete_of_none (h : r.entry = none) : r.Complete := by
  simp [Registry.Complete, h]

lemma Registry.Complete.heartbeat (hf : heartbeatNames ⊆ names fields) :
    (r.apply (.heartbeat fields)).Complete := by
  intro e he
  obtain rfl := Option.some.inj he
  exact ⟨fun _ h => (subset_setFields fields _).2 (hf h), rfl⟩

lemma Registry.Complete.setStatus (h : r.Complete) (hr : r.entry.isSome) (status : Status) :
    (r.apply (.setStatus status)).Complete := by
  obtain ⟨old, hold⟩ := Option.isSome_iff_exists.mp hr
  obtain ⟨hfields, hexpires⟩ := h old hold
  intro e he
  obtain rfl := Option.some.inj he
  refine ⟨fun _ hn => ?_, by simp [hold, hexpires]⟩
  have hsub := subset_setField old.fields (lit "status", status.text) (hfields hn)
  simpa [hold] using hsub

lemma Registry.bare_status (hr : r.entry = none) (status : Status) :
    ¬ (r.apply (.setStatus status)).Complete := by
  intro h
  have hcomplete := h ⟨setField [] (lit "status", status.text), false⟩ (by simp [Registry.apply, hr])
  simpa using hcomplete.expires

lemma Registry.Complete.expire (h : r.Complete) : r.expire.entry = none := by
  rw [Registry.expire, Option.filter_eq_none_iff]
  intro e he
  simp [(h e he).expires]

end Entries

section Carried

variable {cfg : Config} {w w' : World}

/-- The fields of a heartbeat that a task has sent or will send, or that it has left on the wire. -/
def Carried (w : World) (fields : Fields) : Prop :=
  (∃ b a, (w.beat b).pc = .beating fields a) ∨ .heartbeat fields ∈ w.orphans

lemma carried_of_wire (h : w'.wire = w.wire) {fields : Fields} (hc : Carried w' fields) : Carried w fields := by
  obtain ⟨-, horphans, hpcs⟩ := Prod.mk.inj h |>.imp_right Prod.mk.inj
  obtain ⟨b, a, hb⟩ | ho := hc
  · exact Or.inl ⟨b, a, (congrFun hpcs b).symm.trans hb⟩
  · exact Or.inr (horphans ▸ ho)

lemma carried_setBeat {b : BeatId} {pc : BeatPc} {fields : Fields} (hc : Carried (w.setBeat b pc) fields) :
    Carried w fields ∨ ∃ a, pc = .beating fields a := by
  obtain ⟨d, a, hd⟩ | ho := hc
  · by_cases hdb : d = b
    · subst hdb
      exact Or.inr ⟨a, by simpa [setBeat] using hd⟩
    · exact Or.inl (Or.inl ⟨d, a, by simpa [setBeat, hdb] using hd⟩)
  · exact Or.inl (Or.inr ho)

lemma carried_mapAwait {f : Await → Await} {t : Task} {fields : Fields} (hc : Carried (w.mapAwait f t) fields) :
    Carried w fields := by
  cases t with
  | beat b =>
    obtain hc | ⟨a, ha⟩ := carried_setBeat hc
    · exact hc
    · cases hb : (w.beat b).pc <;> simp [hb, BeatPc.mapAwait] at ha
      exact Or.inl ⟨b, _, by rw [hb, ha.1]⟩
  | _ => exact hc

lemma carried_flight {t : Task} {fields : Fields} {a : Await} (hf : w.flight cfg t = some (.heartbeat fields, a)) :
    Carried w fields := by
  cases t with
  | boot => cases hb : w.boot.pc <;> simp [World.flight, hb, BootPc.flight] at hf
  | beat b =>
    cases hb : (w.beat b).pc <;> simp [World.flight, hb, BeatPc.flight] at hf
    exact Or.inl ⟨b, _, by rw [hb, hf.1]⟩
  | monitor => cases hf
  | call i =>
    obtain ⟨c, -, hcf⟩ := flight_call hf
    cases hpc : c.pc <;> simp [hpc, CallPc.flight] at hcf

lemma carried_abandon {t : Task} {fields : Fields} (hc : Carried (w.abandon cfg t) fields) : Carried w fields := by
  obtain h | ⟨cmd, a, hf, -, h⟩ := abandon_cases cfg w t <;> rw [h] at hc
  · exact hc
  · obtain ⟨b, a', hb⟩ | ho := hc
    · exact Or.inl ⟨b, a', hb⟩
    · obtain ho | ho := List.mem_append.mp ho
      · exact Or.inr ho
      · obtain rfl := List.mem_singleton.mp ho
        exact carried_flight hf

lemma carried_resume {ok : Bool} {t : Task} {fields : Fields} (h : w.resume cfg ok t = some w')
    (hc : Carried w' fields) : Carried w fields := by
  by_cases ht : ∃ b, t = .beat b
  · obtain ⟨b, rfl⟩ := ht
    obtain rfl := Option.some.inj h
    obtain hc | ⟨a, ha⟩ := carried_setBeat hc
    · exact hc
    · cases b <;> cases ha
  · exact carried_of_wire (wire_resume (fun b hb => ht ⟨b, hb⟩) h) hc

lemma carried_cancelled {t : Task} {fields : Fields} (h : w.cancelled t = some w') (hc : Carried w' fields) :
    Carried w fields := by
  cases cancelled_unwound h with
  | beat b =>
    obtain hc | ⟨a, ha⟩ := carried_setBeat hc
    · exact hc
    · cases ha
  | _ => exact hc

lemma carried_bootRun {fields : Fields} (hc : Carried (w.bootRun cfg) fields) : Carried w fields := by
  rw [bootRun, startHeartbeat] at hc
  split_ifs at hc
  · exact hc
  · obtain ⟨b, a, hb⟩ | ho := hc
    · cases hb
    · exact Or.inr ho
  · exact hc

lemma carried_step {a : Action} {fields : Fields} (h : w.next cfg a = some w') (hc : Carried w' fields) :
    Carried w fields ∨ names fields = heartbeatNames := by
  cases next_stepped h with
  | bootRun => exact Or.inl (carried_bootRun hc)
  | executorDone ok _ _ _ h => exact Or.inl (carried_of_wire (wire_executorDone h) hc)
  | wakeBeat b now =>
    obtain hc | ⟨a, ha⟩ := carried_setBeat hc
    · exact Or.inl (carried_of_wire (wire_getRedis w) hc)
    · obtain ⟨rfl, -⟩ := BeatPc.beating.inj ha
      exact Or.inr rfl
  | idle => exact Or.inl (carried_of_wire (w := w) (wire_beginCall w.enterCallback _ _ _) hc)
  | call reason exits => exact Or.inl (carried_of_wire (wire_beginCall _ _ _ _) hc)
  | send t => exact Or.inl (carried_mapAwait (f := fun b => { b with epoch := w.epoch _, phase := .sent }) hc)
  | apply t cmd a => exact Or.inl (carried_mapAwait (f := fun b => { b with phase := .applied }) hc)
  | deliver t => exact Or.inl (carried_mapAwait hc)
  | resume t _ _ _ _ _ _ _ h => exact Or.inl (carried_resume h hc)
  | fail t _ _ _ _ _ _ _ h => exact Or.inl (carried_abandon (carried_resume h hc))
  | cancel t => exact Or.inl (carried_of_wire (wire_requestCancel w t) hc)
  | cancelled t _ _ _ h => exact Or.inl (carried_abandon (carried_cancelled h hc))
  | applyOrphan k cmd hk =>
    obtain hb | ho := hc
    · exact Or.inl (Or.inl hb)
    · exact Or.inl (Or.inr (List.mem_of_mem_eraseIdx ho))
  | dropOrphan k cmd hk =>
    obtain hb | ho := hc
    · exact Or.inl (Or.inl hb)
    · exact Or.inl (Or.inr (List.mem_of_mem_eraseIdx ho))
  | _ => exact Or.inl hc

lemma carried_of_applied {a : Action} {fields : Fields} (h : w.applied cfg a = some (.heartbeat fields)) :
    Carried w fields := by
  cases a with
  | apply t =>
    obtain ⟨⟨cmd, a⟩, hf, ha⟩ := Option.bind_eq_some_iff.mp h
    split_ifs at ha
    obtain rfl : cmd = .heartbeat fields := Option.some.inj ha
    exact carried_flight hf
  | applyOrphan k => exact Or.inr (List.mem_of_getElem? h)
  | _ => cases h

end Carried

section Machine

/-- A call of `start_draining` whose `HSET` is to be sent or is on its way. -/
inductive DrainPc
  | waiting
  | sent
deriving DecidableEq

/-- The worker with the calls of `start_draining`, which nothing in the worker makes by itself. -/
structure Draining where
  world : World
  drains : List DrainPc

namespace Draining

inductive Action
  | worker (a : World.Action)
  | startDraining
  | sendDraining (k : ℕ)
  | applyDraining (k : ℕ)
  | loseDraining (k : ℕ)

variable (cfg : Config) (s : Draining)

def init : Draining := ⟨.init cfg, []⟩

def startDraining : Draining :=
  ⟨(s.world.setStatus .draining).getRedis, s.drains ++ [.waiting]⟩

def next : Action → Option Draining
  | .worker a => (s.world.next cfg a).map (fun w => { s with world := w })
  | .startDraining => if s.world.exited then none else some s.startDraining
  | .sendDraining k =>
    if s.world.exited = false ∧ s.drains[k]? = some .waiting then some { s with drains := s.drains.set k .sent }
    else none
  | .applyDraining k =>
    if s.drains[k]? = some .sent then
      some ⟨s.world.record (.setStatus .draining), s.drains.eraseIdx k⟩
    else none
  | .loseDraining k => s.drains[k]?.map (fun _ => { s with drains := s.drains.eraseIdx k })

def brings : Action → Option Command
  | .worker a => s.world.applied cfg a
  | .applyDraining k => if s.drains[k]? = some .sent then some (.setStatus .draining) else none
  | _ => none

def meetsEntry (a : Action) : Bool :=
  match s.brings cfg a with
  | some (.setStatus _) => s.world.registry.entry.isSome
  | _ => true

end Draining

def drainingWorker (cfg : Config) : Machine Draining Draining.Action := ⟨Draining.next cfg⟩

end Machine

section Invariant

open Draining

variable {cfg : Config} {s s' : Draining} {a : Draining.Action}

def Draining.Registered (s : Draining) : Prop :=
  s.world.registry.Complete

lemma registry_step (h : s.next cfg a = some s') : s'.world.registry =
    match s.brings cfg a, a with
    | some cmd, _ => s.world.registry.apply cmd
    | none, .worker .expire => s.world.registry.expire
    | none, _ => s.world.registry := by
  cases a with
  | worker a =>
    obtain ⟨w, hw, rfl⟩ := Option.map_eq_some_iff.mp h
    have hstored := congrArg Prod.snd (stored_step hw)
    rw [restored.eq_def] at hstored
    show w.registry = _
    cases happ : s.world.applied cfg a with
    | some cmd =>
      simp only [happ] at hstored
      simp only [brings, happ]
      exact hstored
    | none =>
      simp only [happ] at hstored
      cases a with
      | expire =>
        simp only [brings, happ]
        exact hstored
      | _ =>
        simp only [brings, happ]
        exact hstored
  | startDraining =>
    rw [Draining.next] at h
    split_ifs at h
    obtain rfl := Option.some.inj h
    exact congrArg Prod.snd (stored_of_wire (wire_getRedis (s.world.setStatus .draining)))
  | sendDraining k =>
    rw [Draining.next] at h
    split_ifs at h
    obtain rfl := Option.some.inj h
    rfl
  | applyDraining k =>
    rw [Draining.next] at h
    split_ifs at h with hk
    obtain rfl := Option.some.inj h
    simp only [brings, if_pos hk]
    rfl
  | loseDraining k =>
    obtain ⟨_, _, rfl⟩ := Option.map_eq_some_iff.mp h
    rfl

lemma carried_next {fields : Fields} (h : s.next cfg a = some s') (hc : Carried s'.world fields) :
    Carried s.world fields ∨ names fields = heartbeatNames := by
  cases a with
  | worker a =>
    obtain ⟨w, hw, rfl⟩ := Option.map_eq_some_iff.mp h
    exact carried_step hw hc
  | startDraining =>
    rw [Draining.next] at h
    split_ifs at h
    obtain rfl := Option.some.inj h
    exact Or.inl (carried_of_wire (wire_getRedis (s.world.setStatus .draining)) hc)
  | sendDraining k =>
    rw [Draining.next] at h
    split_ifs at h
    obtain rfl := Option.some.inj h
    exact Or.inl hc
  | applyDraining k =>
    rw [Draining.next] at h
    split_ifs at h
    obtain rfl := Option.some.inj h
    exact Or.inl hc
  | loseDraining k =>
    obtain ⟨_, _, rfl⟩ := Option.map_eq_some_iff.mp h
    exact Or.inl hc

structure Kept (s : Draining) : Prop where
  registered : s.Registered
  carried : ∀ fields, Carried s.world fields → names fields = heartbeatNames

lemma kept_init : Kept (init cfg) := by
  refine ⟨Registry.complete_of_none rfl, fun fields hc => ?_⟩
  obtain ⟨b, a, hb⟩ | ho := hc
  · cases hb
  · cases ho

lemma Kept.brings (h : Kept s) {fields : Fields} (hb : s.brings cfg a = some (.heartbeat fields)) :
    names fields = heartbeatNames := by
  cases a with
  | worker a => exact h.carried fields (carried_of_applied hb)
  | applyDraining k =>
    rw [Draining.brings] at hb
    split_ifs at hb
    cases hb
  | _ => cases hb

lemma Kept.step (h : Kept s) (hn : s.next cfg a = some s') (hok : s.meetsEntry cfg a = true) : Kept s' := by
  have hregistered := h.registered
  refine ⟨?_, fun fields hc => ?_⟩
  · rw [Registered, registry_step hn]
    rw [meetsEntry] at hok
    cases hb : s.brings cfg a with
    | some cmd =>
      simp only
      cases cmd with
      | heartbeat fields => exact Registry.Complete.heartbeat (h.brings hb ▸ fun _ hx => hx)
      | setStatus status => exact hregistered.setStatus (by simpa [hb] using hok) status
      | publish channel message => exact hregistered
      | delete => exact Registry.complete_of_none rfl
      | srem => exact hregistered
    | none =>
      split
      · rename_i hsome
        cases hsome
      · exact Registry.complete_of_none hregistered.expire
      · exact hregistered
  · obtain hc | hnames := carried_next hn hc
    · exact h.carried fields hc
    · exact hnames

lemma bare_step (hn : s.next cfg a = some s') (hbad : s.meetsEntry cfg a ≠ true) : ¬ s'.Registered := by
  rw [meetsEntry] at hbad
  split at hbad
  · rename_i status hb
    have hnone : s.world.registry.entry = none := by simpa using hbad
    rw [Registered, registry_step hn, hb]
    exact Registry.bare_status hnone status
  · exact absurd rfl hbad

/-- The entry is complete all along a run exactly when every status that is set meets an entry. -/
theorem registered_iff {as : List Draining.Action} (hrun : ((drainingWorker cfg).exec (init cfg) as).isSome) :
    (drainingWorker cfg).Always Registered (init cfg) as ↔
      (drainingWorker cfg).Guarded (fun s a => s.meetsEntry cfg a = true) (init cfg) as :=
  have hany : (drainingWorker cfg).Guarded (fun _ _ => True) (init cfg) as :=
    Machine.Guarded.of_forall fun _ _ => trivial
  Machine.always_iff_guarded hrun hany kept_init (fun _ h => h.registered)
    (fun _ _ _ h _ hok hn => h.step hn hok) (fun _ _ _ _ _ hbad hn => bare_step hn hbad)

def bootedRun (meanwhile : List Draining.Action) : List Draining.Action :=
  [.worker .bootRun, .worker (.wakeBeat .oneShot 1), .worker (.send (.beat .oneShot)),
    .worker (.apply (.beat .oneShot)), .worker (.executorDone true)] ++ meanwhile ++
  [.worker (.executorDone true), .worker (.send .boot), .worker (.apply .boot), .startDraining,
    .sendDraining 0, .applyDraining 0]

theorem registered_bootedRun :
    (drainingWorker .sample).Always Registered (init .sample) (bootedRun []) ↔
      (drainingWorker .sample).Guarded (fun s a => s.meetsEntry .sample a = true) (init .sample) (bootedRun []) :=
  registered_iff (by decide +kernel)

/-- The heartbeats of half a minute fail, the key expires, and the worker marks itself healthy. -/
theorem bare_status_left :
    ∃ s, (drainingWorker .sample).exec (init .sample) (bootedRun [.worker .expire]) = some s ∧
    ¬ s.Registered ∧ s.world.registry.entry.map Entry.fields = some [(lit "status", lit "draining")] ∧
      s.world.registry.expire.entry.isSome := by
  have hrun : ((drainingWorker .sample).exec (init .sample) (bootedRun [.worker .expire])).any (fun s =>
      ¬ s.world.registry.Complete ∧
        s.world.registry.entry.map Entry.fields = some [(lit "status", lit "draining")] ∧
        s.world.registry.expire.entry.isSome) = true := by
    decide +kernel
  obtain ⟨s, he, hs⟩ := (Option.any_eq_true _ _).mp hrun
  exact ⟨s, he, by simpa [Registered] using hs⟩

end Invariant

end GemmaWorker.Heartbeat
