import GemmaWorker.Engine.LazyInit

/-! The same initialisation where its steps may raise and its callers may be cancelled. A failed run leaves
behind what it has built so far, and the flag unset. -/

namespace GemmaWorker.Engine.Failing

open Python Library

section Machine

/-- What raises after the tokenizer was asked for. An exception of `get_tokenizer` itself is passed over. -/
inductive Fault
  | render
  | chat
  | completion
  | warmup

inductive CallerPc
  | loadingLoras (place : ℕ)
  | gettingTokenizer (place : ℕ)
  | proceeded (f : Fields)
  | failed

structure Caller where
  route : Route
  pc : CallerPc

structure State where
  enginesInitialized : Bool
  fields : Fields
  registries : List ServingModels
  callers : List Caller

/-- `raised i` is an exception of `init_static_loras` in caller `i`, or its cancellation. -/
inductive Action
  | ensure (route : Route) (ok : Bool)
  | lorasLoaded (i : ℕ)
  | tokenizer (i : ℕ) (template : Option PyStr) (fault : Option Fault)
  | raised (i : ℕ)

def buildUntil (f : Fields) (setup : Setup) (builder models : ℕ) (template : Option PyStr) : Option Fault → Fields
  | some .render => f
  | some .chat => { f with servingRender := some (setup.servingRender builder models template) }
  | some .completion =>
    { f with
      servingRender := some (setup.servingRender builder models template)
      chatEngine :=
        some (setup.servingChat builder models (setup.servingRender builder models template) template) }
  | some .warmup | none => f.buildEngines setup builder models template

namespace State

variable (setup : Setup) (s : State)

def init : State := ⟨false, ⟨none, none, none, none⟩, [], []⟩

def setCaller (i : ℕ) (c : Caller) (pc : CallerPc) : State :=
  { s with callers := s.callers.set i { c with pc := pc } }

def ensureEnginesInitialized (route : Route) (ok : Bool) : State :=
  if s.enginesInitialized then
    { s with callers := s.callers ++ [⟨route, .proceeded s.fields⟩] }
  else if ok then
    { s with
      fields := { s.fields with servingModels := some s.registries.length }
      registries := s.registries ++ [setup.servingModels]
      callers := s.callers ++ [⟨route, .loadingLoras s.registries.length⟩] }
  else { s with callers := s.callers ++ [⟨route, .failed⟩] }

def lorasLoaded (i : ℕ) (c : Caller) (place : ℕ) : State :=
  { s with registries := s.registries.modify place (fun r => { r with lorasLoaded := true }) }.setCaller i c
    (.gettingTokenizer place)

def finishInitialization (i : ℕ) (c : Caller) (place models : ℕ) (template : Option PyStr) (fault : Option Fault) :
    State :=
  let fields := buildUntil s.fields setup place models (setup.chatTemplate template) fault
  { s with enginesInitialized := s.enginesInitialized || fault.isNone, fields := fields }.setCaller i c
    (if fault.isNone then .proceeded fields else .failed)

def next : Action → Option State
  | .ensure route ok => some (s.ensureEnginesInitialized setup route ok)
  | .lorasLoaded i =>
    s.callers[i]?.bind (fun c =>
      match c.pc with
      | .loadingLoras place => some (s.lorasLoaded i c place)
      | _ => none)
  | .tokenizer i template fault =>
    s.callers[i]?.bind (fun c =>
      match c.pc with
      | .gettingTokenizer place =>
        s.fields.servingModels.map (fun models => s.finishInitialization setup i c place models template fault)
      | _ => none)
  | .raised i =>
    s.callers[i]?.bind (fun c =>
      match c.pc with
      | .loadingLoras _ | .gettingTokenizer _ => some (s.setCaller i c .failed)
      | _ => none)

end State

def lazyInit (setup : Setup) : Machine State Action := ⟨State.next setup⟩

end Machine

section Invariant

variable {rs rs' : List ServingModels} {f : Fields} {setup : Setup} {s t : State} {a : Action}

def Loaded (rs : List ServingModels) (place : ℕ) : Prop :=
  ∃ r ∈ rs[place]?, r.lorasLoaded = true

/-- Each object was built after its builder had loaded the adapters, over registries that exist. -/
structure Built (rs : List ServingModels) (f : Fields) : Prop where
  models : ∀ p ∈ f.servingModels, p < rs.length
  render : ∀ r ∈ f.servingRender, Loaded rs r.builder ∧ r.registry < rs.length
  chat : ∀ e ∈ f.chatEngine, Loaded rs e.builder ∧ e.render.builder = e.builder ∧
    e.models < rs.length ∧ e.render.registry = e.models
  completion : ∀ e ∈ f.completionEngine, Loaded rs e.builder ∧ e.render.builder = e.builder ∧
    e.models < rs.length ∧ e.render.registry = e.models

structure Complete (f : Fields) : Prop where
  models : f.servingModels.isSome
  render : f.servingRender.isSome
  chat : f.chatEngine.isSome
  completion : f.completionEngine.isSome

structure Grows (rs rs' : List ServingModels) : Prop where
  length : rs.length ≤ rs'.length
  loaded : ∀ p, Loaded rs p → Loaded rs' p

lemma Grows.refl (rs : List ServingModels) : Grows rs rs := ⟨le_refl _, fun _ => id⟩

lemma grows_append (rs : List ServingModels) (r : ServingModels) : Grows rs (rs ++ [r]) := by
  refine ⟨by simp, ?_⟩
  rintro p ⟨x, hx, hloaded⟩
  refine ⟨x, ?_, hloaded⟩
  have hlt : p < rs.length := (List.getElem?_eq_some_iff.mp hx).1
  rwa [Option.mem_def, List.getElem?_append_left hlt]

lemma grows_modify (rs : List ServingModels) (place : ℕ) :
    Grows rs (rs.modify place (fun r => { r with lorasLoaded := true })) := by
  refine ⟨by simp, ?_⟩
  rintro p ⟨x, hx, hloaded⟩
  rw [Loaded, List.getElem?_modify, Option.mem_def.mp hx]
  by_cases hp : place = p
  · exact ⟨{ x with lorasLoaded := true }, by simp [hp], rfl⟩
  · exact ⟨x, by simp [hp], hloaded⟩

lemma loaded_modify {place : ℕ} (h : place < rs.length) :
    Loaded (rs.modify place (fun r => { r with lorasLoaded := true })) place := by
  refine ⟨{ rs[place] with lorasLoaded := true }, ?_, rfl⟩
  simp [h]

lemma Built.grows (h : Built rs f) (hg : Grows rs rs') : Built rs' f := by
  have hlt {p : ℕ} (hp : p < rs.length) : p < rs'.length := hp.trans_le hg.length
  exact ⟨fun p hp => hlt (h.models p hp), fun r hr => (h.render r hr).imp (hg.loaded _) hlt,
    fun e he => (h.chat e he).imp (hg.loaded _) fun hrest => ⟨hrest.1, hlt hrest.2.1, hrest.2.2⟩,
    fun e he => (h.completion e he).imp (hg.loaded _) fun hrest => ⟨hrest.1, hlt hrest.2.1, hrest.2.2⟩⟩

lemma Built.buildUntil {builder models : ℕ} (h : Built rs f) (hb : Loaded rs builder) (hm : models < rs.length)
    (setup : Setup) (template : Option PyStr) (fault : Option Fault) :
    Built rs (buildUntil f setup builder models template fault) := by
  have hrender : ∀ r ∈ some (setup.servingRender builder models template), Loaded rs r.builder ∧
      r.registry < rs.length := by
    rintro r hr
    obtain rfl := Option.some.inj hr
    exact ⟨hb, hm⟩
  have hchat : ∀ e ∈ some
      (setup.servingChat builder models (setup.servingRender builder models template) template),
      Loaded rs e.builder ∧ e.render.builder = e.builder ∧ e.models < rs.length ∧
        e.render.registry = e.models := by
    rintro e he
    obtain rfl := Option.some.inj he
    exact ⟨hb, rfl, hm, rfl⟩
  have hcompletion : ∀ e ∈ some
      (setup.servingCompletion builder models (setup.servingRender builder models template)),
      Loaded rs e.builder ∧ e.render.builder = e.builder ∧ e.models < rs.length ∧
        e.render.registry = e.models := by
    rintro e he
    obtain rfl := Option.some.inj he
    exact ⟨hb, rfl, hm, rfl⟩
  rcases fault with _ | (_ | _ | _ | _)
  · exact ⟨h.models, hrender, hchat, hcompletion⟩
  · exact h
  · exact ⟨h.models, hrender, h.chat, h.completion⟩
  · exact ⟨h.models, hrender, hchat, h.completion⟩
  · exact ⟨h.models, hrender, hchat, hcompletion⟩

def CallerPc.place : CallerPc → Option ℕ
  | .loadingLoras p | .gettingTokenizer p => some p
  | _ => none

structure Sound (s : State) : Prop where
  built : Built s.registries s.fields
  complete : s.enginesInitialized = true → Complete s.fields ∧ ∃ c ∈ s.callers, ∃ f, c.pc = .proceeded f
  inside : ∀ c ∈ s.callers, ∀ p ∈ c.pc.place, p < s.registries.length ∧ s.fields.servingModels.isSome
  loaded : ∀ c ∈ s.callers, ∀ p, c.pc = .gettingTokenizer p → Loaded s.registries p
  proceeded : ∀ c ∈ s.callers, ∀ f, c.pc = .proceeded f →
    s.enginesInitialized = true ∧ Complete f ∧ Built s.registries f

/-- A state that has grown and has at most one caller anew. -/
lemma Sound.of_new (h : Sound s) (hg : Grows s.registries t.registries) (hb : Built t.registries t.fields)
    (hmodels : s.fields.servingModels.isSome → t.fields.servingModels.isSome)
    (hflag : s.enginesInitialized = true → t.enginesInitialized = true)
    (hcomplete : t.enginesInitialized = true → Complete t.fields ∧ ∃ c ∈ t.callers, ∃ f, c.pc = .proceeded f)
    (c' : Caller) (hcallers : ∀ c ∈ t.callers, c ∈ s.callers ∨ c = c')
    (hplace : ∀ p ∈ c'.pc.place, p < t.registries.length ∧ t.fields.servingModels.isSome)
    (hloaded : ∀ p, c'.pc = .gettingTokenizer p → Loaded t.registries p)
    (hproceeded : ∀ f, c'.pc = .proceeded f → t.enginesInitialized = true ∧ Complete f ∧ Built t.registries f) :
    Sound t := by
  refine ⟨hb, hcomplete, fun c hc p hp => ?_, fun c hc p hp => ?_, fun c hc f hf => ?_⟩
  · rcases hcallers c hc with hold | rfl
    · obtain ⟨hlt, hsome⟩ := h.inside c hold p hp
      exact ⟨hlt.trans_le hg.length, hmodels hsome⟩
    · exact hplace p hp
  · rcases hcallers c hc with hold | rfl
    · exact hg.loaded p (h.loaded c hold p hp)
    · exact hloaded p hp
  · rcases hcallers c hc with hold | rfl
    · obtain ⟨hset, hwhole, hbuilt⟩ := h.proceeded c hold f hf
      exact ⟨hflag hset, hwhole, hbuilt.grows hg⟩
    · exact hproceeded f hf

lemma mem_set_of_ne {cs : List Caller} {i : ℕ} {c d d' : Caller} (hc : c ∈ cs) (hd : cs[i]? = some d)
    (hne : c.pc ≠ d.pc) : c ∈ cs.set i d' := by
  obtain ⟨j, hj⟩ := List.mem_iff_getElem?.mp hc
  have hij : i ≠ j := by
    rintro rfl
    exact hne (congrArg Caller.pc (Option.some.inj (hj.symm.trans hd)))
  exact List.mem_of_getElem? ((List.getElem?_set_ne hij).trans hj)

lemma proceeded_kept {i : ℕ} {c d : Caller} (hc : s.callers[i]? = some c) (hpc : c.pc.place.isSome)
    (h : ∃ c ∈ s.callers, ∃ f, c.pc = .proceeded f) : ∃ c ∈ s.callers.set i d, ∃ f, c.pc = .proceeded f := by
  obtain ⟨x, hx, f, hf⟩ := h
  refine ⟨x, mem_set_of_ne hx hc ?_, f, hf⟩
  intro hsame
  rw [← hsame, hf] at hpc
  cases hpc

lemma buildUntil_models (f : Fields) (builder models : ℕ) (template : Option PyStr) (fault : Option Fault) :
    (buildUntil f setup builder models template fault).servingModels = f.servingModels := by
  rcases fault with _ | (_ | _ | _ | _) <;> rfl

lemma Complete.buildUntil (h : Complete f) (builder models : ℕ) (template : Option PyStr) (fault : Option Fault) :
    Complete (buildUntil f setup builder models template fault) := by
  rcases fault with _ | (_ | _ | _ | _)
  · exact ⟨h.models, rfl, rfl, rfl⟩
  · exact h
  · exact ⟨h.models, rfl, h.chat, h.completion⟩
  · exact ⟨h.models, rfl, rfl, h.completion⟩
  · exact ⟨h.models, rfl, rfl, rfl⟩

lemma Sound.ensure (h : Sound s) (route : Route) (ok : Bool) :
    Sound (s.ensureEnginesInitialized setup route ok) := by
  have hnew {c' : Caller} (c : Caller) (hc : c ∈ s.callers ++ [c']) : c ∈ s.callers ∨ c = c' :=
    (List.mem_append.mp hc).imp_right List.mem_singleton.mp
  rw [State.ensureEnginesInitialized]
  split_ifs with hset hok
  · obtain ⟨hwhole, c, hc, hf⟩ := h.complete hset
    refine h.of_new (.refl _) h.built id id (fun _ => ⟨hwhole, c, List.mem_append_left _ hc, hf⟩) _ hnew ?_ ?_ ?_
    · rintro p ⟨⟩
    · rintro p ⟨⟩
    · rintro f hf
      obtain rfl := CallerPc.proceeded.inj hf
      exact ⟨hset, hwhole, h.built⟩
  · have hgrow := grows_append s.registries setup.servingModels
    have hbuilt := h.built.grows hgrow
    have hlt : s.registries.length < (s.registries ++ [setup.servingModels]).length := by simp
    refine h.of_new hgrow ⟨?_, hbuilt.render, hbuilt.chat, hbuilt.completion⟩ (fun _ => rfl) id
      (fun hs => absurd hs hset) _ hnew ?_ ?_ ?_
    · rintro p hp
      obtain rfl := Option.some.inj hp
      exact hlt
    · rintro p hp
      obtain rfl := Option.some.inj hp
      exact ⟨hlt, rfl⟩
    · rintro p ⟨⟩
    · rintro f ⟨⟩
  · refine h.of_new (.refl _) h.built id id (fun hs => absurd hs hset) _ hnew ?_ ?_ ?_
    · rintro p ⟨⟩
    · rintro p ⟨⟩
    · rintro f ⟨⟩

lemma Sound.setCaller {i : ℕ} {c : Caller} (h : Sound s) (hc : s.callers[i]? = some c) (hpc : c.pc.place.isSome) :
    Sound (s.setCaller i c .failed) := by
  refine h.of_new (.refl _) h.built id id (fun hs => ?_) { c with pc := .failed }
    (fun x hx => List.mem_or_eq_of_mem_set hx) ?_ ?_ ?_
  · exact (h.complete hs).imp_right (proceeded_kept hc hpc)
  · rintro p ⟨⟩
  · rintro p ⟨⟩
  · rintro f ⟨⟩

lemma Sound.lorasLoaded {i place : ℕ} {c : Caller} (h : Sound s) (hc : s.callers[i]? = some c)
    (hpc : c.pc = .loadingLoras place) : Sound (s.lorasLoaded i c place) := by
  obtain ⟨hlt, hmodels⟩ := h.inside c (List.mem_of_getElem? hc) place (by rw [hpc]; rfl)
  have hgrow := grows_modify s.registries place
  refine h.of_new hgrow (h.built.grows hgrow) id id (fun hs => ?_) { c with pc := .gettingTokenizer place }
    (fun x hx => List.mem_or_eq_of_mem_set hx) ?_ ?_ ?_
  · exact (h.complete hs).imp_right (proceeded_kept hc (by rw [hpc]; rfl))
  · rintro p hp
    obtain rfl := Option.some.inj hp
    exact ⟨hlt.trans_le hgrow.length, hmodels⟩
  · rintro p hp
    obtain rfl := CallerPc.gettingTokenizer.inj hp
    exact loaded_modify hlt
  · rintro f ⟨⟩

lemma Sound.finish {i place models : ℕ} {c : Caller} {template : Option PyStr} {fault : Option Fault} (h : Sound s)
    (hc : s.callers[i]? = some c) (hpc : c.pc = .gettingTokenizer place)
    (hm : s.fields.servingModels = some models) :
    Sound (s.finishInitialization setup i c place models template fault) := by
  have hmem := List.mem_of_getElem? hc
  have hlt : models < s.registries.length := h.built.models models hm
  have hbuilt := h.built.buildUntil (h.loaded c hmem place hpc) hlt setup (setup.chatTemplate template) fault
  have hsome : (buildUntil s.fields setup place models
      (setup.chatTemplate template) fault).servingModels.isSome := by
    rw [buildUntil_models, hm]
    rfl
  have hlen : i < s.callers.length := (List.getElem?_eq_some_iff.mp hc).1
  cases fault with
  | none =>
    have hwhole : Complete (buildUntil s.fields setup place models (setup.chatTemplate template) none) :=
      ⟨hsome, rfl, rfl, rfl⟩
    refine h.of_new (.refl _) hbuilt (fun _ => hsome)
      (fun _ => by simp [State.finishInitialization, State.setCaller])
      (fun _ => ⟨hwhole, _, List.mem_set hlen _, _, rfl⟩)
      { c with pc := .proceeded (buildUntil s.fields setup place models (setup.chatTemplate template) none) }
      (fun x hx => List.mem_or_eq_of_mem_set hx) ?_ ?_ ?_
    · rintro p ⟨⟩
    · rintro p ⟨⟩
    · rintro f hf
      obtain rfl := CallerPc.proceeded.inj hf
      exact ⟨by simp [State.finishInitialization, State.setCaller], hwhole, hbuilt⟩
  | some fault =>
    refine h.of_new (.refl _) hbuilt (fun _ => hsome)
      (fun hs => by simpa [State.finishInitialization, State.setCaller] using hs) (fun hs => ?_)
      { c with pc := .failed } (fun x hx => List.mem_or_eq_of_mem_set hx) ?_ ?_ ?_
    · have hset : s.enginesInitialized = true := by
        simpa [State.finishInitialization, State.setCaller] using hs
      obtain ⟨hwhole, hdone⟩ := h.complete hset
      exact ⟨hwhole.buildUntil .., proceeded_kept hc (by rw [hpc]; rfl) hdone⟩
    · rintro p ⟨⟩
    · rintro p ⟨⟩
    · rintro f ⟨⟩

lemma Sound.next (h : Sound s) (hn : s.next setup a = some t) : Sound t := by
  cases a with
  | ensure route ok =>
    obtain rfl := Option.some.inj hn
    exact h.ensure route ok
  | lorasLoaded i =>
    obtain ⟨c, hc, hn⟩ := Option.bind_eq_some_iff.mp hn
    split at hn
    · rename_i hpc
      obtain rfl := Option.some.inj hn
      exact h.lorasLoaded hc hpc
    · cases hn
  | tokenizer i template fault =>
    obtain ⟨c, hc, hn⟩ := Option.bind_eq_some_iff.mp hn
    split at hn
    · rename_i hpc
      obtain ⟨models, hm, rfl⟩ := Option.map_eq_some_iff.mp hn
      exact h.finish hc hpc hm
    · cases hn
  | raised i =>
    obtain ⟨c, hc, hn⟩ := Option.bind_eq_some_iff.mp hn
    split at hn
    · rename_i hpc
      obtain rfl := Option.some.inj hn
      exact h.setCaller hc (by rw [hpc]; rfl)
    · rename_i hpc
      obtain rfl := Option.some.inj hn
      exact h.setCaller hc (by rw [hpc]; rfl)
    · cases hn

end Invariant

section Attendance

variable {setup : Setup} {s t : State} {a : Action} {i p : ℕ} {c d : Caller}

/-- A caller is still at the adapters of this registry, or some caller has failed. -/
def Pending (s : State) (p : ℕ) : Prop :=
  ∃ c ∈ s.callers, c.pc = .loadingLoras p ∨ c.pc = .failed

def Attended (s : State) : Prop :=
  ∀ p < s.registries.length, Loaded s.registries p ∨ Pending s p

lemma Pending.set (h : Pending s p) (hc : s.callers[i]? = some c) (hload : c.pc ≠ .loadingLoras p)
    (hfail : c.pc ≠ .failed) (hcallers : t.callers = s.callers.set i d) : Pending t p := by
  obtain ⟨x, hx, hpc⟩ := h
  have hne : x.pc ≠ c.pc := by
    intro he
    rw [he] at hpc
    exact hpc.elim hload hfail
  exact ⟨x, hcallers ▸ mem_set_of_ne hx hc hne, hpc⟩

lemma Pending.append {cs : List Caller} (h : Pending s p) (hcallers : t.callers = s.callers ++ cs) :
    Pending t p := by
  obtain ⟨x, hx, hpc⟩ := h
  exact ⟨x, hcallers ▸ List.mem_append_left cs hx, hpc⟩

lemma Attended.ensure (h : Attended s) (route : Route) (ok : Bool) :
    Attended (s.ensureEnginesInitialized setup route ok) := by
  intro p hp
  rw [State.ensureEnginesInitialized] at hp ⊢
  split_ifs at hp ⊢ with hset hok
  · exact (h p hp).imp_right fun hpending => hpending.append rfl
  · simp only [List.length_append, List.length_singleton] at hp
    obtain hold | rfl : p < s.registries.length ∨ p = s.registries.length := by omega
    · exact (h p hold).imp ((grows_append _ _).loaded p) fun hpending => hpending.append rfl
    · exact Or.inr ⟨_, List.mem_append_right _ List.mem_cons_self, Or.inl rfl⟩
  · exact (h p hp).imp_right fun hpending => hpending.append rfl

lemma Attended.lorasLoaded {place : ℕ} (h : Attended s) (hc : s.callers[i]? = some c)
    (hpc : c.pc = .loadingLoras place) : Attended (s.lorasLoaded i c place) := by
  intro p hp
  have hold : p < s.registries.length := by simpa [State.lorasLoaded, State.setCaller] using hp
  by_cases hplace : p = place
  · exact Or.inl (hplace ▸ loaded_modify (hplace ▸ hold))
  · refine (h p hold).imp ((grows_modify s.registries place).loaded p) fun hpending => ?_
    exact hpending.set hc (by simp [hpc, Ne.symm hplace]) (by simp [hpc]) rfl

lemma attended_fail (hc : s.callers[i]? = some c) : Attended (s.setCaller i c .failed) := by
  intro p _
  have hlt : i < s.callers.length := (List.getElem?_eq_some_iff.mp hc).1
  exact Or.inr ⟨_, List.mem_set hlt _, Or.inr rfl⟩

lemma Attended.next (h : Attended s) (hn : s.next setup a = some t) : Attended t := by
  cases a with
  | ensure route ok =>
    obtain rfl := Option.some.inj hn
    exact h.ensure route ok
  | lorasLoaded i =>
    obtain ⟨c, hc, hn⟩ := Option.bind_eq_some_iff.mp hn
    split at hn
    · rename_i hpc
      obtain rfl := Option.some.inj hn
      exact h.lorasLoaded hc hpc
    · cases hn
  | tokenizer i template fault =>
    obtain ⟨c, hc, hn⟩ := Option.bind_eq_some_iff.mp hn
    split at hn
    · rename_i hpc
      obtain ⟨models, -, rfl⟩ := Option.map_eq_some_iff.mp hn
      exact fun p hp => (h p hp).imp_right fun hpending =>
        hpending.set hc (by simp [hpc]) (by simp [hpc]) rfl
    · cases hn
  | raised i =>
    obtain ⟨c, hc, hn⟩ := Option.bind_eq_some_iff.mp hn
    split at hn
    · obtain rfl := Option.some.inj hn
      exact attended_fail hc
    · obtain rfl := Option.some.inj hn
      exact attended_fail hc
    · cases hn

end Attendance

section Outcome

variable {setup : Setup} {s : State} {as : List Action}

def builders : Handler → List ℕ
  | .chat engine => [engine.builder, engine.render.builder]
  | .completion engine => [engine.builder, engine.render.builder]
  | _ => []

lemma Complete.handled {f : Fields} {rs : List ServingModels} (h : Complete f) (hb : Built rs f) (route : Route) :
    ∃ handler ∈ route.handler f, (∀ p ∈ handler.places, p < rs.length) ∧ ∀ b ∈ builders handler, Loaded rs b := by
  obtain ⟨place, hmodels⟩ := Option.isSome_iff_exists.mp h.models
  obtain ⟨chat, hchat⟩ := Option.isSome_iff_exists.mp h.chat
  obtain ⟨completion, hcompletion⟩ := Option.isSome_iff_exists.mp h.completion
  cases route with
  | models =>
    refine ⟨.models place, by simp [Route.handler, hmodels], ?_, by simp [builders]⟩
    simpa [Handler.places] using hb.models place hmodels
  | chatCompletions =>
    obtain ⟨hloaded, hbuilder, hlt, hregistry⟩ := hb.chat chat hchat
    exact ⟨.chat chat, by simp [Route.handler, hchat], by simp [Handler.places, hregistry, hlt],
      by simp [builders, hbuilder, hloaded]⟩
  | completions =>
    obtain ⟨hloaded, hbuilder, hlt, hregistry⟩ := hb.completion completion hcompletion
    exact ⟨.completion completion, by simp [Route.handler, hcompletion], by simp [Handler.places, hregistry, hlt],
      by simp [builders, hbuilder, hloaded]⟩
  | other => exact ⟨.invalidRoute, rfl, by simp [Handler.places], by simp [builders]⟩

lemma attended_exec (he : (lazyInit setup).exec .init as = some s) : Attended s := by
  have hinit : Attended .init := fun p hp => absurd hp (Nat.not_lt_zero p)
  exact Machine.exec_invariant he hinit fun _ _ _ h hn => h.next hn

lemma sound_exec (he : (lazyInit setup).exec .init as = some s) : Sound s := by
  have hinit : Sound .init := by
    refine ⟨⟨?_, ?_, ?_, ?_⟩, ?_, ?_, ?_, ?_⟩ <;> simp [State.init]
  exact Machine.exec_invariant he hinit fun _ _ _ h hn => h.next hn

/-- The flag is set exactly when a caller has got through. Whoever does finds its handler, built by callers
that had loaded the adapters of their own models; the models it is over have theirs, unless they are pending. -/
theorem initialized_iff (he : (lazyInit setup).exec .init as = some s) :
    (s.enginesInitialized = true ↔ ∃ c ∈ s.callers, ∃ f, c.pc = .proceeded f) ∧
      ∀ c ∈ s.callers, ∀ f, c.pc = .proceeded f → ∃ handler ∈ c.route.handler f,
        (∀ b ∈ builders handler, Loaded s.registries b) ∧
          ∀ p ∈ handler.places, p < s.registries.length ∧ (Loaded s.registries p ∨ Pending s p) := by
  have hs := sound_exec he
  refine ⟨⟨fun hset => (hs.complete hset).2, ?_⟩, fun c hc f hf => ?_⟩
  · rintro ⟨c, hc, f, hf⟩
    exact (hs.proceeded c hc f hf).1
  · obtain ⟨-, hwhole, hbuilt⟩ := hs.proceeded c hc f hf
    obtain ⟨handler, hmem, hplaces, hbuilders⟩ := hwhole.handled hbuilt c.route
    exact ⟨handler, hmem, hbuilders, fun p hp => ⟨hplaces p hp, attended_exec he p (hplaces p hp)⟩⟩

def failsThenServes : List Action :=
  [.ensure .chatCompletions true, .ensure .models true, .raised 0, .lorasLoaded 1, .tokenizer 1 none (some .chat),
    .ensure .completions true, .lorasLoaded 2, .tokenizer 2 none none, .ensure .models true]

theorem failsThenServes_initialized :
    ∃ s, (lazyInit Engine.State.sampleSetup).exec .init failsThenServes = some s ∧
    (s.enginesInitialized = true ↔ ∃ c ∈ s.callers, ∃ f, c.pc = .proceeded f) ∧
      ∀ c ∈ s.callers, ∀ f, c.pc = .proceeded f → ∃ handler ∈ c.route.handler f,
        (∀ b ∈ builders handler, Loaded s.registries b) ∧
          ∀ p ∈ handler.places, p < s.registries.length ∧ (Loaded s.registries p ∨ Pending s p) :=
  ⟨_, rfl, @initialized_iff Engine.State.sampleSetup _ failsThenServes rfl⟩

lemma modify_last {α : Type} (xs : List α) (x : α) (g : α → α) :
    (xs ++ [x]).modify xs.length g = xs ++ [g x] := by
  induction xs with
  | nil => rfl
  | cons y xs ih => simpa using ih

/-- Whatever has failed before, and whoever still waits, the next caller that nothing interrupts gets through
with objects of its own. -/
theorem retry_succeeds (s : State) (hset : s.enginesInitialized = false) (route : Route)
    (template : Option PyStr) :
    ∃ t f, (lazyInit setup).exec s [.ensure route true, .lorasLoaded s.callers.length,
        .tokenizer s.callers.length template none] = some t ∧
      t.enginesInitialized = true ∧ t.callers = s.callers ++ [⟨route, .proceeded f⟩] ∧
      f.BuiltBy s.registries.length ∧ Loaded t.registries s.registries.length := by
  let f : Fields := { s.fields with servingModels := some s.registries.length }
  let g := f.buildEngines setup s.registries.length s.registries.length (setup.chatTemplate template)
  let rs := s.registries ++ [{ setup.servingModels with lorasLoaded := true }]
  have hensure : s.next setup (.ensure route true) = some
      ⟨false, f, s.registries ++ [setup.servingModels],
        s.callers ++ [⟨route, .loadingLoras s.registries.length⟩]⟩ := by
    simp [State.next, State.ensureEnginesInitialized, hset, f]
  have hloaded : State.next setup ⟨false, f, s.registries ++ [setup.servingModels],
        s.callers ++ [⟨route, .loadingLoras s.registries.length⟩]⟩ (.lorasLoaded s.callers.length) =
      some ⟨false, f, rs, s.callers ++ [⟨route, .gettingTokenizer s.registries.length⟩]⟩ := by
    simp [State.next, State.lorasLoaded, State.setCaller, modify_last, rs]
  have hdone : State.next setup ⟨false, f, rs, s.callers ++ [⟨route, .gettingTokenizer s.registries.length⟩]⟩
        (.tokenizer s.callers.length template none) =
      some ⟨true, g, rs, s.callers ++ [⟨route, .proceeded g⟩]⟩ := by
    simp [State.next, State.finishInitialization, State.setCaller, buildUntil, f, g]
  have hbuilt : g.BuiltBy s.registries.length := Fields.buildEngines_builtBy rfl setup _
  refine ⟨⟨true, g, rs, s.callers ++ [⟨route, .proceeded g⟩]⟩, g, ?_, rfl, rfl, hbuilt, ?_⟩
  · exact (Machine.exec_cons hensure).trans ((Machine.exec_cons hloaded).trans (Machine.exec_cons hdone))
  · exact ⟨{ setup.servingModels with lorasLoaded := true }, by simp [rs], rfl⟩

theorem failed_retries : ∃ s,
      (lazyInit Engine.State.sampleSetup).exec .init [.ensure .models true, .raised 0] = some s ∧
    ∃ t f, (lazyInit Engine.State.sampleSetup).exec s [.ensure .completions true, .lorasLoaded s.callers.length,
        .tokenizer s.callers.length none none] = some t ∧
      t.enginesInitialized = true ∧ t.callers = s.callers ++ [⟨.completions, .proceeded f⟩] ∧
      f.BuiltBy s.registries.length ∧ Loaded t.registries s.registries.length :=
  ⟨_, rfl, retry_succeeds _ rfl .completions none⟩

end Outcome

section Faultless

variable {setup : Setup}

def liftPc : Engine.CallerPc → CallerPc
  | .loadingLoras place => .loadingLoras place
  | .gettingTokenizer place => .gettingTokenizer place
  | .proceeded f => .proceeded f

def liftCaller (c : Engine.Caller) : Caller := ⟨c.route, liftPc c.pc⟩

def liftState (s : Engine.State) : State :=
  ⟨s.enginesInitialized, s.fields, s.registries, s.callers.map liftCaller⟩

def liftAction : Engine.Action → Action
  | .ensure route => .ensure route true
  | .lorasLoaded i => .lorasLoaded i
  | .tokenizer i template => .tokenizer i template none

lemma next_lift (s : Engine.State) (a : Engine.Action) :
    (liftState s).next setup (liftAction a) = (s.next setup a).map liftState := by
  cases a with
  | ensure route =>
    cases hset : s.enginesInitialized <;>
      simp [liftAction, liftState, State.next, State.ensureEnginesInitialized, Engine.State.next,
        Engine.State.ensureEnginesInitialized, hset, liftCaller, liftPc]
  | lorasLoaded i =>
    have hget : (liftState s).callers[i]? = s.callers[i]?.map liftCaller := List.getElem?_map ..
    rw [liftAction, State.next, Engine.State.next, hget]
    cases s.callers[i]? with
    | none => rfl
    | some c =>
      obtain ⟨route, pc⟩ := c
      cases pc with
      | loadingLoras place =>
        simp [liftCaller, liftPc, State.lorasLoaded, State.setCaller, Engine.State.lorasLoaded, liftState]
      | _ => rfl
  | tokenizer i template =>
    have hget : (liftState s).callers[i]? = s.callers[i]?.map liftCaller := List.getElem?_map ..
    have hfields : (liftState s).fields = s.fields := rfl
    rw [liftAction, State.next, Engine.State.next, hget]
    cases s.callers[i]? with
    | none => rfl
    | some c =>
      obtain ⟨route, pc⟩ := c
      cases pc with
      | gettingTokenizer place =>
        simp only [Option.map_some, Option.bind_some, liftCaller, liftPc, hfields]
        cases s.fields.servingModels with
        | none => rfl
        | some models =>
          simp [State.finishInitialization, State.setCaller, Engine.State.finishInitialization, liftState,
            liftCaller, liftPc, buildUntil]
      | _ => rfl

/-- Where nothing fails, the runs are those of the initialisation that cannot fail. -/
theorem exec_lift (s : Engine.State) (as : List Engine.Action) :
    (lazyInit setup).exec (liftState s) (as.map liftAction) =
    ((Engine.lazyInit setup).exec s as).map liftState := by
  induction as generalizing s with
  | nil => rfl
  | cons a as ih =>
    rw [List.map_cons, Machine.exec, Machine.exec]
    have hnext : (lazyInit setup).next (liftState s) (liftAction a) =
        ((Engine.lazyInit setup).next s a).map liftState :=
      next_lift s a
    rw [hnext]
    cases (Engine.lazyInit setup).next s a with
    | none => rfl
    | some t => exact ih t

end Faultless

end GemmaWorker.Engine.Failing
