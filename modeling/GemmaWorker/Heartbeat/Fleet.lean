import Mathlib.Data.Finset.Insert
import Mathlib.Data.Finset.Erase
import GemmaWorker.Library.Family
import GemmaWorker.Heartbeat.Protocol

/-! Many workers on one Redis. Each has the hash of its instance and its place in the active set of its
service; the keys are built from the identifiers by string formatting. -/

namespace GemmaWorker.Heartbeat

open Python Library World

section Keyspace

inductive Stored
  | hash (fields : Fields)
  | set (members : Finset PyStr)

structure Held where
  value : Stored
  expires : Bool

abbrev Keyspace := PyStr → Option Held

namespace Held

/-! A command on a key that holds the other type is answered by an error and changes nothing. -/

def hset (fields : Fields) : Option Held → Option Held
  | none => some ⟨.hash (fields.foldl setField []), false⟩
  | some ⟨.hash old, e⟩ => some ⟨.hash (fields.foldl setField old), e⟩
  | some ⟨.set members, e⟩ => some ⟨.set members, e⟩

def expire : Option Held → Option Held
  | none => none
  | some h => some ⟨h.value, true⟩

def sadd (member : PyStr) : Option Held → Option Held
  | none => some ⟨.set {member}, false⟩
  | some ⟨.set members, e⟩ => some ⟨.set (insert member members), e⟩
  | some ⟨.hash fields, e⟩ => some ⟨.hash fields, e⟩

def del : Option Held → Option Held
  | _ => none

/-- Redis deletes a set that has become empty. -/
def srem (member : PyStr) : Option Held → Option Held
  | some ⟨.set members, e⟩ => if members.erase member = ∅ then none else some ⟨.set (members.erase member), e⟩
  | some ⟨.hash fields, e⟩ => some ⟨.hash fields, e⟩
  | none => none

def lapse : Option Held → Option Held
  | none => none
  | some h => if h.expires then none else some h

def entry : Option Held → Option Entry
  | some ⟨.hash fields, e⟩ => some ⟨fields, e⟩
  | _ => none

def has (member : PyStr) : Option Held → Bool
  | some ⟨.set members, _⟩ => member ∈ members
  | _ => false

end Held

namespace Keyspace

def modify (r : Keyspace) (key : PyStr) (f : Option Held → Option Held) : Keyspace :=
  Function.update r key (f (r key))

variable {r : Keyspace} {key other : PyStr} {f : Option Held → Option Held}

@[simp] lemma modify_self : r.modify key f key = f (r key) :=
  Function.update_self ..

@[simp] lemma modify_ne (h : other ≠ key) : r.modify key f other = r other :=
  Function.update_of_ne h ..

end Keyspace

def Command.run (cfg : Config) (r : Keyspace) : Command → Keyspace
  | .heartbeat fields =>
    ((r.modify cfg.hashKey (Held.hset fields)).modify cfg.hashKey Held.expire).modify cfg.setKey
      (Held.sadd cfg.instanceId)
  | .setStatus status => r.modify cfg.hashKey (Held.hset [(lit "status", status.text)])
  | .publish _ _ => r
  | .delete => r.modify cfg.hashKey Held.del
  | .srem => r.modify cfg.setKey (Held.srem cfg.instanceId)

/-- What the keys of one instance show of it. -/
def Keyspace.view (cfg : Config) (r : Keyspace) : Registry :=
  ⟨Held.entry (r cfg.hashKey), Held.has cfg.instanceId (r cfg.setKey)⟩

end Keyspace

section Fleet

variable {ι : Type} [DecidableEq ι] (cfg : ι → Config)

/-- A step of a worker reaches Redis when a command of it is applied or its hash may expire. -/
def reaches (cfg : Config) (w : World) (a : Action) (r : Keyspace) : Keyspace :=
  match w.applied cfg a, a with
  | some cmd, _ => cmd.run cfg r
  | none, .expire => r.modify cfg.hashKey Held.lapse
  | none, _ => r

def fleet : Family ι World Action Keyspace :=
  ⟨fun i => lifecycle (cfg i), fun i => reaches (cfg i)⟩

def Fleet.init : Family.State ι World Keyspace :=
  ⟨fun i => World.init (cfg i), fun _ => none⟩

/-- No hash has the key of a set, and no two workers share a hash. -/
structure Separated : Prop where
  types : ∀ i j, (cfg i).hashKey ≠ (cfg j).setKey
  hashes : ∀ i j, (cfg i).hashKey = (cfg j).hashKey → i = j

def Exact (s : Family.State ι World Keyspace) : Prop :=
  ∀ i, s.store.view (cfg i) = (s.each i).registry

end Fleet

section Keys

variable {cfg other : Config} {r : Keyspace} {cmd : Command} {h : Option Held} {member : PyStr}

def Held.isSet : Option Held → Bool
  | some ⟨.set _, _⟩ => true
  | _ => false

def Held.isHash : Option Held → Bool
  | some ⟨.hash _, _⟩ => true
  | _ => false

def Command.onHash : Command → Option Held → Option Held
  | .heartbeat fields => fun h => Held.expire (Held.hset fields h)
  | .setStatus status => Held.hset [(lit "status", status.text)]
  | .delete => Held.del
  | _ => id

def Command.onSet (member : PyStr) : Command → Option Held → Option Held
  | .heartbeat _ => Held.sadd member
  | .srem => Held.srem member
  | _ => id

lemma run_eq (cmd : Command) : cmd.run cfg r =
    (r.modify cfg.hashKey cmd.onHash).modify cfg.setKey (cmd.onSet cfg.instanceId) := by
  have hid (s : Keyspace) (key : PyStr) : s.modify key id = s := Function.update_eq_self ..
  cases cmd with
  | heartbeat fields =>
    simp only [Command.run, Command.onHash, Command.onSet, Keyspace.modify, Function.update_self,
      Function.update_idem]
  | setStatus status => exact (hid _ _).symm
  | publish channel message => exact ((hid _ _).trans (hid _ _)).symm
  | delete => exact (hid _ _).symm
  | srem =>
    have hhash : r.modify cfg.hashKey Command.srem.onHash = r := hid _ _
    rw [hhash]
    rfl

lemma run_hashKey (hne : cfg.hashKey ≠ cfg.setKey) : cmd.run cfg r cfg.hashKey = cmd.onHash (r cfg.hashKey) := by
  rw [run_eq, Keyspace.modify_ne hne, Keyspace.modify_self]

lemma run_setKey (hne : cfg.hashKey ≠ cfg.setKey) :
    cmd.run cfg r cfg.setKey = cmd.onSet cfg.instanceId (r cfg.setKey) := by
  rw [run_eq, Keyspace.modify_self, Keyspace.modify_ne hne.symm]

lemma run_ne {key : PyStr} (hhash : key ≠ cfg.hashKey) (hset : key ≠ cfg.setKey) : cmd.run cfg r key = r key := by
  rw [run_eq, Keyspace.modify_ne hset, Keyspace.modify_ne hhash]

lemma isSet_onHash (hs : Held.isSet h = false) : Held.isSet (cmd.onHash h) = false := by
  cases cmd <;> rcases h with _ | ⟨⟨⟩, e⟩ <;> first | rfl | cases hs

lemma isHash_onSet (hs : Held.isHash h = false) : Held.isHash (cmd.onSet member h) = false := by
  have hsrem : Held.isHash (Held.srem member h) = false := by
    rcases h with _ | ⟨⟨⟩, e⟩
    · rfl
    · exact hs
    · rw [Held.srem]
      split_ifs <;> rfl
  cases cmd with
  | srem => exact hsrem
  | heartbeat fields => rcases h with _ | ⟨⟨⟩, e⟩ <;> first | rfl | exact hs
  | _ => exact hs

lemma isSet_lapse (hs : Held.isSet h = false) : Held.isSet (Held.lapse h) = false := by
  rcases h with _ | ⟨⟨⟩, _ | _⟩ <;> first | rfl | cases hs

lemma entry_not_has (he : (Held.entry h).isSome) (hm : Held.has member h = true) : False := by
  rcases h with _ | ⟨⟨⟩, e⟩
  · cases he
  · cases hm
  · cases he

lemma entry_lapse : Held.entry (Held.lapse h) = (Held.entry h).filter (fun e => !e.expires) := by
  rcases h with _ | ⟨⟨⟩, _ | _⟩ <;> rfl

lemma has_sadd (hs : Held.isHash h = false) : Held.has member (Held.sadd member h) = true := by
  rcases h with _ | ⟨⟨⟩, e⟩
  · simp [Held.sadd, Held.has]
  · cases hs
  · simp [Held.sadd, Held.has]

lemma has_srem : Held.has member (Held.srem member h) = false := by
  rcases h with _ | ⟨⟨⟩, e⟩
  · rfl
  · rfl
  · rw [Held.srem]
    split_ifs
    · rfl
    · simp [Held.has]

lemma has_onSet {mate : PyStr} (hne : mate ≠ member) : Held.has mate (cmd.onSet member h) = Held.has mate h := by
  have hsadd : Held.has mate (Held.sadd member h) = Held.has mate h := by
    rcases h with _ | ⟨⟨⟩, e⟩ <;> simp [Held.sadd, Held.has, hne]
  have hsrem : Held.has mate (Held.srem member h) = Held.has mate h := by
    rcases h with _ | ⟨⟨⟩, e⟩
    · rfl
    · rfl
    · rename_i members
      have hmem : mate ∈ members.erase member ↔ mate ∈ members := by simp [hne]
      rw [Held.srem]
      split_ifs with hempty
      · rw [hempty] at hmem
        simpa [Held.has] using hmem
      · simp [Held.has, hne]
  cases cmd with
  | heartbeat fields => exact hsadd
  | srem => exact hsrem
  | _ => rfl

/-- A command does to the view of its instance what the registry entry is said to do. -/
lemma view_run (hne : cfg.hashKey ≠ cfg.setKey) (hhash : Held.isSet (r cfg.hashKey) = false)
    (hset : Held.isHash (r cfg.setKey) = false) : (cmd.run cfg r).view cfg = (r.view cfg).apply cmd := by
  have hrun : (cmd.run cfg r).view cfg =
      ⟨Held.entry (cmd.onHash (r cfg.hashKey)),
        Held.has cfg.instanceId (cmd.onSet cfg.instanceId (r cfg.setKey))⟩ := by
    rw [Keyspace.view, run_hashKey hne, run_setKey hne]
  rw [hrun, Keyspace.view]
  generalize r cfg.hashKey = h at hhash ⊢
  cases cmd with
  | heartbeat fields =>
    rw [Command.onSet, has_sadd hset]
    rcases h with _ | ⟨⟨⟩, e⟩
    · rfl
    · rfl
    · cases hhash
  | setStatus status =>
    rcases h with _ | ⟨⟨⟩, e⟩
    · rfl
    · rfl
    · cases hhash
  | publish channel message => rfl
  | delete => rfl
  | srem =>
    rw [Command.onSet, has_srem]
    rfl

lemma view_lapse (hne : cfg.hashKey ≠ cfg.setKey) :
    (r.modify cfg.hashKey Held.lapse).view cfg = (r.view cfg).expire := by
  rw [Keyspace.view, Keyspace.modify_self, Keyspace.modify_ne hne.symm, entry_lapse]
  rfl

lemma hashKey_of_setKey (hset : cfg.setKey = other.setKey) (hid : cfg.instanceId = other.instanceId) :
    cfg.hashKey = other.hashKey := by
  have hservice : lit "machines:" ++ cfg.serviceId = lit "machines:" ++ other.serviceId :=
    List.append_cancel_right hset
  rw [Config.hashKey, Config.hashKey, hservice, hid]

end Keys

section Exactness

variable {ι : Type} {cfg : ι → Config} {i j : ι} {w w' : World} {a : Action} {r : Keyspace}

/-- Every hash key holds a hash and every set key a set, if anything. -/
def Typed (cfg : ι → Config) (r : Keyspace) : Prop :=
  ∀ i, Held.isSet (r (cfg i).hashKey) = false ∧ Held.isHash (r (cfg i).setKey) = false

lemma Separated.ids (hsep : Separated cfg) (hij : j ≠ i) (hset : (cfg j).setKey = (cfg i).setKey) :
    (cfg j).instanceId ≠ (cfg i).instanceId :=
  fun hid => hij (hsep.hashes j i (hashKey_of_setKey hset hid))

lemma Typed.run (hsep : Separated cfg) (hr : Typed cfg r) (i : ι) (cmd : Command) :
    Typed cfg (cmd.run (cfg i) r) := by
  intro j
  have hne := hsep.types i i
  refine ⟨?_, ?_⟩
  · by_cases hkey : (cfg j).hashKey = (cfg i).hashKey
    · rw [hkey, run_hashKey hne]
      exact isSet_onHash (hr i).1
    · rw [run_ne hkey (hsep.types j i)]
      exact (hr j).1
  · by_cases hkey : (cfg j).setKey = (cfg i).setKey
    · rw [hkey, run_setKey hne]
      exact isHash_onSet (hr i).2
    · rw [run_ne (hsep.types i j).symm hkey]
      exact (hr j).2

lemma Typed.lapse (hsep : Separated cfg) (hr : Typed cfg r) (i : ι) :
    Typed cfg (r.modify (cfg i).hashKey Held.lapse) := by
  intro j
  refine ⟨?_, ?_⟩
  · by_cases hkey : (cfg j).hashKey = (cfg i).hashKey
    · rw [hkey, Keyspace.modify_self]
      exact isSet_lapse (hr i).1
    · rw [Keyspace.modify_ne hkey]
      exact (hr j).1
  · rw [Keyspace.modify_ne (hsep.types i j).symm]
    exact (hr j).2

lemma view_run_ne (hsep : Separated cfg) (hij : j ≠ i) (cmd : Command) :
    (cmd.run (cfg i) r).view (cfg j) = r.view (cfg j) := by
  have hkey : (cfg j).hashKey ≠ (cfg i).hashKey := fun h => hij (hsep.hashes j i h)
  rw [Keyspace.view, run_ne hkey (hsep.types j i), Keyspace.view]
  by_cases hset : (cfg j).setKey = (cfg i).setKey
  · rw [hset, run_setKey (hsep.types i i), has_onSet (hsep.ids hij hset)]
  · rw [run_ne (hsep.types i j).symm hset]

lemma view_lapse_ne (hsep : Separated cfg) (hij : j ≠ i) :
    (r.modify (cfg i).hashKey Held.lapse).view (cfg j) = r.view (cfg j) := by
  have hkey : (cfg j).hashKey ≠ (cfg i).hashKey := fun h => hij (hsep.hashes j i h)
  rw [Keyspace.view, Keyspace.modify_ne hkey, Keyspace.modify_ne (hsep.types i j).symm, Keyspace.view]

lemma reaches_cases (cfg : Config) (w : World) (a : Action) (r : Keyspace) :
    (∃ cmd, reaches cfg w a r = cmd.run cfg r ∧ w.restored cfg a = (w.log ++ [cmd], w.registry.apply cmd)) ∨
    (reaches cfg w a r = r.modify cfg.hashKey Held.lapse ∧ w.restored cfg a = (w.log, w.registry.expire)) ∨
    (reaches cfg w a r = r ∧ w.restored cfg a = w.stored) := by
  rw [reaches.eq_def]
  obtain ⟨cmd, h, hw⟩ | ⟨rfl, hw⟩ | ⟨h, hw⟩ := restored_cases cfg w a
  · rw [h]
    exact Or.inl ⟨cmd, rfl, hw⟩
  · exact Or.inr (Or.inl ⟨rfl, hw⟩)
  · rw [h]
    by_cases ha : a = .expire
    · subst ha
      exact Or.inr (Or.inl ⟨rfl, rfl⟩)
    · refine Or.inr (Or.inr ⟨?_, hw⟩)
      cases a <;> first | rfl | exact absurd rfl ha

lemma registry_restored (h : w.next (cfg i) a = some w') : w'.registry = (w.restored (cfg i) a).2 :=
  congrArg Prod.snd (stored_step h)

variable [DecidableEq ι]

/-- Where the keys are separated, what Redis shows of a worker is in every run what this worker alone has
made of it. -/
theorem exact_of_separated (hsep : Separated cfg) {as : List (ι × Action)} {s : Family.State ι World Keyspace}
    (he : (fleet cfg).together.exec (Fleet.init cfg) as = some s) : Exact cfg s := by
  refine (Family.view_exact (F := fleet cfg) (fun i r => r.view (cfg i)) (fun _ w => w.registry) (Typed cfg)
    ?_ ?_ ?_ (fun _ => ⟨rfl, rfl⟩) (fun _ => rfl) he).2
  · intro i w a w' r _ hr
    obtain ⟨cmd, h, -⟩ | ⟨h, -⟩ | ⟨h, -⟩ := reaches_cases (cfg i) w a r <;> simp only [fleet, h]
    · exact hr.run hsep i cmd
    · exact hr.lapse hsep i
    · exact hr
  · intro i w a w' r hn hr hv
    rw [registry_restored hn]
    have hne := hsep.types i i
    obtain ⟨cmd, h, hw⟩ | ⟨h, hw⟩ | ⟨h, hw⟩ := reaches_cases (cfg i) w a r <;> simp only [fleet, h, hw]
    · rw [view_run hne (hr i).1 (hr i).2, hv]
    · rw [view_lapse hne, hv]
    · exact hv
  · intro i j w a w' r hij hn hr
    obtain ⟨cmd, h, -⟩ | ⟨h, -⟩ | ⟨h, -⟩ := reaches_cases (cfg i) w a r <;> simp only [fleet, h]
    · exact view_run_ne hsep hij cmd
    · exact view_lapse_ne hsep hij

end Exactness

section Identifiers

variable {ι : Type} {cfg : ι → Config} {i j : ι}

lemma keys_inj {c d : Config} (hc : ch ':' ∉ c.serviceId) (hd : ch ':' ∉ d.serviceId) {x y : PyStr}
    (h : lit "machines:" ++ c.serviceId ++ ch ':' :: x = lit "machines:" ++ d.serviceId ++ ch ':' :: y) :
    c.serviceId = d.serviceId ∧ x = y := by
  rw [List.append_assoc, List.append_assoc] at h
  have hcut := congrArg (cut (ch ':')) (List.append_cancel_left h)
  rw [cut_append_cons hc, cut_append_cons hd] at hcut
  exact Prod.mk.inj hcut

/-- For service identifiers without a colon, it is enough that no two workers have the same service and
instance and that no instance is called `active`. -/
theorem separated_iff (hcolon : ∀ i, ch ':' ∉ (cfg i).serviceId) : Separated cfg ↔
    (∀ i, (cfg i).instanceId ≠ lit "active") ∧
      Function.Injective (fun i => ((cfg i).serviceId, (cfg i).instanceId)) := by
  have hset (c : Config) : c.setKey = lit "machines:" ++ c.serviceId ++ ch ':' :: lit "active" := rfl
  constructor
  · intro hsep
    refine ⟨fun i hi => hsep.types i i ?_, fun i j hij => hsep.hashes i j ?_⟩
    · rw [hset, Config.hashKey, hi]
    · obtain ⟨hservice, hinstance⟩ := Prod.mk.inj hij
      rw [Config.hashKey, Config.hashKey, hservice, hinstance]
  · rintro ⟨hactive, hinj⟩
    refine ⟨fun i j hkey => ?_, fun i j hkey => ?_⟩
    · rw [hset] at hkey
      exact hactive i (keys_inj (hcolon i) (hcolon j) hkey).2
    · obtain ⟨hservice, hinstance⟩ := keys_inj (hcolon i) (hcolon j) hkey
      exact hinj (Prod.ext hservice hinstance)

/-- Two instances of one service. -/
def pair (first : Bool) : Config :=
  if first then .sample else { Config.sample with instanceId := lit "i2" }

end Identifiers

section Clash

def firstBeat : List Action :=
  [.bootRun, .wakeBeat .oneShot 0, .send (.beat .oneShot), .apply (.beat .oneShot)]

variable {ι : Type} {cfg : ι → Config} {i j : ι} {s : Family.State ι World Keyspace}
variable [DecidableEq ι]

lemma exec_firstBeat {cfg : Config} (he : cfg.isHeartbeatEnabled = true) (hskip : cfg.skipModelLoad = false) :
    ∃ w, (lifecycle cfg).exec (World.init cfg) firstBeat = some w ∧
      w.registry.entry.isSome ∧ w.registry.member = true := by
  have hboot : (World.init cfg).bootRun cfg =
      { World.init cfg with beat := fun _ => ⟨.created, false⟩, loopHandle := true }.setBoot .downloading := by
    simp [bootRun, hskip, startHeartbeat, he]
  have hfirst : (lifecycle cfg).next (World.init cfg) .bootRun = some
      ({ World.init cfg with beat := fun _ => ⟨.created, false⟩, loopHandle := true }.setBoot .downloading) := by
    rw [← hboot]
    rfl
  exact ⟨_, (Machine.exec_cons hfirst).trans rfl, rfl, rfl⟩

def Fleet.Shown (s : Family.State ι World Keyspace) (i : ι) : Prop :=
  (s.each i).registry.entry.isSome ∧ (s.each i).registry.member = true

/-- Any workers can send a first heartbeat while the others have not begun. -/
lemma exists_shown (hcfg : ∀ i, (cfg i).isHeartbeatEnabled = true ∧ (cfg i).skipModelLoad = false)
    (p : ι → Prop) [DecidablePred p] {as : List (ι × Action)}
    (has : ∀ i, Family.own i as = if p i then firstBeat else []) :
    ∃ s, (fleet cfg).together.exec (Fleet.init cfg) as = some s ∧
      (∀ i, p i → Fleet.Shown s i) ∧ ∀ i, ¬ p i → s.each i = World.init (cfg i) := by
  choose t hexec ht using fun i => exec_firstBeat (hcfg i).1 (hcfg i).2
  have hown (i : ι) : ((fleet cfg).machine i).exec ((Fleet.init cfg).each i) (Family.own i as) =
      some (if p i then t i else World.init (cfg i)) := by
    rw [has]
    split_ifs
    · exact hexec i
    · rfl
  obtain ⟨store, hs⟩ := (Family.exec_iff _).mpr hown
  refine ⟨_, hs, fun i hi => ?_, fun i hi => ?_⟩
  · simp only [Fleet.Shown, if_pos hi]
    exact ht i
  · simp only [if_neg hi]

theorem exact_iff_separated (hcfg : ∀ i, (cfg i).isHeartbeatEnabled = true ∧ (cfg i).skipModelLoad = false) :
    (∀ as s, (fleet cfg).together.exec (Fleet.init cfg) as = some s → Exact cfg s) ↔ Separated cfg := by
  refine ⟨fun hexact => ⟨fun i j hkey => ?_, fun i j hkey => ?_⟩, fun hsep as s he => exact_of_separated hsep he⟩
  · -- the hash of the one and the set of the other are both there
    let as := firstBeat.map (Prod.mk i) ++ if j = i then [] else firstBeat.map (Prod.mk j)
    have has (k : ι) : Family.own k as = if i = k ∨ j = k then firstBeat else [] := by
      rw [Family.own_append, Family.own_block]
      by_cases hij : j = i
      · subst hij
        by_cases hk : j = k <;> simp [hk]
      · rw [if_neg hij, Family.own_block]
        by_cases hk : i = k
        · subst hk
          simp [hij]
        · by_cases hj : j = k <;> simp [hk, hj]
    obtain ⟨s, hs, hshown, -⟩ := exists_shown hcfg (fun k => i = k ∨ j = k) has
    have hview := hexact _ s hs
    have hentry : (Held.entry (s.store (cfg i).hashKey)).isSome := by
      have h := congrArg Registry.entry (hview i)
      rw [Keyspace.view] at h
      simp only at h
      rw [h]
      exact (hshown i (Or.inl rfl)).1
    have hmember : Held.has (cfg j).instanceId (s.store (cfg j).setKey) = true := by
      have h := congrArg Registry.member (hview j)
      rw [Keyspace.view] at h
      simp only at h
      rw [h]
      exact (hshown j (Or.inr rfl)).2
    rw [hkey] at hentry
    exact entry_not_has hentry hmember
  · by_contra hij
    have has (k : ι) : Family.own k (firstBeat.map (Prod.mk i)) = if i = k then firstBeat else [] :=
      Family.own_block firstBeat i
    obtain ⟨s, hs, hshown, hrest⟩ := exists_shown hcfg (fun k => i = k) has
    have hview := hexact _ s hs
    have hi := congrArg Registry.entry (hview i)
    have hj := congrArg Registry.entry (hview j)
    have hsome := (hshown i rfl).1
    rw [hrest j hij] at hj
    simp only [Keyspace.view, hkey] at hi hj
    rw [← hi, hj] at hsome
    cases hsome

theorem pair_exact : (∀ as s, (fleet pair).together.exec (Fleet.init pair) as = some s → Exact pair s) ↔
    Separated pair :=
  exact_iff_separated (by decide)

end Clash

section Contents

variable {ι : Type} {cfg : ι → Config} {r : Keyspace}

/-- Nothing is in Redis that no worker has put there. -/
structure Owned (cfg : ι → Config) (r : Keyspace) : Prop where
  hash : ∀ key, (Held.entry (r key)).isSome → ∃ i, key = (cfg i).hashKey
  set : ∀ key member, Held.has member (r key) = true → ∃ i, key = (cfg i).setKey ∧ member = (cfg i).instanceId

lemma entry_onSet {cmd : Command} {h : Option Held} {member : PyStr}
    (hs : (Held.entry (cmd.onSet member h)).isSome) : (Held.entry h).isSome := by
  cases cmd with
  | heartbeat fields => rcases h with _ | ⟨⟨⟩, e⟩ <;> exact hs
  | srem =>
    rcases h with _ | ⟨⟨⟩, e⟩
    · exact hs
    · exact hs
    · rw [Command.onSet, Held.srem] at hs
      split_ifs at hs
      · cases hs
      · cases hs
  | _ => exact hs

lemma has_onHash {cmd : Command} {h : Option Held} {member : PyStr}
    (hs : Held.has member (cmd.onHash h) = true) : Held.has member h = true := by
  cases cmd <;> rcases h with _ | ⟨⟨⟩, e⟩ <;> first | exact hs | cases hs

lemma Owned.run (hr : Owned cfg r) (i : ι) (cmd : Command) : Owned cfg (cmd.run (cfg i) r) := by
  have hash (key : PyStr) (h : (Held.entry (r.modify (cfg i).hashKey cmd.onHash key)).isSome) :
      ∃ i, key = (cfg i).hashKey := by
    by_cases hkey : key = (cfg i).hashKey
    · exact ⟨i, hkey⟩
    · rw [Keyspace.modify_ne hkey] at h
      exact hr.hash key h
  have hset (key member : PyStr) (h : Held.has member (r.modify (cfg i).hashKey cmd.onHash key) = true) :
      Held.has member (r key) = true := by
    by_cases hkey : key = (cfg i).hashKey
    · subst hkey
      rw [Keyspace.modify_self] at h
      exact has_onHash h
    · rwa [Keyspace.modify_ne hkey] at h
  rw [run_eq]
  refine ⟨fun key h => ?_, fun key member h => ?_⟩
  · by_cases hkey : key = (cfg i).setKey
    · subst hkey
      rw [Keyspace.modify_self] at h
      exact hash _ (entry_onSet h)
    · rw [Keyspace.modify_ne hkey] at h
      exact hash key h
  · by_cases hkey : key = (cfg i).setKey
    · by_cases hmember : member = (cfg i).instanceId
      · exact ⟨i, hkey, hmember⟩
      · subst hkey
        rw [Keyspace.modify_self, has_onSet hmember] at h
        exact hr.set _ member (hset _ _ h)
    · rw [Keyspace.modify_ne hkey] at h
      exact hr.set key member (hset key member h)

lemma Owned.lapse (hr : Owned cfg r) (key : PyStr) : Owned cfg (r.modify key Held.lapse) := by
  have hentry (h : Option Held) (hs : (Held.entry (Held.lapse h)).isSome) : (Held.entry h).isSome := by
    rw [entry_lapse] at hs
    exact Option.isSome_of_isSome_filter _ _ hs
  have hhas (h : Option Held) (member : PyStr) (hs : Held.has member (Held.lapse h) = true) :
      Held.has member h = true := by
    rcases h with _ | ⟨_, _ | _⟩ <;> first | exact hs | cases hs
  refine ⟨fun k h => hr.hash k ?_, fun k member h => hr.set k member ?_⟩
  · by_cases hk : k = key
    · subst hk
      rw [Keyspace.modify_self] at h
      exact hentry _ h
    · rwa [Keyspace.modify_ne hk] at h
  · by_cases hk : k = key
    · subst hk
      rw [Keyspace.modify_self] at h
      exact hhas _ member h
    · rwa [Keyspace.modify_ne hk] at h

variable [DecidableEq ι] {s : Family.State ι World Keyspace} {as : List (ι × Action)}

lemma owned_exec (he : (fleet cfg).together.exec (Fleet.init cfg) as = some s) : Owned cfg s.store := by
  have hinit : Owned cfg (Fleet.init cfg).store :=
    ⟨by simp [Fleet.init, Held.entry], by simp [Fleet.init, Held.has]⟩
  refine Machine.exec_invariant (I := fun s => Owned cfg s.store) he hinit ?_
  intro s a u hs hn
  obtain ⟨t, -, rfl⟩ := Family.next_eq hn
  obtain ⟨cmd, h, -⟩ | ⟨h, -⟩ | ⟨h, -⟩ := reaches_cases (cfg a.1) (s.each a.1) a.2 s.store <;> simp only [fleet, h]
  · exact hs.run a.1 cmd
  · exact hs.lapse _
  · exact hs

/-- Redis holds what the workers hold of themselves, and nothing else. -/
theorem store_union (hsep : Separated cfg) (he : (fleet cfg).together.exec (Fleet.init cfg) as = some s)
    (key : PyStr) :
    (∀ e, Held.entry (s.store key) = some e ↔
      ∃ i, key = (cfg i).hashKey ∧ (s.each i).registry.entry = some e) ∧
    ∀ member, Held.has member (s.store key) = true ↔
      ∃ i, key = (cfg i).setKey ∧ member = (cfg i).instanceId ∧ (s.each i).registry.member = true := by
  have hview := exact_of_separated hsep he
  have howned := owned_exec he
  have hentry (i : ι) : Held.entry (s.store (cfg i).hashKey) = (s.each i).registry.entry :=
    congrArg Registry.entry (hview i)
  have hmember (i : ι) : Held.has (cfg i).instanceId (s.store (cfg i).setKey) = (s.each i).registry.member :=
    congrArg Registry.member (hview i)
  refine ⟨fun e => ⟨fun h => ?_, ?_⟩, fun member => ⟨fun h => ?_, ?_⟩⟩
  · obtain ⟨i, rfl⟩ := howned.hash key (by rw [h]; rfl)
    exact ⟨i, rfl, (hentry i).symm.trans h⟩
  · rintro ⟨i, rfl, h⟩
    exact (hentry i).trans h
  · obtain ⟨i, rfl, rfl⟩ := howned.set key member h
    exact ⟨i, rfl, rfl, (hmember i).symm.trans h⟩
  · rintro ⟨i, rfl, rfl, h⟩
    exact (hmember i).trans h

theorem pair_union : ∃ s, (fleet pair).together.exec (Fleet.init pair) (firstBeat.map (Prod.mk true)) = some s ∧
    ∀ key, (∀ e, Held.entry (s.store key) = some e ↔
        ∃ i, key = (pair i).hashKey ∧ (s.each i).registry.entry = some e) ∧
      ∀ member, Held.has member (s.store key) = true ↔
        ∃ i, key = (pair i).setKey ∧ member = (pair i).instanceId ∧ (s.each i).registry.member = true := by
  have hsep : Separated pair := (separated_iff (by decide)).mpr ⟨by decide, by decide⟩
  have hrun : ((fleet pair).together.exec (Fleet.init pair) (firstBeat.map (Prod.mk true))).isSome = true := rfl
  obtain ⟨s, he⟩ := Option.isSome_iff_exists.mp hrun
  exact ⟨s, he, store_union hsep he⟩

end Contents

end GemmaWorker.Heartbeat
