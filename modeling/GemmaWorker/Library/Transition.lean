import Mathlib.Data.List.Induction
import Mathlib.Logic.Relation
import Mathlib.Tactic.Common

/-! Machines driven by a schedule of actions. A run is the list of its actions, and the rules below
carry a fact about one step to every state a run visits. -/

namespace GemmaWorker.Library

structure Machine (σ α : Type*) where
  next : σ → α → Option σ

namespace Machine

variable {σ α : Type*} (M : Machine σ α)

def exec : σ → List α → Option σ
  | s, [] => some s
  | s, a :: as => (M.next s a).bind (fun t => exec t as)

/-- `P` holds in every state that the run from `s` visits. -/
def Always (P : σ → Prop) : σ → List α → Prop
  | s, [] => P s
  | s, a :: as => P s ∧ ∀ t, M.next s a = some t → Always P t as

/-- Every step of the run from `s` is taken where `ok` allows it. -/
def Guarded (ok : σ → α → Prop) : σ → List α → Prop
  | _, [] => True
  | s, a :: as => ok s a ∧ ∀ t, M.next s a = some t → Guarded ok t as

instance decidableGuarded (ok : σ → α → Prop) [∀ s a, Decidable (ok s a)] :
    (s : σ) → (as : List α) → Decidable (M.Guarded ok s as)
  | _, [] => isTrue trivial
  | s, a :: as =>
    match h : M.next s a with
    | none => decidable_of_iff (ok s a) ⟨fun ha => ⟨ha, by simp [h]⟩, fun hg => hg.1⟩
    | some t =>
      have : Decidable (M.Guarded ok t as) := decidableGuarded ok t as
      decidable_of_iff (ok s a ∧ M.Guarded ok t as)
        ⟨fun hg => ⟨hg.1, by simpa [h] using hg.2⟩, fun hg => ⟨hg.1, hg.2 t h⟩⟩

def Step (ok : σ → α → Prop) (s t : σ) : Prop :=
  ∃ a, ok s a ∧ M.next s a = some t

def Reach (ok : σ → α → Prop) : σ → σ → Prop :=
  Relation.ReflTransGen (M.Step ok)

variable {M} {ok : σ → α → Prop} {P I : σ → Prop} {s t u : σ} {a : α} {as bs : List α}

lemma exec_cons (h : M.next s a = some t) : M.exec s (a :: as) = M.exec t as := by
  simp [exec, h]

lemma exec_append (h : M.exec s as = some t) : M.exec s (as ++ bs) = M.exec t bs := by
  induction as generalizing s with
  | nil => cases h; rfl
  | cons a as ih =>
    obtain ⟨u, hu, ht⟩ := Option.bind_eq_some_iff.mp h
    rw [List.cons_append, exec_cons hu, ih ht]

lemma Reach.invariant (hr : M.Reach ok s t) (h0 : I s)
    (hstep : ∀ s a t, I s → ok s a → M.next s a = some t → I t) : I t := by
  induction hr with
  | refl => exact h0
  | tail _ hs ih =>
    obtain ⟨a, ha, hn⟩ := hs
    exact hstep _ a _ ih ha hn

lemma reach_of_exec (hg : M.Guarded ok s as) (he : M.exec s as = some t) : M.Reach ok s t := by
  induction as generalizing s with
  | nil =>
    cases he
    exact Relation.ReflTransGen.refl
  | cons a as ih =>
    obtain ⟨u, hu, ht⟩ := Option.bind_eq_some_iff.mp he
    exact Relation.ReflTransGen.head ⟨a, hg.1, hu⟩ (ih (hg.2 u hu) ht)

lemma Always.head (h : M.Always P s as) : P s := by
  cases as with
  | nil => exact h
  | cons a as => exact h.1

lemma Always.mono {Q : σ → Prop} (hPQ : ∀ s, P s → Q s) (h : M.Always P s as) :
    M.Always Q s as := by
  induction as generalizing s with
  | nil => exact hPQ s h
  | cons a as ih => exact ⟨hPQ s h.1, fun t ht => ih (h.2 t ht)⟩

lemma Guarded.always (hg : M.Guarded ok s as) (h0 : I s)
    (hstep : ∀ s a t, I s → ok s a → M.next s a = some t → I t) : M.Always I s as := by
  induction as generalizing s with
  | nil => exact h0
  | cons a as ih => exact ⟨h0, fun t ht => ih (hg.2 t ht) (hstep s a t h0 hg.1 ht)⟩

lemma Guarded.imp {ok' : σ → α → Prop} (hg : M.Guarded ok s as) (h0 : I s)
    (hstep : ∀ s a t, I s → ok s a → M.next s a = some t → I t)
    (hok : ∀ s a, I s → ok s a → ok' s a) : M.Guarded ok' s as := by
  induction as generalizing s with
  | nil => trivial
  | cons a as ih => exact ⟨hok s a h0 hg.1, fun t ht => ih (hg.2 t ht) (hstep s a t h0 hg.1 ht)⟩

lemma Guarded.of_forall (h : ∀ s a, ok s a) : M.Guarded ok s as := by
  induction as generalizing s with
  | nil => trivial
  | cons a as ih => exact ⟨h s a, fun t _ => ih⟩

lemma Guarded.invariant (hg : M.Guarded ok s as) (he : M.exec s as = some t) (h0 : I s)
    (hstep : ∀ s a t, I s → ok s a → M.next s a = some t → I t) : I t :=
  (reach_of_exec hg he).invariant h0 hstep

lemma exec_invariant (he : M.exec s as = some t) (h0 : I s)
    (hstep : ∀ s a t, I s → M.next s a = some t → I t) : I t := by
  have hg : M.Guarded (fun _ _ => True) s as := Guarded.of_forall fun _ _ => trivial
  exact hg.invariant he h0 fun s a t hI _ => hstep s a t hI

lemma exists_exec_of_measure (μ : σ → ℕ) (h0 : I s)
    (hstep : ∀ s, I s → ¬ P s → ∃ a t, ok s a ∧ M.next s a = some t ∧ I t ∧ μ t < μ s) :
    ∃ as t, M.Guarded ok s as ∧ M.exec s as = some t ∧ I t ∧ P t := by
  induction hμ : μ s using Nat.strongRecOn generalizing s with
  | ind n ih =>
    by_cases hP : P s
    · exact ⟨[], s, trivial, rfl, h0, hP⟩
    · obtain ⟨a, t, ha, hn, hI, hlt⟩ := hstep s h0 hP
      obtain ⟨as, u, hg, he, hu⟩ := ih (μ t) (hμ ▸ hlt) hI rfl
      refine ⟨a :: as, u, ⟨ha, fun t' ht' => ?_⟩, (exec_cons hn).trans he, hu⟩
      obtain rfl : t = t' := Option.some.inj (hn.symm.trans ht')
      exact hg

/-- Among the runs that keep to `pre`, where good steps keep an invariant that gives `P` and every
other step leaves `P` at once, the runs that stay in `P` are the runs of good steps. -/
theorem always_iff_guarded {pre : σ → α → Prop} (hrun : (M.exec s as).isSome)
    (hpre : M.Guarded pre s as) (h0 : I s) (hP : ∀ s, I s → P s)
    (hgood : ∀ s a t, I s → pre s a → ok s a → M.next s a = some t → I t)
    (hbad : ∀ s a t, I s → pre s a → ¬ ok s a → M.next s a = some t → ¬ P t) :
    M.Always P s as ↔ M.Guarded ok s as := by
  constructor
  · intro h
    induction as generalizing s with
    | nil => trivial
    | cons a as ih =>
      obtain ⟨u, hu⟩ := Option.isSome_iff_exists.mp hrun
      obtain ⟨t, ht, hu⟩ := Option.bind_eq_some_iff.mp hu
      have hok : ok s a := by
        by_contra hn
        exact hbad s a t h0 hpre.1 hn ht (h.2 t ht).head
      refine ⟨hok, fun t' ht' => ?_⟩
      obtain rfl : t = t' := Option.some.inj (ht.symm.trans ht')
      exact ih (by simp [hu]) (hpre.2 t ht) (hgood s a t h0 hpre.1 hok ht) (h.2 t ht)
  · intro hg
    induction as generalizing s with
    | nil => exact hP s h0
    | cons a as ih =>
      obtain ⟨u, hu⟩ := Option.isSome_iff_exists.mp hrun
      obtain ⟨t, ht, hu⟩ := Option.bind_eq_some_iff.mp hu
      refine ⟨hP s h0, fun t' ht' => ?_⟩
      obtain rfl : t = t' := Option.some.inj (ht.symm.trans ht')
      exact ih (by simp [hu]) (hpre.2 t ht) (hgood s a t h0 hpre.1 hg.1 ht) (hg.2 t ht)

lemma exec_snoc (he : M.exec s as = some t) (hn : M.next t a = some u) : M.exec s (as ++ [a]) = some u := by
  rw [exec_append he, exec_cons hn]
  rfl

lemma exists_of_snoc (he : M.exec s (as ++ [a]) = some u) : ∃ t, M.exec s as = some t ∧ M.next t a = some u := by
  induction as generalizing s with
  | nil =>
    obtain ⟨t, ht, hu⟩ := Option.bind_eq_some_iff.mp he
    exact ⟨s, rfl, ht.trans hu⟩
  | cons b as ih =>
    obtain ⟨t, ht, hu⟩ := Option.bind_eq_some_iff.mp he
    obtain ⟨v, hv, hn⟩ := ih hu
    exact ⟨v, (exec_cons ht).trans hv, hn⟩

lemma Guarded.of_append (hg : M.Guarded ok s (as ++ bs)) : M.Guarded ok s as := by
  induction as generalizing s with
  | nil => trivial
  | cons a as ih => exact ⟨hg.1, fun t ht => ih (hg.2 t ht)⟩

/-- What is there at the end of a run, and was not at its beginning, comes from a state the run has visited. -/
theorem exec_origin {β : Type*} (there made : σ → β → Prop) (he : M.exec s as = some t) (hnone : ∀ b, ¬ there s b)
    (hstep : ∀ s a t b, M.next s a = some t → there t b → there s b ∨ made s b ∨ made t b) {b : β}
    (hb : there t b) : ∃ as₁ as₂ u, as = as₁ ++ as₂ ∧ M.exec s as₁ = some u ∧ made u b := by
  induction as using List.reverseRecOn generalizing t b with
  | nil =>
    obtain rfl : s = t := Option.some.inj he
    exact absurd hb (hnone b)
  | append_singleton as a ih =>
    obtain ⟨v, hv, hn⟩ := exists_of_snoc he
    rcases hstep v a t b hn hb with hb | hb | hb
    · obtain ⟨as₁, as₂, u, rfl, hu, hmade⟩ := ih hv hb
      exact ⟨as₁, as₂ ++ [a], u, List.append_assoc .., hu, hmade⟩
    · exact ⟨as, [a], v, rfl, hv, hb⟩
    · exact ⟨as ++ [a], [], t, (List.append_nil _).symm, he, hb⟩

section Views

variable {τ β : Type*} {N : Machine τ β} (see : σ → α → Option β)

variable (M) in
/-- What a run shows through `see`, step by step. -/
def seen : σ → List α → List β
  | _, [] => []
  | s, a :: as => (see s a).toList ++ (M.next s a).elim [] (fun t => seen t as)

variable {see}

lemma seen_cons (h : M.next s a = some t) : M.seen see s (a :: as) = (see s a).toList ++ M.seen see t as := by
  rw [seen, h]
  rfl

/-- A machine that follows every step of another one by what it sees of it, or stands still, follows its runs. -/
theorem exec_followed {R : σ → τ → Prop} {v : τ} (he : M.exec s as = some t) (hR : R s v)
    (hstep : ∀ s a t v, R s v → M.next s a = some t → ∃ w, N.exec v (see s a).toList = some w ∧ R t w) :
    ∃ w, N.exec v (M.seen see s as) = some w ∧ R t w := by
  induction as generalizing s v with
  | nil =>
    cases he
    exact ⟨v, rfl, hR⟩
  | cons a as ih =>
    obtain ⟨u, hu, ht⟩ := Option.bind_eq_some_iff.mp he
    obtain ⟨x, hx, hux⟩ := hstep s a u v hR hu
    obtain ⟨w, hw, htw⟩ := ih ht hux
    refine ⟨w, ?_, htw⟩
    rw [seen_cons hu, exec_append hx, hw]

/-- An invariant over what was seen so far and the state. -/
theorem exec_history {J : List β → σ → Prop} {heard : List β} (he : M.exec s as = some t) (h0 : J heard s)
    (hstep : ∀ heard s a t, J heard s → M.next s a = some t → J (heard ++ (see s a).toList) t) :
    J (heard ++ M.seen see s as) t := by
  induction as generalizing s heard with
  | nil =>
    cases he
    rwa [seen, List.append_nil]
  | cons a as ih =>
    obtain ⟨u, hu, ht⟩ := Option.bind_eq_some_iff.mp he
    rw [seen_cons hu, ← List.append_assoc]
    exact ih ht (hstep heard s a u h0 hu)

end Views

section Log

variable {β : Type*} {log : σ → List β} {said : σ → α → Option β} {first late : β → Prop} {calm : σ → Prop}

/-- A machine with a log, where `calm` states say nothing late and stay calm. If everything of the first
kind is said from a calm state, nothing late comes after it. -/
theorem Guarded.pairwise_log (hg : M.Guarded ok s as)
    (hlog : ∀ s a t, M.next s a = some t → log t = log s ++ (said s a).toList)
    (hinv : ∀ s a t, I s → M.next s a = some t → I t)
    (hcalm : ∀ s a t, I s → calm s → M.next s a = some t → calm t ∧ ∀ x ∈ said s a, ¬ late x)
    (hfirst : ∀ s a, I s → ok s a → (∃ x ∈ said s a, first x) → calm s)
    (h0 : I s) (hnone : ∀ x ∈ log s, ¬ first x) :
    M.Always (fun t => (log t).Pairwise (fun x y => first x → ¬ late y)) s as := by
  let J t := I t ∧ ((∀ x ∈ log t, ¬ first x) ∨ (log t).Pairwise (fun x y => first x → ¬ late y) ∧ calm t)
  have hpairwise (t : σ) (h : J t) : (log t).Pairwise (fun x y => first x → ¬ late y) := by
    rcases h.2 with hno | ⟨hp, -⟩
    · exact List.pairwise_of_forall_mem_list fun x hx y _ hf => absurd hf (hno x hx)
    · exact hp
  refine (hg.always (I := J) ⟨h0, Or.inl hnone⟩ ?_).mono hpairwise
  intro s a t h hok hn
  refine ⟨hinv s a t h.1 hn, ?_⟩
  have hp := hpairwise s h
  by_cases hc : calm s
  · obtain ⟨ht, hlate⟩ := hcalm s a t h.1 hc hn
    refine Or.inr ⟨?_, ht⟩
    rw [hlog s a t hn, List.pairwise_append]
    refine ⟨hp, ?_, fun x _ y hy _ => hlate y (Option.mem_toList.mp hy)⟩
    cases said s a <;> simp
  · refine Or.inl fun x hx hf => ?_
    rw [hlog s a t hn] at hx
    rcases List.mem_append.mp hx with hx | hx
    · exact (h.2.resolve_right fun hr => hc hr.2) x hx hf
    · exact hc (hfirst s a h.1 hok ⟨x, Option.mem_toList.mp hx, hf⟩)

end Log

end Machine

end GemmaWorker.Library
