import Mathlib.Algebra.Order.Field.Basic
import Mathlib.Algebra.Order.Ring.Cast
import Mathlib.Tactic.Linarith
import Mathlib.Tactic.Ring
import GemmaWorker.Library.Transition

/-! Something that lasts for a while and is renewed by a holder who rests between two attempts. How old the last
renewal can be while the holder keeps its pace, and that it can be as old as that. -/

namespace GemmaWorker.Library

/-- An attempt ends within `attempt`, the holder oversleeps by `jitter` at most, and at most `failures`
attempts in a row fail. -/
structure Pace (T : Type*) where
  interval : T
  attempt : T
  jitter : T
  failures : ℕ

section Pace

variable {T : Type*} [Field T] [LinearOrder T] (p : Pace T)

def Pace.cycle : T := p.interval + p.jitter + p.attempt

/-- The time from one renewal to the next when as many attempts fail as may. -/
def Pace.span : T := (p.failures + 1) * p.cycle + p.attempt

structure Pace.Sound : Prop where
  interval : 0 ≤ p.interval
  attempt : 0 ≤ p.attempt
  jitter : 0 ≤ p.jitter

lemma Pace.Sound.cycle {p : Pace T} [IsStrictOrderedRing T] (hp : p.Sound) : 0 ≤ p.cycle :=
  add_nonneg (add_nonneg hp.interval hp.jitter) hp.attempt

end Pace

namespace Renewal

inductive Phase
  | resting
  | trying
  | renewed
deriving DecidableEq

inductive Event
  | start
  | renew
  | renewElsewhere
  | finish
  | fail
  | wait

/-- The mark is the end of the rest, or else the start of the attempt. -/
structure Holder (T : Type*) where
  clock : T
  phase : Phase
  mark : T
  failed : ℕ
  renewal : Option T

variable {T : Type*} [Field T] [LinearOrder T] (p : Pace T)

/-- The latest time at which the holder still is where it is. -/
def Holder.latest (s : Holder T) : T :=
  match s.phase with
  | .resting => s.mark + p.jitter
  | .trying | .renewed => s.mark + p.attempt

def Holder.act (s : Holder T) (now : T) : Event → Option (Holder T)
  | .start => if s.phase = .resting ∧ s.mark ≤ now then some ⟨now, .trying, now, s.failed, s.renewal⟩ else none
  | .renew => if s.phase = .trying then some ⟨now, .renewed, s.mark, s.failed, some now⟩ else none
  | .renewElsewhere => some { s with clock := now, renewal := some now }
  | .finish => if s.phase = .renewed then some ⟨now, .resting, now + p.interval, 0, s.renewal⟩ else none
  | .fail =>
    if s.phase ≠ .resting ∧ s.failed < p.failures then
      some ⟨now, .resting, now + p.interval, s.failed + 1, s.renewal⟩
    else none
  | .wait => some { s with clock := now }

def holder : Machine (Holder T) (Event × T) where
  next s e := if s.clock ≤ e.2 ∧ e.2 ≤ s.latest p then s.act p e.2 e.1 else none

def begun (start : T) : Holder T := ⟨start, .resting, start, 0, none⟩

section Bound

variable {p} {s t : Holder T} {e : Event} {now : T} {es : List (Event × T)}

/-- The holder is no further ahead of the clock than one rest. -/
def Holder.Ahead (p : Pace T) (s : Holder T) : Prop :=
  match s.phase with
  | .resting => s.mark ≤ s.clock + p.interval
  | .trying | .renewed => s.mark ≤ s.clock

def Holder.Recent (p : Pace T) (s : Holder T) (renewal : T) : Prop :=
  match s.phase with
  | .resting => s.mark + p.jitter ≤ renewal + (s.failed + 1) * p.cycle
  | .trying => s.mark ≤ renewal + (s.failed + 1) * p.cycle
  | .renewed => s.mark ≤ renewal

structure Holder.Paced (p : Pace T) (s : Holder T) : Prop where
  ahead : s.Ahead p
  due : s.clock ≤ s.latest p
  failed : s.failed ≤ p.failures
  recent : ∀ renewal, s.renewal = some renewal → s.Recent p renewal

lemma holder_elim (hn : (holder p).next s (e, now) = some t) :
    s.clock ≤ now ∧ now ≤ s.latest p ∧ s.act p now e = some t := by
  simp only [holder] at hn
  split_ifs at hn with htime
  exact ⟨htime.1, htime.2, hn⟩

variable [IsStrictOrderedRing T]

lemma paced_begun (hp : p.Sound) (start : T) : (begun start).Paced p := by
  refine ⟨?_, ?_, Nat.zero_le _, ?_⟩
  · change start ≤ start + p.interval
    exact le_add_of_nonneg_right hp.interval
  · change start ≤ start + p.jitter
    exact le_add_of_nonneg_right hp.jitter
  · intro renewal h
    cases h

lemma recent_now (hp : p.Sound) (h : s.Ahead p) (hclock : s.clock ≤ now) : s.Recent p now := by
  have hmore : p.cycle ≤ (s.failed + 1) * p.cycle :=
    le_mul_of_one_le_left hp.cycle (le_add_of_nonneg_left (Nat.cast_nonneg _))
  have hcycle : p.cycle = p.interval + p.jitter + p.attempt := rfl
  have hattempt := hp.attempt
  have hnonneg := hp.cycle
  rw [Holder.Ahead] at h
  rw [Holder.Recent]
  cases hphase : s.phase <;> rw [hphase] at h <;> simp only at h ⊢ <;> linarith

/-- Where the attempt of a holder can have begun at the latest. -/
lemma Holder.Recent.mark_le (hp : p.Sound) {renewal : T} (h : s.Recent p renewal) :
    s.mark ≤ renewal + (s.failed + 1) * p.cycle := by
  have hnonneg : 0 ≤ (s.failed + 1) * p.cycle :=
    mul_nonneg (add_nonneg (Nat.cast_nonneg _) zero_le_one) hp.cycle
  have hjitter := hp.jitter
  rw [Holder.Recent] at h
  cases hphase : s.phase <;> rw [hphase] at h <;> simp only at h <;> linarith

lemma Holder.Paced.start (hp : p.Sound) (h : s.Paced p) (hlatest : now ≤ s.latest p)
    (ha : s.act p now .start = some t) : t.Paced p := by
  rw [Holder.act] at ha
  split_ifs at ha with hrest
  obtain rfl := Option.some.inj ha
  rw [Holder.latest, hrest.1] at hlatest
  refine ⟨le_refl now, le_add_of_nonneg_right hp.attempt, h.failed, fun renewal hr => ?_⟩
  have hmark := h.recent renewal hr
  rw [Holder.Recent, hrest.1] at hmark
  exact hlatest.trans hmark

omit [IsStrictOrderedRing T] in
lemma Holder.Paced.renew (h : s.Paced p) (hclock : s.clock ≤ now) (hlatest : now ≤ s.latest p)
    (ha : s.act p now .renew = some t) : t.Paced p := by
  rw [Holder.act] at ha
  split_ifs at ha with htrying
  obtain rfl := Option.some.inj ha
  have hahead := h.ahead
  rw [Holder.Ahead, htrying] at hahead
  rw [Holder.latest, htrying] at hlatest
  refine ⟨hahead.trans hclock, hlatest, h.failed, fun renewal hr => ?_⟩
  obtain rfl := Option.some.inj hr
  exact hahead.trans hclock

/-- A holder rests for one interval after an attempt that began at most `behind` after the renewal. -/
lemma paced_rest (hp : p.Sound) {mark : T} {failed : ℕ} {renewal : Option T} (hfailed : failed ≤ p.failures)
    (hlatest : now ≤ mark + p.attempt) (hrecent : ∀ r, renewal = some r → mark ≤ r + failed * p.cycle) :
    Holder.Paced p ⟨now, .resting, now + p.interval, failed, renewal⟩ := by
  have hinterval := hp.interval
  have hjitter := hp.jitter
  refine ⟨le_refl (now + p.interval), ?_, hfailed, fun r hr => ?_⟩
  · change now ≤ now + p.interval + p.jitter
    linarith
  · have hmark := hrecent r hr
    have hcycle : p.cycle = p.interval + p.jitter + p.attempt := rfl
    have hmore : ((failed : T) + 1) * p.cycle = failed * p.cycle + p.cycle := by ring
    change now + p.interval + p.jitter ≤ r + (failed + 1) * p.cycle
    linarith

lemma Holder.Paced.finish (hp : p.Sound) (h : s.Paced p) (hlatest : now ≤ s.latest p)
    (ha : s.act p now .finish = some t) : t.Paced p := by
  rw [Holder.act] at ha
  split_ifs at ha with hrenewed
  obtain rfl := Option.some.inj ha
  rw [Holder.latest, hrenewed] at hlatest
  refine paced_rest hp (Nat.zero_le _) hlatest fun r hr => ?_
  have hmark := h.recent r hr
  rw [Holder.Recent, hrenewed] at hmark
  simpa using hmark

lemma Holder.Paced.fail (hp : p.Sound) (h : s.Paced p) (hlatest : now ≤ s.latest p)
    (ha : s.act p now .fail = some t) : t.Paced p := by
  rw [Holder.act] at ha
  split_ifs at ha with hfail
  obtain rfl := Option.some.inj ha
  have hattempt : now ≤ s.mark + p.attempt := by
    rw [Holder.latest] at hlatest
    cases hphase : s.phase with
    | resting => exact absurd hphase hfail.1
    | _ => simpa only [hphase] using hlatest
  refine paced_rest hp hfail.2 hattempt fun r hr => ?_
  have hmark := (h.recent r hr).mark_le hp
  push_cast
  exact hmark

lemma Holder.Paced.pass (hp : p.Sound) (h : s.Paced p) (hclock : s.clock ≤ now) (hlatest : now ≤ s.latest p)
    {renewal : Option T} (hr : renewal = s.renewal ∨ renewal = some now) :
    Holder.Paced p { s with clock := now, renewal := renewal } := by
  have hahead := h.ahead
  have hlater : Holder.Ahead p { s with clock := now, renewal := renewal } := by
    rw [Holder.Ahead] at hahead ⊢
    cases hphase : s.phase <;> rw [hphase] at hahead <;> simp only at hahead ⊢ <;> linarith
  refine ⟨hlater, hlatest, h.failed, fun r hrenewal => ?_⟩
  rcases hr with rfl | rfl
  · exact h.recent r hrenewal
  · obtain rfl := Option.some.inj hrenewal
    exact recent_now hp hlater (le_refl now)

lemma Holder.Paced.step (hp : p.Sound) (h : s.Paced p) (hn : (holder p).next s (e, now) = some t) : t.Paced p := by
  obtain ⟨hclock, hlatest, ha⟩ := holder_elim hn
  cases e with
  | start => exact h.start hp hlatest ha
  | renew => exact h.renew hclock hlatest ha
  | renewElsewhere =>
    obtain rfl := Option.some.inj ha
    exact h.pass hp hclock hlatest (Or.inr rfl)
  | finish => exact h.finish hp hlatest ha
  | fail => exact h.fail hp hlatest ha
  | wait =>
    obtain rfl := Option.some.inj ha
    exact h.pass hp hclock hlatest (Or.inl rfl)

lemma Holder.Paced.clock_le (hp : p.Sound) (h : s.Paced p) {renewal : T} (hr : s.renewal = some renewal) :
    s.clock ≤ renewal + p.span := by
  have hrecent := h.recent renewal hr
  have hdue := h.due
  have hmark := hrecent.mark_le hp
  have hfailed : ((s.failed : T) + 1) * p.cycle ≤ (p.failures + 1) * p.cycle := by
    apply mul_le_mul_of_nonneg_right _ hp.cycle
    have hcast : (s.failed : T) ≤ p.failures := Nat.cast_le.mpr h.failed
    linarith
  have hattempt := hp.attempt
  rw [Holder.latest] at hdue
  rw [Holder.Recent] at hrecent
  rw [Pace.span]
  cases hphase : s.phase <;> rw [hphase] at hdue hrecent <;> simp only at hdue hrecent <;> linarith

lemma paced_run (hp : p.Sound) {start : T} (he : (holder p).exec (begun start) es = some s) : s.Paced p :=
  Machine.exec_invariant he (paced_begun hp start) fun _ _ _ hu hn => hu.step hp hn

/-- The last renewal is never older than the span. -/
theorem renewal_recent (hp : p.Sound) {start : T} (he : (holder p).exec (begun start) es = some s) {renewal : T}
    (hr : s.renewal = some renewal) : s.clock ≤ renewal + p.span :=
  (paced_run hp he).clock_le hp hr

end Bound

section Reached

variable {p} {s t : Holder T} {e : Event} {now : T}

lemma holder_next (hclock : s.clock ≤ now) (hlatest : now ≤ s.latest p) (ha : s.act p now e = some t) :
    (holder p).next s (e, now) = some t :=
  (if_pos ⟨hclock, hlatest⟩).trans ha

/-- At rest after the failure of so many attempts in a row, each as late and as long as can be. -/
def rested (p : Pace T) (start : T) (k : ℕ) : Holder T :=
  ⟨start + p.attempt + k * p.cycle, .resting, start + p.attempt + k * p.cycle + p.interval, k, some start⟩

def retried (p : Pace T) (start : T) (k : ℕ) : Holder T :=
  ⟨start + (k + 1) * p.cycle, .trying, start + (k + 1) * p.cycle, k, some start⟩

variable [IsStrictOrderedRing T]

lemma retried_next (hp : p.Sound) (start : T) (k : ℕ) :
    (holder p).next (rested p start k) (.start, start + (k + 1) * p.cycle) = some (retried p start k) := by
  have hinterval := hp.interval
  have hjitter := hp.jitter
  have hcycle : (k + 1) * p.cycle = k * p.cycle + p.cycle := by ring
  have hparts : p.cycle = p.interval + p.jitter + p.attempt := rfl
  apply holder_next
  · change start + p.attempt + k * p.cycle ≤ start + (k + 1) * p.cycle
    linarith
  · change start + (k + 1) * p.cycle ≤ start + p.attempt + k * p.cycle + p.interval + p.jitter
    linarith
  · refine if_pos ⟨rfl, ?_⟩
    change start + p.attempt + k * p.cycle + p.interval ≤ start + (k + 1) * p.cycle
    linarith

lemma rested_next (hp : p.Sound) (start : T) {k : ℕ} (hk : k < p.failures) :
    (holder p).next (retried p start k) (.fail, start + p.attempt + (k + 1 : ℕ) * p.cycle) =
      some (rested p start (k + 1)) := by
  have hattempt := hp.attempt
  apply holder_next
  · change start + (k + 1) * p.cycle ≤ start + p.attempt + (k + 1 : ℕ) * p.cycle
    push_cast
    linarith
  · change start + p.attempt + (k + 1 : ℕ) * p.cycle ≤ start + (k + 1) * p.cycle + p.attempt
    push_cast
    linarith
  · exact if_pos ⟨Phase.noConfusion, hk⟩

lemma rested_reached (hp : p.Sound) (start : T) {k : ℕ} (hk : k ≤ p.failures) :
    ∃ es, (∀ e ∈ es, e.1 ≠ .renewElsewhere) ∧ (holder p).exec (begun start) es = some (rested p start k) := by
  induction k with
  | zero =>
    have hstart : (holder p).next (begun start) (.start, start) = some ⟨start, .trying, start, 0, none⟩ :=
      holder_next (le_refl start) (le_add_of_nonneg_right hp.jitter) (if_pos ⟨rfl, le_refl start⟩)
    have hrenew : (holder p).next ⟨start, .trying, start, 0, none⟩ (.renew, start) =
        some ⟨start, .renewed, start, 0, some start⟩ :=
      holder_next (le_refl start) (le_add_of_nonneg_right hp.attempt) (by simp [Holder.act])
    have hfinish : (holder p).next ⟨start, .renewed, start, 0, some start⟩ (.finish, start + p.attempt) =
        some (rested p start 0) := by
      apply holder_next (le_add_of_nonneg_right hp.attempt) (le_refl _)
      simp [Holder.act, rested]
    refine ⟨[(.start, start), (.renew, start), (.finish, start + p.attempt)], by simp, ?_⟩
    rw [Machine.exec_cons hstart, Machine.exec_cons hrenew, Machine.exec_cons hfinish]
    rfl
  | succ k ih =>
    obtain ⟨es, hes, he⟩ := ih (Nat.le_of_succ_le hk)
    refine ⟨es ++ [(.start, start + (k + 1) * p.cycle)] ++ [(.fail, start + p.attempt + (k + 1 : ℕ) * p.cycle)],
      ?_, Machine.exec_snoc (Machine.exec_snoc he (retried_next hp start k)) (rested_next hp start hk)⟩
    exact List.forall_mem_append.mpr ⟨List.forall_mem_append.mpr ⟨hes, by simp⟩, by simp⟩

/-- The last renewal can be as old as the span, without any renewal by another. -/
theorem span_reached (hp : p.Sound) (start : T) :
    ∃ es s, (∀ e ∈ es, e.1 ≠ .renewElsewhere) ∧ (holder p).exec (begun start) es = some s ∧
      s.renewal = some start ∧ s.clock = start + p.span := by
  obtain ⟨es, hes, he⟩ := rested_reached hp start (le_refl p.failures)
  have hwait : (holder p).next (retried p start p.failures) (.wait, start + p.span) =
      some { retried p start p.failures with clock := start + p.span } := by
    have hattempt := hp.attempt
    have hspan : p.span = (p.failures + 1) * p.cycle + p.attempt := rfl
    apply holder_next
    · change start + (p.failures + 1) * p.cycle ≤ start + p.span
      linarith
    · change start + p.span ≤ start + (p.failures + 1) * p.cycle + p.attempt
      linarith
    · rfl
  refine ⟨es ++ [(.start, start + (p.failures + 1) * p.cycle)] ++ [(.wait, start + p.span)], _, ?_,
    Machine.exec_snoc (Machine.exec_snoc he (retried_next hp start p.failures)) hwait, rfl, rfl⟩
  exact List.forall_mem_append.mpr ⟨List.forall_mem_append.mpr ⟨hes, by simp⟩, by simp⟩

end Reached

end Renewal

end GemmaWorker.Library
