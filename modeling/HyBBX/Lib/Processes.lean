import HyBBX.Lib.Transducer
import Mathlib.Logic.Function.Basic

/-! Processes that take turns on a shared store. An invariant of such a system is made of what holds of the store,
what each process may assume and what any two processes owe each other; it is enough to show that a process keeps
its own part, and that its steps leave the assumptions of the others alone. -/

namespace HyBBX.Lib

structure Sys (ι σ π : Type*) where
  store : σ
  proc : ι → π

namespace Sys

variable {ι σ π ε ω : Type*} [DecidableEq ι]

/-- One process goes on, with an input from outside. -/
def step (act : ι → ε → σ → π → (σ × π) × List ω) (s : Sys ι σ π) (ev : ι × ε) : Sys ι σ π × List ω :=
  let r := act ev.1 ev.2 s.store (s.proc ev.1)
  (⟨r.1.1, Function.update s.proc ev.1 r.1.2⟩, r.2)

/-- The parts of an invariant: the store, one process, two processes. -/
structure Shape (ι σ π : Type*) where
  store : σ → Prop
  own : ι → σ → π → Prop
  pair : π → π → Prop

structure Shape.Holds (I : Shape ι σ π) (s : Sys ι σ π) : Prop where
  store : I.store s.store
  own : ∀ i, I.own i s.store (s.proc i)
  pair : ∀ i j, i ≠ j → I.pair (s.proc i) (s.proc j)

/-- What a single step has to keep, for steps that satisfy a condition. -/
structure Shape.Kept (I : Shape ι σ π) (act : ι → ε → σ → π → (σ × π) × List ω) (Ok : ι → ε → σ → π → Prop) : Prop where
  symm : ∀ p q, I.pair p q → I.pair q p
  own : ∀ i e s p, I.store s → I.own i s p → Ok i e s p →
    I.store (act i e s p).1.1 ∧ I.own i (act i e s p).1.1 (act i e s p).1.2
  others : ∀ i e s p j q, j ≠ i → I.store s → I.own i s p → I.own j s q → I.pair p q → Ok i e s p →
    I.own j (act i e s p).1.1 q ∧ I.pair (act i e s p).1.2 q

variable {I : Shape ι σ π} {act : ι → ε → σ → π → (σ × π) × List ω} {Ok : ι → ε → σ → π → Prop}

def Allowed (Ok : ι → ε → σ → π → Prop) (s : Sys ι σ π) (ev : ι × ε) : Prop := Ok ev.1 ev.2 s.store (s.proc ev.1)

instance [∀ i e s p, Decidable (Ok i e s p)] (s : Sys ι σ π) (ev : ι × ε) : Decidable (Allowed Ok s ev) :=
  inferInstanceAs (Decidable (Ok ev.1 ev.2 s.store (s.proc ev.1)))

lemma holds_step (h : I.Kept act Ok) {s : Sys ι σ π} {ev : ι × ε} (hs : I.Holds s) (hok : Allowed Ok s ev) :
    I.Holds (step act s ev).1 := by
  obtain ⟨i, e⟩ := ev
  obtain ⟨hstore, hown⟩ := h.own i e s.store (s.proc i) hs.store (hs.own i) hok
  have hother : ∀ j, j ≠ i → I.own j (act i e s.store (s.proc i)).1.1 (s.proc j) ∧
      I.pair (act i e s.store (s.proc i)).1.2 (s.proc j) := fun j hj =>
    h.others i e s.store (s.proc i) j (s.proc j) hj hs.store (hs.own i) (hs.own j) (hs.pair i j hj.symm) hok
  refine ⟨hstore, fun j => ?_, fun j k hjk => ?_⟩
  · by_cases hj : j = i
    · subst hj
      simpa only [step, Function.update_self] using hown
    · simpa only [step, Function.update_of_ne hj] using (hother j hj).1
  · by_cases hj : j = i
    · subst hj
      simpa only [step, Function.update_self, Function.update_of_ne hjk.symm] using (hother k hjk.symm).2
    · by_cases hk : k = i
      · subst hk
        simpa only [step, Function.update_self, Function.update_of_ne hj] using h.symm _ _ (hother j hj).2
      · simpa only [step, Function.update_of_ne hj, Function.update_of_ne hk] using hs.pair j k hjk

lemma holds_run (h : I.Kept act Ok) {s : Sys ι σ π} (hs : I.Holds s) {evs : List (ι × ε)}
    (hok : Transducer.Along (step act) (Allowed Ok) s evs) : I.Holds (Transducer.run (step act) s evs).1 :=
  Transducer.along_invariant (step act) (fun _ _ hs hok => holds_step h hs hok) hs hok

/-- The invariant holds before every step of such a run. -/
lemma holds_along (h : I.Kept act Ok) {s : Sys ι σ π} (hs : I.Holds s) {evs : List (ι × ε)}
    (hok : Transducer.Along (step act) (Allowed Ok) s evs) :
    Transducer.Along (step act) (fun s ev => I.Holds s ∧ Allowed Ok s ev) s evs := by
  induction evs generalizing s with
  | nil => trivial
  | cons ev evs ih => exact ⟨⟨hs, hok.1⟩, ih (holds_step h hs hok.1) hok.2⟩

/-- The steps of one process alone. -/
lemma run_alone (act : ι → ε → σ → π → (σ × π) × List ω) (i : ι) (es : List ε) (s : Sys ι σ π) :
    let r := (Transducer.run (step act) s (es.map fun e => (i, e))).1
    (r.store, r.proc i) = es.foldl (fun sp e => (act i e sp.1 sp.2).1) (s.store, s.proc i) := by
  induction es generalizing s with
  | nil => rfl
  | cons e es ih =>
    rw [List.map_cons, Transducer.run_cons, List.foldl_cons]
    have hnext : ((step act s (i, e)).1.store, (step act s (i, e)).1.proc i) = (act i e s.store (s.proc i)).1 := by
      simp only [step, Function.update_self]
    rw [← hnext]
    exact ih _

end Sys

end HyBBX.Lib
