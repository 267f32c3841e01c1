import HyBBX.Lib.Transducer

/-! A call that takes a chunk of symbols and returns at the first one that has an output: what is left of the chunk is
gone. Nothing is lost exactly if an output comes only from the last symbol of a chunk. -/

namespace HyBBX.Lib.EarlyReturn

open Transducer

variable {σ τ β ω ψ : Type*}

/-- One call: the state behind it, its output, and the symbols that nobody has looked at. -/
def call (step : σ → β → σ × Option ω) : σ → List β → σ × Option ω × List β
  | s, [] => (s, none, [])
  | s, b :: bs =>
    match step s b with
    | (s, none) => call step s bs
    | (s, some w) => (s, some w, bs)

/-- Calls one behind the other, with all their outputs and all that was lost. -/
def calls (step : σ → β → σ × Option ω) : σ → List (List β) → σ × List ω × List β
  | s, [] => (s, [], [])
  | s, c :: cs =>
    let r := call step s c
    let q := calls step r.1 cs
    (q.1, r.2.1.toList ++ q.2.1, r.2.2 ++ q.2.2)

/-- The same symbols one at a time. -/
def each (step : σ → β → σ × Option ω) : σ → β → σ × List ω := fun s b => ((step s b).1, (step s b).2.toList)

def Silent (step : σ → β → σ × Option ω) (s : σ) (b : β) : Prop := (step s b).2 = none

instance Silent.decidable (step : σ → β → σ × Option ω) (s : σ) (b : β) [DecidableEq ω] : Decidable (Silent step s b) :=
  inferInstanceAs (Decidable ((step s b).2 = none))

/-- All the symbols of a chunk but its last one are silent. -/
def EndsLast (step : σ → β → σ × Option ω) : σ → List (List β) → Prop
  | _, [] => True
  | s, c :: cs => Along (each step) (Silent step) s c.dropLast ∧ EndsLast step (run (each step) s c).1 cs

variable {step : σ → β → σ × Option ω}

lemma call_silent {s : σ} {b : β} (h : Silent step s b) (bs : List β) :
    call step s (b :: bs) = call step (step s b).1 bs := by
  have he : step s b = ((step s b).1, none) := Prod.ext rfl h
  rw [call, he]

lemma call_output {s : σ} {b : β} {w : ω} (h : (step s b).2 = some w) (bs : List β) :
    call step s (b :: bs) = ((step s b).1, some w, bs) := by
  have he : step s b = ((step s b).1, some w) := Prod.ext rfl h
  rw [call, he]

lemma call_singleton (s : σ) (b : β) : call step s [b] = ((step s b).1, (step s b).2, []) := by
  cases h : (step s b).2 with
  | none => rw [call_silent h, call]
  | some w => rw [call_output h]

/-- What every symbol keeps, a call keeps. -/
lemma call_invariant {I : σ → Prop} (hstep : ∀ s b, I s → I (step s b).1) (bs : List β) {s : σ} (h : I s) :
    I (call step s bs).1 := by
  induction bs generalizing s with
  | nil => exact h
  | cons b bs ih =>
    cases hb : (step s b).2 with
    | none =>
      rw [call_silent hb]
      exact ih (hstep s b h)
    | some w =>
      rw [call_output hb]
      exact hstep s b h

/-- A call loses nothing exactly if only its last symbol has an output; then it does what the symbols do one at a time. -/
lemma call_spec (bs : List β) (s : σ) :
    ((call step s bs).2.2 = [] ↔ Along (each step) (Silent step) s bs.dropLast) ∧
      ((call step s bs).2.2 = [] →
        (call step s bs).1 = (run (each step) s bs).1 ∧ (call step s bs).2.1.toList = (run (each step) s bs).2) := by
  induction bs generalizing s with
  | nil => exact ⟨iff_of_true rfl trivial, fun _ => ⟨rfl, rfl⟩⟩
  | cons b bs ih =>
    cases bs with
    | nil =>
      rw [call_singleton, run_singleton]
      exact ⟨iff_of_true rfl trivial, fun _ => ⟨rfl, rfl⟩⟩
    | cons b' bs =>
      obtain ⟨hiff, hsame⟩ := ih (step s b).1
      rw [List.dropLast_cons_cons, run_cons]
      cases h : (step s b).2 with
      | none =>
        rw [call_silent h]
        refine ⟨hiff.trans ⟨fun hrest => ⟨h, hrest⟩, fun hall => hall.2⟩, fun hnil => ?_⟩
        obtain ⟨hstate, hout⟩ := hsame hnil
        refine ⟨hstate, hout.trans ?_⟩
        rw [each, h]
        rfl
      | some w =>
        rw [call_output h]
        refine ⟨iff_of_false (List.cons_ne_nil b' bs) fun hall => ?_, fun hnil => absurd hnil (List.cons_ne_nil b' bs)⟩
        exact absurd (h.symm.trans hall.1) (Option.some_ne_none w)

/-- Nothing is lost in a run of calls exactly if no chunk goes on behind an output; then the outputs are those of the
symbols one at a time. -/
lemma calls_spec (cs : List (List β)) (s : σ) :
    ((calls step s cs).2.2 = [] ↔ EndsLast step s cs) ∧
      ((calls step s cs).2.2 = [] → (calls step s cs).2.1 = (run (each step) s cs.flatten).2) := by
  induction cs generalizing s with
  | nil => exact ⟨iff_of_true rfl trivial, fun _ => rfl⟩
  | cons c cs ih =>
    obtain ⟨hiff, hsame⟩ := @call_spec σ β ω step c s
    obtain ⟨hiff', hsame'⟩ := ih (call step s c).1
    rw [calls, List.append_eq_nil_iff]
    constructor
    · constructor
      · rintro ⟨hc, hcs⟩
        refine ⟨hiff.mp hc, ?_⟩
        rw [← (hsame hc).1]
        exact hiff'.mp hcs
      · rintro ⟨hc, hcs⟩
        have hnil := hiff.mpr hc
        refine ⟨hnil, hiff'.mpr ?_⟩
        rw [(hsame hnil).1]
        exact hcs
    · rintro ⟨hc, hcs⟩
      rw [hsame' hcs, (hsame hc).2, (hsame hc).1, List.flatten_cons, run_append]

/-- Chunks of one symbol each lose nothing. -/
lemma calls_singletons (bs : List β) (s : σ) : calls step s (bs.map fun b => [b]) =
    ((run (each step) s bs).1, (run (each step) s bs).2, []) := by
  induction bs generalizing s with
  | nil => rfl
  | cons b bs ih =>
    rw [List.map_cons, calls, call_singleton, run_cons]
    dsimp only
    rw [ih]
    rfl

/-- A machine that tells in the same places whether there is an output. -/
lemma endsLast_iff {other : τ → β → τ × Option ψ} {R : σ → τ → Prop}
    (hstep : ∀ s t b, R s t → R (step s b).1 (other t b).1 ∧ ((step s b).2 = none ↔ (other t b).2 = none))
    (cs : List (List β)) {s : σ} {t : τ} (h : R s t) : EndsLast step s cs ↔ EndsLast other t cs := by
  have halong : ∀ (bs : List β) (s : σ) (t : τ), R s t →
      (Along (each step) (Silent step) s bs ↔ Along (each other) (Silent other) t bs) ∧
        R (run (each step) s bs).1 (run (each other) t bs).1 := by
    intro bs
    induction bs with
    | nil => exact fun s t h => ⟨Iff.rfl, h⟩
    | cons b bs ih =>
      intro s t h
      obtain ⟨hnext, hout⟩ := hstep s t b h
      obtain ⟨hrest, hend⟩ := ih _ _ hnext
      exact ⟨and_congr hout hrest, hend⟩
  induction cs generalizing s t with
  | nil => exact Iff.rfl
  | cons c cs ih => exact and_congr (halong c.dropLast s t h).1 (ih (halong c s t h).2)

end HyBBX.Lib.EarlyReturn
