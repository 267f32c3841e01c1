import Mathlib.Data.List.Basic
import Mathlib.Tactic

/-! Incremental transducers: a state that consumes symbols one at a time and emits a list of outputs
for each. A stream may be cut into chunks anywhere without changing what is emitted. -/

namespace HyBBX.Lib.Transducer

variable {σ β ω : Type*}

def run (step : σ → β → σ × List ω) : σ → List β → σ × List ω
  | s, [] => (s, [])
  | s, b :: bs =>
    let r := step s b
    let q := run step r.1 bs
    (q.1, r.2 ++ q.2)

def runChunks (step : σ → β → σ × List ω) : σ → List (List β) → σ × List ω
  | s, [] => (s, [])
  | s, c :: cs =>
    let r := run step s c
    let q := runChunks step r.1 cs
    (q.1, r.2 ++ q.2)

variable (step : σ → β → σ × List ω)

@[simp] lemma run_nil (s : σ) : run step s [] = (s, []) := rfl

lemma run_cons (s : σ) (b : β) (bs : List β) :
    run step s (b :: bs) = ((run step (step s b).1 bs).1,
      (step s b).2 ++ (run step (step s b).1 bs).2) := rfl

lemma run_singleton (s : σ) (b : β) : run step s [b] = step s b := by
  simp [run_cons]

lemma run_append (s : σ) (xs ys : List β) :
    run step s (xs ++ ys) = ((run step (run step s xs).1 ys).1,
      (run step s xs).2 ++ (run step (run step s xs).1 ys).2) := by
  induction xs generalizing s with
  | nil => rfl
  | cons b xs ih => simp only [List.cons_append, run_cons, ih, List.append_assoc]

lemma runChunks_flatten (s : σ) (cs : List (List β)) :
    runChunks step s cs = run step s cs.flatten := by
  induction cs generalizing s with
  | nil => rfl
  | cons c cs ih => rw [runChunks, List.flatten_cons, run_append, ih]

-- an invariant that ties the state to everything emitted so far
lemma run_history {J : σ → List ω → Prop} {P : β → Prop}
    (hstep : ∀ s out b, P b → J s out → J (step s b).1 (out ++ (step s b).2)) (bs : List β)
    (hP : ∀ b ∈ bs, P b) {s : σ} {out : List ω} (hs : J s out) :
    J (run step s bs).1 (out ++ (run step s bs).2) := by
  induction bs generalizing s out with
  | nil => simpa using hs
  | cons b bs ih =>
    have hb := hstep s out b (hP b List.mem_cons_self) hs
    have hr := ih (fun c hc => hP c (List.mem_cons_of_mem b hc)) hb
    rw [run_cons, ← List.append_assoc]
    exact hr

lemma run_invariant {I : σ → Prop} (hstep : ∀ s b, I s → I (step s b).1) {s : σ} (hs : I s)
    (bs : List β) : I (run step s bs).1 :=
  @run_history σ β ω step (fun s _ => I s) (fun _ => True) (fun s _ b _ h => hstep s b h) bs
    (fun _ _ => trivial) s [] hs

/-- Every symbol of a stream satisfies a condition on the state it meets. -/
def Along (P : σ → β → Prop) : σ → List β → Prop
  | _, [] => True
  | s, b :: bs => P s b ∧ Along P (step s b).1 bs

instance Along.decidable {P : σ → β → Prop} [∀ s b, Decidable (P s b)] : ∀ s bs, Decidable (Along step P s bs)
  | _, [] => isTrue trivial
  | s, b :: bs =>
    have : Decidable (Along step P (step s b).1 bs) := Along.decidable (step s b).1 bs
    inferInstanceAs (Decidable (P s b ∧ Along step P (step s b).1 bs))

lemma along_append {P : σ → β → Prop} {s : σ} {xs ys : List β} (h : Along step P s (xs ++ ys)) :
    Along step P s xs ∧ Along step P (run step s xs).1 ys := by
  induction xs generalizing s with
  | nil => exact ⟨trivial, h⟩
  | cons b xs ih =>
    obtain ⟨hb, hrest⟩ := h
    obtain ⟨hxs, hys⟩ := ih hrest
    exact ⟨⟨hb, hxs⟩, hys⟩

/-- A condition that holds wherever a prefix of the stream has led. -/
lemma along_iff {P : σ → β → Prop} {s : σ} {bs : List β} :
    Along step P s bs ↔ ∀ xs b ys, bs = xs ++ b :: ys → P (run step s xs).1 b := by
  constructor
  · rintro h xs b ys rfl
    exact (along_append step h).2.1
  · intro h
    induction bs generalizing s with
    | nil => trivial
    | cons b bs ih =>
      refine ⟨h [] b bs rfl, ih fun xs c ys hsplit => ?_⟩
      exact h (b :: xs) c ys (by rw [hsplit, List.cons_append])

lemma along_and {P Q : σ → β → Prop} {s : σ} {bs : List β} (hp : Along step P s bs) (hq : Along step Q s bs) :
    Along step (fun s b => P s b ∧ Q s b) s bs := by
  induction bs generalizing s with
  | nil => trivial
  | cons b bs ih => exact ⟨⟨hp.1, hq.1⟩, ih hp.2 hq.2⟩

lemma along_mono {P Q : σ → β → Prop} (hPQ : ∀ s b, P s b → Q s b) {s : σ} {bs : List β} (h : Along step P s bs) :
    Along step Q s bs := by
  induction bs generalizing s with
  | nil => trivial
  | cons b bs ih => exact ⟨hPQ s b h.1, ih h.2⟩

/-- An invariant over everything emitted so far, for streams that satisfy a condition at each symbol. -/
lemma along_history {P : σ → β → Prop} {J : σ → List ω → Prop}
    (hstep : ∀ s out b, P s b → J s out → J (step s b).1 (out ++ (step s b).2)) {s : σ} {out : List ω} (hs : J s out)
    {bs : List β} (h : Along step P s bs) : J (run step s bs).1 (out ++ (run step s bs).2) := by
  induction bs generalizing s out with
  | nil => simpa using hs
  | cons b bs ih =>
    rw [run_cons, ← List.append_assoc]
    exact ih (hstep s out b h.1 hs) h.2

lemma along_invariant {P : σ → β → Prop} {I : σ → Prop} (hstep : ∀ s b, I s → P s b → I (step s b).1) {s : σ}
    (hs : I s) {bs : List β} (h : Along step P s bs) : I (run step s bs).1 := by
  induction bs generalizing s with
  | nil => exact hs
  | cons b bs ih => exact ih (hstep s b hs h.1) h.2

/-- What an invariant gives at each symbol of a stream. -/
lemma along_kept {P Q : σ → β → Prop} {I : σ → Prop} (hstep : ∀ s b, I s → P s b → I (step s b).1 ∧ Q s b) {s : σ}
    (hs : I s) {bs : List β} (h : Along step P s bs) : Along step Q s bs := by
  induction bs generalizing s with
  | nil => trivial
  | cons b bs ih =>
    obtain ⟨hnext, hb⟩ := hstep s b hs h.1
    exact ⟨hb, ih hnext h.2⟩

/-- Two machines whose steps keep a relation and emit the same emit the same on a whole stream. -/
lemma run_simulates {τ : Type*} {other : τ → β → τ × List ω} {P : σ → β → Prop} {R : σ → τ → Prop}
    (hstep : ∀ s t b, R s t → P s b → R (step s b).1 (other t b).1 ∧ (step s b).2 = (other t b).2)
    {s : σ} {t : τ} (hr : R s t) {bs : List β} (h : Along step P s bs) :
    R (run step s bs).1 (run other t bs).1 ∧ (run step s bs).2 = (run other t bs).2 := by
  induction bs generalizing s t with
  | nil => exact ⟨hr, rfl⟩
  | cons b bs ih =>
    obtain ⟨hnext, hout⟩ := hstep s t b hr h.1
    obtain ⟨hlast, houts⟩ := ih hnext h.2
    exact ⟨hlast, by rw [run_cons, run_cons, hout, houts]⟩

/-- What is stored plus what is emitted never outgrows what is read. -/
lemma run_weight (size : σ → ℕ) (cost : List ω → ℕ) (hcost : ∀ us vs, cost (us ++ vs) ≤ cost us + cost vs)
    (hnil : cost [] = 0) (hstep : ∀ s b, size (step s b).1 + cost (step s b).2 ≤ size s + 1)
    (s : σ) (bs : List β) :
    size (run step s bs).1 + cost (run step s bs).2 ≤ size s + bs.length := by
  induction bs generalizing s with
  | nil => simp [hnil]
  | cons b bs ih =>
    have hb := hstep s b
    have hr := ih (step s b).1
    have hc := hcost (step s b).2 (run step (step s b).1 bs).2
    simp only [run_cons, List.length_cons]
    omega

variable {δ : Type*}

/-- What each symbol of a stream asks for, in the state that it meets. -/
def owing (owed : σ → β → List δ) : σ → List β → List δ
  | _, [] => []
  | s, b :: bs => owed s b ++ owing owed (step s b).1 bs

lemma owing_filterMap {γ : Type*} (owed : σ → β → List γ) (f : γ → Option δ) (s : σ) (bs : List β) :
    owing step (fun s b => (owed s b).filterMap f) s bs = (owing step owed s bs).filterMap f := by
  induction bs generalizing s with
  | nil => rfl
  | cons b bs ih => rw [owing, owing, List.filterMap_append, ih]

/-- When every step pays, in order, of what was due and what it is asked for, a whole stream does. -/
lemma along_account {P : σ → β → Prop} (due : σ → List δ) (paid : ω → Option δ) (owed : σ → β → List δ)
    (hstep : ∀ s b, P s b → (step s b).2.filterMap paid ++ due (step s b).1 = due s ++ owed s b) {s : σ} {bs : List β}
    (h : Along step P s bs) :
    (run step s bs).2.filterMap paid ++ due (run step s bs).1 = due s ++ owing step owed s bs := by
  induction bs generalizing s with
  | nil => simp [owing]
  | cons b bs ih =>
    have hb := hstep s b h.1
    have hrest := ih h.2
    calc (run step s (b :: bs)).2.filterMap paid ++ due (run step s (b :: bs)).1
        = (step s b).2.filterMap paid ++
            ((run step (step s b).1 bs).2.filterMap paid ++ due (run step (step s b).1 bs).1) := by
          rw [run_cons, List.filterMap_append, List.append_assoc]
      _ = (step s b).2.filterMap paid ++ due (step s b).1 ++ owing step owed (step s b).1 bs := by
          rw [hrest, List.append_assoc]
      _ = due s ++ owing step owed s (b :: bs) := by rw [hb, owing, List.append_assoc]

end HyBBX.Lib.Transducer
