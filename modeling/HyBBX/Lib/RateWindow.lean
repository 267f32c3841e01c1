import Mathlib.Data.List.Basic
import Mathlib.Tactic

/-! A limit on how often something happens in any window of time, kept with the last few times alone. -/

namespace HyBBX.Lib.RateWindow

variable {max : ℕ} {window now : ℤ} {times : List ℤ}

/-- The last times, so many as there may be in a window; a time of 0 is none. -/
def lastTimes (max : ℕ) (times : List ℤ) : List ℤ := (List.replicate max 0 ++ times).drop times.length

def within (window now time : ℤ) : Bool := now - time < window

/-- No window of the given length holds more than so many times. -/
def Limited (max : ℕ) (window : ℤ) (times : List ℤ) : Prop :=
  ∀ start, (times.countP fun t => start ≤ t ∧ t < start + window) ≤ max

lemma lastTimes_nil (max : ℕ) : lastTimes max [] = List.replicate max 0 := by
  rw [lastTimes, List.append_nil, List.length_nil, List.drop_zero]

lemma lastTimes_concat (hmax : 0 < max) (times : List ℤ) (now : ℤ) :
    lastTimes max (times ++ [now]) = (lastTimes max times).tail ++ [now] := by
  have hlen : times.length + 1 ≤ (List.replicate max (0 : ℤ) ++ times).length := by
    rw [List.length_append, List.length_replicate]
    omega
  rw [lastTimes, lastTimes, List.tail_drop, List.length_append, List.length_singleton, ← List.append_assoc,
    List.drop_append_of_le_length hlen]

/-- The last times are those of the list, or all of them behind empty ones. -/
lemma lastTimes_split (max : ℕ) (times : List ℤ) : ∃ front recent, times = front ++ recent ∧
    lastTimes max times = List.replicate (max - recent.length) 0 ++ recent ∧ recent.length ≤ max ∧
      (front ≠ [] → recent.length = max) := by
  refine ⟨times.take (times.length - max), times.drop (times.length - max),
    (List.take_append_drop _ _).symm, ?_, ?_, ?_⟩
  · rw [lastTimes, List.drop_append, List.length_replicate, List.drop_replicate, List.length_drop]
    congr 2
    omega
  · rw [List.length_drop]
    omega
  · intro hne
    have := List.length_pos_iff.mpr hne
    rw [List.length_take] at this
    rw [List.length_drop]
    omega

/-- Whether there is room for one more is seen from the last times alone. -/
lemma count_last_lt_iff (hsorted : times.Pairwise (· ≤ ·)) (hne : ∀ t ∈ times, t ≠ 0) :
    (lastTimes max times).countP (fun t => t ≠ 0 ∧ now - t < window) < max ↔
      times.countP (within window now) < max := by
  obtain ⟨front, recent, rfl, hlast, hlen, hfull⟩ := lastTimes_split max times
  have hzero : (List.replicate (max - recent.length) (0 : ℤ)).countP (fun t => t ≠ 0 ∧ now - t < window) = 0 := by
    rw [List.countP_eq_zero]
    intro t ht
    simp [(List.mem_replicate.mp ht).2]
  have hrecent : recent.countP (fun t => t ≠ 0 ∧ now - t < window) = recent.countP (within window now) := by
    apply List.countP_congr
    intro t ht
    simp [within, hne t (List.mem_append_right _ ht)]
  rw [hlast, List.countP_append, hzero, hrecent, zero_add, List.countP_append]
  constructor
  · intro hlt
    by_cases hfront : front = []
    · rw [hfront, List.countP_nil, zero_add]
      exact hlt
    · have hold : front.countP (within window now) = 0 := by
        obtain ⟨t, ht, hout⟩ : ∃ t ∈ recent, within window now t = false := by
          by_contra hall
          push Not at hall
          rw [List.countP_eq_length.mpr fun t ht => by simpa using hall t ht, hfull hfront] at hlt
          exact lt_irrefl _ hlt
        rw [List.countP_eq_zero]
        intro s hs
        have hle : s ≤ t := (List.pairwise_append.mp hsorted).2.2 s hs t ht
        simp only [within, decide_eq_false_iff_not, not_lt, decide_eq_true_eq] at hout ⊢
        omega
      rw [hold, zero_add]
      exact hlt
  · exact fun hlt => lt_of_le_of_lt (Nat.le_add_left _ _) hlt

lemma limited_nil (max : ℕ) (window : ℤ) : Limited max window [] := fun _ => Nat.zero_le _

/-- One more time that there was room for. -/
lemma Limited.concat (h : Limited max window times) (hroom : times.countP (within window now) < max) :
    Limited max window (times ++ [now]) := by
  intro start
  rw [List.countP_append, List.countP_singleton]
  by_cases hin : start ≤ now ∧ now < start + window
  · have hle : (times.countP fun t => start ≤ t ∧ t < start + window) ≤ times.countP (within window now) := by
      apply List.countP_mono_left
      intro t _ ht
      simp only [decide_eq_true_eq] at ht
      simp only [within, decide_eq_true_eq]
      omega
    rw [if_pos (by simpa using hin)]
    omega
  · rw [if_neg (by simpa using hin), add_zero]
    exact h start

end HyBBX.Lib.RateWindow
