import HyBBX.Telnet.Emit
import HyBBX.Telnet.Parser

/-! The telnet transport's write, byte by byte, and what it puts on the wire for what sessions hand it. -/

namespace HyBBX.Telnet

open HyBBX.Core Lib Lib.Bytes Lib.Text

/-- How a `send` of one byte ends; a result of 0 does not occur on a stream socket. -/
inductive SendResult
  | sent
  | interrupted
  | failed
  deriving DecidableEq, Repr

/-- One call of the transport's write: what had been handed over before, the number of its first `send`, what it was
handed, the bytes it has put on the wire and its result. -/
structure WriteCall where
  before : Bytes
  first : ℕ
  data : Bytes
  put : Bytes
  rc : HybbxResult
  deriving DecidableEq, Repr

/-- A connection: all that was handed to its write so far, the sends so far, and its calls. -/
structure TelnetWire where
  requested : Bytes
  sends : ℕ
  calls : List WriteCall

def TelnetWire.start : TelnetWire := ⟨[], 0, []⟩

section Write

variable (next : ℕ → SendResult)

/-- A line feed gets a carriage return unless one stands before it in the same call. -/
def wantsCr (prev : Option UInt8) (ch : UInt8) : Bool := ch = nl && prev ≠ some cr

def putByte (rest : ℕ → HybbxResult × Bytes × ℕ) (k : ℕ) (ch : UInt8) : HybbxResult × Bytes × ℕ :=
  match next k with
  | .sent => let r := rest (k + 1); (r.1, ch :: r.2.1, r.2.2)
  -- an interrupted send goes on with the next byte
  | .interrupted => rest (k + 1)
  | .failed => (.errIo, [], k + 1)

def telnetWriteLoop (prev : Option UInt8) : Bytes → ℕ → HybbxResult × Bytes × ℕ
  | [], k => (.ok, [], k)
  | ch :: bytes, k =>
    if wantsCr prev ch then
      match next k with
      | .sent =>
        let r := putByte next (telnetWriteLoop (some ch) bytes) (k + 1) ch
        (r.1, cr :: r.2.1, r.2.2)
      | _ => (.errIo, [], k + 1)
    else putByte next (telnetWriteLoop (some ch) bytes) k ch

def telnetWrite (w : TelnetWire) (data : Bytes) : HybbxResult × TelnetWire :=
  let r := telnetWriteLoop next none data w.sends
  (r.1, ⟨w.requested ++ data, r.2.2, w.calls ++ [⟨w.requested, w.sends, data, r.2.1, r.1⟩]⟩)

/-- What a session asks of its transport. -/
inductive OutputOp
  | text (paused : Bool) (text : Bytes)
  | raw (data : Bytes)

def outputStep (cfg : TrafficConfig) (st : TelnetWire × ℕ) : OutputOp → TelnetWire × ℕ
  | .text paused text => (sessionWrite (telnetWrite next) cfg paused st.1 st.2 text).2
  | .raw data => ((sessionWriteTransport (telnetWrite next) st.1 data).2, st.2)

def outputRun (cfg : TrafficConfig) (ops : List OutputOp) : TelnetWire :=
  (ops.foldl (outputStep next cfg) (.start, 0)).1

end Write

/-- The bytes that stand for a byte of the data. -/
def escaped (ch : UInt8) : Bytes := if ch = telnetIac then [telnetIac, telnetIac] else [ch]

/-- What the data should be on the wire, behind a carriage return or not. -/
def wireBytes : Bool → Bytes → Bytes
  | _, [] => []
  | afterCr, ch :: bytes =>
    (if ch = nl ∧ afterCr = false then [cr] else []) ++ escaped ch ++ wireBytes (ch = cr) bytes

def WriteCall.Exact (c : WriteCall) : Prop := c.put = wireBytes (c.before.getLast? = some cr) c.data

instance : DecidablePred WriteCall.Exact := fun c =>
  inferInstanceAs (Decidable (c.put = wireBytes (c.before.getLast? = some cr) c.data))

/-- The sends of a call that goes through. -/
def sendCount (prev : Option UInt8) : Bytes → ℕ
  | [] => 0
  | ch :: bytes => (if wantsCr prev ch then 2 else 1) + sendCount (some ch) bytes

/-- No send of the call is interrupted, there is no byte 255 in the data, and a line feed at its start does not follow
a carriage return. -/
def WriteCall.Clean (next : ℕ → SendResult) (c : WriteCall) : Prop :=
  (∀ i < sendCount none c.data, next (c.first + i) = .sent) ∧ telnetIac ∉ c.data ∧
    ¬(c.data.head? = some nl ∧ c.before.getLast? = some cr)

section Loop

variable {next : ℕ → SendResult}

/-- The data with its carriage returns, before anything is doubled. -/
def withCr (prev : Option UInt8) : Bytes → Bytes
  | [] => []
  | ch :: bytes => (if wantsCr prev ch then [cr, ch] else [ch]) ++ withCr (some ch) bytes

lemma length_withCr (prev : Option UInt8) (data : Bytes) : (withCr prev data).length = sendCount prev data := by
  induction data generalizing prev with
  | nil => rfl
  | cons ch bytes ih =>
    rw [withCr, sendCount, List.length_append, ih]
    split_ifs <;> rfl

lemma forall_sent_succ {k n : ℕ} :
    (∀ i < n + 1, next (k + i) = .sent) ↔ next k = .sent ∧ ∀ i < n, next (k + 1 + i) = .sent := by
  constructor
  · intro h
    refine ⟨h 0 (by omega), fun i hi => ?_⟩
    have := h (i + 1) (by omega)
    rwa [← Nat.add_assoc, Nat.add_right_comm] at this
  · rintro ⟨h0, h⟩ i hi
    cases i with
    | zero => exact h0
    | succ i =>
      have := h i (by omega)
      rwa [Nat.add_right_comm, Nat.add_assoc] at this

lemma putByte_spec {rest : ℕ → HybbxResult × Bytes × ℕ} {k n : ℕ} {ch : UInt8} {out : Bytes}
    (hrest : (rest (k + 1)).1 = .ok → (rest (k + 1)).2.1.Sublist out ∧
      ((rest (k + 1)).2.1 = out ↔ ∀ i < n, next (k + 1 + i) = .sent))
    (h : (putByte next rest k ch).1 = .ok) : (putByte next rest k ch).2.1.Sublist (ch :: out) ∧
      ((putByte next rest k ch).2.1 = ch :: out ↔ ∀ i < n + 1, next (k + i) = .sent) := by
  rw [forall_sent_succ]
  rw [putByte] at h ⊢
  cases hk : next k with
  | sent =>
    rw [hk] at h
    obtain ⟨hsub, hiff⟩ := hrest h
    refine ⟨hsub.cons_cons ch, ?_⟩
    rw [List.cons.injEq, hiff]
    simp
  | interrupted =>
    rw [hk] at h
    obtain ⟨hsub, -⟩ := hrest h
    refine ⟨hsub.cons ch, ?_⟩
    constructor
    · intro he
      have hlen := hsub.length_le
      dsimp only at he
      rw [he, List.length_cons] at hlen
      omega
    · rintro ⟨hs, -⟩
      cases hs
  | failed =>
    rw [hk] at h
    cases h

/-- A call that goes through has put all it was to put, but for the bytes whose sends were interrupted. -/
lemma telnetWriteLoop_spec (data : Bytes) (prev : Option UInt8) (k : ℕ)
    (h : (telnetWriteLoop next prev data k).1 = .ok) :
    (telnetWriteLoop next prev data k).2.1.Sublist (withCr prev data) ∧
      ((telnetWriteLoop next prev data k).2.1 = withCr prev data ↔
        ∀ i < sendCount prev data, next (k + i) = .sent) := by
  induction data generalizing prev k with
  | nil => exact ⟨.slnil, by simp [telnetWriteLoop, withCr, sendCount]⟩
  | cons ch bytes ih =>
    rw [telnetWriteLoop] at h ⊢
    rw [withCr, sendCount]
    by_cases hcr : wantsCr prev ch = true
    · rw [if_pos hcr] at h
      rw [if_pos hcr, if_pos hcr, if_pos hcr]
      cases hk : next k with
      | sent =>
        rw [hk] at h
        obtain ⟨hsub, hiff⟩ := putByte_spec (n := sendCount (some ch) bytes) (ih (some ch) (k + 2)) h
        have hcount : 2 + sendCount (some ch) bytes = sendCount (some ch) bytes + 1 + 1 := by omega
        rw [hcount, forall_sent_succ, ← hiff]
        refine ⟨hsub.cons_cons cr, ?_⟩
        dsimp only
        rw [List.cons_append, List.cons.injEq]
        simp [hk]
      | interrupted =>
        rw [hk] at h
        cases h
      | failed =>
        rw [hk] at h
        cases h
    · rw [if_neg hcr] at h
      rw [if_neg hcr, if_neg hcr, if_neg hcr, Nat.add_comm 1]
      exact putByte_spec (ih (some ch) (k + 1)) h

/-- Doubling makes a text longer, unless there is nothing to double. -/
lemma withCr_wireBytes (data : Bytes) (prev : Option UInt8) :
    (withCr prev data).length ≤ (wireBytes (prev = some cr) data).length ∧
      (withCr prev data = wireBytes (prev = some cr) data ↔ telnetIac ∉ data) := by
  induction data generalizing prev with
  | nil => exact ⟨le_refl _, by simp [withCr, wireBytes]⟩
  | cons ch bytes ih =>
    obtain ⟨hlen, hiff⟩ := ih (some ch)
    have hnext : decide (some ch = some cr) = decide (ch = cr) := by simp
    rw [hnext] at hlen hiff
    have hhead : (if wantsCr prev ch then [cr, ch] else [ch]) =
        (if ch = nl ∧ decide (prev = some cr) = false then [cr] else []) ++ [ch] := by
      simp only [wantsCr, Bool.and_eq_true, decide_eq_true_eq, decide_eq_false_iff_not]
      split_ifs <;> rfl
    rw [withCr, wireBytes, hhead, List.append_assoc, List.append_assoc, List.append_right_inj, List.length_append,
      List.length_append, List.length_append, List.length_append, escaped, List.mem_cons, not_or]
    by_cases hiac : ch = telnetIac
    · subst hiac
      rw [if_pos rfl]
      refine ⟨by simp only [List.length_cons, List.length_nil]; omega, ?_⟩
      constructor
      · intro he
        have hsame := congrArg List.length he
        simp only [List.length_append, List.length_cons, List.length_nil] at hsame
        omega
      · rintro ⟨h, -⟩
        exact absurd rfl h
    · rw [if_neg hiac, List.append_right_inj, hiff]
      exact ⟨by simp only [List.length_cons, List.length_nil]; omega, ⟨fun h => ⟨Ne.symm hiac, h⟩, And.right⟩⟩

/-- Only a line feed asks what stood before it. -/
lemma wireBytes_head {data : Bytes} (h : data.head? ≠ some nl) (afterCr : Bool) :
    wireBytes afterCr data = wireBytes false data := by
  cases data with
  | nil => rfl
  | cons ch bytes =>
    have hch : ch ≠ nl := fun he => h (by rw [he]; rfl)
    rw [wireBytes, wireBytes, if_neg fun hc => hch hc.1, if_neg fun hc => hch hc.1]

lemma exact_of_opened {data put : Bytes} {k : ℕ} (h : (telnetWriteLoop next none data k).1 = .ok)
    (hput : (telnetWriteLoop next none data k).2.1 = put) :
    put = wireBytes false data ↔ (∀ i < sendCount none data, next (k + i) = .sent) ∧ telnetIac ∉ data := by
  obtain ⟨hsub, hsent⟩ := telnetWriteLoop_spec data none k h
  obtain ⟨hlen, hdouble⟩ := withCr_wireBytes data none
  rw [hput] at hsub hsent
  have hnone : decide ((none : Option UInt8) = some cr) = false := rfl
  rw [hnone] at hlen hdouble
  rw [← hsent, ← hdouble]
  constructor
  · intro he
    have hall : put = withCr none data := hsub.eq_of_length_le (by rw [he]; exact hlen)
    exact ⟨hall, by rw [← hall, he]⟩
  · rintro ⟨hall, he⟩
    rw [hall, he]

/-- Behind a carriage return, a line feed at the start of a call gets one too many. -/
lemma not_exact_of_open {bytes put : Bytes} {k : ℕ} (h : (telnetWriteLoop next none (nl :: bytes) k).1 = .ok)
    (hput : (telnetWriteLoop next none (nl :: bytes) k).2.1 = put) : put ≠ wireBytes true (nl :: bytes) := by
  have hcr : wantsCr none nl = true := by decide
  rw [telnetWriteLoop, if_pos hcr] at h hput
  cases hk : next k with
  | sent =>
    rw [hk] at hput
    rw [← hput, wireBytes, escaped]
    intro he
    exact absurd (List.cons.inj he).1 (by decide)
  | interrupted =>
    rw [hk] at h
    cases h
  | failed =>
    rw [hk] at h
    cases h

end Loop

/-- A call with the bytes and the result of the loop. -/
def WriteCall.Ran (next : ℕ → SendResult) (c : WriteCall) : Prop :=
  (telnetWriteLoop next none c.data c.first).1 = c.rc ∧ (telnetWriteLoop next none c.data c.first).2.1 = c.put

lemma exact_iff {next : ℕ → SendResult} {c : WriteCall} (h : c.Ran next) (hok : c.rc = .ok) :
    c.Exact ↔ c.Clean next := by
  obtain ⟨hrc, hput⟩ := h
  rw [hok] at hrc
  rw [WriteCall.Exact, WriteCall.Clean]
  by_cases hopen : c.data.head? = some nl ∧ c.before.getLast? = some cr
  · obtain ⟨hhead, hlast⟩ := hopen
    obtain ⟨bytes, hdata⟩ : ∃ bytes, c.data = nl :: bytes := by
      cases hd : c.data with
      | nil =>
        rw [hd] at hhead
        cases hhead
      | cons ch bytes =>
        rw [hd] at hhead
        exact ⟨bytes, by rw [Option.some.inj hhead]⟩
    rw [hdata] at hrc hput hhead ⊢
    rw [hlast]
    exact iff_of_false (not_exact_of_open hrc hput) fun h => h.2.2 ⟨rfl, rfl⟩
  · have hwire : wireBytes (c.before.getLast? = some cr) c.data = wireBytes false c.data := by
      by_cases hhead : c.data.head? = some nl
      · rw [decide_eq_false fun hlast => hopen ⟨hhead, hlast⟩]
      · exact wireBytes_head hhead _
    rw [hwire, exact_of_opened hrc hput]
    exact ⟨fun h => ⟨h.1, h.2, hopen⟩, fun h => ⟨h.1, h.2.1⟩⟩

section Run

variable (next : ℕ → SendResult) (cfg : TrafficConfig)

lemma telnetWrite_ran (w : TelnetWire) (data : Bytes) (h : ∀ c ∈ w.calls, c.Ran next) :
    ∀ c ∈ (telnetWrite next w data).2.calls, c.Ran next := by
  intro c hc
  rcases List.mem_append.mp hc with hc | hc
  · exact h c hc
  · rw [List.mem_singleton.mp hc]
    exact ⟨rfl, rfl⟩

lemma outputRun_ran (ops : List OutputOp) : ∀ c ∈ (outputRun next cfg ops).calls, c.Ran next := by
  rw [outputRun]
  suffices h : ∀ st : TelnetWire × ℕ, (∀ c ∈ st.1.calls, c.Ran next) →
      ∀ c ∈ (ops.foldl (outputStep next cfg) st).1.calls, c.Ran next from
    h (.start, 0) (by simp [TelnetWire.start])
  induction ops with
  | nil => exact fun st h => h
  | cons op ops ih =>
    intro st h
    rw [List.foldl_cons]
    apply ih
    cases op with
    | text paused text => exact sessionWrite_keeps cfg (telnetWrite_ran next) paused st.2 text h
    | raw data => exact sessionWriteTransport_keeps (telnetWrite_ran next) data h

/-- Whatever texts are written and input is echoed: a write that returns OK has put exactly its bytes on the wire if
and only if it is clean. -/
theorem write_exact_iff (ops : List OutputOp) :
    ∀ c ∈ (outputRun next cfg ops).calls, c.rc = .ok → (c.Exact ↔ c.Clean next) :=
  fun _ hc hok => exact_iff (outputRun_ran next cfg ops _ hc) hok

end Run

theorem write_exact_seven : (⟨[], 0, [0x37], [0x37], .ok⟩ : WriteCall).Exact :=
  (write_exact_iff (fun _ => .sent) ⟨80, false⟩ [.text false (ofString "73")] _ (by decide) rfl).mpr
    ⟨fun _ _ => rfl, by decide, by decide⟩

/-- The newline of a text is put as two carriage returns and a line feed; and a byte 255 that is echoed stays single. -/
theorem newline_put_twice :
    (∃ c ∈ (outputRun (fun _ => .sent) ⟨80, false⟩ [.text false (ofString "73\n")]).calls, c.rc = .ok ∧ ¬c.Exact) ∧
      ∃ c ∈ (outputRun (fun _ => .sent) ⟨80, false⟩ [.raw [telnetIac]]).calls, c.rc = .ok ∧ ¬c.Exact := by
  constructor
  · exact ⟨⟨ofString "73\r", 3, [nl], [cr, nl], .ok⟩, by decide, rfl, by decide⟩
  · exact ⟨⟨[], 0, [telnetIac], [telnetIac], .ok⟩, by decide, rfl, by decide⟩

end HyBBX.Telnet
