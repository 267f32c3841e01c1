import HyBBX.Broadcast.Marks

/-! A link that detaches while a sequence runs: the sequence waits for it, and the links behind it wait too. -/

namespace HyBBX.Broadcast

open HyBBX.Core HyBBX.Circuit Lib Lib.Bytes Lib.Text

/-- The states that one call after another leads to. -/
def seqStates (calls : ℕ → BroadcastService) (s : BroadcastState) : ℕ → BroadcastState
  | 0 => s
  | n + 1 => (broadcastAx25SeqAdvance (calls n) (seqStates calls s n)).1

/-- The sequence runs and has waited long enough. -/
def SeqWakes (svc : BroadcastService) (s : BroadcastState) : Prop :=
  s.seq.active = true ∧ seqDue s svc.clock.checked = true

def seqLink (s : BroadcastState) : Option BroadcastLink := s.seq.links[s.seq.nextIndex]?

/-- The call takes the sequence to its next link, or ends it. -/
def SeqAdvances (svc : BroadcastService) (s : BroadcastState) : Prop :=
  s.seq.nextIndex < (broadcastAx25SeqAdvance svc s).1.seq.nextIndex ∨
    (broadcastAx25SeqAdvance svc s).1.seq.active = false

/-- A link that is there, idle, meant for broadcasts, and that takes the frame or fails for good. -/
structure LinkTakes (svc : BroadcastService) (hub : BroadcastHub) (i : Fin circuitMaxLinks) : Prop where
  qualifies : hub.qualifies i = true
  named : (hub.slots i).linkId ≠ []
  idle : circuitHubLinkBandIdle hub i svc.clock.checked broadcastAx25BandIdleSec = true
  priority : circuitSlotCanSendLowPrio hub (hub.slots i) = true
  free : (hub.slots i).sendRc ≠ .errBusy
  allowed : (hub.slots i).sendRc ≠ .errDenied

/-- The link whose turn it is has no frequency, or takes the frame. -/
def LinkPassable (svc : BroadcastService) (s : BroadcastState) : Prop :=
  ∀ hub link, runningHub svc = some hub → seqLink s = some link → link.frequencyMhz ≤ 0 ∨
    LinkTakes svc hub link.slotIndex

/-- The link has its turn: it is skipped for want of a frequency, the frame goes out to it, or sending fails for good. -/
def LinkServed (svc : BroadcastService) (s : BroadcastState) (link : BroadcastLink) : Prop :=
  SeqWakes svc s ∧ seqLink s = some link ∧
    (link.frequencyMhz ≤ 0 ∨ link.slotIndex ∈ (broadcastAx25SeqAdvance svc s).2 ∨
      (broadcastAx25SendSlot svc s link.slotIndex s.seq.message false).rc ∉
        [HybbxResult.ok, .errBusy, .errDenied])

/-- A clock that starts behind zero, never steps back, and is read again and again. -/
structure Ticking (calls : ℕ → BroadcastService) : Prop where
  positive : ∀ n, 0 < (calls n).clock.checked
  steady : ∀ n, (calls n).clock.checked ≤ (calls (n + 1)).clock.checked
  dense : ∀ n, (calls (n + 1)).clock.checked ≤ (calls n).clock.checked + 2 ^ 31
  unbounded : ∀ t, ∃ n, t ≤ (calls n).clock.checked

section Step

variable {svc : BroadcastService} {s : BroadcastState} {hub : BroadcastHub} {link : BroadcastLink}

lemma seqNext_nextIndex (s : BroadcastState) (now : ℤ) : (s.seqNext now).seq.nextIndex = s.seq.nextIndex + 1 := by
  rw [BroadcastState.seqNext]
  split_ifs <;> rfl

lemma seqNext_links (s : BroadcastState) (now : ℤ) : (s.seqNext now).seq.links = s.seq.links := by
  rw [BroadcastState.seqNext]
  split_ifs <;> rfl

lemma seqNext_active (s : BroadcastState) (now : ℤ) (h : s.seq.active = true) :
    (s.seqNext now).seq.active = true ↔ s.seq.nextIndex + 1 < s.seq.links.length := by
  rw [BroadcastState.seqNext]
  split_ifs with hlt
  · exact ⟨fun _ => hlt, fun _ => h⟩
  · exact ⟨fun hact => absurd hact Bool.false_ne_true, fun hh => absurd hh hlt⟩

lemma stopped_of_noHub (h : runningHub svc = none) : (broadcastAx25SeqAdvance svc s).1.seq.active = false := by
  rw [broadcastAx25SeqAdvance]
  split_ifs with hact
  · exact hact
  · rw [h]
    rfl

lemma unchanged_of_early (hhub : runningHub svc = some hub) (h : seqDue s svc.clock.checked = false) :
    broadcastAx25SeqAdvance svc s = (s, []) := by
  rw [broadcastAx25SeqAdvance]
  split_ifs
  · rfl
  · rw [hhub]
    exact if_pos h

lemma advance_skip (hwakes : SeqWakes svc s) (hhub : runningHub svc = some hub) (hlink : seqLink s = some link)
    (hmhz : link.frequencyMhz ≤ 0) : broadcastAx25SeqAdvance svc s = (s.seqNext svc.clock.checked, []) := by
  rw [seqLink] at hlink
  simp only [broadcastAx25SeqAdvance, hwakes.1, Bool.true_eq_false, if_false, hhub, hwakes.2, hlink, if_pos hmhz]

lemma advance_busy (hwakes : SeqWakes svc s) (hhub : runningHub svc = some hub) (hlink : seqLink s = some link)
    (hmhz : 0 < link.frequencyMhz)
    (hidle : circuitHubLinkBandIdle hub link.slotIndex svc.clock.checked broadcastAx25BandIdleSec = false) :
    broadcastAx25SeqAdvance svc s = (broadcastAx25SeqDeferUntil svc s
      (circuitHubLinkBandReadyAt hub link.slotIndex svc.clock.checked broadcastAx25BandIdleSec), []) := by
  rw [seqLink] at hlink
  simp only [broadcastAx25SeqAdvance, hwakes.1, Bool.true_eq_false, if_false, hhub, hwakes.2, hlink,
    if_neg (not_le.mpr hmhz), if_pos hidle]

lemma advance_early (hwakes : SeqWakes svc s) (hhub : runningHub svc = some hub) (hlink : seqLink s = some link)
    (hmhz : 0 < link.frequencyMhz) (htakes : LinkTakes svc hub link.slotIndex)
    (hrate : broadcastAx25LinkRateOk s link.slotIndex svc.clock.checked broadcastAx25LinkMinSec = false) :
    broadcastAx25SeqAdvance svc s =
      (broadcastAx25SeqDeferUntil svc s (svc.clock.checked + broadcastAx25DeferRetrySec), []) := by
  rw [seqLink] at hlink
  simp only [broadcastAx25SeqAdvance, hwakes.1, Bool.true_eq_false, if_false, hhub, hwakes.2, hlink,
    if_neg (not_le.mpr hmhz), htakes.idle, if_pos hrate]

lemma advance_send (hwakes : SeqWakes svc s) (hhub : runningHub svc = some hub) (hlink : seqLink s = some link)
    (hmhz : 0 < link.frequencyMhz) (htakes : LinkTakes svc hub link.slotIndex)
    (hrate : broadcastAx25LinkRateOk s link.slotIndex svc.clock.checked broadcastAx25LinkMinSec = true)
    {out : BroadcastOutcome} (hout : broadcastAx25SendSlot svc s link.slotIndex s.seq.message false = out)
    (hbusy : out.rc ≠ .errBusy) (hdenied : out.rc ≠ .errDenied) :
    broadcastAx25SeqAdvance svc s = (out.state.seqNext svc.clock.checked, out.sent) := by
  rw [seqLink] at hlink
  simp only [broadcastAx25SeqAdvance, hwakes.1, Bool.true_eq_false, if_false, hhub, hwakes.2, hlink,
    if_neg (not_le.mpr hmhz), htakes.idle, hrate, hout]

lemma checked_ne (hwakes : SeqWakes svc s) : svc.clock.checked ≠ -1 := by
  intro h
  have hdue := hwakes.2
  rw [seqDue, h] at hdue
  cases hdue

/-- A link that is gone looks like a busy one: the sequence waits, however often it is called. -/
lemma gone_waits (hwakes : SeqWakes svc s) (hhub : runningHub svc = some hub) (hlink : seqLink s = some link)
    (hmhz : 0 < link.frequencyMhz) (hgone : (hub.slots link.slotIndex).active = false) :
    broadcastAx25SeqAdvance svc s =
      (s.setSeq { s.seq with resumeAt := svc.clock.checked + broadcastAx25DeferRetrySec }, []) := by
  have hidle : circuitHubLinkBandIdle hub link.slotIndex svc.clock.checked broadcastAx25BandIdleSec = false :=
    if_pos (.inl hgone)
  have hready : circuitHubLinkBandReadyAt hub link.slotIndex svc.clock.checked broadcastAx25BandIdleSec = -1 :=
    if_pos (.inl hgone)
  rw [advance_busy hwakes hhub hlink hmhz hidle, hready, broadcastAx25SeqDeferUntil]
  simp only [ne_eq, checked_ne hwakes, not_false_eq_true, true_or, and_self, if_true]

lemma gone_advances_iff (hwakes : SeqWakes svc s) (hlink : seqLink s = some link)
    (hgone : ∀ hub, runningHub svc = some hub → (hub.slots link.slotIndex).active = false) :
    SeqAdvances svc s ↔ runningHub svc = none ∨ link.frequencyMhz ≤ 0 := by
  cases hhub : runningHub svc with
  | none => exact ⟨fun _ => .inl rfl, fun _ => .inr (stopped_of_noHub hhub)⟩
  | some hub =>
    by_cases hmhz : link.frequencyMhz ≤ 0
    · refine ⟨fun _ => .inr hmhz, fun _ => .inl ?_⟩
      rw [advance_skip hwakes hhub hlink hmhz, seqNext_nextIndex]
      exact Nat.lt_succ_self _
    · refine ⟨fun hadv => ?_, fun h => absurd (h.resolve_left (by simp)) hmhz⟩
      rw [SeqAdvances, gone_waits hwakes hhub hlink (not_le.mp hmhz) (hgone hub hhub)] at hadv
      rcases hadv with hlt | hstop
      · exact absurd hlt (lt_irrefl _)
      · exact absurd (hwakes.1.symm.trans hstop) (by simp)

lemma broadcastFrame_error {cfg : BroadcastConfig} {message frameBuf : Bytes} {rc : HybbxResult}
    (h : broadcastFrame cfg message frameBuf = .error rc) : rc = .errInvalid ∨ rc = .errIo := by
  rw [broadcastFrame] at h
  cases hpath : broadcastBuildPath cfg with
  | error rc' =>
    rw [hpath] at h
    obtain rfl := Except.error.inj h
    rw [broadcastBuildPath] at hpath
    dsimp only at hpath
    split at hpath
    · exact .inl (Except.error.inj hpath).symm
    · split at hpath
      · exact .inl (Except.error.inj hpath).symm
      · cases hpath
  | ok path =>
    rw [hpath] at h
    dsimp only at h
    split at h
    · exact .inr (Except.error.inj h).symm
    · split at h
      · exact .inr (Except.error.inj h).symm
      · cases h

lemma sendSlot_takes (hhub : runningHub svc = some hub) {i : Fin circuitMaxLinks} (htakes : LinkTakes svc hub i)
    {message : Bytes} {out : BroadcastOutcome} (hout : broadcastAx25SendSlot svc s i message false = out) :
    out.rc ≠ .errBusy ∧ out.rc ≠ .errDenied ∧ (out.rc = .ok → out.sent = [i]) := by
  have hlisted : ¬∀ l ∈ (circuitHubBroadcastLinks hub).find? (·.slotIndex = i), l.linkId = [] := by
    have hmem : hub.link i ∈ circuitHubBroadcastLinks hub := mem_broadcastLinks.mpr ⟨i, htakes.qualifies, rfl⟩
    intro hall
    cases hfind : (circuitHubBroadcastLinks hub).find? (·.slotIndex = i) with
    | none => exact absurd (List.find?_eq_none.mp hfind _ hmem) (by simp [BroadcastHub.link])
    | some l =>
      obtain ⟨j, -, hj⟩ := mem_broadcastLinks.mp (List.mem_of_find?_eq_some hfind)
      have hslot := List.find?_some hfind
      rw [← hj] at hslot
      obtain rfl : j = i := of_decide_eq_true hslot
      exact htakes.named (by simpa [← hj, BroadcastHub.link] using hall l hfind)
  have hqos : circuitHubLinkBroadcastQos hub = true := by
    have hq := htakes.qualifies
    rw [BroadcastHub.qualifies] at hq
    simp only [Bool.and_eq_true] at hq
    exact List.any_eq_true.mpr ⟨i, List.mem_finRange i, by simp [hq.1.1, hq.2]⟩
  rw [broadcastAx25SendSlot, hhub] at hout
  subst hout
  by_cases hnone : message = []
  · rw [if_pos hnone]
    exact ⟨by simp, by simp, by simp⟩
  rw [if_neg hnone]
  by_cases hoff : svc.cfg.enabled = false ∨ svc.cfg.ax25Enabled = false
  · rw [if_pos hoff]
    exact ⟨by simp, by simp, by simp⟩
  rw [if_neg hoff]
  dsimp only
  rw [if_neg hlisted, htakes.idle, if_neg (by simp), Bool.false_and, if_neg (by simp)]
  by_cases hlong : broadcastAx25MessageMax < message.length
  · rw [if_pos hlong]
    exact ⟨by simp, by simp, by simp⟩
  rw [if_neg hlong, hqos, if_neg (by simp)]
  cases hframe : broadcastFrame svc.cfg message svc.frameBuf with
  | error rc =>
    have hfails := broadcastFrame_error hframe
    dsimp only
    refine ⟨fun h => ?_, fun h => ?_, fun h => ?_⟩ <;> · rw [h] at hfails; simp at hfails
  | ok frame =>
    have hsend : circuitHubSendHbxSlot hub i frame = (hub.slots i).sendRc := by
      rw [circuitHubSendHbxSlot, htakes.qualifies, if_neg (by simp), htakes.priority, Bool.not_true, Bool.and_false,
        if_neg (by simp)]
    dsimp only
    rw [hsend]
    by_cases hok : (hub.slots i).sendRc = .ok
    · rw [if_neg (not_not.mpr hok)]
      exact ⟨by simp, by simp, fun _ => rfl⟩
    · rw [if_pos hok]
      exact ⟨htakes.free, htakes.allowed, fun h => absurd h hok⟩

structure TurnTaken (svc : BroadcastService) (s : BroadcastState) (link : BroadcastLink) : Prop where
  served : LinkServed svc s link
  index : (broadcastAx25SeqAdvance svc s).1.seq.nextIndex = s.seq.nextIndex + 1
  links : (broadcastAx25SeqAdvance svc s).1.seq.links = s.seq.links
  active : (broadcastAx25SeqAdvance svc s).1.seq.active = true ↔ s.seq.nextIndex + 1 < s.seq.links.length

lemma setSeq_seq (s : BroadcastState) (seq : BroadcastAx25Seq) : (s.setSeq seq).seq = seq := rfl

lemma stopped_behind_end (hwakes : SeqWakes svc s) (hhub : runningHub svc = some hub) (hlink : seqLink s = none) :
    (broadcastAx25SeqAdvance svc s).1.seq.active = false := by
  rw [seqLink] at hlink
  simp only [broadcastAx25SeqAdvance, hwakes.1, Bool.true_eq_false, if_false, hhub, hwakes.2, hlink]
  rfl

/-- A due call ends the turn of a passable link unless the link has sent too recently. -/
lemma turn_or_early (hwakes : SeqWakes svc s) (hhub : runningHub svc = some hub) (hlink : seqLink s = some link)
    (hpass : LinkPassable svc s) : TurnTaken svc s link ∨
      broadcastAx25LinkRateOk s link.slotIndex svc.clock.checked broadcastAx25LinkMinSec = false ∧
        (broadcastAx25SeqAdvance svc s).1 =
          s.setSeq { s.seq with resumeAt := svc.clock.checked + broadcastAx25DeferRetrySec } := by
  by_cases hmhz : link.frequencyMhz ≤ 0
  · have he := advance_skip hwakes hhub hlink hmhz
    refine .inl ⟨⟨hwakes, hlink, .inl hmhz⟩, ?_, ?_, ?_⟩
    · rw [he, seqNext_nextIndex]
    · rw [he, seqNext_links]
    · rw [he, seqNext_active _ _ hwakes.1]
  have htakes := (hpass hub link hhub hlink).resolve_left hmhz
  cases hrate : broadcastAx25LinkRateOk s link.slotIndex svc.clock.checked broadcastAx25LinkMinSec with
  | false =>
    refine .inr ⟨rfl, ?_⟩
    rw [advance_early hwakes hhub hlink (not_le.mp hmhz) htakes hrate, broadcastAx25SeqDeferUntil]
    dsimp only
    rw [ite_self]
  | true =>
    obtain ⟨out, hout⟩ : ∃ out, broadcastAx25SendSlot svc s link.slotIndex s.seq.message false = out := ⟨_, rfl⟩
    obtain ⟨hbusy, hdenied, hok⟩ := sendSlot_takes hhub htakes hout
    have he := advance_send hwakes hhub hlink (not_le.mp hmhz) htakes hrate hout hbusy hdenied
    have hseq : out.state.seq = s.seq := by
      rcases sendSlot_cases hout with ⟨hs, -⟩ | ⟨hs, -⟩
      · rw [hs]
      · rw [hs, broadcastAx25MarkLinkSent]
        split_ifs <;> rfl
    refine .inl ⟨⟨hwakes, hlink, .inr ?_⟩, ?_, ?_, ?_⟩
    · rw [he, hout]
      by_cases hrc : out.rc = .ok
      · rw [hok hrc]
        exact .inl (List.mem_singleton.mpr rfl)
      · exact .inr (by simp [hrc, hbusy, hdenied])
    · rw [he, seqNext_nextIndex, hseq]
    · rw [he, seqNext_links, hseq]
    · rw [he, seqNext_active _ _ (hseq ▸ hwakes.1), hseq]

end Step

section Run

variable {calls : ℕ → BroadcastService} {s : BroadcastState}

lemma Ticking.mono (ht : Ticking calls) {m n : ℕ} (h : m ≤ n) : (calls m).clock.checked ≤ (calls n).clock.checked :=
  monotone_nat_of_le_succ ht.steady h

/-- The next call that is due: the clock stands at the time waited for, and not far behind it. -/
lemma next_wake (ht : Ticking calls) (hhub : ∀ n, runningHub (calls n) ≠ none) {n : ℕ}
    (hactive : (seqStates calls s n).seq.active = true) :
    ∃ m, n ≤ m ∧ seqStates calls s m = seqStates calls s n ∧ SeqWakes (calls m) (seqStates calls s m) ∧
      ((calls m).clock.checked = (calls n).clock.checked ∨
        (calls m).clock.checked < (seqStates calls s n).seq.resumeAt + 2 ^ 31) := by
  have hlater : ∃ k, seqDue (seqStates calls s n) (calls (n + k)).clock.checked = true := by
    obtain ⟨k, hk⟩ := ht.unbounded (seqStates calls s n).seq.resumeAt
    refine ⟨k, ?_⟩
    have hpos := ht.positive (n + k)
    have hge := ht.mono (Nat.le_add_left k n)
    simp only [seqDue, Bool.and_eq_true, Bool.or_eq_true, decide_eq_true_eq, ne_eq]
    omega
  have hsame : ∀ k, k ≤ Nat.find hlater → seqStates calls s (n + k) = seqStates calls s n := by
    intro k
    induction k with
    | zero => exact fun _ => rfl
    | succ k ih =>
      intro hk
      have hearly := Nat.find_min hlater (Nat.lt_of_succ_le hk)
      obtain ⟨hub, hrun⟩ := Option.ne_none_iff_exists'.mp (hhub (n + k))
      rw [← Nat.add_assoc, seqStates, ih (Nat.le_of_succ_le hk), unchanged_of_early hrun (by simpa using hearly)]
  have hdue := Nat.find_spec hlater
  have hlast := hsame _ le_rfl
  refine ⟨n + Nat.find hlater, Nat.le_add_right n _, hlast,
    ⟨by rw [hlast]; exact hactive, by rw [hlast]; exact hdue⟩, ?_⟩
  cases hk : Nat.find hlater with
  | zero => exact .inl rfl
  | succ k =>
    have hearly := Nat.find_min hlater (show k < Nat.find hlater by omega)
    have hpos := ht.positive (n + k)
    have hdense := ht.dense (n + k)
    simp only [seqDue, Bool.and_eq_true, Bool.or_eq_true, decide_eq_true_eq, ne_eq] at hearly
    rw [← Nat.add_assoc]
    omega

/-- Between two calls that come too early for a link, the time since its last frame has grown. -/
lemma rateOk_later {last now later : ℤ} (hnow : 0 < now) (hlater : now + 30 ≤ later) (hsoon : later ≤ now + 30 + 2 ^ 31)
    (h : rateOk last now broadcastAx25LinkMinSec = false) (h' : rateOk last later broadcastAx25LinkMinSec = false) :
    (now - last) % 2 ^ 32 + 30 ≤ (later - last) % 2 ^ 32 ∧ (later - last) % 2 ^ 32 < 900 := by
  have hmin : (broadcastAx25LinkMinSec : ℤ) = 900 := rfl
  have hcases : ∀ {t : ℤ}, 0 < t → rateOk last t broadcastAx25LinkMinSec = false → (t - last) % 2 ^ 32 < 900 := by
    intro t ht hr
    simp only [rateOk, hmin] at hr
    split_ifs at hr
    · omega
    · simpa using hr
  have hx := hcases hnow h
  have hy := hcases (by omega) h'
  omega

/-- A passable link has its turn after a few calls that come too early for it. -/
lemma turn_comes (ht : Ticking calls) (hhub : ∀ n, runningHub (calls n) ≠ none)
    (hpass : ∀ n, SeqWakes (calls n) (seqStates calls s n) → LinkPassable (calls n) (seqStates calls s n))
    {link : BroadcastLink}
    (k n : ℕ) (hwakes : SeqWakes (calls n) (seqStates calls s n)) (hlink : seqLink (seqStates calls s n) = some link)
    (hk : 900 ≤ ((calls n).clock.checked - (seqStates calls s n).linkLastSent link.slotIndex) % 2 ^ 32 + 30 * k) :
    ∃ m, n ≤ m ∧ (seqStates calls s m).seq.nextIndex = (seqStates calls s n).seq.nextIndex ∧
      (seqStates calls s m).seq.links = (seqStates calls s n).seq.links ∧ TurnTaken (calls m)
          (seqStates calls s m) link := by
  induction k generalizing n with
  | zero =>
    obtain ⟨hub, hrun⟩ := Option.ne_none_iff_exists'.mp (hhub n)
    rcases turn_or_early hwakes hrun hlink (hpass n hwakes) with hturn | ⟨hrate, -⟩
    · exact ⟨n, le_rfl, rfl, rfl, hturn⟩
    · have hok : broadcastAx25LinkRateOk (seqStates calls s n) link.slotIndex (calls n).clock.checked
          broadcastAx25LinkMinSec = true := by
        have hmin : (broadcastAx25LinkMinSec : ℤ) = 900 := rfl
        simp only [broadcastAx25LinkRateOk, rateOk, hmin]
        split_ifs with _ hclock
        · rfl
        · exact absurd hclock (checked_ne hwakes)
        · rfl
        · simpa using hk
      exact absurd (hrate.symm.trans hok) (by simp)
  | succ k ih =>
    obtain ⟨hub, hrun⟩ := Option.ne_none_iff_exists'.mp (hhub n)
    rcases turn_or_early hwakes hrun hlink (hpass n hwakes) with hturn | ⟨hrate, he⟩
    · exact ⟨n, le_rfl, rfl, rfl, hturn⟩
    have hnext : seqStates calls s (n + 1) = (seqStates calls s n).setSeq { (seqStates calls s n).seq with
        resumeAt := (calls n).clock.checked + broadcastAx25DeferRetrySec } := he
    obtain ⟨m, hm, hsame, hwakes', hsoon⟩ := @next_wake calls s ht hhub (n + 1) (by rw [hnext]; exact hwakes.1)
    have hsame' := hsame.trans hnext
    have hlink' : seqLink (seqStates calls s m) = some link := by
      rw [hsame']
      exact hlink
    have hretry : (broadcastAx25DeferRetrySec : ℤ) = 30 := rfl
    have hlater : (calls n).clock.checked + 30 ≤ (calls m).clock.checked := by
      have hdue := hwakes'.2
      have hpos := ht.positive n
      rw [hsame'] at hdue
      simp only [seqDue, setSeq_seq, Bool.and_eq_true, Bool.or_eq_true, decide_eq_true_eq, hretry] at hdue
      omega
    have hnear : (calls m).clock.checked ≤ (calls n).clock.checked + 30 + 2 ^ 31 := by
      have hdense := ht.dense n
      rw [hnext, setSeq_seq] at hsoon
      dsimp only at hsoon
      omega
    obtain ⟨hub', hrun'⟩ := Option.ne_none_iff_exists'.mp (hhub m)
    rcases turn_or_early hwakes' hrun' hlink' (hpass m hwakes') with hturn | ⟨hrate', -⟩
    · refine ⟨m, (Nat.le_succ n).trans hm, ?_, ?_, hturn⟩
      · rw [hsame', setSeq_seq]
      · rw [hsame', setSeq_seq]
    have hlast : (seqStates calls s m).linkLastSent = (seqStates calls s n).linkLastSent := by
      rw [hsame', setSeq_linkLastSent]
    rw [broadcastAx25LinkRateOk, hlast] at hrate'
    obtain ⟨hgrown, -⟩ := rateOk_later (ht.positive n) hlater hnear hrate hrate'
    obtain ⟨j, hj, hindex, hlinks, hturn⟩ := ih m hwakes' hlink' (by rw [hlast]; push_cast at hk; omega)
    refine ⟨j, (Nat.le_succ n).trans (hm.trans hj), ?_, ?_, hturn⟩
    · rw [hindex, hsame', setSeq_seq]
    · rw [hlinks, hsame', setSeq_seq]

/-- Every link of the rest of the sequence has its turn before the sequence ends. -/
def RestServed (calls : ℕ → BroadcastService) (s : BroadcastState) (n : ℕ) : Prop :=
  ∃ m, n ≤ m ∧ (seqStates calls s m).seq.active = false ∧ ∀ j link, (seqStates calls s n).seq.nextIndex ≤ j →
    (seqStates calls s n).seq.links[j]? = some link →
      ∃ k, n ≤ k ∧ k < m ∧ (seqStates calls s k).seq.nextIndex = j ∧ LinkServed (calls k) (seqStates calls s k) link

lemma rest_served (ht : Ticking calls) (hhub : ∀ n, runningHub (calls n) ≠ none)
    (hpass : ∀ n, SeqWakes (calls n) (seqStates calls s n) → LinkPassable (calls n) (seqStates calls s n)) (d n : ℕ)
    (hactive : (seqStates calls s n).seq.active = true)
    (hd : (seqStates calls s n).seq.links.length ≤ (seqStates calls s n).seq.nextIndex + d) : RestServed calls s n := by
  induction d generalizing n with
  | zero =>
    obtain ⟨m, hm, hsame, hwakes, -⟩ := next_wake ht hhub hactive
    obtain ⟨hub, hrun⟩ := Option.ne_none_iff_exists'.mp (hhub m)
    have hnone : seqLink (seqStates calls s m) = none := by
      rw [hsame, seqLink]
      exact List.getElem?_eq_none hd
    refine ⟨m + 1, hm.trans (Nat.le_succ m), stopped_behind_end hwakes hrun hnone, fun j link hj hl => ?_⟩
    obtain ⟨hlt, -⟩ := List.getElem?_eq_some_iff.mp hl
    omega
  | succ d ih =>
    obtain ⟨m, hm, hsame, hwakes, -⟩ := next_wake ht hhub hactive
    cases hlink : seqLink (seqStates calls s m) with
    | none =>
      obtain ⟨hub, hrun⟩ := Option.ne_none_iff_exists'.mp (hhub m)
      refine ⟨m + 1, hm.trans (Nat.le_succ m), stopped_behind_end hwakes hrun hlink, fun j link hj hl => ?_⟩
      rw [hsame, seqLink] at hlink
      have hlen := List.getElem?_eq_none_iff.mp hlink
      obtain ⟨hlt, -⟩ := List.getElem?_eq_some_iff.mp hl
      omega
    | some link =>
      have hfew : 900 ≤ ((calls m).clock.checked - (seqStates calls s m).linkLastSent link.slotIndex) % 2 ^ 32 +
          30 * ((30 : ℕ) : ℤ) := by
        have hpos := Int.emod_nonneg ((calls m).clock.checked - (seqStates calls s m).linkLastSent link.slotIndex)
          (show (2 ^ 32 : ℤ) ≠ 0 by decide)
        push_cast
        omega
      obtain ⟨k, hk, hindex, hlinks, hturn⟩ := turn_comes ht hhub hpass 30 m hwakes hlink hfew
      rw [hsame] at hindex hlinks
      have hnextIndex : (seqStates calls s (k + 1)).seq.nextIndex = (seqStates calls s n).seq.nextIndex + 1 :=
        hturn.index.trans (by rw [hindex])
      have hnextLinks : (seqStates calls s (k + 1)).seq.links = (seqStates calls s n).seq.links :=
        hturn.links.trans hlinks
      have hhere : ∀ link', (seqStates calls s n).seq.links[(seqStates calls s n).seq.nextIndex]? = some link' →
          link' = link := by
        intro link' hl
        rw [hsame, seqLink, hl] at hlink
        exact Option.some.inj hlink
      cases hrest : (seqStates calls s (k + 1)).seq.active with
      | false =>
        refine ⟨k + 1, (hm.trans hk).trans (Nat.le_succ k), hrest,
          fun j link' hj hl => ⟨k, hm.trans hk, Nat.lt_succ_self k, ?_⟩⟩
        have hend : ¬(seqStates calls s n).seq.nextIndex + 1 < (seqStates calls s n).seq.links.length := by
          intro hlt
          rw [← hindex, ← hlinks] at hlt
          exact absurd (hrest.symm.trans (hturn.active.mpr hlt)) (by simp)
        obtain ⟨hlt, -⟩ := List.getElem?_eq_some_iff.mp hl
        obtain rfl : j = (seqStates calls s n).seq.nextIndex := by omega
        exact ⟨hindex, hhere link' hl ▸ hturn.served⟩
      | true =>
        obtain ⟨e, hke, he, hserved⟩ := ih (k + 1) hrest (by rw [hnextIndex, hnextLinks]; omega)
        rw [hnextIndex, hnextLinks] at hserved
        refine ⟨e, (hm.trans hk).trans (Nat.le_of_succ_le hke), he, fun j link' hj hl => ?_⟩
        rcases Nat.eq_or_lt_of_le hj with rfl | hlt
        · exact ⟨k, hm.trans hk, hke, hindex, hhere link' hl ▸ hturn.served⟩
        · obtain ⟨i, hi, hie, hij⟩ := hserved j link' hlt hl
          exact ⟨i, by omega, hie, hij⟩

end Run

/-- A call that finds the link of its turn gone gets past it exactly if the hub has stopped or the link has no
frequency. In a run of calls that find each link without a frequency, or ready for the frame, the sequence ends, and if
the hub runs all the time then behind the turn of each link. -/
theorem dead_link_iff (s : BroadcastState) (calls : ℕ → BroadcastService) :
    (∀ n link, SeqWakes (calls n) (seqStates calls s n) → seqLink (seqStates calls s n) = some link →
      (∀ hub, runningHub (calls n) = some hub → (hub.slots link.slotIndex).active = false) →
        (SeqAdvances (calls n) (seqStates calls s n) ↔ runningHub (calls n) = none ∨ link.frequencyMhz ≤ 0)) ∧
      (Ticking calls → s.seq.active = true →
        (∀ n, SeqWakes (calls n) (seqStates calls s n) → LinkPassable (calls n) (seqStates calls s n)) →
          (∃ n, (seqStates calls s n).seq.active = false) ∧
            ((∀ n, runningHub (calls n) ≠ none) → RestServed calls s 0)) := by
  refine ⟨fun n link hwakes hlink hgone => gone_advances_iff hwakes hlink hgone, fun ht hactive hpass => ?_⟩
  have hserved : (∀ n, runningHub (calls n) ≠ none) → RestServed calls s 0 := fun hhub =>
    rest_served ht hhub hpass s.seq.links.length 0 hactive (Nat.le_add_left _ _)
  refine ⟨?_, hserved⟩
  by_cases hhub : ∀ n, runningHub (calls n) ≠ none
  · obtain ⟨m, -, hstop, -⟩ := hserved hhub
    exact ⟨m, hstop⟩
  · obtain ⟨n, hn⟩ := not_forall.mp hhub
    exact ⟨n + 1, stopped_of_noHub (not_not.mp hn)⟩

lemma circuitMaxLinks_pos : 0 < circuitMaxLinks := by decide

def firstSlot : Fin circuitMaxLinks := ⟨0, circuitMaxLinks_pos⟩
def secondSlot : Fin circuitMaxLinks := ⟨1, by decide⟩

/-- Two idle links that are ready for broadcasts; the first one is still there or has detached. -/
def pairHub (attached : Bool) : BroadcastHub where
  running := true
  balanceEnabled := true
  bridge := []
  slots i := if i = secondSlot ∨ i = firstSlot ∧ attached = true
    then ⟨1, true, true, ofString "EDGE", true, true, true, 145, 0, none, .ok⟩
    else ⟨0, false, false, [], false, false, false, 0, 0, none, .errDenied⟩

def pairSequence : BroadcastState :=
  broadcastStart.setSeq ⟨true, [⟨144, firstSlot, ofString "EDGE"⟩, ⟨145, secondSlot, ofString "EDGE"⟩], 0,
    ofString "CQ", 0⟩

/-- A call every 30 seconds. -/
def pairCalls (attached : Bool) (n : ℕ) : BroadcastService where
  cfg := broadcastConfigDefaults
  name := []
  hub := some (pairHub attached)
  clock := ⟨1000 + 30 * n, 1000 + 30 * n, 1000 + 30 * n⟩
  frameBuf := List.replicate circuitMaxFrame 0

lemma pairCalls_ticking (attached : Bool) : Ticking (pairCalls attached) := by
  refine ⟨fun n => ?_, fun n => ?_, fun n => ?_, fun t => ⟨t.toNat, ?_⟩⟩ <;> simp only [pairCalls]
  · omega
  · omega
  · omega
  · omega

lemma pairHub_takes {attached : Bool} {i : Fin circuitMaxLinks} (h : i = secondSlot ∨ i = firstSlot ∧ attached = true)
    (n : ℕ) : LinkTakes (pairCalls attached n) (pairHub attached) i := by
  have hslot : (pairHub attached).slots i = ⟨1, true, true, ofString "EDGE", true, true, true, 145, 0, none, .ok⟩ :=
    if_pos h
  refine ⟨?_, ?_, ?_, ?_, ?_, ?_⟩
  · rw [BroadcastHub.qualifies, hslot]
    rfl
  · rw [hslot]
    decide
  · rw [circuitHubLinkBandIdle, hslot]
    rfl
  · rw [hslot]
    rfl
  · rw [hslot]
    simp
  · rw [hslot]
    simp

lemma advance_links (svc : BroadcastService) (s : BroadcastState) :
    (broadcastAx25SeqAdvance svc s).1.seq.links = s.seq.links := by
  rw [broadcastAx25SeqAdvance]
  split
  · rfl
  split
  · rfl
  dsimp only
  split
  · rfl
  split
  · rfl
  rename_i link _
  have hout : (broadcastAx25SendSlot svc s link.slotIndex s.seq.message false).state.seq = s.seq := by
    rcases @sendSlot_cases svc s link.slotIndex s.seq.message false _ rfl with ⟨hs, -⟩ | ⟨hs, -⟩
    · rw [hs]
    · rw [hs, broadcastAx25MarkLinkSent]
      split_ifs <;> rfl
  split
  · exact seqNext_links s _
  split
  · rfl
  split
  · rfl
  split
  · change (broadcastAx25SendSlot svc s link.slotIndex s.seq.message false).state.seq.links = s.seq.links
    rw [hout]
  · change (broadcastAx25SendSlot svc s link.slotIndex s.seq.message false).state.seq.links = s.seq.links
    rw [hout]
  · rw [seqNext_links, hout]

/-- Two links that stay have their turn one behind the other. -/
theorem dead_link_iff_pair :
    (∃ n, (seqStates (pairCalls true) pairSequence n).seq.active = false) ∧
      RestServed (pairCalls true) pairSequence 0 := by
  have hsame : ∀ n, (seqStates (pairCalls true) pairSequence n).seq.links = pairSequence.seq.links := by
    intro n
    induction n with
    | zero => rfl
    | succ n ih => exact (advance_links _ _).trans ih
  have hlinks : ∀ n, ∀ link ∈ (seqStates (pairCalls true) pairSequence n).seq.links,
      link.slotIndex = secondSlot ∨ link.slotIndex = firstSlot ∧ true = true := by
    intro n
    rw [hsame n]
    simp [pairSequence, broadcastStart, setSeq_seq]
  obtain ⟨hends, hserved⟩ :=
    (dead_link_iff pairSequence (pairCalls true)).2 (pairCalls_ticking true) rfl fun n _ hub link hrun hlink =>
    .inr (by
      obtain rfl : pairHub true = hub := Option.some.inj hrun
      exact pairHub_takes (hlinks n link (List.mem_of_getElem? hlink)) n)
  exact ⟨hends, hserved fun _ => by simp [runningHub, pairCalls, pairHub]⟩

/-- The second link is idle and ready, and however many calls come it never has its turn. -/
theorem detached_link_blocks :
    Ticking (pairCalls false) ∧ (∀ n, LinkTakes (pairCalls false n) (pairHub false) secondSlot) ∧
      ∀ n, SeqWakes (pairCalls false n) (seqStates (pairCalls false) pairSequence n) ∧
        seqLink (seqStates (pairCalls false) pairSequence n) = some ⟨144, firstSlot, ofString "EDGE"⟩ ∧
        ((pairHub false).slots firstSlot).active = false ∧
        ¬SeqAdvances (pairCalls false n) (seqStates (pairCalls false) pairSequence n) := by
  have hgone : ((pairHub false).slots firstSlot).active = false := by decide
  have hwaits : ∀ (n : ℕ) (s : BroadcastState) (resumeAt : ℤ), resumeAt ≤ 1000 + 30 * (n : ℤ) →
      s = pairSequence.setSeq { pairSequence.seq with resumeAt := resumeAt } → SeqWakes (pairCalls false n) s := by
    rintro n s resumeAt hle rfl
    refine ⟨rfl, ?_⟩
    have hclock : (1000 + 30 * (n : ℤ)) ≠ -1 := by omega
    simp [seqDue, setSeq_seq, pairCalls, hclock, hle]
  have hstates : ∀ n : ℕ, ∃ resumeAt ≤ 1000 + 30 * (n : ℤ), seqStates (pairCalls false) pairSequence n =
      pairSequence.setSeq { pairSequence.seq with resumeAt := resumeAt } := by
    intro n
    induction n with
    | zero => exact ⟨0, by decide, rfl⟩
    | succ n ih =>
      obtain ⟨resumeAt, hle, he⟩ := ih
      refine ⟨1000 + 30 * n + 30, by push_cast; omega, ?_⟩
      rw [seqStates, gone_waits (hwaits n _ resumeAt hle he) rfl (by rw [he]; rfl) (by norm_num) hgone, he]
      rfl
  refine ⟨pairCalls_ticking false, pairHub_takes (.inl rfl), fun n => ?_⟩
  obtain ⟨resumeAt, hle, he⟩ := hstates n
  have hlink : seqLink (seqStates (pairCalls false) pairSequence n) = some ⟨144, firstSlot, ofString "EDGE"⟩ := by
    rw [he]
    rfl
  have hwakes := hwaits n _ resumeAt hle he
  refine ⟨hwakes, hlink, hgone, fun hadv => ?_⟩
  have hcond := (gone_advances_iff hwakes hlink fun hub hrun => by
    obtain rfl : pairHub false = hub := Option.some.inj hrun
    exact hgone).mp hadv
  rcases hcond with hnone | hmhz
  · exact absurd hnone (by simp [runningHub, pairCalls, pairHub])
  · exact absurd hmhz (by norm_num)

end HyBBX.Broadcast
