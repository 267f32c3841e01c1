import HyBBX.Broadcast.Ax25

/-! What each call transmits, and which stamps it leaves. -/

namespace HyBBX.Broadcast

open HyBBX.Core HyBBX.Circuit Lib Lib.Bytes

/-- Every transmission is written down for all links, and with `stamped` for its own link too. -/
structure Marks (s s' : BroadcastState) (now : ℤ) (sent : List (Fin circuitMaxLinks)) (stamped : Prop) : Prop where
  last : s'.lastSent = s.lastSent ∨ s'.lastSent = now
  link : ∀ i, s'.linkLastSent i = s.linkLastSent i ∨ s'.linkLastSent i = now
  lastSent : sent ≠ [] → s'.lastSent = now
  linkSent : stamped → ∀ i ∈ sent, s'.linkLastSent i = now

section

variable {s s' : BroadcastState} {now : ℤ} {stamped : Prop}

lemma Marks.of_eq (hl : s'.lastSent = s.lastSent) (hi : s'.linkLastSent = s.linkLastSent) : Marks s s' now [] stamped :=
  ⟨.inl hl, fun i => .inl (by rw [hi]), fun h => absurd rfl h, fun _ _ h => absurd h List.not_mem_nil⟩

lemma Marks.refl (s : BroadcastState) : Marks s s now [] stamped := .of_eq rfl rfl

/-- The sequence itself is not among the stamps. -/
lemma Marks.congr {sent : List (Fin circuitMaxLinks)} {u u' : BroadcastState} (h : Marks s s' now sent stamped)
    (hl : u.lastSent = s.lastSent) (hi : u.linkLastSent = s.linkLastSent) (hl' : u'.lastSent = s'.lastSent)
    (hi' : u'.linkLastSent = s'.linkLastSent) : Marks u u' now sent stamped := by
  refine ⟨?_, ?_, ?_, ?_⟩
  · rw [hl, hl']
    exact h.last
  · rw [hi, hi']
    exact h.link
  · rw [hl']
    exact h.lastSent
  · rw [hi']
    exact h.linkSent

lemma markSent_marks (hn : now ≠ -1) (hs : ¬stamped) (sent : List (Fin circuitMaxLinks)) :
    Marks s (broadcastAx25MarkSent s now) now sent stamped := by
  rw [broadcastAx25MarkSent, if_neg hn]
  exact ⟨.inr rfl, fun _ => .inl rfl, fun _ => rfl, fun h => absurd h hs⟩

lemma markLinkSent_marks (hn : now ≠ -1) (i : Fin circuitMaxLinks) :
    Marks s (broadcastAx25MarkLinkSent s i now) now [i] stamped := by
  rw [broadcastAx25MarkLinkSent, if_neg hn]
  refine ⟨.inr rfl, fun j => ?_, fun _ => rfl, fun _ j hj => ?_⟩
  · by_cases hj : j = i
    · right
      rw [hj]
      exact Function.update_self i _ _
    · left
      exact Function.update_of_ne hj _ _
  · rw [List.mem_singleton.mp hj]
    exact Function.update_self i _ _

lemma Marks.trans {s'' : BroadcastState} {xs ys : List (Fin circuitMaxLinks)} (h : Marks s s' now xs stamped)
    (h' : Marks s' s'' now ys stamped) : Marks s s'' now (xs ++ ys) stamped := by
  refine ⟨?_, fun i => ?_, fun hne => ?_, fun hs i hi => ?_⟩
  · rcases h'.last with he | he
    · rw [he]
      exact h.last
    · exact .inr he
  · rcases h'.link i with he | he
    · rw [he]
      exact h.link i
    · exact .inr he
  · rcases h'.last with he | he
    · by_cases hy : ys = []
      · rw [he]
        exact h.lastSent (by simpa [hy] using hne)
      · exact h'.lastSent hy
    · exact he
  · rcases h'.link i with he | he
    · rcases List.mem_append.mp hi with hx | hy
      · rw [he]
        exact h.linkSent hs i hx
      · exact h'.linkSent hs i hy
    · exact he

lemma foldl_marks (hn : now ≠ -1) (links : List BroadcastLink) (s : BroadcastState) :
    Marks s (links.foldl (fun s l => broadcastAx25MarkLinkSent s l.slotIndex now) s) now
      (links.map BroadcastLink.slotIndex) stamped := by
  induction links generalizing s with
  | nil => exact .refl s
  | cons l links ih => exact (markLinkSent_marks hn l.slotIndex).trans (ih _)

lemma Marks.mono {sent sent' : List (Fin circuitMaxLinks)} (h : Marks s s' now sent stamped) (hsub : sent' ⊆ sent) :
    Marks s s' now sent' stamped := by
  refine ⟨h.last, h.link, fun hne => h.lastSent fun he => hne ?_, fun hs i hi => h.linkSent hs i (hsub hi)⟩
  exact List.subset_nil.mp (he ▸ hsub)

end

variable {svc : BroadcastService} {s : BroadcastState} {stamped : Prop}

/-- A broadcast is refused, or passes one of the two rate checks and goes out. -/
lemma send_cases {f : ℚ} {message : Bytes} {out : BroadcastOutcome}
    (hout : broadcastAx25Send svc s f message true = out) :
    out.state = s ∧ out.sent = [] ∨ ∃ hub frame, runningHub svc = some hub ∧
      circuitFrameIsAx25BroadcastTx frame = true ∧ out.sent = (circuitHubMulticastHbx hub frame f).2 ∧
        (0 < f → (∃ l ∈ frequencyLinks hub f,
          broadcastAx25LinkRateOk s l.slotIndex svc.clock.checked broadcastAx25LinkMinSec = true) ∧
            out.state = (frequencyLinks hub f).foldl
              (fun s l => broadcastAx25MarkLinkSent s l.slotIndex svc.clock.marked) s) ∧
        (¬0 < f → broadcastAx25RateOk s svc.clock.checked svc.cfg.ax25AutoIntervalSec = true ∧
          out.state = broadcastAx25MarkSent s svc.clock.marked) := by
  rw [broadcastAx25Send] at hout
  split at hout
  · exact .inl (hout ▸ ⟨rfl, rfl⟩)
  split at hout
  · exact .inl (hout ▸ ⟨rfl, rfl⟩)
  split at hout
  · exact .inl (hout ▸ ⟨rfl, rfl⟩)
  rename_i hub hhub
  dsimp only at hout
  split at hout
  · exact .inl (hout ▸ ⟨rfl, rfl⟩)
  rename_i hany
  split at hout
  · exact .inl (hout ▸ ⟨rfl, rfl⟩)
  rename_i hall
  split at hout
  · exact .inl (hout ▸ ⟨rfl, rfl⟩)
  split at hout
  · exact .inl (hout ▸ ⟨rfl, rfl⟩)
  split at hout
  · exact .inl (hout ▸ ⟨rfl, rfl⟩)
  rename_i frame hframe
  split at hout
  · rename_i hm
    obtain rfl := hout
    exact .inl ⟨rfl, (multicast_sent hub frame f).2.2 hm⟩
  · right
    refine ⟨hub, frame, hhub, broadcastFrame_isTx hframe, ?_⟩
    by_cases hf : 0 < f
    · rw [if_pos hf] at hout
      obtain rfl := hout
      refine ⟨rfl, fun _ => ⟨?_, rfl⟩, fun h => absurd hf h⟩
      simpa [hf] using hany
    · rw [if_neg hf] at hout
      obtain rfl := hout
      refine ⟨rfl, fun h => absurd h hf, fun _ => ⟨?_, rfl⟩⟩
      simpa [hf] using hall

lemma mem_frequencyLinks {hub : BroadcastHub} {f : ℚ} {i : Fin circuitMaxLinks} (hf : 0 < f) :
    i ∈ (frequencyLinks hub f).map BroadcastLink.slotIndex ↔ hub.qualifies i = true ∧
      frequencySelects hub f i = true := by
  have hsel : ∀ j, frequencySelects hub f j =
      (decide (0 < (hub.link j).frequencyMhz) && ax25FrequencyMatch f (hub.link j).frequencyMhz) := by
    intro j
    rw [frequencySelects, decide_eq_true hf]
    rfl
  rw [frequencyLinks, List.mem_map, hsel]
  constructor
  · rintro ⟨l, hl, rfl⟩
    obtain ⟨hmem, hs⟩ := List.mem_filter.mp hl
    obtain ⟨j, hq, rfl⟩ := mem_broadcastLinks.mp hmem
    exact ⟨hq, hs⟩
  · rintro ⟨hq, hs⟩
    exact ⟨hub.link i, List.mem_filter.mpr ⟨mem_broadcastLinks.mpr ⟨i, hq, rfl⟩, hs⟩, rfl⟩

/-- A sequence step either sends nothing or one frame, to its next link and past its checks. -/
def SeqTarget (s : BroadcastState) (hub : BroadcastHub) (now : ℤ) (i : Fin circuitMaxLinks) : Prop :=
  seqDue s now = true ∧ (∃ link ∈ s.seq.links[s.seq.nextIndex]?, link.slotIndex = i) ∧
    circuitHubLinkBandIdle hub i now broadcastAx25BandIdleSec = true ∧
      broadcastAx25LinkRateOk s i now broadcastAx25LinkMinSec = true

@[simp] lemma setSeq_lastSent (s : BroadcastState) (seq : BroadcastAx25Seq) :
    (s.setSeq seq).lastSent = s.lastSent := rfl

@[simp] lemma setSeq_linkLastSent (s : BroadcastState) (seq : BroadcastAx25Seq) :
    (s.setSeq seq).linkLastSent = s.linkLastSent := rfl

@[simp] lemma seqNext_lastSent (s : BroadcastState) (now : ℤ) : (s.seqNext now).lastSent = s.lastSent := by
  rw [BroadcastState.seqNext]
  split_ifs <;> rfl

@[simp] lemma seqNext_linkLastSent (s : BroadcastState) (now : ℤ) : (s.seqNext now).linkLastSent = s.linkLastSent := by
  rw [BroadcastState.seqNext]
  split_ifs <;> rfl

lemma sendSlot_cases {i : Fin circuitMaxLinks} {message : Bytes} {enforce : Bool} {out : BroadcastOutcome}
    (hout : broadcastAx25SendSlot svc s i message enforce = out) :
    out.state = s ∧ out.sent = [] ∨ out.state = broadcastAx25MarkLinkSent s i svc.clock.marked ∧ out.sent = [i] := by
  rw [broadcastAx25SendSlot] at hout
  split at hout
  · exact .inl (hout ▸ ⟨rfl, rfl⟩)
  split at hout
  · exact .inl (hout ▸ ⟨rfl, rfl⟩)
  split at hout
  · exact .inl (hout ▸ ⟨rfl, rfl⟩)
  -- the checks of the link, the message and the frame
  iterate 5
    split at hout
    · exact .inl (hout ▸ ⟨rfl, rfl⟩)
  split at hout
  · exact .inl (hout ▸ ⟨rfl, rfl⟩)
  dsimp only at hout
  split at hout
  · exact .inl (hout ▸ ⟨rfl, rfl⟩)
  · exact .inr (hout ▸ ⟨rfl, rfl⟩)

lemma sendSlot_marks (hn : svc.clock.marked ≠ -1) (i : Fin circuitMaxLinks) (message : Bytes) (enforce : Bool) :
    Marks s (broadcastAx25SendSlot svc s i message enforce).state svc.clock.marked
      (broadcastAx25SendSlot svc s i message enforce).sent stamped ∧
        ∀ j ∈ (broadcastAx25SendSlot svc s i message enforce).sent, j = i := by
  rcases @sendSlot_cases svc s i message enforce _ rfl with ⟨hs, he⟩ | ⟨hs, he⟩
  · rw [hs, he]
    exact ⟨.refl s, fun _ h => absurd h List.not_mem_nil⟩
  · rw [hs, he]
    exact ⟨markLinkSent_marks hn i, fun _ h => List.mem_singleton.mp h⟩

/-- What a step of the sequence does to the stamps, and when it sends. -/
lemma seqAdvance_marks (hn : svc.clock.marked ≠ -1) {r : BroadcastState × List (Fin circuitMaxLinks)}
    (hr : broadcastAx25SeqAdvance svc s = r) :
    Marks s r.1 svc.clock.marked r.2 stamped ∧ (r.2 = [] ∨ ∃ hub i, runningHub svc = some hub ∧ s.seq.active = true ∧
      SeqTarget s hub svc.clock.checked i ∧ r.2 = [i]) := by
  rw [broadcastAx25SeqAdvance] at hr
  split at hr
  · exact hr ▸ ⟨.refl s, .inl rfl⟩
  rename_i hact
  split at hr
  · exact hr ▸ ⟨.of_eq rfl rfl, .inl rfl⟩
  rename_i hub hhub
  dsimp only at hr
  split at hr
  · exact hr ▸ ⟨.refl s, .inl rfl⟩
  rename_i hdue
  split at hr
  · exact hr ▸ ⟨.of_eq rfl rfl, .inl rfl⟩
  rename_i link hlink
  split at hr
  · exact hr ▸ ⟨.of_eq (seqNext_lastSent s _) (seqNext_linkLastSent s _), .inl rfl⟩
  split at hr
  · exact hr ▸ ⟨.of_eq rfl rfl, .inl rfl⟩
  rename_i hidle
  split at hr
  · exact hr ▸ ⟨.of_eq rfl rfl, .inl rfl⟩
  rename_i hrate
  have hm := (@sendSlot_marks svc s stamped hn link.slotIndex s.seq.message false).1
  have htarget : SeqTarget s hub svc.clock.checked link.slotIndex :=
    ⟨by simpa using hdue, ⟨link, hlink, rfl⟩, by simpa using hidle, by simpa using hrate⟩
  have hsent : (broadcastAx25SendSlot svc s link.slotIndex s.seq.message false).sent = [] ∨ ∃ hub i,
      runningHub svc = some hub ∧ s.seq.active = true ∧ SeqTarget s hub svc.clock.checked i ∧
        (broadcastAx25SendSlot svc s link.slotIndex s.seq.message false).sent = [i] := by
    rcases @sendSlot_cases svc s link.slotIndex s.seq.message false _ rfl with ⟨-, he⟩ | ⟨-, he⟩
    · exact .inl he
    · exact .inr ⟨hub, link.slotIndex, hhub, by simpa using hact, htarget, he⟩
  split at hr
  · exact hr ▸ ⟨hm.congr rfl rfl rfl rfl, hsent⟩
  · exact hr ▸ ⟨hm.congr rfl rfl rfl rfl, hsent⟩
  · exact hr ▸ ⟨hm.congr rfl rfl (seqNext_lastSent _ _) (seqNext_linkLastSent _ _), hsent⟩

/-- The manual path starts a sequence if none is running. -/
lemma manual_cases {out : BroadcastOutcome} (hout : broadcastAx25Manual svc s = out) :
    out.state = s ∧ out.sent = [] ∨ ∃ hub message, runningHub svc = some hub ∧ s.seq.active = false ∧
      broadcastAx25SeqAdvance svc (s.setSeq ⟨true, circuitHubBroadcastLinks hub, 0, message, 0⟩) =
        (out.state, out.sent) := by
  rw [broadcastAx25Manual] at hout
  split at hout
  · exact .inl (hout ▸ ⟨rfl, rfl⟩)
  rename_i hact
  split at hout
  · exact .inl (hout ▸ ⟨rfl, rfl⟩)
  split at hout
  · exact .inl (hout ▸ ⟨rfl, rfl⟩)
  rename_i hub hhub
  split at hout
  · exact .inl (hout ▸ ⟨rfl, rfl⟩)
  split at hout
  · exact .inl (hout ▸ ⟨rfl, rfl⟩)
  split at hout
  · exact .inl (hout ▸ ⟨rfl, rfl⟩)
  rename_i u hu
  rw [broadcastAx25SeqStart] at hu
  split at hu
  · cases hu
  obtain rfl := Option.some.inj hu
  exact .inr ⟨hub, _, hhub, by simpa using hact, by rw [← hout]⟩

/-- The automatic path moves a running sequence on, or starts one after the interval. -/
lemma tick_cases {r : BroadcastState × List (Fin circuitMaxLinks)} (hr : broadcastAx25Tick svc s = r) :
    s.seq.active = true ∧ broadcastAx25SeqAdvance svc s = r ∨
      r.1.lastSent = s.lastSent ∧ r.1.linkLastSent = s.linkLastSent ∧ r.2 = [] ∨
      broadcastAx25RateOk s svc.clock.checked svc.cfg.ax25AutoIntervalSec = true ∧
        ∃ u, u.lastSent = s.lastSent ∧ u.linkLastSent = s.linkLastSent ∧ broadcastAx25SeqAdvance svc u = r := by
  rw [broadcastAx25Tick] at hr
  split at hr
  · rename_i hact
    exact .inl ⟨hact, hr⟩
  right
  split at hr
  · exact .inl (hr ▸ ⟨rfl, rfl, rfl⟩)
  split at hr
  · exact .inl (hr ▸ ⟨rfl, rfl, rfl⟩)
  split at hr
  · exact .inl (hr ▸ ⟨rfl, rfl, rfl⟩)
  split at hr
  · exact .inl (hr ▸ ⟨rfl, rfl, rfl⟩)
  dsimp only at hr
  split at hr
  · exact .inl (hr ▸ ⟨rfl, rfl, rfl⟩)
  split at hr
  · exact .inl (hr ▸ ⟨rfl, rfl, rfl⟩)
  split at hr
  · exact .inl (hr ▸ ⟨rfl, rfl, rfl⟩)
  rename_i hrate
  split at hr
  · exact .inl (hr ▸ ⟨rfl, rfl, rfl⟩)
  rename_i u hu
  rw [broadcastAx25SeqStart] at hu
  split at hu
  · cases hu
  obtain rfl := Option.some.inj hu
  refine .inr ⟨by simpa [broadcastAx25RateOk] using hrate, _, ?_, ?_, hr⟩
  · rfl
  · rfl

end HyBBX.Broadcast
