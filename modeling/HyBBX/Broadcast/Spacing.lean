import HyBBX.Broadcast.Marks

/-! The distance in time between the broadcasts that one link carries, over any mix of the three paths. -/

namespace HyBBX.Broadcast

open HyBBX.Core HyBBX.Circuit Lib Lib.Bytes

inductive BroadcastCall
  | ax25 (frequencyMhz : ℚ) (message : Bytes)
  | manual
  | tick

/-- A frame on the air. Broadcasts to all links leave no stamp for the link. -/
structure Transmission where
  time : ℤ
  slot : Fin circuitMaxLinks
  attachment : ℕ
  stamped : Bool
  deriving DecidableEq

def broadcastCall (svc : BroadcastService) (s : BroadcastState) :
    BroadcastCall → BroadcastState × List (Fin circuitMaxLinks)
  | .ax25 f message => ((broadcastAx25 svc s f message).state, (broadcastAx25 svc s f message).sent)
  | .manual => ((broadcastAx25Manual svc s).state, (broadcastAx25Manual svc s).sent)
  | .tick => broadcastAx25Tick svc s

def BroadcastCall.stamps : BroadcastCall → Bool
  | .ax25 f _ => 0 < f
  | _ => true

def attachmentOf (svc : BroadcastService) (i : Fin circuitMaxLinks) : ℕ :=
  (svc.hub.map fun hub => (hub.slots i).attachment).getD 0

def transmission (svc : BroadcastService) (call : BroadcastCall) (i : Fin circuitMaxLinks) : Transmission :=
  ⟨svc.clock.sent, i, attachmentOf svc i, call.stamps⟩

/-- The calls one after the other, each in the service it finds, with all that was transmitted. -/
def broadcastRun : BroadcastState × List Transmission → List (BroadcastService × BroadcastCall) →
    BroadcastState × List Transmission
  | w, [] => w
  | w, (svc, call) :: calls =>
    let r := broadcastCall svc w.1 call
    broadcastRun (r.1, w.2 ++ r.2.map (transmission svc call)) calls

/-- A clock that is not set back, from `last` on. -/
def ClockRuns : ℤ → List (BroadcastService × BroadcastCall) → Prop
  | _, [] => True
  | last, (svc, _) :: calls => last ≤ svc.clock.checked ∧ svc.clock.checked ≤ svc.clock.sent ∧
      svc.clock.sent ≤ svc.clock.marked ∧ ClockRuns svc.clock.marked calls

/-- Two frames to one attached link are far enough apart. -/
def Spaced (log : List Transmission) : Prop :=
  log.Pairwise fun a b => a.slot = b.slot → a.attachment = b.attachment →
    (broadcastAx25LinkMinSec : ℤ) ≤ b.time - a.time

/-- Within the minimum a broadcast to all links went to this one, and left no stamp for it. -/
def Unstamped (log : List Transmission) (svc : BroadcastService) (i : Fin circuitMaxLinks) : Prop :=
  ∃ t ∈ log, t.stamped = false ∧ t.slot = i ∧ t.attachment = attachmentOf svc i ∧
    svc.clock.checked - t.time < broadcastAx25LinkMinSec

instance (log : List Transmission) : Decidable (Spaced log) :=
  inferInstanceAs (Decidable (log.Pairwise fun a b => a.slot = b.slot → a.attachment = b.attachment →
    (broadcastAx25LinkMinSec : ℤ) ≤ b.time - a.time))

instance (log : List Transmission) (svc : BroadcastService) (i : Fin circuitMaxLinks) :
    Decidable (Unstamped log svc i) :=
  inferInstanceAs (Decidable (∃ t ∈ log, t.stamped = false ∧ t.slot = i ∧ t.attachment = attachmentOf svc i ∧
    svc.clock.checked - t.time < broadcastAx25LinkMinSec))

/-- The state in which the manual path takes its first step. -/
def manualStart (s : BroadcastState) (hub : BroadcastHub) : BroadcastState :=
  s.setSeq ⟨true, circuitHubBroadcastLinks hub, 0, [], 0⟩

/-- A call that the stamps can guard: on a frequency no link may send while another may not, and the links that their
stamps let send have not just carried an unstamped broadcast. The time 0 cannot be written down. -/
def Guarded (s : BroadcastState) (log : List Transmission) (svc : BroadcastService) (call : BroadcastCall) : Prop :=
  0 < svc.clock.checked ∧ ∀ hub, runningHub svc = some hub → match call with
    | .ax25 f _ => 0 < f →
      (∃ l ∈ frequencyLinks hub f,
        broadcastAx25LinkRateOk s l.slotIndex svc.clock.checked broadcastAx25LinkMinSec = true) →
      ∀ l ∈ frequencyLinks hub f, circuitSlotCanSendLowPrio hub (hub.slots l.slotIndex) = true →
        broadcastAx25LinkRateOk s l.slotIndex svc.clock.checked broadcastAx25LinkMinSec = true ∧
          ¬Unstamped log svc l.slotIndex
    | .manual => s.seq.active = false → ∀ i, SeqTarget (manualStart s hub) hub svc.clock.checked i → ¬Unstamped log svc i
    | .tick => s.seq.active = true → ∀ i, SeqTarget s hub svc.clock.checked i → ¬Unstamped log svc i

def AllGuarded : BroadcastState × List Transmission → List (BroadcastService × BroadcastCall) → Prop
  | _, [] => True
  | w, (svc, call) :: calls => Guarded w.1 w.2 svc call ∧
      let r := broadcastCall svc w.1 call
      AllGuarded (r.1, w.2 ++ r.2.map (transmission svc call)) calls

/-- What the stamps know of the frames sent until `last`. -/
structure StampsSound (last : ℤ) (s : BroadcastState) (log : List Transmission) : Prop where
  spaced : Spaced log
  all : ∀ t ∈ log, 0 < t.time ∧ t.time ≤ s.lastSent
  stamped : ∀ t ∈ log, t.stamped = true → t.time ≤ s.linkLastSent t.slot
  past : s.lastSent ≤ last
  linkPast : ∀ i, s.linkLastSent i ≤ last

lemma rateOk_spaced {last now time : ℤ} {interval : ℕ} (h : rateOk last now interval = true)
    (hi : broadcastAx25LinkMinSec ≤ interval) (ht : 0 < time) (hle : time ≤ last) (hnow : last ≤ now) :
    (broadcastAx25LinkMinSec : ℤ) ≤ now - time := by
  rw [rateOk, if_neg (by omega), if_neg (by omega), if_neg (by omega)] at h
  have hmod : (now - last) % 2 ^ 32 ≤ now - last := by omega
  have hge : (interval : ℤ) ≤ (now - last) % 2 ^ 32 := by simpa using h
  omega

section Step

variable {last : ℤ} {s : BroadcastState} {log : List Transmission} {svc : BroadcastService} {call : BroadcastCall}

/-- Frames to links that have been quiet long enough keep the distance, and their stamps are sound. -/
lemma StampsSound.extend (h : StampsSound last s log) (hc : last ≤ svc.clock.checked)
    (hs : svc.clock.checked ≤ svc.clock.sent) (hm : svc.clock.sent ≤ svc.clock.marked) (hpos : 0 < svc.clock.checked)
    {s' : BroadcastState} {sent : List (Fin circuitMaxLinks)}
    (hmarks : Marks s s' svc.clock.marked sent (call.stamps = true)) (hnd : sent.Nodup)
    (hquiet : ∀ i ∈ sent, ∀ t ∈ log, t.slot = i → t.attachment = attachmentOf svc i →
      (broadcastAx25LinkMinSec : ℤ) ≤ svc.clock.checked - t.time) :
    StampsSound svc.clock.marked s' (log ++ sent.map (transmission svc call)) := by
  have hlast := h.past
  have hgrow : s.lastSent ≤ s'.lastSent := by
    rcases hmarks.last with he | he
    · exact he.ge
    · omega
  refine ⟨?_, fun t ht => ?_, fun t ht hst => ?_, ?_, fun i => ?_⟩
  · rw [Spaced, List.pairwise_append]
    refine ⟨h.spaced, ?_, ?_⟩
    · rw [List.pairwise_map]
      refine hnd.imp fun hne he => ?_
      exact absurd he hne
    · intro a ha b hb hslot hatt
      obtain ⟨i, hi, rfl⟩ := List.mem_map.mp hb
      have hq := hquiet i hi a ha hslot hatt
      have hb : (transmission svc call i).time = svc.clock.sent := rfl
      omega
  · rcases List.mem_append.mp ht with ht | ht
    · have ha := h.all t ht
      omega
    · obtain ⟨i, hi, rfl⟩ := List.mem_map.mp ht
      have he := hmarks.lastSent (List.ne_nil_of_mem hi)
      have hb : (transmission svc call i).time = svc.clock.sent := rfl
      omega
  · rcases List.mem_append.mp ht with ht | ht
    · have ha := h.stamped t ht hst
      have hp := h.linkPast t.slot
      rcases hmarks.link t.slot with he | he <;> omega
    · obtain ⟨i, hi, rfl⟩ := List.mem_map.mp ht
      have he := hmarks.linkSent hst i hi
      have hb : (transmission svc call i).time = svc.clock.sent := rfl
      have hslot : (transmission svc call i).slot = i := rfl
      rw [hb, hslot, he]
      exact hm
  · rcases hmarks.last with he | he <;> omega
  · have hp := h.linkPast i
    rcases hmarks.link i with he | he <;> omega

/-- A link that its stamp lets send has been quiet, as far as stamps tell. -/
lemma StampsSound.quiet (h : StampsSound last s log) (hc : last ≤ svc.clock.checked) {i : Fin circuitMaxLinks}
    (hrate : broadcastAx25LinkRateOk s i svc.clock.checked broadcastAx25LinkMinSec = true)
    (hun : ¬Unstamped log svc i) :
    ∀ t ∈ log, t.slot = i → t.attachment = attachmentOf svc i →
      (broadcastAx25LinkMinSec : ℤ) ≤ svc.clock.checked - t.time := by
  intro t ht hslot hatt
  cases hst : t.stamped with
  | true =>
    have hle := h.stamped t ht hst
    have hp := h.linkPast t.slot
    rw [hslot] at hle hp
    exact rateOk_spaced hrate le_rfl (h.all t ht).1 hle (hp.trans hc)
  | false =>
    by_contra hlt
    exact hun ⟨t, ht, hst, hslot, hatt, not_le.mp hlt⟩

/-- After the interval since anything was sent every link has been quiet. -/
lemma StampsSound.quiet_all (h : StampsSound last s log) (hc : last ≤ svc.clock.checked)
    (hrate : broadcastAx25RateOk s svc.clock.checked svc.cfg.ax25AutoIntervalSec = true) :
    ∀ t ∈ log, (broadcastAx25LinkMinSec : ℤ) ≤ svc.clock.checked - t.time := by
  intro t ht
  exact rateOk_spaced hrate svc.cfg.intervalMin (h.all t ht).1 (h.all t ht).2 (h.past.trans hc)

/-- What a guarded call sends keeps the distance. -/
lemma call_quiet (h : StampsSound last s log) (hc : last ≤ svc.clock.checked) (hn : svc.clock.marked ≠ -1)
    (hg : Guarded s log svc call) {r : BroadcastState × List (Fin circuitMaxLinks)}
    (hr : broadcastCall svc s call = r) :
    Marks s r.1 svc.clock.marked r.2 (call.stamps = true) ∧ r.2.Nodup ∧
      ∀ i ∈ r.2, ∀ t ∈ log, t.slot = i → t.attachment = attachmentOf svc i →
        (broadcastAx25LinkMinSec : ℤ) ≤ svc.clock.checked - t.time := by
  have hnothing : ∀ u : BroadcastState, u.lastSent = s.lastSent → u.linkLastSent = s.linkLastSent →
      Marks s u svc.clock.marked [] (call.stamps = true) ∧ ([] : List (Fin circuitMaxLinks)).Nodup ∧
        ∀ i ∈ ([] : List (Fin circuitMaxLinks)), ∀ t ∈ log, t.slot = i → t.attachment = attachmentOf svc i →
          (broadcastAx25LinkMinSec : ℤ) ≤ svc.clock.checked - t.time :=
    fun u hl hi => ⟨.of_eq hl hi, List.nodup_nil, fun _ hi => absurd hi List.not_mem_nil⟩
  obtain ⟨-, hguard⟩ := hg
  cases call with
  | ax25 f message =>
    obtain rfl := hr
    rcases @send_cases svc s f message _ rfl with ⟨hs, he⟩ | ⟨hub, frame, hhub, htx, hsent, hfreq, hall⟩
    · dsimp only [broadcastCall]
      rw [broadcastAx25, hs, he]
      exact hnothing s rfl rfl
    obtain ⟨hnd, hreach, -⟩ := multicast_sent hub frame f
    dsimp only [broadcastCall]
    rw [broadcastAx25, hsent]
    by_cases hf : 0 < f
    · obtain ⟨hany, hstate⟩ := hfreq hf
      rw [hstate]
      refine ⟨(foldl_marks hn _ s).mono fun i hi => ?_, hnd, fun i hi => ?_⟩
      · obtain ⟨hq, hsel, -⟩ := hreach i hi
        exact (mem_frequencyLinks hf).mpr ⟨hq, hsel⟩
      · obtain ⟨hq, hsel, hlow⟩ := hreach i hi
        obtain ⟨l, hl, rfl⟩ := List.mem_map.mp ((mem_frequencyLinks hf).mpr ⟨hq, hsel⟩)
        obtain ⟨hrate, hun⟩ := hguard hub hhub hf hany l hl (hlow htx)
        exact h.quiet hc hrate hun
    · obtain ⟨hrate, hstate⟩ := hall hf
      rw [hstate]
      refine ⟨markSent_marks hn (by simpa [BroadcastCall.stamps] using hf) _, hnd, fun i _ t ht _ _ => ?_⟩
      exact h.quiet_all hc hrate t ht
  | manual =>
    obtain rfl := hr
    dsimp only [broadcastCall]
    rcases @manual_cases svc s _ rfl with ⟨hs, he⟩ | ⟨hub, message, hhub, hidle, hadv⟩
    · rw [hs, he]
      exact hnothing s rfl rfl
    obtain ⟨hm, hsent⟩ := seqAdvance_marks hn hadv
    refine ⟨hm.congr rfl rfl rfl rfl, ?_⟩
    rcases hsent with he | ⟨hub', i, hhub', -, htarget, he⟩
    · dsimp only at he
      rw [he]
      exact (hnothing s rfl rfl).2
    · obtain rfl := Option.some.inj (hhub.symm.trans hhub')
      dsimp only at he
      rw [he]
      refine ⟨List.nodup_singleton i, fun j hj => ?_⟩
      rw [List.mem_singleton.mp hj]
      exact h.quiet hc htarget.2.2.2 (hguard hub hhub hidle i htarget)
  | tick =>
    rcases tick_cases hr with ⟨hact, hadv⟩ | ⟨hl, hi, he⟩ | ⟨hrate, u, hl, hi, hadv⟩
    · obtain ⟨hm, hsent⟩ := seqAdvance_marks hn hadv
      refine ⟨hm.congr rfl rfl rfl rfl, ?_⟩
      rcases hsent with he | ⟨hub, i, hhub, -, htarget, he⟩
      · rw [he]
        exact (hnothing s rfl rfl).2
      · rw [he]
        refine ⟨List.nodup_singleton i, fun j hj => ?_⟩
        rw [List.mem_singleton.mp hj]
        exact h.quiet hc htarget.2.2.2 (hguard hub hhub hact i htarget)
    · rw [he]
      exact hnothing r.1 hl hi
    · obtain ⟨hm, hsent⟩ := seqAdvance_marks hn hadv
      refine ⟨hm.congr hl.symm hi.symm rfl rfl, ?_, fun i _ t ht _ _ => h.quiet_all hc hrate t ht⟩
      rcases hsent with he | ⟨_, i, _, _, _, he⟩
      · rw [he]
        exact List.nodup_nil
      · rw [he]
        exact List.nodup_singleton i

end Step

lemma broadcastRun_sound (calls : List (BroadcastService × BroadcastCall)) {last : ℤ}
    {w : BroadcastState × List Transmission} (h : StampsSound last w.1 w.2) (hclock : ClockRuns last calls)
    (hg : AllGuarded w calls) : Spaced (broadcastRun w calls).2 := by
  induction calls generalizing last w with
  | nil => exact h.spaced
  | cons e calls ih =>
    obtain ⟨svc, call⟩ := e
    obtain ⟨hc, hs, hm, hrest⟩ := hclock
    obtain ⟨hguard, hgrest⟩ := hg
    have hn : svc.clock.marked ≠ -1 := by
      have hpos := hguard.1
      omega
    obtain ⟨hmarks, hnd, hquiet⟩ := call_quiet h hc hn hguard rfl
    exact ih (h.extend hc hs hm hguard.1 hmarks hnd hquiet) hrest hgrest

lemma clockRuns_shorter {calls calls' : List (BroadcastService × BroadcastCall)} (hpre : calls' <+: calls) {last : ℤ}
    (h : ClockRuns last calls) : ClockRuns last calls' := by
  induction calls generalizing calls' last with
  | nil =>
    rw [List.prefix_nil.mp hpre]
    trivial
  | cons e calls ih =>
    cases calls' with
    | nil => trivial
    | cons e' calls' =>
      obtain ⟨rfl, hpre'⟩ := List.cons_prefix_cons.mp hpre
      obtain ⟨hc, hs, hm, hrest⟩ := h
      exact ⟨hc, hs, hm, ih hpre' hrest⟩

lemma allGuarded_shorter {calls calls' : List (BroadcastService × BroadcastCall)} (hpre : calls' <+: calls)
    {w : BroadcastState × List Transmission} (h : AllGuarded w calls) : AllGuarded w calls' := by
  induction calls generalizing calls' w with
  | nil =>
    rw [List.prefix_nil.mp hpre]
    trivial
  | cons e calls ih =>
    cases calls' with
    | nil => trivial
    | cons e' calls' =>
      obtain ⟨rfl, hpre'⟩ := List.cons_prefix_cons.mp hpre
      exact ⟨h.1, ih hpre' h.2⟩

/-- In every run of guarded calls, and after each of them, two frames to one attached link are at least the minimum
apart. -/
theorem link_spacing (last : ℤ) (calls : List (BroadcastService × BroadcastCall)) (hclock : ClockRuns last calls)
    (hg : AllGuarded (broadcastStart, []) calls) :
    ∀ calls', calls' <+: calls → Spaced (broadcastRun (broadcastStart, []) calls').2 := by
  intro calls' hpre
  have hclock' : ClockRuns 0 calls := by
    cases calls with
    | nil => trivial
    | cons e calls => exact ⟨hg.1.1.le, hclock.2⟩
  have hstart : StampsSound 0 broadcastStart [] :=
    ⟨List.Pairwise.nil, fun _ h => absurd h List.not_mem_nil, fun _ h => absurd h List.not_mem_nil, le_rfl,
      fun _ => le_rfl⟩
  exact broadcastRun_sound calls' hstart (clockRuns_shorter hpre hclock') (allGuarded_shorter hpre hg)

def freeBroadcastSlot : BroadcastSlot := ⟨0, false, false, [], false, false, false, 0, 0, none, .errDenied⟩

/-- Radio links on one frequency in the first `n` slots, idle and ready to send. -/
def radioHub (n : ℕ) : BroadcastHub where
  running := true
  balanceEnabled := true
  bridge := []
  slots i := if i.val < n then ⟨1, true, true, ofString "EDGE", true, true, true, 145, 0, none,
    .ok⟩ else freeBroadcastSlot

def radioService (n : ℕ) (now : ℤ) : BroadcastService where
  cfg := broadcastConfigDefaults
  name := []
  hub := some (radioHub n)
  clock := ⟨now, now, now⟩
  frameBuf := List.replicate circuitMaxFrame 0

def spacedCalls : List (BroadcastService × BroadcastCall) :=
  [(radioService 1 1000, .ax25 145 (ofString "CQ")), (radioService 1 1900, .ax25 145 (ofString "CQ"))]

theorem link_spacing_twice : Spaced (broadcastRun (broadcastStart, []) spacedCalls).2 := by
  have hclock : ClockRuns 0 spacedCalls := ⟨by decide, by decide, by decide, by decide, by decide, by decide, trivial⟩
  refine link_spacing 0 spacedCalls hclock ?_ spacedCalls List.prefix_rfl
  refine ⟨⟨by decide, fun hub hhub _ _ => ?_⟩, ⟨by decide, fun hub hhub _ _ => ?_⟩, trivial⟩
  · obtain rfl := Option.some.inj hhub
    decide +kernel
  · obtain rfl := Option.some.inj hhub
    decide +kernel

/-- The manual path sends to the first of two links on a frequency; 100 seconds later the second one lets a broadcast
on the frequency through to both. -/
def sharedFrequencyCalls : List (BroadcastService × BroadcastCall) :=
  [(radioService 2 1000, .manual), (radioService 2 1100, .ax25 145 (ofString "CQ"))]

/-- A broadcast to all links, and at once one on the frequency of the link. -/
def unstampedCalls : List (BroadcastService × BroadcastCall) :=
  [(radioService 1 1000, .ax25 0 (ofString "CQ")), (radioService 1 1001, .ax25 145 (ofString "CQ"))]

theorem stamps_miss_links :
    (ClockRuns 0 sharedFrequencyCalls ∧ ¬Spaced (broadcastRun (broadcastStart, []) sharedFrequencyCalls).2) ∧
      (ClockRuns 0 unstampedCalls ∧ ¬Spaced (broadcastRun (broadcastStart, []) unstampedCalls).2) := by
  refine ⟨⟨⟨by decide, by decide, by decide, by decide, by decide, by decide, trivial⟩, ?_⟩,
    ⟨by decide, by decide, by decide, by decide, by decide, by decide, trivial⟩, ?_⟩
  · decide +kernel
  · decide +kernel

end HyBBX.Broadcast
