import HyBBX.Lib.Slots
import HyBBX.Lib.Transducer
import HyBBX.Session.Lifecycle

/-! The account of guest slots and nodes over runs of opens, switches and closes. -/

namespace HyBBX.Session

open HyBBX.Core HyBBX.Storage Lib Lib.Bytes Lib.Text Lib.Numeral
open HyBBX.Command (guestNumberMax)

section Steps

variable {cfg : ServiceConfig} {svc : NodeService}

/-- The session that a call starts, and the slots behind it. -/
inductive Started (cfg : ServiceConfig) (call : OpenCall) (inUse : ℕ → Bool) : (ℕ → Bool) → SessionCore → Prop
  | prompt (hauto : cfg.autoLogin = false) : Started cfg call inUse inUse { freshCore call.transport with loginPrompt := true }
  | guest {slot : ℕ} {core : SessionCore} (hauto : cfg.autoLogin = true) (hpos : slot ≠ 0) (hmax : slot ≤ guestNumberMax)
      (hfree : inUse slot = false) (hguest : core.isGuest = true) (hslot : core.guestSlot = slot)
      (hname : core.record.username = guestName cfg.guestPrefix slot) (htransport : core.transport = call.transport)
      (hrecord : core.record.transport = CText.copy call.transport.name) (hremote : core.record.remote = .empty) :
      Started cfg call inUse (Function.update inUse slot true) core

lemma guestRelease_assigned {slot : ℕ} (hpos : slot ≠ 0) (hmax : slot ≤ guestNumberMax)
    (hfree : svc.guestInUse slot = false) :
    guestRelease { svc with guestInUse := Function.update svc.guestInUse slot true } slot = svc := by
  rw [guestRelease, if_neg (by omega), Function.update_idem, ← hfree, Function.update_eq_self]

lemma releaseNode_acquired : releaseNode { svc with activeNodes := svc.activeNodes + 1 } = svc := by
  rw [releaseNode, if_pos (Nat.succ_pos _)]
  rfl

lemma guestAssign_some {guestPrefix : CText authGuestPrefixMax} {now : Int64} {out guest : UserRecord}
    {svc' : NodeService}
    {slot : ℕ} (h : guestAssign guestPrefix now out svc = some (svc', guest, slot)) :
    slot ≠ 0 ∧ slot ≤ guestNumberMax ∧ svc.guestInUse slot = false ∧ guest = guestFillRecord guestPrefix slot now out ∧
      svc' = { svc with guestInUse := Function.update svc.guestInUse slot true } := by
  rw [guestAssign] at h
  cases hf : (List.range' 1 guestNumberMax).find? fun slot => !svc.guestInUse slot with
  | none =>
    rw [hf] at h
    cases h
  | some k =>
    rw [hf] at h
    simp only [Option.some.injEq, Prod.mk.injEq] at h
    obtain ⟨rfl, rfl, rfl⟩ := h
    obtain ⟨hlo, hhi⟩ := List.mem_range'_1.mp (List.mem_of_find?_eq_some hf)
    exact ⟨by omega, by omega, by simpa using List.find?_some hf, rfl, rfl⟩

lemma guestFillRecord_valid {slot : ℕ} (hpos : slot ≠ 0) (hmax : slot ≤ guestNumberMax)
    (guestPrefix : CText authGuestPrefixMax) (now : Int64) (out : UserRecord) :
    (guestFillRecord guestPrefix slot now out).level = .guest ∧
      (guestFillRecord guestPrefix slot now out).username = guestName guestPrefix slot := by
  rw [guestFillRecord, dif_pos ⟨Nat.one_le_iff_ne_zero.mpr hpos, hmax⟩]
  exact ⟨rfl, rfl⟩

lemma armGuestTimer_eq (now : Int64) (core : SessionCore) :
    ∃ expires, armGuestTimer cfg now core = { core with guestExpiresAt := expires } := by
  rw [armGuestTimer]
  split_ifs
  · exact ⟨0, rfl⟩
  · exact ⟨0, rfl⟩
  · exact ⟨_, rfl⟩

/-- A guest that cannot be activated has given the slot back. -/
lemma startSession_cases (hstorage : cfg.storageOpen = true) (call : OpenCall) (svc : NodeService) :
    (∃ rc, startSession cfg call svc = (svc, .error rc)) ∨
      ∃ inUse core, startSession cfg call svc = ({ svc with guestInUse := inUse }, .ok core) ∧
        Started cfg call svc.guestInUse inUse core := by
  rw [startSession]
  by_cases hauto : cfg.autoLogin = true
  · rw [if_pos hauto]
    cases ha : guestAssign cfg.guestPrefix call.now .zero svc with
    | none => exact .inl ⟨_, rfl⟩
    | some r =>
      obtain ⟨svc', guest, slot⟩ := r
      obtain ⟨hpos, hmax, hfree, rfl, rfl⟩ := guestAssign_some ha
      dsimp only
      rw [activateGuest, if_neg (by omega), if_neg (by simp [hstorage])]
      simp only [freshCore, ne_eq, not_true_eq_false, false_and, if_false, SessionRecord.zero]
      cases hanswer : call.answer with
      | error rc =>
        left
        exact ⟨rc, by simp only [sessionBegin, Except.map, guestRelease_assigned hpos hmax hfree]⟩
      | ok id =>
        right
        obtain ⟨hlevel, hname⟩ := guestFillRecord_valid hpos hmax cfg.guestPrefix call.now .zero
        obtain ⟨expires, htimer⟩ := @armGuestTimer_eq cfg call.now
          ⟨call.transport, some (guestFillRecord cfg.guestPrefix slot call.now .zero),
            ⟨id, (guestFillRecord cfg.guestPrefix slot call.now .zero).id,
              CText.copy (guestFillRecord cfg.guestPrefix slot call.now .zero).username.text,
              CText.copy call.transport.name, .empty, call.now, true⟩, slot, 0, true, false⟩
        refine ⟨_, _, rfl, ?_⟩
        rw [htimer]
        apply Started.guest hauto hpos hmax hfree
        · simpa [SessionCore.isGuest] using hlevel
        · rfl
        · rw [← hname, CText.copy_self]
        · rfl
        · rfl
        · rfl
  · rw [if_neg hauto]
    exact .inr ⟨svc.guestInUse, _, rfl, .prompt (Bool.eq_false_of_not_eq_true hauto)⟩

lemma releaseGuestSlot_none {core : SessionCore} (h : core.guestSlot = 0) :
    releaseGuestSlot svc core = (svc, core) := if_pos h

lemma releaseGuestSlot_some {core : SessionCore} (h : core.guestSlot ≠ 0) (hmax : core.guestSlot ≤ guestNumberMax) :
    releaseGuestSlot svc core =
      ({ svc with guestInUse := Function.update svc.guestInUse core.guestSlot false },
          { core with guestSlot := 0 }) := by
  rw [releaseGuestSlot, if_neg h, guestRelease, if_neg (by omega)]

/-- An open that fails leaves the service as it was. -/
lemma sessionOpen_cases (cfg : ServiceConfig) (call : OpenCall) (svc : NodeService) :
    (∃ rc, sessionOpen cfg call svc = (svc, rc)) ∨
      ∃ inUse core, cfg.storageOpen = true ∧ svc.activeNodes < cfg.maxOnline ∧
        Started cfg call svc.guestInUse inUse core ∧ sessionOpen cfg call svc =
          (attachSession { svc with guestInUse := inUse, activeNodes := svc.activeNodes + 1 } core, .ok) := by
  rw [sessionOpen]
  by_cases hdenied : call.transport.interactive = true ∧ cfg.offersUserBbx = false
  · rw [if_pos hdenied]
    exact .inl ⟨_, rfl⟩
  rw [if_neg hdenied, acquireNode]
  by_cases hbusy : cfg.maxOnline ≤ svc.activeNodes
  · rw [if_pos hbusy]
    exact .inl ⟨_, rfl⟩
  rw [if_neg hbusy]
  dsimp only
  by_cases hstorage : cfg.storageOpen = false
  · rw [if_pos hstorage, releaseNode_acquired]
    exact .inl ⟨_, rfl⟩
  by_cases hcore : call.coreAllocated = false
  · rw [if_neg hstorage, if_pos hcore, releaseNode_acquired]
    exact .inl ⟨_, rfl⟩
  rw [if_neg hstorage, if_neg hcore]
  have hopen : cfg.storageOpen = true := Bool.eq_true_of_not_eq_false hstorage
  obtain ⟨rc, hs⟩ | ⟨inUse, core, hs, hstart⟩ :=
    startSession_cases hopen call { svc with activeNodes := svc.activeNodes + 1 }
  · rw [hs]
    exact .inl ⟨rc, by dsimp only; rw [releaseNode_acquired]⟩
  · rw [hs]
    dsimp only at hstart ⊢
    by_cases hnode : call.nodeAllocated = true
    · rw [if_pos hnode]
      exact .inr ⟨inUse, core, hopen, not_le.mp hbusy, hstart, rfl⟩
    · rw [if_neg hnode]
      left
      refine ⟨.errNomem, ?_⟩
      congr 1
      cases hstart with
      | prompt hauto =>
        rw [releaseGuestSlot_none rfl]
        exact releaseNode_acquired
      | @guest slot core hauto hpos hmax hfree hguest hslot =>
        subst hslot
        rw [releaseGuestSlot_some hpos hmax, Function.update_idem, ← hfree, Function.update_eq_self]
        exact releaseNode_acquired

end Steps

section Accounts

/-- The guest slots that the sessions hold, 0 where there is none. -/
def NodeService.slots (svc : NodeService) : List ℕ := svc.sessions.map fun p => p.2.guestSlot

structure Accounted (cfg : ServiceConfig) (svc : NodeService) : Prop where
  held : SlotsHeld 0 svc.guestInUse svc.slots
  issued : ∀ p ∈ svc.sessions, p.2.guestSlot ≤ guestNumberMax
  guests : ∀ p ∈ svc.sessions, p.2.isGuest = true ↔ p.2.guestSlot ≠ 0
  named : ∀ p ∈ svc.sessions, p.2.isGuest = true → p.2.record.username = guestName cfg.guestPrefix p.2.guestSlot
  nodes : svc.activeNodes = svc.sessions.length
  room : svc.activeNodes ≤ cfg.maxOnline
  handles : (svc.sessions.map Prod.fst).Nodup
  fresh : ∀ p ∈ svc.sessions, p.1 < svc.nextHandle
  storage : svc.sessions ≠ [] → cfg.storageOpen = true

variable {cfg : ServiceConfig} {svc : NodeService}

lemma Accounted.open (h : Accounted cfg svc) (call : OpenCall) : Accounted cfg (sessionOpen cfg call svc).1 := by
  obtain ⟨rc, hs⟩ | ⟨inUse, core, hstorage, hroom, hstart, hs⟩ := sessionOpen_cases cfg call svc
  · rw [hs]
    exact h
  rw [hs]
  have hheld : SlotsHeld 0 inUse (core.guestSlot :: svc.slots) := by
    cases hstart with
    | prompt hauto => exact h.held.cons_free
    | guest hauto hpos hmax hfree hguest hslot =>
      rw [hslot]
      exact h.held.take hpos hfree
  have hissued : core.guestSlot ≤ guestNumberMax := by
    cases hstart with
    | prompt hauto => exact Nat.zero_le _
    | guest hauto hpos hmax hfree hguest hslot => exact hslot ▸ hmax
  have hguest : core.isGuest = true ↔ core.guestSlot ≠ 0 := by
    cases hstart with
    | prompt hauto => simp [SessionCore.isGuest, freshCore]
    | guest hauto hpos hmax hfree hguest hslot => simp [hguest, hslot, hpos]
  have hnamed : core.isGuest = true → core.record.username = guestName cfg.guestPrefix core.guestSlot := by
    intro hg
    cases hstart with
    | prompt hauto => cases hg
    | guest hauto hpos hmax hfree hguest hslot hname => rw [hslot, hname]
  exact
    { held := hheld
      issued := List.forall_mem_cons.mpr ⟨hissued, h.issued⟩
      guests := List.forall_mem_cons.mpr ⟨hguest, h.guests⟩
      named := List.forall_mem_cons.mpr ⟨hnamed, h.named⟩
      nodes := by
        rw [attachSession, List.length_cons, ← h.nodes]
      room := hroom
      handles := by
        rw [attachSession, List.map_cons, List.nodup_cons]
        refine ⟨fun hm => ?_, h.handles⟩
        obtain ⟨p, hp, hpk⟩ := List.mem_map.mp hm
        exact absurd (h.fresh p hp) (by simp only at hpk; omega)
      fresh := List.forall_mem_cons.mpr
        ⟨Nat.lt_succ_self _, fun p hp => Nat.lt_succ_of_lt (h.fresh p hp)⟩
      storage := fun _ => hstorage }

variable {handle : ℕ} {core : SessionCore} {a b : List (ℕ × SessionCore)}

lemma Accounted.others_held (h : Accounted cfg svc) (hs : svc.sessions = a ++ (handle, core) :: b) :
    SlotsHeld 0 svc.guestInUse (core.guestSlot :: (a ++ b).map fun p => p.2.guestSlot) := by
  have hheld := h.held
  rw [NodeService.slots, hs] at hheld
  exact hheld.of_perm (List.perm_middle.map fun p : ℕ × SessionCore => p.2.guestSlot)

/-- Releasing the slot of a session leaves those of the others. -/
lemma Accounted.release (h : Accounted cfg svc) (hs : svc.sessions = a ++ (handle, core) :: b) :
    ∃ inUse, releaseGuestSlot svc core = ({ svc with guestInUse := inUse }, { core with guestSlot := 0 }) ∧
      SlotsHeld 0 inUse ((a ++ b).map fun p => p.2.guestSlot) := by
  have hothers := h.others_held hs
  by_cases hslot : core.guestSlot = 0
  · refine ⟨svc.guestInUse, ?_, ?_⟩
    · rw [releaseGuestSlot_none hslot, ← hslot]
    · rw [hslot] at hothers
      exact hothers.of_cons_free
  · have hmax := h.issued (handle, core) (by simp [hs])
    exact ⟨_, releaseGuestSlot_some hslot hmax, hothers.release hslot⟩

lemma Accounted.close (h : Accounted cfg svc) (handle : ℕ) : Accounted cfg (sessionClose handle svc) := by
  rw [sessionClose]
  cases hl : svc.sessions.lookup handle with
  | none => exact h
  | some core =>
    obtain ⟨a, b, hs, herase, -⟩ := lookup_around h.handles hl
    obtain ⟨inUse, hrelease, hheld⟩ := h.release hs
    have hlength : svc.activeNodes = (a ++ b).length + 1 := by
      rw [h.nodes, hs, List.length_append, List.length_append, List.length_cons]
      omega
    have hothers {P : ℕ × SessionCore → Prop} (hP : ∀ p ∈ svc.sessions, P p) : ∀ p ∈ a ++ b, P p :=
      forall_mem_removed (hs ▸ hP)
    have hsub : ((a ++ b).map Prod.fst).Nodup := by
      have hnodup := h.handles
      rw [hs] at hnodup
      exact hnodup.sublist ((List.sublist_append_right [(handle, core)] b |>.append_left a).map Prod.fst)
    dsimp only
    rw [hrelease, detachSession, releaseNode, if_pos (by dsimp only; omega)]
    dsimp only
    rw [herase]
    exact
      { held := hheld
        issued := hothers h.issued
        guests := hothers h.guests
        named := hothers h.named
        nodes := by
          dsimp only
          omega
        room := le_trans (Nat.sub_le _ _) h.room
        handles := hsub
        fresh := hothers h.fresh
        storage := fun _ => h.storage (by simp [hs]) }

/-- A switch keeps the session's slot as it was left; if the storage takes the new session, it belongs to no guest. -/
lemma switchedCore_facts (hstorage : cfg.storageOpen = true) {user : UserRecord} (hlevel : user.level ≠ .guest)
    (answer : BeginAnswer) (now : Int64) (core : SessionCore) :
    (switchedCore cfg user answer now core).1.guestSlot = core.guestSlot ∧
      (switchedCore cfg user answer now core).1.isGuest = (core.isGuest && !answer.isOk) := by
  rw [switchedCore, if_neg (by simp [hstorage])]
  cases answer with
  | error rc =>
    refine ⟨rfl, ?_⟩
    simp [sessionBegin, Except.map, Except.isOk, Except.toBool]
  | ok id =>
    refine ⟨rfl, ?_⟩
    simp [sessionBegin, Except.map, Except.isOk, Except.toBool, SessionCore.isGuest, hlevel]

lemma Accounted.switched_noGuest (h : Accounted cfg svc) {handle : ℕ} {core : SessionCore} {user : UserRecord}
    {answer : BeginAnswer} (hmem : (handle, core) ∈ svc.sessions) (hlevel : user.level ≠ .guest) (now : Int64)
    (hbegin : answer.isOk = true ∨ core.guestSlot = 0) :
    (switchedCore cfg user answer now { core with guestSlot := 0 }).1.isGuest = false := by
  rw [(switchedCore_facts (h.storage (List.ne_nil_of_mem hmem)) hlevel answer now { core with guestSlot := 0 }).2]
  rcases hbegin with hok | hslot
  · rw [hok, Bool.not_true, Bool.and_false]
  · have hcore : core.isGuest = false := by
      rw [← Bool.not_eq_true, h.guests _ hmem, not_not]
      exact hslot
    rw [Bool.and_eq_false_iff]
    exact .inl hcore

lemma Accounted.switchUser (h : Accounted cfg svc) {handle : ℕ} {user : UserRecord} {answer : BeginAnswer} {now : Int64}
    (hbegin : user.level = .guest ∨ answer.isOk = true ∨ ∀ core,
    svc.sessions.lookup handle = some core → core.guestSlot = 0) :
    Accounted cfg (sessionSwitchUser cfg handle user answer now svc).1 := by
  rw [sessionSwitchUser]
  cases hl : svc.sessions.lookup handle with
  | none => exact h
  | some core =>
    by_cases hlevel : user.level = .guest
    · dsimp only
      rw [if_pos hlevel]
      exact h
    obtain ⟨a, b, hs, -, hset⟩ := lookup_around h.handles hl
    obtain ⟨inUse, hrelease, hheld⟩ := h.release hs
    have hmem : (handle, core) ∈ svc.sessions := by simp [hs]
    have hslot := (switchedCore_facts (h.storage (List.ne_nil_of_mem hmem)) hlevel answer now { core with guestSlot := 0 }).1
    have hnone := h.switched_noGuest hmem hlevel now (hbegin.resolve_left hlevel |>.imp_right fun hb => hb core hl)
    dsimp only
    rw [if_neg hlevel, hrelease, NodeService.setCore]
    dsimp only
    generalize (switchedCore cfg user answer now { core with guestSlot := 0 }).1 = core' at hslot hnone
    rw [hset core']
    have hall {P : ℕ × SessionCore → Prop} (hP : ∀ p ∈ svc.sessions, P p) (hcore : P (handle, core')) :
        ∀ p ∈ a ++ (handle, core') :: b, P p :=
      forall_mem_replaced (hs ▸ hP) hcore
    exact
      { held := by
          have hperm := (@List.perm_middle _ (handle, core') a b).map fun p => p.2.guestSlot
          rw [List.map_cons, hslot] at hperm
          exact hheld.cons_free.of_perm hperm.symm
        issued := hall h.issued (by rw [hslot]; exact Nat.zero_le _)
        guests := hall h.guests (by simp [hslot, hnone])
        named := hall h.named (by simp [hnone])
        nodes := by
          rw [h.nodes, hs]
          simp
        room := h.room
        handles := by
          have hnodup := h.handles
          rw [hs] at hnodup
          simpa using hnodup
        fresh := hall h.fresh (show handle < svc.nextHandle from h.fresh _ hmem)
        storage := fun _ => h.storage (List.ne_nil_of_mem hmem) }

end Accounts

section Runs

inductive SessionOp
  | open (call : OpenCall)
  | switchUser (handle : ℕ) (user : UserRecord) (answer : BeginAnswer) (now : Int64)
  | close (handle : ℕ)

def sessionStep (cfg : ServiceConfig) (svc : NodeService) : SessionOp → NodeService × List Empty
  | .open call => ((sessionOpen cfg call svc).1, [])
  | .switchUser handle user answer now => ((sessionSwitchUser cfg handle user answer now svc).1, [])
  | .close handle => (sessionClose handle svc, [])

def NodeService.start : NodeService := ⟨fun _ => false, 0, [], 1⟩

def sessionRun (cfg : ServiceConfig) (ops : List SessionOp) : NodeService :=
  (Transducer.run (sessionStep cfg) .start ops).1

/-- A guest's switch to an account finds the storage working. -/
def SwitchBegins (svc : NodeService) : SessionOp → Prop
  | .switchUser handle user answer _ =>
    user.level = .guest ∨ answer.isOk = true ∨ ∀ core, svc.sessions.lookup handle = some core → core.guestSlot = 0
  | _ => True

/-- What the slots and the node count say of the open sessions. -/
structure SlotsAndNodes (cfg : ServiceConfig) (svc : NodeService) : Prop where
  slots : ∀ k, 1 ≤ k → k ≤ guestNumberMax →
    (svc.guestInUse k = true ↔ svc.sessions.countP (fun p => p.2.guestSlot = k) = 1)
  guests : ∀ p ∈ svc.sessions, p.2.isGuest = true ↔ p.2.guestSlot ≠ 0
  names : ((svc.sessions.filter fun p => p.2.isGuest).map fun p => p.2.record.username).Nodup
  nodes : svc.activeNodes = svc.sessions.length
  room : svc.activeNodes ≤ cfg.maxOnline

variable {cfg : ServiceConfig} {svc : NodeService}

lemma guestPrefixText_ok (guestPrefix : CText authGuestPrefixMax) :
    0 ∉ guestPrefixText guestPrefix ∧ (guestPrefixText guestPrefix).length < authGuestPrefixMax := by
  rw [guestPrefixText]
  split_ifs
  · decide
  · exact ⟨guestPrefix.string, guestPrefix.fits⟩

lemma guestName_inj {guestPrefix : CText authGuestPrefixMax} {j k : ℕ} (hj : j ≤ guestNumberMax)
    (hk : k ≤ guestNumberMax)
    (h : guestName guestPrefix j = guestName guestPrefix k) : j = k := by
  obtain ⟨h0, hlen⟩ := guestPrefixText_ok guestPrefix
  have htext : ∀ n, n ≤ guestNumberMax →
      (guestName guestPrefix n).text = guestPrefixText guestPrefix ++ decimal n := by
    intro n hn
    apply CText.copy_text
    · rw [List.mem_append, not_or]
      exact ⟨h0, fun hz => absurd (isDigit_of_mem_decimal hz) (by decide)⟩
    · have hdigits := decimal_length_le (k := 2) (by omega) (by simp only [guestNumberMax] at hn; omega : n < 10 ^ 2)
      rw [List.length_append]
      simp only [authGuestPrefixMax, userNameMax] at *
      omega
  have htexts := congrArg CText.text h
  rw [htext j hj, htext k hk] at htexts
  exact decimal_injective (List.append_cancel_left htexts)

lemma Accounted.slotsAndNodes (h : Accounted cfg svc) : SlotsAndNodes cfg svc where
  slots k hk _ := by
    rw [h.held.inUse_iff (Nat.ne_of_gt hk), NodeService.slots, List.count_eq_countP, List.countP_map]
    have hsame : (fun p : ℕ × SessionCore => decide (p.2.guestSlot = k)) =
        ((fun j => j == k) ∘ fun p : ℕ × SessionCore => p.2.guestSlot) := by
      funext p
      rw [Function.comp_apply, beq_eq_decide]
    rw [hsame]
  guests := h.guests
  names := by
    have hslots : ((svc.sessions.filter fun p => p.2.isGuest).map fun p => p.2.guestSlot).Nodup := by
      have hnodup := h.held.nodup
      rw [NodeService.slots, List.filter_map] at hnodup
      have hfilter : svc.sessions.filter (fun p => p.2.isGuest) =
          svc.sessions.filter ((fun j => decide (j ≠ 0)) ∘ fun p : ℕ × SessionCore => p.2.guestSlot) := by
        apply List.filter_congr
        intro p hp
        rw [Function.comp_apply, Bool.eq_iff_iff, h.guests p hp, decide_eq_true_eq]
      rw [hfilter]
      exact hnodup
    rw [List.Nodup, List.pairwise_map] at hslots ⊢
    refine hslots.imp_of_mem fun {p q} hp hq hne hname => hne ?_
    obtain ⟨hp, hgp⟩ := List.mem_filter.mp hp
    obtain ⟨hq, hgq⟩ := List.mem_filter.mp hq
    rw [h.named p hp hgp, h.named q hq hgq] at hname
    exact guestName_inj (h.issued p hp) (h.issued q hq) hname
  nodes := h.nodes
  room := h.room

lemma accounted_start (cfg : ServiceConfig) : Accounted cfg .start where
  held k _ := rfl
  issued p hp := by cases hp
  guests p hp := by cases hp
  named p hp := by cases hp
  nodes := rfl
  room := Nat.zero_le _
  handles := List.nodup_nil
  fresh p hp := by cases hp
  storage h := absurd rfl h

lemma Accounted.step (h : Accounted cfg svc) (op : SessionOp) (hop : SwitchBegins svc op) :
    Accounted cfg (sessionStep cfg svc op).1 := by
  cases op with
  | «open» call => exact h.open call
  | switchUser handle user answer now => exact h.switchUser hop
  | close handle => exact h.close handle

/-- As long as the storage takes every session that a guest switches to, slots, names and nodes are accounted for. -/
theorem slots_and_nodes {ops : List SessionOp} (h : Transducer.Along (sessionStep cfg) SwitchBegins .start ops) :
    SlotsAndNodes cfg (sessionRun cfg ops) :=
  (@Transducer.along_invariant _ _ _ (sessionStep cfg) _ (Accounted cfg) (fun _ op hs hop => hs.step op hop) _
    (accounted_start cfg) _ h).slotsAndNodes

def lobbyConfig : ServiceConfig := ⟨true, .empty, 2, 30, true, true⟩

def telnetCall (id : ℕ) : OpenCall := ⟨.telnet, 0, true, .ok id, true⟩

def anna : UserRecord :=
  { UserRecord.zero with id := 7, username := CText.copy (ofString "anna"), active := true, idFits := by decide }

theorem slots_and_nodes_anna :
    SlotsAndNodes lobbyConfig (sessionRun lobbyConfig
      [.open (telnetCall 1), .switchUser 1 anna (.ok 2) 0, .open (telnetCall 3), .close 1]) :=
  slots_and_nodes ⟨trivial, .inr (.inl rfl), trivial, trivial, trivial⟩

/-- A guest whose switch fails stays a guest and loses the slot, so the next guest gets the same name. -/
theorem guest_named_twice :
    ¬SlotsAndNodes lobbyConfig (sessionRun lobbyConfig
      [.open (telnetCall 1), .switchUser 1 anna (.error .errIo) 0, .open (telnetCall 2)]) := by
  intro h
  have hnames := h.names
  revert hnames
  decide +kernel

end Runs

end HyBBX.Session
