import HyBBX.Security.Start
import HyBBX.Security.Flood

/-! How many connections of one address are accepted in a window. -/

namespace HyBBX.Security

open HyBBX.Core Lib Lib.Bytes Lib.Text Config

/-- The table has or can have an entry for the address. -/
def RateRoom (st : SecurityState) (ip : Bytes) : Prop := st.rates.lookup ip ≠ none ∨ st.rates.HasFree

def rateStampsOf (st : SecurityState) (ip : Bytes) : List ℤ := stampsIn st.rates ip

/-- A new stamp in an array of 32; a full array takes none. -/
def pushRate (kept : List ℤ) (now : ℤ) : List ℤ := if kept.length < rateStamps then kept ++ [now] else kept

section Spec

variable {cfg : SecurityCfg} {st : SecurityState} (h : st.rates.Unique)

include h in
lemma recordRate_spec (ip : Bytes) (hroom : RateRoom st ip) (now : ℤ) :
    (recordRateLocked cfg st ip now).rates.Unique ∧
      ∀ key, rateStampsOf (recordRateLocked cfg st ip now) key =
        if key = ip then pushRate (pruneWindow cfg.rateWindowSec now (rateStampsOf st ip)) now
        else rateStampsOf st key := by
  rw [recordRateLocked, if_neg (SlotTable.room_iff.mpr hroom)]
  dsimp only
  rw [← stampsIn, ← rateStampsOf, ← pushRate]
  set kept := pruneWindow cfg.rateWindowSec now (rateStampsOf st ip)
  obtain ⟨t, ht⟩ : ∃ t, t = if kept = [] then st.rates.release ip else st.rates := ⟨_, rfl⟩
  rw [← ht]
  have htable : t.Unique ∧ (t.lookup ip ≠ none ∨ t.HasFree) ∧ ∀ key, key ≠ ip → t.lookup key = st.rates.lookup key := by
    split_ifs at ht
    · subst ht
      refine ⟨(SlotTable.release_spec h ip).1, .inr ?_, fun key hne => ?_⟩
      · rcases hroom with hl | hf
        · exact SlotTable.hasFree_release hl
        · exact release_room hf ip
      · rw [(SlotTable.release_spec h ip).2, if_neg hne]
    · subst ht
      exact ⟨h, hroom, fun _ _ => rfl⟩
  obtain ⟨hu, hr, hsame⟩ := htable
  obtain ⟨hu', hl'⟩ := SlotTable.put_spec hu hr (pushRate kept now)
  refine ⟨hu', fun key => ?_⟩
  rw [rateStampsOf, stampsIn, hl' key]
  split_ifs with hk
  · rfl
  · rw [hsame key hk, rateStampsOf, stampsIn]

/-- The query for a ban in front of the count may only release an expired ban. -/
lemma banIsBanned_rates (ip : Bytes) (now : ℤ) : (banIsBanned cfg st ip now).1.rates = st.rates := by
  rw [banIsBanned]
  split_ifs
  · rfl
  · cases st.bans.lookup ip with
    | none => rfl
    | some expireAt =>
      dsimp only
      split_ifs <;> rfl

lemma applyBanLocked_rates (ip reason : Bytes) (now : ℤ) :
    (applyBanLocked cfg st ip reason now).1.rates = st.rates := by
  rw [applyBanLocked]
  split_ifs <;> rfl

/-- What an accept decides and what it leaves in the arrays. -/
structure AcceptSpec (cfg : SecurityCfg) (st : SecurityState) (ip : Bytes) (now : ℤ) : Prop where
  unique : (banAccept cfg st ip now).1.rates.Unique
  others : ∀ key, key ≠ ip → rateStampsOf (banAccept cfg st ip now).1 key = rateStampsOf st key
  admits : (banAccept cfg st ip now).2.1 = true → RateRoom st ip →
    (pruneWindow cfg.rateWindowSec now (rateStampsOf st ip)).length < cfg.rateLimit ∧
      rateStampsOf (banAccept cfg st ip now).1 ip =
        pushRate (pruneWindow cfg.rateWindowSec now (rateStampsOf st ip)) now
  refuses : (banAccept cfg st ip now).2.1 = false →
    rateStampsOf (banAccept cfg st ip now).1 ip = rateStampsOf st ip ∨
      rateStampsOf (banAccept cfg st ip now).1 ip = pruneWindow cfg.rateWindowSec now (rateStampsOf st ip)

include h in
lemma banAccept_spec (hen : cfg.enabled = true) (hl : 1 ≤ cfg.rateLimit) (hw : 1 ≤ cfg.rateWindowSec) {ip : Bytes}
    (hv : ipValid ip = true) (now : ℤ) : AcceptSpec cfg st ip now := by
  have hrates := @banIsBanned_rates cfg st ip now
  have hactive : ¬(cfg.enabled = false ∨ ipValid ip = false) := by simp [hen, hv]
  have hlimits : ¬(cfg.rateLimit = 0 ∨ cfg.rateWindowSec = 0) := by omega
  by_cases hb : (banIsBanned cfg st ip now).2 = true
  · have he : banAccept cfg st ip now = ((banIsBanned cfg st ip now).1, false, []) := by
      rw [banAccept, if_neg hactive]
      dsimp only
      rw [if_pos hb]
    refine ⟨?_, fun key _ => ?_, fun hadm => ?_, fun _ => .inl ?_⟩
    · rw [he]
      exact hrates ▸ h
    · rw [he, rateStampsOf, hrates, rateStampsOf]
    · rw [he] at hadm
      exact absurd hadm Bool.false_ne_true
    · rw [he, rateStampsOf, hrates, rateStampsOf]
  · obtain ⟨r, hr⟩ : ∃ r, r = (banIsBanned cfg st ip now).1 := ⟨_, rfl⟩
    rw [← hr] at hrates
    have hstamps : ∀ key, rateStampsOf r key = rateStampsOf st key := fun key => by
      rw [rateStampsOf, hrates, rateStampsOf]
    by_cases hfull : pruneWindow cfg.rateWindowSec now (rateStampsOf st ip) ≠ [] ∧
        cfg.rateLimit ≤ (pruneWindow cfg.rateWindowSec now (rateStampsOf st ip)).length
    · -- the limit is reached: the address is banned and its pruned stamps stay
      obtain ⟨q, hq⟩ : ∃ q,
        q = { r with rates := r.rates.put ip (pruneWindow cfg.rateWindowSec now (rateStampsOf st ip)) } :=
        ⟨_, rfl⟩
      have he : banAccept cfg st ip now =
          ((applyBanLocked cfg q ip (ofString "rate_limit") now).1, false,
            (applyBanLocked cfg q ip (ofString "rate_limit") now).2) := by
        rw [banAccept, if_neg hactive]
        dsimp only
        rw [if_neg hb, if_neg hlimits, ← hr, ← stampsIn, ← rateStampsOf, hstamps, if_pos hfull, ← hq]
      have hlookup : r.rates.lookup ip ≠ none := by
        intro hn
        rw [hrates] at hn
        rw [rateStampsOf, stampsIn, hn] at hfull
        exact hfull.1 rfl
      obtain ⟨hu, hput⟩ := SlotTable.put_spec (hrates ▸ h : r.rates.Unique) (.inl hlookup)
        (pruneWindow cfg.rateWindowSec now (rateStampsOf st ip))
      have hqr : (applyBanLocked cfg q ip (ofString "rate_limit") now).1.rates =
          r.rates.put ip (pruneWindow cfg.rateWindowSec now (rateStampsOf st ip)) := by
        rw [applyBanLocked_rates, hq]
      rw [← hqr] at hu hput
      refine ⟨?_, fun key hne => ?_, fun hadm => ?_, fun _ => .inr ?_⟩
      · rw [he]
        exact hu
      · rw [he, rateStampsOf, stampsIn, hput, if_neg hne, ← stampsIn, ← rateStampsOf, hstamps]
      · rw [he] at hadm
        exact absurd hadm Bool.false_ne_true
      · rw [he, rateStampsOf, stampsIn, hput, if_pos rfl]
        rfl
    · have he : banAccept cfg st ip now = (recordRateLocked cfg r ip now, true, []) := by
        rw [banAccept, if_neg hactive]
        dsimp only
        rw [if_neg hb, if_neg hlimits, ← hr, ← stampsIn, ← rateStampsOf, hstamps, if_neg hfull]
      have hbelow : (pruneWindow cfg.rateWindowSec now (rateStampsOf st ip)).length < cfg.rateLimit := by
        by_contra hge
        refine hfull ⟨fun hnil => ?_, not_lt.mp hge⟩
        rw [hnil, List.length_nil] at hge
        omega
      have hur : r.rates.Unique := hrates ▸ h
      by_cases hroom : RateRoom r ip
      · obtain ⟨hu, hrec⟩ := @recordRate_spec cfg r hur ip hroom now
        refine ⟨?_, fun key hne => ?_, fun _ _ => ⟨hbelow, ?_⟩, fun hd => ?_⟩
        · rw [he]
          exact hu
        · rw [he, hrec, if_neg hne, hstamps]
        · rw [he, hrec, if_pos rfl, hstamps]
        · rw [he] at hd
          exact absurd hd (by simp)
      · have hsame : recordRateLocked cfg r ip now = r := by
          rw [recordRateLocked, if_pos (not_not.mp (fun hn => hroom (SlotTable.room_iff.mp hn)))]
        refine ⟨?_, fun key _ => ?_, fun _ hroom' => ?_, fun hd => ?_⟩
        · rw [he, hsame]
          exact hur
        · rw [he, hsame, hstamps]
        · exact absurd (show RateRoom r ip by rw [RateRoom, hrates]; exact hroom') hroom
        · rw [he] at hd
          exact absurd hd (by simp)

end Spec

lemma banFor_rates (cfg : SecurityCfg) (k : Tracker) (st : SecurityState) (key reason : Bytes) (now : ℤ) :
    (banFor cfg k st key reason now).1.rates = st.rates := by
  rw [banFor]
  split_ifs
  · exact applyBanLocked_rates key reason now
  · rw [applyCallidBanLocked]
    split_ifs <;> rfl

/-- What any other call does to the stamps: nothing, or it prunes them. -/
lemma other_rates {cfg : SecurityCfg} {st st' : SecurityState} (h : st.rates.Unique) {now : ℤ} {op : SecurityOp}
    {es : List BanEvent} (hop : ∀ ip, op ≠ .accept ip) (hstep : securityStep cfg st now op = some (st', es)) :
    st'.rates.Unique ∧ ∀ key, rateStampsOf st' key = rateStampsOf st key ∨
      rateStampsOf st' key = pruneWindow cfg.rateWindowSec now (rateStampsOf st key) := by
  have hsame : st'.rates = st.rates → st'.rates.Unique ∧ ∀ key, rateStampsOf st' key = rateStampsOf st key ∨
      rateStampsOf st' key = pruneWindow cfg.rateWindowSec now (rateStampsOf st key) := by
    intro he
    refine ⟨he ▸ h, fun key => .inl ?_⟩
    rw [rateStampsOf, he, rateStampsOf]
  cases hr : op.report cfg with
  | some r =>
    obtain ⟨k, key, reason⟩ := r
    simp only [securityStep, hr, recordLocked] at hstep
    cases hrec : recordStamp cfg k (st.tracks k) key now with
    | none =>
      rw [hrec] at hstep
      exact absurd hstep (by simp)
    | some q =>
      rw [hrec] at hstep
      apply hsame
      obtain ⟨t, reached⟩ := q
      obtain he := congrArg Prod.fst (Option.some.inj hstep)
      dsimp only at he
      subst he
      split_ifs
      · exact banFor_rates ..
      · rfl
  | none =>
    simp only [securityStep, hr] at hstep
    cases op with
    | accept ip => exact absurd rfl (hop ip)
    | isBanned ip =>
      obtain rfl := congrArg Prod.fst (Option.some.inj hstep)
      exact hsame (banIsBanned_rates ip.text now)
    | callidIsBanned callid =>
      obtain rfl := congrArg Prod.fst (Option.some.inj hstep)
      apply hsame
      rw [banCallidIsBanned]
      split_ifs
      · rfl
      · cases callidNormalize callid callidMax with
        | none => rfl
        | some norm =>
          dsimp only
          rw [callidIsBannedLocked]
          cases st.callidBans.lookup norm with
          | none => rfl
          | some ban =>
            dsimp only
            split_ifs <;> rfl
    | tick =>
      obtain rfl := congrArg Prod.fst (Option.some.inj hstep)
      rw [banTick]
      split_ifs
      · exact ⟨h, fun _ => .inl rfl⟩
      · obtain ⟨hu, hp⟩ := pruneTable_spec h cfg.rateWindowSec now
        exact ⟨hu, fun key => .inr (hp key)⟩
    | _ =>
      obtain rfl := congrArg Prod.fst (Option.some.inj hstep)
      exact hsame rfl

/-! Runs of calls: the admissions of one address stay below the limit as long as its array can hold that many. -/

/-- Whether a call admits a connection of the address. -/
def admitted (cfg : SecurityCfg) (st : SecurityState) (ip : Bytes) (c : TimedOp) : Bool :=
  match c.op with
  | .accept source => source.text = ip && (banAccept cfg st source.text c.now).2.1
  | _ => false

/-- The times of the connections of one address that a run admits. -/
def admissions (cfg : SecurityCfg) (ip : Bytes) : SecurityState → List TimedOp → List ℤ
  | _, [] => []
  | st, c :: cs =>
    (if admitted cfg st ip c then [c.now] else []) ++
      match securityStep cfg st c.now c.op with
      | some r => admissions cfg ip r.1 cs
      | none => []

/-- Whenever the address connects, its table has a slot for it. -/
def RateRoomy (cfg : SecurityCfg) (ip : RemoteAddr) : SecurityState → List TimedOp → Prop
  | _, [] => True
  | st, c :: cs =>
    (c.op = .accept ip → RateRoom st ip.text) ∧
      ∀ r, securityStep cfg st c.now c.op = some r → RateRoomy cfg ip r.1 cs

def admittedWithin (ts : List ℤ) (start : ℤ) (window : ℕ) : ℕ := ts.countP fun t => start ≤ t ∧ t ≤ start + window

/-- No window sees more than `rate_limit` admissions of one address. -/
def RateBounded (cfg : SecurityCfg) (start : SecurityState) : Prop :=
  ∀ (ip : RemoteAddr) (cs : List TimedOp), ipValid ip.text = true → (cs.map TimedOp.now).Pairwise (· ≤ ·) →
    RateRoomy cfg ip start cs →
      ∀ s : ℤ, admittedWithin (admissions cfg ip.text start cs) s cfg.rateWindowSec ≤ cfg.rateLimit

lemma remoteAddr_eq {a b : RemoteAddr} (h : a.text = b.text) : a = b := by
  cases a
  cases b
  cases h
  rfl

section Bound

variable {cfg : SecurityCfg} (hen : cfg.enabled = true) (hl : 1 ≤ cfg.rateLimit) (hw : 1 ≤ cfg.rateWindowSec)
  {ip : RemoteAddr} (hv : ipValid ip.text = true)

include hen hl hw hv in
/-- An admission adds a stamp below the limit; every other call at most prunes the array. -/
lemma step_rates {st st' : SecurityState} (h : st.rates.Unique) {c : TimedOp} {es : List BanEvent}
    (hroom : c.op = .accept ip → RateRoom st ip.text) (hstep : securityStep cfg st c.now c.op = some (st', es)) :
    st'.rates.Unique ∧
      if admitted cfg st ip.text c then
        (pruneWindow cfg.rateWindowSec c.now (rateStampsOf st ip.text)).length < cfg.rateLimit ∧
          rateStampsOf st' ip.text = pushRate (pruneWindow cfg.rateWindowSec c.now (rateStampsOf st ip.text)) c.now
      else rateStampsOf st' ip.text = rateStampsOf st ip.text ∨
        rateStampsOf st' ip.text = pruneWindow cfg.rateWindowSec c.now (rateStampsOf st ip.text) := by
  obtain ⟨now, op⟩ := c
  by_cases hop : ∃ source, op = .accept source
  · obtain ⟨source, rfl⟩ := hop
    simp only [securityStep, SecurityOp.report] at hstep
    have he : (banAccept cfg st source.text now).1 = st' := congrArg Prod.fst (Option.some.inj hstep)
    by_cases hsv : ipValid source.text = true
    · obtain ⟨hu, hothers, hadmits, hrefuses⟩ := @banAccept_spec cfg st h hen hl hw source.text hsv now
      rw [he] at hu hothers hadmits hrefuses
      refine ⟨hu, ?_⟩
      by_cases hs : source.text = ip.text
      · obtain rfl := remoteAddr_eq hs
        split_ifs with hadm
        · simp only [admitted, decide_true, Bool.true_and] at hadm
          exact hadmits hadm (hroom rfl)
        · simp only [admitted, decide_true, Bool.true_and, Bool.not_eq_true] at hadm
          exact hrefuses hadm
      · have hadm : admitted cfg st ip.text ⟨now, .accept source⟩ = false := by simp [admitted, hs]
        rw [hadm, if_neg Bool.false_ne_true]
        exact .inl (hothers _ (Ne.symm hs))
    · have hs : source.text ≠ ip.text := fun hh => hsv (hh ▸ hv)
      have hadm : admitted cfg st ip.text ⟨now, .accept source⟩ = false := by simp [admitted, hs]
      rw [banAccept, if_pos (.inr (Bool.eq_false_iff.mpr hsv))] at he
      subst he
      rw [hadm, if_neg Bool.false_ne_true]
      exact ⟨h, .inl rfl⟩
  · have hne : ∀ source, op ≠ .accept source := fun source hh => hop ⟨source, hh⟩
    obtain ⟨hu, hst⟩ := other_rates h hne hstep
    have hadm : admitted cfg st ip.text ⟨now, op⟩ = false := by
      cases op with
      | accept source => exact absurd rfl (hne source)
      | _ => rfl
    rw [hadm, if_neg Bool.false_ne_true]
    exact ⟨hu, hst ip.text⟩

/-- The array of the address accounts for every admission that is still in the window. -/
structure Accounted (cfg : SecurityCfg) (ip : Bytes) (st : SecurityState) (past : List ℤ) (last : ℤ) : Prop where
  unique : st.rates.Unique
  earlier : ∀ t ∈ past, t ≤ last
  stamped : ∀ x, last ≤ x → inWindow cfg.rateWindowSec x past ≤ inWindow cfg.rateWindowSec x (rateStampsOf st ip)
  bounded : ∀ s, admittedWithin past s cfg.rateWindowSec ≤ cfg.rateLimit

lemma inWindow_snoc (window : ℕ) (x : ℤ) (ts : List ℤ) (t : ℤ) :
    inWindow window x (ts ++ [t]) = inWindow window x ts + if x - t ≤ window then 1 else 0 := by
  rw [inWindow, List.countP_append, List.countP_singleton, inWindow]
  simp only [decide_eq_true_eq]

/-- What lies in a window that contains `now` is recent at `now`. -/
lemma admittedWithin_le_inWindow {ts : List ℤ} {s now : ℤ} {window : ℕ} (hs : now ≤ s + window) :
    admittedWithin ts s window ≤ inWindow window now ts := by
  apply List.countP_mono_left
  intro t _ ht
  simp only [decide_eq_true_eq] at ht ⊢
  omega

include hen hl hw hv in
lemma step_accounted (hlimit : cfg.rateLimit ≤ rateStamps) {st st' : SecurityState} {past : List ℤ} {last : ℤ}
    (h : Accounted cfg ip.text st past last) {c : TimedOp} {es : List BanEvent} (hc : last ≤ c.now)
    (hroom : c.op = .accept ip → RateRoom st ip.text) (hstep : securityStep cfg st c.now c.op = some (st', es)) :
    Accounted cfg ip.text st' (past ++ if admitted cfg st ip.text c then [c.now] else []) c.now := by
  obtain ⟨hu, hst⟩ := step_rates hen hl hw hv h.unique hroom hstep
  split_ifs at hst ⊢ with hadm
  · obtain ⟨hbelow, hpush⟩ := hst
    rw [pushRate, if_pos (lt_of_lt_of_le hbelow hlimit)] at hpush
    refine ⟨hu, fun t ht => ?_, fun x hx => ?_, fun s => ?_⟩
    · rcases List.mem_append.mp ht with hp | hn
      · exact (h.earlier t hp).trans hc
      · exact le_of_eq (List.mem_singleton.mp hn)
    · rw [hpush, inWindow_snoc, inWindow_snoc, inWindow_prune hx]
      exact Nat.add_le_add_right (h.stamped x (hc.trans hx)) _
    · rw [admittedWithin, List.countP_append, List.countP_singleton, ← admittedWithin]
      split_ifs with hin
      · simp only [decide_eq_true_eq] at hin
        have hkept : inWindow cfg.rateWindowSec c.now (rateStampsOf st ip.text) < cfg.rateLimit := by
          rw [inWindow, List.countP_eq_length_filter]
          exact hbelow
        have hle := (@admittedWithin_le_inWindow past _ _ _ hin.2).trans (h.stamped c.now hc)
        omega
      · exact h.bounded s
  · rw [List.append_nil]
    refine ⟨hu, fun t ht => (h.earlier t ht).trans hc, fun x hx => ?_, h.bounded⟩
    refine (h.stamped x (hc.trans hx)).trans ?_
    rcases hst with hsame | hpruned
    · rw [hsame]
    · rw [hpruned, inWindow_prune hx]

omit hen hl hw hv in
/-- A call that leaves an array admits nobody. -/
lemma not_admitted_of_none {st : SecurityState} {ip : Bytes} {c : TimedOp}
    (hstep : securityStep cfg st c.now c.op = none) : admitted cfg st ip c = false := by
  obtain ⟨now, op⟩ := c
  cases op with
  | accept source => exact absurd hstep (by simp [securityStep, SecurityOp.report])
  | _ => rfl

include hen hl hw hv in
lemma run_bounded (hlimit : cfg.rateLimit ≤ rateStamps) {cs : List TimedOp} {st : SecurityState} {past : List ℤ}
    {last : ℤ} (h : Accounted cfg ip.text st past last) (hclock : (last :: cs.map TimedOp.now).Pairwise (· ≤ ·))
    (hroomy : RateRoomy cfg ip st cs) (s : ℤ) :
    admittedWithin (past ++ admissions cfg ip.text st cs) s cfg.rateWindowSec ≤ cfg.rateLimit := by
  induction cs generalizing st past last with
  | nil =>
    rw [admissions, List.append_nil]
    exact h.bounded s
  | cons c cs ih =>
    rw [List.map_cons] at hclock
    obtain ⟨hlast, hrest⟩ := List.pairwise_cons.mp hclock
    have hc := hlast c.now List.mem_cons_self
    rw [admissions]
    cases hstep : securityStep cfg st c.now c.op with
    | none =>
      rw [not_admitted_of_none hstep, if_neg Bool.false_ne_true, List.append_nil, List.append_nil]
      exact h.bounded s
    | some r =>
      rw [← List.append_assoc]
      exact ih (step_accounted hen hl hw hv hlimit h hc hroomy.1 hstep) hrest (hroomy.2 r hstep)

end Bound

section Crowd

variable {cfg : SecurityCfg} {ip : RemoteAddr}

/-- One address that is not banned, with room for its stamps. -/
structure Welcome (st : SecurityState) (ip : Bytes) : Prop where
  unbanned : st.bans.lookup ip = none
  unique : st.rates.Unique
  room : RateRoom st ip
  few : (rateStampsOf st ip).length ≤ rateStamps

lemma pushRate_spec {kept : List ℤ} (h : kept.length ≤ rateStamps) (now : ℤ) :
    pushRate kept now ≠ [] ∧ (pushRate kept now).length ≤ rateStamps := by
  rw [pushRate]
  split_ifs with hlt
  · rw [List.length_append, List.length_singleton]
    exact ⟨by simp, hlt⟩
  · refine ⟨fun hnil => hlt ?_, h⟩
    rw [hnil]
    decide

lemma recordRate_welcome {st : SecurityState} (h : Welcome st ip.text) (now : ℤ) :
    Welcome (recordRateLocked cfg st ip.text now) ip.text := by
  obtain ⟨hu, hst⟩ := @recordRate_spec cfg st h.unique ip.text h.room now
  have hmine := hst ip.text
  rw [if_pos rfl] at hmine
  have hkept : (pruneWindow cfg.rateWindowSec now (rateStampsOf st ip.text)).length ≤ rateStamps :=
    (length_pruneWindow_le ..).trans h.few
  obtain ⟨hne, hfew⟩ := pushRate_spec hkept now
  refine ⟨?_, hu, .inl fun hnone => hne ?_, ?_⟩
  · rw [recordRateLocked]
    split_ifs
    · exact h.unbanned
    · exact h.unbanned
  · rw [← hmine, rateStampsOf, stampsIn, hnone]
    rfl
  · rw [hmine]
    exact hfew

/-- An array of 32 stamps never reaches a limit above 32. -/
lemma banAccept_welcome (hmany : cfg.enabled = true → rateStamps < cfg.rateLimit) (hw : 1 ≤ cfg.rateWindowSec)
    (hv : ipValid ip.text = true) {st : SecurityState} (h : Welcome st ip.text) (now : ℤ) :
    Welcome (banAccept cfg st ip.text now).1 ip.text ∧ (banAccept cfg st ip.text now).2.1 = true := by
  by_cases hen : cfg.enabled = true
  · have hlong := hmany hen
    have hb : banIsBanned cfg st ip.text now = (st, false) := by
      rw [banIsBanned, if_neg (by simp [hen, hv]), h.unbanned]
    have hkept : (pruneWindow cfg.rateWindowSec now (rateStampsOf st ip.text)).length ≤ rateStamps :=
      (length_pruneWindow_le ..).trans h.few
    rw [rateStampsOf, stampsIn] at hkept
    have he : banAccept cfg st ip.text now = (recordRateLocked cfg st ip.text now, true, []) := by
      rw [banAccept, if_neg (by simp [hen, hv])]
      dsimp only
      rw [hb, if_neg Bool.false_ne_true, if_neg (by omega), if_neg fun hh => by
        exact absurd (hh.2.trans hkept) (not_le.mpr hlong)]
    rw [he]
    exact ⟨recordRate_welcome h now, rfl⟩
  · have he : banAccept cfg st ip.text now = (st, true, []) := by
      rw [banAccept, if_pos (.inl (Bool.eq_false_iff.mpr hen))]
    rw [he]
    exact ⟨h, rfl⟩

lemma crowd_admitted (hmany : cfg.enabled = true → rateStamps < cfg.rateLimit) (hw : 1 ≤ cfg.rateWindowSec)
    (hv : ipValid ip.text = true) (now : ℤ) (n : ℕ) {st : SecurityState} (h : Welcome st ip.text) :
    admissions cfg ip.text st (List.replicate n ⟨now, .accept ip⟩) = List.replicate n now ∧
      RateRoomy cfg ip st (List.replicate n ⟨now, .accept ip⟩) := by
  induction n generalizing st with
  | zero => exact ⟨rfl, trivial⟩
  | succ n ih =>
    obtain ⟨hnext, hadm⟩ := banAccept_welcome hmany hw hv h now
    obtain ⟨hrest, hroomy⟩ := ih hnext
    have hstep : securityStep cfg st now (.accept ip) =
        some ((banAccept cfg st ip.text now).1, (banAccept cfg st ip.text now).2.2) := rfl
    rw [List.replicate_succ, List.replicate_succ]
    refine ⟨?_, fun _ => h.room, fun r hr => ?_⟩
    · have hthis : admitted cfg st ip.text ⟨now, .accept ip⟩ = true := by simp [admitted, hadm]
      rw [admissions, hthis, if_pos rfl, hstep, ← hrest]
      rfl
    · obtain rfl := Option.some.inj (hstep.symm.trans hr)
      exact hroomy

/-- One connection more than the limit allows, all at one instant, and each is let in. -/
lemma not_bounded_of_many (hmany : cfg.enabled = true → rateStamps < cfg.rateLimit) (hw : 1 ≤ cfg.rateWindowSec)
    (hv : ipValid ip.text = true) {st : SecurityState} (h : Welcome st ip.text) : ¬RateBounded cfg st := by
  intro hall
  obtain ⟨hadm, hroomy⟩ := crowd_admitted hmany hw hv 0 (cfg.rateLimit + 1) h
  have hclock : ((List.replicate (cfg.rateLimit + 1) (⟨0, .accept ip⟩ : TimedOp)).map TimedOp.now).Pairwise (· ≤ ·) := by
    rw [List.map_replicate]
    exact List.pairwise_replicate.mpr (.inr (le_refl _))
  have hcount := hall ip _ hv hclock hroomy 0
  rw [hadm, admittedWithin, List.countP_replicate, if_pos (by simp)] at hcount
  omega

end Crowd

lemma foldl_applyCallidBan_rates (cfg : SecurityCfg) (now : ℤ) (norms : List Bytes) (st : SecurityState) :
    (norms.foldl (fun st norm => (applyCallidBanLocked cfg st norm (ofString "config") now true).1) st).rates =
      st.rates := by
  induction norms generalizing st with
  | nil => rfl
  | cons norm norms ih =>
    rw [List.foldl_cons, ih, applyCallidBanLocked]
    split_ifs <;> rfl

lemma banConfigApply_rates (config : HybbxConfig) (now : ℤ) :
    (banConfigApply config freshState now).rates = freshState.rates := foldl_applyCallidBan_rates _ _ _ _

lemma freshState_rates (key : Bytes) : freshState.rates.lookup key = none := lookup_emptyTable _ _ _ key

lemma freshState_rates_hasFree : freshState.rates.HasFree :=
  ⟨⟨[], [], false⟩, List.mem_replicate.mpr ⟨by decide, rfl⟩, rfl⟩

lemma banConfigApply_welcome (config : HybbxConfig) (now : ℤ) (ip : Bytes) :
    Welcome (banConfigApply config freshState now) ip := by
  have hrates := banConfigApply_rates config now
  refine ⟨?_, ?_, .inr ?_, ?_⟩
  · rw [(banConfigApply_spec config now).1]
    exact freshState_bans ip
  · rw [hrates]
    exact unique_emptyTable _ _ _
  · rw [hrates]
    exact freshState_rates_hasFree
  · rw [rateStampsOf, stampsIn, hrates, freshState_rates]
    exact Nat.zero_le _

/-- The limit holds in every run exactly if security is on and the limit fits the 32 stamps of an entry. -/
theorem rate_bounded_iff (config : HybbxConfig) (now : ℤ) (hl : 1 ≤ (banConfig config).rateLimit)
    (hw : 1 ≤ (banConfig config).rateWindowSec) :
    RateBounded (banConfig config) (banConfigApply config freshState now) ↔
      (banConfig config).enabled = true ∧ (banConfig config).rateLimit ≤ 32 := by
  constructor
  · intro hall
    by_contra hcond
    apply @not_bounded_of_many (banConfig config) floodSource _ hw (by decide) _
      (banConfigApply_welcome config now floodSource.text) hall
    intro hen
    by_contra hle
    exact hcond ⟨hen, not_lt.mp hle⟩
  · rintro ⟨hen, hlimit⟩ ip cs hv hclock hroomy s
    have hw₀ := banConfigApply_welcome config now ip.text
    cases cs with
    | nil => exact Nat.zero_le _
    | cons c cs =>
      have hacc : Accounted (banConfig config) ip.text (banConfigApply config freshState now) [] c.now :=
        ⟨hw₀.unique, fun t ht => absurd ht List.not_mem_nil, fun x _ => Nat.zero_le _, fun s => Nat.zero_le _⟩
      refine run_bounded hen hl hw hv hlimit hacc ?_ hroomy s
      rw [List.map_cons] at hclock ⊢
      refine List.pairwise_cons.mpr ⟨fun t ht => ?_, hclock⟩
      rcases List.mem_cons.mp ht with rfl | hmem
      · exact le_refl _
      · exact (List.pairwise_cons.mp hclock).1 t hmem

theorem rate_bounded_iff_defaults :
    RateBounded (banConfig []) (banConfigApply [] freshState 0) ↔
      (banConfig []).enabled = true ∧ (banConfig []).rateLimit ≤ 32 :=
  rate_bounded_iff [] 0 (by decide) (by decide)

def busyConfig : HybbxConfig := [⟨ofString "security", ofString "rate_limit", ofString "33"⟩]

/-- With a limit of 33 the 34th connection of one second is let in. -/
theorem thirty_fourth_admitted :
    configLoad (ofString "[security]\nrate_limit = 33\n") = .ok busyConfig ∧
      (banConfig busyConfig).enabled = true ∧ (banConfig busyConfig).rateLimit = 33 ∧
      (banConfig busyConfig).rateWindowSec = 60 ∧
      ¬RateBounded (banConfig busyConfig) (banConfigApply busyConfig freshState 0) := by
  refine ⟨by decide, by decide, by decide, by decide, ?_⟩
  exact @not_bounded_of_many _ floodSource (by decide) (by decide) (by decide) _ (banConfigApply_welcome busyConfig 0 _)

end HyBBX.Security
