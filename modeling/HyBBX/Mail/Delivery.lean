import HyBBX.Lib.Processes
import HyBBX.Mail.Inbox
import HyBBX.Mains.Proxymail

/-! Deliveries that run at the same time, each file operation a step of its own. -/

namespace HyBBX.Mail

open HyBBX.Core HyBBX.Mains Lib Lib.Bytes Lib.Text Lib.Numeral
open Storage (scanUlong)

/-- The counter file and the inboxes. -/
structure Spool where
  counter : Option Bytes
  inbox : Bytes → Dir

/-- What one call was asked to deliver. -/
structure DeliveryJob where
  refused : Option HybbxResult
  place : Except HybbxResult Bytes
  fits : ℕ → Bool
  text : ℕ → Bytes

/-- Where a call is. After `allocated` steps it holds the id of its message. -/
inductive DeliveryPc
  | called
  | probing
  | resetting
  | making
  | reading
  | bumping (n : ℕ)
  | placing (id : ℕ)
  | creating (id : ℕ)
  | delivered (id : ℕ)
  | failed (rc : HybbxResult)
  deriving DecidableEq, Repr

/-- The next step of the call, or a message that a trim or its reader takes out of an inbox meanwhile. -/
inductive SpoolInput
  | go (granted : Bool)
  | remove (inbox name : Bytes)

section Steps

variable (job : DeliveryJob) (granted : Bool) (sp : Spool)

def counterText (n : ℕ) : Bytes := decimal n ++ [nl]

def writeCounter (n : ℕ) (next : DeliveryPc) : Spool × DeliveryPc :=
  if granted then ({ sp with counter := some (counterText n) }, next) else (sp, .failed .errIo)

/-- `fopen` for writing empties a file that is there. -/
def createMessage (id : ℕ) : Spool × DeliveryPc :=
  match job.place with
  | .error rc => (sp, .failed rc)
  | .ok inbox =>
    if job.fits id = false then (sp, .failed .errInvalid)
    else if granted then
      ({ sp with inbox := Function.update sp.inbox inbox ((sp.inbox inbox).write ⟨msgFileName id, job.text id⟩) },
        .delivered id)
    else (sp, .failed .errIo)

def makePlace (next : DeliveryPc) : Spool × DeliveryPc :=
  match job.place with
  | .error rc => (sp, .failed rc)
  | .ok _ => (sp, if granted then next else .failed .errIo)

/-- `read_counter` of the mail: a file that cannot be opened counts as 0. -/
def mailReadCounter : Option Bytes → Except HybbxResult ℕ
  | none => .ok 0
  | some text =>
    match scanUlong text with
    | none => .error .errIo
    | some n => .ok n

def mailGo : DeliveryPc → Spool × DeliveryPc
  | .called => (sp, match job.refused with | some rc => .failed rc | none => .probing)
  | .probing => (sp, if granted ∧ sp.counter.isSome then .making else .resetting)
  | .resetting => writeCounter granted sp 0 .making
  | .making => makePlace job granted sp .reading
  | .reading =>
    match mailReadCounter (if granted then sp.counter else none) with
    | .error rc => (sp, .failed rc)
    | .ok n => (sp, .bumping n)
  | .bumping n => writeCounter granted sp ((n + 1) % 2 ^ 64) (.creating ((n + 1) % 2 ^ 64))
  | .creating id => createMessage job granted sp id
  | pc => (sp, pc)

/-- The proxymail counts from 0 again when it finds no number. -/
def proxymailReadCounter (file : Option Bytes) : Except HybbxResult ℕ := .ok ((file.bind scanUlong).getD 0)

def proxymailGo : DeliveryPc → Spool × DeliveryPc
  | .called => (sp, match job.refused with | some rc => .failed rc | none => .making)
  | .making => (sp, if granted then .reading else .failed .errIo)
  | .reading =>
    match proxymailReadCounter (if granted then sp.counter else none) with
    | .error rc => (sp, .failed rc)
    | .ok n => (sp, .bumping n)
  | .bumping n => writeCounter granted sp ((n + 1) % 2 ^ 64) (.placing ((n + 1) % 2 ^ 64))
  | .placing id => makePlace job granted sp (.creating id)
  | .creating id => createMessage job granted sp id
  | pc => (sp, pc)

end Steps

/-- The two mail systems, that differ in how they come by an id. -/
inductive MailSystem
  | mail
  | proxymail
  deriving DecidableEq, Repr

def MailSystem.readCounter : MailSystem → Option Bytes → Except HybbxResult ℕ
  | .mail => mailReadCounter
  | .proxymail => proxymailReadCounter

def MailSystem.go : MailSystem → DeliveryJob → Bool → Spool → DeliveryPc → Spool × DeliveryPc
  | .mail => mailGo
  | .proxymail => proxymailGo

def deliveryAct (system : MailSystem) (jobs : ℕ → DeliveryJob) (i : ℕ) (e : SpoolInput) (sp : Spool)
    (pc : DeliveryPc) : (Spool × DeliveryPc) × List Empty :=
  match e with
  | .go granted => (system.go (jobs i) granted sp pc, [])
  | .remove inbox name =>
    (({ sp with inbox := Function.update sp.inbox inbox ((sp.inbox inbox).remove name) }, pc), [])

abbrev Deliveries := Sys ℕ Spool DeliveryPc

def deliveryStep (system : MailSystem) (jobs : ℕ → DeliveryJob) : Deliveries → ℕ × SpoolInput →
    Deliveries × List Empty :=
  Sys.step (deliveryAct system jobs)

def Deliveries.start (sp : Spool) : Deliveries := ⟨sp, fun _ => .called⟩

section Jobs

/-- The checks of a mail before any file is touched. -/
def mailAccepts (cfg : MailConfig) (resolveUser : Bytes → Except HybbxResult UserRecord) (letter : Letter)
    (toUser : Bytes) : Except HybbxResult UserRecord :=
  if cfg.enabled = false then .error .errUnsupported
  else if cfg.subjectMax < letter.subject.length ∨ cfg.bodyMax < letter.body.length then .error .errInvalid
  else match resolveUser toUser with
    | .error rc => .error rc
    | .ok recipient => if recipient.guest ∨ recipient.active = false then .error .errDenied else .ok recipient

lemma mailRecipient_eq (cfg : MailConfig) (resolveUser : Bytes → Except HybbxResult UserRecord) (letter : Letter)
    (toUser : Bytes) : mailRecipient cfg resolveUser letter toUser =
      (mailAccepts cfg resolveUser letter toUser).bind fun recipient =>
        (mailUserInboxPath recipient.username).map fun inbox => (recipient, inbox) := by
  rw [mailRecipient, mailAccepts]
  split_ifs
  · rfl
  · rfl
  · cases resolveUser toUser with
    | error rc => rfl
    | ok recipient =>
      dsimp only
      split_ifs
      · rfl
      · rfl

def mailJob (cfg : MailConfig) (resolveUser : Bytes → Except HybbxResult UserRecord) (letter : Letter)
    (toUser : Bytes) (now : Moment) : DeliveryJob :=
  match mailAccepts cfg resolveUser letter toUser with
  | .error rc => ⟨some rc, .error rc, fun _ => true, fun _ => []⟩
  | .ok recipient =>
    { refused := none
      place := mailUserInboxPath recipient.username
      fits := fun _ => true
      text := fun id => msgText id letter recipient.username now.secs }

def proxymailJob (root user fromAddress subject body : Bytes) (now : ℕ) : DeliveryJob where
  refused :=
    match proxymailRootPath root with
    | none => some .errInvalid
    | some mailRoot => if (pathJoin pathMax mailRoot proxymailNextFile).isNone then some .errInvalid else none
  place :=
    match proxymailUserInboxPath root user with
    | none => .error .errInvalid
    | some inboxPath => .ok inboxPath
  fits id :=
    match proxymailUserInboxPath root user with
    | none => false
    | some inboxPath => (pathJoin pathMax inboxPath (msgFileName id)).isSome
  text _ := proxymailText fromAddress subject body now

end Jobs

/-! When deliveries that run at the same time get ids of their own. -/

/-- The id of a message that is on its way to its file. -/
def DeliveryPc.pending : DeliveryPc → Option ℕ
  | .placing id | .creating id => some id
  | _ => none

def DeliveryPc.held : DeliveryPc → Option ℕ
  | .placing id | .creating id | .delivered id => some id
  | _ => none

/-- What one step of a call does to the files. -/
inductive Moved (job : DeliveryJob) (sp : Spool) (pc : DeliveryPc) (granted : Bool) : Spool × DeliveryPc → Prop
  | quiet (pc' : DeliveryPc) (hheld : ∀ id, pc'.held = some id → pc.held = some id)
      (hpending : ∀ id, pc'.pending = some id → pc.pending = some id) : Moved job sp pc granted (sp, pc')
  | reset (hg : granted = true) (hpc : pc = .resetting) :
      Moved job sp pc granted ({ sp with counter := some (counterText 0) }, .making)
  | bump (n : ℕ) (pc' : DeliveryPc) (hg : granted = true) (hpc : pc = .bumping n)
      (hheld : ∀ id, pc'.held = some id → id = (n + 1) % 2 ^ 64) :
      Moved job sp pc granted ({ sp with counter := some (counterText ((n + 1) % 2 ^ 64)) }, pc')
  | create (id : ℕ) (inbox : Bytes) (hpc : pc = .creating id) :
      Moved job sp pc granted
        ({ sp with inbox := Function.update sp.inbox inbox ((sp.inbox inbox).write ⟨msgFileName id, job.text id⟩) },
          .delivered id)

section Moved

variable (job : DeliveryJob) (sp : Spool) (granted : Bool)

lemma moved_failed (pc : DeliveryPc) (rc : HybbxResult) : Moved job sp pc granted (sp, .failed rc) :=
  .quiet _ (fun _ h => nomatch h) fun _ h => nomatch h

lemma moved_stay (pc : DeliveryPc) : Moved job sp pc granted (sp, pc) := .quiet _ (fun _ h => h) fun _ h => h

lemma moved_bump (n : ℕ) {pc' : DeliveryPc} (hheld : ∀ id, pc'.held = some id → id = (n + 1) % 2 ^ 64) :
    Moved job sp (.bumping n) granted (writeCounter granted sp ((n + 1) % 2 ^ 64) pc') := by
  rw [writeCounter]
  split_ifs with hg
  · exact .bump n pc' hg rfl hheld
  · exact moved_failed job sp granted _ _

lemma moved_create (id : ℕ) : Moved job sp (.creating id) granted (createMessage job granted sp id) := by
  rw [createMessage]
  cases job.place with
  | error rc => exact moved_failed job sp granted _ rc
  | ok inbox =>
    dsimp only
    split_ifs
    · exact moved_failed job sp granted _ _
    · exact .create id inbox rfl
    · exact moved_failed job sp granted _ _

lemma moved_place {pc next : DeliveryPc} (hheld : ∀ id, next.held = some id → pc.held = some id)
    (hpending : ∀ id, next.pending = some id → pc.pending = some id) :
    Moved job sp pc granted (makePlace job granted sp next) := by
  rw [makePlace]
  cases job.place with
  | error rc => exact moved_failed job sp granted _ rc
  | ok inbox =>
    dsimp only
    split_ifs
    · exact .quiet _ hheld hpending
    · exact moved_failed job sp granted _ _

/-- A step before the counter is written holds no id. -/
lemma moved_idle {pc pc' : DeliveryPc} (h : pc'.held = none ∧ pc'.pending = none) : Moved job sp pc granted (sp, pc') :=
  .quiet _ (fun id hid => by rw [h.1] at hid; exact nomatch hid) fun id hid => by rw [h.2] at hid; exact nomatch hid

lemma mailGo_moved (pc : DeliveryPc) : Moved job sp pc granted (mailGo job granted sp pc) := by
  cases pc with
  | called =>
    apply moved_idle
    cases job.refused <;> exact ⟨rfl, rfl⟩
  | probing =>
    apply moved_idle
    split_ifs <;> exact ⟨rfl, rfl⟩
  | resetting =>
    rw [mailGo, writeCounter]
    split_ifs with hg
    · exact .reset hg rfl
    · exact moved_failed job sp granted _ _
  | making => exact moved_place job sp granted (fun _ h => nomatch h) fun _ h => nomatch h
  | reading =>
    rw [mailGo]
    cases mailReadCounter (if granted then sp.counter else none) with
    | error rc => exact moved_failed job sp granted _ rc
    | ok n => exact moved_idle job sp granted ⟨rfl, rfl⟩
  | bumping n => exact moved_bump job sp granted n fun _ h => (Option.some.inj h).symm
  | creating id => exact moved_create job sp granted id
  | placing id | delivered id | failed rc => exact moved_stay job sp granted _

lemma proxymailGo_moved (pc : DeliveryPc) : Moved job sp pc granted (proxymailGo job granted sp pc) := by
  cases pc with
  | called =>
    apply moved_idle
    cases job.refused <;> exact ⟨rfl, rfl⟩
  | making =>
    apply moved_idle
    split_ifs <;> exact ⟨rfl, rfl⟩
  | reading => exact moved_idle job sp granted ⟨rfl, rfl⟩
  | bumping n => exact moved_bump job sp granted n fun _ h => (Option.some.inj h).symm
  | placing id => exact moved_place job sp granted (fun _ h => h) fun _ h => h
  | creating id => exact moved_create job sp granted id
  | probing | resetting | delivered id | failed rc => exact moved_stay job sp granted _

lemma go_moved (system : MailSystem) (pc : DeliveryPc) : Moved job sp pc granted (system.go job granted sp pc) := by
  cases system with
  | mail => exact mailGo_moved job sp granted pc
  | proxymail => exact proxymailGo_moved job sp granted pc

end Moved

section Allocation

variable (system : MailSystem)

/-- A message file has the id. -/
def Spool.Has (sp : Spool) (id : ℕ) : Prop := ∃ inbox, ∃ file ∈ sp.inbox inbox, file.name = msgFileName id

/-- The counter, where it can be read, is not behind any message file. -/
def CounterCovers (sp : Spool) : Prop :=
  ∀ n, system.readCounter sp.counter = .ok n → ∀ id ≤ ulongMax, sp.Has id → id ≤ n

/-- Whoever writes the counter counts from what it still holds. -/
def CountsOn (_ : ℕ) (e : SpoolInput) (sp : Spool) (pc : DeliveryPc) : Prop :=
  match e, pc with
  | .go true, .resetting => system.readCounter sp.counter = .ok 0
  | .go true, .bumping n => system.readCounter sp.counter = .ok n ∧ n < ulongMax
  | _, _ => True

instance (i : ℕ) (e : SpoolInput) (sp : Spool) (pc : DeliveryPc) : Decidable (CountsOn system i e sp pc) := by
  unfold CountsOn
  split <;> infer_instance

/-- A step that writes a message over another one. -/
def Overwrites (jobs : ℕ → DeliveryJob) (s : Deliveries) (ev : ℕ × SpoolInput) : Prop :=
  ∃ id inbox, ev.2 = .go true ∧ s.proc ev.1 = .creating id ∧ (jobs ev.1).place = .ok inbox ∧
    (jobs ev.1).fits id = true ∧ ∃ file ∈ s.store.inbox inbox, file.name = msgFileName id

/-- No two calls that succeed have one id, and none writes over a message. -/
structure IdsUnique (jobs : ℕ → DeliveryJob) (sp : Spool) (evs : List (ℕ × SpoolInput)) : Prop where
  distinct : ∀ i j id, i ≠ j →
    (Transducer.run (deliveryStep system jobs) (.start sp) evs).1.proc i = .delivered id →
      (Transducer.run (deliveryStep system jobs) (.start sp) evs).1.proc j ≠ .delivered id
  kept : Transducer.Along (deliveryStep system jobs) (fun s ev => ¬Overwrites jobs s ev) (.start sp) evs

def allocation : Sys.Shape ℕ Spool DeliveryPc where
  store := CounterCovers system
  own _ sp pc := ∀ id, pc.held = some id → id ≤ ulongMax ∧
    (∀ n, system.readCounter sp.counter = .ok n → id ≤ n) ∧ (pc.pending = some id → ¬sp.Has id)
  pair p q := ∀ id, p.held = some id → q.held ≠ some id

lemma readCounter_counterText {n : ℕ} (h : n ≤ ulongMax) : system.readCounter (some (counterText n)) = .ok n := by
  have hscan : scanUlong (counterText n) = some n := Storage.scanUlong_decimal (by rw [ulongMax] at h; omega)
  cases system with
  | mail => simp only [MailSystem.readCounter, mailReadCounter, hscan]
  | proxymail => simp only [MailSystem.readCounter, proxymailReadCounter, Option.bind_some, hscan, Option.getD_some]

lemma has_remove {sp : Spool} {inbox name : Bytes} {id : ℕ}
    (h : Spool.Has { sp with inbox := Function.update sp.inbox inbox ((sp.inbox inbox).remove name) } id) :
    sp.Has id := by
  obtain ⟨other, file, hf, hn⟩ := h
  dsimp only at hf
  rw [Function.update_apply] at hf
  split_ifs at hf with ho
  · exact ⟨inbox, file, (List.mem_filter.mp hf).1, hn⟩
  · exact ⟨other, file, hf, hn⟩

lemma has_create {sp : Spool} {inbox text : Bytes} {id new : ℕ} (hid : id ≤ ulongMax) (hnew : new ≤ ulongMax)
    (h : Spool.Has
      { sp with inbox := Function.update sp.inbox inbox ((sp.inbox inbox).write ⟨msgFileName new, text⟩) } id) :
    id = new ∨ sp.Has id := by
  obtain ⟨other, file, hf, hn⟩ := h
  dsimp only at hf
  rw [Function.update_apply] at hf
  split_ifs at hf with ho
  · rcases List.mem_append.mp hf with hf | hf
    · exact .inr ⟨inbox, file, (List.mem_filter.mp hf).1, hn⟩
    · obtain rfl := List.mem_singleton.mp hf
      exact .inl (msgFileName_injective hid hnew hn.symm)
  · exact .inr ⟨other, file, hf, hn⟩

lemma allocation_kept (jobs : ℕ → DeliveryJob) :
    (allocation system).Kept (deliveryAct system jobs) (CountsOn system) where
  symm p q h id hq hp := h id hp hq
  own i e sp pc hstore hown hok := by
    cases e with
    | remove inbox name =>
      refine ⟨fun n hn id hid hhas => hstore n hn id hid (has_remove hhas), fun id hid => ?_⟩
      obtain ⟨hle, hcount, hpend⟩ := hown id hid
      exact ⟨hle, hcount, fun hp hhas => hpend hp (has_remove hhas)⟩
    | go granted =>
      have hmoved := go_moved (jobs i) sp granted system pc
      simp only [deliveryAct]
      generalize system.go (jobs i) granted sp pc = r at hmoved
      cases hmoved with
      | quiet pc' hheld hpending =>
        refine ⟨hstore, fun id hid => ?_⟩
        obtain ⟨hle, hcount, hpend⟩ := hown id (hheld id hid)
        exact ⟨hle, hcount, fun hp => hpend (hpending id hp)⟩
      | reset hg hpc =>
        subst hg hpc
        refine ⟨fun n hn id hid hhas => ?_, fun id hid => nomatch hid⟩
        rw [readCounter_counterText system (Nat.zero_le _)] at hn
        obtain rfl := Except.ok.inj hn
        exact hstore 0 hok id hid hhas
      | bump n pc' hg hpc hheld =>
        subst hg hpc
        obtain ⟨hread, hlt⟩ := hok
        have hmod : (n + 1) % 2 ^ 64 = n + 1 := Nat.mod_eq_of_lt (by rw [ulongMax] at hlt; omega)
        have hnew := readCounter_counterText system (n := n + 1) hlt
        rw [hmod] at hheld ⊢
        refine ⟨fun m hm id hid hhas => ?_, fun id hid => ?_⟩
        · rw [hnew] at hm
          obtain rfl := Except.ok.inj hm
          exact (hstore n hread id hid hhas).trans (Nat.le_succ n)
        · obtain rfl := hheld id hid
          refine ⟨hlt, fun m hm => ?_, fun _ hhas => ?_⟩
          · rw [hnew] at hm
            exact (Except.ok.inj hm).le
          · exact absurd (hstore n hread (n + 1) hlt hhas) (by omega)
      | create id inbox hpc =>
        subst hpc
        obtain ⟨hle, hcount, -⟩ := hown id rfl
        refine ⟨fun n hn other hother hhas => ?_, fun other hother => ?_⟩
        · rcases has_create hother hle hhas with rfl | hhas
          · exact hcount n hn
          · exact hstore n hn other hother hhas
        · obtain rfl := Option.some.inj hother
          exact ⟨hle, hcount, fun hp => absurd hp (Option.some_ne_none _).symm⟩
  others i e sp pc j q hj hstore hown hq hpair hok := by
    cases e with
    | remove inbox name =>
      refine ⟨fun id hid => ?_, hpair⟩
      obtain ⟨hle, hcount, hpend⟩ := hq id hid
      exact ⟨hle, hcount, fun hp hhas => hpend hp (has_remove hhas)⟩
    | go granted =>
      have hmoved := go_moved (jobs i) sp granted system pc
      simp only [deliveryAct]
      generalize system.go (jobs i) granted sp pc = r at hmoved
      cases hmoved with
      | quiet pc' hheld hpending => exact ⟨hq, fun id hid => hpair id (hheld id hid)⟩
      | reset hg hpc =>
        subst hg hpc
        refine ⟨fun id hid => ?_, fun id hid => nomatch hid⟩
        obtain ⟨hle, hcount, hpend⟩ := hq id hid
        refine ⟨hle, fun n hn => ?_, hpend⟩
        rw [readCounter_counterText system (Nat.zero_le _)] at hn
        obtain rfl := Except.ok.inj hn
        exact hcount 0 hok
      | bump n pc' hg hpc hheld =>
        subst hg hpc
        obtain ⟨hread, hlt⟩ := hok
        have hmod : (n + 1) % 2 ^ 64 = n + 1 := Nat.mod_eq_of_lt (by rw [ulongMax] at hlt; omega)
        rw [hmod] at hheld ⊢
        refine ⟨fun id hid => ?_, fun id hid hid' => ?_⟩
        · obtain ⟨hle, hcount, hpend⟩ := hq id hid
          refine ⟨hle, fun m hm => ?_, hpend⟩
          rw [readCounter_counterText system hlt] at hm
          obtain rfl := Except.ok.inj hm
          exact (hcount n hread).trans (Nat.le_succ n)
        · have hle := (hq id hid').2.1 n hread
          have := hheld id hid
          omega
      | create id inbox hpc =>
        subst hpc
        refine ⟨fun other hother => ?_, hpair⟩
        obtain ⟨hle, hcount, hpend⟩ := hq other hother
        refine ⟨hle, hcount, fun hp hhas => ?_⟩
        rcases has_create hle (hown id rfl).1 hhas with rfl | hhas
        · exact hpair other rfl hother
        · exact hpend hp hhas

lemma allocation_start {sp : Spool} (h : CounterCovers system sp) :
    (allocation system).Holds (Deliveries.start sp) where
  store := h
  own _ _ hid := nomatch hid
  pair _ _ _ _ hid := nomatch hid

/-- Ids are unique in every run in which nobody writes the counter behind another one's back. -/
theorem deliveries_unique (jobs : ℕ → DeliveryJob) {sp : Spool} (h : CounterCovers system sp)
    {evs : List (ℕ × SpoolInput)}
    (hok : Transducer.Along (deliveryStep system jobs) (Sys.Allowed (CountsOn system)) (.start sp) evs) :
    IdsUnique system jobs sp evs := by
  have hstart := allocation_start system h
  refine ⟨fun i j id hij hi hj => ?_, ?_⟩
  · have hfinal := Sys.holds_run (allocation_kept system jobs) hstart hok
    exact hfinal.pair i j hij id (by rw [deliveryStep] at hi; rw [hi]; rfl) (by rw [deliveryStep] at hj; rw [hj]; rfl)
  · apply Transducer.along_mono _ _ (Sys.holds_along (allocation_kept system jobs) hstart hok)
    rintro s ⟨i, e⟩ ⟨hs, -⟩ ⟨id, inbox, -, hpc, -, -, file, hf, hn⟩
    exact (hs.own i id (by dsimp only at hpc; rw [hpc]; rfl)).2.2 (by dsimp only at hpc; rw [hpc]; rfl) ⟨inbox, file, hf, hn⟩

end Allocation

section Example

def bob : UserRecord := ⟨ofString "bob", false, true, bob_named⟩

def note (text : String) (h : 0 ∉ ofString text) : Letter where
  fromUser := ofString "ann"
  subject := ofString "hi"
  body := ofString text
  from_fits := by decide +kernel
  from_line := by decide +kernel
  subject_line := hi_line
  body_string := h

def mailToBob (letter : Letter) : DeliveryJob :=
  mailJob ⟨true, mailMaxMessages, mailSubjectMax, mailBodyMax⟩ (fun _ => .ok bob) letter (ofString "bob")
    ⟨0, Nat.zero_le _⟩

def notes : ℕ → DeliveryJob
  | 0 => mailToBob (note "one" (by decide +kernel))
  | _ => mailToBob (note "two" (by decide +kernel))

def proxyNotes (i : ℕ) : DeliveryJob :=
  proxymailJob (ofString "/data") (ofString "bob") (ofString "ann@east") (ofString "hi") (decimal i) 0

def emptySpool : Spool := ⟨some (counterText 0), fun _ => []⟩

def steps (i n : ℕ) : List (ℕ × SpoolInput) := List.replicate n (i, .go true)

theorem deliveries_in_turn : IdsUnique .mail notes emptySpool (steps 0 6 ++ steps 1 6) :=
  deliveries_unique .mail notes (fun _ _ _ _ ⟨_, _, hf, _⟩ => nomatch hf) (by decide +kernel)

/-- Both calls read the counter before either writes it. -/
theorem deliveries_share_id :
    ¬IdsUnique .mail notes emptySpool (steps 0 4 ++ steps 1 4 ++ steps 0 2 ++ steps 1 2) ∧
      ¬IdsUnique .proxymail proxyNotes emptySpool (steps 0 3 ++ steps 1 3 ++ steps 0 3 ++ steps 1 3) := by
  constructor
  · intro h
    exact h.distinct 0 1 1 (by decide) (by decide +kernel) (by decide +kernel)
  · intro h
    exact h.distinct 0 1 1 (by decide) (by decide +kernel) (by decide +kernel)

end Example

end HyBBX.Mail
