import HyBBX.Circuit.LinkClient
import HyBBX.Circuit.LinkIdentity

/-! How long a new link may keep its slot without authenticating. -/

namespace HyBBX.Circuit

open HyBBX.Core Lib Lib.Bytes Lib.Transducer

/-- What one `recv` can bring. -/
abbrev AuthRead := { data : Bytes // data ≠ [] ∧ data.length ≤ 256 }

/-- What the thread meets in one iteration; the slots and the bans are those of that moment. -/
inductive HubPoll
  | closed
  | failed
  | interrupted
  | silent
  | noInput
  | ended
  | received (data : AuthRead) (slots : IdentitySlots) (callidAccepted : Bytes → Bool)

/-- An iteration and the milliseconds it takes. -/
structure AuthPoll where
  poll : HubPoll
  ms : ℕ

structure AuthCtx where
  done : Bool
  ok : Bool
  deriving DecidableEq

structure AuthWait where
  ctx : AuthCtx
  dec : CircuitDecoder
  elapsed : ℕ

def authWaitInit : AuthWait := ⟨⟨false, false⟩, circuitDecoderInit, 0⟩

section Wait

variable (hub : LinkHub) (slot : Fin circuitMaxLinks)

def AuthCtx.circuitOnAuthFrame (slots : IdentitySlots) (callidAccepted : Bytes → Bool) (ctx : AuthCtx)
    (frame : CircuitFrame) : AuthCtx :=
  if ctx.done then ctx
  else if frame.proto ≠ .linkAuth then ctx
  else match linkAuthParse frame.payload with
    | none => ⟨true, false⟩
    | some auth =>
      if callidAccepted auth.id = false then ⟨true, false⟩
      else ⟨true, (circuitValidateLinkAuth hub slots slot auth).2.isNone⟩

def authReceive (w : AuthWait) (data : Bytes) (slots : IdentitySlots) (callidAccepted : Bytes → Bool) : AuthWait :=
  let r := circuitDecoderFeed w.dec data
  { w with ctx := r.2.foldl (AuthCtx.circuitOnAuthFrame hub slot slots callidAccepted) w.ctx, dec := r.1 }

/-- The loop; `none` is a thread that still waits. -/
def authLoop (w : AuthWait) : List AuthPoll → Option Bool
  | [] => if w.ctx.done ∨ circuitAuthTimeoutMs ≤ w.elapsed then some w.ctx.ok else none
  | p :: ps =>
    if w.ctx.done ∨ circuitAuthTimeoutMs ≤ w.elapsed then some w.ctx.ok
    else match p.poll with
      | .closed | .failed | .noInput | .ended => some false
      | .interrupted => authLoop w ps
      | .silent => authLoop { w with elapsed := w.elapsed + circuitLinkPollMs } ps
      | .received data slots callidAccepted => authLoop (authReceive hub slot w data.1 slots callidAccepted) ps

def circuitWaitLinkAuth (polls : List AuthPoll) : Option Bool :=
  if hub.linkAuth = false then some true else authLoop hub slot authWaitInit polls

def receivedData (polls : List AuthPoll) : List Bytes :=
  polls.filterMap fun p => match p.poll with | .received data _ _ => some data.1 | _ => none

def NoAuthFrame (polls : List AuthPoll) : Prop :=
  ∀ frame ∈ (circuitDecoderFeedAll circuitDecoderInit (receivedData polls)).2, frame.proto ≠ .linkAuth

instance (polls : List AuthPoll) : Decidable (NoAuthFrame polls) :=
  inferInstanceAs (Decidable (∀ frame ∈ (circuitDecoderFeedAll circuitDecoderInit (receivedData polls)).2, frame.proto ≠ .linkAuth))

def duration (polls : List AuthPoll) : ℕ := (polls.map AuthPoll.ms).sum

/-- Without credentials the thread has given up once the timeout and one more poll are over. -/
def WaitBounded (polls : List AuthPoll) : Prop :=
  circuitAuthTimeoutMs + circuitLinkPollMs < duration polls → circuitWaitLinkAuth hub slot polls = some false

end Wait

namespace HubPoll

def Ends : HubPoll → Bool
  | closed | failed | noInput | ended => true
  | _ => false

def Silent : HubPoll → Bool
  | silent => true
  | _ => false

end HubPoll

def silentMs (polls : List AuthPoll) : ℕ := circuitLinkPollMs * polls.countP fun p => p.poll.Silent

section Bounded

variable {hub : LinkHub} {slot : Fin circuitMaxLinks}

lemma onAuthFrame_other (slots : IdentitySlots) (callidAccepted : Bytes → Bool) {ctx : AuthCtx}
    {frames : List CircuitFrame}
    (h : ∀ frame ∈ frames, frame.proto ≠ .linkAuth) :
    frames.foldl (AuthCtx.circuitOnAuthFrame hub slot slots callidAccepted) ctx = ctx := by
  induction frames with
  | nil => rfl
  | cons frame frames ih =>
    have hsame : AuthCtx.circuitOnAuthFrame hub slot slots callidAccepted ctx frame = ctx := by
      rw [AuthCtx.circuitOnAuthFrame, if_pos (h frame List.mem_cons_self), ite_self]
    rw [List.foldl_cons, hsame]
    exact ih fun frame' hmem => h frame' (List.mem_cons_of_mem frame hmem)

lemma still_waits {w : AuthWait} (hctx : w.ctx = ⟨false, false⟩) (htime : ¬circuitAuthTimeoutMs ≤ w.elapsed) :
    ¬(w.ctx.done ∨ circuitAuthTimeoutMs ≤ w.elapsed) := by
  rw [hctx]
  rintro (hdone | hlate)
  · cases hdone
  · exact htime hlate

lemma silentMs_cons (p : AuthPoll) (polls : List AuthPoll) :
    silentMs (p :: polls) = (if p.poll.Silent then circuitLinkPollMs else 0) + silentMs polls := by
  rw [silentMs, List.countP_cons, Nat.mul_add, Nat.add_comm]
  split_ifs <;> rfl

/-- As long as no credentials come the loop ends by an outcome that ends it, or by the silent polls. -/
lemma authLoop_iff (polls : List AuthPoll) {w : AuthWait} (hctx : w.ctx = ⟨false, false⟩)
    (hno : ∀ frame ∈ (circuitDecoderFeedAll w.dec (receivedData polls)).2, frame.proto ≠ .linkAuth) :
    authLoop hub slot w polls = some false ↔
      circuitAuthTimeoutMs ≤ w.elapsed + silentMs polls ∨ ∃ p ∈ polls, p.poll.Ends := by
  induction polls generalizing w with
  | nil =>
    rw [authLoop]
    by_cases htime : circuitAuthTimeoutMs ≤ w.elapsed
    · rw [if_pos (.inr htime), hctx]
      exact iff_of_true rfl (.inl htime)
    · rw [if_neg (still_waits hctx htime)]
      refine iff_of_false (by simp) ?_
      rintro (hlate | ⟨p, hp, -⟩)
      · exact htime hlate
      · cases hp
  | cons p polls ih =>
    rw [authLoop]
    by_cases htime : circuitAuthTimeoutMs ≤ w.elapsed
    · rw [if_pos (.inr htime), hctx]
      exact iff_of_true rfl (.inl (htime.trans (Nat.le_add_right _ _)))
    · rw [if_neg (still_waits hctx htime)]
      obtain ⟨poll, ms⟩ := p
      cases poll with
      | closed | failed | noInput | ended => exact iff_of_true rfl (.inr ⟨_, List.mem_cons_self, rfl⟩)
      | interrupted =>
        rw [silentMs_cons, List.exists_mem_cons_iff, ih hctx hno]
        simp [HubPoll.Ends, HubPoll.Silent]
      | silent =>
        have hlater := @ih { w with elapsed := w.elapsed + circuitLinkPollMs } hctx hno
        rw [silentMs_cons, List.exists_mem_cons_iff, hlater]
        simp [HubPoll.Ends, HubPoll.Silent, Nat.add_assoc]
      | received data slots callidAccepted =>
        have hall : (circuitDecoderFeedAll w.dec (receivedData (⟨.received data slots callidAccepted, ms⟩ :: polls))).2 =
            (circuitDecoderFeed w.dec data.1).2 ++
              (circuitDecoderFeedAll (circuitDecoderFeed w.dec data.1).1 (receivedData polls)).2 := rfl
        rw [hall, List.forall_mem_append] at hno
        have hsame : (authReceive hub slot w data.1 slots callidAccepted).ctx = ⟨false, false⟩ :=
          (onAuthFrame_other slots callidAccepted hno.1).trans hctx
        rw [silentMs_cons, List.exists_mem_cons_iff, ih hsame hno.2]
        simp [HubPoll.Ends, HubPoll.Silent, authReceive]

end Bounded

/-- The wait for a link that never authenticates is bounded exactly if the polls that bring nothing last as long as the
timeout, or an outcome ends the loop. -/
theorem wait_bounded_iff (hub : LinkHub) (slot : Fin circuitMaxLinks) (polls : List AuthPoll)
    (hauth : hub.linkAuth = true)
    (hno : NoAuthFrame polls) :
    WaitBounded hub slot polls ↔ (circuitAuthTimeoutMs + circuitLinkPollMs < duration polls →
      circuitAuthTimeoutMs ≤ silentMs polls ∨ ∃ p ∈ polls, p.poll.Ends) := by
  have hloop := @authLoop_iff hub slot polls authWaitInit rfl hno
  rw [show authWaitInit.elapsed + silentMs polls = silentMs polls from Nat.zero_add _] at hloop
  rw [WaitBounded, circuitWaitLinkAuth, if_neg (by rw [hauth]; decide), hloop]

theorem wait_bounded_silent : WaitBounded openHub ⟨0, by decide⟩ (List.replicate 302 ⟨.silent, 50⟩) :=
  (wait_bounded_iff openHub ⟨0, by decide⟩ _ rfl (by decide +kernel)).mpr fun _ => .inl (by decide +kernel)

/-- A peer that sends a byte into every poll. -/
def trickle : List AuthPoll := List.replicate 310 ⟨.received ⟨[0x78], by decide⟩ freeSlots fun _ => true, 49⟩

/-- It keeps its slot after the timeout. -/
theorem trickle_waits : NoAuthFrame trickle ∧ ¬WaitBounded openHub ⟨0, by decide⟩ trickle := by
  refine ⟨by decide +kernel, fun hbounded => ?_⟩
  have hgone := hbounded (by decide +kernel)
  revert hgone
  decide +kernel

end HyBBX.Circuit
