import HyBBX.Telnet.Parser
import Mathlib.Logic.Function.Basic

/-! Server and client negotiating options over a channel each way: the exchange never settles. -/

namespace HyBBX.Telnet

open Lib Lib.Bytes

inductive Side
  | server
  | client
  deriving DecidableEq, Repr

def Side.peer : Side → Side
  | .server => .client
  | .client => .server

/-- What each side's parser is at, the bytes on their way to each side, and the option commands sent so far. -/
structure Negotiation where
  parser : Side → TelnetParser
  channel : Side → Bytes
  commands : ℕ

/-- Both sides have greeted. -/
def Negotiation.start : Negotiation where
  parser _ := telnetParserInit
  channel _ := commandBytes greetingCommands
  commands := 2 * greetingCommands.length

/-- The next bytes of a channel, as many as one `recv` returns. -/
structure Delivery where
  side : Side
  len : ℕ

def negotiationStep (st : Negotiation) (d : Delivery) : Negotiation × List Empty :=
  let fed := Transducer.run parserStep (st.parser d.side) ((st.channel d.side).take d.len)
  let replies := answers fed.2
  ({ parser := Function.update st.parser d.side fed.1
     channel := Function.update (Function.update st.channel d.side ((st.channel d.side).drop d.len)) d.side.peer
       (st.channel d.side.peer ++ commandBytes replies)
     commands := st.commands + replies.length }, [])

def negotiate (st : Negotiation) (ds : List Delivery) : Negotiation := (Transducer.run negotiationStep st ds).1

/-- A parser at one of the commands of a list, with the bytes of it and of the later ones still to come. -/
inductive Awaits : TelnetParser → Bytes → List OptionCommand → Prop
  | between (seen : UInt8) (cs : List OptionCommand) : Awaits ⟨.data, seen⟩ (commandBytes cs) cs
  | command (seen : UInt8) (c : OptionCommand) (cs : List OptionCommand) :
    Awaits ⟨.iac, seen⟩ (c.command :: c.option :: commandBytes cs) (c :: cs)
  | option (c : OptionCommand) (cs : List OptionCommand) :
    Awaits ⟨.cmd, c.command⟩ (c.option :: commandBytes cs) (c :: cs)

/-- The commands that are answered for ever. -/
def Restless (c : OptionCommand) : Prop := c = ⟨telnetWill, telnetOptSga⟩ ∨ c = ⟨telnetDo, telnetOptSga⟩

instance : DecidablePred Restless := fun c =>
  inferInstanceAs (Decidable (c = ⟨telnetWill, telnetOptSga⟩ ∨ c = ⟨telnetDo, telnetOptSga⟩))

def restless (cs : List OptionCommand) : ℕ := cs.countP fun c => Restless c

def repliesTo (cs : List OptionCommand) : List OptionCommand := cs.flatMap fun c => replyTo c.command c.option

lemma restless_append (cs ds : List OptionCommand) : restless (cs ++ ds) = restless cs + restless ds :=
  List.countP_append

/-- An answer to a restless command is restless, and there is no other. -/
lemma restless_replyTo (c : OptionCommand) : restless (replyTo c.command c.option) = restless [c] := by
  obtain ⟨command, option⟩ := c
  rw [replyTo]
  by_cases hdo : command = telnetDo
  · rw [if_pos hdo, hdo, telnetReplyDo]
    by_cases hecho : option = telnetOptEcho
    · rw [if_pos hecho, hecho]
      decide
    · rw [if_neg hecho]
      by_cases hsga : option = telnetOptSga
      · rw [if_pos hsga, hsga]
        decide
      · rw [if_neg hsga]
        simp [restless, Restless, hsga]
  · rw [if_neg hdo]
    by_cases hwill : command = telnetWill
    · rw [if_pos hwill, hwill, telnetReplyWill]
      by_cases hsga : option = telnetOptSga
      · rw [if_pos hsga, hsga]
        decide
      · rw [if_neg hsga]
        split_ifs <;> simp [restless, Restless, hsga]
    · rw [if_neg hwill]
      simp [restless, Restless, hdo, hwill]

lemma restless_repliesTo (cs : List OptionCommand) : restless (repliesTo cs) = restless cs := by
  induction cs with
  | nil => rfl
  | cons c cs ih =>
    rw [repliesTo, List.flatMap_cons, restless_append, restless_replyTo, ← repliesTo, ih, ← restless_append,
      List.singleton_append]

lemma isOptionCommand_replyTo {c d : OptionCommand} (h : d ∈ replyTo c.command c.option) :
    isOptionCommand d.command = true := by
  rw [replyTo, telnetReplyDo, telnetReplyWill] at h
  split_ifs at h
  all_goals first | cases h; done | rw [List.mem_singleton.mp h]; rfl

section Parsing

variable {p : TelnetParser} {cs : List OptionCommand}

/-- One byte: either the command goes on, or it is complete and answered. -/
lemma awaits_step {b : UInt8} {bytes : Bytes} (h : Awaits p (b :: bytes) cs)
    (hcs : ∀ c ∈ cs, isOptionCommand c.command = true) : ∃ done rest, cs = done ++ rest ∧
      Awaits (parserStep p b).1 bytes rest ∧ answers (parserStep p b).2 = repliesTo done := by
  generalize hall : b :: bytes = all at h
  cases h with
  | between seen =>
    cases cs with
    | nil => cases hall
    | cons c cs =>
      obtain ⟨rfl, rfl⟩ := List.cons.inj hall
      exact ⟨[], c :: cs, rfl, .command seen c cs, rfl⟩
  | command seen c cs =>
    obtain ⟨rfl, rfl⟩ := List.cons.inj hall
    have hc := hcs c List.mem_cons_self
    have hiac : c.command ≠ telnetIac := by
      intro he
      rw [he] at hc
      exact absurd hc (by decide)
    refine ⟨[], c :: cs, rfl, ?_, ?_⟩
    · simpa only [parserStep, if_neg hiac, if_pos hc] using Awaits.option c cs
    · simp only [parserStep, if_neg hiac, if_pos hc]
      rfl
  | option c cs =>
    obtain ⟨rfl, rfl⟩ := List.cons.inj hall
    refine ⟨[c], cs, rfl, .between _ cs, ?_⟩
    rw [repliesTo, List.flatMap_singleton, parserStep, answers]
    simp

/-- Any part of the bytes that a parser awaits. -/
lemma awaits_run {xs ys : Bytes} (h : Awaits p (xs ++ ys) cs) (hcs : ∀ c ∈ cs, isOptionCommand c.command = true) :
    ∃ done rest, cs = done ++ rest ∧ Awaits (Transducer.run parserStep p xs).1 ys rest ∧
      answers (Transducer.run parserStep p xs).2 = repliesTo done := by
  induction xs generalizing p cs with
  | nil => exact ⟨[], cs, rfl, h, rfl⟩
  | cons b xs ih =>
    obtain ⟨done, rest, rfl, hstep, hout⟩ := awaits_step h hcs
    obtain ⟨done', rest', rfl, hrun, hout'⟩ := ih hstep fun c hc => hcs c (List.mem_append_right _ hc)
    refine ⟨done ++ done', rest', by rw [List.append_assoc], hrun, ?_⟩
    rw [Transducer.run_cons, answers_append, hout, hout', repliesTo, repliesTo, repliesTo, List.flatMap_append]

lemma Awaits.append {bytes : Bytes} (h : Awaits p bytes cs) (ds : List OptionCommand) :
    Awaits p (bytes ++ commandBytes ds) (cs ++ ds) := by
  cases h with
  | between seen =>
    rw [← commandBytes_append]
    exact .between seen _
  | command seen c cs =>
    have := Awaits.command seen c (cs ++ ds)
    rwa [commandBytes_append] at this
  | option c cs =>
    have := Awaits.option c (cs ++ ds)
    rwa [commandBytes_append] at this

lemma Awaits.nil (h : Awaits p [] cs) : cs = [] := by
  generalize hall : ([] : Bytes) = bytes at h
  cases h with
  | between seen =>
    cases cs with
    | nil => rfl
    | cons c cs => cases hall
  | command => cases hall
  | option => cases hall

end Parsing

/-- Two restless commands are under way, whatever has been delivered. -/
structure Unsettled (st : Negotiation) (queue : Side → List OptionCommand) : Prop where
  awaits : ∀ side, Awaits (st.parser side) (st.channel side) (queue side)
  commands : ∀ side, ∀ c ∈ queue side, isOptionCommand c.command = true
  restless : restless (queue .server) + restless (queue .client) = 2

lemma unsettled_start : Unsettled .start fun _ => greetingCommands where
  awaits _ := .between 0 _
  commands _ := by decide
  restless := by decide

lemma peer_ne (side : Side) : side.peer ≠ side := by
  cases side <;> decide

lemma restless_sides (q : Side → List OptionCommand) (side : Side) :
    restless (q side) + restless (q side.peer) = restless (q .server) + restless (q .client) := by
  cases side
  · rfl
  · exact Nat.add_comm _ _

/-- A delivery takes commands from one queue and puts the answers to them on the other. -/
lemma unsettled_step {st : Negotiation} {queue : Side → List OptionCommand} (h : Unsettled st queue) (d : Delivery) :
    ∃ done rest, queue d.side = done ++ rest ∧ Unsettled (negotiationStep st d).1
      (Function.update (Function.update queue d.side rest) d.side.peer (queue d.side.peer ++ repliesTo done)) ∧
      (negotiationStep st d).1.commands = st.commands + (repliesTo done).length ∧
      ((st.channel d.side).length ≤ d.len → rest = []) := by
  have haw := h.awaits d.side
  rw [← List.take_append_drop d.len (st.channel d.side)] at haw
  obtain ⟨done, rest, hq, hrun, hout⟩ := awaits_run haw (h.commands d.side)
  have hne := peer_ne d.side
  refine ⟨done, rest, hq, ⟨fun side => ?_, fun side c hc => ?_, ?_⟩, by rw [← hout]; rfl, fun hlen => ?_⟩
  · simp only [negotiationStep, hout]
    by_cases hp : side = d.side.peer
    · rw [hp, Function.update_of_ne hne, Function.update_self, Function.update_self]
      exact (h.awaits d.side.peer).append _
    · have hs : side = d.side := by
        revert hp
        cases side <;> cases d.side <;> decide
      rw [hs, Function.update_self, Function.update_of_ne hne.symm, Function.update_of_ne hne.symm,
        Function.update_self, Function.update_self]
      exact hrun
  · by_cases hp : side = d.side.peer
    · rw [hp, Function.update_self] at hc
      rcases List.mem_append.mp hc with hc | hc
      · exact h.commands _ c hc
      · obtain ⟨b, -, hb⟩ := List.mem_flatMap.mp hc
        exact isOptionCommand_replyTo hb
    · have hs : side = d.side := by
        revert hp
        cases side <;> cases d.side <;> decide
      rw [hs, Function.update_of_ne hne.symm, Function.update_self] at hc
      exact h.commands d.side c (hq ▸ List.mem_append_right _ hc)
  · rw [← restless_sides _ d.side, Function.update_self, Function.update_of_ne hne.symm, Function.update_self,
      restless_append, restless_repliesTo]
    have htotal := h.restless
    rw [← restless_sides _ d.side, hq, restless_append] at htotal
    omega
  · rw [List.drop_eq_nil_of_le hlen] at hrun
    exact hrun.nil

lemma unsettled_next {st : Negotiation} (h : ∃ queue, Unsettled st queue) (d : Delivery) :
    ∃ queue, Unsettled (negotiationStep st d).1 queue := by
  obtain ⟨queue, hq⟩ := h
  obtain ⟨done, rest, -, hnext, -⟩ := unsettled_step hq d
  exact ⟨_, hnext⟩

lemma unsettled_run (ds : List Delivery) : ∃ queue, Unsettled (negotiate .start ds) queue :=
  Transducer.run_invariant (I := fun st => ∃ queue, Unsettled st queue) negotiationStep
    (fun _ d hs => unsettled_next hs d) ⟨_, unsettled_start⟩ ds

lemma restless_le_replies (cs : List OptionCommand) : restless cs ≤ (repliesTo cs).length := by
  rw [← restless_repliesTo]
  exact List.countP_le_length

/-- Delivering everything that is on its way to a side. -/
lemma drain {st : Negotiation} {queue : Side → List OptionCommand} (h : Unsettled st queue) (side : Side) :
    ∃ d queue', Unsettled (negotiationStep st d).1 queue' ∧ queue' side = [] ∧
      (negotiationStep st d).1.commands = st.commands + (repliesTo (queue side)).length := by
  obtain ⟨done, rest, hq, hnext, hcount, hrest⟩ := unsettled_step h ⟨side, (st.channel side).length⟩
  obtain rfl := hrest (le_refl _)
  rw [List.append_nil] at hq
  refine ⟨_, _, hnext, ?_, by rw [hcount, ← hq]⟩
  rw [Function.update_of_ne (peer_ne side).symm, Function.update_self]

/-- Once both channels are drained, there are two answers more. -/
lemma two_more {st : Negotiation} {queue : Side → List OptionCommand} (h : Unsettled st queue) :
    ∃ ds queue', Unsettled (negotiate st ds) queue' ∧ st.commands + 2 ≤ (negotiate st ds).commands := by
  obtain ⟨d, mid, hmid, hempty, hcount⟩ := drain h .server
  obtain ⟨d', queue', hlast, -, hcount'⟩ := drain hmid .client
  refine ⟨[d, d'], queue', hlast, ?_⟩
  have htwo := hmid.restless
  have hnone : restless (mid .server) = 0 := by
    rw [hempty]
    rfl
  have hle := restless_le_replies (mid .client)
  have hcommands : (negotiate st [d, d']).commands =
      (negotiationStep st d).1.commands + (repliesTo (mid .client)).length := hcount'
  omega

lemma unbounded_from (n : ℕ) {st : Negotiation} (h : ∃ queue, Unsettled st queue) :
    ∃ ds, st.commands + 2 * n ≤ (negotiate st ds).commands := by
  induction n generalizing st with
  | zero => exact ⟨[], le_refl _⟩
  | succ n ih =>
    obtain ⟨queue, hq⟩ := h
    obtain ⟨ds, queue', hnext, hmore⟩ := two_more hq
    obtain ⟨ds', hlater⟩ := ih ⟨queue', hnext⟩
    refine ⟨ds ++ ds', ?_⟩
    rw [negotiate, Transducer.run_append]
    exact le_trans (by omega) hlater

lemma Awaits.bytes_ne_nil {p : TelnetParser} {bytes : Bytes} {cs : List OptionCommand} (h : Awaits p bytes cs)
    (hne : cs ≠ []) : bytes ≠ [] := by
  rintro rfl
  exact hne h.nil

/-- However the bytes were delivered so far: there are more on their way, and going on leads to more option commands
than any bound. -/
theorem negotiation_never_settles (ds : List Delivery) :
    (∃ side, (negotiate .start ds).channel side ≠ []) ∧
      ∀ bound, ∃ more, bound < (negotiate .start (ds ++ more)).commands := by
  obtain ⟨queue, h⟩ := unsettled_run ds
  constructor
  · have hsome : queue .server ≠ [] ∨ queue .client ≠ [] := by
      by_contra hnone
      rw [not_or, not_not, not_not] at hnone
      have htwo := h.restless
      rw [hnone.1, hnone.2] at htwo
      exact absurd htwo (by decide)
    rcases hsome with hs | hs
    · exact ⟨.server, (h.awaits .server).bytes_ne_nil hs⟩
    · exact ⟨.client, (h.awaits .client).bytes_ne_nil hs⟩
  · intro bound
    obtain ⟨more, hmore⟩ := unbounded_from (bound + 1) ⟨queue, h⟩
    refine ⟨more, ?_⟩
    rw [negotiate, Transducer.run_append]
    exact lt_of_lt_of_le (by omega) hmore

/-- No bound holds for all ways of delivering. -/
theorem negotiation_unbounded : ¬∃ bound, ∀ ds, (negotiate .start ds).commands ≤ bound := by
  rintro ⟨bound, h⟩
  obtain ⟨ds, hds⟩ := unbounded_from (bound + 1) ⟨_, unsettled_start⟩
  have := h ds
  omega

end HyBBX.Telnet
