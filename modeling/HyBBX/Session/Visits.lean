import HyBBX.Lib.Processes

/-! Visits to the attached sessions, under any interleaving with sessions that open and close. A visit takes a copy of
the list under the lock and goes through the copy without it. -/

namespace HyBBX.Session

open Lib

/-- The list under `session_lock`; a session that opens gets a name that no other has had. -/
structure SessionList where
  attached : List ℕ
  next : ℕ

/-- Where a thread is: in a visit with some of its copy still to go, or in a close behind the detach. -/
inductive VisitPc
  | idle
  | visiting (rest : List ℕ)
  | detached (session : ℕ)
  deriving DecidableEq

inductive VisitInput
  | attach
  | visitSessions (allocated : Bool)
  | close (session : ℕ)
  | go

inductive VisitEvent
  | callback (session : ℕ)
  | detach (session : ℕ)
  | free (session : ℕ)
  deriving DecidableEq

/-- A thread that is busy goes on with what it does, whatever else it is asked for. -/
def visitAct {ι : Type*} (_ : ι) (input : VisitInput) (list : SessionList) :
    VisitPc → (SessionList × VisitPc) × List VisitEvent
  | .idle =>
    match input with
    | .attach => ((⟨list.next :: list.attached, list.next + 1⟩, .idle), [])
    | .visitSessions allocated =>
      if list.attached ≠ [] ∧ allocated then ((list, .visiting list.attached), []) else ((list, .idle), [])
    | .close session =>
      if session ∈ list.attached then
        (({ list with attached := list.attached.erase session }, .detached session), [.detach session])
      else ((list, .idle), [])
    | .go => ((list, .idle), [])
  | .visiting [] => ((list, .idle), [])
  | .visiting (session :: rest) => ((list, .visiting rest), [.callback session])
  | .detached session => ((list, .idle), [.free session])

abbrev VisitSys (ι : Type*) := Sys ι SessionList VisitPc

section Runs

variable {ι : Type*}

def VisitSys.start : VisitSys ι := ⟨⟨[], 0⟩, fun _ => .idle⟩

/-- No callback is invoked on a session behind its detach. -/
def NeverVisited (events : List VisitEvent) : Prop :=
  ∀ before after session, events = before ++ .callback session :: after → .detach session ∉ before

def VisitPc.pending : VisitPc → List ℕ
  | .visiting rest => rest
  | _ => []

/-- A session is detached only when no visit still has it before itself. -/
def DetachesUnseen (sys : VisitSys ι) (ev : ι × VisitInput) : Prop :=
  ∀ session, ev.2 = .close session → sys.proc ev.1 = .idle → session ∈ sys.store.attached →
    ∀ j, session ∉ (sys.proc j).pending

/-- What is attached or still to be visited has not been detached. -/
structure ListsLive (sys : VisitSys ι) (events : List VisitEvent) : Prop where
  never : NeverVisited events
  attached : ∀ session ∈ sys.store.attached, .detach session ∉ events
  pending : ∀ j, ∀ session ∈ (sys.proc j).pending, .detach session ∉ events
  nodup : sys.store.attached.Nodup
  named : ∀ session, session ∈ sys.store.attached ∨ .detach session ∈ events → session < sys.store.next

lemma NeverVisited.concat {events : List VisitEvent} (h : NeverVisited events) {e : VisitEvent}
    (he : ∀ session, e = .callback session → .detach session ∉ events) : NeverVisited (events ++ [e]) := by
  intro before after session hsplit
  obtain rfl | ⟨after', last, rfl⟩ := List.eq_nil_or_concat after
  · obtain ⟨rfl, hlast⟩ := List.append_inj' hsplit rfl
    exact he session (List.singleton_inj.mp hlast)
  · rw [List.concat_eq_append, ← List.cons_append, ← List.append_assoc] at hsplit
    obtain ⟨rfl, -⟩ := List.append_inj' hsplit rfl
    exact h before after' session rfl

lemma notMem_concat {events : List VisitEvent} {x e : VisitEvent} (h : x ∉ events) (hne : x ≠ e) :
    x ∉ events ++ [e] := by
  rw [List.mem_append, List.mem_singleton, not_or]
  exact ⟨h, hne⟩

/-- An event that detaches nothing. -/
lemma ListsLive.event {sys : VisitSys ι} {events : List VisitEvent} {e : VisitEvent} (h : ListsLive sys events)
    (he : ∀ session, e ≠ .detach session) (hcall : ∀ session, e = .callback session → .detach session ∉ events) :
    ListsLive sys (events ++ [e]) where
  never := h.never.concat hcall
  attached s hs := notMem_concat (h.attached s hs) (he s).symm
  pending j s hs := notMem_concat (h.pending j s hs) (he s).symm
  nodup := h.nodup
  named s hs := by
    refine h.named s (hs.imp_right fun hm => ?_)
    rcases List.mem_append.mp hm with hm | hm
    · exact hm
    · exact absurd (List.mem_singleton.mp hm).symm (he s)

lemma listsLive_start : ListsLive (VisitSys.start : VisitSys ι) [] where
  never before after session h := by simp at h
  attached s hs := by cases hs
  pending j s hs := by cases hs
  nodup := List.nodup_nil
  named s hs := by
    rcases hs with hs | hs
    · cases hs
    · cases hs

variable [DecidableEq ι]

def visitStep : VisitSys ι → ι × VisitInput → VisitSys ι × List VisitEvent := Sys.step visitAct

/-- Everything that happens in a run, in order. -/
def visitEvents (evs : List (ι × VisitInput)) : List VisitEvent := (Transducer.run visitStep VisitSys.start evs).2

lemma pending_update {sys : VisitSys ι} {i : ι} {pc : VisitPc} {P : ℕ → Prop} (hpc : ∀ session ∈ pc.pending, P session)
    (hsys : ∀ j, ∀ session ∈ (sys.proc j).pending, P session) (j : ι) :
    ∀ session ∈ (Function.update sys.proc i pc j).pending, P session := by
  by_cases hj : j = i
  · rw [hj, Function.update_self]
    exact hpc
  · rw [Function.update_of_ne hj]
    exact hsys j

/-- An event that is neither a callback nor a detach changes nothing. -/
lemma ListsLive.quiet {sys : VisitSys ι} {events : List VisitEvent} (h : ListsLive sys events) {i : ι} {pc : VisitPc}
    (hpc : ∀ session ∈ pc.pending, .detach session ∉ events) :
    ListsLive ⟨sys.store, Function.update sys.proc i pc⟩ events :=
  ⟨h.never, h.attached, pending_update hpc h.pending, h.nodup, h.named⟩

lemma ListsLive.attach {sys : VisitSys ι} {events : List VisitEvent} (h : ListsLive sys events) (i : ι) :
    ListsLive ⟨⟨sys.store.next :: sys.store.attached, sys.store.next + 1⟩,
      Function.update sys.proc i .idle⟩ events where
  never := h.never
  attached := by
    have hnew : .detach sys.store.next ∉ events := fun hm => absurd (h.named _ (.inr hm)) (lt_irrefl _)
    exact List.forall_mem_cons.mpr ⟨hnew, h.attached⟩
  pending := pending_update (by simp [VisitPc.pending]) h.pending
  nodup := List.nodup_cons.mpr ⟨fun hm => absurd (h.named _ (.inl hm)) (lt_irrefl _), h.nodup⟩
  named := by
    rintro s (hs | hs)
    · rcases List.mem_cons.mp hs with rfl | hs
      · exact Nat.lt_succ_self _
      · exact Nat.lt_succ_of_lt (h.named s (.inl hs))
    · exact Nat.lt_succ_of_lt (h.named s (.inr hs))

lemma ListsLive.detach {sys : VisitSys ι} {events : List VisitEvent} (h : ListsLive sys events) (i : ι) {session : ℕ}
    (hin : session ∈ sys.store.attached) (hunseen : ∀ j, session ∉ (sys.proc j).pending) :
    ListsLive ⟨{ sys.store with attached := sys.store.attached.erase session },
      Function.update sys.proc i (.detached session)⟩ (events ++ [.detach session]) where
  never := h.never.concat (by simp)
  attached s hs := by
    obtain ⟨hne, hmem⟩ := h.nodup.mem_erase_iff.mp hs
    exact notMem_concat (h.attached s hmem) (by simpa using hne)
  pending := by
    refine @pending_update _ _ sys i (.detached session) (fun s => .detach s ∉ events ++ [.detach session])
      (by simp [VisitPc.pending]) fun j s hs => notMem_concat (h.pending j s hs) ?_
    rintro ⟨⟩
    exact hunseen j hs
  nodup := h.nodup.erase session
  named := by
    rintro s (hs | hs)
    · exact h.named s (.inl (List.mem_of_mem_erase hs))
    · rcases List.mem_append.mp hs with hs | hs
      · exact h.named s (.inr hs)
      · obtain rfl : s = session := by simpa using hs
        exact h.named s (.inl hin)

lemma ListsLive.step {sys : VisitSys ι} {events : List VisitEvent} {ev : ι × VisitInput} (hev : DetachesUnseen sys ev)
    (h : ListsLive sys events) : ListsLive (visitStep sys ev).1 (events ++ (visitStep sys ev).2) := by
  obtain ⟨i, input⟩ := ev
  rw [visitStep, Sys.step]
  dsimp only
  cases hpc : sys.proc i with
  | visiting rest =>
    have hpending := h.pending i
    rw [hpc] at hpending
    cases rest with
    | nil =>
      rw [visitAct, List.append_nil]
      exact h.quiet (by simp [VisitPc.pending])
    | cons session rest =>
      obtain ⟨hfirst, hrest⟩ := List.forall_mem_cons.mp hpending
      rw [visitAct]
      apply (@ListsLive.quiet _ _ sys events h i (.visiting rest) hrest).event
      · simp
      · rintro s ⟨⟩
        exact hfirst
  | detached session =>
    rw [visitAct]
    exact (h.quiet (by simp [VisitPc.pending])).event (by simp) (by simp)
  | idle =>
    cases input with
    | attach =>
      rw [visitAct, List.append_nil]
      exact h.attach i
    | visitSessions allocated =>
      rw [visitAct]
      split_ifs
      · rw [List.append_nil]
        exact h.quiet h.attached
      · rw [List.append_nil]
        exact h.quiet (by simp [VisitPc.pending])
    | go =>
      rw [visitAct, List.append_nil]
      exact h.quiet (by simp [VisitPc.pending])
    | close session =>
      rw [visitAct]
      split_ifs with hin
      · exact h.detach i hin (hev session rfl hpc hin)
      · rw [List.append_nil]
        exact h.quiet (by simp [VisitPc.pending])

/-- As long as sessions are detached only when no visit has them before itself, no visit meets a detached one. -/
theorem detached_never_visited {evs : List (ι × VisitInput)}
    (h : Transducer.Along visitStep DetachesUnseen VisitSys.start evs) :
    NeverVisited (visitEvents evs) := by
  have hrun := @Transducer.along_history _ _ _ visitStep DetachesUnseen ListsLive (fun _ _ _ hev hs => hs.step hev)
    (VisitSys.start : VisitSys ι) [] listsLive_start evs h
  exact hrun.never

theorem detached_never_visited_quietClose : NeverVisited (visitEvents
    [((0 : Fin 2), .attach), (1, .visitSessions true), (1, .go), (1, .go), (0, .close 0), (0, .go)]) := by
  apply detached_never_visited
  refine ⟨nofun, nofun, nofun, nofun, ?_, nofun, trivial⟩
  intro session _ _ _ j
  fin_cases j <;> exact List.not_mem_nil

/-- A visitor has copied the list when the session closes, and calls back on it when it has been freed. -/
theorem freed_session_visited : ¬∀ evs : List (Fin 2 × VisitInput), NeverVisited (visitEvents evs) := by
  intro h
  exact h [(0, .attach), (1, .visitSessions true), (0, .close 0), (0, .go), (1, .go)] [.detach 0, .free 0] [] 0 rfl
    (by decide)

end Runs

end HyBBX.Session
