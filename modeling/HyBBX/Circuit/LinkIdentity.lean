import HyBBX.Circuit.LinkAuth
import HyBBX.Core.Password

/-! The link threads of the hub: a connection authenticates in two steps, and other threads run in between. -/

namespace HyBBX.Circuit

open HyBBX.Core Lib Lib.Bytes Lib.Text

inductive SlotState
  | free
  | connecting
  | active
  deriving DecidableEq, Repr

/-- Where the thread of a slot is: in its loop it waits for LINK_AUTH or serves the link; `validated` is between
the check of the credentials and the copy of the id. -/
inductive LinkPhase
  | none
  | waiting
  | validated (auth : LinkAuth)
  | leaving
  | serving
  deriving DecidableEq, Repr

structure IdentitySlot where
  state : SlotState
  fdOpen : Bool
  linkId : Bytes
  phase : LinkPhase
  deriving DecidableEq, Repr

abbrev IdentitySlots := Fin circuitMaxLinks → IdentitySlot

structure BridgeEntry where
  linkId : Bytes
  linkPassword : Bytes

structure LinkHub where
  backend : HashBackend
  linkAuth : Bool
  linkPassword : Bytes
  bridge : List BridgeEntry
  maxLinks : ℕ

def freeSlots : IdentitySlots := fun _ => ⟨.free, false, [], .none⟩

def circuitCountUsedSlots (slots : IdentitySlots) : ℕ :=
  (List.finRange circuitMaxLinks).countP fun i => (slots i).state ≠ .free

def circuitFindFreeSlot (slots : IdentitySlots) : Option (Fin circuitMaxLinks) :=
  (List.finRange circuitMaxLinks).find? fun i => (slots i).state = .free && !(slots i).fdOpen

def circuitFindActiveSlotById (slots : IdentitySlots) (linkId : Bytes) (except : Fin circuitMaxLinks) :
    Option (Fin circuitMaxLinks) :=
  if linkId = [] then none
  else (List.finRange circuitMaxLinks).find? fun i =>
    i ≠ except && (slots i).state ≠ .free && (slots i).linkId ≠ [] && (slots i).linkId = linkId

def circuitEvictStaleLink (slots : IdentitySlots) (stale : Fin circuitMaxLinks) : IdentitySlots :=
  Function.update slots stale { slots stale with fdOpen := false, linkId := [] }

def circuitBridgeFind (bridge : List BridgeEntry) (linkId : Bytes) : Option BridgeEntry :=
  if linkId = [] then none else bridge.find? fun e => e.linkId = linkId

def circuitAuthPasswordOk (hub : LinkHub) (entry : Option BridgeEntry) (password : Bytes) : Bool :=
  match entry.filter fun e => e.linkPassword ≠ [] with
  | some e => passwordMatch hub.backend e.linkPassword password
  | none => if hub.linkPassword ≠ [] then passwordMatch hub.backend hub.linkPassword password else false

/-- The slots afterwards and the reason of a refusal. -/
def circuitValidateLinkAuth (hub : LinkHub) (slots : IdentitySlots) (slot : Fin circuitMaxLinks) (auth : LinkAuth) :
    IdentitySlots × Option Bytes :=
  if hub.linkAuth = false then (slots, none)
  else
    let entry := if hub.bridge ≠ [] then circuitBridgeFind hub.bridge auth.id else none
    if hub.bridge ≠ [] ∧ entry = none then (slots, some (ofString "unknown_id"))
    else if hub.bridge = [] ∧ hub.linkPassword = [] then (slots, some (ofString "no_password"))
    else if circuitAuthPasswordOk hub entry auth.password = false then
      (slots, some (ofString "password"))
    else match circuitFindActiveSlotById slots auth.id slot with
      | none => (slots, none)
      | some stale =>
        let slots := circuitEvictStaleLink slots stale
        if (circuitFindActiveSlotById slots auth.id slot).isSome then (slots, some (ofString "duplicate_id"))
        else (slots, none)

inductive LinkStep
  | accept
  | validate (slot : Fin circuitMaxLinks) (payload : Bytes) (callidAccepted : Bool)
  | commit (slot : Fin circuitMaxLinks)
  | serve (slot : Fin circuitMaxLinks)
  | close (slot : Fin circuitMaxLinks)

def setPhase (slots : IdentitySlots) (i : Fin circuitMaxLinks) (phase : LinkPhase) : IdentitySlots :=
  Function.update slots i { slots i with phase := phase }

/-- One step of one thread; a step its thread cannot make leaves the slots as they are. -/
def linkStep (hub : LinkHub) (slots : IdentitySlots) : LinkStep → IdentitySlots
  | .accept =>
    if hub.maxLinks ≤ circuitCountUsedSlots slots then slots
    else match circuitFindFreeSlot slots with
      | none => slots
      | some i => Function.update slots i { slots i with state := .connecting, fdOpen := true, phase := .waiting }
  | .validate i payload callidAccepted =>
    if (slots i).phase = .waiting ∧ hub.linkAuth = true then
      match linkAuthParse payload with
      | none => setPhase slots i .leaving
      | some auth =>
        if callidAccepted = false then setPhase slots i .leaving
        else
          let r := circuitValidateLinkAuth hub slots i auth
          setPhase r.1 i (if r.2.isSome then .leaving else .validated auth)
    else slots
  | .commit i => match (slots i).phase with
    | .validated auth => Function.update slots i { slots i with linkId := strlcpy linkIdMax auth.id, phase := .serving }
    | _ => slots
  | .serve i =>
    if (slots i).phase = .serving ∨ ((slots i).phase = .waiting ∧ hub.linkAuth = false) then
      Function.update slots i { slots i with state := .active, phase := .serving }
    else slots
  -- between the two steps of the authentication the thread looks at nothing else
  | .close i => match (slots i).phase with
    | .validated _ => slots
    | .none => slots
    | _ => Function.update slots i ⟨.free, false, [], .none⟩

def linkRun (hub : LinkHub) : IdentitySlots → List LinkStep → IdentitySlots
  | slots, [] => slots
  | slots, e :: es => linkRun hub (linkStep hub slots e) es

/-- No two taken slots have one id. -/
def UniqueIds (slots : IdentitySlots) : Prop :=
  ∀ i j, (slots i).state ≠ .free → (slots j).state ≠ .free → (slots i).linkId ≠ [] →
    (slots i).linkId = (slots j).linkId → i = j

/-- What the check has found still holds when the id is copied. -/
def StillFree (slots : IdentitySlots) : LinkStep → Prop
  | .commit i => ∀ auth, (slots i).phase = .validated auth → circuitFindActiveSlotById slots auth.id i = none
  | _ => True

def AllStillFree (hub : LinkHub) : IdentitySlots → List LinkStep → Prop
  | _, [] => True
  | slots, e :: es => StillFree slots e ∧ AllStillFree hub (linkStep hub slots e) es

/-- What every step keeps. -/
structure LinksSound (hub : LinkHub) (slots : IdentitySlots) : Prop where
  free : ∀ i, (slots i).state = .free → slots i = ⟨.free, false, [], .none⟩
  parsed : ∀ i auth, (slots i).phase = .validated auth → auth.id.length < linkIdMax
  few : circuitCountUsedSlots slots ≤ hub.maxLinks

section Step

variable {hub : LinkHub} {slots : IdentitySlots}

lemma findActive_none {linkId : Bytes} {i : Fin circuitMaxLinks} :
    circuitFindActiveSlotById slots linkId i = none ↔
      ∀ j, j ≠ i → (slots j).state ≠ .free → linkId ≠ [] → (slots j).linkId ≠ linkId := by
  rw [circuitFindActiveSlotById]
  split_ifs with hid
  · simp [hid]
  · rw [List.find?_eq_none]
    constructor
    · intro h j hj hs _ hlink
      exact h j (List.mem_finRange j) (by simp [hj, hs, hlink, hid])
    · intro h j _ hj
      simp only [Bool.and_eq_true, decide_eq_true_eq, ne_eq] at hj
      exact h j hj.1.1.1 hj.1.1.2 hid hj.2

lemma count_congr {slots' : IdentitySlots} (h : ∀ i, (slots' i).state = .free ↔ (slots i).state = .free) :
    circuitCountUsedSlots slots' = circuitCountUsedSlots slots := by
  apply List.countP_congr
  intro i _
  simp [h i]

/-- Some slots keep their state and their thread, and others lose their id. -/
structure Weaker (slots slots' : IdentitySlots) : Prop where
  state : ∀ i, (slots' i).state = .free ↔ (slots i).state = .free
  ids : ∀ i, (slots' i).linkId = (slots i).linkId ∨ (slots' i).linkId = []

lemma Weaker.unique {slots' : IdentitySlots} (h : Weaker slots slots') (hu : UniqueIds slots) : UniqueIds slots' := by
  intro i j hi hj hne heq
  have hi' := (h.ids i).resolve_right hne
  have hj' := (h.ids j).resolve_right fun hn => hne (heq.trans hn)
  rw [hi'] at hne heq
  rw [hj'] at heq
  exact hu i j (fun hf => hi ((h.state i).mpr hf)) (fun hf => hj ((h.state j).mpr hf)) hne heq

lemma Weaker.refl (slots : IdentitySlots) : Weaker slots slots := ⟨fun _ => Iff.rfl, fun _ => .inl rfl⟩

lemma evict_weaker (stale : Fin circuitMaxLinks) : Weaker slots (circuitEvictStaleLink slots stale) := by
  refine ⟨fun i => ?_, fun i => ?_⟩
  · rw [circuitEvictStaleLink, Function.update_apply]
    split_ifs with hi
    · rw [hi]
    · exact Iff.rfl
  · rw [circuitEvictStaleLink, Function.update_apply]
    split_ifs with hi
    · exact .inr rfl
    · exact .inl rfl

lemma Weaker.trans {slots' slots'' : IdentitySlots} (h : Weaker slots slots') (h' : Weaker slots' slots'') :
    Weaker slots slots'' := by
  refine ⟨fun i => (h'.state i).trans (h.state i), fun i => ?_⟩
  rcases h'.ids i with he | he
  · rw [he]
    exact h.ids i
  · exact .inr he

lemma setPhase_weaker (i : Fin circuitMaxLinks) (phase : LinkPhase) : Weaker slots (setPhase slots i phase) := by
  refine ⟨fun j => ?_, fun j => .inl ?_⟩
  · rw [setPhase, Function.update_apply]
    split_ifs with hj
    · rw [hj]
    · exact Iff.rfl
  · rw [setPhase, Function.update_apply]
    split_ifs with hj
    · rw [hj]
    · rfl

lemma findActive_some {linkId : Bytes} {i stale : Fin circuitMaxLinks}
    (h : circuitFindActiveSlotById slots linkId i = some stale) : (slots stale).state ≠ .free := by
  rw [circuitFindActiveSlotById] at h
  split_ifs at h
  have hp := List.find?_some h
  simp only [Bool.and_eq_true, decide_eq_true_eq] at hp
  exact hp.1.1.2

/-- The check at most evicts one slot. -/
lemma validate_slots (i : Fin circuitMaxLinks) (auth : LinkAuth) :
    (circuitValidateLinkAuth hub slots i auth).1 = slots ∨
      ∃ stale, (slots stale).state ≠ .free ∧ (circuitValidateLinkAuth hub slots i auth).1 =
          circuitEvictStaleLink slots stale := by
  rw [circuitValidateLinkAuth]
  dsimp only
  generalize (if hub.bridge ≠ [] then circuitBridgeFind hub.bridge auth.id else none) = entry
  split_ifs
  · exact .inl rfl
  · exact .inl rfl
  · exact .inl rfl
  · exact .inl rfl
  · cases hf : circuitFindActiveSlotById slots auth.id i with
    | none => exact .inl rfl
    | some stale =>
      refine .inr ⟨stale, findActive_some hf, ?_⟩
      dsimp only
      split_ifs <;> rfl

lemma validate_weaker (i : Fin circuitMaxLinks) (auth : LinkAuth) :
    Weaker slots (circuitValidateLinkAuth hub slots i auth).1 := by
  rcases @validate_slots hub slots i auth with h | ⟨stale, -, h⟩
  · rw [h]
    exact .refl slots
  · rw [h]
    exact evict_weaker stale

lemma LinksSound.busy (h : LinksSound hub slots) {i : Fin circuitMaxLinks} (hp : (slots i).phase ≠ .none) :
    (slots i).state ≠ .free := by
  intro hf
  apply hp
  rw [h.free i hf]

/-- A slot that is not free changes, and stays so. -/
lemma LinksSound.update (h : LinksSound hub slots) {i : Fin circuitMaxLinks} {new : IdentitySlot}
    (hi : (slots i).state ≠ .free) (hs : new.state ≠ .free)
    (hp : ∀ auth, new.phase = .validated auth → auth.id.length < linkIdMax) :
    LinksSound hub (Function.update slots i new) := by
  refine ⟨fun j hj => ?_, fun j auth hj => ?_, ?_⟩
  · rw [Function.update_apply] at hj ⊢
    split_ifs at hj ⊢
    · exact absurd hj hs
    · exact h.free j hj
  · rw [Function.update_apply] at hj
    split_ifs at hj
    · exact hp auth hj
    · exact h.parsed j auth hj
  · rw [count_congr fun j => ?_]
    · exact h.few
    · rw [Function.update_apply]
      split_ifs with hj
      · rw [hj]
        exact iff_of_false hs hi
      · exact Iff.rfl

lemma countP_or_le {α : Type*} (p q : α → Bool) (xs : List α) :
    xs.countP (fun x => p x || q x) ≤ xs.countP p + xs.countP q := by
  induction xs with
  | nil => exact Nat.le_refl 0
  | cons x xs ih =>
    simp only [List.countP_cons]
    cases p x <;> cases q x <;> simp <;> omega

lemma count_update_le (i : Fin circuitMaxLinks) (new : IdentitySlot) :
    circuitCountUsedSlots (Function.update slots i new) ≤ circuitCountUsedSlots slots + 1 := by
  have hone : (List.finRange circuitMaxLinks).countP (fun j => j = i) ≤ 1 := by
    have h := (List.nodup_iff_count_le_one.mp (List.nodup_finRange circuitMaxLinks)) i
    simpa [List.count, beq_eq_decide] using h
  calc circuitCountUsedSlots (Function.update slots i new)
      ≤ (List.finRange circuitMaxLinks).countP fun j => (slots j).state ≠ .free || j = i := by
        apply List.countP_mono_left
        intro j _ hj
        rw [Function.update_apply] at hj
        split_ifs at hj with hji
        · simp [hji]
        · simpa [hji] using hj
    _ ≤ _ := (countP_or_le _ _ _).trans (Nat.add_le_add_left hone _)

lemma unique_blank (hu : UniqueIds slots) (i : Fin circuitMaxLinks) {new : IdentitySlot} (hn : new.linkId = []) :
    UniqueIds (Function.update slots i new) := by
  intro a b ha hb hne heq
  rw [Function.update_apply] at ha hne heq
  rw [Function.update_apply] at hb heq
  split_ifs at ha hb hne heq with hai hbi
  · rw [hai, hbi]
  · exact absurd hn hne
  · exact absurd (heq.trans hn) hne
  · exact hu a b ha hb hne heq

/-- Copying the id keeps the ids unique exactly if no other taken slot has it. -/
lemma unique_commit (hu : UniqueIds slots) {i : Fin circuitMaxLinks} (hi : (slots i).state ≠ .free) (linkId : Bytes)
    (phase : LinkPhase) :
    UniqueIds (Function.update slots i { slots i with linkId := linkId, phase := phase }) ↔
      circuitFindActiveSlotById slots linkId i = none := by
  rw [findActive_none]
  constructor
  · intro hu' j hj hs hne hlink
    refine hj (hu' j i ?_ ?_ ?_ ?_)
    · rwa [Function.update_of_ne hj]
    · rwa [Function.update_self]
    · rwa [Function.update_of_ne hj, hlink]
    · rw [Function.update_of_ne hj, Function.update_self, hlink]
  · intro hfree a b ha hb hne heq
    by_cases hai : a = i
    · by_cases hbi : b = i
      · rw [hai, hbi]
      · rw [hai, Function.update_self] at hne heq
        rw [Function.update_of_ne hbi] at hb heq
        exact absurd heq.symm (hfree b hbi hb hne)
    · rw [Function.update_of_ne hai] at ha hne heq
      by_cases hbi : b = i
      · rw [hbi, Function.update_self] at heq
        exact absurd heq (hfree a hai ha fun hn => hne (heq.trans hn))
      · rw [Function.update_of_ne hbi] at hb heq
        exact hu a b ha hb hne heq

lemma linkAuthParse_id {payload : Bytes} {auth : LinkAuth} (h : linkAuthParse payload = some auth) :
    auth.id.length < linkIdMax := by
  simp only [linkAuthParse, Option.bind_eq_bind, Option.bind_eq_some_iff, Option.some.injEq] at h
  obtain ⟨_, _, linkId, _, rfl⟩ := h
  dsimp only
  rw [strlcpy, List.length_take]
  exact lt_of_le_of_lt (min_le_left _ _) (by decide)

lemma findFree_some {i : Fin circuitMaxLinks} (h : circuitFindFreeSlot slots = some i) : (slots i).state = .free := by
  have hp := List.find?_some h
  simp only [Bool.and_eq_true, decide_eq_true_eq] at hp
  exact hp.1

variable (h : LinksSound hub slots)
include h

lemma accept_sound (hfew : ¬hub.maxLinks ≤ circuitCountUsedSlots slots) (i : Fin circuitMaxLinks) :
    LinksSound hub (Function.update slots i { slots i with state := .connecting, fdOpen := true, phase := .waiting }) := by
  refine ⟨fun j hj => ?_, fun j auth hj => ?_, (count_update_le i _).trans (by omega)⟩
  · by_cases hji : j = i
    · rw [hji, Function.update_self] at hj
      cases hj
    · rw [Function.update_of_ne hji] at hj ⊢
      exact h.free j hj
  · by_cases hji : j = i
    · rw [hji, Function.update_self] at hj
      cases hj
    · rw [Function.update_of_ne hji] at hj
      exact h.parsed j auth hj

lemma close_sound (i : Fin circuitMaxLinks) : LinksSound hub (Function.update slots i ⟨.free, false, [], .none⟩) := by
  refine ⟨fun j hj => ?_, fun j auth hj => ?_, le_trans (List.countP_mono_left fun j _ hj => ?_) h.few⟩
  · by_cases hji : j = i
    · rw [hji, Function.update_self]
    · rw [Function.update_of_ne hji] at hj ⊢
      exact h.free j hj
  · by_cases hji : j = i
    · rw [hji, Function.update_self] at hj
      cases hj
    · rw [Function.update_of_ne hji] at hj
      exact h.parsed j auth hj
  · by_cases hji : j = i
    · rw [hji, Function.update_self] at hj
      simp at hj
    · rwa [Function.update_of_ne hji] at hj

lemma validate_sound (i : Fin circuitMaxLinks) (auth : LinkAuth) :
    LinksSound hub (circuitValidateLinkAuth hub slots i auth).1 ∧
      ∀ j, ((circuitValidateLinkAuth hub slots i auth).1 j).phase = (slots j).phase := by
  rcases @validate_slots hub slots i auth with he | ⟨stale, hs, he⟩
  · rw [he]
    exact ⟨h, fun _ => rfl⟩
  · rw [he]
    refine ⟨h.update hs hs fun auth hp => h.parsed stale auth hp, fun j => ?_⟩
    rw [circuitEvictStaleLink, Function.update_apply]
    split_ifs with hj
    · rw [hj]
    · rfl

/-- One step of any thread: the invariants stay, and the ids stay unique exactly if a copied id is still free. -/
lemma linkStep_sound (hu : UniqueIds slots) (e : LinkStep) :
    LinksSound hub (linkStep hub slots e) ∧ (UniqueIds (linkStep hub slots e) ↔ StillFree slots e) := by
  cases e with
  | accept =>
    simp only [linkStep, StillFree, iff_true]
    split_ifs with hfew
    · exact ⟨h, hu⟩
    · cases hf : circuitFindFreeSlot slots with
      | none => exact ⟨h, hu⟩
      | some i =>
        have hi := findFree_some hf
        exact ⟨accept_sound h hfew i, unique_blank hu i (by rw [h.free i hi])⟩
  | validate i payload callidAccepted =>
    simp only [linkStep, StillFree, iff_true]
    by_cases hw : (slots i).phase = .waiting ∧ hub.linkAuth = true
    · rw [if_pos hw]
      have hbusy := h.busy (by rw [hw.1]; decide)
      have hleave : LinksSound hub (setPhase slots i .leaving) := h.update hbusy hbusy fun auth hp => by cases hp
      cases hp : linkAuthParse payload with
      | none => exact ⟨hleave, (setPhase_weaker i _).unique hu⟩
      | some auth =>
        dsimp only
        by_cases hban : callidAccepted = false
        · rw [if_pos hban]
          exact ⟨hleave, (setPhase_weaker i _).unique hu⟩
        · rw [if_neg hban]
          obtain ⟨hv, hphase⟩ := validate_sound h i auth
          have hbusy' := hv.busy (i := i) (by rw [hphase, hw.1]; decide)
          refine ⟨hv.update hbusy' hbusy' fun auth' hp' => ?_,
            ((validate_weaker i auth).trans (setPhase_weaker i _)).unique hu⟩
          cases hr : (circuitValidateLinkAuth hub slots i auth).2.isSome with
          | true => simp [hr] at hp'
          | false =>
            simp only [hr, Bool.false_eq_true, ↓reduceIte] at hp'
            obtain rfl := LinkPhase.validated.inj hp'
            exact linkAuthParse_id hp
    · rw [if_neg hw]
      exact ⟨h, hu⟩
  | commit i =>
    simp only [linkStep, StillFree]
    cases hp : (slots i).phase with
    | validated auth =>
      have hbusy := h.busy (i := i) (by simp [hp])
      have hid := h.parsed i auth hp
      dsimp only
      rw [strlcpy_of_fits hid]
      refine ⟨h.update hbusy hbusy (fun auth' hp' => by cases hp'), (unique_commit hu hbusy _ _).trans ?_⟩
      constructor
      · intro hfree auth' he
        obtain rfl := LinkPhase.validated.inj he
        exact hfree
      · exact fun hall => hall auth rfl
    | _ => exact ⟨h, iff_of_true hu fun auth he => by cases he⟩
  | serve i =>
    simp only [linkStep, StillFree, iff_true]
    split_ifs with hs
    · have hbusy : (slots i).state ≠ .free := by
        apply h.busy
        rcases hs with hs | hs
        · rw [hs]
          decide
        · rw [hs.1]
          decide
      refine ⟨h.update hbusy (fun he => by cases he) (fun auth hp => by cases hp),
        Weaker.unique ⟨fun j => ?_, fun j => .inl ?_⟩ hu⟩
      · rw [Function.update_apply]
        split_ifs with hj
        · rw [hj]
          exact iff_of_false (by decide) hbusy
        · exact Iff.rfl
      · rw [Function.update_apply]
        split_ifs with hj
        · rw [hj]
        · rfl
    · exact ⟨h, hu⟩
  | close i =>
    simp only [linkStep, StillFree, iff_true]
    cases (slots i).phase with
    | validated auth => exact ⟨h, hu⟩
    | none => exact ⟨h, hu⟩
    | _ => exact ⟨close_sound h i, unique_blank hu i rfl⟩

end Step

lemma linkRun_from {hub : LinkHub} (es : List LinkStep) {slots : IdentitySlots} (h : LinksSound hub slots)
    (hu : UniqueIds slots) :
    (∀ es', es' <+: es → UniqueIds (linkRun hub slots es') ∧ circuitCountUsedSlots (linkRun hub slots es') ≤ hub.maxLinks) ↔
      AllStillFree hub slots es := by
  induction es generalizing slots with
  | nil =>
    refine iff_of_true (fun es' hpre => ?_) trivial
    rw [List.prefix_nil.mp hpre]
    exact ⟨hu, h.few⟩
  | cons e es ih =>
    obtain ⟨h', hstep⟩ := linkStep_sound h hu e
    rw [AllStillFree, ← hstep]
    constructor
    · intro hall
      have hnext := (hall [e] (List.prefix_append [e] es)).1
      refine ⟨hnext, (ih h' hnext).mp fun es' hpre => ?_⟩
      exact hall (e :: es') (List.cons_prefix_cons.mpr ⟨rfl, hpre⟩)
    · rintro ⟨hnext, hrest⟩ es' hpre
      cases es' with
      | nil => exact ⟨hu, h.few⟩
      | cons e' es' =>
        obtain ⟨rfl, hpre'⟩ := List.cons_prefix_cons.mp hpre
        exact (ih h' hnext).mpr hrest es' hpre'

/-- A hub with one password for all links. -/
def openHub : LinkHub where
  backend := ⟨id, id⟩
  linkAuth := true
  linkPassword := ofString "secret"
  bridge := []
  maxLinks := 8

def edgePayload : Bytes := ofString "password=secret\nrole=link\nid=EDGE1\n"

/-- Two connections with one id, checked one after the other before either copies the id. -/
def twinRun (i j : Fin circuitMaxLinks) : List LinkStep :=
  [.accept, .accept, .validate i edgePayload true, .validate j edgePayload true, .commit i, .commit j]

end HyBBX.Circuit
