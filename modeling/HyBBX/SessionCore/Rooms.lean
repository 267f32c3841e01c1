import HyBBX.Lib.Processes
import HyBBX.SessionCore.Lines

/-! What the sessions in a room hear of each other: a chat channel, a conference, and the chat between the mains. A line
goes to all the sessions in a visit, and other threads go on while it is made. -/

namespace HyBBX.SessionCore

open HyBBX.Core Lib Lib.Bytes Lib.Text
open Command (Area CommandScope commandClassify)
open Mains (proxymailAddressMax)
open Session (lineSize)
open Storage (UserRecord userNameMax)

structure Member where
  user : Option UserRecord
  desk : Desk

def Member.isGuest (m : Member) : Bool := m.user.map UserRecord.level = some .guest

def Member.displayName (m : Member) : CText userNameMax :=
  match m.user with
  | none => .empty
  | some user => if user.nickname.text ≠ [] then user.nickname else user.username

def Member.username (m : Member) : CText userNameMax := (m.user.map UserRecord.username).getD .empty

/-- The attached sessions, the last one first; a session that opens gets a name that no other has had. -/
structure Floor where
  attached : List ℕ
  next : ℕ
  member : ℕ → Member

/-- What is handed to the visitors. The names are those at the beginning: only the thread of a session renames it, and
that thread is in the visit. -/
inductive Post
  | chat (sender : ℕ) (user : CText userNameMax) (channel : ℕ) (message : CText lineSize)
  | conference (sender : ℕ) (user login : CText userNameMax) (message : CText lineSize)
  | proxychat (sender : ℕ) (address : CText proxymailAddressMax) (line : CText lineSize)
  | relayed (address : CText proxymailAddressMax) (line : Bytes)
  deriving DecidableEq

def Post.sender : Post → Option ℕ
  | .chat sender .. => some sender
  | .conference sender .. => some sender
  | .proxychat sender .. => some sender
  | .relayed .. => none

def postLineSize : ℕ := userNameMax + lineSize + 16
def proxychatLineSize : ℕ := proxymailAddressMax + lineSize + 8

def ownLine (message : Bytes) : Bytes := ofString "ME: " ++ message
def namedLine (user message : Bytes) : Bytes := user ++ ofString ": " ++ message
def addressedLine (address line : Bytes) : Bytes := ofString "<" ++ address ++ ofString "> " ++ line

section Visitors

variable (floor : Floor) (session : ℕ)

def chatBroadcastVisitor (sender : ℕ) (user : CText userNameMax) (channel : ℕ) (message : CText lineSize) :
    Option Bytes :=
  let d := (floor.member session).desk
  if d.area ≠ .chat ∨ d.chatChannel ≠ channel then none
  else if session = sender then some (strlcpy postLineSize (ownLine message.text))
  else some (strlcpy postLineSize (namedLine user.text message.text))

def conferencePostVisitor (sender : ℕ) (user login : CText userNameMax) (message : CText lineSize) : Option Bytes :=
  let m := floor.member session
  if m.desk.area ≠ .conference then none
  else if session = sender then some (strlcpy postLineSize (ownLine message.text))
  else if strIeq m.desk.partner.text login.text = false ∨
      strIeq (floor.member sender).desk.partner.text m.username.text = false then none
  else some (strlcpy postLineSize (namedLine user.text message.text))

def proxychatLocalVisitor (sender : Option ℕ) (address : CText proxymailAddressMax) (line : Bytes) : Option Bytes :=
  let m := floor.member session
  if some session = sender ∨ m.desk.area ≠ .proxychat ∨ m.isGuest then none
  else some (strlcpy proxychatLineSize (addressedLine address.text line))

def Post.visitor : Post → Option Bytes
  | .chat sender user channel message => chatBroadcastVisitor floor session sender user channel message
  | .conference sender user login message => conferencePostVisitor floor session sender user login message
  | .proxychat sender address line => proxychatLocalVisitor floor session (some sender) address line.text
  | .relayed address line => proxychatLocalVisitor floor session none address line

end Visitors

/-- A line that is typed in a room is posted, unless it is refused. -/
def refusal (cfg : DeskConfig) (m : Member) (place : String) (line : CText lineSize) : Option Bytes :=
  if m.isGuest then some (ofString ("Guests cannot use " ++ place ++ "."))
  else if cfg.messageMax < line.text.length then some (ofString "Message too long.")
  else none

def chatPost (m : Member) (session : ℕ) (line : CText lineSize) : Option Post :=
  if m.desk.chatChannel = 0 then none else some (.chat session m.displayName m.desk.chatChannel line)

def conferencePost (m : Member) (session : ℕ) (line : CText lineSize) : Option Post :=
  if m.username.text = [] then none else some (.conference session m.displayName m.username line)

def proxychatPost (name : Bytes) (m : Member) (session : ℕ) (line : CText lineSize) : Post :=
  .proxychat session (.copy (m.displayName.text ++ ofString "@" ++ name)) line

/-- The answer to a line that is no command: an error text, or what is posted. -/
def roomLine (cfg : DeskConfig) (name : Bytes) (floor : Floor) (session : ℕ) (line : CText lineSize) :
    Except Bytes (Option Post) :=
  let m := floor.member session
  let answer := fun place post =>
    match refusal cfg m place line with
    | some text => .error text
    | none => .ok post
  if session ∉ floor.attached ∨ line.text = [] ∨ commandClassify line.text ≠ .scopeLocal ∨ m.desk.invite ≠ none then
    .ok none
  else match m.desk.area with
    | .proxychat => answer "proxychat" (some (proxychatPost name m session line))
    | .chat => answer "chat" (chatPost m session line)
    | .conference => answer "conference" (conferencePost m session line)
    | _ => .ok none

/-- Where a thread is: in a visit with some of its copy of the list still to go. -/
inductive PostPc
  | idle
  | visiting (post : Post) (rest : List ℕ)
  deriving DecidableEq

/-- What a thread may be asked for. A line comes with the state of the mesh and with whether there was memory for the
copy of the list, the end of a visit with what the mesh answers. -/
inductive FloorInput
  | opened (user : Option UserRecord)
  | closed (session : ℕ)
  | named (session : ℕ) (user : UserRecord)
  | desk (session : ℕ) (op : DeskOp)
  | line (session : ℕ) (line : CText lineSize) (mesh allocated : Bool)
  | relayed (address : CText proxymailAddressMax) (line : Bytes) (allocated : Bool)
  | go (relay : HybbxResult)

/-- What is written to a session: by a visit of a thread, or as the answer to its own line. -/
inductive FloorOutput (ι : Type*)
  | heard (thread : ι) (session : ℕ) (sender : Option ℕ) (line : Bytes)
  | told (session : ℕ) (line : Bytes)
  deriving DecidableEq

def Post.echo (mesh : Bool) : Post → List (ℕ × Bytes)
  | .proxychat sender address line =>
    (sender, strlcpy proxychatLineSize (addressedLine address.text line.text)) ::
      if mesh then [] else [(sender, ofString "Mains proxy is not running — message shown locally only.")]
  | _ => []

/-- What the sender is told when the visit is over and the line has gone to the mesh. -/
def Post.meshAnswer (relay : HybbxResult) : Post → List (ℕ × Bytes)
  | .proxychat sender .. =>
    match relay with
    | .errUnsupported => [(sender, ofString "No outbound peer links — message shown locally only.")]
    | .errNotFound => [(sender, ofString "No peer links available to relay your message.")]
    | _ => []
  | _ => []

def Post.goesOut (mesh : Bool) : Post → Bool
  | .proxychat .. => mesh
  | _ => true

def Floor.modify (floor : Floor) (session : ℕ) (f : Member → Member) : Floor :=
  { floor with member := Function.update floor.member session (f (floor.member session)) }

/-- `hybbx_service_visit_sessions`, as far as the copy of the list. -/
def Floor.visit (floor : Floor) (post : Post) (allocated : Bool) : PostPc :=
  if floor.attached ≠ [] ∧ allocated then .visiting post floor.attached else .idle

section Threads

variable {ι : Type*} (cfg : DeskConfig) (name : Bytes)

def tell (lines : List (ℕ × Bytes)) : List (FloorOutput ι) := lines.map fun p => .told p.1 p.2

def idleAct (input : FloorInput) (floor : Floor) : (Floor × PostPc) × List (FloorOutput ι) :=
  match input with
  | .opened user =>
    (({ attached := floor.next :: floor.attached
        next := floor.next + 1
        member := Function.update floor.member floor.next ⟨user, .opened⟩ }, .idle), [])
  | .closed session => (({ floor with attached := floor.attached.erase session }, .idle), [])
  | .named session user => ((floor.modify session fun m => { m with user := some user }, .idle), [])
  | .desk session op => ((floor.modify session fun m => { m with desk := deskStep cfg m.desk op }, .idle), [])
  | .line session line mesh allocated =>
    match roomLine cfg name floor session line with
    | .error text => ((floor, .idle), [.told session text])
    | .ok none => ((floor, .idle), [])
    | .ok (some post) =>
      ((floor, if post.goesOut mesh then floor.visit post allocated else .idle), tell (post.echo mesh))
  | .relayed address line allocated =>
    ((floor, if line = [] then .idle else floor.visit (.relayed address line) allocated), [])
  | .go _ => ((floor, .idle), [])

def FloorInput.relay : FloorInput → HybbxResult
  | .go relay => relay
  | _ => .ok

/-- A thread that is in a visit goes on with it, whatever else it is asked for. -/
def floorAct (i : ι) (input : FloorInput) (floor : Floor) : PostPc → (Floor × PostPc) × List (FloorOutput ι)
  | .idle => idleAct cfg name input floor
  | .visiting post [] => ((floor, .idle), tell (post.meshAnswer input.relay))
  | .visiting post (session :: rest) =>
    ((floor, .visiting post rest), ((post.visitor floor session).map (.heard i session post.sender)).toList)

abbrev FloorSys (ι : Type*) := Sys ι Floor PostPc

def FloorSys.start : FloorSys ι := ⟨⟨[], 0, fun _ => ⟨none, .opened⟩⟩, fun _ => .idle⟩

/-- What a visit may still look at. -/
def PostPc.touched : PostPc → List ℕ
  | .idle => []
  | .visiting post rest => post.sender.toList ++ rest

/-- No session is closed that a visit may still look at: its memory is freed. -/
def NoneFreed (sys : FloorSys ι) (ev : ι × FloorInput) : Prop :=
  ∀ session, ev.2 = .closed session → sys.proc ev.1 = .idle → ∀ j, session ∉ (sys.proc j).touched

variable [DecidableEq ι]

def floorStep : FloorSys ι → ι × FloorInput → FloorSys ι × List (FloorOutput ι) := Sys.step (floorAct cfg name)

def floorRun (sys : FloorSys ι) (evs : List (ι × FloorInput)) : FloorSys ι × List (FloorOutput ι) :=
  Transducer.run (floorStep cfg name) sys evs

/-- The post whose visit an idle thread begins. -/
def visitBegun (floor : Floor) : FloorInput → Option Post
  | .line session line mesh allocated =>
    match roomLine cfg name floor session line with
    | .ok (some post) => if post.goesOut mesh ∧ allocated then some post else none
    | _ => none
  | .relayed address line allocated => if line ≠ [] ∧ allocated then some (.relayed address line) else none
  | _ => none

/-- What a thread posts for one sender. -/
def posted (i : ι) (sender : Option ℕ) (sys : FloorSys ι) (ev : ι × FloorInput) : List Post :=
  if ev.1 = i ∧ sys.proc i = .idle then
    (visitBegun cfg name sys.store ev.2).toList.filter fun post => post.sender = sender
  else []

end Threads

/-! Where a session may stay for a while, and what it is to hear of a post there. -/

inductive Place
  | channel (index : ℕ)
  | conference (partner : CText userNameMax)
  | proxychat

/-- An attached session is in the place; in a conference, whoever else sends to it has it as the partner. -/
def Place.Holds (place : Place) (floor : Floor) (r : ℕ) (sender : Option ℕ) : Prop :=
  let m := floor.member r
  r ∈ floor.attached ∧
    match place with
    | .channel index => m.desk.area = .chat ∧ m.desk.chatChannel = index
    | .conference partner => m.desk.area = .conference ∧ m.desk.partner = partner ∧
        (sender = some r ∨ ∀ s ∈ sender, strIeq (floor.member s).desk.partner.text m.username.text = true)
    | .proxychat => m.desk.area = .proxychat ∧ m.isGuest = false

def Place.line (r : ℕ) : Place → Post → Option Bytes
  | .channel index, .chat sender user posted message =>
    if posted ≠ index then none
    else some (if sender = r then ownLine message.text else namedLine user.text message.text)
  | .conference partner, .conference sender user login message =>
    if sender = r then some (ownLine message.text)
    else if strIeq partner.text login.text then some (namedLine user.text message.text) else none
  | .proxychat, .proxychat sender address line =>
    if sender = r then none else some (addressedLine address.text line.text)
  | .proxychat, .relayed address line => some (strlcpy proxychatLineSize (addressedLine address.text line))
  | _, _ => none

lemma ownLine_fits (message : CText lineSize) : strlcpy postLineSize (ownLine message.text) = ownLine message.text := by
  have hmessage := message.fits
  apply strlcpy_of_fits
  simp only [ownLine, postLineSize, userNameMax, List.length_append, show (ofString "ME: ").length = 4 from by decide]
  omega

lemma namedLine_fits (user : CText userNameMax) (message : CText lineSize) :
    strlcpy postLineSize (namedLine user.text message.text) = namedLine user.text message.text := by
  have huser := user.fits
  have hmessage := message.fits
  apply strlcpy_of_fits
  simp only [namedLine, postLineSize, List.length_append, show (ofString ": ").length = 2 from by decide]
  omega

lemma addressedLine_fits (address : CText proxymailAddressMax) (line : CText lineSize) :
    strlcpy proxychatLineSize (addressedLine address.text line.text) = addressedLine address.text line.text := by
  have haddress := address.fits
  have hline := line.fits
  apply strlcpy_of_fits
  simp only [addressedLine, proxychatLineSize, List.length_append, show (ofString "<").length = 1 from by decide,
    show (ofString "> ").length = 2 from by decide]
  omega

/-- A visitor that comes to a session in its place writes the line of the place, and writes it whole. -/
lemma visitor_of_place {place : Place} {floor : Floor} {r : ℕ} {post : Post} (h : place.Holds floor r post.sender) :
    post.visitor floor r = place.line r post := by
  obtain ⟨-, hplace⟩ := h
  cases place with
  | channel index =>
    obtain ⟨harea, hindex⟩ := hplace
    cases post with
    | chat sender user channel message =>
      rw [Post.visitor, chatBroadcastVisitor, Place.line, harea, hindex, ownLine_fits, namedLine_fits]
      grind
    | conference sender user login message => simp [Post.visitor, conferencePostVisitor, Place.line, harea]
    | proxychat sender address line => simp [Post.visitor, proxychatLocalVisitor, Place.line, harea]
    | relayed address line => simp [Post.visitor, proxychatLocalVisitor, Place.line, harea]
  | conference partner =>
    obtain ⟨harea, hpartner, hsender⟩ := hplace
    cases post with
    | chat sender user channel message => simp [Post.visitor, chatBroadcastVisitor, Place.line, harea]
    | conference sender user login message =>
      rw [Post.visitor, conferencePostVisitor, Place.line, harea, hpartner, ownLine_fits, namedLine_fits]
      simp only [Post.sender, Option.some.injEq, Option.mem_def, forall_eq'] at hsender
      grind
    | proxychat sender address line => simp [Post.visitor, proxychatLocalVisitor, Place.line, harea]
    | relayed address line => simp [Post.visitor, proxychatLocalVisitor, Place.line, harea]
  | proxychat =>
    obtain ⟨harea, hguest⟩ := hplace
    cases post with
    | chat sender user channel message => simp [Post.visitor, chatBroadcastVisitor, Place.line, harea]
    | conference sender user login message => simp [Post.visitor, conferencePostVisitor, Place.line, harea]
    | proxychat sender address line =>
      rw [Post.visitor, proxychatLocalVisitor, Place.line, harea, hguest, addressedLine_fits]
      grind
    | relayed address line => simp [Post.visitor, proxychatLocalVisitor, Place.line, harea, hguest]

section Order

variable {ι : Type*} (cfg : DeskConfig) (name : Bytes)

/-- The copy of a visit names nobody twice. -/
def floorShape : Sys.Shape ι Floor PostPc where
  store floor := floor.attached.Nodup ∧ ∀ session ∈ floor.attached, session < floor.next
  own _ _ pc := ∀ post rest, pc = .visiting post rest → rest.Nodup
  pair _ _ := True

lemma Floor.visit_nodup {floor : Floor} (h : floor.attached.Nodup) (visited : Post) (allocated : Bool) (post : Post)
    (rest : List ℕ) (hvisit : floor.visit visited allocated = .visiting post rest) : rest.Nodup := by
  rw [Floor.visit] at hvisit
  split_ifs at hvisit
  obtain ⟨-, rfl⟩ := PostPc.visiting.inj hvisit
  exact h

lemma floorShape_kept : (floorShape : Sys.Shape ι Floor PostPc).Kept (floorAct cfg name) fun _ _ _ _ => True where
  symm _ _ h := h
  own i input floor pc hfloor hown _ := by
    obtain ⟨hnodup, hnamed⟩ := hfloor
    cases pc with
    | visiting post rest =>
      have hrest := hown post rest rfl
      cases rest with
      | nil => exact ⟨⟨hnodup, hnamed⟩, by simp [floorAct, floorShape]⟩
      | cons session rest =>
        refine ⟨⟨hnodup, hnamed⟩, fun p l hpc => ?_⟩
        obtain ⟨-, rfl⟩ := PostPc.visiting.inj hpc
        exact hrest.of_cons
    | idle =>
      cases input with
      | opened user =>
        have hnew : floor.next ∉ floor.attached := fun h => absurd (hnamed _ h) (lt_irrefl _)
        refine ⟨⟨List.nodup_cons.mpr ⟨hnew, hnodup⟩, ?_⟩, nofun⟩
        exact List.forall_mem_cons.mpr ⟨Nat.lt_succ_self _, fun s hs => Nat.lt_succ_of_lt (hnamed s hs)⟩
      | closed session =>
        exact ⟨⟨hnodup.erase session, fun s hs => hnamed s (List.mem_of_mem_erase hs)⟩, nofun⟩
      | named session user => exact ⟨⟨hnodup, hnamed⟩, nofun⟩
      | desk session op => exact ⟨⟨hnodup, hnamed⟩, nofun⟩
      | go relay => exact ⟨⟨hnodup, hnamed⟩, nofun⟩
      | relayed address line allocated =>
        refine ⟨⟨hnodup, hnamed⟩, fun p l hpc => ?_⟩
        rw [floorAct, idleAct] at hpc
        split_ifs at hpc
        exact Floor.visit_nodup hnodup _ _ p l hpc
      | line session line mesh allocated =>
        rw [floorAct, idleAct]
        cases roomLine cfg name floor session line with
        | error text => exact ⟨⟨hnodup, hnamed⟩, nofun⟩
        | ok post =>
          cases post with
          | none => exact ⟨⟨hnodup, hnamed⟩, nofun⟩
          | some post =>
            refine ⟨⟨hnodup, hnamed⟩, fun p l hpc => ?_⟩
            dsimp only at hpc
            split_ifs at hpc
            exact Floor.visit_nodup hnodup _ _ p l hpc
  others _ _ _ _ _ _ _ _ _ hown _ _ := ⟨hown, trivial⟩

lemma floorShape_start : floorShape.Holds (FloorSys.start : FloorSys ι) where
  store := ⟨List.nodup_nil, nofun⟩
  own _ := nofun
  pair _ _ _ := trivial

/-- What it is still to get from the visit that the thread is in. -/
def stillToHear (place : Place) (r : ℕ) (sender : Option ℕ) : PostPc → List Bytes
  | .idle => []
  | .visiting post rest => if r ∈ rest ∧ post.sender = sender then (place.line r post).toList else []

variable {cfg name}

/-- A thread that begins a visit owes it to the session from then on. -/
lemma stillToHear_begin {place : Place} {floor : Floor} {r : ℕ} {sender : Option ℕ}
    (hplace : place.Holds floor r sender) (input : FloorInput) :
    stillToHear place r sender (idleAct (ι := ι) cfg name input floor).1.2 =
      ((visitBegun cfg name floor input).toList.filter fun post => post.sender = sender).filterMap (place.line r) := by
  have hattached : floor.attached ≠ [] := List.ne_nil_of_mem hplace.1
  have hvisit : ∀ (post : Post) (allocated : Bool), stillToHear place r sender (floor.visit post allocated) =
      (((if allocated then some post else none).toList.filter fun post => post.sender = sender).filterMap
        (place.line r)) := by
    intro post allocated
    cases allocated with
    | false => simp [Floor.visit, stillToHear]
    | true =>
      by_cases hsender : post.sender = sender
      · cases hline : place.line r post <;> simp [Floor.visit, stillToHear, hattached, hplace.1, hsender, hline]
      · simp [Floor.visit, stillToHear, hattached, hsender]
  cases input with
  | opened user => rfl
  | closed session => rfl
  | named session user => rfl
  | desk session op => rfl
  | go relay => rfl
  | relayed address line allocated =>
    by_cases hline : line = []
    · simp [idleAct, visitBegun, hline, stillToHear]
    · simp [idleAct, visitBegun, hline, hvisit]
  | line session line mesh allocated =>
    rw [idleAct, visitBegun]
    cases roomLine cfg name floor session line with
    | error text => rfl
    | ok answer =>
      cases answer with
      | none => rfl
      | some post =>
        cases hout : post.goesOut mesh with
        | false => simp [stillToHear, hout]
        | true => simp [hvisit, hout]

variable [DecidableEq ι]

/-- What a session has got from the visits of a thread for one sender. -/
def heardFrom (i : ι) (r : ℕ) (sender : Option ℕ) : FloorOutput ι → Option Bytes
  | .heard thread session from' line => if thread = i ∧ session = r ∧ from' = sender then some line else none
  | .told _ _ => none

lemma filterMap_tell (i : ι) (r : ℕ) (sender : Option ℕ) (lines : List (ℕ × Bytes)) :
    (tell lines).filterMap (heardFrom i r sender) = [] := by
  rw [tell, List.filterMap_map]
  exact List.filterMap_eq_nil_iff.mpr fun _ _ => rfl

/-- The visitor of a post comes to the session, and to nobody else that counts. -/
lemma heard_visit {place : Place} {floor : Floor} (i : ι) {r : ℕ} {sender : Option ℕ} (post : Post) {session : ℕ}
    {rest : List ℕ} (hplace : place.Holds floor r sender) (hnodup : (session :: rest).Nodup) :
    (((post.visitor floor session).map (FloorOutput.heard i session post.sender)).toList.filterMap
        (heardFrom i r sender)) ++ stillToHear place r sender (.visiting post rest) =
      stillToHear place r sender (.visiting post (session :: rest)) := by
  obtain ⟨hout, -⟩ := List.nodup_cons.mp hnodup
  by_cases hsender : post.sender = sender
  · by_cases hr : session = r
    · subst hr
      subst hsender
      rw [visitor_of_place hplace]
      cases hline : place.line session post with
      | none => simp [stillToHear, hline]
      | some line => simp [stillToHear, hout, hline, heardFrom]
    · have hmem : r ∈ session :: rest ↔ r ∈ rest := by simp [Ne.symm hr]
      have hnone : ((post.visitor floor session).map (FloorOutput.heard i session post.sender)).toList.filterMap
          (heardFrom i r sender) = [] := by
        cases post.visitor floor session with
        | none => rfl
        | some line => simp [heardFrom, hr]
      rw [hnone, List.nil_append, stillToHear, stillToHear]
      simp only [hmem]
  · have hnone : ((post.visitor floor session).map (FloorOutput.heard i session post.sender)).toList.filterMap
        (heardFrom i r sender) = [] := by
      cases post.visitor floor session with
      | none => rfl
      | some line => simp [heardFrom, hsender]
    simp [hnone, stillToHear, hsender]

lemma told_idle (i : ι) (r : ℕ) (sender : Option ℕ) (input : FloorInput) (floor : Floor) :
    (idleAct (ι := ι) cfg name input floor).2.filterMap (heardFrom i r sender) = [] := by
  cases input with
  | opened user => rfl
  | closed session => rfl
  | named session user => rfl
  | desk session op => rfl
  | go relay => rfl
  | relayed address line allocated => rfl
  | line session line mesh allocated =>
    rw [idleAct]
    cases roomLine cfg name floor session line with
    | error text => rfl
    | ok answer =>
      cases answer with
      | none => rfl
      | some post => exact filterMap_tell i r sender _

/-- What another thread does is not heard of this one. -/
lemma heard_other {i j : ι} (hj : j ≠ i) (r : ℕ) (sender : Option ℕ) (input : FloorInput) (floor : Floor)
    (pc : PostPc) :
    (floorAct cfg name j input floor pc).2.filterMap (heardFrom i r sender) = [] := by
  cases pc with
  | idle => exact told_idle i r sender input floor
  | visiting post rest =>
    cases rest with
    | nil => exact filterMap_tell i r sender _
    | cons session rest =>
      rw [floorAct]
      cases post.visitor floor session with
      | none => rfl
      | some line => simp [heardFrom, hj]

/-- One step of any thread: what a session hears and is still to hear of one thread grows by what that thread posts. -/
lemma heard_step {place : Place} {i : ι} {r : ℕ} {sender : Option ℕ} {sys : FloorSys ι} {ev : ι × FloorInput}
    (hsys : floorShape.Holds sys) (hplace : place.Holds sys.store r sender) :
    (floorStep cfg name sys ev).2.filterMap (heardFrom i r sender) ++
        stillToHear place r sender ((floorStep cfg name sys ev).1.proc i) =
      stillToHear place r sender (sys.proc i) ++ (posted cfg name i sender sys ev).filterMap (place.line r) := by
  obtain ⟨j, input⟩ := ev
  rw [floorStep, Sys.step, posted]
  dsimp only
  by_cases hj : j = i
  · subst hj
    rw [Function.update_self]
    have hown := hsys.own j
    cases hpc : sys.proc j with
    | idle =>
      rw [floorAct, told_idle, stillToHear_begin hplace]
      simp [stillToHear]
    | visiting post rest =>
      rw [hpc] at hown
      cases rest with
      | nil => simp [floorAct, stillToHear, filterMap_tell]
      | cons session rest =>
        have hvisit := heard_visit j post hplace (hown post (session :: rest) rfl)
        simpa [floorAct] using hvisit
  · rw [Function.update_of_ne (Ne.symm hj), heard_other hj]
    simp [hj]

def anna : UserRecord := { UserRecord.zero with username := .copy (ofString "anna") }
def bert : UserRecord :=
  { UserRecord.zero with username := .copy (ofString "bert"), nickname := .copy (ofString "Bert") }
def oneChannel : DeskConfig := ⟨[ofString "Channel1"], 79, 40, 1024⟩

/-- Two sessions come into the channel, each by a thread of its own. -/
def bothInChannel : List (Fin 2 × FloorInput) :=
  [(0, .opened (some anna)), (1, .opened (some bert)), (0, .desk 0 (.joinChatChannel 1)),
    (1, .desk 1 (.joinChatChannel 1))]

/-- Both write at the same time, and the threads take turns in their visits. -/
def bothWrite : List (Fin 2 × FloorInput) :=
  [(0, .line 0 (.copy (ofString "hi")) false true), (1, .line 1 (.copy (ofString "ho")) false true), (0, .go .ok),
    (1, .go .ok), (1, .go .ok), (0, .go .ok), (0, .go .ok), (1, .go .ok)]

-- of two threads, two sessions may hear in different orders
example : (floorRun oneChannel (ofString "main") (floorRun oneChannel (ofString "main") .start bothInChannel).1
    bothWrite).2 =
    [.heard (0 : Fin 2) 1 (some 0) (ofString "anna: hi"), .heard 1 1 (some 1) (ofString "ME: ho"),
      .heard 1 0 (some 1) (ofString "Bert: ho"), .heard 0 0 (some 0) (ofString "ME: hi")] := by
  decide

end Order

end HyBBX.SessionCore
