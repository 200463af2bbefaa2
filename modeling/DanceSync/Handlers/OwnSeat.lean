import DanceSync.Handlers.Publishing
import DanceSync.Handlers.SocketEvents

/-!
# A socket acts as its own seat

Every handler checks that the player its payload names is the one bound to the socket, in the room
of the binding. From then on it calls the stores for that room and that player only, whatever else
the payload says.

## Main definitions

* `RoomOp.actor?`, `SocketEvents.StoreOp.actor?`: the player as whom a call acts.
* `SocketEvents.StoreOp.ActsAs`: the call is made in the room of a binding by its player.

## Main results

* `Stored.mem_storedIds_iff`: the calls that change no seat of others.
* `SocketEvents.acts_update`: a use case called as the bound player.
* `SocketEvents.acts_forked`: what a handler leaves running.
* `SocketEvents.acts_as_own_seat`.
-/

namespace DanceSync

/-! ### Who acts -/

/-- The player as whom a use case acts; the calls of timers and of players who are not seated yet
have none. -/
def RoomOp.actor? : RoomOp → Option JsString
  | .leave playerId .. | .selectRole playerId _ | .setReady playerId _ | .submitPhrase playerId ..
  | .chooseSong playerId .. | .castVote playerId .. | .awardWordBonus playerId => some playerId
  | .kick requesterId .. | .startChallenge requesterId _ | .startBattle requesterId ..
  | .rematch requesterId => some requesterId
  | .create .. | .join .. | .expireChallenge .. | .autoPick .. | .finishAtDeadline .. => none

def RoomOp.isKick : RoomOp → Bool
  | .kick .. => true
  | _ => false

/-- The room that a use case returns, if it returns one. -/
def Reply.room? : Reply → Option Room
  | .room stored | .submitted stored _ | .chosen stored _ | .rematched stored _ => some stored
  | .voted output => some output.room
  | .left output => output.room
  | .picked output => some output.room
  | .expired stored => stored
  | .finished output => output.map (·.1)
  | .codeTaken => none

variable {rt : Runtime} {code playerId : JsString} {room next : Room} {op : RoomOp}
  {slot slot' : Option Room} {reply : Reply} {store : RoomStore rt}

/-! ### Seats -/

theorem Stored.storedIds_eq (h : Stored rt code slot op slot') (hop : op.seats = false) :
    storedIds slot' = storedIds slot := by
  cases h with
  | unchanged => rfl
  | created | deleted => cases hop
  | changed hchange => exact hchange.playerIds_eq hop

/-- A call changes no seat but that of its player, unless it is a kick by the host. -/
theorem Stored.mem_storedIds_iff (h : Stored rt code slot op slot')
    (hactor : op.actor? = some playerId) {id : JsString} (hid : id ≠ playerId) :
    (id ∈ storedIds slot' ↔ id ∈ storedIds slot) ∨
      op.isKick ∧ ∃ room ∈ slot, room.hostId = playerId := by
  cases op with
  | create | join => cases hactor
  | leave =>
    obtain rfl := Option.some.inj hactor
    left
    cases h with
    | unchanged => rfl
    | changed hchange =>
      cases hchange with
      | left hdeparted =>
        exact (mem_playerIds_of_departed hdeparted id).trans (and_iff_left hid)
    | deleted hdeparted hplayers =>
      have hgone := mem_playerIds_of_departed hdeparted id
      rw [Room.playerIds, hplayers] at hgone
      simpa [hid] using hgone
  | kick =>
    obtain rfl := Option.some.inj hactor
    cases h with
    | unchanged => exact Or.inl Iff.rfl
    | changed hchange =>
      cases hchange with
      | kicked => exact Or.inr ⟨rfl, _, rfl, rfl⟩
  | _ =>
    left
    rw [h.storedIds_eq rfl]

/-- The same in the store of all rooms. -/
theorem RoomStore.seated_call_of_actor (hactor : op.actor? = some playerId) {seat : SeatKey}
    (hseat : seat ≠ seatKey rt code playerId) :
    (store.call code op).1.seated seat = store.seated seat ∨
      op.isKick ∧ ∃ room ∈ store.room (rt.toUpperCase code), room.hostId = playerId := by
  rw [Bool.eq_iff_iff, seated_call]
  split_ifs with hkey
  · have hid : seat.2 ≠ playerId := fun h => hseat (Prod.ext hkey h)
    have hstored := (step_spec rt code (store.room (rt.toUpperCase code)) op).mem_storedIds_iff
      hactor hid
    rwa [seated_iff, hkey]
  · exact Or.inl Iff.rfl

/-! ### Returned rooms -/

open Publishing in
/-- The room that a use case returns is the one it stored or met. -/
theorem stored_of_reply (hactor : op.actor? = some playerId)
    (h : (op.step rt code slot).2 = .ok reply) :
    ∀ room ∈ reply.room?, (op.step rt code slot).1 = some room := by
  cases op with
  | create | join | expireChallenge | autoPick | finishAtDeadline => cases hactor
  | leave playerId random now =>
    obtain ⟨room, updated, -, -, hstored, rfl⟩ := left_of_reply h
    intro next hnext
    have hslot : departedSlot room updated = some next := hnext
    exact hstored.trans hslot
  | submitPhrase playerId text now random =>
    simp only [RoomOp.step, RoomOp.runChecked] at h ⊢
    split at h
    next => simp at h
    next u hu =>
      cases text with
      | string text =>
        obtain rfl := Except.ok.inj hu
        obtain ⟨room, flags, hstored, rfl⟩ := exists_stored_of_reply rfl (fun _ => rfl) h
        rintro _ ⟨⟩
        exact hstored
      | _ => simp [SubmitSongPhrase.execute, JsValue.string?] at hu
  | _ =>
    obtain ⟨room, flags, hstored, rfl⟩ := exists_stored_of_reply rfl (fun _ => rfl) h
    rintro _ ⟨⟩
    exact hstored

/-- It has the code that the use case was called with, in some case. -/
theorem RoomStore.code_of_reply (hactor : op.actor? = some playerId)
    (h : (store.call code op).2 = .ok reply) :
    ∀ room ∈ reply.room?, rt.toUpperCase room.code = rt.toUpperCase code := by
  intro room hroom
  refine (store.call code op).1.code_eq ?_
  have hstored := stored_of_reply hactor h room hroom
  simp [call, hstored]

namespace SocketEvents

open Bindings (BattleSocket Binding)

/-! ### Calls as the bound player -/

namespace StoreOp

/-- The code of the room that a call names. -/
def roomCode : StoreOp → JsString
  | update roomCode _ | chooseUnlisted roomCode _ _ | findRoom roomCode | findRace roomCode
  | deleteRace roomCode | claimRound roomCode .. => roomCode
  | saveRace race => race.roomCode

/-- The player as whom a call acts. -/
def actor? : StoreOp → Option JsString
  | update _ op => op.actor?
  | chooseUnlisted _ playerId _ | claimRound _ _ playerId _ => some playerId
  | findRoom _ | findRace _ | saveRace _ | deleteRace _ => none

/-- The calls in which nobody acts: those that read, and those that plan or discard a race. -/
def isImpersonal : StoreOp → Bool
  | findRoom _ | findRace _ | saveRace _ | deleteRace _ => true
  | update .. | chooseUnlisted .. | claimRound .. => false

/-- The call is made in the room of the binding by its player. It changes no other room, and the
seat of nobody else, but for `player:kick` of the host. -/
structure ActsAs {rt : Runtime} (binding : Binding) (kicks : Bool) (op : StoreOp) (s : Stores rt) :
    Prop where
  room : rt.toUpperCase op.roomCode = rt.toUpperCase binding.roomCode
  actor : op.actor? = some binding.playerId ∨ op.isImpersonal
  seats : ∀ seat, seat ≠ binding.seat rt →
    (op.perform s).2.rooms.seated seat = s.rooms.seated seat ∨
      kicks ∧ ∃ room ∈ s.rooms.room (rt.toUpperCase binding.roomCode),
        room.hostId = binding.playerId
  others : ∀ key, key ≠ rt.toUpperCase binding.roomCode →
    (op.perform s).2.rooms.room key = s.rooms.room key ∧
      (op.perform s).2.races key = s.races key

end StoreOp

/-- The player who speaks in a message to others. -/
def Message.speaker? : Message → Option JsString
  | .chatMessage message => some message.senderId
  | .peerReady playerId => some playerId
  | .signal relayed => some relayed.sender
  | _ => none

/-- What a handler does for a bound socket: it calls the stores as the bound player, and nobody
else speaks in its messages. -/
def ActsAs (rt : Runtime) (binding : Binding) (kicks : Bool) :
    Program.Entry Request (Surroundings rt) Sent → Prop
  | .asked (.store op) s => op.ActsAs binding kicks s.stores
  -- The race that is planned later is one of the room of the binding.
  | .asked (.effect (.planRace _ found)) _ =>
    ∀ room ∈ found, rt.toUpperCase room.code = rt.toUpperCase binding.roomCode
  | .asked _ _ => True
  | .sent sent => ∀ who ∈ sent.message.speaker?, who = binding.playerId

variable {server : Server} {binding : Binding} {kicks : Bool} {payload : JsValue}
  {roomCode : JsString} {β : Type}

/-- The part of a handler acts as the bound player, and what it returns meets `Q`. -/
abbrev Acts (server : Server) (binding : Binding) (kicks : Bool) (Q : β → Prop)
    (p : Handler β) : Prop :=
  p.Meets (Request.answer server.rt) (ActsAs server.rt binding kicks) (Program.Returns Q)

/-- The code names the room of the binding. -/
abbrev Names (server : Server) (binding : Binding) (roomCode : JsString) : Prop :=
  server.rt.toUpperCase roomCode = server.rt.toUpperCase binding.roomCode

/-! ### Requests -/

open Program (Meets)

theorem acts_emit {audience : Audience} {message : Message}
    (h : ∀ who ∈ message.speaker?, who = binding.playerId) :
    Acts server binding kicks (fun _ => True) (emit audience message) :=
  Meets.send h

theorem acts_silent {audience : Audience} {message : Message} (h : message.speaker? = none) :
    Acts server binding kicks (fun _ => True) (emit audience message) :=
  acts_emit (by simp [h])

theorem acts_effect {e : Effect} (h : forks server (.effect e) = []) :
    Acts server binding kicks (fun _ => True) (effect e) := by
  refine Meets.ask fun s => ⟨?_, trivial⟩
  cases e with
  | planRace => cases h
  | _ => exact trivial

theorem acts_read : Acts server binding kicks (fun _ => True) read :=
  Meets.ask fun _ => ⟨trivial, trivial⟩

/-- A call that leaves the rooms alone. -/
theorem actsAs_of_rooms {op : StoreOp} {s : Stores server.rt}
    (hroom : Names server binding op.roomCode)
    (hactor : op.actor? = some binding.playerId ∨ op.isImpersonal)
    (hrooms : (op.perform s).2.rooms = s.rooms)
    (hraces : ∀ key, key ≠ server.rt.toUpperCase op.roomCode →
      (op.perform s).2.races key = s.races key) : op.ActsAs binding kicks s where
  room := hroom
  actor := hactor
  seats seat _ := Or.inl (by rw [hrooms])
  others key hkey := ⟨by rw [hrooms], hraces key (hroom ▸ hkey)⟩

theorem acts_findRoom (h : Names server binding roomCode) :
    Acts server binding kicks (fun found => ∀ room ∈ found, Names server binding room.code)
      (findRoom roomCode) := by
  refine Meets.ask fun s => ⟨actsAs_of_rooms h (Or.inr rfl) rfl fun _ _ => rfl, ?_⟩
  intro room hroom
  exact (s.stores.rooms.code_eq hroom).trans h

theorem acts_findRace (h : Names server binding roomCode) :
    Acts server binding kicks (fun _ => True) (findRace roomCode) :=
  Meets.ask fun _ => ⟨actsAs_of_rooms h (Or.inr rfl) rfl fun _ _ => rfl, trivial⟩

theorem acts_saveRace {race : WordRace} (h : Names server binding race.roomCode) :
    Acts server binding kicks (fun _ => True) (saveRace race) := by
  refine Meets.ask fun s => ⟨actsAs_of_rooms h (Or.inr rfl) rfl fun key hkey => ?_, trivial⟩
  exact Function.update_of_ne hkey _ _

theorem acts_deleteRace (h : Names server binding roomCode) :
    Acts server binding kicks (fun _ => True) (deleteRace roomCode) := by
  refine Meets.ask fun s => ⟨actsAs_of_rooms h (Or.inr rfl) rfl fun key hkey => ?_, trivial⟩
  exact Function.update_of_ne hkey _ _

theorem acts_claimRound {roundId : JsString} {now : Instant} (h : Names server binding roomCode) :
    Acts server binding kicks (fun _ => True)
      (claimRound roomCode roundId binding.playerId now) := by
  refine Meets.ask fun s => ⟨actsAs_of_rooms h (Or.inl rfl) rfl fun key hkey => ?_, trivial⟩
  exact Function.update_of_ne hkey _ _

/-- A use case called as the bound player, and the room that it returns. -/
theorem acts_update {op : RoomOp} {form : Reply → Option β} {Q : β → Prop}
    (h : Names server binding roomCode) (hactor : op.actor? = some binding.playerId)
    (hkick : op.isKick → kicks)
    (hform : ∀ reply value, form reply = some value →
      (∀ room ∈ reply.room?, Names server binding room.code) → Q value) :
    Acts server binding kicks Q (update roomCode op form) := by
  have hask : Acts server binding kicks
      (fun returned : Except JsError Reply => ∀ reply, returned = .ok reply →
        ∀ room ∈ reply.room?, Names server binding room.code)
      (ask (.store (.update roomCode op))) := by
    refine Meets.ask fun s => ⟨⟨h, Or.inl hactor, fun seat hseat => ?_, fun key hkey => ?_⟩, ?_⟩
    · have hseat' : seat ≠ seatKey server.rt roomCode binding.playerId := by
        rwa [seatKey, h]
      refine (s.stores.rooms.seated_call_of_actor hactor hseat').imp_right ?_
      rintro ⟨hop, room, hroom, hhost⟩
      exact ⟨hkick hop, room, h ▸ hroom, hhost⟩
    · exact ⟨Function.update_of_ne (h ▸ hkey) _ _, rfl⟩
    · intro reply hreply room hroom
      exact (RoomStore.code_of_reply hactor hreply room hroom).trans h
  refine Meets.bind hask fun returned hreturned => ?_
  refine Meets.bind (Meets.ofExcept hreturned) fun reply hreply => ?_
  cases hvalue : form reply with
  | none => exact Meets.throw _
  | some value => exact Meets.pure (hform reply value hvalue hreply)

theorem names_of_roomForm {reply : Reply} {room : Room} (hform : roomForm reply = some room)
    (hnames : ∀ room ∈ reply.room?, Names server binding room.code) :
    Names server binding room.code := by
  cases reply <;> cases hform
  exact hnames _ rfl

/-! ### What handlers share -/

section Shared

variable {room : Room}

theorem acts_publishRoom : Acts server binding kicks (fun _ => True) (publishRoom room) :=
  (acts_silent rfl).seq fun _ => acts_effect rfl

theorem acts_start (h : Names server binding roomCode) :
    Acts server binding kicks (fun _ => True) (WordRaceScheduler.start roomCode) :=
  (acts_effect rfl).seq fun _ => (acts_findRoom h).bind fun _ hfound =>
    Meets.ask fun _ => ⟨hfound, trivial⟩

theorem acts_startWordRace {found : Option Room}
    (hfound : ∀ room ∈ found, Names server binding room.code) :
    Acts server binding kicks (fun _ => True) (startWordRace server roomCode found) := by
  cases found with
  | none => exact Meets.throw _
  | some room =>
    refine acts_read.seq fun reading => ?_
    refine (Meets.ofExcept (Q := fun race => Names server binding race.roomCode)
      fun race hplan => ?_).bind fun race hrace => ?_
    · rw [(WordRaceService.roomCode_of_plan hplan)]
      exact hfound room rfl
    · exact (acts_saveRace hrace).seq fun _ => Meets.pure trivial

theorem acts_planned {found : Option Room} (h : ∀ room ∈ found, Names server binding room.code) :
    Acts server binding kicks (fun _ => True) (WordRaceScheduler.planned server roomCode found) :=
  ((acts_startWordRace h).seq fun _ => acts_effect rfl).attempt fun _ => Meets.pure trivial

/-- So does what is left running. -/
theorem acts_forked {entry : Program.Entry Request (Surroundings server.rt) Sent}
    (h : ActsAs server.rt binding kicks entry) : ∀ p ∈ forked server entry,
      Acts server binding kicks (fun _ => True) p := by
  intro p hp
  cases entry with
  | sent => cases hp
  | asked r s =>
    cases r with
    | effect e =>
      cases e with
      | planRace roomCode found =>
        obtain rfl := List.mem_singleton.mp hp
        exact acts_planned h
      | _ => cases hp
    | _ => cases hp

theorem acts_stop (h : Names server binding roomCode) :
    Acts server binding kicks (fun _ => True) (WordRaceScheduler.stop roomCode) :=
  (acts_effect rfl).seq fun _ => acts_deleteRace h

theorem acts_announceBattleStarted (h : Names server binding room.code) :
    Acts server binding kicks (fun _ => True) (announceBattleStarted room) :=
  (acts_silent rfl).seq fun _ => acts_publishRoom.seq fun _ => acts_start h

theorem acts_announceBattleFinished (h : Names server binding room.code) :
    Acts server binding kicks (fun _ => True) (announceBattleFinished room) :=
  acts_publishRoom.seq fun _ => (acts_silent rfl).seq fun _ => (acts_effect rfl).seq fun _ =>
    acts_stop h

theorem acts_announceLeave {left : JoinRoom.LeaveRoomOutput} (h : Names server binding roomCode)
    (hleft : ∀ room ∈ left.room, Names server binding room.code) :
    Acts server binding kicks (fun _ => True) (announceLeave roomCode left) := by
  unfold announceLeave
  cases hroom : left.room with
  | none => exact (acts_effect rfl).seq fun _ => acts_stop h
  | some room =>
    refine (Meets.forEach fun voterId _ => acts_silent rfl).seq fun _ => ?_
    split_ifs
    · exact acts_announceBattleFinished (hleft room hroom)
    · exact acts_publishRoom.seq fun _ => acts_stop (hleft room hroom)
    · exact acts_publishRoom.seq fun _ => Meets.pure trivial

theorem acts_unbindPlayer {playerId : JsString} {beforeUnbind : ℕ → Handler Unit}
    (h : ∀ socket, Acts server binding kicks (fun _ => True) (beforeUnbind socket)) :
    Acts server binding kicks (fun _ => True) (unbindPlayer roomCode playerId beforeUnbind) := by
  refine Meets.seq (Meets.ask fun _ => ⟨trivial, trivial⟩) fun sockets => ?_
  exact Meets.forEach fun socket _ => (h socket).seq fun _ => acts_effect rfl

theorem acts_leaveRoom (h : Names server binding roomCode) :
    Acts server binding kicks (fun _ => True) (leaveRoom roomCode binding.playerId) := by
  refine acts_read.seq fun reading => ?_
  refine (acts_update (Q := fun left => ∀ room ∈ left.room, Names server binding room.code) h rfl
    (by rintro ⟨⟩) ?_).bind fun left hleft => ?_
  · intro reply left hform hnames
    cases reply <;> cases hform
    exact hnames
  · refine (acts_effect rfl).seq fun _ => ?_
    refine (acts_unbindPlayer fun _ => Meets.pure trivial).seq fun _ => ?_
    exact (acts_announceLeave h hleft).seq fun _ => Meets.pure trivial

end Shared

/-! ### Payloads -/

@[simp] theorem field_withRoomCode {name : String} (h : js name ≠ js "roomCode") :
    (payload.withRoomCode roomCode).field name = payload.field name := by
  have hname : (js name == js "roomCode") = false := by simpa using h
  cases payload <;> simp [JsValue.withRoomCode, JsValue.field, List.lookup, hname]

@[simp] theorem text_roomCode : (payload.withRoomCode roomCode).text "roomCode" = roomCode := by
  cases payload <;> simp [JsValue.withRoomCode, JsValue.text, JsValue.field, JsValue.string?]

/-- The field that was checked is the one that the use case reads. -/
theorem text_of_identity {identity : String}
    (h : (payload.field identity).string? = some binding.playerId) :
    payload.text identity = binding.playerId := by
  rw [JsValue.text, h, Option.getD_some]

theorem text_withRoomCode {identity : String} (hname : js identity ≠ js "roomCode")
    (h : (payload.field identity).string? = some binding.playerId) :
    (payload.withRoomCode roomCode).text identity = binding.playerId := by
  rw [JsValue.text, field_withRoomCode hname, h, Option.getD_some]

/-! ### The handlers -/

/-- What a handler does for its socket: it fails before its first request, or the socket is bound
and the handler acts as its player. -/
def OwnSeat (server : Server) (socket : BattleSocket) (kicks : Bool) (handler : Handler Ack) :
    Prop :=
  (∃ error, handler = .throw error) ∨
    ∃ binding ∈ socket.data, Acts server binding kicks (fun _ => True) handler

variable {socket : BattleSocket} {identity : String} {act : JsString → Handler Ack}

/-- The seat that is checked is the one of the binding. -/
theorem requireOwnSeat_eq_ok {code identity : JsValue}
    (h : requireOwnSeat server socket code identity = .ok roomCode) :
    ∃ binding ∈ socket.data, binding.roomCode = roomCode ∧
      identity.string? = some binding.playerId := by
  unfold requireOwnSeat at h
  split at h
  next binding hbinding =>
    obtain ⟨hdata, hchecked⟩ := Option.filter_eq_some_iff.mp hbinding
    rw [Bool.and_eq_true, decide_eq_true_iff] at hchecked
    exact ⟨binding, hdata, Except.ok.inj h, hchecked.2⟩
  next => cases h

theorem ownSeat_asOwnSeat
    (h : ∀ binding : Binding, (payload.field identity).string? = some binding.playerId →
      Acts server binding kicks (fun _ => True) (act binding.roomCode)) :
    OwnSeat server socket kicks (asOwnSeat server socket payload identity act) := by
  unfold asOwnSeat
  cases hseat : requireOwnSeat server socket (payload.field "roomCode")
    (payload.field identity) with
  | error error => exact Or.inl ⟨error, rfl⟩
  | ok roomCode =>
    obtain ⟨binding, hdata, rfl, hidentity⟩ := requireOwnSeat_eq_ok hseat
    exact Or.inr ⟨binding, hdata, h binding hidentity⟩

/-- A use case of the bound player, called with the payload and the code of the binding. -/
theorem acts_roomForm {op : RoomOp} (hactor : op.actor? = some binding.playerId)
    (hkick : op.isKick → kicks) :
    Acts server binding kicks (fun room => Names server binding room.code)
      (update ((payload.withRoomCode binding.roomCode).text "roomCode") op roomForm) :=
  acts_update (by rw [text_roomCode]) hactor hkick fun _ _ => names_of_roomForm

theorem ownSeat_roleSelect : OwnSeat server socket kicks (roleSelect server socket payload) := by
  refine ownSeat_asOwnSeat fun binding hidentity => ?_
  refine (acts_roomForm ?_ ?_).bind fun room _ => ?_
  · exact congrArg some (text_withRoomCode (by decide) hidentity)
  · rintro ⟨⟩
  · exact acts_publishRoom.seq fun _ => Meets.pure trivial

theorem ownSeat_playerReady : OwnSeat server socket kicks (playerReady server socket payload) := by
  refine ownSeat_asOwnSeat fun binding hidentity => ?_
  refine (acts_roomForm ?_ ?_).bind fun room _ => ?_
  · exact congrArg some (text_withRoomCode (by decide) hidentity)
  · rintro ⟨⟩
  · exact acts_publishRoom.seq fun _ => Meets.pure trivial

theorem ownSeat_roomLeave : OwnSeat server socket kicks (roomLeave server socket payload) := by
  refine ownSeat_asOwnSeat fun binding hidentity => ?_
  rw [text_of_identity hidentity]
  exact (acts_leaveRoom rfl).seq fun _ => Meets.pure trivial

/-- The only handler that frees the seat of another player. -/
theorem ownSeat_playerKick : OwnSeat server socket true (playerKick server socket payload) := by
  refine ownSeat_asOwnSeat fun binding hidentity => ?_
  refine acts_read.seq fun reading => (acts_roomForm ?_ ?_).bind fun room _ => ?_
  · exact congrArg some (text_withRoomCode (by decide) hidentity)
  · exact fun _ => rfl
  · refine (acts_effect rfl).seq fun _ => ?_
    refine (acts_unbindPlayer fun _ => acts_silent rfl).seq fun _ => ?_
    exact acts_publishRoom.seq fun _ => Meets.pure trivial

theorem ownSeat_battleStart : OwnSeat server socket kicks (battleStart server socket payload) := by
  refine ownSeat_asOwnSeat fun binding hidentity => ?_
  refine acts_read.seq fun reading => (acts_roomForm ?_ ?_).bind fun room hroom => ?_
  · exact congrArg some (text_withRoomCode (by decide) hidentity)
  · rintro ⟨⟩
  · exact (acts_announceBattleStarted hroom).seq fun _ => Meets.pure trivial

theorem acts_submitWord {input : SubmitWordInput} (hroom : Names server binding input.roomCode)
    (hplayer : input.playerId = binding.playerId) :
    Acts server binding kicks (fun _ => True) (submitWord server input) := by
  unfold submitWord
  split
  · refine (acts_findRace hroom).seq fun found => ?_
    split
    · exact Meets.throw _
    · split
      · exact Meets.throw _
      · refine acts_read.seq fun reading => ?_
        refine (Meets.ofExcept fun _ _ => trivial).seq fun verdict => ?_
        cases verdict with
        | incorrect | expired => exact Meets.pure trivial
        | correct =>
          rw [hplayer]
          refine (acts_claimRound hroom).seq fun claim => ?_
          split
          · exact (acts_findRace hroom).seq fun _ => Meets.pure trivial
          · exact Meets.throw _
          · exact Meets.pure trivial
  · exact Meets.throw _

theorem acts_awardWordBonus (h : Names server binding roomCode) :
    Acts server binding kicks (fun _ => True) (awardWordBonus roomCode binding.playerId) := by
  refine Meets.attempt ?_ fun _ => Meets.pure trivial
  refine (acts_update h rfl ?_ fun _ _ _ _ => trivial).seq fun _ => Meets.pure trivial
  rintro ⟨⟩

theorem ownSeat_wordSubmit : OwnSeat server socket kicks (wordSubmit server socket payload) := by
  refine ownSeat_asOwnSeat fun binding hidentity => ?_
  refine (acts_submitWord ?_ ?_).seq fun result => ?_
  · rw [text_roomCode]
  · exact text_withRoomCode (by decide) hidentity
  · rw [text_of_identity hidentity]
    split_ifs
    · refine (acts_awardWordBonus rfl).seq fun bonus => (acts_silent rfl).seq fun _ => ?_
      cases bonus with
      | none => exact Meets.pure trivial
      | some room => exact acts_publishRoom.seq fun _ => Meets.pure trivial
    · exact Meets.pure trivial

theorem ownSeat_songChallengeStart :
    OwnSeat server socket kicks (songChallengeStart server socket payload) := by
  refine ownSeat_asOwnSeat fun binding hidentity => ?_
  refine acts_read.seq fun reading => (acts_roomForm ?_ ?_).bind fun room _ => ?_
  · exact congrArg some (text_withRoomCode (by decide) hidentity)
  · rintro ⟨⟩
  · exact acts_publishRoom.seq fun _ => Meets.pure trivial

theorem ownSeat_songChallengeSubmit :
    OwnSeat server socket kicks (songChallengeSubmit server socket payload) := by
  refine ownSeat_asOwnSeat fun binding hidentity => acts_read.seq fun reading => ?_
  rw [text_roomCode]
  refine (acts_update (Q := fun _ => True) rfl ?_ ?_ fun _ _ _ _ => trivial).seq fun _ => ?_
  · exact congrArg some (text_withRoomCode (by decide) hidentity)
  · rintro ⟨⟩
  · exact acts_publishRoom.seq fun _ => Meets.pure trivial

theorem acts_chooseSong {songId : JsValue} (h : Names server binding roomCode) :
    Acts server binding kicks (fun chosen => Names server binding chosen.1.code)
      (chooseSong server roomCode binding.playerId songId) := by
  unfold chooseSong
  cases songId.string? with
  | some songId =>
    refine acts_read.seq fun reading => acts_update h rfl ?_ ?_
    · rintro ⟨⟩
    · intro reply chosen hform hnames
      cases reply <;> cases hform
      exact hnames _ rfl
  | none =>
    refine Meets.seq (Meets.ask fun s => ⟨?_, trivial⟩) fun returned => ?_
    · exact actsAs_of_rooms h (Or.inl rfl) rfl fun _ _ => rfl
    · cases returned <;> exact Meets.throw _

theorem ownSeat_songChoose : OwnSeat server socket kicks (songChoose server socket payload) := by
  refine ownSeat_asOwnSeat fun binding hidentity => ?_
  simp only [text_roomCode, text_withRoomCode (by decide) hidentity]
  refine (acts_chooseSong rfl).bind fun chosen hchosen => ?_
  split_ifs
  · exact (acts_announceBattleStarted hchosen).seq fun _ => Meets.pure trivial
  · exact acts_publishRoom.seq fun _ => Meets.pure trivial

/-- A chat message speaks for its sender. -/
theorem acts_sendChatMessage {content : JsValue} (h : Names server binding roomCode) :
    Acts server binding kicks (fun message => message.senderId = binding.playerId)
      (sendChatMessage roomCode binding.playerId content) := by
  refine (acts_findRoom h).bind fun found _ => ?_
  split
  · exact Meets.throw _
  · split
    · exact Meets.throw _
    · next hsender =>
      split
      · exact Meets.throw _
      · dsimp only
        split_ifs
        · exact Meets.throw _
        · exact acts_read.seq fun reading => Meets.pure (by simpa using List.find?_some hsender)

theorem ownSeat_chatMessage : OwnSeat server socket kicks (chatMessage server socket payload) := by
  refine ownSeat_asOwnSeat fun binding hidentity => ?_
  simp only [text_roomCode, text_withRoomCode (by decide) hidentity]
  refine (acts_sendChatMessage rfl).bind fun message hmessage => ?_
  refine (acts_emit ?_).seq fun _ => Meets.pure trivial
  rintro _ ⟨⟩
  exact hmessage

theorem ownSeat_voteCast : OwnSeat server socket kicks (voteCast server socket payload) := by
  refine ownSeat_asOwnSeat fun binding hidentity => acts_read.seq fun reading => ?_
  rw [text_of_identity hidentity]
  refine (acts_update rfl rfl ?_ fun _ _ _ _ => trivial).seq fun result => ?_
  · rintro ⟨⟩
  · have htold : Acts server binding kicks (fun _ => True) (do
        emitVoteMine result.room.code binding.playerId result.dancerId
        return Ack.vote result.dancerId) :=
      (acts_silent rfl).seq fun _ => Meets.pure trivial
    split_ifs
    · exact acts_publishRoom.seq fun _ => htold
    · exact htold

theorem ownSeat_roomRematch : OwnSeat server socket kicks (roomRematch server socket payload) := by
  refine ownSeat_asOwnSeat fun binding hidentity => ?_
  rw [text_of_identity hidentity]
  refine (acts_update (Q := fun rematched => Names server binding rematched.1.code) rfl rfl ?_
    ?_).bind fun rematched hrematched => ?_
  · rintro ⟨⟩
  · intro reply rematched hform hnames
    cases reply <;> cases hform
    exact hnames _ rfl
  · refine (acts_stop hrematched).seq fun _ => acts_publishRoom.seq fun _ => ?_
    exact (Meets.forEach fun voterId _ => acts_silent rfl).seq fun _ => Meets.pure trivial

theorem ownSeat_webrtcReady : OwnSeat server socket kicks (webrtcReady server socket payload) := by
  refine ownSeat_asOwnSeat fun binding hidentity => (acts_emit ?_).seq fun _ => Meets.pure trivial
  rintro _ ⟨⟩
  exact text_of_identity hidentity

theorem sender_of_requireValidSignal {signal : WebRtcSignal}
    (h : requireValidSignal payload = .ok signal) : signal.sender = payload.text "from" := by
  unfold requireValidSignal at h
  split at h
  next =>
    obtain ⟨_, -, h⟩ := bind_eq_ok.mp h
    by_cases hdescription : (payload.field "description").isObject = true
    · rw [if_pos hdescription] at h
      split at h
      next =>
        obtain rfl := Except.ok.inj h
        rfl
      next => cases h
    · rw [if_neg hdescription] at h
      obtain rfl := Except.ok.inj h
      rfl
  next => cases h

theorem ownSeat_webrtcSignal :
    OwnSeat server socket kicks (webrtcSignal server socket payload) := by
  refine ownSeat_asOwnSeat fun binding hidentity => ?_
  refine (Meets.ofExcept (Q := fun signal => signal.sender = binding.playerId)
    fun signal hsignal => ?_).bind fun signal hsender => ?_
  · exact (sender_of_requireValidSignal hsignal).trans (text_of_identity hidentity)
  · refine Meets.seq (Meets.ask fun _ => ⟨trivial, trivial⟩) fun roomSockets => ?_
    split_ifs
    · refine (acts_emit ?_).seq fun _ => Meets.pure trivial
      rintro _ ⟨⟩
      exact hsender
    · exact Meets.throw _

theorem ClientEvent.ownSeat (event : ClientEvent) :
    OwnSeat server socket (decide (event = .playerKick)) (event.handler server socket payload) := by
  cases event with
  | roleSelect => exact ownSeat_roleSelect
  | playerReady => exact ownSeat_playerReady
  | roomLeave => exact ownSeat_roomLeave
  | playerKick => exact ownSeat_playerKick
  | battleStart => exact ownSeat_battleStart
  | wordSubmit => exact ownSeat_wordSubmit
  | songChallengeStart => exact ownSeat_songChallengeStart
  | songChallengeSubmit => exact ownSeat_songChallengeSubmit
  | songChoose => exact ownSeat_songChoose
  | chatMessage => exact ownSeat_chatMessage
  | voteCast => exact ownSeat_voteCast
  | roomRematch => exact ownSeat_roomRematch
  | webrtcReady => exact ownSeat_webrtcReady
  | webrtcSignal => exact ownSeat_webrtcSignal

/-- A client event either fails before its first request, with one error to its own socket, or the
socket is bound, every call of a store is made in the room of the binding by its player, and only
`player:kick` of the host frees another seat. What the handler leaves running keeps to the same. -/
theorem acts_as_own_seat (server : Server) (socket : BattleSocket) (event : ClientEvent)
    (payload : JsValue) (ack : Bool) (states : ℕ → Surroundings server.rt) :
    let log := ((handle server socket event payload ack).run (Request.answer server.rt) states).1
    (∃ error, log = [.sent ⟨.sender, .failed error⟩]) ∨
      ∃ binding ∈ socket.data, ∀ entry ∈ log,
        ActsAs server.rt binding (decide (event = .playerKick)) entry ∧
          ∀ p ∈ forked server entry, ∀ later : ℕ → Surroundings server.rt,
            ∀ entry' ∈ (p.run (Request.answer server.rt) later).1,
              ActsAs server.rt binding (decide (event = .playerKick)) entry' := by
  have hguard (binding : Binding) (error : JsError) :
      Acts server binding (decide (event = .playerKick)) (fun _ => True)
        (emit .sender (.failed error)) := acts_silent rfl
  rcases event.ownSeat with ⟨error, herror⟩ | ⟨binding, hdata, hacts⟩
  · left
    unfold handle guard
    rw [herror]
    exact ⟨error, rfl⟩
  · right
    have hhandle : Acts server binding (decide (event = .playerKick)) (fun _ => True)
        (handle server socket event payload ack) := by
      refine Meets.attempt (hacts.seq fun data => ?_) (hguard binding)
      split_ifs
      · exact acts_silent rfl
      · exact Meets.pure trivial
    refine ⟨binding, hdata, fun entry hentry => ?_⟩
    have hactsAs := (hhandle.run states).1 entry hentry
    exact ⟨hactsAs, fun p hp later => ((acts_forked hactsAs p hp).run later).1⟩

end SocketEvents

end DanceSync
