import DanceSync.Handlers.BattleService
import DanceSync.Lifecycle.BattleNotices

/-!
# Every battle is announced once

`src/infrastructure/ws/socketHandlers.ts` announces a battle from the answer of the one update that
started it, and from the one that finished it, and hands the match over for the history where it
announces the end.
-/

namespace DanceSync

namespace BattleService

open SocketEvents
open Bindings (BattleSocket Binding)
open Program (Settles)

/-! ### What handlers owe -/

/-- An answer obliges to the announcements of its battle; records, and messages to the room, pay
them. -/
def announcements (rt : Runtime) : Account Request Request.Answer Sent (Multiset Notice) where
  possible r answer := ∃ s, answer = r.answer rt s
  due
    | .store (.update _ op) => op.notices
    | _ => fun _ => 0
  asked
    | .effect (.recordMatch room) => {.recorded room}
    | _ => 0
  sent sent :=
    match sent with
    | ⟨.room code, .battleStarted room⟩ => if code = room.code then {.started room} else 0
    | ⟨.room code, .battleFinished room⟩ => if code = room.code then {.finished room} else 0
    | _ => 0

variable {rt : Runtime} {server : Server} {roomCode playerId : JsString} {room : Room}
  {owed : Multiset Notice} {β : Type} {payload : JsValue} {socket : BattleSocket}

theorem sent_battleStarted :
    (announcements rt).sent ⟨.room room.code, .battleStarted room⟩ = {.started room} := if_pos rfl

theorem sent_battleFinished :
    (announcements rt).sent ⟨.room room.code, .battleFinished room⟩ = {.finished room} := if_pos rfl

/-- The handler pays what its answers oblige it to, and what is owed before. -/
abbrev Pays (rt : Runtime) (p : Handler β) (owed : Multiset Notice) : Prop :=
  p.Settles (announcements rt) 0 owed

theorem settles_emit {audience : Audience} {message : Message}
    (h : (announcements rt).sent ⟨audience, message⟩ = 0) :
    (emit audience message).Settles (announcements rt) (fun _ => owed) owed :=
  Settles.tell h

theorem settles_effect {e : Effect} (h : (announcements rt).asked (.effect e) = 0) :
    (effect e).Settles (announcements rt) (fun _ => owed) owed :=
  Settles.look h fun _ _ => rfl

theorem settles_publishRoom :
    (publishRoom room).Settles (announcements rt) (fun _ => owed) owed :=
  (settles_emit rfl).bind fun _ => settles_effect rfl

theorem settles_stop :
    (SocketEvents.WordRaceScheduler.stop roomCode).Settles (announcements rt) (fun _ => owed)
      owed :=
  (settles_effect rfl).bind fun _ => Settles.look rfl fun _ _ => rfl

theorem pays_start : Pays rt (SocketEvents.WordRaceScheduler.start roomCode) 0 :=
  (settles_effect rfl).bind fun _ => Settles.askThen rfl fun _ _ => settles_effect rfl

/-- A race that cannot be planned is not announced either. -/
theorem pays_planned {found : Option Room} :
    Pays rt (SocketEvents.WordRaceScheduler.planned server roomCode found) 0 := by
  have hplan : Pays rt (startWordRace server roomCode found) 0 := by
    cases found with
    | none => exact Settles.throw
    | some room =>
      refine Settles.askThen rfl fun reading _ => Settles.ofExceptThen fun race _ => ?_
      exact Settles.askThen rfl fun _ _ => Settles.pure rfl
  exact (hplan.bind fun race => settles_effect rfl).attempt fun _ => Settles.pure rfl

/-- The start of a battle is announced. -/
theorem pays_announceBattleStarted :
    Pays rt (announceBattleStarted room) {.started room} := by
  have hsent : (emit (.room room.code) (.battleStarted room)).Settles (announcements rt)
      (fun _ => 0) {.started room} :=
    Settles.send (by rw [sent_battleStarted, add_zero])
  exact hsent.bind fun _ => settles_publishRoom.bind fun _ => pays_start

/-- The end of a battle is announced and recorded. -/
theorem pays_announceBattleFinished :
    Pays rt (announceBattleFinished room) (Notice.ended room) := by
  have hsent : (emit (.room room.code) (.battleFinished room)).Settles (announcements rt)
      (fun _ => {.recorded room}) (Notice.ended room) :=
    Settles.send (by rw [sent_battleFinished, Notice.ended])
  have hrecorded : (effect (.recordMatch room)).Settles (announcements rt) (fun _ => 0)
      {.recorded room} := Settles.pay (add_zero _).symm fun _ _ => rfl
  exact settles_publishRoom.bind fun _ => hsent.bind fun _ => hrecorded.bind fun _ => settles_stop

/-- A departure announces the end of the battle that it finished. -/
theorem pays_announceLeave {left : JoinRoom.LeaveRoomOutput} :
    Pays rt (announceLeave roomCode left)
      (if left.battleFinished then left.room.elim 0 Notice.ended else 0) := by
  unfold announceLeave
  cases left.room with
  | none =>
    simp only [Option.elim_none, ite_self]
    exact (settles_effect rfl).bind fun _ => settles_stop
  | some room =>
    refine Settles.bind (Settles.forEach fun voterId _ => settles_emit rfl) fun _ => ?_
    split_ifs
    · exact pays_announceBattleFinished
    · exact settles_publishRoom.bind fun _ => settles_stop
    · exact settles_publishRoom.bind fun _ => Settles.pure rfl

theorem settles_unbindPlayer {beforeUnbind : ℕ → Handler Unit}
    (h : ∀ socket, (beforeUnbind socket).Settles (announcements rt) (fun _ => owed) owed) :
    (unbindPlayer roomCode playerId beforeUnbind).Settles (announcements rt) (fun _ => owed)
      owed := by
  refine Settles.bind (Settles.look rfl fun _ _ => rfl) fun sockets => ?_
  exact Settles.forEach fun socket _ => (h socket).bind fun _ => settles_effect rfl

/-! ### Calls of use cases -/

section Calls

variable {op : RoomOp} {form : Reply → Option β} {rest : β → Multiset Notice}

/-- A use case is called: what its reply obliges to is owed from then on. -/
theorem settles_update (hform : ∀ slot reply, (op.step rt roomCode slot).2 = .ok reply →
      ∃ value, form reply = some value ∧ reply.notices op = rest value) :
    (update roomCode op form).Settles (announcements rt) rest 0 := by
  refine Settles.askThen rfl fun returned hpossible => ?_
  obtain ⟨s, rfl⟩ := hpossible
  show Settles _ _ (Program.ofExcept (s.stores.rooms.call roomCode op).2 >>= _)
    (0 + op.notices (s.stores.rooms.call roomCode op).2)
  rw [zero_add]
  cases hreturned : (s.stores.rooms.call roomCode op).2 with
  | error error => rfl
  | ok reply =>
    obtain ⟨value, hvalue, hnotices⟩ := hform _ reply hreturned
    simp only [Bind.bind, Program.ofExcept, Program.bind, Program.andThen, hvalue]
    exact hnotices

/-- A use case that neither starts nor finishes battles. -/
theorem settles_quiet (hstarts : op.battleOptions? = none) (hfinishes : op.mayFinish = false) :
    (update roomCode op form).Settles (announcements rt) (fun _ => 0) 0 := by
  refine Settles.askThen rfl fun returned _ => ?_
  have hnothing : op.notices returned = 0 := RoomOp.notices_eq_zero hstarts hfinishes returned
  show Settles _ _ _ (0 + op.notices returned)
  rw [hnothing, add_zero]
  refine Settles.ofExceptThen fun reply _ => ?_
  cases form reply with
  | some value => exact Settles.pure rfl
  | none => exact Settles.throw

end Calls

/-- A departure pays for the battle that it finishes. -/
theorem pays_leaveRoom :
    (leaveRoom roomCode playerId).Settles (announcements rt) (fun _ => 0) 0 := by
  refine Settles.askThen rfl fun reading _ => ?_
  rw [show (announcements rt).due .read reading = 0 from rfl, add_zero]
  let ended (left : JoinRoom.LeaveRoomOutput) : Multiset Notice :=
    if left.battleFinished then left.room.elim 0 Notice.ended else 0
  refine Settles.bind (?_ : Settles (announcements rt) ended _ 0) fun left => ?_
  · refine settles_update fun slot reply hreply => ?_
    obtain ⟨returned, -, rfl⟩ := RoomOp.executed_of_reply hreply
    exact ⟨returned, rfl, rfl⟩
  · refine (settles_effect rfl).bind fun _ => ?_
    refine (settles_unbindPlayer fun _ => Settles.pure rfl).bind fun _ => ?_
    exact pays_announceLeave.bind fun _ => Settles.pure rfl

/-! ### Client events -/

section Events

theorem pays_asOwnSeat {identity : String} {act : JsString → Handler Ack}
    (h : ∀ roomCode, Pays rt (act roomCode) 0) :
    Pays rt (asOwnSeat server socket payload identity act) 0 :=
  Settles.ofExceptThen fun roomCode _ => h roomCode

theorem pays_battleStart : Pays rt (battleStart server socket payload) 0 := by
  have hstarted {code requesterId : JsString} {dancerIds : JsValue} {options : StartBattleOptions} :
      (update code (.startBattle requesterId dancerIds options) roomForm).Settles
        (announcements rt) (fun room => {.started room}) 0 := by
    refine settles_update fun slot reply hreply => ?_
    obtain ⟨room, next, -, -, -, rfl⟩ := battle_of_reply hreply
    exact ⟨_, rfl, rfl⟩
  refine pays_asOwnSeat fun code => Settles.askThen rfl fun reading _ => ?_
  exact hstarted.bind fun room => pays_announceBattleStarted.bind fun _ => Settles.pure rfl

theorem pays_submitWord {input : SubmitWordInput} : Pays rt (submitWord server input) 0 := by
  unfold submitWord
  split
  · refine Settles.askThen rfl fun found _ => ?_
    split
    · exact Settles.throw
    · split
      · exact Settles.throw
      · refine Settles.askThen rfl fun reading _ => Settles.ofExceptThen fun verdict _ => ?_
        cases verdict with
        | incorrect | expired => exact Settles.pure rfl
        | correct =>
          refine Settles.askThen rfl fun claim _ => ?_
          cases claim with
          | claimed won => exact Settles.askThen rfl fun updated _ => Settles.pure rfl
          | refused round =>
            cases round with
            | none => exact Settles.throw
            | some round => exact Settles.pure rfl
  · exact Settles.throw

theorem pays_wordSubmit : Pays rt (wordSubmit server socket payload) 0 := by
  refine pays_asOwnSeat fun code => pays_submitWord.bind fun result => ?_
  split_ifs
  · have haward : Pays rt (awardWordBonus code (payload.text "playerId")) 0 := by
      refine Settles.attempt ?_ fun _ => Settles.pure rfl
      exact Settles.bind (settles_quiet rfl rfl) fun room => Settles.pure rfl
    refine haward.bind fun bonus => (settles_emit rfl).bind fun _ => ?_
    cases bonus with
    | none => exact Settles.pure rfl
    | some room => exact settles_publishRoom.bind fun _ => Settles.pure rfl
  · exact Settles.pure rfl

/-- The choice that starts the battle announces it. -/
theorem pays_songChoose : Pays rt (songChoose server socket payload) 0 := by
  have hchosen {code playerId : JsString} {songId : JsValue} :
      (chooseSong server code playerId songId).Settles (announcements rt)
        (fun chosen => if chosen.2 then {.started chosen.1} else 0) 0 := by
    unfold chooseSong
    cases songId.string? with
    | some songId =>
      refine Settles.askThen rfl fun reading _ => ?_
      rw [show (announcements rt).due .read reading = 0 from rfl, add_zero]
      refine settles_update fun slot reply hreply => ?_
      obtain ⟨returned, -, rfl⟩ := RoomOp.executed_of_reply hreply
      exact ⟨_, rfl, rfl⟩
    | none =>
      refine Settles.askThen rfl fun returned _ => ?_
      cases returned with
      | error error => exact Settles.throw
      | ok reply => exact Settles.throw
  refine pays_asOwnSeat fun code => Settles.bind hchosen fun chosen => ?_
  dsimp only
  split_ifs
  · exact pays_announceBattleStarted.bind fun _ => Settles.pure rfl
  · exact settles_publishRoom.bind fun _ => Settles.pure rfl

theorem pays_sendChatMessage {content : JsValue} :
    Pays rt (sendChatMessage roomCode playerId content) 0 := by
  refine Settles.askThen rfl fun found _ => ?_
  split
  · exact Settles.throw
  · split
    · exact Settles.throw
    · split
      · exact Settles.throw
      · dsimp only
        split_ifs
        · exact Settles.throw
        · exact Settles.askThen rfl fun _ _ => Settles.pure rfl

/-- Every handler of a client event pays for the battles that it starts and finishes. -/
theorem pays_handler (event : ClientEvent) : Pays rt (event.handler server socket payload) 0 := by
  have hpublish {p : Handler Room} {answer : Room → Ack} (h : Pays rt p 0) :
      Pays rt (do
        let room ← p
        publishRoom room
        return answer room) 0 :=
    h.bind fun room => settles_publishRoom.bind fun _ => Settles.pure rfl
  cases event with
  | roleSelect | playerReady =>
    exact pays_asOwnSeat fun code => hpublish (settles_quiet rfl rfl)
  | songChallengeStart =>
    exact pays_asOwnSeat fun code => Settles.askThen rfl fun reading _ =>
      hpublish (settles_quiet rfl rfl)
  | roomLeave => exact pays_asOwnSeat fun code => pays_leaveRoom.bind fun _ => Settles.pure rfl
  | playerKick =>
    refine pays_asOwnSeat fun code => Settles.askThen rfl fun reading _ => ?_
    refine Settles.bind (settles_quiet rfl rfl) fun room => (settles_effect rfl).bind fun _ => ?_
    refine (settles_unbindPlayer fun _ => settles_emit rfl).bind fun _ => ?_
    exact settles_publishRoom.bind fun _ => Settles.pure rfl
  | battleStart => exact pays_battleStart
  | wordSubmit => exact pays_wordSubmit
  | songChallengeSubmit =>
    refine pays_asOwnSeat fun code => Settles.askThen rfl fun reading _ => ?_
    refine Settles.bind (settles_quiet rfl rfl) fun submitted => ?_
    exact settles_publishRoom.bind fun _ => Settles.pure rfl
  | songChoose => exact pays_songChoose
  | chatMessage =>
    refine pays_asOwnSeat fun code => pays_sendChatMessage.bind fun message => ?_
    exact (settles_emit rfl).bind fun _ => Settles.pure rfl
  | voteCast =>
    refine pays_asOwnSeat fun code => Settles.askThen rfl fun reading _ => ?_
    refine Settles.bind (settles_quiet rfl rfl) fun result => ?_
    split_ifs
    · exact settles_publishRoom.bind fun _ => (settles_emit rfl).bind fun _ => Settles.pure rfl
    · exact (settles_emit rfl).bind fun _ => Settles.pure rfl
  | roomRematch =>
    refine pays_asOwnSeat fun code => Settles.bind (settles_quiet rfl rfl) fun rematched => ?_
    refine settles_stop.bind fun _ => settles_publishRoom.bind fun _ => ?_
    exact (Settles.forEach fun _ _ => settles_emit rfl).bind fun _ => Settles.pure rfl
  | webrtcReady =>
    exact pays_asOwnSeat fun code => (settles_emit rfl).bind fun _ => Settles.pure rfl
  | webrtcSignal =>
    refine pays_asOwnSeat fun code => Settles.ofExceptThen fun signal _ => ?_
    refine Settles.askThen rfl fun roomSockets _ => ?_
    split_ifs
    · exact (settles_emit rfl).bind fun _ => Settles.pure rfl
    · exact Settles.throw

theorem pays_handle (event : ClientEvent) (ack : Bool) :
    Pays rt (handle server socket event payload ack) 0 := by
  refine ((pays_handler event).bind fun data => ?_).attempt fun error => settles_emit rfl
  split_ifs
  · exact settles_emit rfl
  · exact Settles.pure rfl

end Events

/-! ### Timers -/

theorem pays_logged {timer : Handler Unit} (h : Pays rt timer 0) : Pays rt (logged timer) 0 :=
  h.attempt fun _ => Settles.pure rfl

/-- The timer that finishes a battle announces its end. -/
theorem pays_finishBattleAtDeadline {battleId : JsString} :
    Pays rt (finishBattleAtDeadline roomCode battleId) 0 := by
  refine Settles.askThen rfl fun reading _ => ?_
  rw [show (announcements rt).due .read reading = 0 from rfl, add_zero]
  let ended (output : Option (Room × Bool)) : Multiset Notice :=
    (Reply.finished output).notices (.finishAtDeadline battleId reading.now)
  refine Settles.bind (?_ : Settles (announcements rt) ended _ 0) fun result => ?_
  · refine settles_update fun slot reply hreply => ?_
    obtain ⟨returned, -, rfl⟩ := RoomOp.executed_of_reply hreply
    exact ⟨returned, rfl, rfl⟩
  · rcases result with _ | ⟨room, finished⟩
    · exact Settles.pure rfl
    · cases finished with
      | true => exact pays_announceBattleFinished
      | false => exact settles_effect (e := .armRoomTimers room) rfl

/-- The timer that starts a battle announces it. -/
theorem pays_autoPickSong {challengeId : JsString} :
    Pays rt (autoPickSong server roomCode challengeId) 0 := by
  refine Settles.askThen rfl fun reading _ => ?_
  rw [show (announcements rt).due .read reading = 0 from rfl, add_zero]
  let started (output : ChooseSong.AutoPickSongOutput) : Multiset Notice :=
    if output.picked ∧ output.battleStarted then {.started output.room} else 0
  let startedAny (result : Option ChooseSong.AutoPickSongOutput) : Multiset Notice :=
    result.elim 0 started
  refine Settles.bind (?_ : Settles (announcements rt) startedAny _ 0) fun result => ?_
  · refine Settles.attempt (Settles.bind (?_ : Settles (announcements rt) started _ 0) fun output =>
      Settles.pure rfl) fun error => ?_
    · refine settles_update fun slot reply hreply => ?_
      obtain ⟨returned, -, rfl⟩ := RoomOp.executed_of_reply hreply
      exact ⟨returned, rfl, rfl⟩
    · split
      · exact Settles.pure rfl
      · exact Settles.throw
  · cases result with
    | none => exact Settles.pure rfl
    | some output =>
      cases hpicked : output.picked with
      | false =>
        simp only [startedAny, started, hpicked, Option.elim_some, Bool.false_eq_true, false_and,
          if_false]
        exact settles_effect rfl
      | true =>
        cases hstarted : output.battleStarted with
        | true =>
          simp only [startedAny, started, hpicked, hstarted, Option.elim_some, and_self, if_true]
          exact pays_announceBattleStarted
        | false =>
          simp only [startedAny, started, hpicked, hstarted, Option.elim_some, Bool.false_eq_true,
            and_false, if_true, if_false]
          exact settles_publishRoom

theorem pays_expireSongChallenge {challengeId : JsString} :
    Pays rt (expireSongChallenge roomCode challengeId) 0 := by
  refine Settles.askThen rfl fun reading _ => Settles.bind (settles_quiet rfl rfl) fun expired => ?_
  cases expired with
  | none => exact Settles.pure rfl
  | some room => exact settles_publishRoom

theorem pays_releaseSeatIfAbandoned :
    Pays rt (releaseSeatIfAbandoned roomCode playerId) 0 := by
  have hbound : (isBound roomCode playerId).Settles (announcements rt) (fun _ => 0) 0 :=
    Settles.askThen rfl fun sockets _ => Settles.pure rfl
  refine pays_logged (hbound.bind fun bound => ?_)
  split_ifs
  · exact Settles.pure rfl
  · exact pays_leaveRoom.bind fun _ => Settles.pure rfl

theorem pays_listRooms (codes : List JsString) : Pays rt (listRooms codes) 0 := by
  induction codes with
  | nil => exact Settles.pure rfl
  | cons code codes ih =>
    exact Settles.askThen rfl fun found _ => ih.bind fun rooms => Settles.pure rfl

/-! ### Joins, routes and the sweep -/

section Service

/-- Nothing else announces battles. -/
abbrev serviceAnnouncements (rt : Runtime) :
    Account ServiceRequest ServiceRequest.Answer ServiceSent (Multiset Notice) :=
  (announcements rt).extend

/-- The same over the requests of the whole service. -/
abbrev ServicePays (rt : Runtime) (p : ServiceHandler β) : Prop :=
  p.Settles (serviceAnnouncements rt) 0 0

variable {parse : JsString → Option JsValue} {code : JsString}

theorem pays_lift {p : Handler β} (h : Pays rt p 0) : ServicePays rt (lift p) :=
  Settles.lift h

theorem pays_askConnection (r : ConnectionRequest) : ServicePays rt (askConnection r) :=
  Settles.look rfl fun _ _ => rfl

theorem pays_resyncWordRound : ServicePays rt (resyncWordRound roomCode) := by
  have hactive : Pays rt (getActiveWordRound roomCode) 0 :=
    Settles.askThen rfl fun race _ => Settles.askThen rfl fun reading _ => Settles.pure rfl
  refine (pays_lift hactive).bind fun active => ?_
  rcases active with _ | ⟨race, round⟩
  · exact Settles.pure rfl
  · have hread : Pays rt read 0 := Settles.look rfl fun _ _ => rfl
    exact (pays_lift hread).bind fun reading => Settles.tell rfl

theorem pays_leavePreviousBinding {previous : Binding} :
    ServicePays rt (leavePreviousBinding previous) := by
  refine Settles.bind (pays_lift ?_) fun _ => pays_askConnection _
  refine Settles.attempt (pays_leaveRoom.bind fun _ => Settles.pure rfl) fun error => ?_
  split
  · exact Settles.pure rfl
  · exact Settles.throw

theorem pays_bindSeat : ServicePays rt (bindSeat server playerId room) := by
  refine (pays_lift (settles_effect rfl)).bind fun _ => ?_
  refine (pays_askConnection _).bind fun _ => (pays_askConnection _).bind fun _ => ?_
  refine (pays_lift settles_publishRoom).bind fun _ => ?_
  have hvote : ServicePays rt (do
      if room.battle.isSome ∧ playerId ∈ room.spectators.map (·.id) then
        lift (emit .sender
          (.voteMine room.code (RoomService.voteOf server.rt room playerId)))
      else pure ()
      return Ack.room (some room)) := by
    dsimp only
    split
    · exact (pays_lift (settles_emit rfl)).bind fun _ => Settles.pure rfl
    · exact Settles.pure rfl
  dsimp only
  split
  · exact pays_resyncWordRound.bind fun _ => hvote
  · exact hvote

theorem pays_join {ack : Bool} : ServicePays rt (join server payload ack) := by
  have hjoin : ServicePays rt (lift (joinRoom payload)) :=
    pays_lift (Settles.ofExceptThen fun _ _ => settles_quiet rfl rfl)
  have hswitch (taken : Room) (previous : Option Binding) :
      ServicePays rt (switchSeat server payload taken previous) := by
    cases previous with
    | none => exact Settles.pure rfl
    | some previous =>
      simp only [switchSeat]
      split_ifs
      · exact Settles.pure rfl
      · exact pays_leavePreviousBinding.bind fun _ => hjoin
      · exact pays_leavePreviousBinding.bind fun _ => Settles.pure rfl
  have hroomJoin : ServicePays rt (roomJoin server payload) :=
    hjoin.bind fun taken => (pays_askConnection _).bind fun previous =>
      (hswitch taken previous).bind fun room => pays_bindSeat
  refine (hroomJoin.bind fun data => ?_).attempt fun error => pays_lift (settles_emit rfl)
  split_ifs
  · exact pays_lift (settles_emit rfl)
  · exact Settles.pure rfl

/-- Whatever number of codes is drawn. -/
theorem pays_createRoom {hostId displayName : JsValue} (attempts : ℕ) :
    ServicePays rt (Routes.createRoom hostId displayName attempts) := by
  induction attempts with
  | zero => exact Settles.throw
  | succ attempts ih =>
    have hread : Pays rt read 0 := Settles.look rfl fun _ _ => rfl
    refine (pays_askConnection _).bind fun bytes => (pays_lift hread).bind fun reading => ?_
    refine (pays_lift (settles_quiet rfl rfl)).bind fun inserted => ?_
    cases inserted with
    | some room => exact Settles.pure rfl
    | none => exact ih

theorem pays_findRoom : Pays rt (findRoom roomCode) 0 := Settles.look rfl fun _ _ => rfl

theorem pays_postLeave {body : JsValue} :
    ServicePays rt (Routes.postLeave server parse code body) := by
  refine Settles.ofExceptThen fun required _ => Settles.ofExceptThen fun read _ => ?_
  rcases read with ⟨playerId, reason⟩
  cases reason with
  | explicit => exact (pays_lift pays_leaveRoom).bind fun _ => Settles.pure rfl
  | pagehide =>
    refine (pays_lift pays_findRoom).bind fun found => ?_
    cases found with
    | none => exact Settles.throw
    | some room =>
      dsimp only
      split_ifs
      · exact (pays_askConnection _).bind fun _ => Settles.pure rfl
      · exact Settles.throw

theorem pays_respond {attempts : ℕ} {body : Except JsValue JsValue} {route : Routes.Route} :
    ServicePays rt (Routes.respond server parse attempts body route) := by
  cases body with
  | error error => exact Settles.pure rfl
  | ok body =>
    refine Settles.attempt ?_ fun error => Settles.pure rfl
    cases route with
    | health => exact Settles.pure rfl
    | postRoom =>
      exact (pays_createRoom attempts).bind fun room =>
        (pays_askConnection _).bind fun _ => Settles.pure rfl
    | getRoom code =>
      refine (pays_lift pays_findRoom).bind fun found => ?_
      cases found with
      | none => exact Settles.pure rfl
      | some room => exact Settles.pure rfl
    | postLeave code => exact pays_postLeave

theorem pays_sweepSeat {bound : List (Option JsString)} :
    ServicePays rt (sweepSeat roomCode bound playerId) := by
  unfold sweepSeat
  split
  · exact (pays_askConnection _).bind fun _ => Settles.pure rfl
  · refine (pays_askConnection _).bind fun abandoned => ?_
    split
    · exact pays_lift pays_releaseSeatIfAbandoned
    · exact Settles.pure rfl

theorem pays_sweep : ServicePays rt sweep := by
  refine (pays_askConnection _).bind fun codes => (pays_lift (pays_listRooms codes)).bind ?_
  intro rooms
  refine Settles.forEach fun room _ => (pays_lift (settles_effect rfl)).bind fun _ => ?_
  have hbound : Pays rt (fetchSockets room.code) 0 := Settles.look rfl fun _ _ => rfl
  refine (pays_lift hbound).bind fun bound => Settles.forEach fun playerId _ => ?_
  exact pays_sweepSeat

/-- Whatever the service does pays for the battles that it starts and finishes. -/
theorem pays_activity (activity : Activity) : ServicePays rt (activity.program server parse) := by
  cases activity with
  | event socket name payload ack => exact pays_lift (pays_handle name ack)
  | join payload ack => exact pays_join
  | request route body attempts => exact pays_respond.bind fun _ => Settles.pure rfl
  | battleEnd => exact pays_lift (pays_logged pays_finishBattleAtDeadline)
  | songChoose => exact pays_lift (pays_logged pays_autoPickSong)
  | songChallenge => exact pays_lift (pays_logged pays_expireSongChallenge)
  | seat => exact pays_lift pays_releaseSeatIfAbandoned
  | sweep => exact pays_sweep

/-- So does what is left running. -/
theorem pays_forks (r : ServiceRequest) : ∀ p ∈ forks server r, ServicePays rt p := by
  rcases r with r | r
  · intro forked hforked
    obtain ⟨p, hp, rfl⟩ := List.mem_map.mp hforked
    cases r with
    | effect e =>
      cases e with
      | planRace roomCode found =>
        obtain rfl := List.mem_singleton.mp hp
        exact pays_lift pays_planned
      | _ => cases hp
    | _ => cases hp
  · rintro _ ⟨⟩

end Service

end BattleService

end DanceSync
