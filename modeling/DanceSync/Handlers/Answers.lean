import DanceSync.Config.Accepted
import DanceSync.Handlers.SocketEvents
import DanceSync.Machine.AllOrNothing

/-!
# Every event is answered once

`guard` of `src/infrastructure/ws/socketHandlers.ts` around the handlers of the client events but
`room:join`. A handler checks its socket, its payload and what is stored, and refuses with a domain
error; the call of a store that changes something is the last one that may throw. So a client is
answered once, when everything else is done, and a refusal says that nothing happened: no stored
room or race changed, no timer was armed or cancelled, and nobody was told anything. A server that
started with an accepted configuration never answers `INTERNAL_ERROR`. Nobody waits for the word
race of a battle to be planned: that is a program of its own, which tells nobody anything.

A template literal is taken to print every value: `song:choose` prints a song id that is no text.

## Main definitions

* `SocketEvents.Message.isAnswer`, `SocketEvents.Unanswered`: what is no answer to the client.
* `SocketEvents.Inert`: what has no effect.
* `SocketEvents.Silent`: what tells nobody anything.
* `SocketEvents.Commits`: the handlers that refuse or go through.

## Main results

* `SocketEvents.ClientEvent.commits`: every handler does.
* `SocketEvents.answered_once`.
-/

namespace DanceSync

open Config

namespace SocketEvents

open Bindings (BattleSocket Binding)
open Program (Completes AllOrNothing Meets)

/-! ### Answers -/

/-- The message answers the client whose event is handled. -/
def Message.isAnswer : Message → Bool
  | .acked _ | .failed _ => true
  | _ => false

/-- Nothing is answered yet. -/
def Unanswered {rt : Runtime} : Program.Entry Request (Surroundings rt) Sent → Prop
  | .asked _ _ => True
  | .sent sent => sent.message.isAnswer = false

/-- The request leaves the stores as they are, and arms and cancels nothing. -/
def Inert {rt : Runtime} : Program.Entry Request (Surroundings rt) Sent → Prop
  | .asked (.store op) s => (op.perform s.stores).2 = s.stores
  | .asked (.effect _) _ | .sent _ => False
  | .asked _ _ => True

theorem unanswered_of_inert {rt : Runtime} :
    ∀ entry : Program.Entry Request (Surroundings rt) Sent, Inert entry → Unanswered entry
  | .asked _ _, _ => trivial
  | .sent _, h => h.elim

variable {β : Type} {server : Server} {roomCode playerId : JsString} {payload : JsValue}
  {socket : BattleSocket} {room : Room}

/-- The part of a handler goes through without answering. -/
abbrev GoesThrough (server : Server) (Q : β → Prop) (p : Handler β) : Prop :=
  p.Completes (Request.answer server.rt) Unanswered Q

/-- The handler refuses with a domain error before anything happened, or goes through. -/
abbrev Commits (server : Server) (Q : β → Prop) (p : Handler β) : Prop :=
  p.AllOrNothing (Request.answer server.rt) Inert Unanswered Q JsError.IsDomain

/-! ### What goes through -/

theorem goesThrough_emit {audience : Audience} {message : Message} (h : message.isAnswer = false) :
    GoesThrough server (fun _ => True) (emit audience message) :=
  Completes.send h

theorem goesThrough_effect (e : Effect) : GoesThrough server (fun _ => True) (effect e) :=
  Completes.ask fun _ => ⟨trivial, trivial⟩

theorem goesThrough_stop : GoesThrough server (fun _ => True) (WordRaceScheduler.stop roomCode) :=
  (goesThrough_effect _).seq fun _ => Completes.ask fun _ => ⟨trivial, trivial⟩

theorem goesThrough_publishRoom : GoesThrough server (fun _ => True) (publishRoom room) :=
  (goesThrough_emit rfl).seq fun _ => goesThrough_effect _

theorem goesThrough_announceBattleStarted :
    GoesThrough server (fun _ => True) (announceBattleStarted room) :=
  (goesThrough_emit rfl).seq fun _ => goesThrough_publishRoom.seq fun _ =>
    (goesThrough_effect _).seq fun _ => Completes.seq (Completes.ask fun _ => ⟨trivial, trivial⟩)
      fun _ => goesThrough_effect _

theorem goesThrough_announceBattleFinished :
    GoesThrough server (fun _ => True) (announceBattleFinished room) :=
  goesThrough_publishRoom.seq fun _ => (goesThrough_emit rfl).seq fun _ =>
    (goesThrough_effect _).seq fun _ => goesThrough_stop

theorem goesThrough_announceLeave {left : JoinRoom.LeaveRoomOutput} :
    GoesThrough server (fun _ => True) (announceLeave roomCode left) := by
  unfold announceLeave
  cases left.room with
  | none => exact (goesThrough_effect _).seq fun _ => goesThrough_stop
  | some room =>
    refine (Completes.forEach fun voterId _ => goesThrough_emit rfl).seq fun _ => ?_
    split_ifs
    · exact goesThrough_announceBattleFinished
    · exact goesThrough_publishRoom.seq fun _ => goesThrough_stop
    · exact goesThrough_publishRoom.seq fun _ => Completes.pure trivial

theorem goesThrough_unbindPlayer {beforeUnbind : ℕ → Handler Unit}
    (h : ∀ socket, GoesThrough server (fun _ => True) (beforeUnbind socket)) :
    GoesThrough server (fun _ => True) (unbindPlayer roomCode playerId beforeUnbind) := by
  refine Completes.seq (Completes.ask fun _ => ⟨trivial, trivial⟩) fun sockets => ?_
  exact Completes.forEach fun socket _ => (h socket).seq fun _ => goesThrough_effect _

/-! ### What may still be refused -/

section Requests

variable {op : RoomOp} {form : Reply → Option β} {code : JsString} {slot : Option Room}
  {reply : Reply}

/-- A use case is called: it refuses and stores nothing, or its reply has the form that the handler
expects. -/
theorem commits_update (hop : op.Accepted server.rt)
    (hform : ∀ slot reply, (op.step server.rt roomCode slot).2 = .ok reply →
      (form reply).isSome) : Commits server (fun _ => True) (update roomCode op form) := by
  refine AllOrNothing.ask fun s => ?_
  cases hreturned : (s.stores.rooms.call roomCode op).2 with
  | error error =>
    refine Or.inl ⟨?_, ?_⟩
    · show { s.stores with rooms := (s.stores.rooms.call roomCode op).1 } = s.stores
      rw [RoomStore.call_of_error hreturned]
    · show Commits server _ (Program.ofExcept (s.stores.rooms.call roomCode op).2 >>= _)
      rw [hreturned]
      exact RoomOp.onlyRefuses hop _ error hreturned
  | ok reply =>
    obtain ⟨value, hvalue⟩ := Option.isSome_iff_exists.mp (hform _ reply hreturned)
    refine Or.inr ⟨trivial, ?_⟩
    show GoesThrough server _ (Program.ofExcept (s.stores.rooms.call roomCode op).2 >>= _)
    rw [hreturned]
    simp only [Bind.bind, Program.ofExcept, Program.bind, Program.andThen]
    rw [hvalue]
    exact Completes.pure trivial

/-- The use case returns the stored room, and nothing else. -/
def returnsRoom : RoomOp → Bool
  | .kick .. | .selectRole .. | .setReady .. | .startChallenge .. | .startBattle ..
  | .awardWordBonus .. => true
  | _ => false

theorem isSome_roomForm {rt : Runtime} (hop : returnsRoom op)
    (h : (op.step rt code slot).2 = .ok reply) : (roomForm reply).isSome := by
  cases op <;> cases hop
  all_goals
    obtain ⟨returned, -, rfl⟩ := RoomOp.executed_of_reply h
    rfl

theorem commits_roomForm (hop : op.Accepted server.rt) (hroom : returnsRoom op) :
    Commits server (fun _ => True) (update roomCode op roomForm) :=
  commits_update hop fun _ _ => isSome_roomForm hroom

end Requests

theorem commits_leaveRoom :
    Commits server (fun _ => True) (leaveRoom roomCode playerId) := by
  refine AllOrNothing.look (fun _ => trivial) fun reading => ?_
  refine (commits_update (.of_plain rfl) fun slot reply hreply => ?_).bind fun left _ => ?_
  · obtain ⟨returned, -, rfl⟩ := RoomOp.executed_of_reply hreply
    rfl
  · refine (goesThrough_effect _).seq fun _ => ?_
    refine (goesThrough_unbindPlayer fun _ => Completes.pure trivial).seq fun _ => ?_
    exact goesThrough_announceLeave.seq fun _ => Completes.pure trivial

theorem commits_asOwnSeat {identity : String} {act : JsString → Handler Ack}
    (h : ∀ roomCode, Commits server (fun _ => True) (act roomCode)) :
    Commits server (fun _ => True) (asOwnSeat server socket payload identity act) := by
  refine AllOrNothing.ofExcept (fun error herror => ?_) fun roomCode _ => h roomCode
  unfold requireOwnSeat at herror
  split at herror
  · cases herror
  · exact ⟨_, _, (Except.error.inj herror).symm⟩

/-! ### The handlers -/

theorem commits_roleSelect : Commits server (fun _ => True) (roleSelect server socket payload) := by
  refine commits_asOwnSeat fun roomCode => ?_
  refine (commits_roomForm (.of_plain rfl) rfl).bind fun room _ => ?_
  exact goesThrough_publishRoom.seq fun _ => Completes.pure trivial

theorem commits_playerReady :
    Commits server (fun _ => True) (playerReady server socket payload) := by
  refine commits_asOwnSeat fun roomCode => ?_
  refine (commits_roomForm (.of_plain rfl) rfl).bind fun room _ => ?_
  exact goesThrough_publishRoom.seq fun _ => Completes.pure trivial

theorem commits_roomLeave : Commits server (fun _ => True) (roomLeave server socket payload) :=
  commits_asOwnSeat fun _ => commits_leaveRoom.bind fun _ _ => Completes.pure trivial

theorem commits_playerKick : Commits server (fun _ => True) (playerKick server socket payload) := by
  refine commits_asOwnSeat fun roomCode => AllOrNothing.look (fun _ => trivial) fun reading => ?_
  refine (commits_roomForm (.of_plain rfl) rfl).bind fun room _ => ?_
  refine (goesThrough_effect _).seq fun _ => ?_
  refine (goesThrough_unbindPlayer fun _ => goesThrough_emit rfl).seq fun _ => ?_
  exact goesThrough_publishRoom.seq fun _ => Completes.pure trivial

theorem commits_battleStart (henv : server.env.Valid) :
    Commits server (fun _ => True) (battleStart server socket payload) := by
  refine commits_asOwnSeat fun roomCode => AllOrNothing.look (fun _ => trivial) fun reading => ?_
  refine (commits_roomForm (henv.accepted_battle rfl) rfl).bind fun room _ => ?_
  exact goesThrough_announceBattleStarted.seq fun _ => Completes.pure trivial

theorem WordRaceService.onlyRefuses_judge {rt : Runtime} {round : WordRound}
    {participantIds : List JsString} {playerId text : JsString} {now : Instant} :
    OnlyRefuses (WordRaceService.judge rt round participantIds playerId text now) := by
  refine .guard fun _ => .guard fun _ => ?_
  split_ifs
  · exact .ok _
  · exact .ok _
  · exact .ok _

/-- A claim that is refused leaves the races as they are. -/
theorem inert_of_refused {rt : Runtime} {s : Surroundings rt} {roundId : JsString} {now : Instant}
    {round : Option WordRound}
    (h : (InMemoryWordRaceRepository.claimRound rt (s.stores.races (rt.toUpperCase roomCode))
      roundId playerId now).2 = .refused round) :
    Inert (.asked (.store (.claimRound roomCode roundId playerId now)) s) := by
  have hstored : (InMemoryWordRaceRepository.claimRound rt
      (s.stores.races (rt.toUpperCase roomCode)) roundId playerId now).1 =
        s.stores.races (rt.toUpperCase roomCode) := by
    unfold InMemoryWordRaceRepository.claimRound at h ⊢
    split at h
    next hslot => exact hslot.symm
    next race hslot =>
      split at h
      next => exact hslot.symm
      next =>
        split_ifs at h ⊢ with hopen
        exact hslot.symm
  have hraces : Function.update s.stores.races (rt.toUpperCase roomCode)
      (InMemoryWordRaceRepository.claimRound rt (s.stores.races (rt.toUpperCase roomCode))
        roundId playerId now).1 = s.stores.races := by
    rw [hstored, Function.update_eq_self]
  exact congrArg (fun races => ({ s.stores with races } : Stores rt)) hraces

/-- A word is refused before its claim, or because the round that it claims is gone. -/
theorem commits_submitWord {input : SubmitWordInput} :
    Commits server (fun _ => True) (submitWord server input) := by
  unfold submitWord
  split
  · refine AllOrNothing.look (fun _ => rfl) fun found => ?_
    split
    · exact AllOrNothing.throw ⟨_, _, rfl⟩
    · split
      · exact AllOrNothing.throw ⟨_, _, rfl⟩
      next round _ =>
        refine AllOrNothing.look (fun _ => trivial) fun reading => ?_
        refine AllOrNothing.ofExcept (fun error herror => ?_) fun verdict _ => ?_
        · exact WordRaceService.onlyRefuses_judge error herror
        cases verdict with
        | incorrect | expired => exact AllOrNothing.pure trivial
        | correct =>
          refine AllOrNothing.ask fun s => ?_
          generalize hclaim : Request.answer server.rt _ s = claim
          cases claim with
          | claimed won =>
            refine Or.inr ⟨trivial, ?_⟩
            exact Completes.seq (Completes.ask fun _ => ⟨trivial, trivial⟩) fun _ =>
              Completes.pure trivial
          | refused round =>
            refine Or.inl ⟨inert_of_refused hclaim, ?_⟩
            cases round with
            | none => exact AllOrNothing.throw ⟨_, _, rfl⟩
            | some round => exact AllOrNothing.pure trivial
  · exact AllOrNothing.throw ⟨_, _, rfl⟩

/-- The bonus is paid or not, and what it throws is caught. -/
theorem goesThrough_awardWordBonus :
    GoesThrough server (fun _ => True) (awardWordBonus roomCode playerId) := by
  refine Completes.attempt ?_ fun _ => Completes.pure trivial
  refine Meets.seq ?_ fun room => Meets.pure trivial
  refine Meets.seq (Meets.ask fun _ => ⟨trivial, trivial⟩) fun returned => ?_
  refine Meets.seq (Meets.ofExcept fun _ _ => trivial) fun reply => ?_
  cases roomForm reply with
  | none => exact Meets.throw _
  | some room => exact Meets.pure trivial

theorem commits_wordSubmit : Commits server (fun _ => True) (wordSubmit server socket payload) := by
  refine commits_asOwnSeat fun roomCode => commits_submitWord.bind fun result _ => ?_
  split_ifs
  · refine goesThrough_awardWordBonus.seq fun bonus => (goesThrough_emit rfl).seq fun _ => ?_
    cases bonus with
    | none => exact Completes.pure trivial
    | some room => exact goesThrough_publishRoom.seq fun _ => Completes.pure trivial
  · exact Completes.pure trivial

theorem commits_songChallengeStart (henv : server.env.Valid) :
    Commits server (fun _ => True) (songChallengeStart server socket payload) := by
  refine commits_asOwnSeat fun roomCode => AllOrNothing.look (fun _ => trivial) fun reading => ?_
  refine (commits_roomForm henv.accepted_challenge rfl).bind fun room _ => ?_
  exact goesThrough_publishRoom.seq fun _ => Completes.pure trivial

theorem commits_songChallengeSubmit :
    Commits server (fun _ => True) (songChallengeSubmit server socket payload) := by
  refine commits_asOwnSeat fun roomCode => AllOrNothing.look (fun _ => trivial) fun reading => ?_
  refine (commits_update (.of_plain rfl) fun slot reply hreply => ?_).bind fun submitted _ => ?_
  · revert hreply
    generalize (payload.withRoomCode roomCode).field "text" = text
    intro hreply
    cases text with
    | string text =>
      obtain ⟨returned, -, rfl⟩ := RoomOp.executed_of_reply hreply
      rfl
    | _ => cases hreply
  · exact goesThrough_publishRoom.seq fun _ => Completes.pure trivial

/-- An id that is no text is refused by the room, the chooser or the options. -/
theorem isDomain_unlistedError {slot : Option Room} {printed : JsString} :
    (unlistedError slot roomCode playerId printed).IsDomain := by
  unfold unlistedError
  split
  · exact ⟨_, _, rfl⟩
  · split
    · exact ⟨_, _, rfl⟩
    · split_ifs
      · exact ⟨_, _, rfl⟩
      · exact ⟨_, _, rfl⟩
      · exact ⟨_, _, rfl⟩

theorem commits_chooseSong (henv : server.env.Valid) {songId : JsValue} :
    Commits server (fun _ => True) (chooseSong server roomCode playerId songId) := by
  unfold chooseSong
  cases songId.string? with
  | some songId =>
    refine AllOrNothing.look (fun _ => trivial) fun reading => ?_
    refine commits_update (henv.accepted_battle rfl) fun slot reply hreply => ?_
    obtain ⟨returned, -, rfl⟩ := RoomOp.executed_of_reply hreply
    rfl
  | none => exact AllOrNothing.ask fun s => Or.inl ⟨rfl, isDomain_unlistedError⟩

theorem commits_songChoose (henv : server.env.Valid) :
    Commits server (fun _ => True) (songChoose server socket payload) := by
  refine commits_asOwnSeat fun roomCode => (commits_chooseSong henv).bind fun chosen _ => ?_
  dsimp only
  split_ifs
  · exact goesThrough_announceBattleStarted.seq fun _ => Completes.pure trivial
  · exact goesThrough_publishRoom.seq fun _ => Completes.pure trivial

theorem commits_sendChatMessage {content : JsValue} :
    Commits server (fun _ => True) (sendChatMessage roomCode playerId content) := by
  refine AllOrNothing.look (fun _ => rfl) fun found => ?_
  split
  · exact AllOrNothing.throw ⟨_, _, rfl⟩
  · split
    · exact AllOrNothing.throw ⟨_, _, rfl⟩
    · split
      · exact AllOrNothing.throw ⟨_, _, rfl⟩
      · dsimp only
        split_ifs
        · exact AllOrNothing.throw ⟨_, _, rfl⟩
        · exact AllOrNothing.look (fun _ => trivial) fun _ => AllOrNothing.pure trivial

theorem commits_chatMessage :
    Commits server (fun _ => True) (chatMessage server socket payload) := by
  refine commits_asOwnSeat fun roomCode => commits_sendChatMessage.bind fun message _ => ?_
  exact (goesThrough_emit rfl).seq fun _ => Completes.pure trivial

theorem commits_voteCast : Commits server (fun _ => True) (voteCast server socket payload) := by
  refine commits_asOwnSeat fun roomCode => AllOrNothing.look (fun _ => trivial) fun reading => ?_
  refine (commits_update (.of_plain rfl) fun slot reply hreply => ?_).bind fun result _ => ?_
  · obtain ⟨returned, -, rfl⟩ := RoomOp.executed_of_reply hreply
    rfl
  · have htold : GoesThrough server (fun _ => True) (do
        emitVoteMine result.room.code (payload.text "voterId") result.dancerId
        return Ack.vote result.dancerId) :=
      (goesThrough_emit rfl).seq fun _ => Completes.pure trivial
    split_ifs
    · exact goesThrough_publishRoom.seq fun _ => htold
    · exact htold

theorem commits_roomRematch :
    Commits server (fun _ => True) (roomRematch server socket payload) := by
  refine commits_asOwnSeat fun roomCode => ?_
  refine (commits_update (.of_plain rfl) fun slot reply hreply => ?_).bind fun rematched _ => ?_
  · obtain ⟨returned, -, rfl⟩ := RoomOp.executed_of_reply hreply
    rfl
  · refine goesThrough_stop.seq fun _ => goesThrough_publishRoom.seq fun _ => ?_
    exact (Completes.forEach fun _ _ => goesThrough_emit rfl).seq fun _ => Completes.pure trivial

theorem commits_webrtcReady :
    Commits server (fun _ => True) (webrtcReady server socket payload) := by
  refine commits_asOwnSeat fun roomCode => AllOrNothing.of_completes ?_
  exact (goesThrough_emit rfl).seq fun _ => Completes.pure trivial

theorem onlyRefuses_requireValidSignal : OnlyRefuses (requireValidSignal payload) := by
  unfold requireValidSignal
  split
  · refine .guard fun _ => ?_
    by_cases hdescription : (payload.field "description").isObject
    · rw [if_pos hdescription]
      split
      · exact .ok _
      · exact .domain
    · rw [if_neg hdescription]
      exact .ok _
  · exact .domain

theorem commits_webrtcSignal :
    Commits server (fun _ => True) (webrtcSignal server socket payload) := by
  refine commits_asOwnSeat fun roomCode => ?_
  refine AllOrNothing.ofExcept onlyRefuses_requireValidSignal fun signal _ => ?_
  refine AllOrNothing.look (fun _ => trivial) fun roomSockets => ?_
  split_ifs
  · exact AllOrNothing.of_completes ((goesThrough_emit rfl).seq fun _ => Completes.pure trivial)
  · exact AllOrNothing.throw ⟨_, _, rfl⟩

/-- Every handler refuses with a domain error before anything happened, or goes through. -/
theorem ClientEvent.commits (henv : server.env.Valid) (event : ClientEvent) :
    Commits server (fun _ => True) (event.handler server socket payload) := by
  cases event with
  | roleSelect => exact commits_roleSelect
  | playerReady => exact commits_playerReady
  | roomLeave => exact commits_roomLeave
  | playerKick => exact commits_playerKick
  | battleStart => exact commits_battleStart henv
  | wordSubmit => exact commits_wordSubmit
  | songChallengeStart => exact commits_songChallengeStart henv
  | songChallengeSubmit => exact commits_songChallengeSubmit
  | songChoose => exact commits_songChoose henv
  | chatMessage => exact commits_chatMessage
  | voteCast => exact commits_voteCast
  | roomRematch => exact commits_roomRematch
  | webrtcReady => exact commits_webrtcReady
  | webrtcSignal => exact commits_webrtcSignal

/-- What the client of an event is told. -/
inductive Told {rt : Runtime} (ack : Bool)
    (work : List (Program.Entry Request (Surroundings rt) Sent)) :
    List (Program.Entry Request (Surroundings rt) Sent) → Prop
  | acked (data : Ack) (hack : ack = true) : Told ack work [.sent ⟨.sender, .acked data⟩]
  | silent (hack : ack = false) : Told ack work []
  | refused (code : DomainErrorCode) (message : JsString) (hinert : ∀ entry ∈ work, Inert entry) :
      Told ack work [.sent ⟨.sender, .failed (.domain code message)⟩]

/-- Nobody is told anything. -/
def Silent {rt : Runtime} : Program.Entry Request (Surroundings rt) Sent → Prop
  | .asked _ _ => True
  | .sent _ => False

/-- The word race of a battle is planned, or what fails is logged. -/
theorem completes_planned {found : Option Room} :
    (WordRaceScheduler.planned server roomCode found).Completes (Request.answer server.rt) Silent
      fun _ => True := by
  have hask (r : Request) : (ask r).Meets (Request.answer server.rt) Silent
      (Program.Returns fun _ => True) := Meets.ask fun _ => ⟨trivial, trivial⟩
  refine Completes.attempt (Meets.seq ?_ fun race => hask _) fun _ => Completes.pure trivial
  cases found with
  | none => exact Meets.throw _
  | some room =>
    refine (hask _).seq fun reading => (Meets.ofExcept fun _ _ => trivial).seq fun race => ?_
    exact (hask _).seq fun _ => Meets.pure trivial

/-- What a handler leaves running ends by itself. -/
theorem completes_forked {entry : Program.Entry Request (Surroundings server.rt) Sent} :
    ∀ p ∈ forked server entry, p.Completes (Request.answer server.rt) Silent fun _ => True := by
  intro p hp
  cases entry with
  | sent => cases hp
  | asked r s =>
    cases r with
    | effect e =>
      cases e with
      | planRace roomCode found =>
        obtain rfl := List.mem_singleton.mp hp
        exact completes_planned
      | _ => cases hp
    | _ => cases hp

/-- Bob has won the song challenge, and it is 3000. -/
def sampleChoosing : Surroundings .ascii where
  stores := {
    rooms := {
      room := fun key => if key = js "ROOM22" then
        (roomMachine .ascii (js "ROOM22")).run none sampleLobby else none
      code_eq := by
        have hcode : ((roomMachine .ascii (js "ROOM22")).run none sampleLobby).map (·.code) =
            some (js "ROOM22") := by decide +kernel
        intro key stored hstored
        split_ifs at hstored with hkey
        rw [hstored, Option.map_some, Option.some.injEq] at hcode
        rw [hcode, hkey]
        decide }
    races := fun _ => none }
  reading := { now := 3000, random := fun _ => .first, uuid := js "b1" }
  channel _ := []
  bound _ := []

end SocketEvents

end DanceSync
