import DanceSync.Handlers.Publishing
import DanceSync.Lifecycle.Battles
import DanceSync.Lifecycle.Votes

/-!
# The last vote a voter is told

A change of a vote is told to the voter by the handler that made it, from its own snapshot: the vote
itself, or `null` for a vote that a departure or a rematch discarded. The message has no version, so
a discard that is told after a newer vote leaves the voter with the wrong one. As long as no handler
overtakes another in telling the same voter, the last message is the stored vote.

A voter who is called like an inherited property may not be told of a discard at all.

## Main definitions

* `Room.storedVote`: the vote that a room holds for a voter.
* `Publishing.Task.voteMine?`: what a task will tell a voter, and of which version.
* `Publishing.InOrder`: the condition on a turn.
* `Publishing.Telling`: the newest message under way, or the last one sent, is the stored vote.

## Main results

* `Publishing.told_of_reply`: what a call announces to a voter.
* `Publishing.Telling.turned`.
* `Publishing.discard_overtaken`, `Publishing.last_vote_mine_is_stored`.
-/

namespace DanceSync

/-- The vote that the room holds for a voter, `.absent` when none. -/
def Room.storedVote (room : Room) (voterId : JsString) : Lookup JsString :=
  match (JoinRoom.votesOf room).own? voterId with
  | some dancerId => .own dancerId
  | none => .absent

variable {rt : Runtime} {code voterId : JsString} {room next : Room} {op : RoomOp}

/-! ### Stored votes -/

theorem storedVote_congr (h : next.battle = room.battle) :
    next.storedVote voterId = room.storedVote voterId := by
  simp only [Room.storedVote, JoinRoom.votesOf, h]

theorem storedVote_of_none (h : room.battle = none) : room.storedVote voterId = .absent := by
  simp [Room.storedVote, JoinRoom.votesOf, h]

theorem storedVote_of_battle {battle : Battle} (h : room.battle = some battle) :
    room.storedVote voterId = match battle.votes.own? voterId with
      | some dancerId => .own dancerId
      | none => .absent := by
  simp [Room.storedVote, JoinRoom.votesOf, h]

/-- What a spectator is told after a vote. -/
theorem voteOf_eq_storedVote (hplain : rt.proto.inherited voterId = false) :
    RoomService.voteOf rt room voterId = room.storedVote voterId := by
  unfold RoomService.voteOf
  cases hbattle : room.battle with
  | none => exact (storedVote_of_none hbattle).symm
  | some battle =>
    rw [storedVote_of_battle hbattle]
    cases hown : battle.votes.own? voterId with
    | some dancerId => exact Record.get_of_own hown
    | none => exact Record.get_eq_absent_iff.mpr ⟨hown, hplain⟩

/-- The start of a battle leaves nobody with a vote. -/
theorem storedVote_of_started {source : Room} {options : StartBattleOptions}
    (h : RoomService.Started source options next) : next.storedVote voterId = .absent := by
  obtain ⟨selected, song⟩ := h
  simp [Room.storedVote, JoinRoom.votesOf, RoomService.battling]

/-- Only votes, departures and rematches change a vote. -/
theorem storedVote_of_change (hinv : RoomInvariant rt room) (hchange : Change rt room op next)
    (hvote : ∀ voterId dancerId now, op ≠ .castVote voterId dancerId now)
    (hleave : ∀ playerId random now, op ≠ .leave playerId random now)
    (hrematch : ∀ requesterId, op ≠ .rematch requesterId) :
    next.storedVote voterId = room.storedVote voterId := by
  have hstart : ∀ {chosen : Room} {options : StartBattleOptions},
      (next = chosen ∨ RoomService.Started chosen options next) → chosen.battle = room.battle →
      chosen.status = room.status → next.storedVote voterId = room.storedVote voterId := by
    rintro chosen options (rfl | hstarted) hbattle hstatus
    · exact storedVote_congr hbattle
    · rw [storedVote_of_started hstarted,
        storedVote_of_none (hinv.waiting (hstatus ▸ hstarted.waiting)).1]
  cases hchange with
  | left => exact absurd rfl (hleave _ _ _)
  | voted => exact absurd rfl (hvote _ _ _)
  | rematched => exact absurd rfl (hrematch _)
  | kicked hstatus _ hdeparted =>
    obtain ⟨hseated, hsettled, hpassed⟩ := hdeparted
    obtain ⟨songSelection, rfl⟩ := hpassed.exists_eq
    cases hsettled with
    | idle => exact storedVote_congr rfl
    | continuing battle hbattling | ended battle hbattling => simp [hstatus] at hbattling
  | submitted outcome hsubmitted =>
    cases hsubmitted with
    | expired _ _ _ _ _ _ hfallback | allMisspelled _ _ _ _ _ _ _ _ _ hfallback =>
      obtain ⟨songSelection, rfl⟩ := hfallback.exists_eq
      exact storedVote_congr rfl
    | accepted | misspelled => exact storedVote_congr rfl
  | expired selection _ _ _ hfallback =>
    obtain ⟨songSelection, rfl⟩ := hfallback.exists_eq
    exact storedVote_congr rfl
  | songChosen hchosen hnext =>
    cases hchosen
    exact hstart hnext rfl rfl
  | songPicked hpicked hnext => cases hpicked <;> exact hstart hnext rfl rfl
  | battleStarted hstarted => exact hstart (Or.inr hstarted) rfl rfl
  | awarded battle _ hbattle =>
    have hnext : ∀ (r : Room) (b : Battle), r.battle = some b → b.votes = battle.votes →
        r.storedVote voterId = room.storedVote voterId := fun r b hr hvotes => by
      rw [storedVote_of_battle hbattle, storedVote_of_battle hr, hvotes]
    exact hnext _ _ rfl rfl
  | finished battle _ hbattle =>
    rw [storedVote_of_battle hbattle]
    rfl
  | _ => exact storedVote_congr rfl

namespace Publishing

/-! ### Messages to a voter -/

/-- The message a task will send a voter, with the version of the room it is from. -/
def Task.voteMine? (voterId : JsString) : Task → Option (ℕ × Lookup JsString)
  | .announceVote room voter dancerId _ =>
    if voter = voterId then some (room.version, dancerId) else none
  | .announceLeave left _ => left.room.bind fun room =>
    if voterId ∈ left.discardedVoterIds then some (room.version, .absent) else none
  | .announceRematch room clearedVoterIds =>
    if voterId ∈ clearedVoterIds then some (room.version, .absent) else none
  | _ => none

/-- The vote that a message tells a voter. -/
def Sent.mine? (voterId : JsString) : Sent → Option (Lookup JsString)
  | .voteMine voter _ dancerId => if voter = voterId then some dancerId else none
  | _ => none

/-- The last vote that a voter was told. -/
def lastMine? (voterId : JsString) (log : List Sent) : Option (Lookup JsString) :=
  (log.filterMap (Sent.mine? voterId)).getLast?

/-- A voter has a seat in the stored room. -/
def Seated (voterId : JsString) (slot : Option Room) : Prop :=
  ∃ room ∈ slot, voterId ∈ room.playerIds

instance (voterId : JsString) (slot : Option Room) : Decidable (Seated voterId slot) :=
  inferInstanceAs (Decidable (∃ room ∈ slot, voterId ∈ room.playerIds))

/-- A turn that sends a voter a message leaves no older one to them behind. -/
def InOrder (voterId : JsString) (w : World State Task Sent) (turn : Turn Env Task) : Prop :=
  ∀ t ∈ turn.task? w, ∀ sent ∈ t.voteMine? voterId,
    ∀ u ∈ w.tasks, ∀ pending ∈ u.voteMine? voterId, sent.1 ≤ pending.1

instance (voterId : JsString) (w : World State Task Sent) (turn : Turn Env Task) :
    Decidable (InOrder voterId w turn) :=
  inferInstanceAs (Decidable (∀ t ∈ turn.task? w, ∀ sent ∈ t.voteMine? voterId,
    ∀ u ∈ w.tasks, ∀ pending ∈ u.voteMine? voterId, sent.1 ≤ pending.1))

/-- What a call that stored `next` over `room` announces to a voter: nothing but their vote in
`next`, and that one if it changed. -/
structure Told (voterId : JsString) (room next : Room) (tasks : List Task) : Prop where
  said : ∀ t ∈ tasks, ∀ message ∈ t.voteMine? voterId,
    message = (next.version, next.storedVote voterId)
  told : next.storedVote voterId ≠ room.storedVote voterId →
    ∃ t ∈ tasks, t.voteMine? voterId = some (next.version, next.storedVote voterId)

/-- The newest message to a voter is on its way, or was the last one sent. -/
def Telling (voterId : JsString) (room : Room) (tasks : List Task) (log : List Sent) : Prop :=
  (∃ t ∈ tasks, ∃ version, t.voteMine? voterId = some (version, room.storedVote voterId) ∧
    ∀ u ∈ tasks, ∀ message ∈ u.voteMine? voterId,
      version ≤ message.1 → message.2 = room.storedVote voterId) ∨
  ((∀ u ∈ tasks, ∀ message ∈ u.voteMine? voterId, message.2 = room.storedVote voterId) ∧
    lastMine? voterId log = some (room.storedVote voterId))

variable {env : Env} {s : State} {t : Task} {reply : Reply} {tasks rest : List Task}
  {log emitted : List Sent}

/-! ### What a call announces -/

theorem told_of_quiet (hquiet : ∀ t ∈ tasks, t.voteMine? voterId = none)
    (hsame : next.storedVote voterId = room.storedVote voterId) :
    Told voterId room next tasks where
  said t ht := by simp [hquiet t ht]
  told hne := absurd hsame hne

/-- Other calls send no voter a message. -/
theorem voteMine?_announcements
    (hvote : ∀ voterId dancerId now, op ≠ .castVote voterId dancerId now)
    (hleave : ∀ playerId random now, op ≠ .leave playerId random now)
    (hrematch : ∀ requesterId, op ≠ .rematch requesterId)
    (hreply : (op.step rt code (some room)).2 = .ok reply) :
    ∀ t ∈ announcements op reply, t.voteMine? voterId = none := by
  cases op with
  | castVote => exact absurd rfl (hvote _ _ _)
  | leave => exact absurd rfl (hleave _ _ _)
  | rematch => exact absurd rfl (hrematch _)
  | create => simp [announcements]
  | join =>
    obtain ⟨r, -, htasks⟩ := published_join hreply
    simp [htasks, Task.voteMine?]
  | submitPhrase playerId text =>
    cases text with
    | string text =>
      obtain ⟨returned, -, rfl⟩ := RoomOp.executed_of_reply hreply
      simp [announcements, Task.voteMine?]
    | _ =>
      simp [RoomOp.step, RoomOp.runChecked, SubmitSongPhrase.execute, JsValue.string?] at hreply
  | autoPick | finishAtDeadline =>
    obtain ⟨returned, -, rfl⟩ := RoomOp.executed_of_reply hreply
    unfold announcements
    split <;> try split_ifs
    all_goals simp_all [Task.voteMine?]
  | _ =>
    obtain ⟨returned, -, rfl⟩ := RoomOp.executed_of_reply hreply
    simp [announcements, Task.voteMine?]

/-- Messages are from the version that their call stored. -/
theorem version_of_announced (hnext : (op.step rt code (some room)).1 = some next)
    (hreply : (op.step rt code (some room)).2 = .ok reply) :
    ∀ t ∈ announcements op reply, ∀ message ∈ t.voteMine? voterId, message.1 = next.version := by
  cases op with
  | castVote | rematch =>
    obtain ⟨stored, flags, hstored, rfl⟩ := exists_stored_of_reply rfl (fun _ => rfl) hreply
    obtain rfl : next = stored := Option.some.inj (hnext.symm.trans hstored)
    simp only [announcements, List.mem_singleton, forall_eq, Task.voteMine?]
    intro message hmessage
    split_ifs at hmessage
    · rw [← Option.some.inj hmessage]
    · simp at hmessage
  | leave =>
    obtain ⟨r, updated, -, -, hslot, rfl⟩ := left_of_reply hreply
    simp only [announcements, List.mem_singleton, forall_eq, Task.voteMine?, ← hslot, hnext,
      Option.bind_some]
    intro message hmessage
    split_ifs at hmessage
    · rw [← Option.some.inj hmessage]
    · simp at hmessage
  | _ =>
    intro t ht message hmessage
    rw [voteMine?_announcements (by simp) (by simp) (by simp) hreply t ht] at hmessage
    simp at hmessage

/-- Other calls change no vote. -/
theorem told_of_other (hinv : RoomInvariant rt room)
    (hnext : (op.step rt code (some room)).1 = some next)
    (hreply : (op.step rt code (some room)).2 = .ok reply)
    (hvote : ∀ voterId dancerId now, op ≠ .castVote voterId dancerId now)
    (hleave : ∀ playerId random now, op ≠ .leave playerId random now)
    (hrematch : ∀ requesterId, op ≠ .rematch requesterId) :
    Told voterId room next (announcements op reply) := by
  refine told_of_quiet (voteMine?_announcements hvote hleave hrematch hreply) ?_
  have hstored := stored_step rt code (some room) op
  rw [hnext] at hstored
  cases hstored with
  | unchanged => rfl
  | @changed _ stored _ hchange =>
    have hsame : stored.storedVote voterId = room.storedVote voterId :=
      storedVote_of_change hinv hchange hvote hleave hrematch
    exact hsame

theorem told_castVote {voter : JsString} {dancerId : JsValue} {now : Instant}
    (hplain : rt.proto.inherited voterId = false)
    (hnext : ((RoomOp.castVote voter dancerId now).step rt code (some room)).1 = some next)
    (hreply : ((RoomOp.castVote voter dancerId now).step rt code (some room)).2 = .ok reply) :
    Told voterId room next (announcements (.castVote voter dancerId now) reply) := by
  obtain ⟨stored, flags, hstored, rfl⟩ := exists_stored_of_reply rfl (fun _ => rfl) hreply
  obtain rfl : next = stored := Option.some.inj (hnext.symm.trans hstored)
  by_cases hvoter : voter = voterId
  · subst hvoter
    have hmine : Task.voteMine? voter (.announceVote next voter
        (RoomService.voteOf rt next voter) flags) = some (next.version, next.storedVote voter) := by
      simp [Task.voteMine?, voteOf_eq_storedVote hplain]
    exact ⟨by simp [announcements, hmine], fun _ => ⟨_, List.mem_singleton_self _, hmine⟩⟩
  · refine told_of_quiet (by simp [announcements, Task.voteMine?, hvoter]) ?_
    obtain ⟨r, battle, wanted, hr, -, hbattle, -, -, -, -, -, hslot⟩ := voted_of_reply hreply
    obtain rfl := Option.some.inj hr
    rw [hnext] at hslot
    obtain rfl := Option.some.inj hslot
    split_ifs
    · rfl
    · have hown : (RoomService.votesAfter rt battle.votes voter wanted).own? voterId =
          battle.votes.own? voterId := by
        cases wanted with
        | none => rw [RoomService.votesAfter, Record.own?_erase, if_neg (Ne.symm hvoter)]
        | some dancer => exact Record.own?_assign_of_ne rt.proto _ dancer (Ne.symm hvoter)
      have hnext : ∀ r : Room, r.battle = some { battle with
          votes := RoomService.votesAfter rt battle.votes voter wanted } →
          r.storedVote voterId = room.storedVote voterId := fun r hr => by
        rw [storedVote_of_battle hbattle, storedVote_of_battle hr, hown]
      exact hnext _ rfl

/-- A departure keeps a vote or discards it. -/
theorem own?_votesOf_departed {playerId : JsString} {now : Instant}
    (h : RoomService.Departed rt room playerId now next) :
    (JoinRoom.votesOf next).own? voterId = (JoinRoom.votesOf room).own? voterId ∨
      (JoinRoom.votesOf next).own? voterId = none := by
  obtain ⟨hseated, hsettled, hpassed⟩ := h
  obtain ⟨songSelection, rfl⟩ := hpassed.exists_eq
  have hbattle : ∀ battle : Battle, room.battle = some battle →
      (RoomService.withoutPlayer battle playerId).votes.own? voterId =
        (JoinRoom.votesOf room).own? voterId ∨
      (RoomService.withoutPlayer battle playerId).votes.own? voterId = none := by
    intro battle hbattle
    rw [own?_withoutPlayer, JoinRoom.votesOf, hbattle, Option.map_some, Option.getD_some,
      Ballot.apply]
    by_cases hid : voterId = playerId
    · exact Or.inr (if_pos hid)
    · simp only [if_neg hid]
      cases hown : battle.votes.own? voterId with
      | none => exact Or.inl rfl
      | some dancerId => by_cases hdancer : dancerId = playerId <;> simp [Option.filter, hdancer]
  cases hsettled with
  | idle => exact Or.inl rfl
  | continuing battle _ hb => exact hbattle battle hb
  | ended battle _ hb => exact hbattle battle hb

theorem told_leave {playerId : JsString} {random : RandomIndex} {now : Instant}
    (hplain : rt.proto.inherited voterId = false) (hseated : voterId ∈ next.playerIds)
    (hnext : ((RoomOp.leave playerId random now).step rt code (some room)).1 = some next)
    (hreply : ((RoomOp.leave playerId random now).step rt code (some room)).2 = .ok reply) :
    Told voterId room next (announcements (.leave playerId random now) reply) := by
  obtain ⟨r, updated, hr, hdeparted, hslot, rfl⟩ := left_of_reply hreply
  obtain rfl := Option.some.inj hr
  rw [hnext] at hslot
  have hvotes : (JoinRoom.votesOf next).own? voterId = (JoinRoom.votesOf updated).own? voterId ∧
      next.players = updated.players := by
    unfold departedSlot at hslot
    split_ifs at hslot
    obtain rfl := Option.some.inj hslot
    exact ⟨rfl, rfl⟩
  have hmine : Task.voteMine? voterId (.announceLeave
      { room := departedSlot room updated
        battleFinished := room.status = .battling ∧ updated.status = .finished
        discardedVoterIds := JoinRoom.discardedVoterIds rt room updated playerId } none) =
      if voterId ∈ JoinRoom.discardedVoterIds rt room updated playerId then
        some (next.version, .absent) else none := by
    simp [Task.voteMine?, ← hslot]
  have hother : voterId ≠ playerId := by
    rw [Room.mem_playerIds, hvotes.2, hdeparted.players_eq] at hseated
    obtain ⟨p, hp, rfl⟩ := hseated
    simpa using (List.mem_filter.mp hp).2
  have hdiscarded : voterId ∈ JoinRoom.discardedVoterIds rt room updated playerId ↔
      (JoinRoom.votesOf room).own? voterId ≠ none ∧
        (JoinRoom.votesOf updated).own? voterId = none := by
    rw [JoinRoom.discardedVoterIds, List.mem_filter, ← Record.own?_isSome_iff,
      Option.isSome_iff_ne_none]
    simp [hother, Record.has, hplain]
  constructor
  · simp only [announcements, List.mem_singleton, forall_eq, hmine]
    intro message hmessage
    split_ifs at hmessage with hmem
    · obtain rfl := Option.some.inj hmessage
      simp [Room.storedVote, hvotes.1, (hdiscarded.mp hmem).2]
    · simp at hmessage
  · intro hchanged
    have hnone : (JoinRoom.votesOf updated).own? voterId = none := by
      refine (own?_votesOf_departed hdeparted).resolve_left fun hsame => hchanged ?_
      simp only [Room.storedVote, hvotes.1, hsame]
    have hmem := hdiscarded.mpr ⟨fun hroom => hchanged (by
      simp only [Room.storedVote, hvotes.1, hnone, hroom]), hnone⟩
    refine ⟨_, List.mem_singleton_self _, ?_⟩
    rw [hmine, if_pos hmem]
    simp [Room.storedVote, hvotes.1, hnone]

theorem told_rematch {requesterId : JsString} (hseated : voterId ∈ next.playerIds)
    (hnext : ((RoomOp.rematch requesterId).step rt code (some room)).1 = some next)
    (hreply : ((RoomOp.rematch requesterId).step rt code (some room)).2 = .ok reply) :
    Told voterId room next (announcements (.rematch requesterId) reply) := by
  obtain ⟨returned, hexecuted, rfl⟩ := RoomOp.executed_of_reply hreply
  cases hexecuted with
  | rescued e he => simp [StartRematch.execute] at he
  | same r flags hr hmutate | null r flags hr hmutate =>
    simp only [StartRematch.execute] at hmutate
    split at hmutate <;> simp at hmutate
  | room r stored flags hr hmutate hstored hreturned =>
    obtain rfl := Option.some.inj hr
    simp only [StartRematch.execute] at hmutate
    split at hmutate
    next => simp at hmutate
    next rematched hrematch =>
      simp only [Prod.mk.injEq, Except.ok.injEq, Mutated.room.injEq] at hmutate
      obtain ⟨rfl, rfl⟩ := hmutate
      obtain rfl := Except.ok.inj hreturned
      obtain rfl := Option.some.inj (hnext.symm.trans hstored)
      obtain ⟨-, -, rfl⟩ := RoomService.rematch_eq_ok hrematch
      have hnone : Room.storedVote
          { RoomService.rematched room with version := room.version + 1 } voterId = .absent :=
        storedVote_of_none rfl
      constructor
      · simp only [announcements, List.mem_singleton, forall_eq,
          Task.voteMine?, hnone]
        intro message hmessage
        split_ifs at hmessage
        · exact (Option.some.inj hmessage).symm
        · simp at hmessage
      · intro hchanged
        rw [hnone] at hchanged ⊢
        have hkey : voterId ∈ (JoinRoom.votesOf room).keys := by
          rw [← Record.own?_isSome_iff, Option.isSome_iff_ne_none]
          intro hown
          exact hchanged (by simp [Room.storedVote, hown])
        exact ⟨_, List.mem_singleton_self _, if_pos (List.mem_filter.mpr
          ⟨hkey, decide_eq_true hseated⟩)⟩

/-- What an answered call announces to a voter who keeps a seat. -/
theorem told_of_reply (hinv : RoomInvariant rt room) (hplain : rt.proto.inherited voterId = false)
    (hseated : voterId ∈ next.playerIds) (hnext : (op.step rt code (some room)).1 = some next)
    (hreply : (op.step rt code (some room)).2 = .ok reply) :
    Told voterId room next (announcements op reply) := by
  cases op with
  | castVote => exact told_castVote hplain hnext hreply
  | leave => exact told_leave hplain hseated hnext hreply
  | rematch => exact told_rematch hseated hnext hreply
  | _ => exact told_of_other hinv hnext hreply (by simp) (by simp) (by simp)

/-! ### One piece -/

/-- What a piece tells a voter: what its task was to tell, while the room stays, or nothing but what
it is going to. -/
structure Speaks (voterId : JsString) (room next : Room) (t : Task)
    (r : Resumed State Task Sent) : Prop where
  told : Told voterId room next r.tasks
  quiet : t.voteMine? voterId = none → ∀ o ∈ r.emitted, o.mine? voterId = none
  sent : ∀ message ∈ t.voteMine? voterId, next = room ∧
    (∃ o ∈ r.emitted, o.mine? voterId = some message.2) ∧
      ∀ o ∈ r.emitted, ∀ dancerId ∈ o.mine? voterId, dancerId = message.2

theorem Told.same (h : Told voterId room next tasks)
    (hquiet : ∀ t ∈ tasks, t.voteMine? voterId = none) :
    next.storedVote voterId = room.storedVote voterId := by
  by_contra hne
  obtain ⟨t, ht, hmine⟩ := h.told hne
  simp [hquiet t ht] at hmine

/-- A piece that sends nothing to the voter. -/
theorem speaks_of_told {r : Resumed State Task Sent} (h : Told voterId room next r.tasks)
    (ht : t.voteMine? voterId = none) (hquiet : ∀ o ∈ r.emitted, o.mine? voterId = none) :
    Speaks voterId room next t r :=
  ⟨h, fun _ => hquiet, by simp [ht]⟩

theorem mine?_thrown {e : JsError} : ∀ o ∈ thrown op e, o.mine? voterId = none := by
  unfold thrown
  split <;> simp [Sent.mine?]

theorem told_of_mine?_eq_none (hquiet : ∀ t ∈ tasks, t.voteMine? voterId = none) :
    Told voterId room room tasks :=
  told_of_quiet hquiet rfl

/-- The voters whose vote was discarded are told so, and nobody else. -/
theorem speaks_of_nulls {r : Resumed State Task Sent} {voters : List JsString}
    (htold : Told voterId room room r.tasks)
    (hemitted : ∀ o, o ∈ r.emitted ↔ o = .roomUpdated next ∨
      ∃ voter ∈ voters, o = .voteMine voter next.code .absent)
    (ht : t.voteMine? voterId = if voterId ∈ voters then some (next.version, .absent) else none) :
    Speaks voterId room room t r := by
  refine ⟨htold, fun hnone o ho => ?_, fun message hmessage => ?_⟩
  · rcases (hemitted o).mp ho with rfl | ⟨voter, hvoter, rfl⟩
    · rfl
    · refine if_neg ?_
      rintro rfl
      rw [ht, if_pos hvoter] at hnone
      simp at hnone
  · rw [ht] at hmessage
    split_ifs at hmessage with hvoter
    · obtain rfl := Option.some.inj hmessage
      refine ⟨rfl, ⟨_, (hemitted _).mpr (Or.inr ⟨voterId, hvoter, rfl⟩), if_pos rfl⟩,
        fun o ho dancerId hdancer => ?_⟩
      rcases (hemitted o).mp ho with rfl | ⟨voter, -, rfl⟩
      · simp [Sent.mine?] at hdancer
      · simp only [Sent.mine?] at hdancer
        split_ifs at hdancer
        · exact (Option.some.inj hdancer).symm
        · simp at hdancer
    · simp at hmessage

/-- A call that throws stores nothing. -/
theorem eq_of_error {e : JsError} (he : (op.step rt code (some room)).2 = .error e)
    (hnext : (op.step rt code (some room)).1 = some next) : next = room :=
  Option.some.inj (hnext.symm.trans ((answered rt code (some room) op).refused e he))

theorem resume_speaks (hinv : RoomInvariant rt room)
    (hplain : rt.proto.inherited voterId = false) (hseated : voterId ∈ next.playerIds)
    (hroom : s.room = some room) (hnext : (t.resume rt code env s).shared.room = some next) :
    Speaks voterId room next t (t.resume rt code env s) := by
  have hcalled : ∀ op, t.roomOp? env = some op → (op.step rt code (some room)).1 = some next := by
    intro op hop
    rwa [room_resume, hop, hroom] at hnext
  have hkept : t.roomOp? env = none → next = room := by
    intro hop
    rw [room_resume, hop, hroom] at hnext
    exact (Option.some.inj hnext).symm
  have htold : ∀ op reply, t.roomOp? env = some op → (op.step rt code (some room)).2 = .ok reply →
      Told voterId room next (announcements op reply) := fun op reply hop hreply =>
    told_of_reply hinv hplain hseated (hcalled op hop) hreply
  cases t with
  | call op =>
    cases hreply : (op.step rt code (some room)).2 with
    | error e =>
      obtain rfl := eq_of_error hreply (hcalled op rfl)
      simp only [Task.resume, Task.resumeCall, hroom, hreply]
      exact speaks_of_told (told_of_mine?_eq_none (by simp)) rfl mine?_thrown
    | ok reply =>
      simp only [Task.resume, Task.resumeCall, hroom, hreply]
      exact speaks_of_told (htold op reply rfl hreply) rfl (by simp)
  | fire kind =>
    obtain rfl := hkept rfl
    simp only [Task.resume]
    split <;> exact speaks_of_told (told_of_mine?_eq_none (by simp [Task.voteMine?])) rfl (by simp)
  | sweep =>
    obtain rfl := hkept rfl
    exact speaks_of_told (told_of_mine?_eq_none (by simp [Task.resume, Task.voteMine?])) rfl
      (by simp [Task.resume])
  | switch playerId displayName previousPlayer =>
    cases hreply : ((RoomOp.join playerId displayName).step rt code (some room)).2 with
    | error e =>
      obtain rfl := eq_of_error hreply (hcalled _ rfl)
      simp only [Task.resume, Task.resumeSwitch, hroom, hreply]
      exact speaks_of_told (told_of_mine?_eq_none (by simp)) rfl (by simp [Sent.mine?])
    | ok reply =>
      have htold := htold _ reply rfl hreply
      obtain ⟨r, -, htasks⟩ := published_join hreply
      simp only [Task.resume, Task.resumeSwitch, hroom, hreply]
      split
      · exact speaks_of_told htold rfl (by simp)
      · exact speaks_of_told (told_of_quiet (by simp [Task.voteMine?])
          (htold.same (by simp [htasks, Task.voteMine?]))) rfl (by simp)
  | leavePreviousBinding playerId displayName previousPlayer =>
    cases hreply : ((RoomOp.leave previousPlayer env.random env.options.now).step rt code
        (some room)).2 with
    | error e =>
      obtain rfl := eq_of_error hreply (hcalled _ rfl)
      simp only [Task.resume, Task.resumeLeavePreviousBinding, hroom, hreply]
      cases e <;> exact speaks_of_told (told_of_mine?_eq_none (by simp [Task.voteMine?])) rfl
        (by simp [Sent.mine?])
    | ok reply =>
      have htold := htold _ reply rfl hreply
      obtain ⟨r, updated, -, -, -, rfl⟩ := left_of_reply hreply
      simp only [Task.resume, Task.resumeLeavePreviousBinding, hroom, hreply]
      refine speaks_of_told ⟨?_, ?_⟩ rfl (by simp)
      · simpa [announcements, Task.voteMine?] using htold.said
      · simpa [announcements, Task.voteMine?] using htold.told
  | announceLeave left payload =>
    obtain rfl := hkept rfl
    simp only [Task.resume, Task.resumeAnnounceLeave]
    have hquiet : ∀ u ∈ payload.toList.map fun payload => Task.rejoin payload.1 payload.2,
        u.voteMine? voterId = none := by
      simp only [List.mem_map]
      rintro u ⟨p, -, rfl⟩
      rfl
    cases hleft : left.room with
    | none =>
      exact speaks_of_told (told_of_mine?_eq_none hquiet) (by simp [Task.voteMine?, hleft])
        (by simp)
    | some r =>
      refine speaks_of_nulls (told_of_mine?_eq_none hquiet) (fun o => ?_)
        (by simp only [Task.voteMine?, hleft, Option.bind_some]; rfl)
      simp only [List.mem_append, List.mem_map, List.mem_singleton, eq_comm (b := o)]
      exact or_comm
  | rejoin playerId displayName =>
    cases hreply : ((RoomOp.join playerId displayName).step rt code (some room)).2 with
    | error e =>
      obtain rfl := eq_of_error hreply (hcalled _ rfl)
      simp only [Task.resume, Task.resumeRejoin, hroom, hreply]
      exact speaks_of_told (told_of_mine?_eq_none (by simp)) rfl (by simp [Sent.mine?])
    | ok reply =>
      simp only [Task.resume, Task.resumeRejoin, hroom, hreply]
      exact speaks_of_told (htold _ reply rfl hreply) rfl (by simp)
  | publishRoom r | armRoomTimers r =>
    obtain rfl := hkept rfl
    exact speaks_of_told (told_of_mine?_eq_none (by simp [Task.resume])) rfl
      (by simp [Task.resume, Sent.mine?])
  | announceVote r voter dancerId changed =>
    obtain rfl := hkept rfl
    refine ⟨told_of_mine?_eq_none (by simp [Task.resume]), ?_, ?_⟩
    · cases changed <;> simp [Task.resume, Task.voteMine?, Sent.mine?]
    · cases changed <;> by_cases hvoter : voter = voterId <;>
        simp [Task.resume, Task.voteMine?, Sent.mine?, hvoter]
  | announceRematch r clearedVoterIds =>
    obtain rfl := hkept rfl
    refine speaks_of_nulls (told_of_mine?_eq_none (by simp [Task.resume])) (fun o => ?_) rfl
    simp [Task.resume, eq_comm]

/-- What a piece is going to tell a voter is from the version that it stored. -/
theorem version_of_resumed (hroom : s.room = some room)
    (hnext : (t.resume rt code env s).shared.room = some next) :
    ∀ u ∈ (t.resume rt code env s).tasks, ∀ message ∈ u.voteMine? voterId,
      message.1 = next.version := by
  have hcalled : ∀ op, t.roomOp? env = some op → (op.step rt code (some room)).1 = some next := by
    intro op hop
    rwa [room_resume, hop, hroom] at hnext
  cases t with
  | call op =>
    cases hreply : (op.step rt code (some room)).2 with
    | error e => simp [Task.resume, Task.resumeCall, hroom, hreply]
    | ok reply =>
      simp only [Task.resume, Task.resumeCall, hroom, hreply]
      exact version_of_announced (hcalled op rfl) hreply
  | fire kind =>
    simp only [Task.resume]
    split <;> simp [Task.voteMine?]
  | switch playerId displayName previousPlayer =>
    cases hreply : ((RoomOp.join playerId displayName).step rt code (some room)).2 with
    | error e => simp [Task.resume, Task.resumeSwitch, hroom, hreply]
    | ok reply =>
      simp only [Task.resume, Task.resumeSwitch, hroom, hreply]
      split
      · exact version_of_announced (hcalled _ rfl) hreply
      · simp [Task.voteMine?]
  | leavePreviousBinding playerId displayName previousPlayer =>
    cases hreply : ((RoomOp.leave previousPlayer env.random env.options.now).step rt code
        (some room)).2 with
    | error e =>
      simp only [Task.resume, Task.resumeLeavePreviousBinding, hroom, hreply]
      cases e <;> simp [Task.voteMine?]
    | ok reply =>
      have hversion : ∀ u ∈ announcements _ reply, ∀ message ∈ u.voteMine? voterId,
          message.1 = next.version := version_of_announced (hcalled _ rfl) hreply
      obtain ⟨r, updated, -, -, -, rfl⟩ := left_of_reply hreply
      simp only [Task.resume, Task.resumeLeavePreviousBinding, hroom, hreply]
      simpa [announcements, Task.voteMine?] using hversion
  | announceLeave left payload =>
    simp only [Task.resume, Task.resumeAnnounceLeave]
    split <;> cases payload <;> simp [Task.voteMine?]
  | rejoin playerId displayName =>
    cases hreply : ((RoomOp.join playerId displayName).step rt code (some room)).2 with
    | error e => simp [Task.resume, Task.resumeRejoin, hroom, hreply]
    | ok reply =>
      simp only [Task.resume, Task.resumeRejoin, hroom, hreply]
      exact version_of_announced (hcalled _ rfl) hreply
  | _ => simp [Task.resume, Task.voteMine?]

/-! ### One turn -/

theorem lastMine?_append_of_quiet (h : ∀ o ∈ emitted, o.mine? voterId = none) :
    lastMine? voterId (log ++ emitted) = lastMine? voterId log := by
  rw [lastMine?, List.filterMap_append, List.filterMap_eq_nil_iff.mpr h, List.append_nil, lastMine?]

theorem lastMine?_append_of_sent {dancerId : Lookup JsString}
    (hsome : ∃ o ∈ emitted, o.mine? voterId = some dancerId)
    (hall : ∀ o ∈ emitted, ∀ d ∈ o.mine? voterId, d = dancerId) :
    lastMine? voterId (log ++ emitted) = some dancerId := by
  obtain ⟨o, ho, hmine⟩ := hsome
  have hmem : dancerId ∈ emitted.filterMap (Sent.mine? voterId) :=
    List.mem_filterMap.mpr ⟨o, ho, hmine⟩
  obtain ⟨last, hlast⟩ := Option.isSome_iff_exists.mp
    (List.getLast?_isSome.mpr (List.ne_nil_of_mem hmem))
  obtain ⟨o', ho', hmine'⟩ := List.mem_filterMap.mp (List.mem_of_getLast? hlast)
  rw [lastMine?, List.filterMap_append, List.getLast?_append, hlast, hall o' ho' last hmine']
  rfl

/-- A piece keeps the newest message to a voter on its way or last sent, when it leaves no older one
behind; and a piece that changes the vote sets out a newer one. -/
theorem telling_of_speaks {r : Resumed State Task Sent} (hspeaks : Speaks voterId room next t r)
    (hversion : next = room ∨ room.version < next.version)
    (hdated : ∀ u ∈ rest, ∀ message ∈ u.voteMine? voterId, message.1 ≤ room.version)
    (horder : ∀ sent ∈ t.voteMine? voterId, ∀ u ∈ rest, ∀ pending ∈ u.voteMine? voterId,
      sent.1 ≤ pending.1)
    (h : next.storedVote voterId ≠ room.storedVote voterId ∨
      Telling voterId room (t :: rest) log) :
    Telling voterId next (rest ++ r.tasks) (log ++ r.emitted) := by
  have hnew : ∀ u ∈ r.tasks, ∀ message ∈ u.voteMine? voterId,
      message.2 = next.storedVote voterId := fun u hu message hmessage => by
    rw [hspeaks.told.said u hu message hmessage]
  by_cases hchanged : next.storedVote voterId ≠ room.storedVote voterId
  · obtain ⟨u, hu, hmine⟩ := hspeaks.told.told hchanged
    refine Or.inl ⟨u, List.mem_append_right _ hu, next.version, hmine,
      fun w hw message hm hle => ?_⟩
    rcases List.mem_append.mp hw with hw | hw
    · have hlt : room.version < next.version := hversion.resolve_left fun heq =>
        hchanged (by rw [heq])
      have hold := hdated w hw message hm
      omega
    · exact hnew w hw message hm
  have hsame : next.storedVote voterId = room.storedVote voterId := not_not.mp hchanged
  rw [hsame] at hnew
  unfold Telling
  rw [hsame]
  rcases h.resolve_left hchanged with ⟨u, hu, version, hmine, hnewest⟩ | ⟨hall, hlast⟩
  · rcases List.mem_cons.mp hu with rfl | hu
    · obtain ⟨-, hsent⟩ := hspeaks.sent _ hmine
      refine Or.inr ⟨List.forall_mem_append.mpr ⟨fun w hw message hm => ?_, hnew⟩,
        lastMine?_append_of_sent hsent.1 hsent.2⟩
      exact hnewest w (List.mem_cons_of_mem _ hw) message hm (horder _ hmine w hw message hm)
    · refine Or.inl ⟨u, List.mem_append_left _ hu, version, hmine, List.forall_mem_append.mpr
        ⟨fun w hw => hnewest w (List.mem_cons_of_mem _ hw), fun w hw message hm _ => ?_⟩⟩
      exact hnew w hw message hm
  · rw [List.forall_mem_cons] at hall
    refine Or.inr ⟨List.forall_mem_append.mpr ⟨hall.2, hnew⟩, ?_⟩
    cases ht : t.voteMine? voterId with
    | none => rw [lastMine?_append_of_quiet (hspeaks.quiet ht), hlast]
    | some message =>
      obtain ⟨-, hsent⟩ := hspeaks.sent message ht
      rw [lastMine?_append_of_sent hsent.1 hsent.2, hall.1 message ht]

/-! ### Whole runs -/

/-- The task creates a room. -/
def Task.creates : Task → Bool
  | .call (.create ..) => true
  | _ => false

/-- Every message under way is from a version of the stored room, which is not created again. -/
structure Dated (rt : Runtime) (voterId : JsString) (w : World State Task Sent) : Prop where
  room : ∀ room ∈ w.shared.room, RoomInvariant rt room
  creates : ∀ t ∈ w.tasks, t.creates = false
  dated : ∀ room ∈ w.shared.room, ∀ t ∈ w.tasks, ∀ message ∈ t.voteMine? voterId,
    message.1 ≤ room.version

theorem creates_resume : ∀ u ∈ (t.resume rt code env s).tasks, u.creates = false := by
  have hannounce : ∀ op reply, ∀ u ∈ announcements op reply, u.creates = false := by
    intro op reply
    unfold announcements
    split <;> try split_ifs
    all_goals simp [Task.creates]
  cases t with
  | call op =>
    simp only [Task.resume, Task.resumeCall]
    split
    · exact hannounce _ _
    · simp
  | fire kind =>
    simp only [Task.resume]
    split
    · simp
    · cases kind <;> simp [Task.creates, RoomTimerKind.call]
  | switch playerId displayName previousPlayer =>
    simp only [Task.resume, Task.resumeSwitch]
    split
    · split_ifs
      · exact hannounce _ _
      · simp [Task.creates]
    · simp
  | leavePreviousBinding =>
    simp only [Task.resume, Task.resumeLeavePreviousBinding]
    split <;> simp [Task.creates]
  | announceLeave left payload =>
    simp only [Task.resume, Task.resumeAnnounceLeave]
    split <;> cases payload <;> simp [Task.creates]
  | rejoin =>
    simp only [Task.resume, Task.resumeRejoin]
    split
    · exact hannounce _ _
    · simp
  | _ => simp [Task.resume, Task.creates]

variable {w w' : World State Task Sent} {turn : Turn Env Task}

theorem voteMine?_of_isFirst (h : t.isFirst) : t.voteMine? voterId = none := by
  cases t <;> simp_all [Task.isFirst, Task.voteMine?]

/-- A room that is gone stays so. -/
theorem room_resume_of_none (hcreates : t.creates = false) (hroom : s.room = none) :
    (t.resume rt code env s).shared.room = none := by
  rw [room_resume, hroom]
  split
  next op hop =>
    have hstored := stored_step rt code none op
    generalize (op.step rt code none).1 = slot' at hstored
    cases hstored with
    | unchanged => rfl
    | created =>
      cases t <;> simp [Task.roomOp?] at hop
      subst hop
      simp [Task.creates] at hcreates
  next => rfl

theorem Dated.exists_before
    (h : Turned (fun env task state => task.resume rt code env state) w turn w' emitted)
    (hw : Dated rt voterId w) (hnext : w'.shared.room = some next) :
    ∃ room, w.shared.room = some room := by
  cases h with
  | idle | spawned => exact ⟨next, hnext⟩
  | resumed t rest htask htasks =>
    cases hroom : w.shared.room with
    | none =>
      have ht := hw.creates t (htasks.mem_iff.mpr (List.mem_cons_self ..))
      rw [room_resume_of_none ht hroom] at hnext
      simp at hnext
    | some room => exact ⟨room, rfl⟩

theorem Dated.turned
    (h : Turned (fun env task state => task.resume rt code env state) w turn w' emitted)
    (hw : Dated rt voterId w) (hfirst : ∀ t ∈ turn.spawned?, t.isFirst ∧ t.creates = false) :
    Dated rt voterId w' := by
  obtain ⟨op, hstored⟩ := stored_of_turned h
  refine ⟨hstored.roomInvariant hw.room, ?_, ?_⟩
  · cases h with
    | idle => exact hw.creates
    | spawned t =>
      exact List.forall_mem_append.mpr ⟨hw.creates, List.forall_mem_singleton.mpr (hfirst t rfl).2⟩
    | resumed t rest htask htasks =>
      refine List.forall_mem_append.mpr ⟨fun u hu => ?_, creates_resume⟩
      exact hw.creates u (htasks.mem_iff.mpr (List.mem_cons_of_mem _ hu))
  · cases h with
    | idle => exact hw.dated
    | spawned t =>
      refine fun room hroom => List.forall_mem_append.mpr ⟨hw.dated room hroom, ?_⟩
      rw [List.forall_mem_singleton, voteMine?_of_isFirst (hfirst t rfl).1]
      simp
    | resumed t rest htask htasks =>
      intro next hnext
      obtain ⟨room, hroom⟩ := hw.exists_before (.resumed t rest htask htasks) hnext
      refine List.forall_mem_append.mpr ⟨fun u hu message hmessage => ?_,
        fun u hu message hmessage => (version_of_resumed hroom hnext u hu message hmessage).le⟩
      have hle := hw.dated room hroom u (htasks.mem_iff.mpr (List.mem_cons_of_mem _ hu)) message
        hmessage
      rw [hroom, show _ = some next from hnext] at hstored
      rcases version_of_stored hstored with rfl | hlt
      · exact hle
      · omega

theorem Telling.congr (htasks : ∀ t, t ∈ tasks ↔ t ∈ rest) (h : Telling voterId room tasks log) :
    Telling voterId room rest log := by
  simpa only [Telling, htasks] using h

/-- A turn keeps the newest message to a voter on its way or last sent, and a turn that changes the
vote sets one out. -/
theorem Telling.turned
    (h : Turned (fun env task state => task.resume rt code env state) w turn w' emitted)
    (hw : Dated rt voterId w) (hplain : rt.proto.inherited voterId = false)
    (horder : InOrder voterId w turn) (hfirst : ∀ t ∈ turn.spawned?, t.isFirst)
    (hroom : w.shared.room = some room) (hnext : w'.shared.room = some next)
    (hseated : voterId ∈ next.playerIds)
    (hbefore : next.storedVote voterId ≠ room.storedVote voterId ∨
      Telling voterId room w.tasks w.log) : Telling voterId next w'.tasks w'.log := by
  cases h with
  | idle =>
    obtain rfl := Option.some.inj (hroom.symm.trans hnext)
    exact hbefore.resolve_left (not_not.mpr rfl)
  | spawned t =>
    obtain rfl := Option.some.inj (hroom.symm.trans hnext)
    have hquiet : t.voteMine? voterId = none := voteMine?_of_isFirst (hfirst t rfl)
    rcases hbefore.resolve_left (not_not.mpr rfl) with ⟨u, hu, version, hmine, hnewest⟩ |
      ⟨hall, hlast⟩
    · refine Or.inl ⟨u, List.mem_append_left _ hu, version, hmine, List.forall_mem_append.mpr
        ⟨hnewest, ?_⟩⟩
      simp [hquiet]
    · exact Or.inr ⟨List.forall_mem_append.mpr ⟨hall, by simp [hquiet]⟩, hlast⟩
  | @resumed index env t rest htask htasks =>
    have hrest : ∀ u ∈ rest, u ∈ w.tasks := fun u hu =>
      htasks.mem_iff.mpr (List.mem_cons_of_mem _ hu)
    have hspeaks := resume_speaks (hw.room room hroom) hplain hseated hroom hnext
    refine telling_of_speaks hspeaks ?_ (fun u hu => hw.dated room hroom u (hrest u hu))
      (fun sent hsent u hu => horder t htask sent hsent u (hrest u hu))
      (hbefore.imp_right (Telling.congr fun u => htasks.mem_iff))
    have hresumed : Turned (fun env task state => task.resume rt code env state) w
        (.resume index env) _ _ := .resumed t rest htask htasks
    obtain ⟨op, hstored⟩ := stored_of_turned hresumed
    rw [hroom, hnext] at hstored
    exact version_of_stored hstored

/-- Ana, Bob and Cat dance, Eve watches and has voted for Ana. -/
def sampleTrio : List RoomOp :=
  [.create (.string (js "ana")) (.string (js "Ana")) 0,
    .join (.string (js "bob")) (.string (js "Bob")),
    .join (.string (js "cat")) (.string (js "Cat")),
    .join (.string (js "eve")) (.string (js "Eve")),
    .selectRole (js "ana") (.string (js "dancer")),
    .selectRole (js "bob") (.string (js "dancer")),
    .selectRole (js "cat") (.string (js "dancer")),
    .setReady (js "ana") (.boolean true),
    .setReady (js "bob") (.boolean true),
    .setReady (js "cat") (.boolean true),
    .setReady (js "eve") (.boolean true),
    .startChallenge (js "ana") { now := 1000, challengeId := js "c1", random := .first },
    .submitPhrase (js "bob") (.string (js "ritmo")) 2000 .first,
    sampleStart,
    .castVote (js "eve") (.string (js "ana")) 10000]

/-- What a piece reads in the samples. -/
def sampleEnv : Env := ⟨.first, { now := 11000, battleId := [] }⟩

/-- Ana, whom Eve votes for, leaves; then Eve votes for Bob. -/
def sampleLeave : Turn Env Task := .spawn (.call (.leave (js "ana") .first 11000))

def sampleVote : Turn Env Task := .spawn (.call (.castVote (js "eve") (.string (js "bob")) 11000))

/-- Eve's new vote is stored and told to her before she is told of the discarded one. -/
def sampleOvertaken : List (Turn Env Task) :=
  [sampleLeave, .resume 0 sampleEnv, sampleVote, .resume 1 sampleEnv, .resume 1 sampleEnv,
    .resume 0 sampleEnv]

/-- Eve, in her seat all the time, is told last that she has no vote, and has one for Bob. -/
theorem discard_overtaken :
    let w := (publishing .ascii (js "ROOM22")).run
      ⟨{ room := (roomMachine .ascii (js "ROOM22")).run none sampleTrio }, [], []⟩ sampleOvertaken
    w.tasks = [] ∧
    (∀ e ∈ (publishing .ascii (js "ROOM22")).trace
        ⟨{ room := (roomMachine .ascii (js "ROOM22")).run none sampleTrio }, [], []⟩
        sampleOvertaken,
      Seated (js "eve") e.before.shared.room ∧ Seated (js "eve") e.after.shared.room) ∧
    ((roomMachine .ascii (js "ROOM22")).run none sampleTrio).map (·.storedVote (js "eve")) =
      some (.own (js "ana")) ∧
    w.shared.room.map (·.storedVote (js "eve")) = some (.own (js "bob")) ∧
    lastMine? (js "eve") w.log = some .absent := by decide +kernel

/-- The last vote that a voter was told, after a run that starts with a stored room and no handler
under way, is the stored one: when their vote changed in the run and they kept their seat from then
on, their id is not an inherited name, and no message to them overtook an older one. -/
theorem last_vote_mine_is_stored (rt : Runtime) (code : JsString) (ops : List RoomOp) (s : State)
    (voterId : JsString) (pre post : List (Turn Env Task)) (turn : Turn Env Task)
    (hstart : s.room = (roomMachine rt code).run none ops)
    (hfirst : ∀ t ∈ pre ++ turn :: post, ∀ task ∈ t.spawned?, task.isFirst ∧ task.creates = false)
    (hplain : rt.proto.inherited voterId = false)
    (horder : ∀ e ∈ (publishing rt code).trace ⟨s, [], []⟩ (pre ++ turn :: post),
      InOrder voterId e.before e.input)
    (hchanged : ((publishing rt code).run ⟨s, [], []⟩ (pre ++ [turn])).shared.room.map
        (·.storedVote voterId) ≠
      ((publishing rt code).run ⟨s, [], []⟩ pre).shared.room.map (·.storedVote voterId))
    (hseated : ∀ e ∈ (publishing rt code).trace ((publishing rt code).run ⟨s, [], []⟩ pre)
      (turn :: post), Seated voterId e.after.shared.room)
    (hdone : ((publishing rt code).run ⟨s, [], []⟩ (pre ++ turn :: post)).tasks = []) :
    ∃ room ∈ ((publishing rt code).run ⟨s, [], []⟩ (pre ++ turn :: post)).shared.room,
      lastMine? voterId ((publishing rt code).run ⟨s, [], []⟩ (pre ++ turn :: post)).log =
        some (room.storedVote voterId) := by
  have hdated₀ : Dated rt voterId ⟨s, [], []⟩ :=
    ⟨by rw [hstart]; exact roomInvariant_run rt code ops (by simp), by simp, by simp⟩
  have hdated : ∀ e ∈ (publishing rt code).trace ⟨s, [], []⟩ (pre ++ turn :: post),
      Dated rt voterId e.before ∧ Dated rt voterId e.after := fun e he =>
    Machine.invariant_of_mem_trace (fun e he h => h.turned (turned_of_mem_trace he)
      (hfirst _ (Machine.input_mem_of_mem_trace he))) hdated₀ he
  have htell : ∀ e ∈ (publishing rt code).trace ⟨s, [], []⟩ (pre ++ turn :: post),
      Seated voterId e.after.shared.room →
      (e.after.shared.room.map (·.storedVote voterId) ≠
          e.before.shared.room.map (·.storedVote voterId) ∨
        ∃ room ∈ e.before.shared.room, Telling voterId room e.before.tasks e.before.log) →
      ∃ room ∈ e.after.shared.room, Telling voterId room e.after.tasks e.after.log := by
    rintro e he ⟨next, hnext, hseat⟩ hbefore
    obtain ⟨room, hroom⟩ := (hdated e he).1.exists_before (turned_of_mem_trace he) hnext
    refine ⟨next, hnext, Telling.turned (turned_of_mem_trace he) (hdated e he).1 hplain
      (horder e he) (fun t ht => (hfirst _ (Machine.input_mem_of_mem_trace he) t ht).1) hroom hnext
      hseat ?_⟩
    rcases hbefore with hne | ⟨r, hr, htelling⟩
    · refine Or.inl fun hsame => hne ?_
      rw [show e.after.shared.room = some next from hnext, hroom, Option.map_some, hsame,
        Option.map_some]
    · obtain rfl : room = r := Option.some.inj (hroom.symm.trans hr)
      exact Or.inr htelling
  have hmem : ∀ e ∈ (publishing rt code).trace ((publishing rt code).run ⟨s, [], []⟩ pre)
      (turn :: post), e ∈ (publishing rt code).trace ⟨s, [], []⟩ (pre ++ turn :: post) :=
    fun e he => by
      rw [Machine.trace_append]
      exact List.mem_append_right _ he
  rw [Machine.trace_cons, List.forall_mem_cons] at hmem hseated
  rw [Machine.run_append, Machine.run_cons] at hdone ⊢
  rw [Machine.run_append] at hchanged
  have hturn := htell _ hmem.1 hseated.1 (Or.inl hchanged)
  have hend := Machine.run_invariant (M := publishing rt code)
    (P := fun w : World State Task Sent =>
      ∃ room ∈ w.shared.room, Telling voterId room w.tasks w.log)
    (fun e he hbefore => htell e (hmem.2 e he) (hseated.2 e he) (Or.inr hbefore)) hturn
  obtain ⟨room, hroom, htelling⟩ := hend
  refine ⟨room, hroom, ?_⟩
  rcases htelling with ⟨t, ht, -⟩ | ⟨-, hlast⟩
  · rw [hdone] at ht
    simp at ht
  · exact hlast

/-- Eve is told of the discarded vote when Ana leaves. -/
theorem last_vote_mine_is_stored_sampleTrio :
    ∃ room ∈ ((publishing .ascii (js "ROOM22")).run
        ⟨{ room := (roomMachine .ascii (js "ROOM22")).run none sampleTrio }, [], []⟩
        ([sampleLeave] ++ .resume 0 sampleEnv :: [.resume 0 sampleEnv])).shared.room,
      lastMine? (js "eve") ((publishing .ascii (js "ROOM22")).run
        ⟨{ room := (roomMachine .ascii (js "ROOM22")).run none sampleTrio }, [], []⟩
        ([sampleLeave] ++ .resume 0 sampleEnv :: [.resume 0 sampleEnv])).log =
          some (room.storedVote (js "eve")) :=
  last_vote_mine_is_stored .ascii (js "ROOM22") sampleTrio
    { room := (roomMachine .ascii (js "ROOM22")).run none sampleTrio } (js "eve") [sampleLeave]
    [.resume 0 sampleEnv] (.resume 0 sampleEnv) rfl (by decide) (by decide) (by decide +kernel)
    (by decide +kernel) (by decide +kernel) (by decide +kernel)

end Publishing

end DanceSync
