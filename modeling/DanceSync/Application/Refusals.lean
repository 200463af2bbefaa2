import DanceSync.Application.RoomStore
import DanceSync.Lifecycle.ChosenBattle
import DanceSync.Lifecycle.DisplayNames

/-!
# Refusals

The rules of a room refuse a request with a `DomainError`, which its client is told. Any other error
is a fault of the server: a `RangeError` of a setting or of the random source, an `Error` of the
store, a search that does not end. No call of a use case ends in one, whatever the stored room and
the payload, when the settings are ones that `loadEnv` accepts.

## Main definitions

* `JsError.IsDomain`, `OnlyRefuses`: the calls that return or throw a domain error.
* `RoomOp.Accepted`: the settings of a call are in range.

## Main results

* `OnlyRefuses.bind`, `OnlyRefuses.guard`: the rules.
* `RoomService.onlyRefuses_startBattle`, …: one lemma for each function of the services.
* `RoomOp.onlyRefuses`: every use case on every stored room.
-/

namespace DanceSync

/-- `error instanceof DomainError`. -/
def JsError.IsDomain (error : JsError) : Prop := ∃ code message, error = .domain code message

variable {α β : Type}

/-- The call returns, or throws a domain error. -/
def OnlyRefuses (x : Except JsError α) : Prop := ∀ error, x = .error error → error.IsDomain

namespace OnlyRefuses

variable {x : Except JsError α} {condition : Prop} [Decidable condition] {code : DomainErrorCode}
  {message : JsString} {error : JsError} {f : Unit → Except JsError α}

theorem ok (a : α) : OnlyRefuses (.ok a) := by
  rintro error ⟨⟩

theorem of_eq_ok {a : α} (h : x = .ok a) : OnlyRefuses x := h ▸ ok a

theorem domain : OnlyRefuses (.error (.domain code message) : Except JsError α) := by
  rintro error ⟨⟩
  exact ⟨code, message, rfl⟩

theorem bind {next : α → Except JsError β} (h : OnlyRefuses x)
    (hnext : ∀ a, x = .ok a → OnlyRefuses (next a)) : OnlyRefuses (x >>= next) := by
  cases x with
  | error e =>
    rintro error ⟨⟩
    exact h _ rfl
  | ok a => exact hnext a rfl

theorem map (h : OnlyRefuses x) (g : α → β) : OnlyRefuses (g <$> x) := by
  cases x with
  | error e =>
    rintro error ⟨⟩
    exact h _ rfl
  | ok a => exact ok (g a)

/-- A check that throws a domain error. -/
theorem guard (h : ¬condition → OnlyRefuses (f ())) :
    OnlyRefuses (DanceSync.throwIf condition (.domain code message) >>= f) := by
  by_cases hcondition : condition
  · rw [DanceSync.throwIf, if_pos hcondition]
    exact domain
  · rw [DanceSync.throwIf, if_neg hcondition]
    exact h hcondition

theorem throwIf : OnlyRefuses (DanceSync.throwIf condition (.domain code message)) := by
  by_cases hcondition : condition
  · rw [DanceSync.throwIf, if_pos hcondition]
    exact domain
  · rw [DanceSync.throwIf, if_neg hcondition]
    exact ok ()

/-- A call that goes on after another one returned. -/
theorem after {y : Except JsError β} (h : OnlyRefuses x) (herror : ∀ e, x = .error e → y = .error e)
    (hok : ∀ a, x = .ok a → OnlyRefuses y) : OnlyRefuses y := by
  cases hx : x with
  | error e =>
    rw [herror e hx]
    rintro error ⟨⟩
    exact h e hx
  | ok a => exact hok a hx

/-- A check that passes. -/
theorem pass (hcondition : ¬condition) (h : OnlyRefuses (f ())) :
    OnlyRefuses (DanceSync.throwIf condition error >>= f) := by
  rw [DanceSync.throwIf, if_neg hcondition]
  exact h

end OnlyRefuses

/-! ### The song selection -/

namespace SongSelectionService

variable {rt : Runtime} {room : Room} {playerId text songId challengeId : JsString} {now : Instant}
  {random : RandomIndex}

theorem onlyRefuses_requireEveryoneReady : OnlyRefuses (requireEveryoneReady room) :=
  .throwIf

/-- One of several phrases is not the previous one. -/
theorem exists_phrase {phrases : List JsString} (hphrases : phrases ≠ []) (hnodup : phrases.Nodup)
    (previous : Option JsString) :
    (if 1 < phrases.length then phrases.filter (some · ≠ previous) else phrases) ≠ [] := by
  split_ifs with hmany
  · rw [ne_eq, List.filter_eq_nil_iff]
    intro hall
    have hsame : ∀ phrase ∈ phrases, some phrase = previous := by simpa using hall
    have hfirst := hsame phrases[0] (List.getElem_mem _)
    have hsecond := hsame phrases[1] (List.getElem_mem _)
    have hindex := hnodup.getElem_inj_iff.mp (Option.some.inj (hfirst.trans hsecond.symm))
    omega
  · exact hphrases

theorem onlyRefuses_start {options : StartChallengeOptions} (hchoose : 0 < options.chooseMs)
    (hphrases : options.phrases ≠ []) (hnodup : options.phrases.Nodup) :
    OnlyRefuses (start rt room options) := by
  unfold start
  refine .pass (not_le.mpr hchoose) (.guard fun _ => .guard fun _ => .guard fun _ => ?_)
  refine onlyRefuses_requireEveryoneReady.bind fun _ _ => ?_
  obtain ⟨phrase, hphrase⟩ := options.random.exists_choose
    (exists_phrase hphrases hnodup (room.songSelection.map (·.challenge.phrase)))
  exact (OnlyRefuses.of_eq_ok hphrase).bind fun _ _ => .ok _

theorem onlyRefuses_assignFallbackChooser {selection : SongSelection} {reason : ChooserReason} :
    OnlyRefuses (assignFallbackChooser room selection reason random now) := by
  obtain ⟨next, hnext⟩ := exists_assignFallbackChooser room selection reason random now
  exact .of_eq_ok hnext

theorem onlyRefuses_submit (rt : Runtime) (room : Room) (playerId text : JsString) (now : Instant)
    (random : RandomIndex) : OnlyRefuses (submit rt room playerId text now random) := by
  have htyping : OnlyRefuses (requireTyping room) := by
    unfold requireTyping
    split
    · split_ifs
      · exact .ok _
      · exact .domain
    · exact .domain
  refine htyping.bind fun selection _ => .guard fun _ => .guard fun _ => ?_
  split_ifs
  · exact onlyRefuses_assignFallbackChooser.bind fun _ _ => .ok _
  · exact .guard fun _ => .ok _
  · refine .guard fun _ => ?_
    dsimp only
    split_ifs
    · exact onlyRefuses_assignFallbackChooser.bind fun _ _ => .ok _
    · exact .ok _

theorem onlyRefuses_expire (room : Room) (challengeId : JsString) (random : RandomIndex)
    (now : Instant) : OnlyRefuses (expire room challengeId random now) := by
  unfold expire
  split
  · split_ifs
    · exact .ok _
    · exact onlyRefuses_assignFallbackChooser.map _
  · exact .ok _

theorem onlyRefuses_choose (room : Room) (playerId songId : JsString) :
    OnlyRefuses (choose room playerId songId) := by
  unfold choose
  split
  · split_ifs
    · exact .domain
    · exact .domain
    · split
      · exact .ok _
      · exact .domain
  · exact .domain

/-- A song is drawn only from options. -/
theorem onlyRefuses_autoPick (room : Room) (challengeId : JsString) (now : Instant)
    (random : RandomIndex) : OnlyRefuses (autoPick room challengeId now random) := by
  unfold autoPick
  split
  next selection _ =>
    split
    · exact .ok _
    · split
      · exact .ok _
      · split_ifs with hoptions
        · exact .ok _
        · obtain ⟨song, hsong⟩ := random.exists_choose hoptions
          refine (OnlyRefuses.of_eq_ok hsong).bind fun song _ => ?_
          exact (onlyRefuses_choose _ _ _).bind fun _ _ => .ok _
  next => exact .ok _

end SongSelectionService

/-! ### The rules of a room -/

theorem onlyRefuses_validatePlayer (id displayName : JsValue) :
    OnlyRefuses (validatePlayer id displayName) := by
  unfold validatePlayer
  cases id.string? with
  | none => exact .domain
  | some id => exact .guard fun _ => .guard fun _ => .ok _

namespace RoomService

variable {rt : Runtime} {room : Room} {playerId requesterId : JsString} {now : Instant}
  {random : RandomIndex}

theorem onlyRefuses_create {host : Identity} {code : JsString} :
    OnlyRefuses (create host code now) :=
  (onlyRefuses_validatePlayer _ _).bind fun _ _ => .ok _

/-- The search for a free name ends in a room that is not full. -/
theorem onlyRefuses_join (hrt : rt.KeepsSuffixes) {player : Identity} :
    OnlyRefuses (join rt room player) := by
  refine .guard fun _ => .guard fun _ => .guard fun hspace => ?_
  refine (onlyRefuses_validatePlayer _ _).bind fun valid hvalid => ?_
  obtain ⟨name, hname, -⟩ := exists_uniqueDisplayName hrt
    (isDisplayName_of_validatePlayer hvalid) (length_nameSuffix_lt (not_le.mp hspace))
  exact (OnlyRefuses.of_eq_ok hname).bind fun _ _ => .ok _

theorem onlyRefuses_selectRole {role : JsValue} : OnlyRefuses (selectRole room playerId role) := by
  unfold selectRole
  split
  · exact .domain
  · exact .guard fun _ => .guard fun _ => .ok _

theorem onlyRefuses_setReady {ready : JsValue} : OnlyRefuses (setReady room playerId ready) := by
  unfold setReady
  split
  · exact .domain
  · exact .guard fun _ => .guard fun _ => .ok _

theorem onlyRefuses_leave : OnlyRefuses (leave rt room playerId random now) := by
  by_cases hseated : playerId ∈ room.playerIds
  · obtain ⟨next, hnext⟩ := exists_leave rt random now hseated
    exact .of_eq_ok hnext
  · exact .guard fun hnot => absurd hseated hnot

theorem onlyRefuses_kick {wire : JsValue} :
    OnlyRefuses (kick rt room requesterId wire random now) := by
  refine .guard fun _ => .guard fun _ => ?_
  cases wire.string? with
  | none => exact .domain
  | some id => exact .guard fun _ => .guard fun _ => onlyRefuses_leave

theorem onlyRefuses_selectedIds {dancerIds : JsValue} :
    OnlyRefuses (selectedIds room dancerIds) := by
  unfold selectedIds
  split_ifs
  · exact .ok _
  · split
    · exact .ok _
    · exact .domain

theorem onlyRefuses_startBattle {dancerIds : JsValue} {options : StartBattleOptions}
    (htimed : options.Timed) : OnlyRefuses (startBattle rt room dancerIds options) := by
  have hwhole {points : ℚ} (h : points.isInt = true ∧ 0 ≤ points) :
      ¬(¬points.isInt ∨ points < 0) := by
    simpa using h
  refine .pass (not_lt.mpr htimed.countdownMs) (.pass (not_lt.mpr htimed.fallbackDurationMs) ?_)
  refine .pass (hwhole htimed.votePoints) (.pass (hwhole htimed.wordBonusPoints) ?_)
  refine .guard fun _ => .guard fun _ => onlyRefuses_selectedIds.bind fun ids _ => ?_
  refine .guard fun _ => .guard fun _ => ?_
  split
  · exact .domain
  · refine SongSelectionService.onlyRefuses_requireEveryoneReady.bind fun _ _ => ?_
    split
    · exact .domain
    · exact .ok _

/-- Options that fail a check are thrown out at once. -/
theorem startBattle_of_not_timed (rt : Runtime) (room : Room) (dancerIds : JsValue)
    {options : StartBattleOptions} (h : ¬options.Timed) :
    ∃ message, startBattle rt room dancerIds options = .error (.range message) := by
  simp only [startBattle, requireNonnegative, requireWhole, throwIf_bind]
  split_ifs with hcountdown hfallback hvote hbonus
  · exact ⟨_, rfl⟩
  · exact ⟨_, rfl⟩
  · exact ⟨_, rfl⟩
  · exact ⟨_, rfl⟩
  all_goals
    simp only [not_or, not_not, not_lt] at hcountdown hfallback hvote hbonus
    exact absurd ⟨hcountdown, hfallback, hvote, hbonus⟩ h

theorem onlyRefuses_awardWordBonus : OnlyRefuses (awardWordBonus rt room playerId) := by
  unfold awardWordBonus
  split
  · exact .guard fun _ => .ok _
  · exact .domain

theorem onlyRefuses_castVote (rt : Runtime) (room : Room) (voterId : JsString)
    (dancerId : JsValue) (now : Instant) : OnlyRefuses (castVote rt room voterId dancerId now) := by
  unfold castVote
  split
  · exact .domain
  · refine .guard fun _ => .guard fun _ => .guard fun _ => ?_
    split
    · exact .domain
    · refine .guard fun _ => ?_
      split_ifs
      · exact .ok _
      · exact .ok _
  · exact .domain

theorem onlyRefuses_rematch (room : Room) (requesterId : JsString) :
    OnlyRefuses (rematch room requesterId) :=
  .guard fun _ => .guard fun _ => .ok _

end RoomService

/-! ### The use cases -/

variable {rt : Runtime} {code : JsString} {slot : Option Room} {room : Room} {op : RoomOp}
  {φ ρ : Type} {u : RoomUpdate φ ρ}

theorem onlyRefuses_startIfPossible (rt : Runtime) (chosen : Room)
    {options : StartBattleOptions} (htimed : options.Timed) :
    OnlyRefuses (ChooseSong.startIfPossible rt chosen options) := by
  unfold ChooseSong.startIfPossible
  split_ifs
  · exact .ok _
  · split
    · exact .ok _
    · exact .ok _
    next e hdomain herror =>
      obtain ⟨code, message, rfl⟩ := RoomService.onlyRefuses_startBattle htimed e herror
      exact absurd rfl (hdomain code message)

/-- A start that is refused is put off. -/
theorem startIfPossible_ne_refused {chosen : Room} {options : StartBattleOptions}
    {errorCode : DomainErrorCode} {message : JsString} :
    ChooseSong.startIfPossible rt chosen options ≠ .error (.domain errorCode message) := by
  unfold ChooseSong.startIfPossible
  split_ifs
  · simp
  · split
    · simp
    · simp
    next e hdomain _ => exact fun h => hdomain errorCode message (Except.error.inj h)

/-- A start that is tried after a pick succeeds, or is put off. -/
theorem exists_startIfPossible (rt : Runtime) (chosen : Room) {options : StartBattleOptions}
    (htimed : options.Timed) :
    ∃ result, ChooseSong.startIfPossible rt chosen options = .ok result := by
  cases hstart : ChooseSong.startIfPossible rt chosen options with
  | ok result => exact ⟨result, rfl⟩
  | error error =>
    obtain ⟨errorCode, message, rfl⟩ := onlyRefuses_startIfPossible rt chosen htimed error hstart
    exact absurd hstart startIfPossible_ne_refused

/-- Options that fail a check are found before anything is refused. -/
theorem timed_of_startIfPossible {chosen : Room} {options : StartBattleOptions}
    {result : Room × Bool} (h : ChooseSong.startIfPossible rt chosen options = .ok result)
    (hselection : chosen.songSelection ≠ none) : options.Timed := by
  rw [ChooseSong.startIfPossible, if_neg hselection] at h
  by_contra htimed
  obtain ⟨message, hrange⟩ := RoomService.startBattle_of_not_timed rt chosen .undefined htimed
  simp [hrange] at h

/-- An error that is not caught is the one that was thrown. -/
theorem RoomUpdate.onlyRefuses_caught {errorCode : DomainErrorCode} {message : JsString} :
    OnlyRefuses (u.caught (.domain errorCode message)) := by
  unfold RoomUpdate.caught
  split
  · exact .ok _
  · exact .domain

/-- An update that keeps the room throws what its mutation throws: the store finds the version it
handed out, and the room is still there. -/
theorem Keeps.onlyRefuses (rt : Runtime) (hkeeps : ∀ room ∈ slot, Keeps rt u room op)
    {result : Room → φ → ρ} (hresult : u.result = RoomUpdate.keeping code result)
    (hdecide : ∀ room ∈ slot, OnlyRefuses (u.decide room)) (reply : ρ → Reply) :
    OnlyRefuses (RoomOp.runUpdate code slot u reply).2 := by
  suffices h : OnlyRefuses (u.execute code slot).2 from h.map reply
  cases slot with
  | none => exact RoomUpdate.onlyRefuses_caught
  | some room =>
    specialize hkeeps room rfl
    specialize hdecide room rfl
    rcases hmutate : u.mutate u.initial room with ⟨flags, e | (_ | next | _)⟩
    · obtain ⟨errorCode, message, rfl⟩ := hdecide e (by rw [RoomUpdate.decide, hmutate])
      rw [RoomUpdate.execute_of_error hmutate]
      exact RoomUpdate.onlyRefuses_caught
    · rw [RoomUpdate.execute_of_same hmutate, hresult]
      exact .ok _
    · have hchange := hkeeps.change next (by rw [RoomUpdate.decide, hmutate])
      rw [RoomUpdate.execute_of_room hmutate hchange.frame.2, hresult]
      exact .ok _
    · exact absurd (by rw [RoomUpdate.decide, hmutate]) hkeeps.keep

/-- The settings of a call are in range: those of a battle, and those of a challenge. A join
searches for a free name in an engine whose lower case keeps suffixes. -/
structure RoomOp.Accepted (rt : Runtime) (op : RoomOp) : Prop where
  battle : ∀ options ∈ op.battleOptions?, options.Timed
  challenge : ∀ requesterId options, op = .startChallenge requesterId options →
    0 < options.chooseMs ∧ options.phrases ≠ [] ∧ options.phrases.Nodup
  join : ∀ playerId displayName, op = .join playerId displayName → rt.KeepsSuffixes

/-- The call reads no setting, and searches for no name. -/
def RoomOp.isPlain : RoomOp → Bool
  | .join .. | .startChallenge .. | .chooseSong .. | .autoPick .. | .startBattle .. => false
  | _ => true

theorem RoomOp.Accepted.of_plain (h : op.isPlain) : op.Accepted rt := by
  constructor
  · intro options hoptions
    cases op <;> cases h <;> cases hoptions
  · rintro requesterId options rfl
    cases h
  · rintro playerId displayName rfl
    cases h

theorem onlyRefuses_create_attempt {hostId displayName : JsValue} {now : Instant} :
    OnlyRefuses (CreateRoom.attempt code slot hostId displayName now).2 := by
  have hcreate : OnlyRefuses
      (do RoomService.create (← validatePlayer hostId displayName) code now) :=
    (onlyRefuses_validatePlayer _ _).bind fun _ _ => RoomService.onlyRefuses_create
  unfold CreateRoom.attempt
  split
  next e he =>
    rintro error ⟨⟩
    exact hcreate e he
  next => exact .ok _

/-- No call of a use case fails but with a domain error. -/
theorem RoomOp.onlyRefuses (hop : op.Accepted rt) (slot : Option Room) :
    OnlyRefuses (op.step rt code slot).2 := by
  cases op with
  | create => exact onlyRefuses_create_attempt
  | join playerId displayName =>
    simp only [RoomOp.step, RoomOp.runChecked]
    refine (onlyRefuses_validatePlayer playerId displayName).after (fun e he => ?_)
      fun who hwho => ?_
    · simp only [JoinRoom.execute, he]
      rfl
    · have hjoin := execute_of_valid rt code hwho
      simp only [hjoin]
      refine Keeps.onlyRefuses rt (fun room _ => keeps_join hjoin) rfl (fun room _ => ?_) _
      simp only [RoomUpdate.decide, RoomUpdate.plain]
      split_ifs
      · exact .ok _
      · exact (RoomService.onlyRefuses_join (hop.join _ _ rfl)).map _
  | leave playerId random now =>
    intro error herror
    exact domain_of_leave_error herror
  | kick requesterId playerId random now =>
    refine Keeps.onlyRefuses rt (fun room _ => keeps_kick requesterId playerId random now) rfl
      (fun room _ => ?_) _
    exact RoomService.onlyRefuses_kick.map _
  | selectRole playerId role =>
    refine Keeps.onlyRefuses rt (fun room _ => keeps_selectRole playerId role) rfl
      (fun room _ => ?_) _
    exact RoomService.onlyRefuses_selectRole.map _
  | setReady playerId ready =>
    refine Keeps.onlyRefuses rt (fun room _ => keeps_setReady playerId ready) rfl
      (fun room _ => ?_) _
    exact RoomService.onlyRefuses_setReady.map _
  | startChallenge requesterId options =>
    obtain ⟨hchoose, hphrases, hnodup⟩ := hop.challenge _ _ rfl
    refine Keeps.onlyRefuses rt (fun room _ => keeps_startChallenge requesterId options) rfl
      (fun room _ => ?_) _
    exact .guard fun _ => (SongSelectionService.onlyRefuses_start hchoose hphrases hnodup).map _
  | submitPhrase playerId text now random =>
    cases text with
    | string text =>
      refine Keeps.onlyRefuses rt (fun room _ => keeps_submitPhrase playerId text now random) rfl
        (fun room _ => ?_) _
      refine (SongSelectionService.onlyRefuses_submit rt room playerId text now random).after
        (fun e he => ?_) fun answer hanswer => ?_
      · simp only [RoomUpdate.decide, SubmitSongPhrase.update, he]
      · simp only [RoomUpdate.decide, SubmitSongPhrase.update, hanswer]
        exact .ok _
    | _ => exact .domain
  | expireChallenge challengeId random now =>
    refine Keeps.onlyRefuses rt (fun room _ => keeps_expireChallenge challengeId random now) rfl
      (fun room _ => ?_) _
    refine (SongSelectionService.onlyRefuses_expire room challengeId random now).after
      (fun e he => ?_) fun next hnext => ?_
    · simp only [RoomUpdate.decide, StartSongChallenge.expire, he]
    · simp only [RoomUpdate.decide, StartSongChallenge.expire, hnext]
      exact .ok _
  | chooseSong playerId songId options =>
    refine Keeps.onlyRefuses rt (fun room _ => keeps_chooseSong playerId songId options) rfl
      (fun room _ => ?_) _
    refine (SongSelectionService.onlyRefuses_choose room playerId songId).after (fun e he => ?_)
      fun chosen hchosen => ?_
    · simp only [RoomUpdate.decide, ChooseSong.execute, he]
    · refine (onlyRefuses_startIfPossible rt chosen (hop.battle _ rfl)).after (fun e he => ?_)
        fun next hnext => ?_
      · simp only [RoomUpdate.decide, ChooseSong.execute, hchosen, he]
      · simp only [RoomUpdate.decide, ChooseSong.execute, hchosen, hnext]
        exact .ok _
  | autoPick challengeId random options =>
    refine Keeps.onlyRefuses rt (fun room _ => keeps_autoPick challengeId random options) rfl
      (fun room _ => ?_) _
    refine (SongSelectionService.onlyRefuses_autoPick room challengeId options.now random).after
      (fun e he => ?_) fun picked hpicked => ?_
    · simp only [RoomUpdate.decide, ChooseSong.autoPick, he]
    · cases picked with
      | none =>
        simp only [RoomUpdate.decide, ChooseSong.autoPick, hpicked]
        exact .ok _
      | some chosen =>
        refine (onlyRefuses_startIfPossible rt chosen (hop.battle _ rfl)).after (fun e he => ?_)
          fun next hnext => ?_
        · simp only [RoomUpdate.decide, ChooseSong.autoPick, hpicked, he]
        · simp only [RoomUpdate.decide, ChooseSong.autoPick, hpicked, hnext]
          exact .ok _
  | startBattle requesterId dancerIds options =>
    refine Keeps.onlyRefuses rt (fun room _ => keeps_startBattle requesterId dancerIds options) rfl
      (fun room _ => ?_) _
    exact .guard fun _ => (RoomService.onlyRefuses_startBattle (hop.battle _ rfl)).map _
  | castVote voterId dancerId now =>
    refine Keeps.onlyRefuses rt (fun room _ => keeps_castVote voterId dancerId now) rfl
      (fun room _ => ?_) _
    refine (RoomService.onlyRefuses_castVote rt room voterId dancerId now).after
      (fun e he => ?_) fun next hnext => ?_
    · simp only [RoomUpdate.decide, CastVote.execute, he]
    · simp only [RoomUpdate.decide, CastVote.execute, hnext]
      exact .ok _
  | awardWordBonus playerId =>
    refine Keeps.onlyRefuses rt (fun room _ => keeps_awardWordBonus playerId) rfl
      (fun room _ => ?_) _
    exact RoomService.onlyRefuses_awardWordBonus.map _
  | finishAtDeadline battleId now =>
    refine Keeps.onlyRefuses rt (fun room _ => keeps_finishAtDeadline battleId now) rfl
      (fun room _ => ?_) _
    obtain ⟨next, hnext⟩ := exists_finishAtDeadline rt room now
    simp only [RoomUpdate.decide, FinishBattleAtDeadline.execute, hnext]
    split_ifs
    · exact .ok _
    · exact .ok _
  | rematch requesterId =>
    refine Keeps.onlyRefuses rt (fun room _ => keeps_rematch requesterId) rfl (fun room _ => ?_) _
    refine (RoomService.onlyRefuses_rematch room requesterId).after (fun e he => ?_)
      fun next hnext => ?_
    · simp only [RoomUpdate.decide, StartRematch.execute, he]
    · simp only [RoomUpdate.decide, StartRematch.execute, hnext]
      exact .ok _

end DanceSync
