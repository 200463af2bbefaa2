import DanceSync.Lifecycle.TypingRound

/-!
# Whether the chooser dances

The participants of a challenge are the dancers of its start. Roles may change while the phrase is
on screen and while a song is being picked, and neither typing nor the fallback looks at them
again. The right to pick the song reaches somebody who does not dance in three ways: they type the
phrase, the fallback draws them, or the chooser becomes a spectator.

## Main definitions

* `Room.ChooserDances`: while a song is being picked, the chooser is a dancer of the room.
* `Room.DrawsWatcher`: the candidate that the fallback draws is not a dancer.
* `RoomOp.Strays`: the calls that hand the choice to somebody who does not dance.

## Main results

* `step_chooserDances_iff`: these calls take the choice from the dancers, and no other call does.
* `chooserDances_iff`.
-/

namespace DanceSync

open SongSelectionService

/-- A player of the room with the role of a dancer. -/
def Room.Dances (room : Room) (id : JsString) : Prop :=
  ∃ p ∈ room.players, p.id = id ∧ p.role = .dancer

instance (room : Room) (id : JsString) : Decidable (room.Dances id) :=
  inferInstanceAs (Decidable (∃ p ∈ room.players, p.id = id ∧ p.role = .dancer))

/-- While a song is being picked, the chooser is a dancer of the room. -/
def Room.ChooserDances (room : Room) : Prop :=
  ∀ s ∈ room.songSelection, s.phase = .choosing → ∃ id ∈ s.chooserId, room.Dances id

instance (room : Room) : Decidable room.ChooserDances :=
  inferInstanceAs (Decidable (∀ s ∈ room.songSelection, s.phase = .choosing →
    ∃ id ∈ s.chooserId, room.Dances id))

/-- The candidate that the fallback draws is not a dancer. -/
def Room.DrawsWatcher (room : Room) (s : SongSelection) (random : RandomIndex) : Prop :=
  ∃ id ∈ (random.choose (fallbackCandidates room s)).toOption, ¬room.Dances id

/-- The player is picking the song. -/
def Room.Picks (room : Room) (playerId : JsString) (s : SongSelection) : Prop :=
  room.songSelection = some s ∧ s.phase = .choosing ∧ s.chooserId = some playerId

/-- Every participant in the room has misspelled the phrase. -/
def Room.AllFailed (room : Room) (s : SongSelection) : Prop :=
  ∀ id ∈ s.participantIds, id ∈ room.playerIds → id ∈ s.failedIds

/-- The phrase is typed by a participant who does not dance, or by a participant who is too late
or the last to misspell it while the fallback draws somebody who does not dance. -/
def Room.SubmitStrays (rt : Runtime) (room : Room) (playerId text : JsString) (now : Instant)
    (random : RandomIndex) (s : SongSelection) : Prop :=
  room.songSelection = some s ∧ s.phase = .typing ∧ playerId ∈ s.participantIds ∧
    playerId ∈ room.playerIds ∧
    if s.challenge.expiresAt ≤ now then room.DrawsWatcher s random
    else playerId ∉ s.failedIds ∧
      if normalizeAttempt rt text = s.challenge.phrase then ¬room.Dances playerId
      else room.AllFailed (misspelled s playerId) ∧
        room.DrawsWatcher (misspelled s playerId) random

/-- The chooser is taken out of the room, and the fallback draws somebody who does not dance. -/
def Room.DepartureStrays (room : Room) (playerId : JsString) (random : RandomIndex) : Prop :=
  ∃ s, room.Picks playerId s ∧ (RoomService.unseat room playerId).DrawsWatcher s random

/-- The calls that leave the choice with somebody who does not dance. -/
def RoomOp.Strays (rt : Runtime) (room : Room) : RoomOp → Prop
  | .selectRole playerId role =>
    role = .string (js "spectator") ∧ ∃ s, room.Picks playerId s
  | .submitPhrase playerId (.string text) now random =>
    ∃ s, room.SubmitStrays rt playerId text now random s
  | .expireChallenge challengeId random _ =>
    ∃ s, room.songSelection = some s ∧ s.phase = .typing ∧ s.challenge.id = challengeId ∧
      room.DrawsWatcher s random
  | .leave playerId random _ => room.DepartureStrays playerId random
  | .kick requesterId (.string playerId) random _ =>
    requesterId = room.hostId ∧ playerId ≠ requesterId ∧ room.DepartureStrays playerId random
  | _ => False

variable {rt : Runtime} {code : JsString} {room next : Room} {op : RoomOp}
  {playerId text : JsString} {now : Instant} {s : SongSelection} {reason : ChooserReason}
  {random : RandomIndex}

/-! ### The fallback -/

theorem chooserDances_of_phase_ne (h : ∀ s ∈ next.songSelection, s.phase ≠ .choosing) :
    next.ChooserDances := fun s hs hphase => absurd hphase (h s hs)

/-- A new chooser is a dancer exactly when they are a dancer of the room. -/
theorem chooserDances_choosing :
    { room with songSelection := some (choosing s playerId reason now) }.ChooserDances ↔
      room.Dances playerId := by
  constructor
  · intro h
    obtain ⟨id, hid, hdances⟩ := h _ rfl rfl
    obtain rfl : playerId = id := Option.some.inj hid
    exact hdances
  · rintro h t ⟨⟩ -
    exact ⟨playerId, rfl, h⟩

/-- The fallback leaves the choice with a dancer unless it draws somebody else. -/
theorem chooserDances_of_fallback (h : assignFallbackChooser room s reason random now = .ok next) :
    next.ChooserDances ↔ ¬room.DrawsWatcher s random := by
  simp only [assignFallbackChooser] at h
  split_ifs at h with hnil
  · obtain rfl := Except.ok.inj h
    refine iff_of_true (chooserDances_of_phase_ne (by simp)) ?_
    simp [Room.DrawsWatcher, hnil, RandomIndex.choose, Except.toOption]
  · obtain ⟨chooserId, hdraw, hnext⟩ := bind_eq_ok.mp h
    obtain rfl := pure_eq_ok.mp hnext
    rw [chooserDances_choosing, Room.DrawsWatcher, hdraw]
    simp [Except.toOption]

/-! ### Typing the phrase -/

/-- The participants in the room have all misspelled the phrase when the code finds it so. -/
theorem allFailed_iff : ((s.participantIds.filter (· ∈ room.playerIds)).all (· ∈ s.failedIds)) =
    true ↔ room.AllFailed s := by
  simp only [List.all_eq_true, List.mem_filter, decide_eq_true_eq, Room.AllFailed, and_imp]

/-- What an accepted submission leaves. -/
theorem chooserDances_of_submit {outcome : SubmitOutcome}
    (h : submit rt room playerId text now random = .ok (next, outcome)) :
    next.ChooserDances ↔ ¬∃ s, room.SubmitStrays rt playerId text now random s := by
  obtain ⟨s, htyping, h⟩ := bind_eq_ok.mp h
  simp only [bind_eq_ok, throwIf_eq_ok, exists_const, not_not] at h
  obtain ⟨hparticipant, hpresent, h⟩ := h
  obtain ⟨hs, hphase⟩ := requireTyping_eq_ok.mp htyping
  have hstrays : (∃ s, room.SubmitStrays rt playerId text now random s) ↔
      room.SubmitStrays rt playerId text now random s := by
    refine ⟨?_, fun h => ⟨s, h⟩⟩
    rintro ⟨t, ht⟩
    obtain rfl : s = t := Option.some.inj (hs.symm.trans ht.1)
    exact ht
  rw [hstrays]
  simp only [Room.SubmitStrays, hs, hphase, hparticipant, hpresent, true_and]
  by_cases hlate : s.challenge.expiresAt ≤ now
  · rw [if_pos hlate] at h ⊢
    obtain ⟨room', hfallback, hreply⟩ := bind_eq_ok.mp h
    obtain ⟨rfl, -⟩ := Prod.mk.inj (pure_eq_ok.mp hreply)
    exact chooserDances_of_fallback hfallback
  rw [if_neg hlate] at h ⊢
  simp only [bind_eq_ok, throwIf_eq_ok, exists_const] at h
  obtain ⟨hattempt, h⟩ := h
  simp only [hattempt, not_false_eq_true, true_and]
  by_cases hmatch : normalizeAttempt rt text = s.challenge.phrase
  · rw [if_pos hmatch] at h ⊢
    obtain ⟨rfl, -⟩ := Prod.mk.inj (pure_eq_ok.mp h)
    rw [chooserDances_choosing, not_not]
  rw [if_neg hmatch] at h ⊢
  split_ifs at h with hfailed
  · obtain ⟨room', hfallback, hreply⟩ := bind_eq_ok.mp h
    obtain ⟨rfl, -⟩ := Prod.mk.inj (pure_eq_ok.mp hreply)
    rw [chooserDances_of_fallback hfallback, and_iff_right (allFailed_iff.mp hfailed)]
  · obtain ⟨rfl, -⟩ := Prod.mk.inj (pure_eq_ok.mp h)
    refine iff_of_true (chooserDances_of_phase_ne ?_) fun hstray => ?_
    · rintro t ⟨⟩
      simp [hphase]
    · exact hfailed (allFailed_iff.mpr hstray.1)

/-- A submission that strays is accepted. -/
theorem exists_submit_of_strays (h : room.SubmitStrays rt playerId text now random s) :
    ∃ r, submit rt room playerId text now random = .ok r := by
  obtain ⟨hs, hphase, hparticipant, hpresent, h⟩ := h
  have htyping : requireTyping room = .ok s := requireTyping_eq_ok.mpr ⟨hs, hphase⟩
  by_cases hlate : s.challenge.expiresAt ≤ now
  · obtain ⟨next, hnext⟩ := exists_assignFallbackChooser room s .timeout random now
    refine ⟨(next, .expired), ?_⟩
    simp only [submit, bind_eq_ok, throwIf_eq_ok, exists_const, not_not]
    exact ⟨s, htyping, hparticipant, hpresent, by simp [hlate, hnext, bind, Except.bind, pure,
      Except.pure]⟩
  rw [if_neg hlate] at h
  obtain ⟨next, hnext⟩ :=
    exists_assignFallbackChooser room (misspelled s playerId) .allFailed random now
  by_cases hmatch : normalizeAttempt rt text = s.challenge.phrase
  · refine ⟨({ room with songSelection := some (choosing s playerId .typed now) }, .accepted), ?_⟩
    simp only [submit, bind_eq_ok, throwIf_eq_ok, exists_const, not_not]
    refine ⟨s, htyping, hparticipant, hpresent, ?_⟩
    simp [hlate, hmatch, throwIf, h.1, bind, Except.bind, pure, Except.pure]
  · rw [if_neg hmatch] at h
    refine ⟨(next, .incorrect), ?_⟩
    simp only [submit, bind_eq_ok, throwIf_eq_ok, exists_const, not_not]
    refine ⟨s, htyping, hparticipant, hpresent, ?_⟩
    rw [if_neg hlate]
    simp only [bind_eq_ok, throwIf_eq_ok, exists_const]
    refine ⟨h.1, ?_⟩
    rw [if_neg hmatch, if_pos (allFailed_iff.mpr h.2.1), hnext]
    rfl

/-! ### Departures -/

/-- The dancers who stay keep their role. -/
theorem dances_of_departed (h : RoomService.Departed rt room playerId now next) {id : JsString}
    (hid : id ≠ playerId) (hdances : room.Dances id) : next.Dances id := by
  obtain ⟨p, hp, rfl, hrole⟩ := hdances
  refine ⟨p, ?_, rfl, hrole⟩
  rw [h.players_eq, List.mem_filter]
  exact ⟨hp, by simpa using hid⟩

/-- The departure of a chooser hands the choice to the fallback. -/
theorem leave_of_picks (hinv : SelectionInvariant room) (hpicks : room.Picks playerId s)
    (h : RoomService.leave rt room playerId random now = .ok next) :
    assignFallbackChooser (RoomService.unseat room playerId) s .chooserLeft random now =
      .ok next := by
  obtain ⟨hs, hphase, hchooser⟩ := hpicks
  have hstatus : room.status = .waiting := (hinv.waiting_of_open hs (by simp [hphase])).1
  simp only [RoomService.leave, bind_eq_ok, throwIf_eq_ok, exists_const] at h
  obtain ⟨-, settled, hsettled, hleft⟩ := h
  have hidle : RoomService.settleBattleAfterLeave rt (RoomService.unseat room playerId) playerId
      now = .ok (RoomService.unseat room playerId) := by
    simp [RoomService.settleBattleAfterLeave, RoomService.unseat, hstatus]
  obtain rfl := Except.ok.inj (hidle.symm.trans hsettled)
  have hselection : (RoomService.unseat room playerId).songSelection = some s := hs
  simpa [handlePlayerLeft, hselection, hphase, hchooser] using hleft

/-- A departure leaves the choice with a dancer unless it strays. -/
theorem chooserDances_of_leave (hinv : SelectionInvariant room) (hdances : room.ChooserDances)
    (h : RoomService.leave rt room playerId random now = .ok next) :
    next.ChooserDances ↔ ¬room.DepartureStrays playerId random := by
  by_cases hpicks : ∃ s, room.Picks playerId s
  · obtain ⟨s, hpicks⟩ := hpicks
    rw [chooserDances_of_fallback (leave_of_picks hinv hpicks h), not_iff_not]
    refine ⟨fun hdraws => ⟨s, hpicks, hdraws⟩, ?_⟩
    rintro ⟨t, ht, hdraws⟩
    obtain rfl : s = t := Option.some.inj (hpicks.1.symm.trans ht.1)
    exact hdraws
  · refine iff_of_true ?_ fun ⟨s, hs, _⟩ => hpicks ⟨s, hs⟩
    have hdeparted := RoomService.leave_spec h
    obtain ⟨hseated, hsettled, hpassed⟩ := id hdeparted
    have hselection := hsettled.selection_eq.1
    cases hpassed with
    | passed t ht hphase hchooser =>
      exact absurd ⟨t, hselection.symm.trans ht, hphase, hchooser⟩ hpicks
    | kept =>
      intro s hs hphase
      have hroom : room.songSelection = some s := hselection.symm.trans hs
      obtain ⟨id, hid, hrole⟩ := hdances s hroom hphase
      refine ⟨id, hid, dances_of_departed hdeparted ?_ hrole⟩
      rintro rfl
      exact hpicks ⟨s, hroom, hphase, hid⟩

/-! ### The other changes -/

/-- A change that keeps the selection and the dancers keeps the choice with a dancer. -/
theorem Room.ChooserDances.mono (h : room.ChooserDances)
    (hselection : next.songSelection = room.songSelection)
    (hdances : ∀ s, room.songSelection = some s → s.phase = .choosing → ∀ id,
      s.chooserId = some id → room.Dances id → next.Dances id) : next.ChooserDances := by
  intro s hs hphase
  rw [hselection] at hs
  obtain ⟨id, hid, hrole⟩ := h s hs hphase
  exact ⟨id, hid, hdances s hs hphase id hid hrole⟩

/-- A change of one player that keeps the ids. -/
theorem dances_withPlayer {change : Player → Player} (hid : ∀ p, (change p).id = p.id)
    {id : JsString} (hrole : id = playerId → ∀ p, p.role = .dancer → (change p).role = .dancer)
    (h : room.Dances id) : (RoomService.withPlayer room playerId change).Dances id := by
  obtain ⟨p, hp, rfl, hdancer⟩ := h
  refine ⟨if p.id = playerId then change p else p, List.mem_map_of_mem hp, ?_⟩
  split_ifs with heq
  · exact ⟨hid p, hrole heq p hdancer⟩
  · exact ⟨rfl, hdancer⟩

theorem lookup_playableRoles (name : JsString) : PLAYABLE_ROLES.lookup name =
    if name = js "dancer" then some .dancer
    else if name = js "spectator" then some .spectator else none := by
  simp only [PLAYABLE_ROLES, List.lookup_cons, List.lookup_nil]
  split_ifs with hdancer hwatch
  · simp only [hdancer, beq_self_eq_true]
  · subst hwatch
    rfl
  · simp only [beq_eq_false_iff_ne.mpr hdancer, beq_eq_false_iff_ne.mpr hwatch]

/-- A player becomes a dancer or, asking for it, a spectator. -/
theorem selectRole_chosen {role : JsValue}
    (h : RoomService.selectRole room playerId role = .ok next) : ∃ chosen : PlayerRole,
      next = RoomService.withPlayer room playerId (fun p => { p with role := chosen }) ∧
        (role = .string (js "spectator") ∧ chosen = .spectator ∨
          role ≠ .string (js "spectator") ∧ chosen = .dancer) := by
  unfold RoomService.selectRole at h
  split at h
  next => simp at h
  next chosen hchosen =>
    simp only [bind_eq_ok, throwIf_eq_ok, exists_const, pure_eq_ok, not_not] at h
    refine ⟨chosen, h.2.2.symm, ?_⟩
    cases role with
    | string name =>
      rw [JsValue.string?, Option.bind_some, lookup_playableRoles] at hchosen
      split_ifs at hchosen with hdancer hwatch
      · refine Or.inr ⟨fun hwatch => ?_, (Option.some.inj hchosen).symm⟩
        exact absurd (hdancer.symm.trans (JsValue.string.inj hwatch)) (by decide)
      · exact Or.inl ⟨by rw [hwatch], (Option.some.inj hchosen).symm⟩
    | _ => simp [JsValue.string?] at hchosen

/-- A change of role leaves the choice with a dancer unless the chooser becomes a spectator. -/
theorem chooserDances_of_selectRole {role : JsValue} (hdances : room.ChooserDances)
    (h : RoomService.selectRole room playerId role = .ok next) :
    next.ChooserDances ↔ ¬(role = .string (js "spectator") ∧ ∃ s, room.Picks playerId s) := by
  obtain ⟨chosen, rfl, ⟨hwatch, rfl⟩ | ⟨hwatch, rfl⟩⟩ := selectRole_chosen h
  · rw [and_iff_right hwatch]
    constructor
    · rintro hnext ⟨s, hs, hphase, hchooser⟩
      obtain ⟨id, hid, p, hp, rfl, hrole⟩ := hnext s hs hphase
      obtain rfl : playerId = p.id := Option.some.inj (hchooser.symm.trans hid)
      obtain ⟨q, hq, heq⟩ := List.mem_map.mp hp
      split_ifs at heq with hne
      · rw [← heq] at hrole
        cases hrole
      · exact hne (congrArg (·.id) heq)
    · intro hpicks
      refine hdances.mono rfl fun s hs hphase id hid => dances_withPlayer ?_ fun heq => ?_
      · exact fun _ => rfl
      · exact absurd ⟨s, hs, hphase, heq ▸ hid⟩ hpicks
  · refine iff_of_true ?_ fun hstray => hwatch hstray.1
    refine hdances.mono rfl fun s _ _ id _ => dances_withPlayer ?_ fun _ => ?_
    · exact fun _ => rfl
    · exact fun _ _ => rfl

/-- The calls that may pass the choice on, or change a role. -/
def RoomOp.entrusts : RoomOp → Bool
  | .selectRole .. | .submitPhrase .. | .expireChallenge .. | .leave .. | .kick .. => true
  | _ => false

/-- Every other change leaves the choice with a dancer. -/
theorem Change.chooserDances (hchange : Change rt room op next) (hdances : room.ChooserDances)
    (hop : ¬op.entrusts) : next.ChooserDances := by
  cases hchange with
  | joined p =>
    refine hdances.mono rfl fun _ _ _ id _ ⟨q, hq, hid, hrole⟩ => ?_
    exact ⟨q, List.mem_append_left _ hq, hid, hrole⟩
  | readySet =>
    refine hdances.mono rfl fun _ _ _ id _ => dances_withPlayer ?_ fun _ => ?_
    · exact fun _ => rfl
    · exact fun _ hrole => hrole
  | challengeStarted =>
    refine chooserDances_of_phase_ne ?_
    rintro s ⟨⟩
    simp
  | songChosen hchosen hnext =>
    have hselection := SelectionChange.selection_eq_of_started hnext
    obtain ⟨s, song⟩ := hchosen
    exact chooserDances_of_phase_ne (by simp [hselection])
  | songPicked hpicked hnext =>
    have hselection := SelectionChange.selection_eq_of_started hnext
    cases hpicked <;> exact chooserDances_of_phase_ne (by simp [hselection])
  | battleStarted hstarted =>
    obtain ⟨selected, song, -, hprogress⟩ := hstarted
    refine chooserDances_of_phase_ne fun s hs hphase => ?_
    have hselection : room.songSelection = some s := hs
    simp [isSelectionInProgress, hselection, hphase] at hprogress
  | voted | awarded | finished => exact hdances
  | rematched => exact chooserDances_of_phase_ne (by simp [RoomService.rematched])
  | _ => exact absurd rfl hop

/-! ### Calls -/

/-- What an update decides is what the store keeps. -/
theorem chooserDances_execute_iff {φ ρ : Type} {u : RoomUpdate φ ρ} (hdances : room.ChooserDances)
    (hversion : ∀ next, u.decide room = .ok (.room next) → next.version = room.version) :
    (∀ next ∈ (u.execute code (some room)).1, next.ChooserDances) ↔
      ∀ next, u.decide room = .ok (.room next) → next.ChooserDances := by
  constructor
  · intro h next hnext
    have hmutate : u.mutate u.initial room = ((u.mutate u.initial room).1, .ok (.room next)) :=
      Prod.ext rfl hnext
    refine h { next with version := room.version + 1 } ?_
    rw [RoomUpdate.execute_of_room hmutate (hversion next hnext)]
    rfl
  · intro h stored hstored
    rcases u.fst_execute_cases code room with hsame | ⟨next, hnext, hroom⟩ | ⟨-, hnone⟩
    · rw [hsame] at hstored
      obtain rfl := Option.some.inj hstored
      exact hdances
    · rw [hroom] at hstored
      obtain rfl := Option.some.inj hstored
      exact h next hnext
    · rw [hnone] at hstored
      cases hstored

/-- What every change keeps, the store keeps. -/
theorem chooserDances_of_change (hdances : room.ChooserDances)
    (hchange : ∀ next, Change rt room op next → next.ChooserDances) :
    ∀ next ∈ (op.step rt code (some room)).1, next.ChooserDances := by
  have hstored : Stored rt code (some room) op (op.step rt code (some room)).1 :=
    step_spec rt code (some room) op
  generalize (op.step rt code (some room)).1 = slot at hstored
  cases hstored with
  | unchanged =>
    rintro next ⟨⟩
    exact hdances
  | changed h =>
    rintro next ⟨⟩
    exact (hchange _ h).mono rfl fun _ _ _ _ _ hrole => hrole
  | deleted => simp

/-- A function of the room that returns a room whenever it would stray. -/
theorem forall_chooserDances_iff {result : Except JsError Room} {strays : Prop}
    (hspec : ∀ next, result = .ok next → (next.ChooserDances ↔ ¬strays))
    (hexists : strays → ∃ next, result = .ok next) :
    (∀ next, result = .ok next → next.ChooserDances) ↔ ¬strays := by
  constructor
  · intro h hstrays
    obtain ⟨next, hnext⟩ := hexists hstrays
    exact (hspec next hnext).mp (h next hnext) hstrays
  · exact fun h next hnext => (hspec next hnext).mpr h

theorem Room.Picks.seated (h : room.Picks playerId s) (hinv : SelectionInvariant room) :
    room.status = .waiting ∧ playerId ∈ room.playerIds :=
  ⟨(hinv.waiting_of_open h.1 (by simp [h.2.1])).1, hinv.present s h.1 h.2.1 playerId h.2.2⟩

/-- A draw needs a player to draw. -/
theorem Room.DrawsWatcher.players_ne_nil (h : room.DrawsWatcher s random) : room.players ≠ [] := by
  obtain ⟨id, hid, -⟩ := h
  intro hnil
  have hcandidates : fallbackCandidates room s = [] :=
    fallbackCandidates_eq_nil_iff.mpr (by simp [Room.playerIds, hnil])
  simp [hcandidates, RandomIndex.choose, Except.toOption] at hid

section Step

variable (hinv : SelectionInvariant room) (hdances : room.ChooserDances)

include hdances

theorem submitPhrase_iff (text : JsString) :
    (∀ next ∈ ((RoomOp.submitPhrase playerId (.string text) now random).step rt code
      (some room)).1, next.ChooserDances) ↔
        ¬(RoomOp.submitPhrase playerId (.string text) now random).Strays rt room := by
  refine (chooserDances_execute_iff hdances fun next h =>
    ((keeps_submitPhrase playerId text now random).change next h).frame.2).trans ?_
  have hdecide : ∀ next, (SubmitSongPhrase.update rt code playerId text now random).decide room =
      .ok (.room next) ↔ Prod.fst <$> submit rt room playerId text now random = .ok next := by
    intro next
    simp only [RoomUpdate.decide, SubmitSongPhrase.update]
    cases submit rt room playerId text now random <;> simp [Functor.map, Except.map]
  refine .trans (forall_congr' fun next => imp_congr_left (hdecide next)) ?_
  refine forall_chooserDances_iff (fun next h => ?_) ?_
  · cases hsubmit : submit rt room playerId text now random with
    | error e => simp [hsubmit, Functor.map, Except.map] at h
    | ok r =>
      rw [hsubmit] at h
      obtain rfl := Except.ok.inj h
      exact chooserDances_of_submit hsubmit
  · rintro ⟨s, hstrays⟩
    obtain ⟨r, hr⟩ := exists_submit_of_strays hstrays
    exact ⟨r.1, by rw [hr]; rfl⟩

theorem expireChallenge_iff (challengeId : JsString) :
    (∀ next ∈ ((RoomOp.expireChallenge challengeId random now).step rt code (some room)).1,
      next.ChooserDances) ↔
        ¬(RoomOp.expireChallenge challengeId random now).Strays rt room := by
  have hkeeps : Keeps rt (StartSongChallenge.expire code challengeId random now) room _ :=
    keeps_expireChallenge challengeId random now
  refine (chooserDances_execute_iff hdances fun next h => (hkeeps.change next h).frame.2).trans ?_
  by_cases honscreen : ∃ s, room.songSelection = some s ∧ s.phase = .typing ∧
      s.challenge.id = challengeId
  · obtain ⟨s, hs, hphase, hid⟩ := honscreen
    have hdecide : ∀ next, (StartSongChallenge.expire code challengeId random now).decide room =
        .ok (.room next) ↔ assignFallbackChooser room s .timeout random now = .ok next := by
      intro next
      obtain ⟨passed, hpassed⟩ := exists_assignFallbackChooser room s .timeout random now
      simp [RoomUpdate.decide, StartSongChallenge.expire, SongSelectionService.expire, hs, hphase,
        hid, hpassed, Mutated.ofOption, Functor.map, Except.map]
    refine .trans (forall_congr' fun next => imp_congr_left (hdecide next)) ?_
    refine forall_chooserDances_iff (fun next h => ?_) fun _ =>
      exists_assignFallbackChooser room s .timeout random now
    rw [chooserDances_of_fallback h, not_iff_not]
    refine ⟨fun hdraws => ⟨s, hs, hphase, hid, hdraws⟩, ?_⟩
    rintro ⟨t, ht, -, -, hdraws⟩
    obtain rfl : s = t := Option.some.inj (hs.symm.trans ht)
    exact hdraws
  · refine iff_of_true (fun next h => ?_) ?_
    · cases hkeeps.change next h with
      | expired s hs hphase hid => exact absurd ⟨s, hs, hphase, hid⟩ honscreen
    · rintro ⟨s, hs, hphase, hid, -⟩
      exact honscreen ⟨s, hs, hphase, hid⟩

include hinv

theorem selectRole_iff (role : JsValue) :
    (∀ next ∈ ((RoomOp.selectRole playerId role).step rt code (some room)).1,
      next.ChooserDances) ↔ ¬(RoomOp.selectRole playerId role).Strays rt room := by
  refine (chooserDances_execute_iff hdances fun next h =>
    (Keeps.change (keeps_selectRole playerId role : Keeps rt _ room _) next h).frame.2).trans ?_
  refine .trans (forall_congr' fun next => imp_congr_left map_room_eq_ok) ?_
  refine forall_chooserDances_iff (fun next => chooserDances_of_selectRole hdances) ?_
  rintro ⟨rfl, s, hpicks⟩
  obtain ⟨hstatus, hseated⟩ := hpicks.seated hinv
  have hlookup : PLAYABLE_ROLES.lookup (js "spectator") = some .spectator := by decide
  refine ⟨RoomService.withPlayer room playerId fun p => { p with role := .spectator }, ?_⟩
  simp only [RoomService.selectRole, JsValue.string?, Option.bind_some, hlookup, bind_eq_ok,
    throwIf_eq_ok, hstatus, hseated, exists_const]
  simp [pure, Except.pure]

theorem leave_iff :
    (∀ next ∈ ((RoomOp.leave playerId random now).step rt code (some room)).1,
      next.ChooserDances) ↔ ¬(RoomOp.leave playerId random now).Strays rt room := by
  have hdecide : ∀ next, (JoinRoom.leave rt playerId random now).decide room =
      .ok (.room next) ↔ RoomService.leave rt room playerId random now = .ok next ∧
        next.players ≠ [] := by
    intro next
    simp only [RoomUpdate.decide, JoinRoom.leave]
    cases hleave : RoomService.leave rt room playerId random now with
    | error e => simp
    | ok updated =>
      simp only [Except.ok.injEq, List.length_eq_zero_iff]
      split_ifs with hnil <;> grind
  refine (chooserDances_execute_iff hdances fun next h =>
    (RoomService.leave_spec ((hdecide next).mp h).1).version_eq).trans ?_
  constructor
  · rintro h ⟨s, hpicks, hdraws⟩
    obtain ⟨next, hnext⟩ := RoomService.exists_leave rt random now (hpicks.seated hinv).2
    refine (chooserDances_of_leave hinv hdances hnext).mp (h next ?_) ⟨s, hpicks, hdraws⟩
    refine (hdecide next).mpr ⟨hnext, ?_⟩
    rw [(RoomService.leave_spec hnext).players_eq]
    exact hdraws.players_ne_nil
  · exact fun hstrays next hnext =>
      (chooserDances_of_leave hinv hdances ((hdecide next).mp hnext).1).mpr hstrays

theorem kick_iff (requesterId target : JsString) :
    (∀ next ∈ ((RoomOp.kick requesterId (.string target) random now).step rt code
      (some room)).1, next.ChooserDances) ↔
        ¬(RoomOp.kick requesterId (.string target) random now).Strays rt room := by
  refine (chooserDances_execute_iff hdances fun next h =>
    ((keeps_kick requesterId (.string target) random now).change next h).frame.2).trans ?_
  refine .trans (forall_congr' fun next => imp_congr_left map_room_eq_ok) ?_
  have hleft : ∀ {next}, RoomService.kick rt room requesterId (.string target) random now =
      .ok next → requesterId = room.hostId ∧ target ≠ requesterId ∧
        RoomService.leave rt room target random now = .ok next := by
    intro next h
    simp only [RoomService.kick, JsValue.string?, bind_eq_ok, throwIf_eq_ok, exists_const,
      not_not] at h
    exact ⟨h.1.symm, h.2.2.1, h.2.2.2.2⟩
  refine forall_chooserDances_iff (fun next h => ?_) ?_
  · obtain ⟨hhost, hother, hnext⟩ := hleft h
    rw [chooserDances_of_leave hinv hdances hnext, RoomOp.Strays, and_iff_right hhost,
      and_iff_right hother]
  · rintro ⟨hhost, hother, s, hpicks, -⟩
    obtain ⟨hstatus, hseated⟩ := hpicks.seated hinv
    obtain ⟨next, hnext⟩ := RoomService.exists_leave rt random now hseated
    refine ⟨next, ?_⟩
    simp only [RoomService.kick, JsValue.string?, bind_eq_ok, throwIf_eq_ok, exists_const,
      not_not]
    exact ⟨hhost.symm, hstatus, hother, hseated, hnext⟩

/-- From a room whose chooser dances, a call leaves the choice with a dancer unless it strays. -/
theorem step_chooserDances_iff (op : RoomOp) :
    (∀ next ∈ (op.step rt code (some room)).1, next.ChooserDances) ↔ ¬op.Strays rt room := by
  by_cases hop : op.entrusts
  · cases op with
    | selectRole playerId role => exact selectRole_iff hinv hdances role
    | submitPhrase playerId text now random =>
      cases text with
      | string text => exact submitPhrase_iff hdances text
      | _ => exact iff_of_true (chooserDances_of_change hdances fun _ h => nomatch h) id
    | expireChallenge challengeId random now => exact expireChallenge_iff hdances challengeId
    | leave playerId random now => exact leave_iff hinv hdances
    | kick requesterId target random now =>
      cases target with
      | string target => exact kick_iff hinv hdances requesterId target
      | _ => exact iff_of_true (chooserDances_of_change hdances fun _ h => nomatch h) id
    | _ => cases hop
  · refine iff_of_true (chooserDances_of_change hdances fun _ h => h.chooserDances hdances hop) ?_
    cases op <;> first | exact id | exact absurd rfl hop

end Step

/-- A room just created has no chooser. -/
theorem chooserDances_of_none (rt : Runtime) (code : JsString) (op : RoomOp) :
    ∀ next ∈ (op.step rt code none).1, next.ChooserDances := by
  have hstored : Stored rt code none op (op.step rt code none).1 := step_spec rt code none op
  generalize (op.step rt code none).1 = slot at hstored
  cases hstored with
  | unchanged => simp
  | created =>
    rintro next ⟨⟩
    exact chooserDances_of_phase_ne (by simp [RoomService.newRoom])

/-- In a run from a free code, the chooser of every stored room is a dancer exactly when no call
strays. -/
theorem chooserDances_iff (rt : Runtime) (code : JsString) (ops : List RoomOp) :
    (∀ e ∈ (roomMachine rt code).trace none ops, ∀ room ∈ e.after, room.ChooserDances) ↔
      ∀ e ∈ (roomMachine rt code).trace none ops, ∀ room ∈ e.before, ¬e.input.Strays rt room := by
  -- Around every event the selection agrees with the players, so one call decides on its own.
  have hinv : ∀ e ∈ (roomMachine rt code).trace none ops, ∀ room ∈ e.before,
      SelectionInvariant room := fun e he =>
    (Machine.invariant_of_mem_trace (P := fun slot => ∀ room ∈ slot, SelectionInvariant room)
      (fun e he h => (stored_of_mem_trace he).selectionInvariant h) (by simp) he).1
  have hafter : ∀ e ∈ (roomMachine rt code).trace none ops,
      e.after = (e.input.step rt code e.before).1 := fun e he =>
    congrArg Machine.Event.after (Machine.event_of_mem_trace he)
  constructor
  · intro hall e he room hroom
    have hbefore := (Machine.invariant_of_mem_trace
      (P := fun slot => ∀ room ∈ slot, room.ChooserDances) (fun e he _ => hall e he) (by simp) he).1
    have hiff : (∀ next ∈ (e.input.step rt code (some room)).1, next.ChooserDances) ↔ _ :=
      step_chooserDances_iff (hinv e he room hroom) (hbefore room hroom) e.input
    rw [← Option.mem_def.mp hroom, ← hafter e he] at hiff
    exact hiff.mp (hall e he)
  · intro hstrays e he
    refine (Machine.invariant_of_mem_trace (P := fun slot => ∀ room ∈ slot, room.ChooserDances)
      (fun e he hbefore => ?_) (by simp) he).2
    rw [hafter e he]
    cases hslot : e.before with
    | none => exact chooserDances_of_none rt code e.input
    | some room =>
      exact (step_chooserDances_iff (hinv e he room hslot) (hbefore room hslot) e.input).mpr
        (hstrays e he room hslot)

/-- Bob decides to watch while the phrase is on screen, and then types it. -/
def sampleWatcher : List RoomOp :=
  sampleLobby.take 9 ++
    [.selectRole (js "bob") (.string (js "spectator")),
      .submitPhrase (js "bob") (.string (js "ritmo")) 2000 .first]

/-- A spectator picks the song. -/
theorem watcher_picks_song :
    ∃ room ∈ (roomMachine .ascii (js "ROOM22")).run none sampleWatcher,
      room.status = .waiting ∧ ¬room.ChooserDances := by
  decide +kernel

end DanceSync
