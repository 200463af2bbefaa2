import DanceSync.Application.Replies
import DanceSync.Lifecycle.SelectionInvariant

/-!
# One typed winner for each challenge

From the start of a challenge until the next start or rematch, submissions, the countdown,
departures of participants and of choosers all end in the same field, by different branches. What
one operation may do to the selection is said once in `SelectionChange`; the run facts follow from
the events of the run. A challenge that expires at an `Invalid Date` is typed at any time.

## Main definitions

* `SelectionChange`: what an operation does to the song selection.
* `RoomEvent.accepted`, `RoomEvent.incorrectBy`, `RoomEvent.departs`: events of a run.
* `Room.TypedChooser`: the chooser is the player who typed the phrase.

## Main results

* `Change.selectionChange`.
* `countP_accepted_le_one`, `countP_incorrectBy_le_one`: one winner, and one wrong attempt for
  each player.
* `typedChooser_run`: the winner keeps the choice.
* `fair_of_mem_trace`: the fallback prefers those who did not misspell.
-/

namespace DanceSync

namespace RoomOp

/-- The operations that begin a new song selection. -/
def restarts : RoomOp → Bool
  | .startChallenge .. | .rematch .. => true
  | _ => false

/-- The operations that take a player out of the room. -/
def departs (playerId : JsString) : RoomOp → Bool
  | .leave id _ _ => id = playerId
  | .kick _ (.string id) _ _ => id = playerId
  | _ => false

end RoomOp

variable {rt : Runtime} {code : JsString} {room next : Room} {op : RoomOp} {playerId : JsString}
  {now : Instant} {selection : SongSelection} {reason : ChooserReason} {ops : List RoomOp}

/-! ### What an operation does to the selection -/

/-- What an operation does to the song selection of a room. -/
inductive SelectionChange (rt : Runtime) (room : Room) (op : RoomOp) (next : Room) : Prop
  | kept (h : next.songSelection = room.songSelection)
  | restarted (h : op.restarts)
  | misspelled (s : SongSelection) (playerId : JsString) (hs : room.songSelection = some s)
      (hphase : s.phase = .typing)
      (hnext : next.songSelection = some (SongSelectionService.misspelled s playerId))
  | typed (s : SongSelection) (playerId : JsString) (now : Instant)
      (hs : room.songSelection = some s) (hphase : s.phase = .typing)
      (hnext : next.songSelection = some (SongSelectionService.choosing s playerId .typed now))
  | timedOut (s : SongSelection) (now : Instant) (hs : room.songSelection = some s)
      (hphase : s.phase = .typing)
      (h : SongSelectionService.Fallback room s .timeout now next)
  | allMisspelled (s : SongSelection) (playerId : JsString) (now : Instant)
      (hs : room.songSelection = some s) (hphase : s.phase = .typing)
      (h : SongSelectionService.Fallback room (SongSelectionService.misspelled s playerId)
        .allFailed now next)
  | passedOn (s : SongSelection) (playerId : JsString) (settled : Room) (now : Instant)
      (hs : room.songSelection = some s) (hphase : s.phase = .choosing)
      (hchooser : s.chooserId = some playerId) (hop : op.departs playerId)
      (h : SongSelectionService.Fallback settled s .chooserLeft now next)
  | picked (s : SongSelection) (autoPicked : Bool) (hs : room.songSelection = some s)
      (hphase : s.phase = .choosing)
      (hnext : next.songSelection =
        some { s with phase := .done, chooseDeadline := none, autoPicked })
  | cancelled (s : SongSelection) (hs : room.songSelection = some s)
      (hphase : s.phase = .choosing) (hoptions : s.songOptions = [])
      (hnext : next.songSelection = none)

namespace SelectionChange

theorem departed (hop : op.departs playerId)
    (hdeparted : RoomService.Departed rt room playerId now next) :
    SelectionChange rt room op next := by
  obtain ⟨hseated, hsettled, hpassed⟩ := hdeparted
  obtain ⟨hselection, -⟩ := hsettled.selection_eq
  cases hpassed with
  | kept => exact .kept hselection
  | passed s hs hphase hchooser hfallback =>
    exact .passedOn s playerId _ now (hselection.symm.trans hs) hphase hchooser hop hfallback

/-- The start of the battle that follows a choice does not touch the selection. -/
theorem selection_eq_of_started {options : StartBattleOptions} {chosen : Room}
    (h : next = chosen ∨ RoomService.Started chosen options next) :
    next.songSelection = chosen.songSelection := by
  rcases h with rfl | h
  · rfl
  · exact h.selection_eq

end SelectionChange

theorem Change.selectionChange (hchange : Change rt room op next) :
    SelectionChange rt room op next := by
  cases hchange with
  | left hdeparted => exact .departed (by simp [RoomOp.departs]) hdeparted
  | kicked hstatus hother hdeparted => exact .departed (by simp [RoomOp.departs]) hdeparted
  | challengeStarted => exact .restarted rfl
  | rematched => exact .restarted rfl
  | submitted outcome hsubmitted =>
    cases hsubmitted with
    | expired s hs hphase _ _ _ h => exact .timedOut s _ hs hphase h
    | accepted s hs hphase => exact .typed s _ _ hs hphase rfl
    | misspelled s hs hphase => exact .misspelled s _ hs hphase rfl
    | allMisspelled s hs hphase _ _ _ _ _ _ h => exact .allMisspelled s _ _ hs hphase h
  | expired s hs hphase _ h => exact .timedOut s _ hs hphase h
  | songChosen hchosen hnext =>
    have hselection := SelectionChange.selection_eq_of_started hnext
    obtain ⟨s, song, hs, hphase⟩ := hchosen
    exact .picked s s.autoPicked hs hphase hselection
  | songPicked hpicked hnext =>
    have hselection := SelectionChange.selection_eq_of_started hnext
    cases hpicked with
    | cancelled s deadline hs hphase _ _ _ hnil => exact .cancelled s hs hphase hnil hselection
    | picked s deadline song hs hphase => exact .picked s true hs hphase hselection
  | battleStarted hstarted => exact .kept hstarted.selection_eq
  | _ => exact .kept rfl

/-! ### The challenge of a run -/

/-- Two states of the selection belong to the same challenge. -/
def SongSelection.SameChallenge (s c : SongSelection) : Prop :=
  s.challenge = c.challenge ∧ s.participantIds = c.participantIds ∧ s.songOptions = c.songOptions

/-- The selection, while there is one, belongs to one challenge. -/
def Room.InChallenge (c : SongSelection) (room : Room) : Prop :=
  ∀ s ∈ room.songSelection, s.SameChallenge c

theorem inChallenge_of_fallback {c : SongSelection} (hselection : selection.SameChallenge c)
    (h : SongSelectionService.Fallback room selection reason now next) : next.InChallenge c := by
  cases h with
  | cancelled => simp [Room.InChallenge]
  | assigned chooserId =>
    rintro s ⟨⟩
    exact hselection

theorem SelectionChange.inChallenge {c : SongSelection} (h : SelectionChange rt room op next)
    (hop : ¬op.restarts) (hroom : room.InChallenge c) : next.InChallenge c := by
  cases h with
  | kept h => rwa [Room.InChallenge, h]
  | restarted h => exact absurd h hop
  | misspelled s p hs _ hnext | typed s p _ hs _ hnext | picked s auto hs _ hnext =>
    rintro t ht
    obtain rfl := Option.some.inj (hnext.symm.trans ht)
    exact hroom s hs
  | timedOut s now hs _ h => exact inChallenge_of_fallback (hroom s hs) h
  | allMisspelled s p now hs _ h =>
    have hsame : (SongSelectionService.misspelled s p).SameChallenge c := hroom s hs
    exact inChallenge_of_fallback hsame h
  | passedOn s p settled now hs _ _ _ h => exact inChallenge_of_fallback (hroom s hs) h
  | cancelled s hs _ _ hnext => simp [Room.InChallenge, hnext]

/-- A phrase on screen was on screen before, and no attempt is given back. -/
theorem SelectionChange.typing_before (h : SelectionChange rt room op next) (hop : ¬op.restarts)
    {s : SongSelection} (hs : next.songSelection = some s) (hphase : s.phase = .typing) :
    ∃ t, room.songSelection = some t ∧ t.phase = .typing ∧ t.failedIds ⊆ s.failedIds := by
  have hfallback : ∀ {room' : Room} {t : SongSelection} {reason now},
      ¬SongSelectionService.Fallback room' t reason now next := by
    intro room' t reason now hf
    cases hf with
    | cancelled => simp at hs
    | assigned => exact absurd hphase (by rw [← Option.some.inj hs]; simp)
  cases h with
  | kept h => exact ⟨s, h.symm.trans hs, hphase, List.Subset.refl _⟩
  | restarted h => exact absurd h hop
  | misspelled t p ht htyping hnext =>
    obtain rfl := Option.some.inj (hnext.symm.trans hs)
    exact ⟨t, ht, htyping, List.subset_append_left _ _⟩
  | typed t p now ht _ hnext | picked t auto ht _ hnext =>
    obtain rfl := Option.some.inj (hnext.symm.trans hs)
    simp at hphase
  | timedOut _ _ _ _ h => exact (hfallback h).elim
  | allMisspelled _ _ _ _ _ h => exact (hfallback h).elim
  | passedOn _ _ _ _ _ _ _ _ h => exact (hfallback h).elim
  | cancelled t ht _ _ hnext => simp [hnext] at hs

/-! ### Fairness of the fallback -/

/-- A fallback chooser takes part and is present, and misspelled only when everyone present did. -/
def Room.FairChooser (room : Room) (s : SongSelection) : Prop :=
  ∃ id ∈ s.participantIds, s.chooserId = some id ∧ id ∈ room.playerIds ∧
    (id ∈ s.failedIds → ∀ other ∈ s.participantIds, other ∈ room.playerIds → other ∈ s.failedIds)

theorem fairChooser_of_fallback
    (h : SongSelectionService.Fallback room selection reason now next) :
    ∀ s ∈ next.songSelection, next.FairChooser s := by
  cases h with
  | cancelled => simp
  | assigned chooserId hcandidate =>
    rintro s ⟨⟩
    obtain ⟨hparticipant, hpresent⟩ :=
      SongSelectionService.mem_of_mem_fallbackCandidates hcandidate
    exact ⟨chooserId, hparticipant, rfl, hpresent, fun hfailed other hother hseated =>
      SongSelectionService.failed_of_mem_fallbackCandidates hcandidate hfailed hother hseated⟩

/-- An operation that hands the choice to somebody who did not type the phrase is fair. -/
theorem SelectionChange.fairChooser (h : SelectionChange rt room op next) (hop : ¬op.restarts)
    {s : SongSelection} (hs : next.songSelection = some s) (hphase : s.phase = .choosing)
    (hassigned : room.songSelection ≠ some s) (hreason : s.chooserReason ≠ some .typed) :
    next.FairChooser s := by
  cases h with
  | kept h => exact absurd (h.symm.trans hs) hassigned
  | restarted h => exact absurd h hop
  | misspelled t p ht htyping hnext =>
    obtain rfl := Option.some.inj (hnext.symm.trans hs)
    simp [htyping] at hphase
  | typed t p now ht htyping hnext =>
    obtain rfl := Option.some.inj (hnext.symm.trans hs)
    exact absurd rfl hreason
  | timedOut t now ht htyping h => exact fairChooser_of_fallback h s hs
  | allMisspelled t p now ht htyping h => exact fairChooser_of_fallback h s hs
  | passedOn t p settled now ht hchoosing _ _ h => exact fairChooser_of_fallback h s hs
  | picked t auto ht hchoosing hnext =>
    obtain rfl := Option.some.inj (hnext.symm.trans hs)
    simp at hphase
  | cancelled t ht hchoosing _ hnext => simp [hnext] at hs

/-! ### Runs of one challenge -/

namespace RoomEvent

/-- An event that begins no new selection: a start or a rematch that is refused. -/
def Quiet (e : RoomEvent) : Prop := e.input.restarts → e.after = e.before

/-- A submission that wins the choice. -/
def accepted (e : RoomEvent) : Bool :=
  match e.input, e.output with
  | .submitPhrase .., .ok (.submitted _ .accepted) => true
  | _, _ => false

/-- A wrong attempt of a player. -/
def incorrectBy (playerId : JsString) (e : RoomEvent) : Bool :=
  match e.input, e.output with
  | .submitPhrase id .., .ok (.submitted _ .incorrect) => id = playerId
  | _, _ => false

/-- A stored departure of a player. -/
def Departure (playerId : JsString) (e : RoomEvent) : Prop :=
  e.input.departs playerId ∧ e.after ≠ e.before

end RoomEvent

/-- The phrase is on screen. -/
def OnScreen (slot : Option Room) : Prop :=
  ∃ r ∈ slot, ∃ s ∈ r.songSelection, s.phase = .typing

/-- The phrase is on screen and the player has not misspelled it. -/
def CanAttempt (playerId : JsString) (slot : Option Room) : Prop :=
  ∃ r ∈ slot, ∃ s ∈ r.songSelection, s.phase = .typing ∧ playerId ∉ s.failedIds

/-- The choice belongs to the player who typed the phrase. -/
def TypedChooser (playerId : JsString) (slot : Option Room) : Prop :=
  ∃ r ∈ slot, ∃ s ∈ r.songSelection, s.phase = .choosing ∧ s.chooserId = some playerId ∧
    s.chooserReason = some .typed

/-- A stored change is no restart when no restart is stored. -/
theorem not_restarts_of_quiet
    (h : op.restarts → some { next with version := room.version + 1 } = some room) :
    ¬op.restarts := by
  exact fun hop => stored_ne (h hop)

section Slots

variable {slot slot' : Option Room}

theorem Stored.typing_before (hstored : Stored rt code slot op slot')
    (hquiet : op.restarts → slot' = slot) {r : Room} (hr : r ∈ slot') {s : SongSelection}
    (hs : s ∈ r.songSelection) (hphase : s.phase = .typing) :
    ∃ r₀ ∈ slot, ∃ s₀ ∈ r₀.songSelection, s₀.phase = .typing ∧ s₀.failedIds ⊆ s.failedIds := by
  cases hstored with
  | unchanged => exact ⟨r, hr, s, hs, hphase, List.Subset.refl _⟩
  | created p =>
    obtain rfl := Option.some.inj hr
    simp [RoomService.newRoom] at hs
  | changed hchange =>
    obtain rfl := Option.some.inj hr
    obtain ⟨t, ht, htyping, hfailed⟩ :=
      hchange.selectionChange.typing_before (not_restarts_of_quiet hquiet) hs hphase
    exact ⟨_, rfl, t, ht, htyping, hfailed⟩
  | deleted => simp at hr

theorem Stored.not_onScreen (hstored : Stored rt code slot op slot')
    (hquiet : op.restarts → slot' = slot) (h : ¬OnScreen slot) : ¬OnScreen slot' := by
  rintro ⟨r, hr, s, hs, hphase⟩
  obtain ⟨r₀, hr₀, s₀, hs₀, htyping, -⟩ := hstored.typing_before hquiet hr hs hphase
  exact h ⟨r₀, hr₀, s₀, hs₀, htyping⟩

theorem Stored.not_canAttempt (hstored : Stored rt code slot op slot')
    (hquiet : op.restarts → slot' = slot) (h : ¬CanAttempt playerId slot) :
    ¬CanAttempt playerId slot' := by
  rintro ⟨r, hr, s, hs, hphase, hattempt⟩
  obtain ⟨r₀, hr₀, s₀, hs₀, htyping, hfailed⟩ := hstored.typing_before hquiet hr hs hphase
  exact h ⟨r₀, hr₀, s₀, hs₀, htyping, fun hmem => hattempt (hfailed hmem)⟩

/-- One operation leaves the choice with the player who typed the phrase. -/
theorem Stored.typedChooser {c : SongSelection} (hstored : Stored rt code slot op slot')
    (hquiet : op.restarts → slot' = slot) (hsongs : c.songOptions ≠ [])
    (hchallenge : ∀ r ∈ slot, r.InChallenge c) (hinvariant : ∀ r ∈ slot, SelectionInvariant r)
    (hstays : ¬(op.departs playerId ∧ slot' ≠ slot)) (hopen : ∀ r ∈ slot', ¬r.SongChosen)
    (h : TypedChooser playerId slot) : TypedChooser playerId slot' := by
  obtain ⟨r, hr, s, hs, hphase, hchooser, hreason⟩ := h
  have hsame : ∀ {t}, r.songSelection = some t → s = t := fun ht =>
    Option.some.inj (hs.symm.trans ht)
  cases hstored with
  | unchanged => exact ⟨r, hr, s, hs, hphase, hchooser, hreason⟩
  | created p => simp at hr
  | @deleted _ _ id _ _ hdeparted hplayers =>
    obtain rfl := Option.some.inj hr
    obtain ⟨p, hp, rfl⟩ :=
      List.mem_map.mp ((hinvariant _ rfl).present s hs hphase playerId hchooser)
    rw [hdeparted.players_eq, List.filter_eq_nil_iff] at hplayers
    have hid : p.id = id := by simpa using hplayers p hp
    exact absurd ⟨by simp [RoomOp.departs, hid], by simp⟩ hstays
  | changed hchange =>
    obtain rfl := Option.some.inj hr
    cases hchange.selectionChange with
    | kept h => exact ⟨_, rfl, s, h.trans hs, hphase, hchooser, hreason⟩
    | restarted h => exact absurd h (not_restarts_of_quiet hquiet)
    | misspelled t p ht htyping | typed t p now ht htyping | timedOut t now ht htyping
    | allMisspelled t p now ht htyping =>
      obtain rfl := hsame ht
      exact absurd (hphase.symm.trans htyping) (by decide)
    | passedOn t p settled now ht hchoosing hp hop =>
      obtain rfl := hsame ht
      obtain rfl := Option.some.inj (hchooser.symm.trans hp)
      exact absurd ⟨hop, stored_ne⟩ hstays
    | picked t auto ht hchoosing hnext => exact absurd ⟨_, hnext, rfl⟩ (hopen _ rfl)
    | cancelled t ht hchoosing hoptions =>
      obtain rfl := hsame ht
      exact absurd ((hchallenge _ rfl s hs).2.2.symm.trans hoptions) hsongs

theorem Stored.inChallenge {c : SongSelection} (hstored : Stored rt code slot op slot')
    (hquiet : op.restarts → slot' = slot) (h : ∀ r ∈ slot, r.InChallenge c) :
    ∀ r ∈ slot', r.InChallenge c := by
  cases hstored with
  | unchanged => exact h
  | created p =>
    rintro r ⟨⟩
    simp [Room.InChallenge, RoomService.newRoom]
  | changed hchange =>
    rintro r ⟨⟩
    exact hchange.selectionChange.inChallenge (not_restarts_of_quiet hquiet) (h _ rfl)
  | deleted => simp

end Slots

section Runs

variable {slot : Option Room} {e : RoomEvent}

namespace RoomEvent

theorem accepted_iff : e.accepted = true ↔ ∃ playerId text now random r,
    e.input = .submitPhrase playerId text now random ∧
      e.output = .ok (.submitted r .accepted) := by
  unfold accepted
  split
  next p text now random r hinput houtput => simp [hinput, houtput]
  next hnot =>
    simp only [Bool.false_eq_true, false_iff, not_exists, not_and]
    exact fun p text now random r hinput houtput => hnot p text now random r hinput houtput

theorem incorrectBy_iff : e.incorrectBy playerId = true ↔ ∃ text now random r,
    e.input = .submitPhrase playerId text now random ∧
      e.output = .ok (.submitted r .incorrect) := by
  unfold incorrectBy
  split
  next p text now random r hinput houtput => simp [hinput, houtput]
  next hnot =>
    simp only [Bool.false_eq_true, false_iff, not_exists, not_and]
    exact fun text now random r hinput houtput => hnot playerId text now random r hinput houtput

end RoomEvent

/-- A submission of a run that is answered with an outcome. -/
theorem submitted_of_mem_trace (he : e ∈ (roomMachine rt code).trace slot ops) {text : JsValue}
    {random : RandomIndex} {r : Room} {outcome : SubmitOutcome}
    (hinput : e.input = .submitPhrase playerId text now random)
    (houtput : e.output = .ok (.submitted r outcome)) :
    ∃ t room next, text = .string t ∧ e.before = some room ∧
      SongSelectionService.Submitted rt room playerId t now outcome next ∧
      e.after = some { next with version := room.version + 1 } := by
  have hevent := Machine.event_of_mem_trace he
  rw [hinput] at hevent
  have hreply := (congrArg Machine.Event.output hevent).symm.trans houtput
  obtain ⟨t, room, next, htext, hroom, hsubmitted, hstored⟩ := submitted_of_reply hreply
  exact ⟨t, room, next, htext, hroom, hsubmitted,
    (congrArg Machine.Event.after hevent).trans hstored⟩

/-- A selection that is being chosen or is settled is no longer on screen. -/
theorem not_canAttempt_of_fallback {version : ℕ}
    (h : SongSelectionService.Fallback room selection reason now next) :
    ¬CanAttempt playerId (some { next with version }) := by
  rintro ⟨r, ⟨⟩, s, hs, hphase, -⟩
  cases h with
  | cancelled => simp at hs
  | assigned =>
    obtain rfl := Option.some.inj hs
    simp at hphase

/-- At most one submission of a challenge is accepted. -/
theorem countP_accepted_le_one
    (hquiet : ∀ e ∈ (roomMachine rt code).trace slot ops, RoomEvent.Quiet e) :
    ((roomMachine rt code).trace slot ops).countP RoomEvent.accepted ≤ 1 := by
  refine Machine.countP_trace_le_one OnScreen (fun e he haccepted => ?_) fun e he =>
    (stored_of_mem_trace he).not_onScreen (hquiet e he)
  obtain ⟨p, text, now, random, r, hinput, houtput⟩ := RoomEvent.accepted_iff.mp haccepted
  obtain ⟨t, room, next, -, hbefore, hsubmitted, hafter⟩ :=
    submitted_of_mem_trace he hinput houtput
  cases hsubmitted with
  | accepted s hs hphase =>
    refine ⟨⟨room, hbefore, s, hs, hphase⟩, ?_⟩
    rw [hafter]
    rintro ⟨r', ⟨⟩, s', ⟨⟩, hphase'⟩
    simp at hphase'

/-- At most one wrong attempt of a player is counted in a challenge. -/
theorem countP_incorrectBy_le_one (playerId : JsString)
    (hquiet : ∀ e ∈ (roomMachine rt code).trace slot ops, RoomEvent.Quiet e) :
    ((roomMachine rt code).trace slot ops).countP (RoomEvent.incorrectBy playerId) ≤ 1 := by
  refine Machine.countP_trace_le_one (CanAttempt playerId)
    (fun e he hincorrect => ?_) fun e he =>
    (stored_of_mem_trace he).not_canAttempt (hquiet e he)
  obtain ⟨text, now, random, r, hinput, houtput⟩ := RoomEvent.incorrectBy_iff.mp hincorrect
  obtain ⟨t, room, next, -, hbefore, hsubmitted, hafter⟩ :=
    submitted_of_mem_trace he hinput houtput
  rw [hbefore, hafter]
  cases hsubmitted with
  | misspelled s hs hphase _ _ _ hattempt =>
    refine ⟨⟨room, rfl, s, hs, hphase, hattempt⟩, ?_⟩
    rintro ⟨r', ⟨⟩, s', ⟨⟩, -, hnot⟩
    simp [SongSelectionService.misspelled] at hnot
  | allMisspelled s hs hphase _ _ _ hattempt _ _ hfallback =>
    exact ⟨⟨room, rfl, s, hs, hphase, hattempt⟩, not_canAttempt_of_fallback hfallback⟩

/-- The winner keeps the choice until they leave or the song is picked. -/
theorem typedChooser_run {c : SongSelection} (hsongs : c.songOptions ≠ [])
    (hchallenge : ∀ r ∈ slot, r.InChallenge c) (hinvariant : ∀ r ∈ slot, SelectionInvariant r)
    (hquiet : ∀ e ∈ (roomMachine rt code).trace slot ops, RoomEvent.Quiet e)
    (hstays : ∀ e ∈ (roomMachine rt code).trace slot ops, ¬RoomEvent.Departure playerId e)
    (hopen : ∀ e ∈ (roomMachine rt code).trace slot ops, ∀ r ∈ e.after, ¬r.SongChosen)
    (h : TypedChooser playerId slot) :
    TypedChooser playerId ((roomMachine rt code).run slot ops) := by
  refine (Machine.run_invariant (P := fun slot => (∀ r ∈ slot, r.InChallenge c) ∧
    (∀ r ∈ slot, SelectionInvariant r) ∧ TypedChooser playerId slot)
    (fun e he hbefore => ?_) ⟨hchallenge, hinvariant, h⟩).2.2
  obtain ⟨hc, hi, ht⟩ := hbefore
  have hstored := stored_of_mem_trace he
  exact ⟨hstored.inChallenge (hquiet e he) hc, hstored.selectionInvariant hi,
    hstored.typedChooser (hquiet e he) hsongs hc hi (hstays e he) (hopen e he) ht⟩

/-- Whoever is handed the choice without typing the phrase is a fair choice. -/
theorem fair_of_mem_trace (he : e ∈ (roomMachine rt code).trace slot ops)
    (hquiet : RoomEvent.Quiet e) {r : Room} (hr : r ∈ e.after) {s : SongSelection}
    (hs : s ∈ r.songSelection) (hphase : s.phase = .choosing)
    (hassigned : ∀ r₀ ∈ e.before, r₀.songSelection ≠ some s)
    (hreason : s.chooserReason ≠ some .typed) : r.FairChooser s := by
  have hstored := stored_of_mem_trace he
  obtain ⟨before, op, output, after⟩ := e
  cases hstored with
  | unchanged => exact absurd hs (hassigned r hr)
  | created p =>
    obtain rfl := Option.some.inj hr
    simp [RoomService.newRoom] at hs
  | changed hchange =>
    obtain rfl := Option.some.inj hr
    exact hchange.selectionChange.fairChooser (not_restarts_of_quiet hquiet) hs hphase
      (hassigned _ rfl) hreason
  | deleted => simp at hr

/-- A winning submission came in time from a participant with an attempt left. -/
def RoomEvent.WonFairly (rt : Runtime) (c : SongSelection) (e : RoomEvent) : Prop :=
  ∃ playerId text now random r s,
    e.input = .submitPhrase playerId (.string text) now random ∧ e.before = some r ∧
      r.songSelection = some s ∧ s.SameChallenge c ∧ playerId ∈ s.participantIds ∧
      playerId ∈ r.playerIds ∧ playerId ∉ s.failedIds ∧ now < s.challenge.expiresAt ∧
      normalizeAttempt rt text = s.challenge.phrase ∧ TypedChooser playerId e.after

theorem wonFairly_of_mem_trace {c : SongSelection} (he : e ∈ (roomMachine rt code).trace slot ops)
    (hchallenge : ∀ r ∈ e.before, r.InChallenge c) (hdated : c.challenge.expiresAt.Valid)
    (haccepted : e.accepted) : e.WonFairly rt c := by
  obtain ⟨p, text, now, random, r, hinput, houtput⟩ := RoomEvent.accepted_iff.mp haccepted
  obtain ⟨t, room, next, rfl, hbefore, hsubmitted, hafter⟩ :=
    submitted_of_mem_trace he hinput houtput
  cases hsubmitted with
  | accepted s hs hphase hparticipant hpresent htime hattempt hmatch =>
    have hsame : s.SameChallenge c := hchallenge room hbefore s hs
    have hopen : now < s.challenge.expiresAt := Date.lt_of_not_le (hsame.1 ▸ hdated) htime
    refine ⟨p, t, now, random, room, s, hinput, hbefore, hs, hsame, hparticipant, hpresent,
      hattempt, hopen, hmatch, ?_⟩
    rw [hafter]
    exact ⟨_, rfl, _, rfl, rfl, rfl, rfl⟩

end Runs

/-- From an accepted start of a challenge that ends at a valid date until the next accepted start or
rematch, with songs to choose from: at most one submission is accepted, and it is a fair win; the
winner keeps the choice until they leave or the song is picked; no wrong attempt is counted twice,
and nobody who misspelled the phrase holds the choice for typing it; every other chooser is a fair
one. -/
theorem song_challenge (rt : Runtime) (code : JsString) (ops₀ ops : List RoomOp)
    (requesterId : JsString) (options : StartChallengeOptions) (slot : Option Room) (reply : Reply)
    (hstart : (roomMachine rt code).step ((roomMachine rt code).run none ops₀)
      (.startChallenge requesterId options) = (slot, .ok reply))
    (hsongs : options.songs ≠ []) (hdated : (options.now.add options.durationMs).Valid)
    (hquiet : ∀ e ∈ (roomMachine rt code).trace slot ops, RoomEvent.Quiet e) :
    ∃ room c, slot = some room ∧ room.songSelection = some c ∧ c.phase = .typing ∧
      ((roomMachine rt code).trace slot ops).countP RoomEvent.accepted ≤ 1 ∧
      (∀ e ∈ (roomMachine rt code).trace slot ops, RoomEvent.accepted e →
        RoomEvent.WonFairly rt c e) ∧
      (∀ pre post playerId, ops = pre ++ post →
        TypedChooser playerId ((roomMachine rt code).run slot pre) →
        (∀ e ∈ (roomMachine rt code).trace ((roomMachine rt code).run slot pre) post,
          ¬RoomEvent.Departure playerId e ∧ ∀ r ∈ e.after, ¬r.SongChosen) →
        TypedChooser playerId ((roomMachine rt code).run slot ops)) ∧
      (∀ playerId,
        ((roomMachine rt code).trace slot ops).countP (RoomEvent.incorrectBy playerId) ≤ 1) ∧
      (∀ r ∈ (roomMachine rt code).run slot ops, ∀ s ∈ r.songSelection, s.failedIds.Nodup ∧
        (s.chooserReason = some .typed → ∀ id ∈ s.chooserId, id ∉ s.failedIds)) ∧
      ∀ e ∈ (roomMachine rt code).trace slot ops, ∀ r ∈ e.after, ∀ s ∈ r.songSelection,
        s.phase = .choosing → (∀ r₀ ∈ e.before, r₀.songSelection ≠ some s) →
        s.chooserReason ≠ some .typed → r.FairChooser s := by
  obtain ⟨room₀, phrase, hroom₀, hslot⟩ := started_of_reply hstart
  obtain ⟨c, hc⟩ : ∃ c, (SongSelectionService.challenged room₀ options phrase).songSelection =
    some c := ⟨_, rfl⟩
  have hinvariant : ∀ r ∈ slot, SelectionInvariant r := by
    have hrun : ∀ r ∈ (roomMachine rt code).run none
        (ops₀ ++ [.startChallenge requesterId options]), SelectionInvariant r :=
      selectionInvariant_run rt code _ (by simp)
    have hnext : (roomMachine rt code).next ((roomMachine rt code).run none ops₀)
        (.startChallenge requesterId options) = slot := congrArg Prod.fst hstart
    rwa [Machine.run_append, Machine.run_cons, Machine.run_nil, hnext] at hrun
  have hchallenge : ∀ r ∈ slot, r.InChallenge c := by
    rw [hslot]
    rintro r ⟨⟩ s hs
    obtain rfl : c = s := Option.some.inj (hc.symm.trans hs)
    exact ⟨rfl, rfl, rfl⟩
  have hin : ∀ e ∈ (roomMachine rt code).trace slot ops,
      (∀ r ∈ e.before, r.InChallenge c) → ∀ r ∈ e.after, r.InChallenge c := fun e he h =>
    (stored_of_mem_trace he).inChallenge (hquiet e he) h
  have hoptions : c.songOptions ≠ [] := by
    obtain rfl := Option.some.inj hc
    exact hsongs
  refine ⟨_, c, hslot, hc, by rw [← Option.some.inj hc], countP_accepted_le_one hquiet, ?_, ?_,
    fun playerId => countP_incorrectBy_le_one playerId hquiet, ?_, ?_⟩
  · intro e he
    have hexpires : c.challenge.expiresAt.Valid := by
      obtain rfl := Option.some.inj hc
      exact hdated
    exact wonFairly_of_mem_trace he (Machine.invariant_of_mem_trace
      (P := fun slot => ∀ r ∈ slot, r.InChallenge c) hin hchallenge he).1 hexpires
  · rintro pre post playerId rfl htyped hstays
    rw [Machine.trace_append] at hquiet hin
    rw [Machine.run_append]
    refine typedChooser_run hoptions ?_ ?_ (fun e he => hquiet e (List.mem_append_right _ he))
      (fun e he => (hstays e he).1) (fun e he => (hstays e he).2) htyped
    · exact Machine.run_invariant (P := fun slot => ∀ r ∈ slot, r.InChallenge c)
        (fun e he => hin e (List.mem_append_left _ he)) hchallenge
    · exact selectionInvariant_run rt code pre hinvariant
  · intro r hr s hs
    have hvalid := (selectionInvariant_run rt code ops hinvariant r hr).valid s hs
    exact ⟨hvalid.nodup_failed, hvalid.typed⟩
  · exact fun e he r hr s hs hphase hassigned hreason =>
      fair_of_mem_trace he (hquiet e he) hr hs hphase hassigned hreason

/-- A run without starts and rematches begins no new selection. -/
theorem quiet_of_forall {slot : Option Room} (h : ∀ op ∈ ops, op.restarts = false) :
    ∀ e ∈ (roomMachine rt code).trace slot ops, RoomEvent.Quiet e := by
  intro e he hop
  obtain ⟨pre, op, post, rfl, rfl⟩ := (Machine.mem_trace_iff _).mp he
  have hfalse := h op (by simp)
  exact absurd (hop.symm.trans hfalse) (by simp)

/-- Ana misspells the phrase, Bob types it first and Ana is too late. -/
def sampleRace : List RoomOp :=
  [.submitPhrase (js "ana") (.string (js "rimto")) 1500 .first,
    .submitPhrase (js "bob") (.string (js " ritmo ")) 2000 .first,
    .submitPhrase (js "ana") (.string (js "ritmo")) 2100 .first]

theorem song_challenge_sampleRace : ∃ slot c,
    ((roomMachine .ascii (js "ROOM22")).trace slot sampleRace).countP RoomEvent.accepted = 1 ∧
      ∀ e ∈ (roomMachine .ascii (js "ROOM22")).trace slot sampleRace, RoomEvent.accepted e →
        RoomEvent.WonFairly .ascii c e := by
  let M := roomMachine .ascii (js "ROOM22")
  let start : RoomOp :=
    .startChallenge (js "ana") { now := 1000, challengeId := js "c1", random := .first }
  let slot := M.next (M.run none (sampleBattle.take 8)) start
  obtain ⟨reply, hreply⟩ : ∃ reply, (M.step (M.run none (sampleBattle.take 8)) start).2 =
      .ok reply := exists_ok_of_isOk (by decide +kernel)
  have hcount : 1 ≤ (M.trace slot sampleRace).countP RoomEvent.accepted := by decide +kernel
  obtain ⟨room, c, hroom, hc, hphase, hone, hwon, -⟩ :=
    song_challenge .ascii (js "ROOM22") (sampleBattle.take 8) sampleRace (js "ana") _ slot reply
      (Prod.ext rfl hreply) (by decide) (by decide +kernel) (quiet_of_forall (by decide))
  exact ⟨slot, c, le_antisymm hone hcount, hwon⟩

/-- A challenge of `SONG_CHALLENGE_MS=1e16`. -/
def sampleEndless : StartChallengeOptions where
  now := 1000
  challengeId := js "c1"
  durationMs := 10000000000000000
  random := .first

/-- The phrase is accepted although no time is before the end of the challenge. -/
theorem accepted_without_deadline : ∃ slot reply,
    (roomMachine .ascii (js "ROOM22")).step
      ((roomMachine .ascii (js "ROOM22")).run none (sampleBattle.take 8))
      (.startChallenge (js "ana") sampleEndless) = (slot, .ok reply) ∧
    ∃ e ∈ (roomMachine .ascii (js "ROOM22")).trace slot
        [.submitPhrase (js "bob") (.string (js "ritmo")) 2000 .first],
      RoomEvent.accepted e ∧ ∀ c, ¬RoomEvent.WonFairly .ascii c e := by
  let M := roomMachine .ascii (js "ROOM22")
  let start : RoomOp := .startChallenge (js "ana") sampleEndless
  let slot := M.next (M.run none (sampleBattle.take 8)) start
  let submit : RoomOp := .submitPhrase (js "bob") (.string (js "ritmo")) 2000 .first
  obtain ⟨reply, hreply⟩ : ∃ reply, (M.step (M.run none (sampleBattle.take 8)) start).2 =
      .ok reply := exists_ok_of_isOk (by decide +kernel)
  have haccepted : RoomEvent.accepted (M.event slot submit) := by decide +kernel
  have hinvalid : (slot.bind (·.songSelection)).map (·.challenge.expiresAt) = some .invalid := by
    decide +kernel
  refine ⟨slot, reply, Prod.ext rfl hreply, M.event slot submit, List.mem_cons_self, haccepted, ?_⟩
  rintro c ⟨p, t, now, random, room, s, -, hroom, hs, -, -, -, -, htime, -⟩
  have hexpires : s.challenge.expiresAt = .invalid := by
    have hslot : slot = some room := hroom
    rw [hslot, Option.bind_some, hs] at hinvalid
    exact Option.some.inj hinvalid
  rw [hexpires] at htime
  exact htime

end DanceSync
