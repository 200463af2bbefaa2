import DanceSync.Domain.WordRaceTimeline
import DanceSync.Handlers.Tasks
import DanceSync.WordRace.Rounds

/-!
# Submitting words

`SubmitWord.execute` reads the stored race, reads the clock, judges the text and claims the round,
and reads the race again. Between these steps other submissions go on, rounds open and expire, and
the race may be deleted. A call keeps what it read and what its claim met, so that its answer can be
compared with them.

## Main definitions

* `SubmitWord.Call`, `SubmitWord.Call.advance`: a call between its steps, and its next step.
* `submissions`: the machine of all interleavings on the race of one room.
* `SubmitWord.Call.Truthful`: what a dancer may be told.
* `SubmitWord.Call.Repeated`: the claim met a round that its own dancer had already won.
* `SubmitWord.Call.Undated`: the claim met an open round that ends at an `Invalid Date`.

## Main results

* `SubmitWord.sound_run`: what every call knows is true of the planned race.
* `SubmitWord.truthful_iff_not_repeated_nor_undated`.
-/

namespace DanceSync

structure SubmitWordInput where
  roomCode : JsString
  playerId : JsString
  roundId : JsValue
  text : JsValue

structure SubmitWordOutput where
  outcome : SubmitWordOutcome
  round : WordRound
  /-- The race after this submission. -/
  race : WordRace

namespace SubmitWord

/-! ### A call and its steps -/

/-- The claim of a call: the stored race it met and what `claimRound` returned. -/
structure Claim where
  stored : Option WordRace
  result : ClaimRoundResult

/-- Where a call stands. -/
inductive Stage where
  /-- `execute` was called. -/
  | called
  /-- The first `find` returned. -/
  | found (text roundId : JsString) (race : Option WordRace)
  /-- `claimRound` returned. -/
  | claimed (race : WordRace) (now : Instant) (result : ClaimRoundResult)
  | answered (answer : Except JsError SubmitWordOutput)

/-- A call of `SubmitWord.execute`, with the clock it read and the claim it made. -/
structure Call where
  input : SubmitWordInput
  now : Option Instant := none
  claim : Option Claim := none
  stage : Stage := .called

namespace Call

/-- The call returns or throws. -/
def answer (call : Call) (answer : Except JsError SubmitWordOutput) : Call :=
  { call with stage := .answered answer }

/-- Up to the first `find`. -/
def find (call : Call) (slot : Option WordRace) : Call :=
  match call.input.text.string?, call.input.roundId.string? with
  | some text, some roundId => { call with stage := .found text roundId slot }
  | _, _ => call.answer (.error (.domain .invalidMessage
      (js "The typed word and the round id must be text")))

/-- From the first `find` to the claim. -/
def attempt (rt : Runtime) (call : Call) (now : Instant) (slot : Option WordRace)
    (text roundId : JsString) (race : Option WordRace) : Option WordRace × Call :=
  match race with
  | none => (slot, call.answer (.error (notActive call.input.roomCode)))
  | some race =>
    match race.round? roundId with
    | none => (slot, call.answer (.error (.domain .wordRoundNotOpen
        (js "Round " ++ roundId ++ js " does not exist"))))
    | some round =>
      let call := { call with now := some now }
      match WordRaceService.judge rt round race.participantIds call.input.playerId text now with
      | .error e => (slot, call.answer (.error e))
      | .ok .incorrect => (slot, call.answer (.ok ⟨.incorrect, round, race⟩))
      | .ok .expired => (slot, call.answer (.ok ⟨.expired, round, race⟩))
      | .ok .correct =>
        -- The read above may already be stale: only the atomic claim decides the winner.
        let (stored, result) :=
          InMemoryWordRaceRepository.claimRound rt slot roundId call.input.playerId now
        (stored, { call with claim := some ⟨slot, result⟩, stage := .claimed race now result })

/-- From the claim on; after a claim that succeeded the race is read again. -/
def finish (call : Call) (slot : Option WordRace) (race : WordRace) (now : Instant)
    (result : ClaimRoundResult) : Call :=
  match result with
  | .claimed round => call.answer (.ok ⟨.won, round, slot.getD race⟩)
  | .refused none => call.answer (.error (notActive call.input.roomCode))
  | .refused (some round) =>
    let expiredMeanwhile :=
      round.status = .expired ∨ (round.winnerId = none ∧ round.closesAt ≤ now)
    call.answer (.ok ⟨if expiredMeanwhile then .expired else .late, round, race⟩)

/-- The next step of a call, at some time. -/
def advance (rt : Runtime) (call : Call) (now : Instant) (slot : Option WordRace) :
    Option WordRace × Call :=
  match call.stage with
  | .called => (slot, call.find slot)
  | .found text roundId race => call.attempt rt now slot text roundId race
  | .claimed race now result => (slot, call.finish slot race now result)
  | .answered _ => (slot, call)

end Call

/-- The stored race of a room and the calls made so far. -/
structure Submissions where
  race : Option WordRace
  calls : List Call := []

inductive SubmitOp where
  /-- `execute` is called. -/
  | submit (input : SubmitWordInput)
  /-- The call at `index` goes on, and reads the clock if it is its turn to. -/
  | advance (index : ℕ) (now : Instant)
  | openRound (roundId : JsString)
  | expireRound (roundId : JsString) (now : Instant)
  | delete

/-- A call goes on, if there is one. -/
def Submissions.advance (rt : Runtime) (s : Submissions) (index : ℕ) (now : Instant) :
    Submissions :=
  match s.calls[index]? with
  | some call =>
    let (race, call) := call.advance rt now s.race
    { race, calls := s.calls.set index call }
  | none => s

end SubmitWord

open SubmitWord in
/-- All interleavings of submissions with what else happens to the race of a room. -/
def submissions (rt : Runtime) : Machine Submissions SubmitOp Unit where
  step s
    | .submit input => ({ s with calls := s.calls ++ [{ input }] }, ())
    | .advance index now => (s.advance rt index now, ())
    | .openRound roundId =>
      ({ s with race := (InMemoryWordRaceRepository.openRound s.race roundId).1 }, ())
    | .expireRound roundId now =>
      ({ s with race := (InMemoryWordRaceRepository.expireRound s.race roundId now).1 }, ())
    | .delete => ({ s with race := none }, ())

namespace SubmitWord

/-! ### What a dancer may be told -/

namespace Call

variable (rt : Runtime) (planned : WordRace) (slot : Option WordRace) (call : Call)

/-- The text of a call is the word of its round. -/
def Matches : Prop :=
  ∃ round ∈ planned.rounds, call.input.roundId.string? = some round.id ∧
    ∃ text, call.input.text.string? = some text ∧
      rt.toLowerCase (normalizeAttempt rt text) = round.word

/-- The window of its round was over when the call read the clock. -/
def PastClosing : Prop :=
  ∃ round ∈ planned.rounds, call.input.roundId.string? = some round.id ∧
    ∃ now ∈ call.now, round.closesAt ≤ now

/-- The call made this claim and it met this round. -/
def Met (claim : Claim) (round : WordRound) : Prop :=
  call.claim = some claim ∧ ∃ stored ∈ claim.stored, ∃ roundId,
    call.input.roundId.string? = some roundId ∧ stored.round? roundId = some round

/-- The claim met a round that its own dancer had already won. -/
def Repeated : Prop :=
  ∃ claim round, call.Met claim round ∧ round.winnerId = some call.input.playerId

/-- The claim met an open round that ends at an `Invalid Date`, so that nobody can win it. -/
def Undated : Prop :=
  ∃ claim round, call.Met claim round ∧ round.status = .open ∧ ¬round.closesAt.Valid

/-- The stored race still has the round as it is. -/
def Kept (round : WordRound) : Prop := ∀ race ∈ slot, round ∈ race.rounds

/-- What a call answered is true: who won, who was late, whose window was over, whose text did not
match; and who was the first with the word won. -/
structure Truthful (answer : Except JsError SubmitWordOutput) : Prop where
  won : (∃ out, answer = .ok out ∧ out.outcome = .won) ↔
    ∃ claim ∈ call.claim, ∃ round, claim.result = .claimed round
  late : ∀ out, answer = .ok out → out.outcome = .late →
    call.Matches rt planned ∧ out.round.status = .won ∧ Kept slot out.round ∧
      ∃ winnerId, out.round.winnerId = some winnerId ∧ winnerId ≠ call.input.playerId
  expired : ∀ out, answer = .ok out → out.outcome = .expired →
    (out.round.status = .expired ∧ Kept slot out.round) ∨ call.PastClosing planned
  incorrect : ∀ out, answer = .ok out → out.outcome = .incorrect → ¬call.Matches rt planned
  first : ∀ claim round, call.Met claim round → round.status = .open → round.winnerId = none →
    (∃ now ∈ call.now, now < round.closesAt) → ∃ out, answer = .ok out ∧ out.outcome = .won

end Call

/-! ### The race while calls go on -/

/-- A race that came out of a planned one: its rounds are the planned ones. -/
structure PlannedFrom (rt : Runtime) (planned race : WordRace) : Prop where
  consistent : race.Consistent rt
  participantIds : race.participantIds = planned.participantIds
  rounds : ∀ round ∈ race.rounds, ∃ origin ∈ planned.rounds,
    origin.id = round.id ∧ origin.word = round.word ∧ origin.closesAt = round.closesAt

/-- The stored race goes on from one that was read: rounds that had begun have begun, and those that
were over are as they were. -/
structure Since (race : WordRace) (slot : Option WordRace) : Prop where
  begun : ∀ stored ∈ slot, ∀ round ∈ race.rounds, round.status ≠ .scheduled →
    ∀ round' ∈ stored.rounds, round'.id = round.id → round'.status ≠ .scheduled
  final : ∀ round ∈ race.rounds, round.status.isFinal → Call.Kept slot round

/-- What happens to the stored race between two steps of a call. -/
inductive SlotStep (rt : Runtime) (slot : Option WordRace) : Option WordRace → Prop
  | same : SlotStep rt slot slot
  | answered {op : RaceOp} {reply : RaceReply} {slot' : Option WordRace}
      (h : RaceAnswered rt slot op slot' reply) : SlotStep rt slot slot'
  | deleted : SlotStep rt slot none

variable {rt : Runtime} {planned race : WordRace} {slot slot' : Option WordRace}
  {round : WordRound} {call : Call}

/-- A round that moves has begun, and keeps its word and its window. -/
theorem begun_of_roundStep {op : RaceOp} {reply : RaceReply} {round' : WordRound}
    (h : RoundStep round op reply round') :
    round'.status ≠ .scheduled ∧ round'.word = round.word ∧ round'.closesAt = round.closesAt := by
  cases h with
  | opened | won | expired =>
    simp [WordRace.opened, WordRace.won, WordRace.expired]

namespace SlotStep

theorem plannedFrom (h : SlotStep rt slot slot') (hslot : ∀ r ∈ slot, PlannedFrom rt planned r) :
    ∀ r ∈ slot', PlannedFrom rt planned r := by
  cases h with
  | same => exact hslot
  | deleted => simp
  | answered h =>
    cases h with
    | unchanged => exact hslot
    | @changed race race' reply hrace hmoved hchange =>
      rintro _ ⟨⟩
      obtain ⟨hconsistent, hparticipants, hrounds⟩ := hslot race hrace
      refine ⟨hchange.consistent hconsistent,
        hchange.sameRace.participantIds.trans hparticipants, fun round hround => ?_⟩
      obtain ⟨hmoved, hstep, wins, -⟩ := hchange
      have hmem := (WordRace.mem_of_round? hmoved).1
      rcases (WordRace.mem_rounds_withRound hconsistent.nodup hmem hstep.id_eq).mp hround with
        rfl | ⟨hold, -⟩
      · obtain ⟨origin, horigin, hid, hword, hcloses⟩ := hrounds _ hmem
        obtain ⟨-, hword', hcloses'⟩ := begun_of_roundStep hstep
        exact ⟨origin, horigin, hid.trans hstep.id_eq.symm, hword.trans hword'.symm,
          hcloses.trans hcloses'.symm⟩
      · exact hrounds round hold

/-- A round that is over stays while the race does. -/
theorem kept (h : SlotStep rt slot slot') (hslot : ∀ r ∈ slot, r.Consistent rt)
    (hfinal : round.status.isFinal) (hkept : Call.Kept slot round) : Call.Kept slot' round := by
  cases h with
  | same => exact hkept
  | deleted => simp [Call.Kept]
  | answered h => exact h.mem_of_isFinal hslot hfinal hkept

/-- Rounds never go back to being scheduled, and those that are over stay. -/
theorem since (h : SlotStep rt slot slot') (hslot : ∀ r ∈ slot, r.Consistent rt)
    (hsince : Since race slot) : Since race slot' := by
  refine ⟨?_, fun round hround hfinal => h.kept hslot hfinal (hsince.final round hround hfinal)⟩
  cases h with
  | same => exact hsince.begun
  | deleted => simp
  | answered h =>
    cases h with
    | unchanged => exact hsince.begun
    | @changed stored stored' reply hstored hmoved hchange =>
      rintro _ ⟨⟩ round hround hbegun round' hround' hid
      obtain ⟨hmoved, hstep, wins, -⟩ := hchange
      have hmem := (WordRace.mem_of_round? hmoved).1
      rcases (WordRace.mem_rounds_withRound (hslot stored hstored).nodup hmem
        hstep.id_eq).mp hround' with rfl | ⟨hold, -⟩
      · exact (begun_of_roundStep hstep).1
      · exact hsince.begun stored hstored round hround hbegun round' hold hid

end SlotStep

/-! ### What a call knows -/

namespace Call

variable (rt : Runtime) (planned : WordRace) (slot : Option WordRace) (call : Call)

/-- What a call knows once its claim was answered. -/
structure Claimed (result : ClaimRoundResult) : Prop where
  claim : ∃ stored, call.claim = some ⟨stored, result⟩
  text_eq : call.Matches rt planned
  claimed : ∀ won, result = .claimed won → ∀ claim round, call.Met claim round →
    round.winnerId = none ∧ round.closesAt.Valid
  refused : ∀ round, result = .refused (some round) →
    (∃ claim, call.Met claim round) ∧ (round.status = .won ↔ round.winnerId.isSome) ∧
      (round.status.isFinal ∧ Kept slot round ∨
        round.status = .open ∧ ¬round.closesAt.Valid)
  gone : result = .refused none → ∀ claim round, ¬call.Met claim round

/-- What a call knows once it is answered. -/
inductive Told : Except JsError SubmitWordOutput → Prop
  | failed {e : JsError} (hclaim : call.claim = none) : Told (.error e)
  | incorrect {round : WordRound} {race : WordRace} (hclaim : call.claim = none)
      (hnot : ¬call.Matches rt planned) : Told (.ok ⟨.incorrect, round, race⟩)
  | expired {round : WordRound} {race : WordRace} (hclaim : call.claim = none)
      (hover : (round.status = .expired ∧ Kept slot round) ∨ call.PastClosing planned) :
      Told (.ok ⟨.expired, round, race⟩)
  | won {round : WordRound} {race : WordRace} (h : call.Claimed rt planned slot (.claimed round)) :
      Told (.ok ⟨.won, round, race⟩)
  | gone {e : JsError} (h : call.Claimed rt planned slot (.refused none)) : Told (.error e)
  | refused {round : WordRound} {race : WordRace}
      (h : call.Claimed rt planned slot (.refused (some round))) :
      Told (.ok ⟨if round.status = .expired then .expired else .late, round, race⟩)

/-- What a call knows at each of its stages. -/
def Sound : Prop :=
  match call.stage with
  | .called => call.claim = none
  | .found text roundId race => call.claim = none ∧ call.input.text.string? = some text ∧
      call.input.roundId.string? = some roundId ∧
        ∀ r ∈ race, PlannedFrom rt planned r ∧ Since r slot
  | .claimed _ _ result => call.Claimed rt planned slot result
  | .answered answer => call.Told rt planned slot answer

end Call

/-- What every call knows, and the stored race, come from the planned race. -/
structure Sound (rt : Runtime) (planned : WordRace) (s : Submissions) : Prop where
  race : ∀ r ∈ s.race, PlannedFrom rt planned r
  calls : ∀ call ∈ s.calls, call.Sound rt planned s.race

/-- A verdict says what is wrong with a word, or that the round is open for it. -/
theorem judge_eq_ok {participantIds : List JsString} {playerId text : JsString} {now : Instant}
    {verdict : WordJudgement}
    (h : WordRaceService.judge rt round participantIds playerId text now = .ok verdict) :
    round.status ≠ .scheduled ∧
      match verdict with
      | .expired => round.status = .expired ∨ round.closesAt ≤ now
      | .correct => ¬round.closesAt ≤ now ∧
          rt.toLowerCase (normalizeAttempt rt text) = round.word
      | .incorrect => rt.toLowerCase (normalizeAttempt rt text) ≠ round.word := by
  simp only [WordRaceService.judge, bind_eq_ok, throwIf_eq_ok] at h
  obtain ⟨-, -, -, hbegun, h⟩ := h
  refine ⟨hbegun, ?_⟩
  split_ifs at h with hover hword <;> obtain rfl := pure_eq_ok.mp h
  · exact hover
  · exact ⟨(not_or.mp hover).2, hword⟩
  · exact hword

namespace Call

theorem Claimed.later {result : ClaimRoundResult} (h : call.Claimed rt planned slot result)
    (hstep : SlotStep rt slot slot') (hslot : ∀ r ∈ slot, r.Consistent rt) :
    call.Claimed rt planned slot' result where
  claim := h.claim
  text_eq := h.text_eq
  claimed := h.claimed
  refused round hrefused := by
    obtain ⟨hmet, hwinner, hover⟩ := h.refused round hrefused
    exact ⟨hmet, hwinner, hover.imp_left fun ⟨hfinal, hkept⟩ =>
      ⟨hfinal, hstep.kept hslot hfinal hkept⟩⟩
  gone := h.gone

theorem Told.later {answer : Except JsError SubmitWordOutput}
    (h : call.Told rt planned slot answer) (hstep : SlotStep rt slot slot')
    (hslot : ∀ r ∈ slot, r.Consistent rt) : call.Told rt planned slot' answer := by
  cases h with
  | failed hclaim => exact .failed hclaim
  | incorrect hclaim hnot => exact .incorrect hclaim hnot
  | expired hclaim hover =>
    refine .expired hclaim (hover.imp_left fun ⟨hstatus, hkept⟩ => ⟨hstatus, ?_⟩)
    exact hstep.kept hslot (by rw [hstatus]; rfl) hkept
  | won h => exact .won (h.later hstep hslot)
  | gone h => exact .gone (h.later hstep hslot)
  | refused h => exact .refused (h.later hstep hslot)

/-- What a call knows stays true while others go on. -/
theorem Sound.later (h : call.Sound rt planned slot) (hstep : SlotStep rt slot slot')
    (hslot : ∀ r ∈ slot, r.Consistent rt) : call.Sound rt planned slot' := by
  unfold Sound at h ⊢
  cases hstage : call.stage with
  | called => simpa only [hstage] using h
  | found text roundId race =>
    simp only [hstage] at h ⊢
    obtain ⟨hclaim, htext, hroundId, hrace⟩ := h
    exact ⟨hclaim, htext, hroundId, fun r hr => ⟨(hrace r hr).1, hstep.since hslot (hrace r hr).2⟩⟩
  | claimed race now result =>
    simp only [hstage] at h ⊢
    exact Claimed.later h hstep hslot
  | answered answer =>
    simp only [hstage] at h ⊢
    exact Told.later h hstep hslot

/-! ### One step of a call -/

theorem met_iff {roundId : JsString} {claim : Claim} {result : ClaimRoundResult}
    (hroundId : call.input.roundId.string? = some roundId)
    (hclaim : call.claim = some ⟨slot, result⟩) :
    call.Met claim round ↔ claim = ⟨slot, result⟩ ∧
      ∃ stored ∈ slot, stored.round? roundId = some round := by
  constructor
  · rintro ⟨hclaim', stored, hstored, roundId', hroundId', hround⟩
    obtain rfl := Option.some.inj (hclaim.symm.trans hclaim')
    obtain rfl := Option.some.inj (hroundId.symm.trans hroundId')
    exact ⟨rfl, stored, hstored, hround⟩
  · rintro ⟨rfl, stored, hstored, hround⟩
    exact ⟨hclaim, stored, hstored, roundId, hroundId, hround⟩

/-- The claim of a round that had begun and whose window was not over when the clock was read. -/
theorem claimed_claimRound {roundId : JsString} {now : Instant} {stored : Option WordRace}
    {result : ClaimRoundResult}
    (hresult : InMemoryWordRaceRepository.claimRound rt slot roundId call.input.playerId now =
      (stored, result))
    (hclaim : call.claim = some ⟨slot, result⟩)
    (hroundId : call.input.roundId.string? = some roundId) (htext : call.Matches rt planned)
    (hslot : ∀ r ∈ slot, r.Consistent rt)
    (hround : ∀ r ∈ slot, ∀ round ∈ r.rounds, round.id = roundId →
      round.status ≠ .scheduled ∧ ¬round.closesAt ≤ now) :
    call.Claimed rt planned stored result := by
  have hmet : ∀ claim round, call.Met claim round ↔ claim = ⟨slot, result⟩ ∧
      ∃ r ∈ slot, r.round? roundId = some round := fun claim round => met_iff hroundId hclaim
  unfold InMemoryWordRaceRepository.claimRound at hresult
  cases slot with
  | none =>
    obtain ⟨rfl, rfl⟩ := Prod.mk.inj hresult
    exact ⟨⟨none, hclaim⟩, htext, nofun, nofun, fun _ claim round h => by simp [hmet] at h⟩
  | some race =>
    cases hfound : race.round? roundId with
    | none =>
      simp only [hfound] at hresult
      obtain ⟨rfl, rfl⟩ := Prod.mk.inj hresult
      refine ⟨⟨_, hclaim⟩, htext, nofun, nofun, fun _ claim round h => ?_⟩
      obtain ⟨-, r, ⟨⟩, hround'⟩ := (hmet claim round).mp h
      simp [hfound] at hround'
    | some round =>
      simp only [hfound] at hresult
      obtain ⟨hmem, hid⟩ := WordRace.mem_of_round? hfound
      obtain ⟨hbegun, htime⟩ := hround race rfl round hmem hid
      split_ifs at hresult with hclaimable
      · obtain ⟨rfl, rfl⟩ := Prod.mk.inj hresult
        refine ⟨⟨_, hclaim⟩, htext, fun won _ claim round' h => ?_, nofun, nofun⟩
        obtain ⟨-, r, ⟨⟩, hround'⟩ := (hmet claim round').mp h
        obtain rfl := Option.some.inj (hfound.symm.trans hround')
        exact ⟨hclaimable.2.1, Date.valid_of_lt hclaimable.2.2⟩
      · obtain ⟨rfl, rfl⟩ := Prod.mk.inj hresult
        refine ⟨⟨_, hclaim⟩, htext, nofun, ?_, nofun⟩
        rintro _ ⟨⟩
        have hwinner := (hslot race rfl).winner round hmem
        have hkept : Kept (some race) round := by rintro _ ⟨⟩; exact hmem
        refine ⟨⟨_, (hmet _ round).mpr ⟨rfl, race, rfl, hfound⟩⟩, hwinner, ?_⟩
        cases hstatus : round.status with
        | scheduled => exact absurd hstatus hbegun
        | «open» =>
          -- The round is open and nobody has won it: the claim is refused for its last date.
          rw [hstatus] at hwinner
          have hnone : round.winnerId = none := by simpa using hwinner
          exact Or.inr ⟨rfl, fun hvalid =>
            hclaimable ⟨hstatus, hnone, Date.lt_of_not_le hvalid htime⟩⟩
        | won | expired => exact Or.inl ⟨rfl, hkept⟩

/-- From the first `find` to the claim. -/
theorem sound_attempt {text roundId : JsString} {found : Option WordRace} {now : Instant}
    (hclaim : call.claim = none) (htext : call.input.text.string? = some text)
    (hroundId : call.input.roundId.string? = some roundId)
    (hfound : ∀ r ∈ found, PlannedFrom rt planned r ∧ Since r slot)
    (hslot : ∀ r ∈ slot, PlannedFrom rt planned r) (hnodup : (planned.rounds.map (·.id)).Nodup) :
    SlotStep rt slot (call.attempt rt now slot text roundId found).1 ∧
      (call.attempt rt now slot text roundId found).2.Sound rt planned
        (call.attempt rt now slot text roundId found).1 := by
  unfold attempt
  cases found with
  | none => exact ⟨.same, .failed hclaim⟩
  | some race =>
    obtain ⟨hplanned, hsince⟩ := hfound race rfl
    cases hround : race.round? roundId with
    | none =>
      simp only [hround]
      exact ⟨.same, .failed hclaim⟩
    | some round =>
      simp only [hround]
      obtain ⟨hmem, rfl⟩ := WordRace.mem_of_round? hround
      obtain ⟨origin, horigin, hid, hword, hcloses⟩ := hplanned.rounds round hmem
      cases hjudge : WordRaceService.judge rt round race.participantIds call.input.playerId text
        now with
      | error e => exact ⟨.same, .failed hclaim⟩
      | ok verdict =>
        obtain ⟨hbegun, hverdict⟩ := judge_eq_ok hjudge
        cases verdict with
        | incorrect =>
          refine ⟨.same, .incorrect hclaim ?_⟩
          rintro ⟨origin', horigin', hid', text', htext', hword'⟩
          obtain rfl := Option.some.inj (htext.symm.trans htext')
          obtain rfl := WordRace.eq_of_id_eq hnodup horigin horigin'
            (hid.trans (Option.some.inj (hroundId.symm.trans hid')))
          exact hverdict (hword'.trans hword)
        | expired =>
          refine ⟨.same, .expired hclaim ?_⟩
          rcases hverdict with hstatus | hpast
          · exact Or.inl ⟨hstatus, hsince.final round hmem (by rw [hstatus]; rfl)⟩
          · exact Or.inr ⟨origin, horigin, by rw [hid]; exact hroundId, now, rfl, hcloses ▸ hpast⟩
        | correct =>
          refine ⟨.answered (claimRound_answered rt slot round.id call.input.playerId now), ?_⟩
          refine claimed_claimRound rfl rfl hroundId ?_ (fun r hr => (hslot r hr).consistent) ?_
          · exact ⟨origin, horigin, hid ▸ hroundId, text, htext, hverdict.2.trans hword.symm⟩
          · intro r hr round' hround' hid'
            refine ⟨hsince.begun r hr round hmem hbegun round' hround' hid', ?_⟩
            obtain ⟨origin', horigin', hid'', -, hcloses'⟩ := (hslot r hr).rounds round' hround'
            obtain rfl := WordRace.eq_of_id_eq hnodup horigin horigin'
              (hid.trans (hid'.symm.trans hid''.symm))
            rw [← hcloses', hcloses]
            exact hverdict.1

/-- Up to the first `find`. -/
theorem sound_find (hclaim : call.claim = none) (hslot : ∀ r ∈ slot, PlannedFrom rt planned r) :
    (call.find slot).Sound rt planned slot := by
  unfold find
  cases htext : call.input.text.string? with
  | none => exact .failed hclaim
  | some text =>
    cases hroundId : call.input.roundId.string? with
    | none => exact .failed hclaim
    | some roundId =>
      refine ⟨hclaim, htext, hroundId, fun r hr => ⟨hslot r hr, ?_, ?_⟩⟩
      · intro stored hstored round hround hbegun round' hround' hid
        obtain rfl := Option.mem_unique hr hstored
        rwa [WordRace.eq_of_id_eq (hslot r hr).consistent.nodup hround' hround hid]
      · intro round hround _ stored hstored
        obtain rfl := Option.mem_unique hr hstored
        exact hround

theorem Claimed.answer {result : ClaimRoundResult} (h : call.Claimed rt planned slot result)
    (answer : Except JsError SubmitWordOutput) :
    (call.answer answer).Claimed rt planned slot result :=
  ⟨h.claim, h.text_eq, h.claimed, h.refused, h.gone⟩

/-- From the claim on. -/
theorem sound_finish {result : ClaimRoundResult} (now : Instant)
    (h : call.Claimed rt planned slot result) :
    (call.finish slot race now result).Sound rt planned slot := by
  unfold finish
  split
  next round => exact .won (h.answer _)
  next => exact .gone (h.answer _)
  next round =>
    obtain ⟨-, hwinner, hover⟩ := h.refused round rfl
    have hexpired : (round.status = .expired ∨ (round.winnerId = none ∧ round.closesAt ≤ now)) ↔
        round.status = .expired := by
      refine or_iff_left_of_imp fun ⟨hnone, htime⟩ => ?_
      have hfinal : round.status.isFinal :=
        (hover.resolve_right fun h => h.2 (Date.valid_of_le htime)).1
      cases hstatus : round.status with
      | expired => rfl
      | won => simp [hnone] at hwinner; exact absurd hstatus hwinner
      | scheduled | «open» => simp [hstatus, WordRoundStatus.isFinal] at hfinal
    simp only [hexpired]
    exact .refused (h.answer _)

/-- A step of a call. -/
theorem Sound.advance (now : Instant) (h : call.Sound rt planned slot)
    (hslot : ∀ r ∈ slot, PlannedFrom rt planned r) (hnodup : (planned.rounds.map (·.id)).Nodup) :
    SlotStep rt slot (call.advance rt now slot).1 ∧
      (call.advance rt now slot).2.Sound rt planned (call.advance rt now slot).1 := by
  unfold Sound at h
  unfold Call.advance
  cases hstage : call.stage with
  | called =>
    simp only [hstage] at h
    exact ⟨.same, sound_find h hslot⟩
  | found text roundId found =>
    simp only [hstage] at h
    obtain ⟨hclaim, htext, hroundId, hfound⟩ := h
    exact sound_attempt hclaim htext hroundId hfound hslot hnodup
  | claimed race now' result =>
    simp only [hstage] at h
    exact ⟨.same, sound_finish now' h⟩
  | answered answer =>
    refine ⟨.same, ?_⟩
    unfold Sound
    simpa only [hstage] using h

end Call

/-! ### Whole runs -/

/-- Everything a machine step does to the other calls is a step of the stored race. -/
theorem Sound.of_slotStep {s : Submissions} (h : Sound rt planned s)
    (hstep : SlotStep rt s.race slot) : Sound rt planned { s with race := slot } where
  race := hstep.plannedFrom h.race
  calls call hcall := (h.calls call hcall).later hstep fun r hr => (h.race r hr).consistent

theorem sound_next {s : Submissions} (hnodup : (planned.rounds.map (·.id)).Nodup)
    (h : Sound rt planned s) (op : SubmitOp) : Sound rt planned ((submissions rt).next s op) := by
  cases op with
  | submit input =>
    refine ⟨h.race, fun call hcall => ?_⟩
    rcases List.mem_append.mp hcall with hcall | hcall
    · exact h.calls call hcall
    · obtain rfl := List.mem_singleton.mp hcall
      rfl
  | advance index now =>
    show Sound rt planned (s.advance rt index now)
    unfold Submissions.advance
    cases hcall : s.calls[index]? with
    | none => exact h
    | some call =>
      have hmem : call ∈ s.calls := List.mem_of_getElem? hcall
      obtain ⟨hstep, hsound⟩ := (h.calls call hmem).advance now h.race hnodup
      have hothers := h.of_slotStep hstep
      refine ⟨hothers.race, fun call' hcall' => ?_⟩
      rcases List.mem_or_eq_of_mem_set hcall' with hcall' | rfl
      · exact hothers.calls call' hcall'
      · exact hsound
  | openRound roundId => exact h.of_slotStep (.answered (openRound_answered rt s.race roundId))
  | expireRound roundId now =>
    exact h.of_slotStep (.answered (expireRound_answered rt s.race roundId now))
  | delete => exact h.of_slotStep .deleted

theorem plannedFrom_of_planned (h : planned.Planned rt) : PlannedFrom rt planned planned :=
  ⟨h.consistent, rfl, fun round hround => ⟨round, hround, rfl, rfl, rfl⟩⟩

/-- What every call knows is true of the planned race, in every interleaving. -/
theorem sound_run (h : planned.Planned rt) (ops : List SubmitOp) :
    Sound rt planned ((submissions rt).run { race := some planned } ops) :=
  Machine.run_invariant (P := Sound rt planned)
    (fun e he hsound => Machine.event_of_mem_trace he ▸ sound_next h.nodup hsound e.input)
    ⟨by rintro _ ⟨⟩; exact plannedFrom_of_planned h, by simp⟩

/-! ### Answers -/

namespace Call

/-- The outcome and the winner that a call returned. -/
def told (call : Call) : Option (SubmitWordOutcome × Option JsString) :=
  match call.stage with
  | .answered (.ok out) => some (out.outcome, out.round.winnerId)
  | _ => none

theorem exists_of_told {call : Call} {outcome : SubmitWordOutcome} {winnerId : Option JsString}
    (h : call.told = some (outcome, winnerId)) :
    ∃ out, call.stage = .answered (.ok out) ∧ out.outcome = outcome ∧
      out.round.winnerId = winnerId := by
  unfold told at h
  split at h
  next out hstage =>
    obtain ⟨rfl, rfl⟩ := Prod.mk.inj (Option.some.inj h)
    exact ⟨out, hstage, rfl, rfl⟩
  next => simp at h

/-- A call without a claim met no round. -/
theorem not_met (hclaim : call.claim = none) (claim : Claim) : ¬call.Met claim round := by
  rintro ⟨hsome, -⟩
  simp [hclaim] at hsome

/-- A call met one round at most. -/
theorem Met.unique {claim claim' : Claim} {round' : WordRound} (h : call.Met claim round)
    (h' : call.Met claim' round') : round' = round := by
  obtain ⟨hclaim, stored, hstored, roundId, hroundId, hround⟩ := h
  obtain ⟨hclaim', stored', hstored', roundId', hroundId', hround'⟩ := h'
  obtain rfl := Option.some.inj (hclaim.symm.trans hclaim')
  obtain rfl := Option.mem_unique hstored hstored'
  obtain rfl := Option.some.inj (hroundId.symm.trans hroundId')
  exact Option.some.inj (hround'.symm.trans hround)

theorem not_misled_of_not_met (h : ∀ claim round, ¬call.Met claim round) :
    ¬call.Repeated ∧ ¬call.Undated :=
  ⟨fun ⟨claim, round, hmet, _⟩ => h claim round hmet,
    fun ⟨claim, round, hmet, _⟩ => h claim round hmet⟩

/-- A call without a claim is answered truly when its text was found wrong or its round over. -/
theorem truthful_of_no_claim {answer : Except JsError SubmitWordOutput}
    (hclaim : call.claim = none) (hwon : ∀ out, answer = .ok out → out.outcome ≠ .won)
    (hlate : ∀ out, answer = .ok out → out.outcome ≠ .late)
    (hexpired : ∀ out, answer = .ok out → out.outcome = .expired →
      (out.round.status = .expired ∧ Kept slot out.round) ∨ call.PastClosing planned)
    (hincorrect : ∀ out, answer = .ok out → out.outcome = .incorrect →
      ¬call.Matches rt planned) :
    call.Truthful rt planned slot answer where
  won := by
    constructor
    · rintro ⟨out, hout, hwon'⟩
      exact absurd hwon' (hwon out hout)
    · rintro ⟨claim, hsome, -⟩
      simp [hclaim] at hsome
  late out hout hlate' := absurd hlate' (hlate out hout)
  expired := hexpired
  incorrect := hincorrect
  first claim round hmet := absurd hmet (not_met hclaim claim)

/-! ### What the answer of a claim tells -/

namespace Claimed

variable {race : WordRace}

theorem truthful_won (h : call.Claimed rt planned slot (.claimed round)) :
    call.Truthful rt planned slot (.ok ⟨.won, round, race⟩) := by
  obtain ⟨stored, hclaim⟩ := h.claim
  exact {
    won := ⟨fun _ => ⟨_, hclaim, round, rfl⟩, fun _ => ⟨_, rfl, rfl⟩⟩
    late := by rintro _ ⟨⟩ ⟨⟩
    expired := by rintro _ ⟨⟩ ⟨⟩
    incorrect := by rintro _ ⟨⟩ ⟨⟩
    first := fun _ _ _ _ _ _ => ⟨_, rfl, rfl⟩ }

/-- A claim that won met a round that nobody had won, with a last date. -/
theorem not_misled_of_won (h : call.Claimed rt planned slot (.claimed round)) :
    ¬call.Repeated ∧ ¬call.Undated := by
  refine ⟨fun ⟨claim, met, hmet, hwinner⟩ => ?_, fun ⟨claim, met, hmet, _, hundated⟩ => ?_⟩
  · rw [(h.claimed round rfl claim met hmet).1] at hwinner
    simp at hwinner
  · exact hundated (h.claimed round rfl claim met hmet).2

theorem truthful_gone {e : JsError} (h : call.Claimed rt planned slot (.refused none)) :
    call.Truthful rt planned slot (.error e) := by
  obtain ⟨stored, hclaim⟩ := h.claim
  refine {
    won := ⟨?_, ?_⟩
    late := by rintro _ ⟨⟩
    expired := by rintro _ ⟨⟩
    incorrect := by rintro _ ⟨⟩
    first := fun claim round hmet => absurd hmet (h.gone rfl claim round) }
  · rintro ⟨_, ⟨⟩, -⟩
  · rintro ⟨claim, hsome, round, hresult⟩
    obtain rfl := Option.some.inj (hclaim.symm.trans hsome)
    simp at hresult

/-- The answer to a refused claim is true unless the claim was misled. -/
theorem truthful_refused (h : call.Claimed rt planned slot (.refused (some round)))
    (hnot : ¬call.Repeated) (hdated : ¬call.Undated) : call.Truthful rt planned slot
      (.ok ⟨if round.status = .expired then .expired else .late, round, race⟩) := by
  obtain ⟨stored, hclaim⟩ := h.claim
  obtain ⟨⟨claim, hmet⟩, hwinner, hover⟩ := h.refused round rfl
  obtain ⟨hfinal, hkept⟩ := hover.resolve_right fun ⟨hopen, hundated⟩ =>
    hdated ⟨claim, round, hmet, hopen, hundated⟩
  refine {
    won := ⟨?_, ?_⟩
    late := ?_
    expired := ?_
    incorrect := ?_
    first := fun claim' round' hmet' hopen => ?_ }
  · rintro ⟨_, ⟨⟩, hwon⟩
    split_ifs at hwon
  · rintro ⟨claim', hsome, won, hresult⟩
    obtain rfl := Option.some.inj (hclaim.symm.trans hsome)
    simp at hresult
  · rintro _ ⟨⟩ hlate
    have hwon : round.status = .won := by
      cases hstatus : round.status with
      | won => rfl
      | expired => simp [hstatus] at hlate
      | scheduled | «open» => simp [hstatus, WordRoundStatus.isFinal] at hfinal
    obtain ⟨winnerId, hwinnerId⟩ := Option.isSome_iff_exists.mp (hwinner.mp hwon)
    refine ⟨h.text_eq, hwon, hkept, winnerId, hwinnerId, ?_⟩
    rintro rfl
    exact hnot ⟨claim, round, hmet, hwinnerId⟩
  · rintro _ ⟨⟩ hexpired
    split_ifs at hexpired with hstatus
    exact Or.inl ⟨hstatus, hkept⟩
  · rintro _ ⟨⟩ hincorrect
    split_ifs at hincorrect
  · rw [hmet.unique hmet'] at hopen
    simp [hopen, WordRoundStatus.isFinal] at hfinal

/-- A dancer who is told to be late for a round that they won, or that is open, is told wrong. -/
theorem not_misled_of_truthful (h : call.Claimed rt planned slot (.refused (some round)))
    (htruthful : call.Truthful rt planned slot
      (.ok ⟨if round.status = .expired then .expired else .late, round, race⟩)) :
    ¬call.Repeated ∧ ¬call.Undated := by
  obtain ⟨⟨claim, hmet⟩, hwinner, -⟩ := h.refused round rfl
  refine ⟨fun ⟨claim', round', hmet', hown⟩ => ?_, fun ⟨claim', round', hmet', hopen, _⟩ => ?_⟩
  · obtain rfl := hmet.unique hmet'
    have hwon : round'.status = .won := hwinner.mpr (by rw [hown]; rfl)
    obtain ⟨-, -, -, winnerId, hother, hne⟩ :=
      htruthful.late _ rfl (if_neg (by rw [hwon]; decide))
    exact hne (Option.some.inj (hother.symm.trans hown))
  · obtain rfl := hmet.unique hmet'
    obtain ⟨-, hwon, -⟩ := htruthful.late _ rfl (if_neg (by rw [hopen]; decide))
    rw [hopen] at hwon
    cases hwon

end Claimed

/-- What an answered call was told is true exactly when its claim met neither a round that its own
dancer had won nor an open one without a last date. -/
theorem Told.truthful_iff {answer : Except JsError SubmitWordOutput}
    (h : call.Told rt planned slot answer) :
    call.Truthful rt planned slot answer ↔ ¬call.Repeated ∧ ¬call.Undated := by
  cases h with
  | failed hclaim =>
    refine iff_of_true (truthful_of_no_claim hclaim ?_ ?_ ?_ ?_)
      (not_misled_of_not_met fun claim _ => not_met hclaim claim)
    all_goals rintro _ ⟨⟩
  | incorrect hclaim hnot =>
    refine iff_of_true (truthful_of_no_claim hclaim ?_ ?_ ?_ ?_)
      (not_misled_of_not_met fun claim _ => not_met hclaim claim)
    · rintro _ ⟨⟩
      simp
    · rintro _ ⟨⟩
      simp
    · rintro _ ⟨⟩ ⟨⟩
    · rintro _ ⟨⟩ -
      exact hnot
  | expired hclaim hover =>
    refine iff_of_true (truthful_of_no_claim hclaim ?_ ?_ ?_ ?_)
      (not_misled_of_not_met fun claim _ => not_met hclaim claim)
    · rintro _ ⟨⟩
      simp
    · rintro _ ⟨⟩
      simp
    · rintro _ ⟨⟩ -
      exact hover
    · rintro _ ⟨⟩ ⟨⟩
  | won h => exact iff_of_true h.truthful_won h.not_misled_of_won
  | gone h => exact iff_of_true h.truthful_gone (not_misled_of_not_met (h.gone rfl))
  | refused h =>
    exact ⟨h.not_misled_of_truthful, fun ⟨hnot, hdated⟩ => h.truthful_refused hnot hdated⟩

end Call

/-- Whatever else happens to a planned race, what a call was told is true exactly when its claim met
neither a round that its own dancer had already won nor an open one that ends at an
`Invalid Date`. -/
theorem truthful_iff_not_repeated_nor_undated {room : Room} {options : PlanWordRaceOptions}
    {random : ℕ → RandomIndex}
    (hplan : WordRaceService.plan .double rt room options random = .ok planned)
    (ops : List SubmitOp) :
    ∀ call ∈ ((submissions rt).run { race := some planned } ops).calls, ∀ answer,
      call.stage = .answered answer →
        (call.Truthful rt planned ((submissions rt).run { race := some planned } ops).race answer ↔
          ¬call.Repeated ∧ ¬call.Undated) := by
  intro call hcall answer hstage
  have hsound := (sound_run (WordRaceService.plan_eq_ok hplan).1 ops).calls call hcall
  unfold Call.Sound at hsound
  simp only [hstage] at hsound
  exact hsound.truthful_iff

/-- Ana types the word of the first round, twice. -/
def sampleRepeat (word : JsString) : List SubmitOp :=
  [.openRound (js "b1:1"),
    .submit ⟨js "ROOM22", js "ana", .string (js "b1:1"), .string word⟩,
    .submit ⟨js "ROOM22", js "ana", .string (js "b1:1"), .string word⟩,
    .advance 0 13000, .advance 1 13000, .advance 0 13000, .advance 1 13000, .advance 0 13000,
    .advance 1 13000]

/-- Each of two dancers types it once. -/
def sampleRivals (word : JsString) : List SubmitOp :=
  [.openRound (js "b1:1"),
    .submit ⟨js "ROOM22", js "ana", .string (js "b1:1"), .string word⟩,
    .submit ⟨js "ROOM22", js "bob", .string (js "b1:1"), .string word⟩,
    .advance 0 13000, .advance 1 13000, .advance 0 13000, .advance 1 13000, .advance 0 13000,
    .advance 1 13000]

/-- The race that is planned for the sample battle. -/
def samplePlan : Except JsError WordRace :=
  WordRaceService.plan .double .ascii WordRaceService.sampleRaceRoom WordRaceService.sampleOptions
    fun _ => .first

theorem exists_samplePlan : ∃ race, samplePlan = .ok race :=
  exists_ok_of_isOk (by decide +kernel)

/-- The second call of ana, who won the round, is told that she was late. -/
theorem told_sampleRepeat : ∀ race ∈ samplePlan.toOption,
    ∃ call ∈ ((submissions .ascii).run { race := some race } (sampleRepeat (js "ritmo"))).calls,
      call.told = some (.late, some call.input.playerId) := by
  decide +kernel

/-- The call of bob, who comes second, is told that ana won. -/
theorem told_sampleRivals : ∀ race ∈ samplePlan.toOption,
    ∃ call ∈ ((submissions .ascii).run { race := some race } (sampleRivals (js "ritmo"))).calls,
      call.input.playerId = js "bob" ∧ call.told = some (.late, some (js "ana")) := by
  decide +kernel

/-- A dancer who won the round is told that they were late. -/
theorem winner_told_late :
    ∃ race, WordRaceService.plan .double .ascii WordRaceService.sampleRaceRoom
        WordRaceService.sampleOptions (fun _ => .first) = .ok race ∧
      ∃ call ∈ ((submissions .ascii).run { race := some race } (sampleRepeat (js "ritmo"))).calls,
        ∃ out, call.stage = .answered (.ok out) ∧ out.outcome = .late ∧
          out.round.winnerId = some call.input.playerId ∧
            ¬call.Truthful .ascii race ((submissions .ascii).run { race := some race }
              (sampleRepeat (js "ritmo"))).race (.ok out) := by
  obtain ⟨race, hrace⟩ := exists_samplePlan
  obtain ⟨call, hcall, htold⟩ := told_sampleRepeat race (by rw [hrace]; rfl)
  obtain ⟨out, hstage, hlate, hwinner⟩ := Call.exists_of_told htold
  refine ⟨race, hrace, call, hcall, out, hstage, hlate, hwinner, fun htruthful => ?_⟩
  obtain ⟨-, -, -, winnerId, hother, hne⟩ := htruthful.late out rfl hlate
  exact hne (Option.some.inj (hother.symm.trans hwinner))

theorem truthful_iff_not_repeated_nor_undated_sampleRivals :
    ∃ race, WordRaceService.plan .double .ascii WordRaceService.sampleRaceRoom
        WordRaceService.sampleOptions (fun _ => .first) = .ok race ∧
      ∃ call ∈ ((submissions .ascii).run { race := some race } (sampleRivals (js "ritmo"))).calls,
        ∃ out, call.stage = .answered (.ok out) ∧ out.outcome = .late ∧
          (call.Truthful .ascii race ((submissions .ascii).run { race := some race }
            (sampleRivals (js "ritmo"))).race (.ok out) ↔ ¬call.Repeated ∧ ¬call.Undated) := by
  obtain ⟨race, hrace⟩ := exists_samplePlan
  obtain ⟨call, hcall, -, htold⟩ := told_sampleRivals race (by rw [hrace]; rfl)
  obtain ⟨out, hstage, hlate, -⟩ := Call.exists_of_told htold
  exact ⟨race, hrace, call, hcall, out, hstage, hlate,
    truthful_iff_not_repeated_nor_undated hrace (sampleRivals (js "ritmo")) call hcall _ hstage⟩

end SubmitWord

end DanceSync
