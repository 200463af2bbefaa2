import DanceSync.Application.Refusals
import DanceSync.Config.RoomDates

/-!
# Accepted settings

What `loadEnv` checks of the settings is what the use cases rely on: a call as `server.ts` wires it
throws domain errors only.

## Main results

* `Config.Env.Valid.timed`: the battles have times and points in range.
* `Config.Env.Valid.accepted`: every configured call is accepted.
-/

namespace DanceSync.Config.Env.Valid

variable {env : Env} {rt : Runtime} {op : RoomOp} {now : Instant}

/-- The battles of a configured process have times and points in range. -/
theorem timed (h : env.Valid) (now : Instant) (battleId : JsString) :
    (env.battleOptions now battleId).Timed where
  countdownMs := h.battleStartCountdownMs.lower
  fallbackDurationMs := by
    have hlower := h.wordRaceFallbackDurationMs.lower
    simp only [NumberRule.isPositive, true_or, decide_true, if_true] at hlower
    exact hlower.le
  votePoints := by
    have hlower := h.votePoints.lower
    simp only [NumberRule.isPositive, or_true, decide_true, if_true] at hlower
    exact ⟨h.votePoints.whole (by decide), hlower.le⟩
  wordBonusPoints := by
    have hlower := h.wordBonusPoints.lower
    simp only [NumberRule.isPositive, or_true, decide_true, if_true] at hlower
    exact ⟨h.wordBonusPoints.whole (by decide), hlower.le⟩

theorem accepted_battle (h : env.Valid) {battleId : JsString}
    (hop : op.battleOptions? = some (env.battleOptions now battleId)) : op.Accepted rt where
  battle options hoptions := by
    obtain rfl := Option.some.inj (hop.symm.trans hoptions)
    exact h.timed now battleId
  challenge requesterId options heq := by
    rw [heq] at hop
    cases hop
  join playerId displayName heq := by
    rw [heq] at hop
    cases hop

/-- The phrases of a challenge are those of the catalogue. -/
theorem accepted_challenge (h : env.Valid) {requesterId challengeId : JsString}
    {random : RandomIndex} :
    (RoomOp.startChallenge requesterId (env.challengeOptions now challengeId random)).Accepted
      rt where
  battle := by rintro options ⟨⟩
  challenge := by
    rintro _ _ ⟨⟩
    have hlower := h.songChooseMs.lower
    simp only [NumberRule.isPositive, true_or, decide_true, if_true] at hlower
    refine ⟨hlower, ?_, ?_⟩
    · show SONG_CHALLENGE_PHRASES ≠ []
      decide +kernel
    · show SONG_CHALLENGE_PHRASES.Nodup
      decide +kernel
  join := by rintro playerId displayName ⟨⟩

/-- Every call that the process makes has settings in range. -/
theorem accepted (h : env.Valid) (hrt : rt.KeepsSuffixes) (now : Instant) (op : RoomOp) :
    (env.configure now op).Accepted rt := by
  cases op with
  | startChallenge => exact h.accepted_challenge
  | chooseSong | autoPick | startBattle => exact h.accepted_battle rfl
  | join =>
    exact ⟨by rintro options ⟨⟩, by rintro requesterId options ⟨⟩, fun _ _ _ => hrt⟩
  | _ => exact .of_plain rfl

end DanceSync.Config.Env.Valid
