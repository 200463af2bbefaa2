import DanceSync.Js.Number
import DanceSync.Model.Room

/-!
# The configuration

`src/config/env.ts`: the settings of the process, read once at startup. A setting that is missing
or blank has its default; any other text must be a number that meets the rule of the setting.

## Main definitions

* `Config.NumberRule`, `Config.readNumber`.
* `Config.Env`, `Config.loadEnv`.

## Main results

* `Config.readNumber_eq_ok_iff`: the numbers that are accepted, whatever was written.
* `Config.loadEnv_valid`: every setting of an accepted environment meets its rule.
-/

namespace DanceSync.Config

inductive NumberRule where
  | nonNegative
  | positive
  | nonNegativeInteger
  | positiveInteger
  deriving DecidableEq, Repr

/-- The variables of the process. -/
abbrev Source := JsString → Option JsString

namespace NumberRule

def integer (rule : NumberRule) : Bool := rule = nonNegativeInteger ∨ rule = positiveInteger

def isPositive (rule : NumberRule) : Bool := rule = positive ∨ rule = positiveInteger

/-- The numbers that a rule allows. -/
structure Allows (rule : NumberRule) (value : ℚ) : Prop where
  whole : rule.integer → value.isInt
  lower : if rule.isPositive then 0 < value else 0 ≤ value

end NumberRule

/-- The `Error` of a setting. -/
def invalid (name : JsString) (problem raw : JsString) : JsError :=
  .other (js "Environment variable " ++ name ++ js " must be " ++ problem ++ js ", received \"" ++
    raw ++ js "\"")

/-- The rule of a setting, checked on the number that was written. -/
def NumberRule.checked (rule : NumberRule) (name raw : JsString) (parsed : ℚ) :
    Except JsError ℚ := do
  throwIf (rule.integer ∧ ¬parsed.isInt) (invalid name (js "a whole number") raw)
  throwIf (if rule.isPositive then parsed ≤ 0 else parsed < 0)
    (invalid name (if rule.isPositive then js "greater than 0" else js "0 or more") raw)
  return parsed

def readNumber (source : Source) (name : JsString) (fallback : ℚ) (rule : NumberRule) :
    Except JsError ℚ :=
  match source name with
  | none => .ok fallback
  | some raw =>
    if raw.trim = [] then .ok fallback
    else match raw.toNumber with
      | none => .error (invalid name (js "a number") raw)
      | some parsed => rule.checked name raw parsed

/-- The settings. Times are in milliseconds. -/
structure Env where
  port : ℚ
  corsOrigin : JsString
  usersServiceUrl : JsString
  disconnectGraceMs : ℚ
  /-- How long a seat is kept after a `pagehide` beacon. -/
  pagehideGraceMs : ℚ
  songChallengeMs : ℚ
  songChooseMs : ℚ
  /-- Countdown between the start of a battle and the moment dancing begins. -/
  battleStartCountdownMs : ℚ
  wordRaceRounds : ℚ
  wordRaceWindowMs : ℚ
  /-- Minimum time between two word-race round openings. -/
  wordRaceMinGapMs : ℚ
  votePoints : ℚ
  wordBonusPoints : ℚ
  /-- Song length assumed when the battle has no song. -/
  wordRaceFallbackDurationMs : ℚ
  deriving DecidableEq

/-- Reads and validates the configuration; throws on the first invalid value. -/
def loadEnv (source : Source) : Except JsError Env := do
  let read := fun name => readNumber source (js name)
  let port ← read "PORT" 3000 .nonNegativeInteger
  let disconnectGraceMs ← read "DISCONNECT_GRACE_MS" 15000 .nonNegative
  let pagehideGraceMs ← read "PAGEHIDE_GRACE_MS" 3000 .nonNegative
  let songChallengeMs ← read "SONG_CHALLENGE_MS" 15000 .positive
  let songChooseMs ← read "SONG_CHOOSE_MS" 20000 .positive
  let battleStartCountdownMs ← read "BATTLE_START_COUNTDOWN_MS" 5000 .nonNegative
  let wordRaceRounds ← read "WORD_RACE_ROUNDS" 3 .nonNegativeInteger
  let wordRaceWindowMs ← read "WORD_RACE_WINDOW_MS" 10000 .positive
  let wordRaceMinGapMs ← read "WORD_RACE_MIN_GAP_MS" 12000 .nonNegative
  let votePoints ← read "VOTE_POINTS" 2 .positiveInteger
  let wordBonusPoints ← read "WORD_BONUS_POINTS" 1 .positiveInteger
  let wordRaceFallbackDurationMs ← read "WORD_RACE_FALLBACK_DURATION_MS" 90000 .positive
  return {
    port
    corsOrigin := (source (js "CORS_ORIGIN")).getD (js "http://localhost:5173")
    usersServiceUrl := (source (js "USERS_SERVICE_URL")).getD (js "http://localhost:8081")
    disconnectGraceMs, pagehideGraceMs, songChallengeMs, songChooseMs, battleStartCountdownMs
    wordRaceRounds, wordRaceWindowMs, wordRaceMinGapMs, votePoints, wordBonusPoints
    wordRaceFallbackDurationMs }

/-! ### What is accepted -/

/-- Every setting meets its rule. -/
structure Env.Valid (env : Env) : Prop where
  port : NumberRule.nonNegativeInteger.Allows env.port
  disconnectGraceMs : NumberRule.nonNegative.Allows env.disconnectGraceMs
  pagehideGraceMs : NumberRule.nonNegative.Allows env.pagehideGraceMs
  songChallengeMs : NumberRule.positive.Allows env.songChallengeMs
  songChooseMs : NumberRule.positive.Allows env.songChooseMs
  battleStartCountdownMs : NumberRule.nonNegative.Allows env.battleStartCountdownMs
  wordRaceRounds : NumberRule.nonNegativeInteger.Allows env.wordRaceRounds
  wordRaceWindowMs : NumberRule.positive.Allows env.wordRaceWindowMs
  wordRaceMinGapMs : NumberRule.nonNegative.Allows env.wordRaceMinGapMs
  votePoints : NumberRule.positiveInteger.Allows env.votePoints
  wordBonusPoints : NumberRule.positiveInteger.Allows env.wordBonusPoints
  wordRaceFallbackDurationMs : NumberRule.positive.Allows env.wordRaceFallbackDurationMs

variable {source : Source} {name : JsString} {fallback value : ℚ} {rule : NumberRule} {env : Env}

theorem NumberRule.checked_eq_ok_iff {raw : JsString} {parsed : ℚ} :
    rule.checked name raw parsed = .ok value ↔ parsed = value ∧ rule.Allows value := by
  simp only [checked, bind_eq_ok, throwIf_eq_ok, exists_const, pure_eq_ok]
  constructor
  · rintro ⟨hwhole, hlower, rfl⟩
    refine ⟨rfl, fun h => by_contra fun hnot => hwhole ⟨h, hnot⟩, ?_⟩
    split_ifs at hlower ⊢ <;> linarith
  · rintro ⟨rfl, hallows⟩
    refine ⟨fun h => h.2 (hallows.whole h.1), ?_, rfl⟩
    have hlower := hallows.lower
    split_ifs at hlower ⊢ <;> linarith

/-- A setting has its default, or a number that was written and meets its rule. -/
theorem readNumber_eq_ok_iff : readNumber source name fallback rule = .ok value ↔
    ((∀ raw ∈ source name, raw.trim = []) ∧ value = fallback) ∨
    ∃ raw ∈ source name, raw.trim ≠ [] ∧ raw.toNumber = some value ∧ rule.Allows value := by
  rw [readNumber]
  cases source name with
  | none =>
    constructor
    · rintro ⟨⟩
      exact Or.inl ⟨by rintro raw ⟨⟩, rfl⟩
    · rintro (⟨-, rfl⟩ | ⟨raw, ⟨⟩, -⟩)
      rfl
  | some raw =>
    dsimp only
    by_cases hblank : raw.trim = []
    · rw [if_pos hblank]
      constructor
      · rintro ⟨⟩
        exact Or.inl ⟨by rintro _ ⟨⟩; exact hblank, rfl⟩
      · rintro (⟨-, rfl⟩ | ⟨_, ⟨⟩, hnot, -⟩)
        · rfl
        · exact absurd hblank hnot
    rw [if_neg hblank]
    cases hnumber : raw.toNumber with
    | none =>
      refine iff_of_false (by rintro ⟨⟩) ?_
      rintro (⟨h, -⟩ | ⟨_, ⟨⟩, -, hsome, -⟩)
      · exact hblank (h raw rfl)
      · simp [hnumber] at hsome
    | some parsed =>
      refine NumberRule.checked_eq_ok_iff.trans ?_
      constructor
      · rintro ⟨rfl, hallows⟩
        exact Or.inr ⟨raw, rfl, hblank, hnumber, hallows⟩
      · rintro (⟨h, -⟩ | ⟨_, ⟨⟩, -, hsome, hallows⟩)
        · exact absurd (h raw rfl) hblank
        · exact ⟨Option.some.inj (hnumber.symm.trans hsome), hallows⟩

/-- A default that meets its rule makes every accepted value meet it. -/
theorem allows_of_readNumber (h : readNumber source name fallback rule = .ok value)
    (hfallback : rule.Allows fallback) : rule.Allows value := by
  rcases readNumber_eq_ok_iff.mp h with ⟨-, rfl⟩ | ⟨raw, -, -, -, hallows⟩
  · exact hfallback
  · exact hallows

/-- Every setting of an accepted environment meets its rule: so does every default. -/
theorem loadEnv_valid (h : loadEnv source = .ok env) : env.Valid := by
  simp only [loadEnv, bind_eq_ok, pure_eq_ok] at h
  obtain ⟨port, hport, disconnect, hdisconnect, pagehide, hpagehide, challenge, hchallenge,
    choose, hchoose, countdown, hcountdown, rounds, hrounds, window, hwindow, gap, hgap,
    votes, hvotes, words, hwords, length, hlength, rfl⟩ := h
  constructor
  all_goals
    first
    | exact allows_of_readNumber (by assumption) ⟨by decide +kernel, by decide +kernel⟩

end DanceSync.Config
