import DanceSync.Lifecycle.SongChallenge
import DanceSync.Lifecycle.SongChooser
import DanceSync.Lifecycle.MatchTimes
import DanceSync.Lifecycle.Votes
import DanceSync.Lifecycle.BattleEnd
import DanceSync.Lifecycle.Timers
import DanceSync.Lifecycle.Freeze
import DanceSync.Lifecycle.PlayerIds
import DanceSync.Lifecycle.MatchAccepted
import DanceSync.Serialization.RoomDto
import DanceSync.Application.Retries
import DanceSync.Domain.WordRaceTimeline
import DanceSync.Lifecycle.Ranking
import DanceSync.WordRace.Rounds
import DanceSync.Handlers.WordBonus
import DanceSync.Handlers.StopRace
import DanceSync.Handlers.Submissions
import DanceSync.Handlers.DeletedRoom
import DanceSync.Handlers.VoteMine
import DanceSync.Handlers.Grace
import DanceSync.Handlers.BindingRaces
import DanceSync.UsersService.UpsertRace
import DanceSync.Config.WordRaceSettings
import DanceSync.Config.RoomDates
import DanceSync.Config.Deadlines
import DanceSync.Machine.Program
import DanceSync.Handlers.OwnSeat
import DanceSync.Lifecycle.ChosenBattle
import DanceSync.Lifecycle.DisplayNames
import DanceSync.Text.CodePoints
import DanceSync.Sorting.Bag
import DanceSync.UsersService.RoundTrip
import DanceSync.UsersService.Schema
import DanceSync.Application.RemoteRoomStore
import DanceSync.UsersService.SingleUpsert
import DanceSync.UsersService.MatchDelivery
import DanceSync.Handlers.Reaping
import DanceSync.Handlers.Viewers
import DanceSync.UsersService.Registration
import DanceSync.Handlers.Answers
import DanceSync.Config.Accepted
import DanceSync.Config.Unattended
import DanceSync.Handlers.RoundTimers
import DanceSync.Handlers.AnnouncedOnce
