import DanceSync.Application.RoomStore
import DanceSync.Machine.Interleaving

/-!
# Socket bindings

`room:join` binds a socket to a seat: it writes the room and the player to `socket.data` and enters
the channels of both. The handlers of `src/infrastructure/ws/socketHandlers.ts` that bind, unbind
and release seats, namely `room:join`, `room:leave`, `player:kick`, `disconnect`, the grace timers
and the departures over HTTP, are cut at their awaits; the call of a use case is a piece of its own.

A channel is entered or left when `socket.join` or `socket.leave` is called, and `socket.join` does
nothing on a socket that is gone. Sockets are numbered in the order in which they connect, which is
the order in which `unbindPlayer` visits them. What the handlers publish and answer is left out.

## Main definitions

* `Bindings.BattleSocket`, `Bindings.State`, `Bindings.Task`.
* `Bindings.binding`: the machine of all interleavings.
* `Bindings.Consistent`: sockets and seats agree.
-/

namespace DanceSync

namespace Bindings

/-! ### The state -/

/-- What `room:join` writes to `socket.data`; neither text is ever empty. -/
structure Binding where
  roomCode : JsString
  playerId : JsString
  deriving DecidableEq

def Binding.seat (rt : Runtime) (binding : Binding) : SeatKey :=
  seatKey rt binding.roomCode binding.playerId

theorem Binding.seat_fst (rt : Runtime) (binding : Binding) :
    rt.toUpperCase binding.roomCode = (binding.seat rt).1 := rfl

inductive Channel where
  | room (roomCode : JsString)
  /-- `playerChannel(playerId)`. -/
  | player (playerId : JsString)
  deriving DecidableEq

/-- The channels that a binding names. -/
def Binding.channels (binding : Binding) : Finset Channel :=
  {.room binding.roomCode, .player binding.playerId}

structure BattleSocket where
  gone : Bool := false
  data : Option Binding := none
  channels : Finset Channel := ∅

/-- The pending timer of a seat, by the room code it was set with. -/
abbrev GraceTimer (rt : Runtime) (seat : SeatKey) :=
  { roomCode : JsString // rt.toUpperCase roomCode = seat.1 }

/-- What the handlers share. -/
structure State (rt : Runtime) where
  rooms : RoomStore rt
  /-- How many sockets have connected so far. -/
  connections : ℕ := 0
  sockets : ℕ → BattleSocket := fun _ => {}
  graceTimers : ∀ seat, Option (GraceTimer rt seat) := fun _ => none

namespace State

variable {rt : Runtime} (s : State rt)

def connected (socket : ℕ) : Bool := socket < s.connections && !(s.sockets socket).gone

/-- The socket is connected and bound to the seat. -/
def boundTo (socket : ℕ) (seat : SeatKey) : Bool :=
  s.connected socket && (s.sockets socket).data.any (·.seat rt = seat)

/-- The socket is connected and bound to some seat of the player. -/
def actsAs (socket : ℕ) (playerId : JsString) : Bool :=
  s.connected socket && (s.sockets socket).data.any (·.playerId = playerId)

def modify (socket : ℕ) (f : BattleSocket → BattleSocket) : State rt :=
  { s with sockets := Function.update s.sockets socket (f (s.sockets socket)) }

def connection : State rt :=
  { s with
    connections := s.connections + 1
    sockets := Function.update s.sockets s.connections {} }

/-- `socket.join`. -/
def join (socket : ℕ) (channel : Channel) : State rt :=
  if s.connected socket then
    s.modify socket fun k => { k with channels := insert channel k.channels }
  else s

/-- `socket.leave`. -/
def leave (socket : ℕ) (channel : Channel) : State rt :=
  s.modify socket fun k => { k with channels := k.channels.erase channel }

def cancelGrace (seat : SeatKey) : State rt :=
  { s with graceTimers := Function.update s.graceTimers seat none }

/-- A pending timer is never postponed: it was set earlier with the same delay. -/
def scheduleGrace (binding : Binding) : State rt :=
  if (s.graceTimers (binding.seat rt)).isSome then s
  else
    { s with
      graceTimers := Function.update s.graceTimers (binding.seat rt)
        (some ⟨binding.roomCode, binding.seat_fst rt⟩) }

/-- The socket drops: it is out of every channel, and its seat is kept for a grace period. -/
def disconnect (socket : ℕ) : State rt :=
  let dropped := s.modify socket fun k => { k with gone := true, channels := ∅ }
  match (s.sockets socket).data with
  | none => dropped
  | some binding => dropped.scheduleGrace binding

/-- `room:join` writes the binding and enters the room channel. -/
def bind (socket : ℕ) (binding : Binding) : State rt :=
  (((s.cancelGrace (binding.seat rt)).modify socket
    fun k => { k with data := some binding }).join socket (.room binding.roomCode))

/-- The first half of `unbindSocket`: the binding and the room channel are dropped. -/
def unbind (socket : ℕ) (binding : Binding) : State rt :=
  (s.modify socket fun k => { k with data := none }).leave socket (.room binding.roomCode)

/-- The first socket from a number on that is bound to the seat. -/
def nextBound (seat : SeatKey) (first : ℕ) : Option ℕ :=
  (List.range' first (s.connections - first)).find? (s.boundTo · seat)

/-- `io.in(roomCode).fetchSockets()`. -/
def fetchSockets (roomCode : JsString) : List ℕ :=
  (List.range s.connections).filter fun socket => .room roomCode ∈ (s.sockets socket).channels

end State

/-- Ensures the socket joined the room as the player, and returns what it is bound to. -/
def requireOwnSeat (rt : Runtime) (socket : BattleSocket) (roomCode playerId : JsValue) :
    Option Binding :=
  socket.data.filter fun binding =>
    roomCode.string?.any (rt.toUpperCase · = rt.toUpperCase binding.roomCode) &&
      playerId.string? = some binding.playerId

/-! ### The tasks -/

/-- A `room:join` that took its seat: what its payload said, and the code of the room. -/
structure Join where
  socket : ℕ
  code : JsString
  playerId : JsString
  displayName : JsValue
  roomCode : JsString

def Join.binding (join : Join) : Binding := ⟨join.roomCode, join.playerId⟩

/-- A `room:join` that first releases the seat its socket was bound to. -/
structure Switch where
  join : Join
  previous : Binding

/-- A suspended handler, by what it does next. A departure goes on with the `room:join` it is part
of, if any. -/
inductive Task where
  | connection
  | disconnect (socket : ℕ)
  | roomJoin (socket : ℕ) (roomCode playerId displayName : JsValue)
  | roomLeave (socket : ℕ) (roomCode playerId : JsValue)
  | playerKick (socket : ℕ) (roomCode requesterId playerId : JsValue)
  | graceFired (seat : SeatKey)
  | releaseSeatIfAbandoned (roomCode playerId : JsString)
  /-- `leaveRoom` calls its use case. -/
  | leaveRoom (roomCode playerId : JsString) (next : Option Switch)
  /-- `room:join` took the seat. -/
  | joined (join : Join)
  /-- The seat is free: its grace ends and its sockets are unbound. -/
  | departed (roomCode playerId : JsString) (next : Option Switch)
  /-- `unbindPlayer` goes on from a socket number. -/
  | unbindPlayer (roomCode playerId : JsString) (first : ℕ) (next : Option Switch)
  /-- `unbindSocket`, called by `unbindPlayer`, leaves the player channel. -/
  | unbindingPlayer (roomCode playerId : JsString) (socket : ℕ) (next : Option Switch)
  /-- `leavePreviousBinding` unbinds its own socket. -/
  | unbindSocket (switch : Switch)
  | unbindingSocket (switch : Switch) (playerId : JsString)
  /-- `leavePreviousBinding` is done. -/
  | switched (switch : Switch)
  | bind (join : Join)
  /-- `room:join` enters the player channel. -/
  | joinPlayerChannel (socket : ℕ) (playerId : JsString)
  | kickPlayer (roomCode requesterId : JsString) (playerId : JsValue)
  /-- `isBound` looks for the player among the sockets it fetched. -/
  | isBound (roomCode playerId : JsString) (fetched : List ℕ)

/-- A `room:join` of the socket took the seat. -/
structure Taken where
  socket : ℕ
  seat : SeatKey
  deriving DecidableEq

/-- What a piece reads from outside. -/
structure Env where
  random : RandomIndex
  now : Instant

namespace Task

variable {rt : Runtime} (env : Env) (s : State rt)

/-- The last lines of `room:join`. -/
def resumeBind (join : Join) : Resumed (State rt) Task Taken :=
  { shared := s.bind join.socket join.binding
    tasks := [.joinPlayerChannel join.socket join.playerId] }

def resumeRoomJoin (socket : ℕ) (roomCode playerId displayName : JsValue) :
    Resumed (State rt) Task Taken :=
  match requireRoomCode roomCode with
  | .error _ => { shared := s }
  | .ok code =>
    let (rooms, reply) := s.rooms.call code (.join playerId displayName)
    match reply, playerId.string? with
    | .ok (.room room), some playerId =>
      { shared := { s with rooms }
        tasks := [.joined ⟨socket, code, playerId, displayName, room.code⟩]
        emitted := [⟨socket, seatKey rt room.code playerId⟩] }
    | _, _ => { shared := { s with rooms } }

/-- Joining as someone else or somewhere else first releases the seat bound so far. -/
def resumeJoined (join : Join) : Resumed (State rt) Task Taken :=
  match (s.sockets join.socket).data with
  | none => resumeBind s join
  | some previous =>
    if previous.seat rt = join.binding.seat rt then resumeBind s join
    else
      { shared := s
        tasks := [.leaveRoom previous.roomCode previous.playerId (some ⟨join, previous⟩)] }

def resumeLeaveRoom (roomCode playerId : JsString) (next : Option Switch) :
    Resumed (State rt) Task Taken :=
  let (rooms, reply) := s.rooms.call roomCode (.leave playerId env.random env.now)
  match reply with
  | .ok _ => { shared := { s with rooms }, tasks := [.departed roomCode playerId next] }
  | .error (.domain ..) =>
    -- Seat already released or room gone: only the channels of the own socket are left.
    { shared := { s with rooms }, tasks := next.toList.map .unbindSocket }
  | .error _ => { shared := { s with rooms } }

/-- `unbindPlayer` from a socket number on; the departure is announced when nobody is left. -/
def resumeUnbindPlayer (roomCode playerId : JsString) (first : ℕ) (next : Option Switch) :
    Resumed (State rt) Task Taken :=
  match s.nextBound (seatKey rt roomCode playerId) first with
  | none => { shared := s, tasks := next.toList.map .unbindSocket }
  | some socket =>
    { shared := match (s.sockets socket).data with
        | none => s
        | some binding => s.unbind socket binding
      tasks := [.unbindingPlayer roomCode playerId socket next] }

def resumeUnbindSocket (switch : Switch) : Resumed (State rt) Task Taken :=
  match (s.sockets switch.join.socket).data with
  | none => { shared := s, tasks := [.switched switch] }
  | some binding =>
    { shared := s.unbind switch.join.socket binding
      tasks := [.unbindingSocket switch binding.playerId] }

def resumeSwitched (switch : Switch) : Resumed (State rt) Task Taken :=
  let join := switch.join
  if rt.toUpperCase switch.previous.roomCode = rt.toUpperCase join.roomCode then
    -- Same room under a new identity: the departure changed it again.
    let (rooms, reply) := s.rooms.call join.code (.join (.string join.playerId) join.displayName)
    match reply with
    | .ok (.room room) =>
      { shared := { s with rooms }
        tasks := [.bind { join with roomCode := room.code }]
        emitted := [⟨join.socket, seatKey rt room.code join.playerId⟩] }
    | _ => { shared := { s with rooms } }
  else resumeBind s join

def resumeKickPlayer (roomCode requesterId : JsString) (playerId : JsValue) :
    Resumed (State rt) Task Taken :=
  let (rooms, reply) := s.rooms.call roomCode (.kick requesterId playerId env.random env.now)
  match reply, playerId.string? with
  | .ok (.room room), some kickedId =>
    { shared := { s with rooms }, tasks := [.departed room.code kickedId none] }
  | _, _ => { shared := { s with rooms } }

def resumeRelease (roomCode playerId : JsString) : Resumed (State rt) Task Taken :=
  { shared := s, tasks := [.isBound roomCode playerId (s.fetchSockets roomCode)] }

/-- One piece of a handler. The events of a socket are handled while it is connected. -/
def resume : Task → Resumed (State rt) Task Taken
  | .connection => { shared := s.connection }
  | .disconnect socket => { shared := if s.connected socket then s.disconnect socket else s }
  | .roomJoin socket roomCode playerId displayName =>
    if s.connected socket then resumeRoomJoin s socket roomCode playerId displayName
    else { shared := s }
  | .roomLeave socket roomCode playerId =>
    { shared := s
      tasks := if s.connected socket then
          (requireOwnSeat rt (s.sockets socket) roomCode playerId).toList.map fun binding =>
            .leaveRoom binding.roomCode binding.playerId none
        else [] }
  | .playerKick socket roomCode requesterId playerId =>
    { shared := s
      tasks := if s.connected socket then
          (requireOwnSeat rt (s.sockets socket) roomCode requesterId).toList.map fun binding =>
            .kickPlayer binding.roomCode binding.playerId playerId
        else [] }
  | .graceFired seat =>
    match s.graceTimers seat with
    | none => { shared := s }
    | some timer => resumeRelease (s.cancelGrace seat) timer seat.2
  | .releaseSeatIfAbandoned roomCode playerId => resumeRelease s roomCode playerId
  | .leaveRoom roomCode playerId next => resumeLeaveRoom env s roomCode playerId next
  | .joined join => resumeJoined s join
  | .departed roomCode playerId next =>
    resumeUnbindPlayer (s.cancelGrace (seatKey rt roomCode playerId)) roomCode playerId 0 next
  | .unbindPlayer roomCode playerId first next =>
    resumeUnbindPlayer s roomCode playerId first next
  | .unbindingPlayer roomCode playerId socket next =>
    { shared := s.leave socket (.player playerId)
      tasks := [.unbindPlayer roomCode playerId (socket + 1) next] }
  | .unbindSocket switch => resumeUnbindSocket s switch
  | .unbindingSocket switch playerId =>
    { shared := s.leave switch.join.socket (.player playerId), tasks := [.switched switch] }
  | .switched switch => resumeSwitched s switch
  | .bind join => resumeBind s join
  | .joinPlayerChannel socket playerId => { shared := s.join socket (.player playerId) }
  | .kickPlayer roomCode requesterId playerId =>
    resumeKickPlayer env s roomCode requesterId playerId
  | .isBound roomCode playerId fetched =>
    -- Player is back, or the seat is left.
    { shared := s
      tasks := if fetched.any fun socket => (s.sockets socket).data.any (·.playerId = playerId)
        then [] else [.leaveRoom roomCode playerId none] }

/-- The tasks that events, timers and requests start as. -/
def isFirst : Task → Bool
  | .connection | .disconnect _ | .roomJoin .. | .roomLeave .. | .playerKick .. | .graceFired _
  | .releaseSeatIfAbandoned .. | .leaveRoom _ _ none => true
  | _ => false

end Task

variable {rt : Runtime}

abbrev Sockets (rt : Runtime) := World (State rt) Task Taken

/-- All interleavings of the handlers. -/
def binding (rt : Runtime) : Machine (Sockets rt) (Turn Env Task) (List Taken) :=
  interleaving fun env task state => task.resume env state

/-- Some rooms are stored, and no socket has connected. -/
def started (rooms : RoomStore rt) : Sockets rt := { shared := { rooms }, tasks := [], log := [] }

/-- Sockets and seats agree. -/
structure Consistent (w : Sockets rt) : Prop where
  /-- A connected socket is in the channels that its binding names and in no other. -/
  channels : ∀ socket, w.shared.connected socket → (w.shared.sockets socket).channels =
    ((w.shared.sockets socket).data.map Binding.channels).getD ∅
  /-- The seat of a connected socket is stored. -/
  seated : ∀ socket seat, w.shared.boundTo socket seat → w.shared.rooms.seated seat
  /-- A seat that was taken and has neither a socket nor a timer is released. -/
  released : ∀ taken ∈ w.log, (∀ socket, ¬w.shared.boundTo socket taken.seat) →
    w.shared.graceTimers taken.seat = none → ¬w.shared.rooms.seated taken.seat

end Bindings

end DanceSync
