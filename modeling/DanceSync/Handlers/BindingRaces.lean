import DanceSync.Handlers.Bindings
import DanceSync.Model.Ascii

/-!
# Handlers that overtake each other on a seat

Between its awaits `room:join` relies on what it read: that its socket is still connected and bound
as before, and that the seat it took is still its own. A departure relies on the seat being free
until its sockets are unbound. Another handler may overtake either, and then a socket stays in a
channel, is bound to a free seat, or leaves a seat that nobody releases. As long as no piece is
overtaken, sockets and seats agree whenever no handler is in flight.

## Main definitions

* `Bindings.Task.overtaken`, `Bindings.overtakes`: the next piece comes too late.
* `Bindings.Moved`: what a piece does.
* `Bindings.Channelled`, `Bindings.Held`, `Bindings.Coherent`: what holds while handlers are in
  flight.

## Main results

* `Bindings.moved`: every piece does one of these things.
* `Bindings.Coherent.turned`: a turn that is not overtaken keeps the invariant.
* `Bindings.consistent_of_not_overtaken`: sockets and seats agree after every such run.
* `Bindings.joined_twice`: two joins of a bound socket, sent back to back, leave a seat behind.
-/

namespace DanceSync

namespace Bindings

variable {rt : Runtime}

/-! ### Sockets after each change -/

namespace State

variable (s : State rt) (socket : ℕ) (binding : Binding) (channel : Channel) (m : ℕ)
  (seat : SeatKey) (playerId : JsString)

/-- A change that lets a socket live changes no connection. -/
theorem connected_modify {f : BattleSocket → BattleSocket}
    (hf : (f (s.sockets socket)).gone = (s.sockets socket).gone) :
    (s.modify socket f).connected m = s.connected m := by
  by_cases h : m = socket
  · subst h
    simp only [connected, modify, Function.update_self, hf]
    rfl
  · simp only [connected, modify, Function.update_of_ne h]
    rfl

@[simp] theorem connected_cancelGrace : (s.cancelGrace seat).connected m = s.connected m := rfl

@[simp] theorem boundTo_cancelGrace (other : SeatKey) :
    (s.cancelGrace seat).boundTo m other = s.boundTo m other := rfl

@[simp] theorem connected_join : (s.join socket channel).connected m = s.connected m := by
  unfold join
  split_ifs
  · exact s.connected_modify socket m rfl
  · rfl

@[simp] theorem connected_leave : (s.leave socket channel).connected m = s.connected m :=
  s.connected_modify socket m rfl

@[simp] theorem connected_bind : (s.bind socket binding).connected m = s.connected m := by
  rw [bind, connected_join]
  exact (s.cancelGrace _).connected_modify socket m rfl

@[simp] theorem connected_unbind : (s.unbind socket binding).connected m = s.connected m := by
  rw [unbind, connected_leave]
  exact s.connected_modify socket m rfl

theorem connected_disconnect :
    (s.disconnect socket).connected m = (decide (m ≠ socket) && s.connected m) := by
  have hdropped : (s.modify socket fun k => { k with gone := true, channels := ∅ }).connected m =
      (decide (m ≠ socket) && s.connected m) := by
    by_cases h : m = socket
    · simp [connected, modify, h]
    · simp only [connected, modify, Function.update_of_ne h, decide_not, h, decide_false,
        Bool.not_false, Bool.true_and]
      rfl
  rw [← hdropped, disconnect]
  split
  · rfl
  · simp only [scheduleGrace]
    split_ifs <;> rfl

theorem sockets_disconnect_of_ne (h : m ≠ socket) :
    (s.disconnect socket).sockets m = s.sockets m := by
  have hdropped : (s.modify socket fun k => { k with gone := true, channels := ∅ }).sockets m =
      s.sockets m := Function.update_of_ne h _ _
  rw [← hdropped, disconnect]
  split
  · rfl
  · simp only [scheduleGrace]
    split_ifs <;> rfl

theorem sockets_join : (s.join socket channel).sockets m =
    if m = socket ∧ s.connected socket then
      { s.sockets socket with channels := insert channel (s.sockets socket).channels }
    else s.sockets m := by
  unfold join
  by_cases hconnected : s.connected socket <;>
    simp [hconnected, modify, Function.update_apply]

theorem sockets_leave : (s.leave socket channel).sockets m =
    if m = socket then
      { s.sockets socket with channels := (s.sockets socket).channels.erase channel }
    else s.sockets m := by
  simp [leave, modify, Function.update_apply]

theorem sockets_bind (h : s.connected m) : (s.bind socket binding).sockets m =
    if m = socket then
      { s.sockets socket with
        data := some binding
        channels := insert (.room binding.roomCode) (s.sockets socket).channels }
    else s.sockets m := by
  have hconnected : ∀ n, ((s.cancelGrace (binding.seat rt)).modify socket
      fun k => { k with data := some binding }).connected n = s.connected n :=
    fun n => (s.cancelGrace _).connected_modify socket n rfl
  rw [bind, sockets_join, hconnected]
  by_cases hm : m = socket
  · subst hm
    simp [h, modify, cancelGrace]
  · simp [hm, modify, cancelGrace]

theorem sockets_unbind : (s.unbind socket binding).sockets m =
    if m = socket then
      { s.sockets socket with
        data := none
        channels := (s.sockets socket).channels.erase (.room binding.roomCode) }
    else s.sockets m := by
  rw [unbind, sockets_leave]
  by_cases hm : m = socket <;> simp [hm, modify]

theorem boundTo_iff : s.boundTo m seat ↔
    s.connected m ∧ ∃ b ∈ (s.sockets m).data, b.seat rt = seat := by
  simp [boundTo, Option.any_eq_true]

/-- The sockets of a seat do not change with the channels. -/
@[simp] theorem boundTo_join : (s.join socket channel).boundTo m seat = s.boundTo m seat := by
  rw [boundTo, connected_join, sockets_join]
  split_ifs with h
  · rw [h.1]
    rfl
  · rfl

@[simp] theorem boundTo_leave : (s.leave socket channel).boundTo m seat = s.boundTo m seat := by
  rw [boundTo, connected_leave, sockets_leave]
  split_ifs with h
  · rw [h]
    rfl
  · rfl

theorem boundTo_bind : (s.bind socket binding).boundTo m seat ↔
    if m = socket then s.connected m ∧ binding.seat rt = seat else s.boundTo m seat := by
  rw [boundTo_iff, connected_bind]
  split_ifs with h
  · refine and_congr_right fun hm => ?_
    rw [sockets_bind s socket binding m hm, if_pos h]
    simp
  · rw [boundTo_iff]
    refine and_congr_right fun hm => ?_
    rw [sockets_bind s socket binding m hm, if_neg h]

theorem boundTo_unbind : (s.unbind socket binding).boundTo m seat ↔
    m ≠ socket ∧ s.boundTo m seat := by
  rw [boundTo_iff, connected_unbind, sockets_unbind, boundTo_iff]
  split_ifs with h <;> simp [h]

theorem boundTo_disconnect : (s.disconnect socket).boundTo m seat ↔
    m ≠ socket ∧ s.boundTo m seat := by
  rw [boundTo_iff, connected_disconnect, boundTo_iff, Bool.and_eq_true, decide_eq_true_eq,
    and_assoc]
  refine and_congr_right fun h => ?_
  rw [sockets_disconnect_of_ne s socket m h]

@[simp] theorem boundTo_connection : s.connection.boundTo m seat = s.boundTo m seat := by
  by_cases h : m = s.connections
  · subst h
    simp [boundTo, connected, connection]
  · have hlt : (m < s.connections + 1) = (m < s.connections) := by
      rw [eq_iff_iff]
      omega
    simp [boundTo, connected, connection, h, hlt]

/-- A socket is bound to one seat. -/
theorem eq_of_boundTo {s : State rt} {m : ℕ} {seat other : SeatKey} (h : s.boundTo m seat)
    (h' : s.boundTo m other) : seat = other := by
  rw [boundTo_iff] at h h'
  obtain ⟨-, b, hb, rfl⟩ := h
  obtain ⟨-, b', hb', rfl⟩ := h'
  rw [Option.some.inj (hb.symm.trans hb')]

@[simp] theorem graceTimers_join : (s.join socket channel).graceTimers = s.graceTimers := by
  unfold join
  split_ifs <;> rfl

theorem graceTimers_cancelGrace {other : SeatKey} (h : other ≠ seat) :
    (s.cancelGrace seat).graceTimers other = s.graceTimers other :=
  Function.update_of_ne h _ _

theorem graceTimers_bind {other : SeatKey} (h : other ≠ binding.seat rt) :
    (s.bind socket binding).graceTimers other = s.graceTimers other := by
  rw [bind, graceTimers_join]
  exact s.graceTimers_cancelGrace _ h

theorem isSome_scheduleGrace : ((s.scheduleGrace binding).graceTimers seat).isSome ↔
    (s.graceTimers seat).isSome ∨ seat = binding.seat rt := by
  unfold scheduleGrace
  split_ifs with hpending
  · refine ⟨Or.inl, fun h => ?_⟩
    rcases h with h | rfl
    · exact h
    · exact hpending
  · by_cases hsame : seat = binding.seat rt
    · subst hsame
      simp
    · simp only [hsame, or_false, ne_eq, not_false_eq_true, Function.update_of_ne]

/-- A dropped socket leaves a timer for its seat, and every other timer as it was. -/
theorem graceTimers_disconnect (h : (s.graceTimers seat).isSome ∨ s.boundTo socket seat) :
    ((s.disconnect socket).graceTimers seat).isSome := by
  rw [boundTo_iff] at h
  unfold disconnect
  split
  next hdata =>
    refine h.resolve_right ?_
    simp [hdata]
  next binding hdata =>
    rw [isSome_scheduleGrace]
    refine h.imp id ?_
    rintro ⟨-, b, hb, rfl⟩
    rw [Option.some.inj (hdata.symm.trans hb)]

@[simp] theorem rooms_join : (s.join socket channel).rooms = s.rooms := by
  unfold join
  split_ifs <;> rfl

@[simp] theorem rooms_bind : (s.bind socket binding).rooms = s.rooms := by
  rw [bind, rooms_join]
  rfl

@[simp] theorem rooms_unbind : (s.unbind socket binding).rooms = s.rooms := rfl

@[simp] theorem rooms_disconnect : (s.disconnect socket).rooms = s.rooms := by
  unfold disconnect
  split
  · rfl
  · simp only [scheduleGrace]
    split_ifs <;> rfl

end State

/-! ### Tasks that overtake -/

namespace Task

/-- The `room:join` that the task is part of. -/
def join? : Task → Option Join
  | .joined join | .bind join => some join
  | .leaveRoom _ _ next | .departed _ _ next | .unbindPlayer _ _ _ next
  | .unbindingPlayer _ _ _ next => next.map (·.join)
  | .unbindSocket switch | .unbindingSocket switch _ | .switched switch => some switch.join
  | _ => none

/-- The task will free the seat, unless it finds a socket bound to it. -/
def releases (rt : Runtime) (seat : SeatKey) : Task → Bool
  | .leaveRoom roomCode playerId _ | .releaseSeatIfAbandoned roomCode playerId
  | .isBound roomCode playerId _ => seatKey rt roomCode playerId = seat
  | _ => false

/-- The task will bind a socket to the seat, or free it. -/
def holds (rt : Runtime) (seat : SeatKey) (t : Task) : Bool :=
  t.join?.any (·.binding.seat rt = seat) || t.releases rt seat

/-- The task will unbind the socket if it is bound to the seat by then. -/
def visits (rt : Runtime) (socket : ℕ) (seat : SeatKey) : Task → Bool
  | .departed roomCode playerId _ => seatKey rt roomCode playerId = seat
  | .unbindPlayer roomCode playerId first _ =>
    seatKey rt roomCode playerId = seat && first ≤ socket
  | .unbindingPlayer roomCode playerId visited _ =>
    seatKey rt roomCode playerId = seat && visited < socket
  | _ => false

/-- The next piece enters the player channel. -/
def enters (socket : ℕ) (playerId : JsString) : Task → Bool
  | .joinPlayerChannel n id => n = socket && id = playerId
  | _ => false

/-- The next piece leaves the player channel. -/
def exits (socket : ℕ) (playerId : JsString) : Task → Bool
  | .unbindingPlayer _ id n _ => n = socket && id = playerId
  | .unbindingSocket switch id => switch.join.socket = socket && id = playerId
  | _ => false

/-- The `room:join` that binds its socket in the next piece. -/
def binds? (s : State rt) : Task → Option Join
  | .joined join =>
    if (s.sockets join.socket).data.all (·.seat rt = join.binding.seat rt) then some join else none
  | .bind join => some join
  | .switched switch =>
    if rt.toUpperCase switch.previous.roomCode = rt.toUpperCase switch.join.roomCode then none
    else some switch.join
  | _ => none

end Task

/-- A `room:join` binds a socket that is bound elsewhere, or to a seat that is free and that no
departure will unbind it from. -/
def Join.overtaken (s : State rt) (others : List Task) (join : Join) : Bool :=
  s.connected join.socket &&
    ((s.sockets join.socket).data.any (· ≠ join.binding) ||
      !s.rooms.seated (join.binding.seat rt) &&
        !others.any (·.visits rt join.socket (join.binding.seat rt)))

/-- What a seat loses in a piece: a socket, its grace, or whoever was to release it. -/
structure Loss where
  seat : SeatKey
  socket : Option ℕ
  endsGrace : Bool

/-- The seat is taken, and nothing but what it loses holds it. -/
def State.strands (s : State rt) (others : List Task) (loss : Loss) : Bool :=
  s.rooms.seated loss.seat &&
    !((List.range s.connections).any fun n => loss.socket ≠ some n && s.boundTo n loss.seat) &&
    !others.any (·.holds rt loss.seat) &&
    (loss.endsGrace || (s.graceTimers loss.seat).isNone)

namespace Task

/-- The seat that loses something in the next piece: a departure ends its grace and unbinds its
sockets, `isBound` finds a socket, and a `room:join` goes on for a socket that is gone. -/
def loss? (s : State rt) : Task → Option Loss
  | .departed roomCode playerId _ =>
    let seat := seatKey rt roomCode playerId
    some ⟨seat, s.nextBound seat 0, true⟩
  | .unbindPlayer roomCode playerId first _ =>
    let seat := seatKey rt roomCode playerId
    (s.nextBound seat first).map fun socket => ⟨seat, some socket, false⟩
  | .unbindSocket switch =>
    (s.sockets switch.join.socket).data.map fun binding =>
      ⟨binding.seat rt, some switch.join.socket, false⟩
  | .isBound roomCode playerId fetched =>
    if fetched.any fun socket => (s.sockets socket).data.any (·.playerId = playerId) then
      some ⟨seatKey rt roomCode playerId, none, false⟩
    else none
  | t =>
    (t.binds? s).bind fun join =>
      if s.connected join.socket then none else some ⟨join.binding.seat rt, none, true⟩

/-- The next piece enters the channel of a player that the socket no longer acts as, or leaves the
channel of the player that it acts as again. -/
def strays (s : State rt) (others : List Task) : Task → Bool
  | .joinPlayerChannel socket playerId =>
    s.connected socket && !s.actsAs socket playerId && !others.any (·.exits socket playerId)
  | .unbindingPlayer _ playerId socket _ =>
    s.actsAs socket playerId && !others.any (·.enters socket playerId)
  | .unbindingSocket switch playerId =>
    s.actsAs switch.join.socket playerId && !others.any (·.enters switch.join.socket playerId)
  | _ => false

/-- Another handler was faster than the next piece. -/
def overtaken (s : State rt) (others : List Task) (t : Task) : Bool :=
  (t.binds? s).any (·.overtaken s others) || (t.loss? s).any (s.strands others) ||
    t.strays s others

end Task

theorem Task.overtaken_perm (s : State rt) (t : Task) {others rest : List Task}
    (h : others.Perm rest) : t.overtaken s others = t.overtaken s rest := by
  have hjoin : ∀ join : Join, join.overtaken s others = join.overtaken s rest := fun join => by
    simp only [Join.overtaken, h.any_eq]
  have hstrands : s.strands others = s.strands rest := by
    funext loss
    simp only [State.strands, h.any_eq]
  have hstrays : t.strays s others = t.strays s rest := by
    cases t <;> simp only [Task.strays, h.any_eq]
  simp only [Task.overtaken, hjoin, hstrands, hstrays]

/-- The turn resumes a task that was overtaken. -/
def overtakes (w : Sockets rt) : Turn Env Task → Bool
  | .spawn _ => false
  | .resume index _ =>
    (w.tasks[index]?).any fun t => t.overtaken w.shared (w.tasks.eraseIdx index)

/-! ### What a piece does -/

/-- The payload of a `room:join` was admitted to the room. -/
structure Join.Sound (rt : Runtime) (join : Join) : Prop where
  code_eq : rt.toUpperCase join.roomCode = rt.toUpperCase join.code
  valid : ∃ who, validatePlayer (.string join.playerId) join.displayName = .ok who

namespace Task

/-- The task has not touched a seat or a socket yet. -/
def isEvent : Task → Bool
  | .disconnect _ | .roomJoin .. | .roomLeave .. | .playerKick .. | .graceFired _
  | .kickPlayer .. => true
  | _ => false

end Task

/-- `unbindPlayer` starts or goes on, in a state where the grace of the seat is over. -/
inductive Visit (s : State rt) (roomCode playerId : JsString) (next : Option Switch) :
    Task → ℕ → State rt → Prop
  | departed : Visit s roomCode playerId next (.departed roomCode playerId next) 0
      (s.cancelGrace (seatKey rt roomCode playerId))
  | unbindPlayer (first : ℕ) : Visit s roomCode playerId next
      (.unbindPlayer roomCode playerId first next) first s

/-- Every way in which a piece may change the state and go on. -/
inductive Moved (s : State rt) : Task → State rt → List Task → List Taken → Prop
  | event {t : Task} (tasks : List Task) (ht : t.isEvent) (htasks : ∀ u ∈ tasks, u.join? = none) :
      Moved s t s tasks []
  | connection : Moved s .connection s.connection [] []
  | dropped {socket : ℕ} (h : s.connected socket) :
      Moved s (.disconnect socket) (s.disconnect socket) [] []
  | taken {roomCode playerId displayName : JsValue} (join : Join) (rooms : RoomStore rt)
      (hjoin : join.Sound rt)
      (hrooms : ∀ seat, rooms.seated seat ↔ s.rooms.seated seat ∨ seat = join.binding.seat rt) :
      Moved s (.roomJoin join.socket roomCode playerId displayName) { s with rooms }
        [.joined join] [⟨join.socket, join.binding.seat rt⟩]
  | left {roomCode playerId : JsString} {next : Option Switch} (rooms : RoomStore rt)
      (hrooms : ∀ seat, rooms.seated seat ↔
        s.rooms.seated seat ∧ seat ≠ seatKey rt roomCode playerId) :
      Moved s (.leaveRoom roomCode playerId next) { s with rooms }
        [.departed roomCode playerId next] []
  | absent {roomCode playerId : JsString} {next : Option Switch}
      (h : ¬s.rooms.seated (seatKey rt roomCode playerId)) :
      Moved s (.leaveRoom roomCode playerId next) s (next.toList.map .unbindSocket) []
  | kicked {roomCode requesterId : JsString} {wire : JsValue} (code kickedId : JsString)
      (rooms : RoomStore rt) (hrooms : ∀ seat, rooms.seated seat ↔
        s.rooms.seated seat ∧ seat ≠ seatKey rt code kickedId) :
      Moved s (.kickPlayer roomCode requesterId wire) { s with rooms }
        [.departed code kickedId none] []
  | fired {seat : SeatKey} (timer : GraceTimer rt seat) (fetched : List ℕ) :
      Moved s (.graceFired seat) (s.cancelGrace seat) [.isBound timer seat.2 fetched] []
  | checked {roomCode playerId : JsString} (fetched : List ℕ) :
      Moved s (.releaseSeatIfAbandoned roomCode playerId) s
        [.isBound roomCode playerId fetched] []
  | back {roomCode playerId : JsString} {fetched : List ℕ}
      (h : fetched.any fun socket => (s.sockets socket).data.any (·.playerId = playerId)) :
      Moved s (.isBound roomCode playerId fetched) s [] []
  | away {roomCode playerId : JsString} {fetched : List ℕ} :
      Moved s (.isBound roomCode playerId fetched) s [.leaveRoom roomCode playerId none] []
  | bound {t : Task} {join : Join} (h : t.binds? s = some join) :
      Moved s t (s.bind join.socket join.binding)
        [.joinPlayerChannel join.socket join.playerId] []
  | switching {join : Join} (previous : Binding) :
      Moved s (.joined join) s
        [.leaveRoom previous.roomCode previous.playerId (some ⟨join, previous⟩)] []
  | unbound {t : Task} {roomCode playerId : JsString} {next : Option Switch} {first socket : ℕ}
      {s₀ : State rt} (binding : Binding) (hvisit : Visit s roomCode playerId next t first s₀)
      (hnext : s.nextBound (seatKey rt roomCode playerId) first = some socket)
      (hdata : (s.sockets socket).data = some binding) :
      Moved s t (s₀.unbind socket binding) [.unbindingPlayer roomCode playerId socket next] []
  | visited {t : Task} {roomCode playerId : JsString} {next : Option Switch} {first : ℕ}
      {s₀ : State rt} (hvisit : Visit s roomCode playerId next t first s₀)
      (hnext : s.nextBound (seatKey rt roomCode playerId) first = none) :
      Moved s t s₀ (next.toList.map .unbindSocket) []
  | exited {roomCode playerId : JsString} {socket : ℕ} {next : Option Switch} :
      Moved s (.unbindingPlayer roomCode playerId socket next)
        (s.leave socket (.player playerId))
        [.unbindPlayer roomCode playerId (socket + 1) next] []
  | unboundOwn {switch : Switch} (binding : Binding)
      (hdata : (s.sockets switch.join.socket).data = some binding) :
      Moved s (.unbindSocket switch) (s.unbind switch.join.socket binding)
        [.unbindingSocket switch binding.playerId] []
  | freeOwn {switch : Switch} : Moved s (.unbindSocket switch) s [.switched switch] []
  | exitedOwn {switch : Switch} {playerId : JsString} :
      Moved s (.unbindingSocket switch playerId)
        (s.leave switch.join.socket (.player playerId)) [.switched switch] []
  | retaken {switch : Switch} (rooms : RoomStore rt) (roomCode : JsString)
      (hcode : rt.toUpperCase roomCode = rt.toUpperCase switch.join.code)
      (hrooms : ∀ seat, rooms.seated seat ↔
        s.rooms.seated seat ∨ seat = seatKey rt roomCode switch.join.playerId) :
      Moved s (.switched switch) { s with rooms } [.bind { switch.join with roomCode }]
        [⟨switch.join.socket, seatKey rt roomCode switch.join.playerId⟩]
  | refused {switch : Switch}
      (h : switch.join.Sound rt → ¬s.rooms.seated (switch.join.binding.seat rt)) :
      Moved s (.switched switch) s [] []
  | entered {socket : ℕ} {playerId : JsString} :
      Moved s (.joinPlayerChannel socket playerId) (s.join socket (.player playerId)) [] []

/-! ### Every piece does one of these things -/

/-- A piece does one of these things. -/
abbrev Moves (s : State rt) (t : Task) (r : Resumed (State rt) Task Taken) : Prop :=
  Moved s t r.shared r.tasks r.emitted

section Moved

variable {s : State rt} {env : Env}

/-- The first socket that `unbindPlayer` finds. -/
theorem nextBound_eq_some {seat : SeatKey} {first socket : ℕ}
    (h : s.nextBound seat first = some socket) :
    first ≤ socket ∧ s.boundTo socket seat ∧
      ∀ m, first ≤ m → m < socket → ¬s.boundTo m seat := by
  rw [State.nextBound, List.find?_range'_eq_some] at h
  obtain ⟨hbound, hmem, hbefore⟩ := h
  refine ⟨(List.mem_range'_1.mp hmem).1, hbound, fun m hfirst hlt => ?_⟩
  simpa using hbefore m hfirst hlt

theorem nextBound_eq_none {seat : SeatKey} {first : ℕ} (h : s.nextBound seat first = none) :
    ∀ m, first ≤ m → ¬s.boundTo m seat := by
  intro m hm hbound
  have hconnected := ((s.boundTo_iff m seat).mp hbound).1
  simp only [State.connected, Bool.and_eq_true, decide_eq_true_eq] at hconnected
  rw [State.nextBound, List.find?_eq_none] at h
  exact h m (List.mem_range'_1.mpr (by omega)) hbound

theorem moves_roomJoin (socket : ℕ) (roomCode playerId displayName : JsValue) :
    Moves s (.roomJoin socket roomCode playerId displayName)
      (Task.resumeRoomJoin s socket roomCode playerId displayName) := by
  unfold Task.resumeRoomJoin
  split
  next => exact .event _ rfl (by simp)
  next code hcode =>
    cases hreply : (s.rooms.call code (.join playerId displayName)).2 with
    | error e =>
      simp only [hreply, RoomStore.call_of_error hreply]
      exact .event _ rfl (by simp)
    | ok reply =>
      obtain ⟨who, room, hwho, rfl, hsame, hseats⟩ := RoomStore.seated_of_join hreply
      obtain rfl := RoomService.validatePlayer_eq_ok hwho
      simp only [hreply, JsValue.string?]
      refine .taken ⟨socket, code, who.id, displayName, room.code⟩ _ ⟨hsame, who, hwho⟩ ?_
      intro seat
      rw [hseats, Binding.seat, Join.binding, seatKey, seatKey, hsame]

theorem moves_joined (join : Join) : Moves s (.joined join) (Task.resumeJoined s join) := by
  unfold Task.resumeJoined
  split
  next hdata => exact .bound (by simp [Task.binds?, hdata])
  next previous hdata =>
    split_ifs with hsame
    · exact .bound (by simp [Task.binds?, hdata, hsame])
    · exact .switching previous

theorem moves_leaveRoom (roomCode playerId : JsString) (next : Option Switch) :
    Moves s (.leaveRoom roomCode playerId next)
      (Task.resumeLeaveRoom env s roomCode playerId next) := by
  unfold Task.resumeLeaveRoom
  cases hreply : (s.rooms.call roomCode (.leave playerId env.random env.now)).2 with
  | ok reply =>
    simp only [hreply]
    exact .left _ fun seat => RoomStore.seated_leave
  | error e =>
    obtain ⟨errorCode, message, rfl⟩ := domain_of_leave_error hreply
    have hstore := RoomStore.call_of_error hreply
    simp only [hreply, hstore]
    refine .absent fun hseated => ?_
    rw [← hstore, RoomStore.seated_leave] at hseated
    exact hseated.2 rfl

theorem moves_unbindPlayer {t : Task} {roomCode playerId : JsString} {first : ℕ}
    {next : Option Switch} {s₀ : State rt} (hvisit : Visit s roomCode playerId next t first s₀) :
    Moves s t (Task.resumeUnbindPlayer s₀ roomCode playerId first next) := by
  have hnext : s₀.nextBound (seatKey rt roomCode playerId) first =
      s.nextBound (seatKey rt roomCode playerId) first := by
    cases hvisit <;> rfl
  have hsockets : s₀.sockets = s.sockets := by
    cases hvisit <;> rfl
  unfold Task.resumeUnbindPlayer
  split
  next hnone => exact .visited hvisit (hnext ▸ hnone)
  next socket hsome =>
    rw [hnext] at hsome
    obtain ⟨-, b, hdata, -⟩ := (s.boundTo_iff _ _).mp (nextBound_eq_some hsome).2.1
    rw [hsockets, show (s.sockets socket).data = some b from hdata]
    exact .unbound b hvisit hsome hdata

theorem moves_unbindSocket (switch : Switch) :
    Moves s (.unbindSocket switch) (Task.resumeUnbindSocket s switch) := by
  unfold Task.resumeUnbindSocket
  split
  next => exact .freeOwn
  next binding hdata => exact .unboundOwn binding hdata

theorem moves_switched (switch : Switch) :
    Moves s (.switched switch) (Task.resumeSwitched s switch) := by
  simp only [Task.resumeSwitched]
  split_ifs with hsame
  · cases hreply : (s.rooms.call switch.join.code
        (.join (.string switch.join.playerId) switch.join.displayName)).2 with
    | error e =>
      simp only [RoomStore.call_of_error hreply]
      refine .refused fun hsound hseated => ?_
      obtain ⟨hcode, who, hwho⟩ := hsound
      have hid := JsValue.string.inj (RoomService.validatePlayer_eq_ok hwho)
      rw [Binding.seat, Join.binding, seatKey, hcode, hid] at hseated
      obtain ⟨room, hroom⟩ := RoomStore.rejoined hwho hseated
      rw [hroom] at hreply
      simp at hreply
    | ok reply =>
      obtain ⟨who, room, hwho, rfl, hcode, hseats⟩ := RoomStore.seated_of_join hreply
      have hid := JsValue.string.inj (RoomService.validatePlayer_eq_ok hwho)
      simp only
      refine .retaken _ room.code hcode fun seat => ?_
      rw [hseats, seatKey, seatKey, hcode, hid]
  · exact .bound (by simp [Task.binds?, hsame])

theorem moves_kickPlayer (roomCode requesterId : JsString) (playerId : JsValue) :
    Moves s (.kickPlayer roomCode requesterId playerId)
      (Task.resumeKickPlayer env s roomCode requesterId playerId) := by
  unfold Task.resumeKickPlayer
  cases hreply : (s.rooms.call roomCode (.kick requesterId playerId env.random env.now)).2 with
  | error e =>
    simp only [hreply, RoomStore.call_of_error hreply]
    exact .event _ rfl (by simp)
  | ok reply =>
    obtain ⟨id, room, rfl, rfl, hcode, hseats⟩ := RoomStore.seated_of_kick hreply
    simp only [hreply, JsValue.string?]
    refine .kicked room.code id _ fun seat => ?_
    rw [hseats, seatKey, seatKey, hcode]

/-- Every piece does one of these things. -/
theorem moved (env : Env) (s : State rt) (t : Task) : Moves s t (t.resume env s) := by
  cases t with
  | connection => exact .connection
  | disconnect socket =>
    simp only [Task.resume]
    split_ifs with h
    · exact .dropped h
    · exact .event _ rfl (by simp)
  | roomJoin socket roomCode playerId displayName =>
    simp only [Task.resume]
    split_ifs
    · exact moves_roomJoin socket roomCode playerId displayName
    · exact .event _ rfl (by simp)
  | roomLeave | playerKick =>
    refine .event _ rfl ?_
    simp only [Task.resume]
    split_ifs <;> simp [Task.join?]
  | graceFired seat =>
    simp only [Task.resume]
    split
    next => exact .event _ rfl (by simp)
    next timer htimer => exact .fired timer _
  | releaseSeatIfAbandoned roomCode playerId => exact .checked _
  | leaveRoom roomCode playerId next => exact moves_leaveRoom roomCode playerId next
  | joined join => exact moves_joined join
  | departed roomCode playerId next => exact moves_unbindPlayer .departed
  | unbindPlayer roomCode playerId first next => exact moves_unbindPlayer (.unbindPlayer first)
  | unbindingPlayer => exact .exited
  | unbindSocket switch => exact moves_unbindSocket switch
  | unbindingSocket => exact .exitedOwn
  | switched switch => exact moves_switched switch
  | bind join => exact .bound rfl
  | joinPlayerChannel => exact .entered
  | kickPlayer roomCode requesterId playerId =>
    exact moves_kickPlayer roomCode requesterId playerId
  | isBound roomCode playerId fetched =>
    simp only [Task.resume]
    split_ifs with h
    · exact .back h
    · exact .away

end Moved

/-! ### Channels -/

/-- A socket is in the channels of its binding, apart from a player channel that a task is about to
enter or to leave. -/
structure Channelled (s : State rt) (tasks : List Task) (socket : ℕ) : Prop where
  rooms : ∀ code, .room code ∈ (s.sockets socket).channels ↔
    ∃ b ∈ (s.sockets socket).data, b.roomCode = code
  inside : ∀ b ∈ (s.sockets socket).data, .player b.playerId ∈ (s.sockets socket).channels ∨
    ∃ t ∈ tasks, t.enters socket b.playerId
  outside : ∀ p, .player p ∈ (s.sockets socket).channels →
    (∃ b ∈ (s.sockets socket).data, b.playerId = p) ∨ ∃ t ∈ tasks, t.exits socket p

namespace Channelled

variable {s s' : State rt} {t : Task} {rest new : List Task} {socket : ℕ} {binding : Binding}

/-- What one of the other tasks or a new one is about to do, a task is about to do. -/
theorem exists_of_rest {q : Task → Bool} (h : ∃ u ∈ t :: rest, q u) (ht : q t = false) :
    ∃ u ∈ rest ++ new, q u := by
  obtain ⟨u, hu, hq⟩ := h
  rcases List.mem_cons.mp hu with rfl | hu
  · rw [ht] at hq
    exact absurd hq Bool.false_ne_true
  · exact ⟨u, List.mem_append_left _ hu, hq⟩

/-- A piece that touches neither the socket nor a player channel of it. -/
theorem frame (h : Channelled s (t :: rest) socket) (hsocket : s'.sockets socket = s.sockets socket)
    (henters : ∀ p, t.enters socket p = false) (hexits : ∀ p, t.exits socket p = false) :
    Channelled s' (rest ++ new) socket := by
  obtain ⟨rooms, inside, outside⟩ := h
  refine ⟨by rwa [hsocket], fun b hb => ?_, fun p hp => ?_⟩
  · rw [hsocket] at hb ⊢
    exact (inside b hb).imp id fun h => exists_of_rest h (henters _)
  · rw [hsocket] at hp ⊢
    exact (outside p hp).imp id fun h => exists_of_rest h (hexits p)

/-- A socket that is free, or bound to the same seat, is bound. -/
theorem bind (h : Channelled s (t :: rest) socket) (hconnected : s.connected socket)
    (hdata : ∀ b ∈ (s.sockets socket).data, b = binding)
    (hexits : ∀ p, t.exits socket p = false) (hnew : ∃ u ∈ new, u.enters socket binding.playerId) :
    Channelled (s.bind socket binding) (rest ++ new) socket := by
  obtain ⟨rooms, inside, outside⟩ := h
  have hsocket := s.sockets_bind socket binding socket hconnected
  rw [if_pos rfl] at hsocket
  refine ⟨fun code => ?_, fun b hb => ?_, fun p hp => ?_⟩
  · simp only [hsocket, Finset.mem_insert, Channel.room.injEq, rooms, Option.mem_def,
      Option.some.injEq]
    constructor
    · rintro (rfl | ⟨b, hb, rfl⟩)
      · exact ⟨binding, rfl, rfl⟩
      · exact ⟨binding, rfl, by rw [hdata b hb]⟩
    · rintro ⟨b, rfl, rfl⟩
      exact Or.inl rfl
  · rw [hsocket] at hb
    obtain rfl := Option.some.inj hb
    obtain ⟨u, hu, henters⟩ := hnew
    exact Or.inr ⟨u, List.mem_append_right _ hu, henters⟩
  · simp only [hsocket, Finset.mem_insert, reduceCtorEq, false_or] at hp
    simp only [hsocket]
    refine (outside p hp).imp ?_ fun h => exists_of_rest h (hexits p)
    rintro ⟨b, hb, rfl⟩
    exact ⟨binding, rfl, by rw [hdata b hb]⟩

/-- A socket loses its binding and leaves the room channel; its player channel is left next. -/
theorem unbind (h : Channelled s (t :: rest) socket)
    (hdata : (s.sockets socket).data = some binding)
    (hexits : ∀ p, t.exits socket p = false) (hnew : ∃ u ∈ new, u.exits socket binding.playerId)
    (hsockets : s'.sockets = s.sockets) :
    Channelled (s'.unbind socket binding) (rest ++ new) socket := by
  obtain ⟨rooms, inside, outside⟩ := h
  have hsocket := s'.sockets_unbind socket binding socket
  rw [if_pos rfl, hsockets] at hsocket
  refine ⟨fun code => ?_, fun b hb => ?_, fun p hp => ?_⟩
  · simp only [hsocket, Finset.mem_erase, rooms, hdata, Option.mem_def, Option.some.injEq,
      reduceCtorEq, false_and, exists_false, iff_false, ne_eq, Channel.room.injEq]
    rintro ⟨hne, b, rfl, rfl⟩
    exact hne rfl
  · simp [hsocket] at hb
  · simp only [hsocket, Finset.mem_erase] at hp
    obtain ⟨u, hu, hq⟩ := hnew
    rcases outside p hp.2 with ⟨b, hb, rfl⟩ | hrest
    · obtain rfl := Option.some.inj (hdata.symm.trans hb)
      exact Or.inr ⟨u, List.mem_append_right _ hu, hq⟩
    · exact Or.inr (exists_of_rest hrest (hexits p))

/-- The channel of a player that the socket does not act as is left. -/
theorem leave {playerId : JsString} (h : Channelled s (t :: rest) socket)
    (henters : ∀ p, t.enters socket p = false)
    (hexits : ∀ p, p ≠ playerId → t.exits socket p = false)
    (hdata : (∃ b ∈ (s.sockets socket).data, b.playerId = playerId) →
      ∃ u ∈ rest, u.enters socket playerId) :
    Channelled (s.leave socket (.player playerId)) (rest ++ new) socket := by
  obtain ⟨rooms, inside, outside⟩ := h
  have hsocket := s.sockets_leave socket (.player playerId) socket
  rw [if_pos rfl] at hsocket
  refine ⟨fun code => ?_, fun b hb => ?_, fun p hp => ?_⟩
  · simp [hsocket, rooms]
  · rw [hsocket] at hb ⊢
    by_cases hid : b.playerId = playerId
    · obtain ⟨u, hu, hq⟩ := hdata ⟨b, hb, hid⟩
      exact Or.inr ⟨u, List.mem_append_left _ hu, hid ▸ hq⟩
    · refine (inside b hb).imp (fun hin => ?_) fun h => exists_of_rest h (henters _)
      simpa [hid] using hin
  · simp only [hsocket, Finset.mem_erase, ne_eq, Channel.player.injEq] at hp
    simp only [hsocket]
    exact (outside p hp.2).imp_right fun h => exists_of_rest h (hexits p hp.1)

/-- The channel of the player that the socket acts as is entered. -/
theorem join {playerId : JsString} (h : Channelled s (t :: rest) socket)
    (hconnected : s.connected socket)
    (henters : ∀ p, p ≠ playerId → t.enters socket p = false)
    (hexits : ∀ p, t.exits socket p = false)
    (hdata : (∃ b ∈ (s.sockets socket).data, b.playerId = playerId) ∨
      ∃ u ∈ rest, u.exits socket playerId) :
    Channelled (s.join socket (.player playerId)) (rest ++ new) socket := by
  obtain ⟨rooms, inside, outside⟩ := h
  have hsocket := s.sockets_join socket (.player playerId) socket
  rw [if_pos ⟨rfl, hconnected⟩] at hsocket
  refine ⟨fun code => ?_, fun b hb => ?_, fun p hp => ?_⟩
  · simp [hsocket, rooms]
  · rw [hsocket] at hb ⊢
    by_cases hid : b.playerId = playerId
    · exact Or.inl (by simp [hid])
    · refine (inside b hb).imp (fun hin => ?_) fun h => exists_of_rest h (henters _ hid)
      exact Finset.mem_insert_of_mem hin
  · simp only [hsocket, Finset.mem_insert, Channel.player.injEq] at hp
    simp only [hsocket]
    rcases hp with rfl | hp
    · exact hdata.imp_right fun ⟨u, hu, hq⟩ => ⟨u, List.mem_append_left _ hu, hq⟩
    · exact (outside p hp).imp_right fun h => exists_of_rest h (hexits p)

end Channelled

/-! ### Pieces that are not overtaken -/

section Overtaken

variable {s s' : State rt} {t : Task} {rest new : List Task} {emitted : List Taken}

/-- A piece that is not overtaken by the other tasks. -/
structure Timely (s : State rt) (rest : List Task) (t : Task) : Prop where
  binds : ∀ join ∈ t.binds? s, join.overtaken s rest = false
  loses : ∀ loss ∈ t.loss? s, s.strands rest loss = false
  stays : t.strays s rest = false

theorem timely_of_not_overtaken (h : t.overtaken s rest = false) : Timely s rest t := by
  simp only [Task.overtaken, Bool.or_eq_false_iff] at h
  obtain ⟨⟨hbinds, hloss⟩, hstrays⟩ := h
  refine ⟨fun join hjoin => ?_, fun loss hmem => ?_, hstrays⟩
  · rw [Option.mem_def] at hjoin
    rwa [hjoin, Option.any_some] at hbinds
  · rw [Option.mem_def] at hmem
    rwa [hmem, Option.any_some] at hloss

/-- A connected socket is free or bound already to the seat it is bound to. -/
theorem Join.eq_of_not_overtaken {join : Join} (h : join.overtaken s rest = false)
    (hconnected : s.connected join.socket) :
    ∀ b ∈ (s.sockets join.socket).data, b = join.binding := by
  simp only [Join.overtaken, hconnected, Bool.true_and, Bool.or_eq_false_iff] at h
  intro b hb
  rw [Option.mem_def] at hb
  by_contra hne
  simp [hb, hne] at h

/-- The seat that a connected socket is bound to is taken, or a departure is on its way. -/
theorem Join.seated_of_not_overtaken {join : Join} (h : join.overtaken s rest = false)
    (hconnected : s.connected join.socket) :
    s.rooms.seated (join.binding.seat rt) ∨
      ∃ u ∈ rest, u.visits rt join.socket (join.binding.seat rt) := by
  simp only [Join.overtaken, hconnected, Bool.true_and, Bool.or_eq_false_iff] at h
  by_contra! hneither
  obtain ⟨hseated, hvisits⟩ := hneither
  have hany : rest.any (·.visits rt join.socket (join.binding.seat rt)) = false :=
    List.any_eq_false.mpr fun u hu => hvisits u hu
  simp [hseated, hany] at h

/-- A taken seat is held by more than what it loses. -/
theorem State.held_of_not_strands {loss : Loss} (h : s.strands rest loss = false)
    (hseated : s.rooms.seated loss.seat) :
    (∃ m, loss.socket ≠ some m ∧ s.boundTo m loss.seat) ∨
      (loss.endsGrace = false ∧ (s.graceTimers loss.seat).isSome) ∨
      ∃ u ∈ rest, u.holds rt loss.seat := by
  by_contra! hnone
  obtain ⟨hbound, hgrace, hholds⟩ := hnone
  have hnobound : ((List.range s.connections).any fun n =>
      loss.socket ≠ some n && s.boundTo n loss.seat) = false := by
    rw [List.any_eq_false]
    intro m hm
    by_cases hother : loss.socket = some m
    · simp [hother]
    · simpa [hother] using hbound m hother
  have hnotask : rest.any (·.holds rt loss.seat) = false :=
    List.any_eq_false.mpr fun u hu => hholds u hu
  have hend : (loss.endsGrace || (s.graceTimers loss.seat).isNone) = true := by
    cases hends : loss.endsGrace with
    | true => rfl
    | false => simpa using hgrace hends
  rw [State.strands, hseated, hnobound, hnotask, hend] at h
  exact absurd h (by decide)

theorem actsAs_iff {socket : ℕ} {playerId : JsString} : s.actsAs socket playerId ↔
    s.connected socket ∧ ∃ b ∈ (s.sockets socket).data, b.playerId = playerId := by
  simp [State.actsAs, Option.any_eq_true]

end Overtaken

/-- The player channels that a task is about to enter or leave are none while it binds. -/
theorem passes_of_binds {s : State rt} {t : Task} {join : Join} (h : t.binds? s = some join)
    (socket : ℕ) (playerId : JsString) :
    t.enters socket playerId = false ∧ t.exits socket playerId = false := by
  cases t with
  | joined | bind | switched => exact ⟨rfl, rfl⟩
  | _ => simp [Task.binds?] at h

theorem Task.join?_of_isFirst {t : Task} (h : t.isFirst) : t.join? = none := by
  cases t with
  | leaveRoom roomCode playerId next =>
    cases next with
    | none => rfl
    | some => simp [Task.isFirst] at h
  | connection | disconnect | roomJoin | roomLeave | playerKick | graceFired
  | releaseSeatIfAbandoned => rfl
  | _ => simp [Task.isFirst] at h

/-- A task that has not touched anything yet holds nothing. -/
theorem Task.idle_of_isEvent (rt : Runtime) {t : Task} (h : t.isEvent) :
    (∀ seat, t.holds rt seat = false) ∧ (∀ m seat, t.visits rt m seat = false) ∧
      ∀ m p, t.enters m p = false ∧ t.exits m p = false := by
  cases t with
  | disconnect | roomJoin | roomLeave | playerKick | graceFired | kickPlayer =>
    exact ⟨fun _ => rfl, fun _ _ => rfl, fun _ _ => ⟨rfl, rfl⟩⟩
  | _ => simp [Task.isEvent] at h

theorem visits_of_binds {s : State rt} {t : Task} {join : Join} (h : t.binds? s = some join)
    (socket : ℕ) (seat : SeatKey) : t.visits rt socket seat = false := by
  cases t with
  | joined | bind | switched => rfl
  | _ => simp [Task.binds?] at h

theorem holds_of_binds {s : State rt} {t : Task} {join : Join} (h : t.binds? s = some join)
    (seat : SeatKey) : t.holds rt seat = decide (join.binding.seat rt = seat) := by
  cases t with
  | joined | switched =>
    simp only [Task.binds?] at h
    split_ifs at h
    obtain rfl := Option.some.inj h
    simp [Task.holds, Task.join?, Task.releases]
  | bind =>
    obtain rfl := Option.some.inj h
    simp [Task.holds, Task.join?, Task.releases]
  | _ => simp [Task.binds?] at h

theorem loss_of_binds {s : State rt} {t : Task} {join : Join} (h : t.binds? s = some join)
    (hgone : s.connected join.socket = false) :
    (⟨join.binding.seat rt, none, true⟩ : Loss) ∈ t.loss? s := by
  cases t with
  | joined | bind | switched => simp [Task.loss?, h, hgone]
  | _ => simp [Task.binds?] at h

/-- Before a piece of `unbindPlayer`, the sockets it will visit are those from `first` on. -/
theorem Visit.visits_iff {s s₀ : State rt} {t : Task} {roomCode playerId : JsString}
    {next : Option Switch} {first socket : ℕ} {seat : SeatKey}
    (h : Visit s roomCode playerId next t first s₀) :
    t.visits rt socket seat ↔ seatKey rt roomCode playerId = seat ∧ first ≤ socket := by
  cases h <;> simp [Task.visits]

/-- Before a piece of `unbindPlayer`, only the grace of its own seat may be over. -/
theorem Visit.frame {s s₀ : State rt} {t : Task} {roomCode playerId : JsString}
    {next : Option Switch} {first : ℕ} (h : Visit s roomCode playerId next t first s₀) :
    s₀.rooms = s.rooms ∧ (∀ m seat, s₀.boundTo m seat = s.boundTo m seat) ∧
      ∀ seat, seat ≠ seatKey rt roomCode playerId →
        s₀.graceTimers seat = s.graceTimers seat := by
  cases h with
  | departed => exact ⟨rfl, fun _ _ => rfl, fun _ hne => s.graceTimers_cancelGrace _ hne⟩
  | unbindPlayer => exact ⟨rfl, fun _ _ => rfl, fun _ _ => rfl⟩

theorem Visit.holds_eq {s s₀ : State rt} {t : Task} {roomCode playerId : JsString}
    {next : Option Switch} {first : ℕ} (h : Visit s roomCode playerId next t first s₀)
    (seat : SeatKey) : t.holds rt seat = next.any (·.join.binding.seat rt = seat) := by
  cases h <;> cases next <;> simp [Task.holds, Task.join?, Task.releases]

/-! ### What a turn keeps -/

/-- A seat has a socket, a timer, or a handler that will bind or free it. -/
def Held (s : State rt) (tasks : List Task) (seat : SeatKey) : Prop :=
  (∃ m, s.boundTo m seat) ∨ (s.graceTimers seat).isSome ∨ ∃ t ∈ tasks, t.holds rt seat

/-- A piece takes no socket and no timer from the seat, and goes on to hold it. -/
theorem Held.frame {s s' : State rt} {t : Task} {rest new : List Task} {seat : SeatKey}
    (h : Held s (t :: rest) seat) (hbound : ∀ m, s.boundTo m seat → s'.boundTo m seat)
    (hgrace : (s.graceTimers seat).isSome → (s'.graceTimers seat).isSome)
    (ht : t.holds rt seat → ∃ u ∈ new, u.holds rt seat) : Held s' (rest ++ new) seat := by
  rcases h with ⟨m, hm⟩ | h | ⟨u, hu, hholds⟩
  · exact Or.inl ⟨m, hbound m hm⟩
  · exact Or.inr (Or.inl (hgrace h))
  · refine Or.inr (Or.inr ?_)
    rcases List.mem_cons.mp hu with rfl | hu
    · obtain ⟨u, hu, hholds⟩ := ht hholds
      exact ⟨u, List.mem_append_right _ hu, hholds⟩
    · exact ⟨u, List.mem_append_left _ hu, hholds⟩

/-- A piece that does not strand the seat leaves it with what else holds it. -/
theorem Held.of_loss {s s' : State rt} {rest new : List Task} {loss : Loss}
    (hloss : s.strands rest loss = false) (hseated : s.rooms.seated loss.seat)
    (hbound : ∀ m, loss.socket ≠ some m → s.boundTo m loss.seat → s'.boundTo m loss.seat)
    (hgrace : loss.endsGrace = false → (s.graceTimers loss.seat).isSome →
      (s'.graceTimers loss.seat).isSome) : Held s' (rest ++ new) loss.seat := by
  rcases State.held_of_not_strands hloss hseated with ⟨m, hother, hm⟩ | ⟨hends, h⟩ | ⟨u, hu, hholds⟩
  · exact Or.inl ⟨m, hbound m hother hm⟩
  · exact Or.inr (Or.inl (hgrace hends h))
  · exact Or.inr (Or.inr ⟨u, List.mem_append_left _ hu, hholds⟩)

/-- A seat that is taken again when `unbindPlayer` unbinds a socket is held by more than that. -/
theorem Visit.held {s s₀ s' : State rt} {t : Task} {rest new : List Task}
    {roomCode playerId : JsString} {next : Option Switch} {first socket : ℕ}
    (h : Visit s roomCode playerId next t first s₀) (htimely : Timely s rest t)
    (hnext : s.nextBound (seatKey rt roomCode playerId) first = some socket)
    (hseated : s.rooms.seated (seatKey rt roomCode playerId))
    (hbound : ∀ m, m ≠ socket → s.boundTo m (seatKey rt roomCode playerId) →
      s'.boundTo m (seatKey rt roomCode playerId))
    (hgrace : s'.graceTimers = s₀.graceTimers) :
    Held s' (rest ++ new) (seatKey rt roomCode playerId) := by
  cases h with
  | departed =>
    have hloss := htimely.loses ⟨seatKey rt roomCode playerId, some socket, true⟩
      (by simp [Task.loss?, hnext])
    exact .of_loss hloss hseated (fun m hne => hbound m fun h => hne (by rw [h]))
      fun h => absurd h.symm Bool.false_ne_true
  | unbindPlayer =>
    have hloss := htimely.loses ⟨seatKey rt roomCode playerId, some socket, false⟩
      (by simp [Task.loss?, hnext])
    exact .of_loss hloss hseated (fun m hne => hbound m fun h => hne (by rw [h]))
      fun _ h => by rwa [hgrace]

/-- What holds while handlers are in flight. -/
structure Coherent (s : State rt) (tasks : List Task) (log : List Taken) : Prop where
  sound : ∀ t ∈ tasks, ∀ join ∈ t.join?, join.Sound rt
  channelled : ∀ m, s.connected m → Channelled s tasks m
  seated : ∀ m seat, s.boundTo m seat → s.rooms.seated seat ∨ ∃ t ∈ tasks, t.visits rt m seat
  held : ∀ taken ∈ log, s.rooms.seated taken.seat → Held s tasks taken.seat

namespace Moved

variable {s s' : State rt} {t : Task} {rest new : List Task} {log emitted : List Taken}

/-- Tasks of a `room:join` go on with its payload. -/
theorem sound (h : Moved s t s' new emitted)
    (hsound : ∀ u ∈ t :: rest, ∀ join ∈ u.join?, join.Sound rt) :
    ∀ u ∈ rest ++ new, ∀ join ∈ u.join?, join.Sound rt := by
  rw [List.forall_mem_cons] at hsound
  rw [List.forall_mem_append]
  refine ⟨hsound.2, ?_⟩
  have ht := hsound.1
  cases h with
  | event tasks _ htasks =>
    intro u hu join hjoin
    simp [htasks u hu] at hjoin
  | taken join rooms hjoin => simpa [Task.join?] using hjoin
  | retaken rooms roomCode hcode =>
    obtain ⟨-, hvalid⟩ := ht _ rfl
    simp only [List.mem_singleton, forall_eq, Task.join?, Option.mem_def, Option.some.injEq,
      forall_eq']
    exact ⟨hcode, hvalid⟩
  | connection | dropped | kicked | fired | checked | back | away | bound | refused | entered =>
    simp [Task.join?]
  | left | absent | switching | exited | unboundOwn | freeOwn | exitedOwn =>
    simpa [Task.join?] using ht
  | unbound binding hvisit => cases hvisit <;> simpa [Task.join?] using ht
  | visited hvisit => cases hvisit <;> simpa [Task.join?] using ht

/-- A socket stays in the channels of its binding. -/
theorem channelled (h : Moved s t s' new emitted) (htimely : Timely s rest t)
    (hchannelled : ∀ m, s.connected m → Channelled s (t :: rest) m) :
    ∀ m, s'.connected m → Channelled s' (rest ++ new) m := by
  intro m hm
  cases h with
  | event tasks ht _ =>
    obtain ⟨-, -, hpasses⟩ := Task.idle_of_isEvent rt ht
    exact (hchannelled m hm).frame rfl (fun p => (hpasses m p).1) fun p => (hpasses m p).2
  | taken | left | absent | kicked | fired | checked | back | away | switching | freeOwn
  | retaken | refused =>
    exact (hchannelled m hm).frame rfl (fun _ => rfl) fun _ => rfl
  | connection =>
    by_cases hnew : m = s.connections
    · subst hnew
      have hfresh : s.connection.sockets s.connections = {} := by simp [State.connection]
      exact ⟨by simp [hfresh], by simp [hfresh], by simp [hfresh]⟩
    · refine (hchannelled m ?_).frame ?_ (fun _ => rfl) fun _ => rfl
      · simp only [State.connected, State.connection, Function.update_of_ne hnew,
          Bool.and_eq_true, decide_eq_true_eq] at hm ⊢
        have hlt := Nat.lt_succ_iff.mp (of_decide_eq_true hm.1)
        exact ⟨lt_of_le_of_ne hlt hnew, hm.2⟩
      · simp [State.connection, hnew]
  | @dropped socket hconnected =>
    rw [State.connected_disconnect, Bool.and_eq_true, decide_eq_true_eq] at hm
    refine (hchannelled m hm.2).frame ?_ (fun _ => rfl) fun _ => rfl
    exact s.sockets_disconnect_of_ne _ _ hm.1
  | @bound t join hbinds =>
    rw [State.connected_bind] at hm
    have hpasses := passes_of_binds hbinds
    by_cases hsame : m = join.socket
    · subst hsame
      refine (hchannelled _ hm).bind hm ?_ (fun p => (hpasses _ p).2)
        ⟨_, List.mem_singleton_self _, by simp [Task.enters, Join.binding]⟩
      exact Join.eq_of_not_overtaken (htimely.binds join hbinds) hm
    · refine (hchannelled m hm).frame ?_ (fun p => (hpasses m p).1) fun p => (hpasses m p).2
      rw [s.sockets_bind _ _ _ hm, if_neg hsame]
  | @unbound t roomCode playerId next first socket s₀ binding hvisit hnext hdata =>
    have hs₀ : s₀.connected = s.connected ∧ s₀.sockets = s.sockets := by
      cases hvisit <;> exact ⟨rfl, rfl⟩
    have hpasses : ∀ n p, t.enters n p = false ∧ t.exits n p = false := by
      cases hvisit <;> exact fun n p => ⟨rfl, rfl⟩
    rw [State.connected_unbind, hs₀.1] at hm
    have hplayer : binding.playerId = playerId := by
      obtain ⟨-, b, hb, hseat⟩ := (s.boundTo_iff _ _).mp (nextBound_eq_some hnext).2.1
      obtain rfl := Option.some.inj (hdata.symm.trans hb)
      exact congrArg Prod.snd hseat
    by_cases hsame : m = socket
    · subst hsame
      exact (hchannelled m hm).unbind hdata (fun p => (hpasses m p).2)
        ⟨_, List.mem_singleton_self _, by simp [Task.exits, hplayer]⟩ hs₀.2
    · refine (hchannelled m hm).frame ?_ (fun p => (hpasses m p).1) fun p => (hpasses m p).2
      rw [State.sockets_unbind, if_neg hsame, hs₀.2]
  | visited hvisit =>
    cases hvisit <;> exact (hchannelled m hm).frame rfl (fun _ => rfl) fun _ => rfl
  | @exited roomCode playerId socket next =>
    rw [State.connected_leave] at hm
    by_cases hsame : m = socket
    · subst hsame
      refine (hchannelled m hm).leave (fun _ => rfl) (fun p hp => ?_) fun hdata => ?_
      · simp [Task.exits, Ne.symm hp]
      · have hstays := htimely.stays
        simp only [Task.strays, actsAs_iff.mpr ⟨hm, hdata⟩, Bool.true_and] at hstays
        simpa using hstays
    · refine (hchannelled m hm).frame ?_ (fun _ => rfl) fun p => ?_
      · rw [State.sockets_leave, if_neg hsame]
      · simp [Task.exits, Ne.symm hsame]
  | @unboundOwn switch binding hdata =>
    rw [State.connected_unbind] at hm
    by_cases hsame : m = switch.join.socket
    · subst hsame
      exact (hchannelled _ hm).unbind hdata (fun _ => rfl)
        ⟨_, List.mem_singleton_self _, by simp [Task.exits]⟩ rfl
    · refine (hchannelled m hm).frame ?_ (fun _ => rfl) fun _ => rfl
      rw [State.sockets_unbind, if_neg hsame]
  | @exitedOwn switch playerId =>
    rw [State.connected_leave] at hm
    by_cases hsame : m = switch.join.socket
    · subst hsame
      refine (hchannelled _ hm).leave (fun _ => rfl) (fun p hp => ?_) fun hdata => ?_
      · simp [Task.exits, Ne.symm hp]
      · have hstays := htimely.stays
        simp only [Task.strays, actsAs_iff.mpr ⟨hm, hdata⟩, Bool.true_and] at hstays
        simpa using hstays
    · refine (hchannelled m hm).frame ?_ (fun _ => rfl) fun p => ?_
      · rw [State.sockets_leave, if_neg hsame]
      · simp [Task.exits, Ne.symm hsame]
  | @entered socket playerId =>
    rw [State.connected_join] at hm
    by_cases hsame : m = socket
    · subst hsame
      refine (hchannelled m hm).join hm (fun p hp => ?_) (fun _ => rfl) ?_
      · simp [Task.enters, Ne.symm hp]
      · have hstays := htimely.stays
        by_contra! hneither
        obtain ⟨hdata, hexits⟩ := hneither
        have hacts : s.actsAs m playerId = false := by
          rw [← Bool.not_eq_true, actsAs_iff]
          rintro ⟨-, b, hb, hp⟩
          exact hdata b hb hp
        have hany : rest.any (·.exits m playerId) = false :=
          List.any_eq_false.mpr fun u hu => hexits u hu
        simp [Task.strays, hm, hacts, hany] at hstays
    · refine (hchannelled m hm).frame ?_ (fun p => ?_) fun _ => rfl
      · rw [State.sockets_join, if_neg fun h => hsame h.1]
      · simp [Task.enters, Ne.symm hsame]

/-- The seat of a socket stays taken until a departure reaches the socket. -/
theorem seated (h : Moved s t s' new emitted) (htimely : Timely s rest t)
    (hseated : ∀ m seat, s.boundTo m seat →
      s.rooms.seated seat ∨ ∃ u ∈ t :: rest, u.visits rt m seat) :
    ∀ m seat, s'.boundTo m seat →
      s'.rooms.seated seat ∨ ∃ u ∈ rest ++ new, u.visits rt m seat := by
  intro m seat hbound
  have hkept (hbound : s.boundTo m seat) (hvisits : t.visits rt m seat = false) :
      s.rooms.seated seat ∨ ∃ u ∈ rest ++ new, u.visits rt m seat :=
    (hseated m seat hbound).imp id fun h => Channelled.exists_of_rest h hvisits
  cases h with
  | event tasks ht _ =>
    exact hkept hbound ((Task.idle_of_isEvent rt ht).2.1 m seat)
  | fired | checked | back | away | switching | freeOwn | refused | absent =>
    exact hkept hbound rfl
  | taken join rooms hjoin hrooms | retaken rooms roomCode hcode hrooms =>
    exact (hkept hbound rfl).imp_left fun h => (hrooms seat).mpr (Or.inl h)
  | @left roomCode playerId next rooms hrooms =>
    by_cases hkey : seat = seatKey rt roomCode playerId
    · exact Or.inr ⟨_, List.mem_append_right _ (List.mem_singleton_self _),
        decide_eq_true hkey.symm⟩
    · exact (hkept hbound rfl).imp_left fun h => (hrooms seat).mpr ⟨h, hkey⟩
  | kicked code kickedId rooms hrooms =>
    by_cases hkey : seat = seatKey rt code kickedId
    · exact Or.inr ⟨_, List.mem_append_right _ (List.mem_singleton_self _),
        decide_eq_true hkey.symm⟩
    · exact (hkept hbound rfl).imp_left fun h => (hrooms seat).mpr ⟨h, hkey⟩
  | connection =>
    rw [State.boundTo_connection] at hbound
    exact hkept hbound rfl
  | dropped hconnected =>
    rw [State.boundTo_disconnect] at hbound
    rw [State.rooms_disconnect]
    exact hkept hbound.2 rfl
  | @bound t join hbinds =>
    rw [State.boundTo_bind] at hbound
    rw [State.rooms_bind]
    split_ifs at hbound with hsame
    · obtain ⟨hconnected, rfl⟩ := hbound
      subst hsame
      refine (Join.seated_of_not_overtaken (htimely.binds join hbinds) hconnected).imp id ?_
      exact fun ⟨u, hu, hvisits⟩ => ⟨u, List.mem_append_left _ hu, hvisits⟩
    · exact hkept hbound (visits_of_binds hbinds m seat)
  | @unbound t roomCode playerId next first socket s₀ binding hvisit hnext hdata =>
    have hs₀ : s₀.boundTo m seat = s.boundTo m seat ∧ s₀.rooms = s.rooms := by
      cases hvisit <;> exact ⟨rfl, rfl⟩
    rw [State.boundTo_unbind, hs₀.1] at hbound
    rw [State.rooms_unbind, hs₀.2]
    by_cases hvisits : t.visits rt m seat
    · -- The socket is still to come: it is bound, and not the first one that is.
      obtain ⟨rfl, hfirst⟩ := hvisit.visits_iff.mp hvisits
      obtain ⟨-, -, hbefore⟩ := nextBound_eq_some hnext
      have hlt : socket < m := by
        by_contra hle
        exact hbefore m hfirst (by omega) hbound.2
      exact Or.inr ⟨_, List.mem_append_right _ (List.mem_singleton_self _),
        by simp [Task.visits, hlt]⟩
    · exact hkept hbound.2 (Bool.eq_false_iff.mpr hvisits)
  | visited hvisit hnext =>
    have hs' : s'.boundTo m seat = s.boundTo m seat ∧ s'.rooms = s.rooms := by
      cases hvisit <;> exact ⟨rfl, rfl⟩
    rw [hs'.1] at hbound
    rw [hs'.2]
    refine hkept hbound ?_
    rw [← Bool.not_eq_true, hvisit.visits_iff]
    rintro ⟨rfl, hfirst⟩
    exact nextBound_eq_none hnext m hfirst hbound
  | @exited roomCode playerId socket next =>
    rw [State.boundTo_leave] at hbound
    refine (hseated m seat hbound).imp id ?_
    rintro ⟨u, hu, hvisits⟩
    rcases List.mem_cons.mp hu with rfl | hu
    · exact ⟨_, List.mem_append_right _ (List.mem_singleton_self _), hvisits⟩
    · exact ⟨u, List.mem_append_left _ hu, hvisits⟩
  | unboundOwn binding hdata =>
    rw [State.boundTo_unbind] at hbound
    exact hkept hbound.2 rfl
  | exitedOwn =>
    rw [State.boundTo_leave] at hbound
    exact hkept hbound rfl
  | entered =>
    rw [State.boundTo_join] at hbound
    rw [State.rooms_join]
    exact hkept hbound rfl

/-- A taken seat is not left alone. -/
theorem held (h : Moved s t s' new emitted) (htimely : Timely s rest t)
    (hsound : ∀ join ∈ t.join?, join.Sound rt) {seat : SeatKey}
    (hheld : s.rooms.seated seat → Held s (t :: rest) seat) (hseated : s'.rooms.seated seat) :
    Held s' (rest ++ new) seat := by
  cases h with
  | event tasks ht _ =>
    refine (hheld hseated).frame (fun _ => id) id fun hholds => ?_
    rw [(Task.idle_of_isEvent rt ht).1 seat] at hholds
    exact absurd hholds Bool.false_ne_true
  | connection =>
    rw [show s.connection.rooms = s.rooms from rfl] at hseated
    exact (hheld hseated).frame (fun m h => by rwa [State.boundTo_connection]) id
      (by simp [Task.holds, Task.join?, Task.releases])
  | @dropped socket hconnected =>
    rw [State.rooms_disconnect] at hseated
    rcases hheld hseated with ⟨m, hm⟩ | hgrace | ⟨u, hu, hholds⟩
    · by_cases hsame : m = socket
      · subst hsame
        exact Or.inr (Or.inl (s.graceTimers_disconnect _ _ (Or.inr hm)))
      · exact Or.inl ⟨m, (s.boundTo_disconnect _ _ _).mpr ⟨hsame, hm⟩⟩
    · exact Or.inr (Or.inl (s.graceTimers_disconnect _ _ (Or.inl hgrace)))
    · exact Or.inr (Or.inr (Channelled.exists_of_rest ⟨u, hu, hholds⟩ rfl))
  | taken join rooms hjoin hrooms =>
    rcases (hrooms seat).mp hseated with hseated | rfl
    · exact (hheld hseated).frame (fun _ => id) id fun h => absurd h Bool.false_ne_true
    · exact Or.inr (Or.inr ⟨_, List.mem_append_right _ (List.mem_singleton_self _),
        by simp [Task.holds, Task.join?]⟩)
  | @left roomCode playerId next rooms hrooms =>
    obtain ⟨hseated, hne⟩ := (hrooms seat).mp hseated
    refine (hheld hseated).frame (fun _ => id) id fun h => ⟨_, List.mem_singleton_self _, ?_⟩
    simpa [Task.holds, Task.join?, Task.releases, Ne.symm hne] using h
  | @absent roomCode playerId next h =>
    refine (hheld hseated).frame (fun _ => id) id fun hholds => ?_
    have hne : seatKey rt roomCode playerId ≠ seat := fun heq => h (heq ▸ hseated)
    cases next with
    | none => simp [Task.holds, Task.join?, Task.releases, hne] at hholds
    | some switch =>
      simpa [Task.holds, Task.join?, Task.releases, hne] using hholds
  | kicked code kickedId rooms hrooms =>
    exact (hheld ((hrooms seat).mp hseated).1).frame (fun _ => id) id
      fun h => absurd h Bool.false_ne_true
  | @fired key timer fetched =>
    by_cases hkey : seat = key
    · -- The timer is gone, but its callback will free the seat.
      refine Or.inr (Or.inr ⟨_, List.mem_append_right _ (List.mem_singleton_self _), ?_⟩)
      have hseat : seatKey rt timer key.2 = seat := by
        rw [hkey, seatKey, timer.2]
      simp [Task.holds, Task.releases, hseat]
    · refine (hheld hseated).frame (fun _ => id) (fun h => ?_) fun h => absurd h Bool.false_ne_true
      rwa [State.graceTimers_cancelGrace _ _ hkey]
  | checked fetched =>
    refine (hheld hseated).frame (fun _ => id) id fun h => ⟨_, List.mem_singleton_self _, ?_⟩
    simpa [Task.holds, Task.join?, Task.releases] using h
  | @back roomCode playerId fetched h =>
    by_cases hkey : seatKey rt roomCode playerId = seat
    · subst hkey
      have hloss := htimely.loses ⟨seatKey rt roomCode playerId, none, false⟩
        (by simp only [Task.loss?, h, if_pos, Option.mem_def])
      exact .of_loss hloss hseated (fun _ _ => id) fun _ => id
    · refine (hheld hseated).frame (fun _ => id) id fun h => ?_
      simp [Task.holds, Task.join?, Task.releases, hkey] at h
  | away =>
    refine (hheld hseated).frame (fun _ => id) id fun h => ⟨_, List.mem_singleton_self _, ?_⟩
    simpa [Task.holds, Task.join?, Task.releases] using h
  | @bound t join hbinds =>
    rw [State.rooms_bind] at hseated
    have hholds := holds_of_binds hbinds seat
    by_cases hkey : seat = join.binding.seat rt
    · subst hkey
      by_cases hconnected : s.connected join.socket
      · refine Or.inl ⟨join.socket, (s.boundTo_bind _ _ _ _).mpr ?_⟩
        rw [if_pos rfl]
        exact ⟨hconnected, rfl⟩
      · have hloss := htimely.loses ⟨join.binding.seat rt, none, true⟩
          (loss_of_binds hbinds (Bool.eq_false_iff.mpr hconnected))
        refine .of_loss hloss hseated (fun m _ hm => (s.boundTo_bind _ _ _ _).mpr ?_)
          fun h => absurd h.symm Bool.false_ne_true
        have hne : m ≠ join.socket := by
          rintro rfl
          exact hconnected ((s.boundTo_iff _ _).mp hm).1
        rwa [if_neg hne]
    · refine (hheld hseated).frame (fun m hm => (s.boundTo_bind _ _ _ _).mpr ?_) (fun h => ?_) ?_
      · have hne : m ≠ join.socket := by
          rintro rfl
          obtain ⟨hconnected, b, hb, rfl⟩ := (s.boundTo_iff _ _).mp hm
          exact hkey (by rw [Join.eq_of_not_overtaken (htimely.binds join hbinds) hconnected b hb])
        rwa [if_neg hne]
      · rwa [State.graceTimers_bind _ _ _ hkey]
      · rw [hholds]
        intro h
        exact absurd (of_decide_eq_true h).symm hkey
  | switching previous =>
    refine (hheld hseated).frame (fun _ => id) id fun h => ⟨_, List.mem_singleton_self _, ?_⟩
    simp only [Task.holds, Task.join?, Task.releases] at h ⊢
    simp_all
  | @unbound t roomCode playerId next first socket s₀ binding hvisit hnext hdata =>
    obtain ⟨hrooms, hbound, hgrace⟩ := hvisit.frame
    rw [State.rooms_unbind, hrooms] at hseated
    by_cases hkey : seat = seatKey rt roomCode playerId
    · subst hkey
      exact hvisit.held htimely hnext hseated
        (fun m hne hm => (s₀.boundTo_unbind _ _ _ _).mpr ⟨hne, by rwa [hbound]⟩) rfl
    · refine (hheld hseated).frame (fun m hm => (s₀.boundTo_unbind _ _ _ _).mpr ⟨?_, ?_⟩)
        (fun h => ?_) fun h => ⟨_, List.mem_singleton_self _, ?_⟩
      · rintro rfl
        exact hkey (State.eq_of_boundTo hm (nextBound_eq_some hnext).2.1)
      · rwa [hbound]
      · rwa [show (s₀.unbind socket binding).graceTimers = s₀.graceTimers from rfl, hgrace _ hkey]
      · rw [hvisit.holds_eq] at h
        simpa [Task.holds, Task.join?, Task.releases, Option.any_map, Function.comp_def] using h
  | @visited t roomCode playerId next first _ hvisit hnext =>
    have hnextHolds :
        t.holds rt seat → ∃ u ∈ next.toList.map Task.unbindSocket, u.holds rt seat := by
      rw [hvisit.holds_eq]
      cases next with
      | none => simp
      | some switch => simp [Task.holds, Task.join?, Task.releases]
    cases hvisit with
    | unbindPlayer => exact (hheld hseated).frame (fun _ => id) id hnextHolds
    | departed =>
      by_cases hkey : seat = seatKey rt roomCode playerId
      · subst hkey
        have hloss := htimely.loses ⟨seatKey rt roomCode playerId, none, true⟩
          (by simp [Task.loss?, hnext])
        exact .of_loss hloss hseated (fun _ _ => id) fun h => absurd h.symm Bool.false_ne_true
      · refine (hheld hseated).frame (fun _ => id) (fun h => ?_) hnextHolds
        rwa [State.graceTimers_cancelGrace _ _ hkey]
  | exited =>
    refine (hheld hseated).frame (fun m h => ?_) id fun h => ⟨_, List.mem_singleton_self _, h⟩
    rwa [State.boundTo_leave]
  | @unboundOwn switch binding hdata =>
    by_cases hkey : seat = binding.seat rt
    · subst hkey
      have hloss := htimely.loses ⟨binding.seat rt, some switch.join.socket, false⟩
        (by simp [Task.loss?, hdata])
      exact .of_loss hloss hseated
        (fun m hne hm => (s.boundTo_unbind _ _ _ _).mpr ⟨fun h => hne (by rw [h]), hm⟩) fun _ => id
    · refine (hheld hseated).frame (fun m hm => (s.boundTo_unbind _ _ _ _).mpr ⟨?_, hm⟩) id
        fun h => ⟨_, List.mem_singleton_self _, h⟩
      rintro rfl
      obtain ⟨-, b, hb, rfl⟩ := (s.boundTo_iff _ _).mp hm
      exact hkey (by rw [Option.some.inj (hdata.symm.trans hb)])
  | freeOwn =>
    exact (hheld hseated).frame (fun _ => id) id fun h => ⟨_, List.mem_singleton_self _, h⟩
  | exitedOwn =>
    refine (hheld hseated).frame (fun m h => ?_) id fun h => ⟨_, List.mem_singleton_self _, h⟩
    rwa [State.boundTo_leave]
  | @retaken switch rooms roomCode hcode hrooms =>
    have hseat : switch.join.binding.seat rt = seatKey rt roomCode switch.join.playerId := by
      rw [Binding.seat, Join.binding, seatKey, seatKey, (hsound _ rfl).code_eq, hcode]
    have hbind : (Task.bind { switch.join with roomCode }).holds rt
        (seatKey rt roomCode switch.join.playerId) := by
      simp [Task.holds, Task.join?, Join.binding, Binding.seat]
    rcases (hrooms seat).mp hseated with hseated | rfl
    · refine (hheld hseated).frame (fun _ => id) id fun h => ⟨_, List.mem_singleton_self _, ?_⟩
      obtain rfl : seatKey rt roomCode switch.join.playerId = seat := by
        simpa [Task.holds, Task.join?, Task.releases, hseat] using h
      exact hbind
    · exact Or.inr (Or.inr ⟨_, List.mem_append_right _ (List.mem_singleton_self _), hbind⟩)
  | @refused switch h =>
    refine (hheld hseated).frame (fun _ => id) id fun hholds => ?_
    obtain rfl : switch.join.binding.seat rt = seat := by
      simpa [Task.holds, Task.join?, Task.releases] using hholds
    exact absurd hseated (h (hsound _ rfl))
  | entered =>
    rw [State.rooms_join] at hseated
    refine (hheld hseated).frame (fun m h => ?_) (fun h => ?_) fun h => absurd h Bool.false_ne_true
    · rwa [State.boundTo_join]
    · rwa [State.graceTimers_join]

/-- A seat that a piece takes is held by what the piece goes on as. -/
theorem held_of_mem_emitted (h : Moved s t s' new emitted) {taken : Taken}
    (htaken : taken ∈ emitted) : Held s' (rest ++ new) taken.seat := by
  cases h with
  | taken join rooms hjoin hrooms =>
    obtain rfl := List.mem_singleton.mp htaken
    exact Or.inr (Or.inr ⟨_, List.mem_append_right _ (List.mem_singleton_self _),
      by simp [Task.holds, Task.join?]⟩)
  | retaken rooms roomCode hcode hrooms =>
    obtain rfl := List.mem_singleton.mp htaken
    exact Or.inr (Or.inr ⟨_, List.mem_append_right _ (List.mem_singleton_self _),
      by simp [Task.holds, Task.join?, Join.binding, Binding.seat]⟩)
  | _ => simp at htaken

end Moved

/-! ### Runs -/

namespace Coherent

variable {s : State rt} {tasks tasks' : List Task} {log : List Taken} {w w' : Sockets rt}
  {turn : Turn Env Task} {emitted : List Taken}

/-- More tasks in flight change nothing. -/
theorem mono (h : Coherent s tasks log) (hsub : ∀ u ∈ tasks, u ∈ tasks')
    (hsound : ∀ u ∈ tasks', ∀ join ∈ u.join?, join.Sound rt) : Coherent s tasks' log := by
  have hexists : ∀ {q : Task → Bool}, (∃ u ∈ tasks, q u) → ∃ u ∈ tasks', q u :=
    fun ⟨u, hu, hq⟩ => ⟨u, hsub u hu, hq⟩
  refine ⟨hsound, fun m hm => ?_, fun m seat hm => ?_, fun taken htaken hseated => ?_⟩
  · obtain ⟨rooms, inside, outside⟩ := h.channelled m hm
    exact ⟨rooms, fun b hb => (inside b hb).imp_right hexists,
      fun p hp => (outside p hp).imp_right hexists⟩
  · exact (h.seated m seat hm).imp_right hexists
  · exact (h.held taken htaken hseated).imp_right fun h => h.imp_right hexists

/-- A piece that is not overtaken. -/
theorem moved {s s' : State rt} {t : Task} {rest new : List Task}
    (hmoved : Moved s t s' new emitted) (htimely : Timely s rest t)
    (h : Coherent s (t :: rest) log) : Coherent s' (rest ++ new) (log ++ emitted) where
  sound := hmoved.sound h.sound
  channelled := hmoved.channelled htimely h.channelled
  seated := hmoved.seated htimely h.seated
  held taken htaken hseated := by
    rcases List.mem_append.mp htaken with htaken | htaken
    · exact hmoved.held htimely (h.sound t (List.mem_cons_self ..)) (h.held taken htaken) hseated
    · exact hmoved.held_of_mem_emitted htaken

/-- A turn that is not overtaken keeps sockets and seats coherent. -/
theorem turned (hturned : Turned (fun env t s => t.resume env s) w turn w' emitted)
    (h : Coherent w.shared w.tasks w.log) (hfirst : ∀ t ∈ turn.spawned?, t.isFirst)
    (htimely : overtakes w turn = false) : Coherent w'.shared w'.tasks w'.log := by
  cases hturned with
  | idle => exact h
  | spawned t =>
    refine h.mono (fun u hu => List.mem_append_left _ hu) ?_
    rw [List.forall_mem_append]
    refine ⟨h.sound, ?_⟩
    rw [List.forall_mem_singleton, Task.join?_of_isFirst (hfirst t rfl)]
    simp
  | @resumed index env t rest htask htasks =>
    have hothers : (w.tasks.eraseIdx index).Perm rest := by
      obtain ⟨hindex, rfl⟩ := List.getElem?_eq_some_iff.mp htask
      exact List.Perm.cons_inv ((List.getElem_cons_eraseIdx_perm hindex).trans htasks)
    rw [overtakes, htask, Option.any_some, Task.overtaken_perm _ t hothers] at htimely
    refine moved (Bindings.moved env w.shared t) (timely_of_not_overtaken htimely) ?_
    exact h.mono (fun u hu => htasks.mem_iff.mp hu) fun u hu =>
      h.sound u (htasks.mem_iff.mpr hu)

theorem started (rooms : RoomStore rt) : Coherent (started rooms).shared [] [] where
  sound := by simp
  channelled m hm := absurd hm (by simp [Bindings.started, State.connected])
  seated m seat hm := absurd hm (by simp [Bindings.started, State.boundTo, State.connected])
  held := by simp

/-- When no handler is in flight, sockets and seats agree. -/
theorem consistent (h : Coherent w.shared w.tasks w.log) (htasks : w.tasks = []) :
    Consistent w := by
  obtain ⟨-, channelled, seated, held⟩ := h
  rw [htasks] at channelled seated held
  refine ⟨fun m hm => ?_, fun m seat hm => ?_, fun taken htaken hbound hgrace hseated => ?_⟩
  · obtain ⟨rooms, inside, outside⟩ := channelled m hm
    have houtside : ∀ p, .player p ∈ (w.shared.sockets m).channels →
        ∃ b ∈ (w.shared.sockets m).data, b.playerId = p :=
      fun p hp => (outside p hp).resolve_right (by simp)
    have hinside : ∀ b ∈ (w.shared.sockets m).data,
        .player b.playerId ∈ (w.shared.sockets m).channels :=
      fun b hb => (inside b hb).resolve_right (by simp)
    ext channel
    cases hdata : (w.shared.sockets m).data with
    | none =>
      simp only [hdata, Option.mem_def, reduceCtorEq, false_and, exists_false, iff_false,
        imp_false] at rooms houtside
      cases channel with
      | room code => simp [rooms code]
      | player p => simp [houtside p]
    | some b =>
      simp only [hdata, Option.mem_def, Option.some.injEq, exists_eq_left', forall_eq'] at *
      cases channel with
      | room code => simp [rooms code, Binding.channels, eq_comm]
      | player p =>
        simp only [Binding.channels, Option.map_some, Option.getD_some, Finset.mem_insert,
          Finset.mem_singleton, reduceCtorEq, Channel.player.injEq, false_or]
        exact ⟨fun hp => (houtside p hp).symm, fun hp => hp ▸ hinside⟩
  · exact (seated m seat hm).resolve_right (by simp)
  · rcases held taken htaken hseated with ⟨m, hm⟩ | h | ⟨u, hu, -⟩
    · exact hbound m hm
    · simp [hgrace] at h
    · simp at hu

end Coherent

/-- Sockets and seats agree after every run in which no piece is overtaken, as soon as no handler
is in flight. -/
theorem consistent_of_not_overtaken (rt : Runtime) (rooms : RoomStore rt)
    (turns : List (Turn Env Task)) (hfirst : ∀ turn ∈ turns, ∀ t ∈ turn.spawned?, t.isFirst)
    (htimely : ∀ e ∈ (binding rt).trace (started rooms) turns,
      overtakes e.before e.input = false)
    (hidle : ((binding rt).run (started rooms) turns).tasks = []) :
    Consistent ((binding rt).run (started rooms) turns) := by
  have hcoherent := Machine.run_invariant (M := binding rt)
    (P := fun w : Sockets rt => Coherent w.shared w.tasks w.log) (fun e he h =>
      h.turned (turned_of_mem_trace he) (hfirst _ (Machine.input_mem_of_mem_trace he))
        (htimely e he)) (Coherent.started rooms)
  exact hcoherent.consistent hidle

/-! ### Runs on three rooms -/

/-- The lobbies `A`, `B` and `C`, each with its host. -/
def sampleRooms : RoomStore .ascii where
  room key :=
    if key ∈ [js "A", js "B", js "C"] then
      some (RoomService.newRoom
        { id := js "host", displayName := js "Host", role := .undecided, ready := false } key 0)
    else none
  code_eq := by
    intro key stored hstored
    split_ifs at hstored with hkey
    obtain rfl := Option.some.inj hstored
    simp only [List.mem_cons, List.not_mem_nil, or_false] at hkey
    rcases hkey with rfl | rfl | rfl <;> decide

/-- The oldest task goes on, again and again. -/
def sampleTurns (pieces : ℕ) : List (Turn Env Task) :=
  List.replicate pieces (.resume 0 ⟨.first, 0⟩)

/-- The first socket joins a room as Ana. -/
def sampleJoin (roomCode : String) : Turn Env Task :=
  .spawn (.roomJoin 0 (.string (js roomCode)) (.string (js "ana")) (.string (js "Ana")))

/-- Ana is bound to `A` and joins `B`; then her socket drops, and the grace of her seat ends. -/
def sampleVisit : List (Turn Env Task) :=
  .spawn .connection :: sampleTurns 1 ++ sampleJoin "A" :: sampleTurns 3 ++
    sampleJoin "B" :: sampleTurns 10 ++ .spawn (.disconnect 0) :: sampleTurns 1 ++
      .spawn (.graceFired (js "B", js "ana")) :: sampleTurns 4

theorem consistent_of_not_overtaken_sampleVisit :
    Consistent ((binding .ascii).run (started sampleRooms) sampleVisit) :=
  consistent_of_not_overtaken .ascii sampleRooms sampleVisit (by decide +kernel)
    (by decide +kernel) (List.isEmpty_iff.mp (by decide +kernel))

/-- Ana is bound to `A`, and joins `B` and `C` without waiting for the answers. -/
def sampleTwice : List (Turn Env Task) :=
  .spawn .connection :: sampleTurns 1 ++ sampleJoin "A" :: sampleTurns 3 ++
    sampleJoin "B" :: sampleJoin "C" :: sampleTurns 18

/-- Two joins of a bound socket leave a seat without a socket and without a timer. -/
theorem joined_twice :
    (∀ turn ∈ sampleTwice, ∀ t ∈ turn.spawned?, t.isFirst) ∧
      ((binding .ascii).run (started sampleRooms) sampleTwice).tasks = [] ∧
      ¬Consistent ((binding .ascii).run (started sampleRooms) sampleTwice) := by
  refine ⟨by decide +kernel, List.isEmpty_iff.mp (by decide +kernel), fun h => ?_⟩
  refine h.released ⟨0, (js "C", js "ana")⟩ (by decide +kernel) (fun m hm => ?_)
    (Option.isNone_iff_eq_none.mp (by decide +kernel)) (by decide +kernel)
  have hconnected := ((State.boundTo_iff _ _ _).mp hm).1
  have hlt := of_decide_eq_true (Bool.and_eq_true_iff.mp hconnected).1
  have hnone : ∀ m < ((binding .ascii).run (started sampleRooms) sampleTwice).shared.connections,
      ¬((binding .ascii).run (started sampleRooms) sampleTwice).shared.boundTo m
        (js "C", js "ana") := by decide +kernel
  exact hnone m hlt hm

end Bindings

end DanceSync
