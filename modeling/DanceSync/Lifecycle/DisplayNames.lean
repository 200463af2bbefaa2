import DanceSync.Application.RoomStore
import DanceSync.Model.Ascii

/-!
# Display names

A name that is taken gets the first free suffix " 2", " 3", …, and is shortened to fit. The loop
over the suffixes has no bound of its own: candidates with different suffixes have different lower
case forms, and the players of a room take at most as many as they are.

## Main definitions

* `Runtime.KeepsSuffixes`: lower-casing keeps the space and the digits of a suffix.
* `JsString.IsDisplayName`: what the validation of a name leaves.
* `SuffixLoop`: where the loop over the suffixes ends.
* `UniqueName`: what `uniqueDisplayName` returns.
* `Room.NamesUnique`.

## Main results

* `exists_uniqueDisplayName`: the loop ends.
* `Change.identities_sublist`: only a join brings a new name into a room.
* `display_names_unique`.
-/

namespace DanceSync

/-- The suffix " n". -/
def nameSuffix (n : ℕ) : JsString := js " " ++ JsString.decimal n

/-- Lower-casing keeps the space and the digits that a text ends with. -/
def Runtime.KeepsSuffixes (rt : Runtime) : Prop :=
  ∀ (text : JsString) (n : ℕ),
    ∃ lowered, rt.toLocaleLowerCase (text ++ nameSuffix n) = lowered ++ nameSuffix n

/-- A text of 1 to 32 code units without white space around it. -/
structure JsString.IsDisplayName (name : JsString) : Prop where
  length_pos : 1 ≤ name.length
  length_le : name.length ≤ MAX_DISPLAY_NAME_LENGTH
  trimmed : name.trim = name

/-- No player uses the name, ignoring case. -/
def IsFreeName (rt : Runtime) (players : List Player) (name : JsString) : Prop :=
  ∀ p ∈ players, rt.toLocaleLowerCase p.displayName ≠ rt.toLocaleLowerCase name

/-- `for (let n = 2; ; n++)` ends at suffix `n`. -/
structure SuffixLoop (rt : Runtime) (players : List Player) (displayName : JsString) (n : ℕ) :
    Prop where
  two_le : 2 ≤ n
  taken : ∀ m, 2 ≤ m → m < n → ¬IsFreeName rt players (suffixedName displayName m)
  free : IsFreeName rt players (suffixedName displayName n)

/-- What `uniqueDisplayName` returns: the name itself when it is free, and else the candidate at
which the loop ends, after at most one candidate more than there are players. -/
structure UniqueName (rt : Runtime) (players : List Player) (displayName name : JsString) :
    Prop where
  isDisplayName : name.IsDisplayName
  free : IsFreeName rt players name
  kept : IsFreeName rt players displayName → name = displayName
  suffixed : ¬IsFreeName rt players displayName → ∃ n ≤ players.length + 2,
    SuffixLoop rt players displayName n ∧ name = suffixedName displayName n

/-- The display names of a room are as validated, and differ, ignoring case. -/
structure Room.NamesUnique (rt : Runtime) (room : Room) : Prop where
  isDisplayName : ∀ p ∈ room.players, p.displayName.IsDisplayName
  nodup : (room.players.map fun p => rt.toLocaleLowerCase p.displayName).Nodup

variable {rt : Runtime} {code : JsString} {room next : Room} {op : RoomOp} {players : List Player}
  {displayName name : JsString} {slot slot' : Option Room} {n m : ℕ}

/-! ### Suffixes -/

/-- A text tells the number that it ends with. -/
theorem eq_of_append_nameSuffix {s t : JsString} (h : s ++ nameSuffix n = t ++ nameSuffix m) :
    n = m := by
  have hdigits (text : JsString) (k : ℕ) :
      (text ++ nameSuffix k).rtakeWhile (· ≠ 0x20) = JsString.decimal k := by
    have hreverse : (text ++ nameSuffix k).reverse =
        (JsString.decimal k).reverse ++ 0x20 :: text.reverse := by
      simp [nameSuffix, show js " " = [0x20] from rfl]
    rw [List.rtakeWhile, hreverse, List.takeWhile_append_of_pos]
    · simp
    · intro u hu
      have hblank := JsString.isBlank_of_mem_decimal (List.mem_reverse.mp hu)
      refine decide_eq_true fun hspace => ?_
      rw [hspace] at hblank
      exact absurd hblank (by decide)
  have hdecimal := congrArg (List.rtakeWhile (· ≠ (0x20 : UInt16))) h
  rw [hdigits, hdigits] at hdecimal
  exact JsString.decimal_injective hdecimal

theorem suffixedName_eq (displayName : JsString) (n : ℕ) : suffixedName displayName n =
    JsString.trimEnd (displayName.take (MAX_DISPLAY_NAME_LENGTH - (nameSuffix n).length)) ++
      nameSuffix n := rfl

/-- Candidates with different suffixes differ, ignoring case. -/
theorem Runtime.KeepsSuffixes.injective (h : rt.KeepsSuffixes) (displayName : JsString) :
    Function.Injective fun n => rt.toLocaleLowerCase (suffixedName displayName n) := by
  intro n m heq
  simp only [suffixedName_eq] at heq
  obtain ⟨s, hs⟩ := h (JsString.trimEnd
    (displayName.take (MAX_DISPLAY_NAME_LENGTH - (nameSuffix n).length))) n
  obtain ⟨t, ht⟩ := h (JsString.trimEnd
    (displayName.take (MAX_DISPLAY_NAME_LENGTH - (nameSuffix m).length))) m
  rw [hs, ht] at heq
  exact eq_of_append_nameSuffix heq

theorem getLast_nameSuffix (h : nameSuffix n ≠ []) :
    JsString.isBlank ((nameSuffix n).getLast h) = false := by
  refine JsString.isBlank_of_mem_decimal (n := n) ?_
  simp only [nameSuffix, List.getLast_append_of_ne_nil _ (JsString.decimal_ne_nil n)]
  exact List.getLast_mem _

theorem nameSuffix_ne_nil (n : ℕ) : nameSuffix n ≠ [] := by
  simp [nameSuffix, JsString.decimal_ne_nil]

namespace JsString.IsDisplayName

theorem ne_nil (h : displayName.IsDisplayName) : displayName ≠ [] :=
  List.length_pos_iff.mp h.length_pos

theorem head (h : displayName.IsDisplayName) : isBlank (displayName.head h.ne_nil) = false := by
  have htrim := head_trim (s := displayName) (h.trimmed.symm ▸ h.ne_nil)
  simpa only [h.trimmed] using htrim

/-- A name keeps its first character when it is shortened. -/
theorem trimEnd_take_ne_nil (h : displayName.IsDisplayName) {k : ℕ} (hk : 0 < k) :
    trimEnd (displayName.take k) ≠ [] := by
  rw [trimEnd, ne_eq, List.rdropWhile_eq_nil_iff]
  intro hblank
  obtain ⟨k, rfl⟩ := Nat.exists_eq_add_of_lt hk
  obtain ⟨u, rest, rfl⟩ := List.exists_cons_of_ne_nil h.ne_nil
  exact absurd (hblank u (by simp)) (by simpa using h.head)

/-- A shortened name with a suffix is as validated. -/
theorem suffixedName (h : displayName.IsDisplayName)
    (hn : (nameSuffix n).length < MAX_DISPLAY_NAME_LENGTH) :
    (suffixedName displayName n).IsDisplayName := by
  have hbase := h.trimEnd_take_ne_nil
    (k := MAX_DISPLAY_NAME_LENGTH - (nameSuffix n).length) (by omega)
  have hstart : trimEnd (displayName.take (MAX_DISPLAY_NAME_LENGTH - (nameSuffix n).length)) <+:
      displayName.take (MAX_DISPLAY_NAME_LENGTH - (nameSuffix n).length) :=
    List.rdropWhile_prefix _ _
  rw [suffixedName_eq]
  refine ⟨?_, ?_, trim_eq_self (fun hne => ?_) fun hne => ?_⟩
  · have hpos := List.length_pos_iff.mpr hbase
    rw [List.length_append]
    omega
  · have hlength := hstart.length_le.trans (List.length_take_le _ _)
    rw [List.length_append]
    omega
  · rw [List.head_append_of_ne_nil hbase, (hstart.trans (List.take_prefix _ _)).head hbase]
    exact h.head
  · rw [List.getLast_append_of_ne_nil _ (nameSuffix_ne_nil n)]
    exact getLast_nameSuffix _

end JsString.IsDisplayName

/-! ### The loop -/

/-- One of `k + 1` different values is not among `k` taken ones. -/
theorem exists_notMem_of_injective {α : Type} {f : ℕ → α} (hf : Function.Injective f)
    (taken : List α) : ∃ n ∈ List.range' 2 (taken.length + 1), f n ∉ taken := by
  by_contra! hall
  have hsubset : (List.range' 2 (taken.length + 1)).map f ⊆ taken := by
    intro a ha
    obtain ⟨n, hn, rfl⟩ := List.mem_map.mp ha
    exact hall n hn
  have hnodup : ((List.range' 2 (taken.length + 1)).map f).Nodup :=
    List.Nodup.map hf List.nodup_range'
  have hlength := (hnodup.subperm hsubset).length_le
  simp at hlength

theorem isFreeName_iff : IsFreeName rt players name ↔
    rt.toLocaleLowerCase name ∉ players.map fun p => rt.toLocaleLowerCase p.displayName := by
  simp [IsFreeName]

/-- The loop ends after at most one candidate more than there are players. -/
theorem exists_suffixLoop (hrt : rt.KeepsSuffixes) (players : List Player)
    (displayName : JsString) : ∃ n ≤ players.length + 2,
      SuffixLoop rt players displayName n ∧
        ((List.range' 2 (players.length + 1)).map (suffixedName displayName)).find?
          (fun candidate => rt.toLocaleLowerCase candidate ∉
            players.map fun p => rt.toLocaleLowerCase p.displayName) =
          some (suffixedName displayName n) := by
  obtain ⟨m, hm, hfree⟩ := exists_notMem_of_injective (hrt.injective displayName)
    (players.map fun p => rt.toLocaleLowerCase p.displayName)
  rw [List.length_map] at hm
  obtain ⟨n, hn⟩ : ∃ n, (List.range' 2 (players.length + 1)).find? (fun n =>
      rt.toLocaleLowerCase (suffixedName displayName n) ∉
        players.map fun p => rt.toLocaleLowerCase p.displayName) = some n :=
    Option.isSome_iff_exists.mp (List.find?_isSome.mpr ⟨m, hm, decide_eq_true hfree⟩)
  obtain ⟨hlast, hrange, htaken⟩ := List.find?_range'_eq_some.mp hn
  obtain ⟨hlower, hupper⟩ := List.mem_range'_1.mp hrange
  refine ⟨n, by omega, ⟨hlower, fun k hk hlt => ?_, ?_⟩, ?_⟩
  · simpa [isFreeName_iff] using htaken k hk hlt
  · exact isFreeName_iff.mpr (of_decide_eq_true hlast)
  · rw [List.find?_map]
    exact congrArg (Option.map (suffixedName displayName)) hn

theorem exists_uniqueDisplayName (hrt : rt.KeepsSuffixes) (h : displayName.IsDisplayName)
    (hsuffix : ∀ n ≤ players.length + 2, (nameSuffix n).length < MAX_DISPLAY_NAME_LENGTH) :
    ∃ name, uniqueDisplayName rt players displayName = .ok name ∧
      UniqueName rt players displayName name := by
  by_cases hfree : IsFreeName rt players displayName
  · refine ⟨displayName, if_pos (isFreeName_iff.mp hfree), h, hfree, fun _ => rfl, ?_⟩
    exact fun htaken => absurd hfree htaken
  · obtain ⟨n, hn, hloop, hfind⟩ := exists_suffixLoop hrt players displayName
    refine ⟨suffixedName displayName n, ?_, h.suffixedName (hsuffix n hn), hloop.free,
      fun h => absurd h hfree, fun _ => ⟨n, hn, hloop, rfl⟩⟩
    rw [uniqueDisplayName, if_neg (fun hmem => hfree (isFreeName_iff.mpr hmem))]
    dsimp only
    rw [hfind]

theorem isDisplayName_of_validatePlayer {id displayName : JsValue} {who : Identity}
    (h : validatePlayer id displayName = .ok who) : who.displayName.IsDisplayName := by
  unfold validatePlayer at h
  cases id with
  | string id =>
    simp only [JsValue.string?, bind_eq_ok, pure_eq_ok] at h
    obtain ⟨_, -, _, hname, rfl⟩ := h
    obtain ⟨hpos, hle⟩ := not_or.mp (throwIf_eq_ok.mp hname)
    refine ⟨Nat.one_le_iff_ne_zero.mpr hpos, not_lt.mp hle, ?_⟩
    cases displayName with
    | string name => exact JsString.trim_trim name
    | _ => rfl
  | _ => simp [JsValue.string?] at h

/-! ### Who is in a room -/

/-- Except for a player who joins, the players after a change were there before it, in the same
order. -/
theorem Change.identities_sublist (h : Change rt room op next) :
    (∃ playerId displayName, op = .join playerId displayName) ∨
      (next.players.map (·.toIdentity)).Sublist (room.players.map (·.toIdentity)) := by
  have hdeparted {playerId : JsString} {now : Instant}
      (h : RoomService.Departed rt room playerId now next) :
      (next.players.map (·.toIdentity)).Sublist (room.players.map (·.toIdentity)) := by
    rw [h.players_eq]
    exact List.filter_sublist.map _
  cases hop : op.seats with
  | false => exact Or.inr (h.identities_eq hop ▸ List.Sublist.refl _)
  | true =>
    cases h with
    | joined => exact Or.inl ⟨_, _, rfl⟩
    | left h | kicked _ _ h => exact Or.inr (hdeparted h)
    | _ => cases hop

/-- A stored join is a rejoin, or seats a validated player. -/
theorem joined_of_next {playerId displayName : JsValue} {r : Room}
    (h : (roomMachine rt code).next (some room) (.join playerId displayName) = some r) :
    r = room ∨ ∃ who next, validatePlayer playerId displayName = .ok who ∧
      RoomService.join rt room who = .ok next ∧ r = { next with version := room.version + 1 } := by
  simp only [Machine.next, roomMachine, RoomOp.step, RoomOp.runChecked] at h
  split at h
  next => exact Or.inl (Option.some.inj h).symm
  next u hu =>
    obtain ⟨who, hwho, hplain⟩ := bind_eq_ok.mp hu
    obtain rfl := pure_eq_ok.mp hplain
    simp only [RoomOp.runUpdate] at h
    rcases RoomUpdate.fst_execute_cases (RoomUpdate.plain code _) code room with
      hsame | ⟨next, hnext, hstored⟩ | ⟨-, hnull⟩
    · exact Or.inl (Option.some.inj (h.symm.trans hsame))
    · simp only [RoomUpdate.decide, RoomUpdate.plain] at hnext
      split_ifs at hnext
      · simp at hnext
      · exact Or.inr ⟨who, next, hwho, map_room_eq_ok.mp hnext,
          Option.some.inj (h.symm.trans hstored)⟩
    · exact absurd (hnull.symm.trans h) (by simp)

/-- A created room seats a validated host. -/
theorem created_of_next {hostId displayName : JsValue} {now : Instant} {r : Room}
    (h : (roomMachine rt code).next none (.create hostId displayName now) = some r) :
    ∃ (who : Identity) (valid : Identity),
      validatePlayer (.string who.id) (.string who.displayName) = .ok valid ∧
        r = RoomService.newRoom { valid with role := .undecided, ready := false } code now := by
  simp only [Machine.next, roomMachine, RoomOp.step, CreateRoom.attempt] at h
  split at h
  next => cases h
  next room hroom =>
    obtain ⟨who, -, hcreated⟩ := bind_eq_ok.mp hroom
    simp only [RoomService.create, bind_eq_ok, pure_eq_ok] at hcreated
    obtain ⟨valid, hvalid, rfl⟩ := hcreated
    exact ⟨who, valid, hvalid, (Option.some.inj h).symm⟩

/-! ### The names of a room -/

/-- The suffixes of a room have one digit. -/
theorem length_nameSuffix_lt (hplayers : players.length < MAX_PLAYERS) :
    ∀ n ≤ players.length + 2, (nameSuffix n).length < MAX_DISPLAY_NAME_LENGTH := by
  intro n hn
  have hmax : MAX_PLAYERS = 7 := rfl
  have hlt : n < 9 := by omega
  interval_cases n <;> decide +kernel

namespace Room.NamesUnique

theorem of_sublist (h : room.NamesUnique rt)
    (hsublist : (next.players.map (·.toIdentity)).Sublist (room.players.map (·.toIdentity))) :
    next.NamesUnique rt where
  isDisplayName p hp := by
    obtain ⟨q, hq, hsame⟩ := List.mem_map.mp (hsublist.subset (List.mem_map_of_mem hp))
    have hname := h.isDisplayName q hq
    rwa [hsame] at hname
  nodup := by
    have hnames := hsublist.map fun who => rt.toLocaleLowerCase who.displayName
    simp only [List.map_map, Function.comp_def] at hnames
    exact h.nodup.sublist hnames

theorem joined (hrt : rt.KeepsSuffixes) (h : room.NamesUnique rt) {who : Identity}
    (hjoin : RoomService.join rt room who = .ok next) : next.NamesUnique rt := by
  simp only [RoomService.join, bind_eq_ok, throwIf_eq_ok, exists_const, pure_eq_ok, not_le] at hjoin
  obtain ⟨-, -, hspace, valid, hvalid, name, hname, rfl⟩ := hjoin
  obtain ⟨name', hname', hunique⟩ := exists_uniqueDisplayName hrt
    (isDisplayName_of_validatePlayer hvalid) (length_nameSuffix_lt hspace)
  obtain rfl := Except.ok.inj (hname.symm.trans hname')
  constructor
  · rw [List.forall_mem_append]
    exact ⟨h.isDisplayName, by simpa using hunique.isDisplayName⟩
  · rw [List.map_append, List.nodup_append]
    refine ⟨h.nodup, List.nodup_singleton _, fun a ha b hb => ?_⟩
    obtain ⟨p, hp, rfl⟩ := List.mem_map.mp ha
    obtain rfl := List.mem_singleton.mp hb
    exact hunique.free p hp

end Room.NamesUnique

theorem namesUnique_next (hrt : rt.KeepsSuffixes) (h : ∀ room ∈ slot, room.NamesUnique rt) :
    ∀ room ∈ (roomMachine rt code).next slot op, room.NamesUnique rt := by
  have hstored := step_spec rt code slot op
  intro r hr
  generalize hslot' : (roomMachine rt code).next slot op = slot' at hstored hr
  obtain rfl := hr
  cases hstored with
  | unchanged => exact h r rfl
  | created =>
    obtain ⟨who, valid, hvalid, hnew⟩ := created_of_next hslot'
    rw [hnew]
    exact ⟨by simpa [RoomService.newRoom] using isDisplayName_of_validatePlayer hvalid,
      by simp [RoomService.newRoom]⟩
  | changed hchange =>
    rcases hchange.identities_sublist with ⟨playerId, displayName, rfl⟩ | hsublist
    · rcases joined_of_next hslot' with hsame | ⟨who, next, -, hjoin, hnext⟩
      · rw [hsame]
        exact h _ rfl
      · rw [hnext]
        exact { (h _ rfl).joined hrt hjoin with }
    · exact (h _ rfl).of_sublist hsublist

theorem namesUnique_run (hrt : rt.KeepsSuffixes) (ops : List RoomOp)
    (h : ∀ room ∈ slot, room.NamesUnique rt) :
    ∀ room ∈ (roomMachine rt code).run slot ops, room.NamesUnique rt := by
  refine Machine.run_invariant (M := roomMachine rt code)
    (P := fun slot => ∀ room ∈ slot, room.NamesUnique rt) (fun e he hbefore => ?_) h
  rw [Machine.event_of_mem_trace he]
  exact namesUnique_next hrt hbefore

/-- When lower-casing keeps what a text ends with, `uniqueDisplayName` returns a free name for every
list of players and every validated name, and the names of every stored room differ, ignoring
case. -/
theorem display_names_unique (rt : Runtime) (hrt : rt.KeepsSuffixes) :
    (∀ (players : List Player) (id displayName : JsValue) (who : Identity),
      validatePlayer id displayName = .ok who →
      (∀ n ≤ players.length + 2, (nameSuffix n).length < MAX_DISPLAY_NAME_LENGTH) →
      ∃ name, uniqueDisplayName rt players who.displayName = .ok name ∧
        UniqueName rt players who.displayName name) ∧
    ∀ (code : JsString) (ops : List RoomOp) (room : Room),
      (roomMachine rt code).run none ops = some room → room.NamesUnique rt :=
  ⟨fun _ _ _ _ hwho hsuffix =>
    exists_uniqueDisplayName hrt (isDisplayName_of_validatePlayer hwho) hsuffix,
    fun _ ops room hroom => namesUnique_run hrt ops (by simp) room hroom⟩

theorem keepsSuffixes_ascii : Runtime.ascii.KeepsSuffixes := by
  intro text n
  have hsuffix : (nameSuffix n).map Runtime.asciiLower = nameSuffix n := by
    conv_rhs => rw [← List.map_id (nameSuffix n)]
    refine List.map_congr_left fun u hu => if_neg fun hupper => ?_
    have hlower : 65 ≤ u.toNat := hupper.1
    rcases List.mem_append.mp hu with hspace | hdigit
    · obtain rfl : u = 0x20 := List.mem_singleton.mp hspace
      exact absurd hlower (by decide)
    · have hdigit := (JsString.digit_of_mem_decimal hdigit).2
      omega
  refine ⟨text.map Runtime.asciiLower, ?_⟩
  have hlower : Runtime.ascii.toLocaleLowerCase (text ++ nameSuffix n) =
      text.map Runtime.asciiLower ++ (nameSuffix n).map Runtime.asciiLower := List.map_append
  rw [hlower, hsuffix]

/-- Another Ana in a room with `ana` and `Ana 2`. -/
theorem display_names_unique_sampleNames :
    let players : List Player :=
      [{ id := js "a", displayName := js "ana", role := .dancer, ready := true },
        { id := js "b", displayName := js "Ana 2", role := .spectator, ready := false }]
    ∃ name, uniqueDisplayName .ascii players (js "ANA") = .ok name ∧
      UniqueName .ascii players (js "ANA") name :=
  (display_names_unique .ascii keepsSuffixes_ascii).1 _ (.string (js "c")) (.string (js " ANA "))
    { id := js "c", displayName := js "ANA" } (by decide +kernel)
    (length_nameSuffix_lt (by decide))

end DanceSync
