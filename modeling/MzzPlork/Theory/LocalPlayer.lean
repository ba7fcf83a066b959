import MzzPlork.Core.Replication

/-!
# The Local Player

What a client's own entity goes through.

Every call does one of four things to the entity under the local id: nothing,
one of the two assignments, or its removal (`localAfter`). The removal is not
meant: `OnPlayerJoined` and `OnPlayerState` leave the local id alone and
`OnPlayerLeft` does not look. Nothing brings the entity back, so
`localKept_iff` is an equivalence over whole sequences of calls.

The server sends such an event when two sessions hold one player id, which
two connections with one client id do.

## Main definitions

* `localAfter`: What a call does to the local entity.
* `Evicts`: The calls that remove it.
* `LocalKept`: It is there, local, and as it was set last.

## Theorems

* `localEntity_step`: The spec of a call, as far as the local entity goes.
* `localKept_iff`: When the local player survives a sequence of calls.
-/

namespace MzzPlork

namespace Sync

/-- A `player_left` event that names the local player. -/
def Evicts (localPlayerId : Bytes) (e : Event) : Prop :=
  match e with
  | .playerLeft data => Replication.playerIdOf data = some localPlayerId ∧ localPlayerId ≠ []
  | _ => False

/-- What a call does to the local entity. -/
def localAfter (localPlayerId : Bytes) (o : Option Entity) (e : Event) : Option Entity :=
  match e with
  | .playerLeft data =>
    if Replication.playerIdOf data = some localPlayerId ∧ localPlayerId ≠ [] then none else o
  | .setLocalPosition position => o.map (fun player => { player with position := position })
  | .setLocalRotation rotation => o.map (fun player => { player with rotation := rotation })
  | .playerJoined _ | .playerState _ _ | .tick _ => o

/-- The position, as far as it is set in a call. -/
def positionAfter (last : Vector3) (e : Event) : Vector3 :=
  match e with
  | .setLocalPosition position => position
  | _ => last

/-- The rotation, as far as it is set in a call. -/
def rotationAfter (last : Rotation3) (e : Event) : Rotation3 :=
  match e with
  | .setLocalRotation rotation => rotation
  | _ => last

namespace Replication

/-- The entity under the local id. -/
def localEntity (r : Replication) : Option Entity := r.entities r.localPlayerId

section Calls

variable (r : Replication) (id : Bytes)

/-- There are no entities but players. -/
theorem getPlayer_eq : r.getPlayer id = r.entities id := by
  rw [getPlayer]
  cases r.entities id with
  | none => rfl
  | some e =>
      have htype : e.type = .player := by
        cases e.type
        rfl
      rw [Option.filter_some, if_pos (decide_eq_true htype)]

theorem entities_write (e : Entity) (i : Bytes) :
    (r.write id e).entities i = if i = id then some e else r.entities i :=
  Function.update_apply r.entities id (some e) i

theorem entities_createPlayer (displayName : Bytes) (isLocal : Bool) (i : Bytes) :
    (r.createPlayer id displayName isLocal).entities i
      = if i = id then some (Entity.newPlayer id displayName isLocal) else r.entities i :=
  Function.update_apply r.entities id _ i

theorem entities_destroyEntity (i : Bytes) :
    (r.destroyEntity id).entities i = if i = id then none else r.entities i :=
  Function.update_apply r.entities id none i

/-- Creating an entity for a state leaves the others alone. -/
theorem entities_getOrCreatePlayer (i : Bytes) (hi : i ≠ id) :
    (r.getOrCreatePlayer id).1.entities i = r.entities i := by
  rw [getOrCreatePlayer, r.getPlayer_eq id]
  cases r.entities id with
  | some player => rfl
  | none => exact (r.entities_createPlayer id [] false i).trans (if_neg hi)

end Calls

/-- The local id is fixed. -/
theorem localPlayerId_step (r : Replication) (e : Event) :
    (step r e).localPlayerId = r.localPlayerId := by
  cases e with
  | playerJoined data =>
      rw [step, onPlayerJoined]
      split
      · rfl
      · split <;> rfl
  | playerLeft data =>
      rw [step, onPlayerLeft]
      split
      · rfl
      · split <;> rfl
  | playerState data receivedAtMs =>
      rw [step, onPlayerState]
      split
      · rfl
      · split
        · rfl
        · simp only [getOrCreatePlayer]
          split <;> rfl
  | setLocalPosition position =>
      rw [step, setLocalPosition]
      split <;> rfl
  | setLocalRotation rotation =>
      rw [step, setLocalRotation]
      split <;> rfl
  | tick nowMs =>
      rw [step, tick]
      split
      · rfl
      · split
        · rfl
        · split <;> rfl

/-- What a call does to the local entity. -/
theorem localEntity_step (r : Replication) (e : Event) :
    (step r e).localEntity = localAfter r.localPlayerId r.localEntity e := by
  rw [localEntity, localPlayerId_step]
  cases e with
  | playerJoined data =>
      rw [step, onPlayerJoined, localAfter]
      split
      · rfl
      · split
        · rfl
        -- The local id is one of those passed over.
        · rename_i playerId _ hskip
          rw [entities_createPlayer,
            if_neg (fun heq => hskip (Or.inr (Or.inl heq.symm)))]
          rfl
  | playerLeft data =>
      rw [step, onPlayerLeft, localAfter]
      cases hid : playerIdOf data with
      | none =>
          simp only [reduceCtorEq, false_and, if_false]
          rfl
      | some playerId =>
          simp only [Option.some.injEq]
          by_cases hlocal : playerId = r.localPlayerId
          · by_cases hempty : r.localPlayerId = []
            · rw [if_pos (hlocal.trans hempty), if_neg (fun hev => hev.2 hempty)]
              rfl
            · rw [if_neg (fun heq => hempty (hlocal.symm.trans heq)), if_pos ⟨hlocal, hempty⟩]
              exact (r.entities_destroyEntity _ _).trans (if_pos hlocal.symm)
          · rw [if_neg (fun hev : playerId = r.localPlayerId ∧ _ => hlocal hev.1)]
            split
            · rfl
            · exact (r.entities_destroyEntity _ _).trans (if_neg (Ne.symm hlocal))
  | playerState data receivedAtMs =>
      rw [step, onPlayerState, localAfter]
      split
      · rfl
      · split
        · rfl
        · rename_i playerId _ hskip
          have hne : r.localPlayerId ≠ playerId := fun heq => hskip (Or.inr heq.symm)
          refine (entities_write _ _ _ _).trans ((if_neg hne).trans ?_)
          exact r.entities_getOrCreatePlayer playerId _ hne
  | setLocalPosition position =>
      rw [step, setLocalPosition, localAfter, r.getPlayer_eq, localEntity]
      cases hlocal : r.entities r.localPlayerId with
      | none => exact hlocal
      | some player => exact (r.entities_write _ _ _).trans (if_pos rfl)
  | setLocalRotation rotation =>
      rw [step, setLocalRotation, localAfter, r.getPlayer_eq, localEntity]
      cases hlocal : r.entities r.localPlayerId with
      | none => exact hlocal
      | some player => exact (r.entities_write _ _ _).trans (if_pos rfl)
  | tick nowMs =>
      rw [step, tick, localAfter]
      split
      · rfl
      · split
        · rfl
        · split <;> rfl

/-- What a sequence of calls does to the local entity. -/
theorem localEntity_run (es : List Event) (r : Replication) :
    (es.foldl step r).localEntity = es.foldl (localAfter r.localPlayerId) r.localEntity := by
  induction es generalizing r with
  | nil => rfl
  | cons e es ih =>
      rw [List.foldl_cons, List.foldl_cons, ih, localEntity_step, localPlayerId_step]

/-- The local player is there, it is local, and it is where it was set last. -/
def LocalKept (r : Replication) (es : List Event) : Prop :=
  ∃ player, r.entities r.localPlayerId = some player ∧ player.isLocal = true ∧
    player.position = es.foldl positionAfter Vector3.zero ∧
    player.rotation = es.foldl rotationAfter Rotation3.zero

end Replication

section Local

variable (localPlayerId : Bytes)

theorem localAfter_evicts (o : Option Entity) (e : Event) (h : Evicts localPlayerId e) :
    localAfter localPlayerId o e = none := by
  cases e with
  | playerLeft data => exact if_pos h
  | _ => exact False.elim h

/-- Nothing brings the local entity back. -/
theorem foldl_localAfter_none (es : List Event) :
    es.foldl (localAfter localPlayerId) none = none := by
  induction es with
  | nil => rfl
  | cons e es ih =>
      have hnone : localAfter localPlayerId none e = none := by
        cases e with
        | playerLeft data => exact ite_self none
        | _ => rfl
      rw [List.foldl_cons, hnone, ih]

theorem foldl_localAfter_evicted (es : List Event) (o : Option Entity) (e : Event) (he : e ∈ es)
    (h : Evicts localPlayerId e) : es.foldl (localAfter localPlayerId) o = none := by
  rcases List.append_of_mem he with ⟨before, after, rfl⟩
  rw [List.foldl_append, List.foldl_cons, localAfter_evicts localPlayerId _ e h,
    foldl_localAfter_none]

/-- Otherwise it is moved and turned, and nothing else. -/
theorem foldl_localAfter_kept (es : List Event) (player : Entity)
    (h : ∀ e ∈ es, ¬ Evicts localPlayerId e) :
    es.foldl (localAfter localPlayerId) (some player)
      = some { player with
        position := es.foldl positionAfter player.position
        rotation := es.foldl rotationAfter player.rotation } := by
  induction es generalizing player with
  | nil => rfl
  | cons e es ih =>
      have hrest := fun p => ih p (fun e' he' => h e' (List.mem_cons_of_mem e he'))
      simp only [List.foldl_cons]
      cases e with
      | playerLeft data =>
          have hstay : localAfter localPlayerId (some player) (.playerLeft data) = some player :=
            if_neg (h (.playerLeft data) List.mem_cons_self)
          rw [hstay]
          exact hrest player
      | setLocalPosition position => exact hrest { player with position := position }
      | setLocalRotation rotation => exact hrest { player with rotation := rotation }
      | playerJoined data => exact hrest player
      | playerState data receivedAtMs => exact hrest player
      | tick nowMs => exact hrest player

end Local

/-- The local player survives a sequence of calls exactly when no `player_left`
    event among them names it. -/
theorem localKept_iff (r : Replication) (es : List Event) :
    (es.foldl step r.start).LocalKept es ↔ ∀ e ∈ es, ¬ Evicts r.localPlayerId e := by
  have hself : r.start.localEntity
      = some (Entity.newPlayer r.localPlayerId r.localDisplayName true) :=
    (r.entities_createPlayer _ _ _ _).trans (if_pos rfl)
  have hrun : (es.foldl step r.start).localEntity = es.foldl (localAfter r.localPlayerId)
      (some (Entity.newPlayer r.localPlayerId r.localDisplayName true)) := by
    rw [Replication.localEntity_run, hself]
    rfl
  constructor
  · rintro ⟨player, hplayer, _⟩ e he hev
    rw [foldl_localAfter_evicted r.localPlayerId es _ e he hev] at hrun
    exact absurd (hplayer.symm.trans hrun) (by simp only [reduceCtorEq, not_false_eq_true])
  · intro h
    have hkept := foldl_localAfter_kept r.localPlayerId es
      (Entity.newPlayer r.localPlayerId r.localDisplayName true) h
    exact ⟨_, hrun.trans hkept, rfl, rfl, rfl⟩

section SecondConnection

/-- Another session of the same player leaves. -/
def echoedLeave : List Event :=
  [.setLocalPosition ⟨9, 9, 9⟩, .playerLeft [(ascii "playerId", .str (ascii "local-1"))]]

/-- The local player is gone. -/
theorem not_localKept_echoedLeave : ¬ (echoedLeave.foldl step
    (Replication.new (ascii "local-1") (ascii "Me") 100 100).start).LocalKept echoedLeave := by
  rintro ⟨player, hplayer, _⟩
  have hgone : (echoedLeave.foldl step
      (Replication.new (ascii "local-1") (ascii "Me") 100 100).start).localEntity = none := rfl
  exact absurd (hplayer.symm.trans hgone) (by simp only [reduceCtorEq, not_false_eq_true])

end SecondConnection

end Sync

end MzzPlork
