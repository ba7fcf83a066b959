import MzzPlork.Theory.LocalPlayer
import MzzPlork.Theory.Smoothing

/-!
# Entities and Interpolators

What the server's events leave in the two maps of a client.

`EntityManager` and `Replication` keep a map each, and three handlers update
them. A state writes both and a departure clears both. A join writes one of
them only, and only where there is no entity, so where there is no interpolator
either: that is what keeps the maps coupled whatever comes in.

A state that is there before the join creates the entity without a name, and
the join then finds the entity and passes it over. `joinedLate_iff` says when
that can be told apart from the usual order.

## Main definitions

* `heard`: The last state of a player since it last left.
* `Coupled`: The interpolators belong to entities of other players, and both
  show the state heard last.
* `reached`: A client after a sequence of calls.
* `view`: What a client shows of a player.

## Theorems

* `coupled_step`: A call keeps the maps coupled.
* `interpolators_coupled`: They are, after every sequence of calls.
* `joinedLate_iff`: When the order of a join and a state does not matter.
-/

namespace MzzPlork

namespace Sync

/-- The state of a player that is known after a call. -/
def heardAfter (id : Bytes) (known : Option NetworkState) (e : Event) : Option NetworkState :=
  match e with
  | .playerLeft data => if Replication.playerIdOf data = some id then none else known
  | .playerState data _ =>
    if Replication.playerIdOf data = some id then some (fromJson data) else known
  | _ => known

/-- The last state received for a player since it last left. -/
def heard (es : List Event) (id : Bytes) : Option NetworkState := es.foldl (heardAfter id) none

/-- A state, as it is written to an entity. -/
def Entity.showing (e : Entity) (state : NetworkState) : Entity :=
  { e with
    position := state.position, rotation := state.rotation, basicState := state.basicState }

/-- An entity shows a state. -/
structure Entity.Shows (e : Entity) (state : NetworkState) : Prop where
  position : e.position = state.position
  rotation : e.rotation = state.rotation
  basicState : e.basicState = state.basicState

theorem Entity.shows_showing (e : Entity) (state : NetworkState) :
    (e.showing state).Shows state :=
  ⟨rfl, rfl, rfl⟩

namespace Replication

/-- The interpolators belong to entities of other players, and both show the
    state heard last. -/
structure Coupled (r : Replication) (known : Bytes → Option NetworkState) : Prop where
  remote : ∀ id e, r.entities id = some e → id ≠ r.localPlayerId → e.isLocal = false
  named : ∀ id i, r.interpolators id = some i → id ≠ [] ∧ id ≠ r.localPlayerId
  target : ∀ id i, r.interpolators id = some i → known id = some i.target
  shown : ∀ id i, r.interpolators id = some i →
    ∃ e, r.entities id = some e ∧ e.Shows i.target

section Handlers

variable (r : Replication) (data : ClientObject) (playerId : Bytes)

/-- What an interpolator is after a state. -/
def retargeted (state : NetworkState) (receivedAtMs : Int) : InterpolatedEntity :=
  (((r.interpolators playerId).getD InterpolatedEntity.new).setInterpolationDurationMs
    r.interpolationDurationMs).setTarget state receivedAtMs

/-- A state of another player is written to both maps. -/
theorem onPlayerState_eq (receivedAtMs : Int) (hid : playerIdOf data = some playerId)
    (hremote : ¬ (playerId = [] ∨ playerId = r.localPlayerId)) :
    r.onPlayerState data receivedAtMs =
      { r with
        entities := Function.update r.entities playerId
          (some (((r.entities playerId).getD (Entity.newPlayer playerId [] false)).showing
            (fromJson data)))
        interpolators := Function.update r.interpolators playerId
          (some (r.retargeted playerId (fromJson data) receivedAtMs)) } := by
  rw [onPlayerState, hid]
  simp only [if_neg hremote, getOrCreatePlayer, r.getPlayer_eq]
  cases hentity : r.entities playerId with
  | some player => rfl
  | none =>
      simp only [write, createPlayer, Function.update_idem]
      rfl

/-- A state of no other player is passed over. -/
theorem onPlayerState_skip (receivedAtMs : Int) (hid : playerIdOf data = some playerId)
    (hskip : playerId = [] ∨ playerId = r.localPlayerId) :
    r.onPlayerState data receivedAtMs = r := by
  rw [onPlayerState, hid]
  exact if_pos hskip

/-- A new player gets an entity. -/
theorem onPlayerJoined_eq (hid : playerIdOf data = some playerId)
    (hnew : ¬ (playerId = [] ∨ playerId = r.localPlayerId ∨ r.contains playerId = true)) :
    r.onPlayerJoined data
      = r.createPlayer playerId (data.stringAt (ascii "displayName") []) false := by
  rw [onPlayerJoined, hid]
  exact if_neg hnew

/-- A departure clears both maps. -/
theorem onPlayerLeft_eq (hid : playerIdOf data = some playerId) (hnamed : playerId ≠ []) :
    r.onPlayerLeft data =
      { r with
        entities := Function.update r.entities playerId none
        interpolators := Function.update r.interpolators playerId none } := by
  rw [onPlayerLeft, hid]
  exact if_neg hnamed

/-- A player that is there already is passed over. -/
theorem onPlayerJoined_skip (hid : playerIdOf data = some playerId)
    (hskip : playerId = [] ∨ playerId = r.localPlayerId ∨ r.contains playerId = true) :
    r.onPlayerJoined data = r := by
  rw [onPlayerJoined, hid]
  exact if_pos hskip

end Handlers

section Steps

variable {r : Replication} {known : Bytes → Option NetworkState}

/-- What the setters do is not seen: they write the local entity only. -/
theorem Coupled.frame (h : Coupled r known) (r' : Replication)
    (hlocal : r'.localPlayerId = r.localPlayerId)
    (hentities : ∀ id, id ≠ r.localPlayerId → r'.entities id = r.entities id)
    (hinterpolators : r'.interpolators = r.interpolators) : Coupled r' known where
  remote := by
    intro id e he hid
    rw [hlocal] at hid
    exact h.remote id e ((hentities id hid).symm.trans he) hid
  named := by
    intro id i hi
    rw [hlocal]
    exact h.named id i (hinterpolators ▸ hi)
  target := by
    intro id i hi
    exact h.target id i (hinterpolators ▸ hi)
  shown := by
    intro id i hi
    rw [hinterpolators] at hi
    rcases h.shown id i hi with ⟨e, he, hshows⟩
    exact ⟨e, (hentities id (h.named id i hi).2).trans he, hshows⟩

/-- An id that is no player's has no interpolator, so what is known of it may
    change. -/
theorem Coupled.change (h : Coupled r known) (known' : Bytes → Option NetworkState)
    (hknown : ∀ id, id ≠ [] → id ≠ r.localPlayerId → known' id = known id) :
    Coupled r known' where
  remote := h.remote
  named := h.named
  target := by
    intro id i hi
    rw [hknown id (h.named id i hi).1 (h.named id i hi).2]
    exact h.target id i hi
  shown := h.shown

/-- A join creates an entity where there was none, so no interpolator belongs
    to it. -/
theorem Coupled.joined (h : Coupled r known) (playerId displayName : Bytes)
    (hentity : r.entities playerId = none) :
    Coupled (r.createPlayer playerId displayName false) known where
  remote := by
    intro id e he hid
    rw [entities_createPlayer] at he
    by_cases heq : id = playerId
    · rw [if_pos heq] at he
      rw [← Option.some.inj he]
      rfl
    · rw [if_neg heq] at he
      exact h.remote id e he hid
  named := h.named
  target := h.target
  shown := by
    intro id i hi
    rcases h.shown id i hi with ⟨e, he, hshows⟩
    have hne : id ≠ playerId := by
      intro heq
      rw [heq, hentity] at he
      exact absurd he (by simp only [reduceCtorEq, not_false_eq_true])
    exact ⟨e, (entities_createPlayer r playerId displayName false id).trans
      ((if_neg hne).trans he), hshows⟩

/-- What is left where one entry was removed. -/
theorem of_update_none {α : Type} {f : Bytes → Option α} {playerId id : Bytes} {x : α}
    (h : Function.update f playerId none id = some x) : id ≠ playerId ∧ f id = some x := by
  by_cases heq : id = playerId
  · rw [heq, Function.update_self] at h
    exact absurd h (by simp only [reduceCtorEq, not_false_eq_true])
  · rw [Function.update_of_ne heq] at h
    exact ⟨heq, h⟩

/-- A departure clears both maps. -/
theorem Coupled.left (h : Coupled r known) (playerId : Bytes) :
    Coupled { r with
        entities := Function.update r.entities playerId none
        interpolators := Function.update r.interpolators playerId none }
      (Function.update known playerId none) where
  remote := fun id e he hid => h.remote id e (of_update_none he).2 hid
  named := fun id i hi => h.named id i (of_update_none hi).2
  target := by
    intro id i hi
    rcases of_update_none hi with ⟨hne, hi⟩
    rw [Function.update_of_ne hne]
    exact h.target id i hi
  shown := by
    intro id i hi
    rcases of_update_none hi with ⟨hne, hi⟩
    simp only [Function.update_of_ne hne]
    exact h.shown id i hi

/-- A state is written to both maps. -/
theorem Coupled.stated (h : Coupled r known) (playerId : Bytes) (state : NetworkState)
    (receivedAtMs : Int) (hremote : ¬ (playerId = [] ∨ playerId = r.localPlayerId)) :
    Coupled { r with
        entities := Function.update r.entities playerId
          (some (((r.entities playerId).getD (Entity.newPlayer playerId [] false)).showing state))
        interpolators := Function.update r.interpolators playerId
          (some (r.retargeted playerId state receivedAtMs)) }
      (Function.update known playerId (some state)) where
  remote := by
    intro id e he hid
    simp only [Function.update_apply] at he
    by_cases heq : id = playerId
    · rw [if_pos heq] at he
      rw [← Option.some.inj he]
      -- Whether it was there or is created for the state, it is not local.
      cases hentity : r.entities playerId with
      | some player => exact h.remote playerId player hentity (heq ▸ hid)
      | none => rfl
    · rw [if_neg heq] at he
      exact h.remote id e he hid
  named := by
    intro id i hi
    simp only [Function.update_apply] at hi
    by_cases heq : id = playerId
    · rw [heq]
      exact not_or.mp hremote
    · rw [if_neg heq] at hi
      exact h.named id i hi
  target := by
    intro id i hi
    simp only [Function.update_apply] at hi ⊢
    by_cases heq : id = playerId
    · rw [if_pos heq] at hi ⊢
      rw [← Option.some.inj hi, retargeted, InterpolatedEntity.target_setTarget]
    · rw [if_neg heq] at hi ⊢
      exact h.target id i hi
  shown := by
    intro id i hi
    simp only [Function.update_apply] at hi ⊢
    by_cases heq : id = playerId
    · rw [if_pos heq] at hi ⊢
      refine ⟨_, rfl, ?_⟩
      rw [← Option.some.inj hi, retargeted, InterpolatedEntity.target_setTarget]
      exact Entity.shows_showing _ state
    · rw [if_neg heq] at hi ⊢
      exact h.shown id i hi

end Steps

/-- What is known of the players after a departure or a state. -/
theorem heardAfter_update (known : Bytes → Option NetworkState) (playerId : Bytes)
    (o : Option NetworkState) :
    (fun id => if some playerId = some id then o else known id)
      = Function.update known playerId o := by
  funext id
  rw [Function.update_apply]
  simp only [Option.some.injEq, eq_comm (a := playerId)]

/-- A call keeps the maps coupled. -/
theorem coupled_step (r : Replication) (known : Bytes → Option NetworkState) (e : Event)
    (h : r.Coupled known) : (step r e).Coupled (fun id => heardAfter id (known id) e) := by
  cases e with
  | playerJoined data =>
      simp only [step, heardAfter]
      cases hid : playerIdOf data with
      | none =>
          rw [onPlayerJoined, hid]
          exact h
      | some playerId =>
          by_cases hskip : playerId = [] ∨ playerId = r.localPlayerId ∨ r.contains playerId = true
          -- A repeated join leaves everything as it is.
          · rw [r.onPlayerJoined_skip data playerId hid hskip]
            exact h
          · rw [r.onPlayerJoined_eq data playerId hid hskip]
            refine h.joined playerId _ ?_
            rw [← Option.not_isSome_iff_eq_none]
            exact fun hthere => hskip (Or.inr (Or.inr hthere))
  | playerLeft data =>
      simp only [step, heardAfter]
      cases hid : playerIdOf data with
      | none =>
          rw [onPlayerLeft, hid]
          simp only [reduceCtorEq, if_false]
          exact h
      | some playerId =>
          rw [heardAfter_update known playerId none]
          -- The empty id is in neither map, whatever is known of it.
          by_cases hempty : playerId = []
          · rw [onPlayerLeft, hid]
            simp only [if_pos hempty]
            refine h.change _ (fun id hne _ => ?_)
            exact Function.update_of_ne (fun heq => hne (heq.trans hempty)) none known
          · rw [r.onPlayerLeft_eq data playerId hid hempty]
            exact h.left playerId
  | playerState data receivedAtMs =>
      simp only [step, heardAfter]
      cases hid : playerIdOf data with
      | none =>
          rw [onPlayerState, hid]
          simp only [reduceCtorEq, if_false]
          exact h
      | some playerId =>
          rw [heardAfter_update known playerId (some (fromJson data))]
          by_cases hskip : playerId = [] ∨ playerId = r.localPlayerId
          · rw [r.onPlayerState_skip data playerId receivedAtMs hid hskip]
            -- What is known changes for an id only that has no interpolator.
            refine h.change _ (fun id hne hlocal => ?_)
            refine Function.update_of_ne (fun heq => ?_) _ known
            rcases hskip with hempty | hself
            · exact hne (heq.trans hempty)
            · exact hlocal (heq.trans hself)
          · rw [r.onPlayerState_eq data playerId receivedAtMs hid hskip]
            exact h.stated playerId (fromJson data) receivedAtMs hskip
  | setLocalPosition position =>
      -- Only the local entity is written to.
      simp only [step, setLocalPosition, heardAfter]
      cases r.getPlayer r.localPlayerId with
      | none => exact h
      | some player =>
          exact h.frame _ rfl (fun id hid => (r.entities_write _ _ _).trans (if_neg hid)) rfl
  | setLocalRotation rotation =>
      simp only [step, setLocalRotation, heardAfter]
      cases r.getPlayer r.localPlayerId with
      | none => exact h
      | some player =>
          exact h.frame _ rfl (fun id hid => (r.entities_write _ _ _).trans (if_neg hid)) rfl
  | tick nowMs =>
      simp only [step, tick, heardAfter]
      cases r.getPlayer r.localPlayerId with
      | none =>
          simp only [ite_self]
          exact h
      | some player =>
          split
          · exact h
          · split
            · exact h
            · exact h.frame _ rfl (fun _ _ => rfl) rfl

/-- Nobody but the local player is there at the start. -/
theorem coupled_start (localPlayerId localDisplayName : Bytes)
    (syncIntervalMs interpolationDurationMs : Int) :
    (new localPlayerId localDisplayName syncIntervalMs interpolationDurationMs).start.Coupled
      (fun _ => none) where
  remote := by
    intro id e he hid
    have hnone := (entities_createPlayer _ _ _ _ id).symm.trans he
    exact absurd ((if_neg hid).symm.trans hnone)
      (by simp only [new, reduceCtorEq, not_false_eq_true])
  named := fun id i hi => absurd hi (by simp only [start, createPlayer, new, reduceCtorEq,
    not_false_eq_true])
  target := fun id i hi => absurd hi (by simp only [start, createPlayer, new, reduceCtorEq,
    not_false_eq_true])
  shown := fun id i hi => absurd hi (by simp only [start, createPlayer, new, reduceCtorEq,
    not_false_eq_true])

/-- The maps stay coupled through a sequence of calls. -/
theorem coupled_run (es : List Event) (r : Replication) (known : Bytes → Option NetworkState)
    (h : r.Coupled known) :
    (es.foldl step r).Coupled (fun id => es.foldl (heardAfter id) (known id)) := by
  induction es generalizing r known with
  | nil => exact h
  | cons e es ih => exact ih (step r e) _ (coupled_step r known e h)

theorem localPlayerId_run (es : List Event) (r : Replication) :
    (es.foldl step r).localPlayerId = r.localPlayerId := by
  induction es generalizing r with
  | nil => rfl
  | cons e es ih => exact (ih (step r e)).trans (localPlayerId_step r e)

section Reached

variable (localPlayerId localDisplayName : Bytes) (syncIntervalMs interpolationDurationMs : Int)
  (es : List Event)

/-- A client after its start and a sequence of calls. -/
def reached : Replication :=
  es.foldl step
    (new localPlayerId localDisplayName syncIntervalMs interpolationDurationMs).start

theorem coupled_reached :
    (reached localPlayerId localDisplayName syncIntervalMs interpolationDurationMs es).Coupled
      (heard es) :=
  coupled_run es _ _ (coupled_start localPlayerId localDisplayName syncIntervalMs
    interpolationDurationMs)

/-- Whatever the server sends and in whatever order: an interpolator belongs to
    the entity of another player, both show the state heard last, and a player
    not heard of since it left has none. -/
theorem interpolators_coupled (id : Bytes) :
    (∀ i, (reached localPlayerId localDisplayName syncIntervalMs interpolationDurationMs
          es).interpolators id = some i →
        ∃ e, (reached localPlayerId localDisplayName syncIntervalMs interpolationDurationMs
            es).entities id = some e ∧
          e.isLocal = false ∧ heard es id = some i.target ∧ e.Shows i.target) ∧
      (heard es id = none → ∀ nowMs,
        (reached localPlayerId localDisplayName syncIntervalMs interpolationDurationMs
          es).getInterpolatedState id nowMs = none) := by
  have hcoupled := coupled_reached localPlayerId localDisplayName syncIntervalMs
    interpolationDurationMs es
  constructor
  · intro i hi
    rcases hcoupled.shown id i hi with ⟨e, he, hshows⟩
    have hremote := hcoupled.remote id e he (hcoupled.named id i hi).2
    exact ⟨e, he, hremote, hcoupled.target id i hi, hshows⟩
  · intro hgone nowMs
    rw [getInterpolatedState]
    cases hi : (reached localPlayerId localDisplayName syncIntervalMs interpolationDurationMs
        es).interpolators id with
    | none => rfl
    | some i =>
        exact absurd (hgone.symm.trans (hcoupled.target id i hi))
          (by simp only [reduceCtorEq, not_false_eq_true])

end Reached

section Orders

variable (r : Replication) (playerId : Bytes) (joinData stateData : ClientObject)

/-- What a client shows of a player: the entity and the state it is moved to. -/
def view (r : Replication) (playerId : Bytes) : Option Entity × Option NetworkState :=
  (r.entities playerId, (r.interpolators playerId).map (·.target))

/-- What a state leaves. -/
theorem view_playerState (receivedAtMs : Int) (hstate : playerIdOf stateData = some playerId)
    (hremote : ¬ (playerId = [] ∨ playerId = r.localPlayerId)) :
    (step r (.playerState stateData receivedAtMs)).view playerId
      = (some (((r.entities playerId).getD (Entity.newPlayer playerId [] false)).showing
          (fromJson stateData)), some (fromJson stateData)) := by
  rw [step, r.onPlayerState_eq stateData playerId receivedAtMs hstate hremote, view]
  simp only [Function.update_self, Option.map_some, retargeted,
    InterpolatedEntity.target_setTarget]

/-- A join and a state: the entity has the name of the join. -/
theorem view_joinedFirst (receivedAtMs : Int) (hjoin : playerIdOf joinData = some playerId)
    (hstate : playerIdOf stateData = some playerId)
    (hremote : ¬ (playerId = [] ∨ playerId = r.localPlayerId))
    (habsent : r.entities playerId = none) :
    (step (step r (.playerJoined joinData)) (.playerState stateData receivedAtMs)).view playerId
      = (some ((Entity.newPlayer playerId (joinData.stringAt (ascii "displayName") [])
          false).showing (fromJson stateData)), some (fromJson stateData)) := by
  have hnew : ¬ (playerId = [] ∨ playerId = r.localPlayerId ∨ r.contains playerId = true) := by
    rw [contains, habsent]
    rintro (hempty | hlocal | hthere)
    · exact hremote (Or.inl hempty)
    · exact hremote (Or.inr hlocal)
    · exact absurd hthere (by simp only [Option.isSome_none, Bool.false_eq_true,
        not_false_eq_true])
  rw [view_playerState (step r (.playerJoined joinData)) playerId stateData receivedAtMs hstate
      ((localPlayerId_step r (.playerJoined joinData)).symm ▸ hremote),
    step, r.onPlayerJoined_eq joinData playerId hjoin hnew]
  simp only [entities_createPlayer, if_true, Option.getD_some]

/-- A state and a join: the join is passed over, so the entity has no name. -/
theorem view_statedFirst (receivedAtMs : Int) (hjoin : playerIdOf joinData = some playerId)
    (hstate : playerIdOf stateData = some playerId)
    (hremote : ¬ (playerId = [] ∨ playerId = r.localPlayerId))
    (habsent : r.entities playerId = none) :
    (step (step r (.playerState stateData receivedAtMs)) (.playerJoined joinData)).view playerId
      = (some ((Entity.newPlayer playerId [] false).showing (fromJson stateData)),
        some (fromJson stateData)) := by
  have hview := r.view_playerState playerId stateData receivedAtMs hstate hremote
  rw [habsent] at hview
  have hentity : (step r (.playerState stateData receivedAtMs)).entities playerId
      = some ((Entity.newPlayer playerId [] false).showing (fromJson stateData)) :=
    congrArg Prod.fst hview
  have hthere : (step r (.playerState stateData receivedAtMs)).contains playerId = true := by
    rw [contains, hentity]
    rfl
  have hskip : step (step r (.playerState stateData receivedAtMs)) (.playerJoined joinData)
      = step r (.playerState stateData receivedAtMs) :=
    onPlayerJoined_skip _ joinData playerId hjoin (Or.inr (Or.inr hthere))
  rw [hskip]
  exact hview

end Orders

/-- A join and the first state of a player leave the same in either order
    exactly when the join brings no name. -/
theorem joinedLate_iff (localPlayerId localDisplayName : Bytes)
    (syncIntervalMs interpolationDurationMs : Int) (es : List Event) (playerId : Bytes)
    (joinData stateData : ClientObject) (receivedAtMs receivedAtMs' : Int)
    (hremote : playerId ≠ localPlayerId)
    (habsent : (reached localPlayerId localDisplayName syncIntervalMs interpolationDurationMs
      es).entities playerId = none)
    (hjoin : playerIdOf joinData = some playerId)
    (hstate : playerIdOf stateData = some playerId) :
    (step (step (reached localPlayerId localDisplayName syncIntervalMs interpolationDurationMs es)
          (.playerJoined joinData)) (.playerState stateData receivedAtMs)).view playerId
        = (step (step (reached localPlayerId localDisplayName syncIntervalMs
          interpolationDurationMs es) (.playerState stateData receivedAtMs'))
          (.playerJoined joinData)).view playerId ↔
      playerId = [] ∨ joinData.stringAt (ascii "displayName") [] = [] := by
  have hlocal : (reached localPlayerId localDisplayName syncIntervalMs interpolationDurationMs
      es).localPlayerId = localPlayerId :=
    localPlayerId_run es _
  generalize reached localPlayerId localDisplayName syncIntervalMs interpolationDurationMs es = r
    at hlocal habsent ⊢
  by_cases hempty : playerId = []
  · -- Without an id neither event is looked at.
    subst hempty
    have hjoined (r : Replication) : step r (.playerJoined joinData) = r :=
      r.onPlayerJoined_skip joinData [] hjoin (Or.inl rfl)
    have hstated (r : Replication) (t : Int) : step r (.playerState stateData t) = r :=
      r.onPlayerState_skip stateData [] t hstate (Or.inl rfl)
    simp only [hjoined, hstated, true_or]
  · have hother : ¬ (playerId = [] ∨ playerId = r.localPlayerId) :=
      not_or.mpr ⟨hempty, hlocal ▸ hremote⟩
    rw [r.view_joinedFirst playerId joinData stateData receivedAtMs hjoin hstate hother habsent,
      r.view_statedFirst playerId joinData stateData receivedAtMs' hjoin hstate hother habsent]
    -- The two entities differ in their names at most.
    constructor
    · intro heq
      have hentity := Option.some.inj (congrArg Prod.fst heq)
      exact Or.inr (congrArg Entity.displayName hentity)
    · rintro (hnone | hname)
      · exact absurd hnone hempty
      · rw [hname]

section RacedJoin

/-- Ann joins. -/
def annJoins : ClientObject :=
  [(ascii "displayName", .str (ascii "Ann")), (ascii "playerId", .str (ascii "ann-1"))]

/-- Ann's state. -/
def annMoves : ClientObject := [(ascii "playerId", .str (ascii "ann-1"))]

/-- One of the orders loses her name. -/
theorem joinedLate_annJoins :
    ((step (step (reached (ascii "local-1") (ascii "Me") 100 100 [])
          (.playerJoined annJoins)) (.playerState annMoves 0)).view (ascii "ann-1")
        = (step (step (reached (ascii "local-1") (ascii "Me") 100 100 [])
          (.playerState annMoves 0)) (.playerJoined annJoins)).view (ascii "ann-1")) ↔
      ascii "ann-1" = [] ∨ annJoins.stringAt (ascii "displayName") [] = [] :=
  joinedLate_iff (ascii "local-1") (ascii "Me") 100 100 [] (ascii "ann-1") annJoins annMoves 0 0
    (by decide) rfl rfl rfl

theorem not_joinedLate_annJoins :
    (step (step (reached (ascii "local-1") (ascii "Me") 100 100 [])
          (.playerJoined annJoins)) (.playerState annMoves 0)).view (ascii "ann-1")
      ≠ (step (step (reached (ascii "local-1") (ascii "Me") 100 100 [])
          (.playerState annMoves 0)) (.playerJoined annJoins)).view (ascii "ann-1") := by
  intro heq
  have hname := congrArg (fun v => v.1.map Entity.displayName) heq
  have hfirst : ((step (step (reached (ascii "local-1") (ascii "Me") 100 100 [])
      (.playerJoined annJoins)) (.playerState annMoves 0)).view (ascii "ann-1")).1.map
        Entity.displayName = some (ascii "Ann") := rfl
  have hlate : ((step (step (reached (ascii "local-1") (ascii "Me") 100 100 [])
      (.playerState annMoves 0)) (.playerJoined annJoins)).view (ascii "ann-1")).1.map
        Entity.displayName = some [] := rfl
  exact absurd (hfirst.symm.trans (hname.trans hlate)) (by decide)

end RacedJoin

end Replication

end Sync

end MzzPlork
