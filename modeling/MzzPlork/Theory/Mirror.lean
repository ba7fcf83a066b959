import MzzPlork.Core.Dispatch
import MzzPlork.Core.ServerWire
import MzzPlork.Theory.Fidelity
import MzzPlork.Theory.Foreign

/-!
# The Others as a Client Has Them

A client's entities next to the sessions of the server.

What the server sends a session goes through `JSON.stringify`, UTF-8, chunks
of any size, the client's parser, its writer and its parser again, and is
folded into entities by the handlers of the replication. All of this keeps the
directory that the events amount to: a client that has received everything it
was sent, and listened from the start, has exactly one entity besides its own
for every other session that is present, with the name the server has given it
and the last state the server has of it (`mirror_run`).

On the way the directory changes its keys and its values. Player ids become
bytes, and what is known of a player becomes an entity; one table is the
picture of the other.

## Main definitions

* `wireId`, `networkOf`, `entityOf`: A player as the client has it.
* `remote`: The entities but for the local player.
* `Follows`: An update of the directory, made to the entities.
* `clientAfter`: A client that has received some messages.

* `Received`: A client that has received everything it was sent.

## Theorems

* `calls_readerLoop`: The calls of the handler, for everything that was sent.
* `follows_onMessage`: What a message does to the entities.
* `calls_induction`: Induction over what a client has handled.
* `pictures_clientAfter`: The entities are the picture of the directory.
* `mirror_run`: The entities at the end of a run.
-/

namespace MzzPlork

namespace Server

open Entries Sync

/-- The message as `encodeMessage` gets it. -/
def ServerMessage.wire (m : ServerMessage) : Wire.Message := ⟨m.type, m.payload⟩

/-- The call of the client's handler for a message. -/
def callOf (m : Wire.Message) : Wire.ServerMessage :=
  ⟨Wire.utf8 m.type, JsonText.stringify (Wire.clientOf (.obj m.payload))⟩

theorem calls_of_lines (messages : List Wire.Message) (lines : List Bytes)
    (hlines : List.Forall₂ Wire.LineOf messages lines) :
    lines.flatMap (Wire.Reader.lineCalls true) = messages.map callOf := by
  induction hlines with
  | nil => rfl
  | cons hline _ ih =>
      rw [List.flatMap_cons, List.map_cons, Wire.lineCalls_of_spells _ _ _ hline, ih]
      rfl

/-- The calls of the handler, for everything that was sent. -/
theorem calls_readerLoop (fmt : NumberFormat) (messages : List Wire.Message)
    (h : ∀ m ∈ messages, m.Plain) (chunks : List Bytes) (hne : ∀ c ∈ chunks, c ≠ [])
    (hcut : chunks.flatten = Wire.utf8 (messages.flatMap (Wire.Message.encode fmt))) :
    ((Wire.Reader.start true).readerLoop chunks).calls = messages.map callOf := by
  rcases Wire.exists_lines fmt messages h with ⟨lines, hlines, hs⟩
  have hline : ∀ line ∈ lines, JsonText.OneLine line := by
    intro line hl
    rcases List.forall₂_iff_get.mp hlines with ⟨hlen, hget⟩
    rcases List.mem_iff_get.mp hl with ⟨i, rfl⟩
    exact JsonText.oneLine_of_line _ _ (hget i.val (by rw [hlen]; exact i.isLt) i.isLt)
  rw [Wire.Reader.readerLoop_lines chunks lines hne hline (hcut.trans (Wire.utf8_of_spelt _ _ hs))]
  exact calls_of_lines messages lines hlines

section Events

/-- A player id as the client has it. -/
def wireId (p : PlayerId) : Bytes := (Wire.clientOf p).asString []

/-- The data of an event as the client has it. -/
def dataOf (e : ServerEvent) : ClientObject :=
  ClientValue.objectOrEmpty (Wire.clientOf (.obj e.data))

/-- A state as the client reads it. -/
def networkOf (st : PlayerState) : NetworkState :=
  fromJson (ClientValue.objectOrEmpty (Wire.clientOf (.obj st.fields)))

/-- What becomes of a player that is known. -/
def entityOf (p : PlayerId) (k : Known) : Entity :=
  match k.last with
  | none => Entity.newPlayer (wireId p) ((Wire.clientOf k.displayName).asString []) false
  | some st =>
    { Entity.newPlayer (wireId p) ((Wire.clientOf k.displayName).asString []) false with
      position := (networkOf st).position
      rotation := (networkOf st).rotation
      basicState := (networkOf st).basicState }

theorem clientOf_obj (fields : List (JsString × JsValue)) :
    Wire.clientOf (.obj fields)
      = .obj (ClientValue.objectOrEmpty (Wire.clientOf (.obj fields))) := by
  rw [Wire.clientOf, Json.transform_obj]
  rfl

/-- What the event sink gets for an event of the server. -/
theorem eventOf_event (e : ServerEvent) (h : (ServerMessage.event e).wire.Plain) :
    Wire.eventOf (callOf (ServerMessage.event e).wire)
      = some (Wire.utf8 e.eventType, dataOf e) := by
  have hdata : Wire.Plain (.obj e.data) := by
    have hp := h.2
    rw [Wire.Plain, Json.everywhere_obj] at hp
    exact (hp.2 (js "data", .obj e.data)
      (List.mem_cons_of_mem _ (List.mem_singleton.mpr rfl))).2
  have hmap : JsonText.IsMap ((dataOf e).map Prod.fst) := by
    unfold dataOf
    rw [Wire.clientOf, Json.transform_obj]
    exact JsonText.isMap_fields _
  have hcall : Wire.clientOf (.obj (ServerMessage.event e).wire.payload)
      = .obj [(ascii "data", .obj (dataOf e)),
        (ascii "eventType", .str (Wire.utf8 e.eventType))] := by
    rw [show (ServerMessage.event e).wire.payload
      = [(js "eventType", .str e.eventType), (js "data", .obj e.data)] from rfl,
      Wire.clientOf, Json.transform_obj]
    simp only [List.map_cons, List.map_nil]
    rw [show (Json.obj e.data).transform Wire.utf8 Wire.rational (JsonText.setAll [])
      = Json.obj (dataOf e) from clientOf_obj e.data]
    rfl
  -- Plain values are written the same a second time.
  have hsame : (dataOf e).map (fun f => (f.1, JsonText.onWire f.2)) = dataOf e := by
    have hwire := Wire.onWire_clientOf (.obj e.data) hdata
    rw [clientOf_obj] at hwire
    exact Json.obj.inj ((JsonText.onWire_obj (dataOf e) hmap).symm.trans hwire)
  unfold callOf
  rw [hcall, show Wire.utf8 (ServerMessage.event e).wire.type = ascii "event" from rfl,
    Wire.eventOf_stringify _ _ hmap, hsame]

/-- No other message reaches the event sink. -/
theorem eventOf_other (m : ServerMessage) (h : ∀ e, m ≠ .event e) :
    Wire.eventOf (callOf m.wire) = none := by
  have htype : Wire.utf8 m.type ≠ ascii "event" := by
    cases m with
    | event e => exact absurd rfl (h e)
    | helloAck _ _ _ => exact (show Wire.utf8 (js "hello_ack") ≠ ascii "event" by decide)
    | authResult _ => exact (show Wire.utf8 (js "auth_result") ≠ ascii "event" by decide)
    | heartbeatAck _ => exact (show Wire.utf8 (js "heartbeat_ack") ≠ ascii "event" by decide)
    | resourceManifest _ _ =>
        exact (show Wire.utf8 (js "resource_manifest") ≠ ascii "event" by decide)
    | resourcesReadyAck =>
        exact (show Wire.utf8 (js "resources_ready_ack") ≠ ascii "event" by decide)
    | kick _ => exact (show Wire.utf8 (js "kick") ≠ ascii "event" by decide)
  unfold Wire.eventOf
  exact if_pos htype

end Events

section Data

/-- The properties that are there are among those that could be. -/
theorem keys_defined (fields : List (JsString × Option JsValue)) :
    ((defined fields).map Prod.fst).Sublist (fields.map Prod.fst) := by
  induction fields with
  | nil => exact List.Sublist.refl _
  | cons f fields ih =>
      unfold defined at ih ⊢
      rw [List.map_cons]
      cases hf : f.2 with
      | none =>
          rw [List.filterMap_cons_none (by rw [hf]; rfl)]
          exact ih.cons f.1
      | some v =>
          simp only [List.filterMap_cons, hf, Option.map_some, List.map_cons]
          exact ih.cons_cons f.1

theorem nodup_fields (st : PlayerState) : ((js "playerId") :: st.fields.map Prod.fst).Nodup := by
  have hsub := (keys_defined [(js "position", st.position), (js "rotation", st.rotation),
    (js "basicState", st.basicState), (js "timestamp", st.timestamp)]).cons_cons (js "playerId")
  refine hsub.nodup ?_
  simp only [List.map_cons, List.map_nil]
  decide

theorem nodup_data (e : ServerEvent) : (e.data.map Prod.fst).Nodup := by
  cases e with
  | playerState p st => exact nodup_fields st
  | _ =>
      simp only [ServerEvent.data, List.map_cons, List.map_nil]
      decide

/-- The client finds in the data of an event what the server has put there. -/
theorem lookup_dataOf (e : ServerEvent) (h : Wire.Plain (.obj e.data)) (k : JsString)
    (hk : Wire.isWellFormed k = true) :
    (dataOf e).lookup (Wire.utf8 k) = (e.data.lookup k).map Wire.clientOf :=
  Wire.lookup_clientOf e.data h (nodup_data e) k hk

/-- Two objects that agree on what is read of a state are the same state. -/
theorem fromJson_congr (o o' : ClientObject)
    (h : ∀ k ∈ [js "position", js "rotation", js "basicState", js "timestamp"],
      o.lookup (Wire.utf8 k) = o'.lookup (Wire.utf8 k)) : fromJson o = fromJson o' := by
  have hposition : o.lookup (ascii "position") = o'.lookup (ascii "position") :=
    h (js "position") (by decide)
  have hrotation : o.lookup (ascii "rotation") = o'.lookup (ascii "rotation") :=
    h (js "rotation") (by decide)
  have hbasic : o.lookup (ascii "basicState") = o'.lookup (ascii "basicState") :=
    h (js "basicState") (by decide)
  have htime : o.lookup (ascii "timestamp") = o'.lookup (ascii "timestamp") :=
    h (js "timestamp") (by decide)
  unfold fromJson objectAt ClientObject.numberAt
  rw [hposition, hrotation, hbasic, htime]

/-- The player id in front of a state is not read with it. -/
theorem fromJson_dataOf (p : PlayerId) (st : PlayerState)
    (h : Wire.Plain (.obj (ServerEvent.playerState p st).data)) :
    fromJson (dataOf (.playerState p st)) = networkOf st := by
  have hfields : Wire.Plain (.obj st.fields) := by
    rw [Wire.Plain, Json.everywhere_obj] at h ⊢
    exact ⟨trivial, fun e he => h.2 e (List.mem_cons_of_mem _ he)⟩
  refine fromJson_congr _ _ (fun k hk => ?_)
  have hwell : Wire.isWellFormed k = true := by
    revert k
    decide
  have hne : k ≠ js "playerId" := by
    revert k
    decide
  rw [lookup_dataOf _ h k hwell, Wire.lookup_clientOf st.fields hfields
    (List.nodup_cons.mp (nodup_fields st)).2 k hwell]
  unfold ServerEvent.data
  rw [List.lookup_cons, beq_eq_false_iff_ne.mpr hne]

end Data

section Handlers

/-- The entities but for the local player. -/
def remote (r : Replication) (id : Bytes) : Option Entity :=
  if id = r.localPlayerId then none else r.entities id

/-- An update of the directory, made to the entities. The local player stays as
    it is, and so does the sender. -/
structure Follows (w : Update PlayerId Known) (r r' : Replication) : Prop where
  remote : ∃ v, Matches wireId entityOf w v ∧ remote r' = apply (remote r) v
  self : r'.entities r.localPlayerId = r.entities r.localPlayerId
  localId : r'.localPlayerId = r.localPlayerId
  sent : r'.sent = r.sent
  dirty : r'.localStateDirty = r.localStateDirty

/-- Writing an entity that is not the local player. -/
theorem remote_update (r r' : Replication) (id : Bytes) (b : Option Entity)
    (hid : id ≠ r.localPlayerId) (hlocal : r'.localPlayerId = r.localPlayerId)
    (hentities : r'.entities = Function.update r.entities id b) :
    remote r' = Function.update (remote r) id b := by
  funext k
  unfold remote
  rw [hlocal, hentities]
  by_cases hk : k = id
  · rw [hk, Function.update_self, Function.update_self, if_neg hid]
  · rw [Function.update_of_ne hk, Function.update_of_ne hk]

theorem getPlayer_eq (r : Replication) (id : Bytes) : r.getPlayer id = r.entities id := by
  unfold Replication.getPlayer
  cases r.entities id with
  | none => rfl
  | some e =>
      simp only [Option.filter_some, decide_true, if_true]

theorem remote_of_ne (r : Replication) (id : Bytes) (h : id ≠ r.localPlayerId) :
    remote r id = r.entities id := if_neg h

variable (r : Replication) (p : PlayerId) (data : ClientObject)
  (hid : Replication.playerIdOf data = some (wireId p)) (hne : wireId p ≠ [])
  (hlocal : wireId p ≠ r.localPlayerId)

include hid hne hlocal

/-- Somebody joins. -/
theorem follows_onPlayerJoined (name : JsValue)
    (hname : data.stringAt (ascii "displayName") [] = (Wire.clientOf name).asString []) :
    Follows ⟨p, fun b => some (b.getD ⟨name, none⟩)⟩ r (r.onPlayerJoined data) := by
  have hmatch : Matches wireId entityOf
      (⟨p, fun b => some (b.getD ⟨name, none⟩)⟩ : Update PlayerId Known)
      ⟨wireId p, fun b => some (b.getD (entityOf p ⟨name, none⟩))⟩ :=
    ⟨rfl, fun b => by cases b <;> rfl⟩
  have hcond : ¬ (wireId p = [] ∨ wireId p = r.localPlayerId ∨ r.contains (wireId p) = true) ↔
      r.entities (wireId p) = none := by
    rw [or_iff_right hne, or_iff_right hlocal, Replication.contains,
      ← Option.not_isSome_iff_eq_none]
  unfold Replication.onPlayerJoined
  simp only [hid]
  cases hb : r.entities (wireId p) with
  | none =>
      rw [if_neg (hcond.mpr hb), hname]
      refine ⟨⟨_, hmatch, ?_⟩, Function.update_of_ne (Ne.symm hlocal) _ _, rfl, rfl, rfl⟩
      refine Eq.trans (remote_update r _ (wireId p) _ hlocal ?_ rfl) ?_
      · rfl
      unfold apply
      rw [remote_of_ne r (wireId p) hlocal, hb]
      rfl
  -- Whoever is known stays as it is.
  | some e =>
      have hknown : wireId p = [] ∨ wireId p = r.localPlayerId ∨ r.contains (wireId p) = true :=
        not_not.mp (fun h => Option.some_ne_none e (hb.symm.trans (hcond.mp h)))
      rw [if_pos hknown]
      refine ⟨⟨_, hmatch, ?_⟩, rfl, rfl, rfl, rfl⟩
      unfold apply
      rw [remote_of_ne r (wireId p) hlocal, hb]
      refine (Function.update_eq_self_iff.mpr ?_).symm
      rw [remote_of_ne r (wireId p) hlocal, hb]
      rfl

/-- Somebody leaves. -/
theorem follows_onPlayerLeft : Follows ⟨p, fun _ => none⟩ r (r.onPlayerLeft data) := by
  unfold Replication.onPlayerLeft
  simp only [hid, hne, if_false]
  refine ⟨⟨⟨wireId p, fun _ => none⟩, ⟨rfl, fun _ => rfl⟩, ?_⟩,
    Function.update_of_ne (Ne.symm hlocal) _ _, rfl, rfl, rfl⟩
  exact remote_update r _ (wireId p) none hlocal rfl rfl

/-- Somebody moves. -/
theorem follows_onPlayerState (st : PlayerState) (nowMs : Int)
    (hst : fromJson data = networkOf st) :
    Follows ⟨p, fun b => some { b.getD ⟨.str [], none⟩ with last := some st }⟩ r
      (r.onPlayerState data nowMs) := by
  have hentity : ∀ k : Known, entityOf p { k with last := some st } = { entityOf p k with
      position := (networkOf st).position
      rotation := (networkOf st).rotation
      basicState := (networkOf st).basicState } := by
    intro k
    unfold entityOf
    cases k.last <;> rfl
  have hmatch : Matches wireId entityOf
      (⟨p, fun b => some { b.getD ⟨.str [], none⟩ with last := some st }⟩ :
        Update PlayerId Known)
      ⟨wireId p, fun b => some { b.getD (Entity.newPlayer (wireId p) [] false) with
        position := (networkOf st).position
        rotation := (networkOf st).rotation
        basicState := (networkOf st).basicState }⟩ := by
    refine ⟨rfl, fun b => ?_⟩
    simp only [Option.map_some, hentity]
    cases b <;> rfl
  unfold Replication.onPlayerState Replication.getOrCreatePlayer
  simp only [hid, hne, hlocal, false_or, if_false, hst, getPlayer_eq]
  cases hb : r.entities (wireId p) with
  | some e =>
      refine ⟨⟨_, hmatch, ?_⟩, Function.update_of_ne (Ne.symm hlocal) _ _, rfl, rfl, rfl⟩
      refine Eq.trans (remote_update r _ (wireId p) _ hlocal ?_ rfl) ?_
      · rfl
      unfold apply
      rw [remote_of_ne r (wireId p) hlocal, hb]
      rfl
  -- A player that has not been introduced is created without a name.
  | none =>
      refine ⟨⟨_, hmatch, ?_⟩, ?_, rfl, rfl, rfl⟩
      · refine Eq.trans (remote_update r _ (wireId p) _ hlocal ?_ (Function.update_idem _ _ _)) ?_
        · rfl
        unfold apply
        rw [remote_of_ne r (wireId p) hlocal, hb]
        rfl
      · exact (Function.update_of_ne (Ne.symm hlocal) _ _).trans
          (Function.update_of_ne (Ne.symm hlocal) _ _)

end Handlers

section Messages

/-- The player id that the handlers read. -/
theorem playerIdOf_dataOf (e : ServerEvent) (h : Wire.Plain (.obj e.data)) (p : PlayerId)
    (hp : e.data.lookup (js "playerId") = some p) :
    Replication.playerIdOf (dataOf e) = some (wireId p) := by
  have hfound := lookup_dataOf e h (js "playerId") (by decide)
  rw [hp] at hfound
  unfold Replication.playerIdOf
  rw [show ascii "playerId" = Wire.utf8 (js "playerId") from by decide, hfound]
  rfl

theorem plain_data (e : ServerEvent) (h : (ServerMessage.event e).wire.Plain) :
    Wire.Plain (.obj e.data) := by
  have hp := h.2
  rw [Wire.Plain, Json.everywhere_obj] at hp
  exact (hp.2 (js "data", .obj e.data) (List.mem_cons_of_mem _ (List.mem_singleton.mpr rfl))).2

/-- An event is published under its type, with its data. -/
theorem onMessage_event (r : Replication) (e : ServerEvent) (nowMs : Int)
    (h : (ServerMessage.event e).wire.Plain) :
    r.onMessage (callOf (ServerMessage.event e).wire) nowMs
      = publish Replication.replicationHandlers (Wire.utf8 e.eventType) (dataOf e) nowMs r := by
  unfold Replication.onMessage
  rw [eventOf_event e h]

/-- A message that changes nothing in the directory changes no entity. -/
theorem onMessage_of_none (r : Replication) (m : ServerMessage) (nowMs : Int)
    (h : m.wire.Plain) (hm : m.update = none) : r.onMessage (callOf m.wire) nowMs = r := by
  cases m with
  | event e =>
      rw [onMessage_event r e nowMs h]
      cases e with
      | playerReady p name => rfl
      | playerJoined p name => exact absurd hm (Option.some_ne_none _)
      | playerLeft p => exact absurd hm (Option.some_ne_none _)
      | playerState p st => exact absurd hm (Option.some_ne_none _)
  | _ =>
      unfold Replication.onMessage
      rw [eventOf_other _ (fun e => ServerMessage.noConfusion)]

/-- What a message does to the entities. -/
theorem follows_onMessage (r : Replication) (m : ServerMessage) (nowMs : Int) (h : m.wire.Plain)
    (w : Update PlayerId Known) (hm : m.update = some w) (hne : wireId w.key ≠ [])
    (hlocal : wireId w.key ≠ r.localPlayerId) :
    Follows w r (r.onMessage (callOf m.wire) nowMs) := by
  cases m with
  | event e =>
      have hplain := plain_data e h
      rw [onMessage_event r e nowMs h]
      cases e with
      | playerJoined p name =>
          rw [← Option.some.inj hm] at hne hlocal ⊢
          refine follows_onPlayerJoined r p _ (playerIdOf_dataOf _ hplain p rfl) hne hlocal name ?_
          unfold ClientObject.stringAt
          rw [show ascii "displayName" = Wire.utf8 (js "displayName") from by decide,
            lookup_dataOf _ hplain (js "displayName") (by decide)]
          rfl
      | playerLeft p =>
          rw [← Option.some.inj hm] at hne hlocal ⊢
          exact follows_onPlayerLeft r p _ (playerIdOf_dataOf _ hplain p rfl) hne hlocal
      | playerState p st =>
          rw [← Option.some.inj hm] at hne hlocal ⊢
          exact follows_onPlayerState r p _ (playerIdOf_dataOf _ hplain p rfl) hne hlocal st nowMs
            (fromJson_dataOf p st hplain)
      | playerReady p name => exact absurd hm (Option.some_ne_none w).symm
  | _ => exact absurd hm (Option.some_ne_none w).symm

end Messages

section Calls

/-- The local player is there, under its id and its name. -/
structure Own (own name : Bytes) (r : Replication) : Prop where
  localId : r.localPlayerId = own
  player : ∃ e, r.entities own = some e ∧ e.id = own ∧ e.displayName = name ∧ e.isLocal = true

/-- Nobody else is touched. -/
structure Apart (r r' : Replication) : Prop where
  remote : remote r' = remote r
  own : ∀ own name, Own own name r → Own own name r'

/-- Writing the local player. -/
theorem apart_write (r r' : Replication) (e e' : Entity) (he : r.getPlayer r.localPlayerId = some e)
    (hkept : e'.id = e.id ∧ e'.displayName = e.displayName ∧ e'.isLocal = e.isLocal)
    (hlocal : r'.localPlayerId = r.localPlayerId)
    (hentities : r'.entities = Function.update r.entities r.localPlayerId (some e')) :
    Apart r r' where
  remote := by
    funext k
    unfold remote
    rw [hlocal]
    by_cases hk : k = r.localPlayerId
    · rw [if_pos hk, if_pos hk]
    · rw [if_neg hk, if_neg hk, hentities, Function.update_of_ne hk]
  own := by
    rintro own name ⟨rfl, e₀, he₀, hid, hname, hlocalPlayer⟩
    rw [getPlayer_eq, he₀] at he
    cases he
    refine ⟨hlocal, e', ?_, hkept.1.trans hid, hkept.2.1.trans hname,
      hkept.2.2.trans hlocalPlayer⟩
    rw [hentities, Function.update_self]

theorem Apart.refl (r : Replication) : Apart r r := ⟨rfl, fun _ _ h => h⟩

/-- What the game does is done to the local player. -/
theorem apart_clientStep (r : Replication) (c : ClientCall) (hc : c.received = none) :
    Apart r (r.clientStep c) := by
  cases c with
  | message m nowMs => exact absurd hc (Option.some_ne_none m)
  | setLocalPosition position =>
      change Apart r (r.setLocalPosition position)
      unfold Replication.setLocalPosition
      cases he : r.getPlayer r.localPlayerId with
      | none => exact Apart.refl r
      | some e =>
          exact apart_write r _ e { e with position := position } he ⟨rfl, rfl, rfl⟩ rfl rfl
  | setLocalRotation rotation =>
      change Apart r (r.setLocalRotation rotation)
      unfold Replication.setLocalRotation
      cases he : r.getPlayer r.localPlayerId with
      | none => exact Apart.refl r
      | some e =>
          exact apart_write r _ e { e with rotation := rotation } he ⟨rfl, rfl, rfl⟩ rfl rfl
  | tick nowMs =>
      change Apart r (r.tick nowMs)
      unfold Replication.tick
      split
      · exact Apart.refl r
      · split
        · exact Apart.refl r
        · cases r.getPlayer r.localPlayerId with
          | none => exact Apart.refl r
          | some e => exact ⟨rfl, fun own name h => ⟨h.localId, h.player⟩⟩

/-- The keys that have their own bytes. -/
def Keys : Set PlayerId := {p | ∃ q, p = .str q ∧ Wire.isWellFormed q = true}

theorem wireId_injOn : Set.InjOn wireId Keys := by
  rintro _ ⟨q, rfl, hq⟩ _ ⟨q', rfl, hq'⟩ h
  exact congrArg Json.str (Wire.utf8_injective q q' hq hq' h)

/-- A client that has received some messages, and whose game has moved its
    player in between. It is started, and so subscribed, before the first of
    them: what is handled earlier than that never gets to it. -/
def clientAfter (own name : Bytes) (syncIntervalMs interpolationDurationMs : Int)
    (calls : List ClientCall) : Replication :=
  calls.foldl Replication.clientStep
    (Replication.new own name syncIntervalMs interpolationDurationMs).start

/-- What a message has to be to reach the entities of others. -/
structure Reaches (own : Bytes) (m : ServerMessage) : Prop where
  plain : m.wire.Plain
  key : ∀ w, m.update = some w → w.key ∈ Keys ∧ wireId w.key ≠ [] ∧ wireId w.key ≠ own

/-- What holds along the messages that are handled and the calls in between. -/
theorem calls_induction (P : List ServerMessage → Replication → Prop) (calls : List ClientCall)
    (ms : List ServerMessage) (r : Replication)
    (hms : calls.filterMap ClientCall.received = (ms.map ServerMessage.wire).map callOf)
    (hstart : P [] r)
    (hlocal : ∀ c ∈ calls, c.received = none → ∀ ms r, P ms r → P ms (r.clientStep c))
    (hmessage : ∀ m ∈ ms, ∀ nowMs ms r, P ms r →
      P (ms ++ [m]) (r.onMessage (callOf m.wire) nowMs)) :
    P ms (calls.foldl Replication.clientStep r) := by
  induction calls using List.reverseRecOn generalizing ms with
  | nil =>
      rw [List.filterMap_nil] at hms
      rw [List.map_eq_nil_iff.mp (List.map_eq_nil_iff.mp hms.symm)]
      exact hstart
  | append_singleton calls c ih =>
      rw [List.filterMap_append] at hms
      rw [List.foldl_append, List.foldl_cons, List.foldl_nil]
      have hbefore : ∀ c' ∈ calls, c'.received = none → ∀ ms r, P ms r → P ms (r.clientStep c') :=
        fun c' hc' => hlocal c' (List.mem_append_left _ hc')
      cases hc : c.received with
      | none =>
          rw [List.filterMap_cons_none hc, List.filterMap_nil, List.append_nil] at hms
          exact hlocal c (List.mem_append_right _ List.mem_cons_self) hc _ _
            (ih ms hms hbefore hmessage)
      -- The call that was handled last is that of the last message.
      | some call =>
          rw [List.filterMap_cons_some hc, List.filterMap_nil, List.map_map] at hms
          rcases List.map_eq_append_iff.mp hms.symm with ⟨ms', last, rfl, hms', hlast⟩
          rcases List.map_eq_singleton_iff.mp hlast with ⟨m, rfl, hm⟩
          have hrest := ih ms' (by rw [← hms', List.map_map]) hbefore
            (fun m' hm' => hmessage m' (List.mem_append_left _ hm'))
          cases c with
          | message message nowMs =>
              cases hc
              rw [← hm]
              exact hmessage m (List.mem_append_right _ List.mem_cons_self) nowMs _ _ hrest
          | setLocalPosition _ => exact absurd hc (Option.some_ne_none call).symm
          | setLocalRotation _ => exact absurd hc (Option.some_ne_none call).symm
          | tick _ => exact absurd hc (Option.some_ne_none call).symm

/-- A message keeps the picture. -/
theorem pictures_onMessage (own name : Bytes) (r : Replication) (ms : List ServerMessage)
    (m : ServerMessage) (nowMs : Int) (hm : Reaches own m)
    (h : Pictures Keys wireId entityOf (knows ms) (remote r) ∧ Own own name r) :
    Pictures Keys wireId entityOf (knows (ms ++ [m]))
      (remote (r.onMessage (callOf m.wire) nowMs)) ∧
    Own own name (r.onMessage (callOf m.wire) nowMs) := by
  rcases h with ⟨hpictures, hown⟩
  have hknows : knows (ms ++ [m]) = m.update.elim (knows ms) (apply (knows ms)) := by
    unfold knows
    rw [List.filterMap_append, List.foldl_append, List.filterMap_cons]
    cases m.update <;> rfl
  rw [hknows]
  cases hw : m.update with
  | none =>
      rw [onMessage_of_none r m nowMs hm.plain hw]
      exact ⟨hpictures, hown⟩
  | some w =>
      rcases hm.key w hw with ⟨hkey, hne, hlocal⟩
      have hf := follows_onMessage r m nowMs hm.plain w hw hne
        (fun h => hlocal (h.trans hown.localId))
      rcases hf.remote with ⟨v, hmatch, hv⟩
      refine ⟨?_, hf.localId.trans hown.localId, ?_⟩
      · rw [hv]
        exact pictures_apply wireId_injOn hpictures hkey hmatch
      · rw [← hown.localId, hf.self, hown.localId]
        exact hown.player

/-- The entities are the picture of the directory. -/
theorem pictures_clientAfter (own name : Bytes) (syncIntervalMs interpolationDurationMs : Int)
    (calls : List ClientCall) (ms : List ServerMessage)
    (hms : calls.filterMap ClientCall.received = (ms.map ServerMessage.wire).map callOf)
    (hreach : ∀ m ∈ ms, Reaches own m) :
    Pictures Keys wireId entityOf (knows ms)
      (remote (clientAfter own name syncIntervalMs interpolationDurationMs calls)) ∧
    Own own name (clientAfter own name syncIntervalMs interpolationDurationMs calls) := by
  refine calls_induction (fun ms r => Pictures Keys wireId entityOf (knows ms) (remote r) ∧
    Own own name r) calls ms _ hms ⟨?_, rfl, _, Function.update_self _ _ _, rfl, rfl, rfl⟩
    (fun c _ hc ms r h => ?_)
    (fun m hm nowMs ms r h => pictures_onMessage own name r ms m nowMs (hreach m hm) h)
  · have hstart : remote (Replication.new own name syncIntervalMs interpolationDurationMs).start
        = fun _ => none := by
      funext k
      unfold remote
      by_cases hk : k = own
      · exact if_pos hk
      · exact (if_neg hk).trans (Function.update_of_ne hk _ _)
    rw [hstart]
    exact pictures_empty
  · have hapart := apart_clientStep r c hc
    exact ⟨hapart.remote ▸ h.1, hapart.own own name h.2⟩

end Calls

section Runs

variable (host : Host) (es : List Event) (s : SessionId)

/-- Who is known has been heard of. -/
theorem subject_of_knows (ms : List ServerMessage) (p : PlayerId) (k : Known)
    (h : knows ms p = some k) : ∃ m ∈ ms, ∃ w, m.update = some w ∧ w.key = p := by
  induction ms using List.reverseRecOn generalizing k with
  | nil => exact absurd h (Option.some_ne_none k).symm
  | append_singleton ms m ih =>
      by_cases hm : ∃ w, m.update = some w ∧ w.key = p
      · exact ⟨m, List.mem_append_right _ List.mem_cons_self, hm⟩
      · rw [knows_concat, heard_of_ne p m _ (fun w hw hk => hm ⟨w, hw, hk⟩)] at h
        rcases ih k h with ⟨m', hm', hw⟩
        exact ⟨m', List.mem_append_left _ hm', hw⟩

/-- Every message about somebody has its player id in its data. -/
theorem lookup_key (m : ServerMessage) (w : Update PlayerId Known) (h : m.update = some w) :
    ∃ e, m = .event e ∧ e.data.lookup (js "playerId") = some w.key := by
  cases m with
  | event e =>
      refine ⟨e, rfl, ?_⟩
      cases e with
      | playerReady p name => exact absurd h (Option.some_ne_none w).symm
      | playerJoined p name =>
          rw [← Option.some.inj h]
          rfl
      | playerLeft p =>
          rw [← Option.some.inj h]
          rfl
      | playerState p st =>
          rw [← Option.some.inj h]
          rfl
  | _ => exact absurd h (Option.some_ne_none w).symm

theorem wellFormed_of_mem (fields : List (JsString × JsValue)) (h : Wire.Plain (.obj fields))
    (k q : JsString) (hf : (k, Json.str q) ∈ fields) : Wire.isWellFormed q = true := by
  rw [Wire.Plain, Json.everywhere_obj] at h
  exact (h.2 _ hf).2

/-- What is sent to a session in a fair run can reach the entities of others. -/
theorem reaches_run (h : FairRun host es) (hnamed : ∀ e ∈ es, e.Named)
    (hs : (es.foldl (step host) TcpServer.init).authenticated s = true)
    (hplain : ∀ m ∈ (es.foldl (step host) TcpServer.init).received s, m.wire.Plain) :
    ∀ m ∈ (es.foldl (step host) TcpServer.init).received s,
      Reaches (wireId ((es.foldl (step host) TcpServer.init).playerId s)) m := by
  have hissued := (directory_run host es h).issued
  have htexts := texts_run host es hnamed
  intro m hm
  refine ⟨hplain m hm, fun w hw => ?_⟩
  have hsubject : m.subject = some w.key := by
    unfold ServerMessage.subject
    rw [hw, Option.map_some]
  -- The id has been issued to somebody else, so it is a text.
  rcases foreign_run host es s m w.key hm hsubject with ⟨t, _, r, hr, hrw⟩
  rcases htexts t r hr with ⟨q, hq, hne⟩
  rw [hrw] at hq
  rcases lookup_key m w hw with ⟨e, rfl, hlookup⟩
  rw [hq] at hlookup
  have hmem : (js "playerId", Json.str q) ∈ e.data := by
    rcases List.lookup_eq_some_iff.mp hlookup with ⟨pre, post, hdata, _⟩
    rw [hdata]
    exact List.mem_append_right pre List.mem_cons_self
  have hwell := wellFormed_of_mem e.data (plain_data e (hplain _ hm)) _ q hmem
  have hkey : w.key ∈ Keys := ⟨q, hq, hwell⟩
  refine ⟨hkey, ?_, ?_⟩
  · rw [hq]
    exact fun hnil => hne (Wire.utf8_injective q [] hwell rfl hnil)
  -- The session's own id is in the result it was sent.
  · rcases hissued s hs with ⟨r', hr', hrs⟩
    rcases htexts s r' hr' with ⟨q', hq', _⟩
    have hown : (es.foldl (step host) TcpServer.init).playerId s ∈ Keys := by
      refine ⟨q', hrs.symm.trans hq', wellFormed_of_mem _ (hplain _ hr').2 (js "playerId") q' ?_⟩
      rw [← hq']
      exact List.mem_cons_of_mem _ List.mem_cons_self
    intro hsame
    exact subject_ne _ (foreign_run host es) hissued h.distinct s hs _ hm
      (hsubject.trans (congrArg some (wireId_injOn hkey hown hsame)))

/-- A client has received everything its session was sent, in chunks of any
    size, and has handled it with calls of its own in between. Everything that
    was sent is such that it is read as it was written. -/
structure Received (fmt : NumberFormat) (srv : TcpServer) (s : SessionId)
    (calls : List ClientCall) : Prop where
  plain : ∀ m ∈ srv.received s, m.wire.Plain
  chunks : ∃ chunks : List Bytes, (∀ c ∈ chunks, c ≠ []) ∧
    chunks.flatten = Wire.utf8 ((srv.received s).flatMap (ServerMessage.line fmt)) ∧
    calls.filterMap ClientCall.received = ((Wire.Reader.start true).readerLoop chunks).calls

theorem Received.calls {fmt : NumberFormat} {srv : TcpServer} {s : SessionId}
    {calls : List ClientCall} (h : Received fmt srv s calls) :
    calls.filterMap ClientCall.received
      = ((srv.received s).map ServerMessage.wire).map callOf := by
  rcases h.chunks with ⟨chunks, hne, hcut, hcalls⟩
  have hlines : (srv.received s).flatMap (ServerMessage.line fmt)
      = ((srv.received s).map ServerMessage.wire).flatMap (Wire.Message.encode fmt) :=
    (List.flatMap_map ServerMessage.wire (Wire.Message.encode fmt) _).symm
  rw [hcalls]
  refine calls_readerLoop fmt _ (fun m hm => ?_) chunks hne
    (hcut.trans (congrArg Wire.utf8 hlines))
  rcases List.mem_map.mp hm with ⟨m', hm', rfl⟩
  exact h.plain m' hm'

/-- A call of the game's own can come first. -/
theorem Received.cons {fmt : NumberFormat} {srv : TcpServer} {s : SessionId}
    {calls : List ClientCall} (h : Received fmt srv s calls) (c : ClientCall)
    (hc : c.received = none) : Received fmt srv s (c :: calls) where
  plain := h.plain
  chunks := by
    rw [List.filterMap_cons_none hc]
    exact h.chunks

variable (srv : TcpServer) (hrun : es.foldl (step host) TcpServer.init = srv)
  (h : FairRun host es) (hnamed : ∀ e ∈ es, e.Named)

include hrun h hnamed

/-- The entities of a client are the picture of what it was told, and it has its
    own player. -/
theorem pictures_run (hs : srv.Present s) (calls : List ClientCall)
    (hreceived : Received host.fmt srv s calls) (name : Bytes)
    (syncIntervalMs interpolationDurationMs : Int) :
    (∀ m ∈ srv.received s, Reaches (wireId (srv.playerId s)) m) ∧
    Pictures Keys wireId entityOf (knows (srv.received s)) (remote (clientAfter
      (wireId (srv.playerId s)) name syncIntervalMs interpolationDurationMs calls)) ∧
    Own (wireId (srv.playerId s)) name (clientAfter (wireId (srv.playerId s)) name
      syncIntervalMs interpolationDurationMs calls) := by
  subst hrun
  have hreach := reaches_run host es s h hnamed hs.2 hreceived.plain
  exact ⟨hreach, pictures_clientAfter _ name syncIntervalMs interpolationDurationMs calls _
    hreceived.calls hreach⟩

/-- Whoever else is present has an entity, and not the local one. -/
theorem entity_run (hs : srv.Present s) (calls : List ClientCall)
    (hreceived : Received host.fmt srv s calls) (name : Bytes)
    (syncIntervalMs interpolationDurationMs : Int) (t : SessionId) (ht : srv.Present t)
    (hts : t ≠ s) :
    wireId (srv.playerId t) ≠ wireId (srv.playerId s) ∧
    (clientAfter (wireId (srv.playerId s)) name syncIntervalMs interpolationDurationMs
      calls).entities (wireId (srv.playerId t))
      = some (entityOf (srv.playerId t) ⟨srv.displayName t, srv.lastState t⟩) := by
  rcases pictures_run host es s srv hrun h hnamed hs calls hreceived name syncIntervalMs
    interpolationDurationMs with ⟨hreach, hpictures, hown⟩
  have htold := (directory_run host es h).told s (hrun.symm ▸ hs)
  rw [hrun] at htold
  have hk := (htold _ _).mpr ⟨t, ht, hts, rfl, rfl⟩
  rcases subject_of_knows _ _ _ hk with ⟨m, hm, w, hw, hkey⟩
  rcases (hreach m hm).key w hw with ⟨hkeys, _, hother⟩
  rw [hkey] at hkeys hother
  refine ⟨hother, ?_⟩
  rw [← remote_of_ne _ _ (fun heq => hother (heq.trans hown.localId)), hpictures.entry _ hkeys, hk]
  rfl

/-- A client that has received everything it was sent in a fair run has its
    own player and, for every other session that is present, exactly one
    entity with the name the server has given it and the last state the server
    has of it. The players are named by texts that are not empty (`hnamed`),
    all that was sent is well-formed with integers below 2^53 (`Received`), and
    the client is subscribed before its first message (`clientAfter`). -/
theorem mirror_run (hs : srv.Present s) (calls : List ClientCall)
    (hreceived : Received host.fmt srv s calls) (name : Bytes)
    (syncIntervalMs interpolationDurationMs : Int) :
    Own (wireId (srv.playerId s)) name (clientAfter (wireId (srv.playerId s)) name
      syncIntervalMs interpolationDurationMs calls) ∧
    ∀ id, id ≠ wireId (srv.playerId s) → ∀ e,
      (clientAfter (wireId (srv.playerId s)) name syncIntervalMs interpolationDurationMs
        calls).entities id = some e ↔
      ∃ t, srv.Present t ∧ t ≠ s ∧ wireId (srv.playerId t) = id ∧
        e = entityOf (srv.playerId t) ⟨srv.displayName t, srv.lastState t⟩ := by
  rcases pictures_run host es s srv hrun h hnamed hs calls hreceived name syncIntervalMs
    interpolationDurationMs with ⟨_, hpictures, hown⟩
  refine ⟨hown, fun id hid e => ⟨fun he => ?_, ?_⟩⟩
  · rw [← remote_of_ne _ id (fun heq => hid (heq.trans hown.localId)),
      hpictures.eq_some_iff] at he
    rcases he with ⟨p, _, hp, k, hk, hke⟩
    have htold := (directory_run host es h).told s (hrun.symm ▸ hs)
    rw [hrun] at htold
    rcases (htold p k).mp hk with ⟨t, ht, hts, rfl, rfl⟩
    exact ⟨t, ht, hts, hp, hke.symm⟩
  · rintro ⟨t, ht, hts, rfl, rfl⟩
    exact (entity_run host es s srv hrun h hnamed hs calls hreceived name syncIntervalMs
      interpolationDurationMs t ht hts).2

end Runs

section Mover

/-- Where a client has moved its player, as the server has it. -/
def movedPayload : JsValue := .obj
  [(js "basicState", .obj []),
    (js "position", .obj [(js "x", .num (.finite 5)), (js "y", .num (.finite 6)),
      (js "z", .num (.finite 7))]),
    (js "rotation", .obj [(js "pitch", .num (.finite 0)), (js "roll", .num (.finite 0)),
      (js "yaw", .num (.finite 0))]),
    (js "timestamp", .num (.finite 1000))]

/-- A client moves its player, and another one arrives. -/
def moverRun : List Event :=
  arrive (js "s1") (js "aaaaaaaa")
    ++ .message (js "s1") .playerState (some movedPayload) ⟨0, [], [], []⟩
      :: arrive (js "s2") (js "bbbbbbbb")

/-- The server after that. -/
def afterMover : TcpServer := moverRun.foldl (step (Host.shipped (fun _ => []))) TcpServer.init

theorem distinct_afterMover : afterMover.Distinct := by
  have hissued : ∀ s r, (s, .authResult r) ∈ afterMover.log →
      (s = js "s1" ∧ r.playerId = .str (js "aaaaaaaa")) ∨
        (s = js "s2" ∧ r.playerId = .str (js "bbbbbbbb")) := by
    intro s r h
    have hmem : (s, r) ∈ afterMover.log.filterMap (fun call =>
        match call.2 with
        | .authResult r => some (call.1, r)
        | _ => none) :=
      List.mem_filterMap.mpr ⟨_, h, rfl⟩
    rcases List.mem_cons.mp hmem with heq | hmem
    · rw [(Prod.mk.inj heq).1, (Prod.mk.inj heq).2]
      exact Or.inl ⟨rfl, rfl⟩
    · have heq := List.mem_singleton.mp hmem
      rw [(Prod.mk.inj heq).1, (Prod.mk.inj heq).2]
      exact Or.inr ⟨rfl, rfl⟩
  intro s t r r' hs ht heq
  rcases hissued s r hs with ⟨rfl, hr⟩ | ⟨rfl, hr⟩ <;>
    rcases hissued t r' ht with ⟨rfl, hr'⟩ | ⟨rfl, hr'⟩
  · rfl
  · exact absurd (Json.str.inj (hr.symm.trans (heq.trans hr'))) (by decide)
  · exact absurd (Json.str.inj (hr.symm.trans (heq.trans hr'))) (by decide)
  · rfl

theorem fairRun_mover : FairRun (Host.shipped (fun _ => [])) moverRun where
  once := by
    unfold AuthsOnce
    decide
  distinct := distinct_afterMover
  inside := by decide

theorem named_moverRun : ∀ e ∈ moverRun, e.Named := by
  have hauth : ∀ u clientId : JsString, isIdText clientId = true → clientId ≠ [] →
      ∀ e ∈ arrive u clientId, e.Named := by
    intro u clientId htext hne e he
    simp only [arrive, List.mem_cons, List.not_mem_nil, or_false] at he
    rcases he with rfl | rfl | rfl
    · trivial
    · trivial
    · intro fmt p hp
      have htruthy : JsValue.truthy (.str clientId) = true := by
        cases clientId with
        | nil => exact absurd rfl hne
        | cons _ _ => rfl
      refine ⟨clientId, ?_, hne⟩
      change (if JsValue.truthy (.str clientId) then _ else _) = some p at hp
      rw [if_pos htruthy, JsValue.toText, Option.map_some, if_pos htext] at hp
      exact (Option.some.inj hp).symm
  intro e he
  rcases List.mem_append.mp he with he | he
  · exact hauth _ _ (by decide) (by decide) e he
  · rcases List.mem_cons.mp he with rfl | he
    · trivial
    · exact hauth _ _ (by decide) (by decide) e he

/-- What reaches a client, in one piece. -/
def piece (s : SessionId) : List ClientCall :=
  ((Wire.Reader.start true).readerLoop [Wire.utf8 ((afterMover.received s).flatMap
    (ServerMessage.line (fun _ => [])))]).calls.map (fun m => .message m 0)

theorem received_piece (s : SessionId) (m : ServerMessage) (ms : List ServerMessage)
    (hplain : ∀ m ∈ afterMover.received s, m.wire.Plain)
    (hne : afterMover.received s = m :: ms) : Received (fun _ => []) afterMover s (piece s) where
  plain := hplain
  chunks := by
    refine ⟨_, List.forall_mem_singleton.mpr (fun h => ?_), List.append_nil _, ?_⟩
    · rw [hne] at h
      exact Option.some_ne_none (123 : UInt8) (congrArg List.head? h)
    · unfold piece
      rw [List.filterMap_map]
      exact List.filterMap_some

theorem received_first : Received (fun _ => []) afterMover (js "s1") (piece (js "s1")) :=
  received_piece _ _ _ (by decide) rfl

theorem received_second : Received (fun _ => []) afterMover (js "s2") (piece (js "s2")) :=
  received_piece _ _ _ (by decide) rfl

/-- The client that arrives has an entity for the one that has moved, under the
    name the server has made up and where it was last. -/
theorem mirror_run_mover : ∃ e, (clientAfter (wireId (afterMover.playerId (js "s2")))
      (ascii "me") 100 100 (piece (js "s2"))).entities (ascii "aaaaaaaa") = some e ∧
    e.displayName = ascii "Player-aaaaaaaa" ∧ e.position = ⟨5, 6, 7⟩ := by
  have hentity := (mirror_run (Host.shipped (fun _ => [])) moverRun (js "s2") afterMover
    rfl fairRun_mover named_moverRun (by decide) (piece (js "s2")) received_second
    (ascii "me") 100 100).2 (ascii "aaaaaaaa") (by decide)
  refine ⟨_, (hentity _).mpr ⟨js "s1", by decide, by decide, by decide, rfl⟩, ?_⟩
  decide

end Mover

end Server

end MzzPlork
