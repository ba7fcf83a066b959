import MzzPlork.Base.Run
import MzzPlork.Core.Link
import MzzPlork.Theory.Backed
import MzzPlork.Theory.Order
import MzzPlork.Theory.Standing

/-!
# What a Client Says of Its Server

A client and the server it is connected to agree on what has happened between
them, however slow the connection is, whatever others do meanwhile and whichever
thread comes to its turn when.

What a client reports to be so is so (`truthful_run`): a session it takes for
greeted, authenticated or ready is that on the server, under the very id the
client goes by, and a client that reports to have been kicked has been, for one
of three reasons.

The other direction is that the client does nothing the server would turn it
away for (`blameless_run`). It says its lines in order, so the server has come
to its `auth` whenever it comes to a line that needs a session.

## Main definitions

* `reasons`: What a client may be kicked for.
* `Meant`: A message that is true of the server.
* `Unclosed`: Nothing is written once the socket is closed.
* `Linked`: Both sides.
* `Truthful`, `Blameless`: What the two know of each other.

## Theorems

* `orderly_cases`: What the server comes to first.
* `linked_client`, `linked_foreign`, `linked_answer`: Steps of either side.
* `linked_line`: The server has no reason to turn a line away.
* `truthful_run`, `blameless_run`: All runs.
-/

namespace MzzPlork

namespace Link

open EventChannel Heartbeat Server MzzPlork.Runtime

/-- What the server says to a session whose socket was closed. -/
def closedKick : ServerMessage := .kick (.str (js "connection closed"))

/-- The reasons that have nothing to do with what the client says. -/
def reasons : List JsString :=
  [js "heartbeat timeout", js "server shutting down", js "kicked by admin"]

/-- A message to the session that is true of the server. -/
def Meant (u : SessionId) (w : System) (m : ServerMessage) : Prop :=
  match m with
  | .helloAck ok _ _ => ok = true ∧ ∃ st, w.srv.standing u = some st ∧ st.helloReceived = true
  | .authResult r => 2 ≤ w.handled ∧ ∃ st, w.srv.standing u = some st ∧ st.authenticated = true ∧
      st.playerId = r.playerId
  | .resourcesReadyAck => ∃ st, w.srv.standing u = some st ∧ st.resourcesReady = true
  | .kick reason => (∃ text ∈ reasons, reason = .str text) ∨
      reason = .str (js "connection closed") ∨
      reason = .str (js "client shutting down") ∧ w.client.disconnectRequested = true
  | .heartbeatAck _ | .resourceManifest _ _ | .event _ => True

/-- Nothing is written about the socket's having been closed. -/
def Unclosed (u : SessionId) (w : System) : Prop :=
  match w.closed with
  | some n => n ≤ (arriving w.srv u).length ∧ closedKick ∉ (arriving w.srv u).take n
  | none => (u, closedKick) ∉ w.srv.log

/-- Both sides. -/
structure Linked (u : SessionId) (script : Script) (w : System) : Prop where
  stage : Stage w.client
  backed : Backed (fun m => (u, m) ∈ w.srv.log) script w.client.disconnectRequested w.client
  hello : 1 ≤ w.handled → ∃ st, w.srv.standing u = some st ∧ st.helloReceived = true
  auth : 2 ≤ w.handled → ∃ st, w.srv.standing u = some st ∧ st.authenticated = true
  told : ∀ m, (u, m) ∈ w.srv.log → Meant u w m
  unclosed : Unclosed u w

section Streams

theorem upToKick_prefix (ms ms' : List ServerMessage) : upToKick ms <+: upToKick (ms ++ ms') := by
  induction ms with
  | nil => exact List.nil_prefix
  | cons m ms ih =>
      cases m with
      -- Nothing is written behind a kick.
      | kick reason => exact List.prefix_refl _
      | _ => exact (List.prefix_cons_inj _).mpr ih

theorem mem_of_upToKick {m : ServerMessage} {ms : List ServerMessage} (h : m ∈ upToKick ms) :
    m ∈ ms := by
  induction ms with
  | nil => exact h
  | cons m' ms ih =>
      cases m' with
      | kick reason =>
          rw [List.mem_singleton.mp h]
          exact List.mem_cons_self
      | _ => exact List.mem_cons.mpr ((List.mem_cons.mp h).imp_right ih)

/-- What is written has been said. -/
theorem mem_log_of_arriving {srv : TcpServer} {u : SessionId} {m : ServerMessage}
    (h : m ∈ arriving srv u) : (u, m) ∈ srv.log := by
  rcases List.mem_map.mp (mem_of_upToKick h) with ⟨⟨s, m'⟩, hcall, rfl⟩
  rcases List.mem_filter.mp hcall with ⟨hmem, hs⟩
  rw [← of_decide_eq_true hs]
  exact hmem

/-- What has been written stays. -/
theorem arriving_prefix {srv srv' : TcpServer} {u : SessionId} {P : ServerMessage → Prop}
    (h : TcpServer.Tells u P srv srv') : arriving srv u <+: arriving srv' u := by
  rcases h with ⟨calls, hlog, _⟩
  unfold arriving
  rw [hlog, List.filter_append, List.map_append]
  exact upToKick_prefix _ _

end Streams

section Order

/-- The server comes to the `hello` first, then to the `auth`, and to neither
    of them again. -/
theorem orderly_cases {types : List MessageType} (h : Orderly types) (i : Nat) (t : MessageType)
    (ht : types[i]? = some t) :
    (i = 0 ∧ t = .hello) ∨ (i = 1 ∧ t = .auth) ∨ (2 ≤ i ∧ t ≠ .hello ∧ t ≠ .auth) := by
  rcases h with ⟨n, chatter, farewell, rfl, hchatter, hfarewell, hn⟩
  rw [List.append_assoc] at ht
  -- A line of the preamble, or one of those that come after two of them.
  by_cases hi : i < (preamble.take n).length
  · rw [List.getElem?_append_left hi, List.getElem?_take] at ht
    split at ht
    · rcases i with _ | _ | i
      · exact Or.inl ⟨rfl, (Option.some.inj ht).symm⟩
      · exact Or.inr (Or.inl ⟨rfl, (Option.some.inj ht).symm⟩)
      · have hmem : t ∈ [MessageType.resourceManifestRequest, .resourcesReady] :=
          List.mem_of_getElem? ht
        refine Or.inr (Or.inr ⟨by omega, ?_⟩)
        rcases List.mem_pair.mp hmem with rfl | rfl <;>
          exact ⟨MessageType.noConfusion, MessageType.noConfusion⟩
    · exact absurd ht.symm (Option.some_ne_none t)
  · rw [List.getElem?_append_right (Nat.le_of_not_lt hi)] at ht
    have hmem : t ∈ chatter ++ farewell := List.mem_of_getElem? ht
    -- Something comes behind the preamble, so two requests have been sent.
    have htwo := hn (List.ne_nil_of_mem hmem)
    have hle : 2 ≤ (preamble.take n).length := by
      rw [List.length_take]
      exact Nat.le_min.mpr ⟨htwo, by decide⟩
    refine Or.inr (Or.inr ⟨by omega, ?_⟩)
    rcases List.mem_append.mp hmem with hmem | hmem
    · rcases hchatter t hmem with rfl | rfl <;>
        exact ⟨MessageType.noConfusion, MessageType.noConfusion⟩
    · rcases hfarewell with rfl | rfl
      · exact absurd hmem List.not_mem_nil
      · rw [List.mem_singleton.mp hmem]
        exact ⟨MessageType.noConfusion, MessageType.noConfusion⟩

end Order

section Steps

variable {u : SessionId} {script : Script} {w : System} {srv' : TcpServer}
  {P : ServerMessage → Prop} {host : Host} {services : Services} {parses : ServerMessage → Bool}

/-- What was not written before is not written for another reason. -/
theorem unclosed_tells (h : Unclosed u w) (htells : TcpServer.Tells u P w.srv srv')
    (hP : ¬ P closedKick) (handled : Nat) :
    Unclosed u { w with srv := srv', handled := handled } := by
  unfold Unclosed at h ⊢
  dsimp only
  cases hc : w.closed with
  | none =>
      rw [hc] at h
      exact fun hmem => (htells.mem_log hmem).elim h hP
  | some n =>
      rw [hc] at h
      have hbefore := arriving_prefix htells
      refine ⟨Nat.le_trans h.1 hbefore.length_le, ?_⟩
      rw [List.prefix_iff_eq_append.mp hbefore |>.symm, List.take_append_of_le_length h.1]
      exact h.2

/-- A socket that is closed now has not been written to in vain. -/
theorem unclosed_close (h : Unclosed u w) (htells : TcpServer.Tells u P w.srv srv') :
    Unclosed u { w with
      srv := srv', closed := some (w.closed.getD (arriving w.srv u).length) } := by
  have hbefore := arriving_prefix htells
  unfold Unclosed at h ⊢
  dsimp only
  cases hc : w.closed with
  | none =>
      -- The socket is closed by this very step.
      rw [hc] at h
      refine ⟨hbefore.length_le, fun hmem => h (mem_log_of_arriving ?_)⟩
      rw [List.prefix_iff_eq_append.mp hbefore |>.symm, Option.getD_none, List.take_left] at hmem
      exact hmem
  | some n =>
      rw [hc] at h
      refine ⟨Nat.le_trans h.1 hbefore.length_le, ?_⟩
      rw [List.prefix_iff_eq_append.mp hbefore |>.symm, Option.getD_some,
        List.take_append_of_le_length h.1]
      exact h.2

/-- What is true of the server stays true while the session stays what it is. -/
theorem Meant.stays {w' : System} {m : ServerMessage} (h : Meant u w m)
    (hst : ∀ st, w.srv.standing u = some st → w'.srv.standing u = some st)
    (hhandled : w.handled ≤ w'.handled)
    (hasked : w.client.disconnectRequested = true → w'.client.disconnectRequested = true) :
    Meant u w' m := by
  cases m with
  | helloAck ok version reason =>
      rcases h with ⟨hok, st, hu, hhello⟩
      exact ⟨hok, st, hst st hu, hhello⟩
  | authResult r =>
      rcases h with ⟨htwo, st, hu, hauth⟩
      exact ⟨Nat.le_trans htwo hhandled, st, hst st hu, hauth⟩
  | resourcesReadyAck =>
      rcases h with ⟨st, hu, hready⟩
      exact ⟨st, hst st hu, hready⟩
  | kick reason => exact h.imp_right (Or.imp_right (And.imp_right hasked))
  | _ => exact trivial

/-- A step of the client. -/
theorem linked_client (h : Linked u script w) {c : Client} (received : Nat) (hstage : Stage c)
    (hbacked : Backed (fun m => (u, m) ∈ w.srv.log) script w.client.disconnectRequested c) :
    Linked u script { w with client := c, received := received } where
  stage := hstage
  backed := hbacked.now
  hello := h.hello
  auth := h.auth
  told := fun m hm => (h.told m hm).stays (fun _ hst => hst) (Nat.le_refl _) hbacked.keeps
  unclosed := h.unclosed

/-- A step of the server that is not about a line of the client's. -/
theorem linked_foreign (h : Linked u script w) {closed : Option Nat}
    (hst : ∀ st, w.srv.standing u = some st → srv'.standing u = some st)
    (htells : TcpServer.Tells u P w.srv srv')
    (hP : ∀ m, P m → Meant u { w with srv := srv', closed := closed } m)
    (hclosed : Unclosed u { w with srv := srv', closed := closed }) :
    Linked u script { w with srv := srv', closed := closed } where
  stage := h.stage
  backed := h.backed.mono (fun _ hm => htells.subset hm)
  hello := fun hone => by
    rcases h.hello hone with ⟨st, hu, hhello⟩
    exact ⟨st, hst st hu, hhello⟩
  auth := fun htwo => by
    rcases h.auth htwo with ⟨st, hu, hauth⟩
    exact ⟨st, hst st hu, hauth⟩
  told := fun m hm => (htells.mem_log hm).elim
    (fun hm => (h.told m hm).stays hst (Nat.le_refl _) (fun hasked => hasked)) (hP m)
  unclosed := hclosed

/-- The server has answered a line. The session has come to more than before,
    and an id that was issued stays. -/
theorem linked_answer (h : Linked u script w) {st st' : Standing}
    (hst : w.srv.standing u = some st) (hst' : srv'.standing u = some st')
    (hhello : st.helloReceived = true ∨ w.handled = 0 → st'.helloReceived = true)
    (hauth : st.authenticated = true ∨ w.handled = 1 → st'.authenticated = true)
    (hid : w.handled ≠ 1 → st'.playerId = st.playerId)
    (hready : st.resourcesReady = true → st'.resourcesReady = true)
    (htells : TcpServer.Tells u P w.srv srv') (hclosed : ¬ P closedKick)
    (hP : ∀ m, P m → Meant u { w with srv := srv', handled := w.handled + 1 } m) :
    Linked u script { w with srv := srv', handled := w.handled + 1 } where
  stage := h.stage
  backed := h.backed.mono (fun _ hm => htells.subset hm)
  hello := fun _ => by
    refine ⟨st', hst', hhello ?_⟩
    by_cases hzero : w.handled = 0
    · exact Or.inr hzero
    -- It had come to the `hello` before.
    · rcases h.hello (Nat.one_le_iff_ne_zero.mpr hzero) with ⟨st₀, hu, hreceived⟩
      cases hst.symm.trans hu
      exact Or.inl hreceived
  auth := fun htwo => by
    refine ⟨st', hst', hauth ?_⟩
    by_cases hone : w.handled = 1
    · exact Or.inr hone
    · change 2 ≤ w.handled + 1 at htwo
      rcases h.auth (by omega) with ⟨st₀, hu, hauthenticated⟩
      cases hst.symm.trans hu
      exact Or.inl hauthenticated
  told := fun m hm => by
    rcases htells.mem_log hm with hm | hm
    · have hmeant := h.told m hm
      cases m with
      | helloAck ok version reason =>
          rcases hmeant with ⟨hok, st₀, hu, hreceived⟩
          cases hst.symm.trans hu
          exact ⟨hok, st', hst', hhello (Or.inl hreceived)⟩
      | authResult r =>
          rcases hmeant with ⟨htwo, st₀, hu, hauthenticated, hplayer⟩
          cases hst.symm.trans hu
          exact ⟨Nat.le_succ_of_le htwo, st', hst', hauth (Or.inl hauthenticated),
            (hid (by omega)).trans hplayer⟩
      | resourcesReadyAck =>
          rcases hmeant with ⟨st₀, hu, hacknowledged⟩
          cases hst.symm.trans hu
          exact ⟨st', hst', hready hacknowledged⟩
      | kick reason => exact hmeant
      | _ => exact trivial
    · exact hP m hm
  unclosed := unclosed_tells h.unclosed htells hclosed _

/-- A line that gets the session no further. -/
theorem linked_aside (h : Linked u script w) {st : Standing} (hst : w.srv.standing u = some st)
    (htwo : 2 ≤ w.handled) (haside : TcpServer.Aside u P w.srv srv') (hclosed : ¬ P closedKick)
    (hP : ∀ m, P m → Meant u { w with srv := srv', handled := w.handled + 1 } m) :
    Linked u script { w with srv := srv', handled := w.handled + 1 } :=
  linked_answer h hst (haside.standing.trans hst)
    (fun hhello => hhello.resolve_right (by omega)) (fun hauth => hauth.resolve_right (by omega))
    (fun _ => rfl) (fun hready => hready) haside.tells hclosed hP

/-- The client's `auth` always gets a result. -/
theorem exists_result (fmt : NumberFormat) (clientId playerUuid sessionUuid : JsString) :
    ∃ result, authenticate fmt (some (.str clientId)) (some (.str [])) playerUuid sessionUuid
      = some result := by
  have hchoose : ∃ id, choosePlayerId fmt (some (.str clientId)) playerUuid = some (.str id) := by
    unfold choosePlayerId
    dsimp only
    split
    · refine ⟨if isIdText clientId then clientId else playerUuid, ?_⟩
      rw [show JsValue.toText fmt (.str clientId) = some clientId from rfl, Option.map_some]
      split <;> rfl
    · exact ⟨playerUuid, rfl⟩
  rcases hchoose with ⟨id, hid⟩
  refine ⟨⟨true, .str id, sessionUuid, .str (js "Player-" ++ id.take 8)⟩, ?_⟩
  unfold authenticate
  rw [hid]
  rfl

theorem not_isEvent_closedKick : ¬ IsEvent closedKick := by
  rintro ⟨e, he⟩
  exact ServerMessage.noConfusion he

theorem meant_of_isEvent {m : ServerMessage} (h : IsEvent m) : Meant u w m := by
  rcases h with ⟨e, rfl⟩
  exact trivial

/-- The server comes to a line of the client's, which it has no reason to turn
    away. -/
theorem linked_line (h : Linked u script w) (o : Session) (ho : w.srv.objs u = some o) (line : Line)
    (hline : line ∈ w.client.said) (ambient : Ambient)
    (hcase : (w.handled = 0 ∧ line.type = .hello) ∨ (w.handled = 1 ∧ line.type = .auth) ∨
      (2 ≤ w.handled ∧ line.type ≠ .hello ∧ line.type ≠ .auth)) :
    Linked u script { w with
      srv := w.srv.onMessage host u o line.type (JsValue.orElse (some line.payload) (.obj []))
        ambient
      handled := w.handled + 1 } := by
  have hst := w.srv.standing_of_objs o ho
  have hfits := h.backed.fits line hline
  have hasked := h.backed.farewell line hline
  have hauthenticated : 2 ≤ w.handled → o.authenticated = true := by
    intro htwo
    rcases h.auth htwo with ⟨st, hu, hauth⟩
    cases hst.symm.trans hu
    exact hauth
  rcases line with ⟨type, payload⟩
  dsimp only [Fits] at hfits hasked hcase ⊢
  -- The order of the client's lines says how far the server has come with each of
  -- them, and so that the session can do what is asked for.
  cases type with
  | hello =>
      have hzero : w.handled = 0 := by simpa using hcase
      cases hfits
      have hanswer := w.srv.tells_hello host o ho helloPayload rfl
      refine linked_answer h hst hanswer.1 (fun _ => rfl) (fun hauth => ?_) (fun _ => rfl)
        (fun hready => hready) hanswer.2 ServerMessage.noConfusion ?_
      · exact hauth.resolve_right (by omega)
      · rintro m rfl
        exact ⟨rfl, _, hanswer.1, rfl⟩
  | auth =>
      have hone : w.handled = 1 := by simpa using hcase
      cases hfits
      have hhello : o.helloReceived = true := by
        rcases h.hello (by omega) with ⟨st, hu, hhello⟩
        cases hst.symm.trans hu
        exact hhello
      rcases exists_result host.fmt script.clientId ambient.playerUuid ambient.sessionUuid with
        ⟨result, hresult⟩
      have hanswer := w.srv.tells_auth host o ho (authPayload script) ambient hhello result hresult
      refine linked_answer h hst hanswer.1 (fun _ => hhello) (fun _ => rfl)
        (fun hne => absurd hone hne) (fun hready => hready) hanswer.2 ?_ ?_
      · exact fun hkick => hkick.elim ServerMessage.noConfusion not_isEvent_closedKick
      · rintro m (rfl | hevent)
        · exact ⟨Nat.succ_le_succ (Nat.le_of_eq hone.symm), _, hanswer.1, rfl, rfl⟩
        · exact meant_of_isEvent hevent
  | heartbeat =>
      have htwo : 2 ≤ w.handled := by simpa using hcase
      refine linked_aside h hst htwo (w.srv.tells_heartbeat ambient) ?_ ?_
      · rintro ⟨now, hnow⟩
        exact ServerMessage.noConfusion hnow
      · rintro m ⟨now, rfl⟩
        exact trivial
  | resourceManifestRequest =>
      have htwo : 2 ≤ w.handled := by simpa using hcase
      refine linked_aside h hst htwo (w.srv.tells_manifest host o ambient (hauthenticated htwo))
        ServerMessage.noConfusion ?_
      rintro m rfl
      exact trivial
  | playerState =>
      have htwo : 2 ≤ w.handled := by simpa using hcase
      exact linked_aside h hst htwo (w.srv.tells_state host o _ (hauthenticated htwo))
        not_isEvent_closedKick (fun _ => meant_of_isEvent)
  | resourcesReady =>
      have htwo : 2 ≤ w.handled := by simpa using hcase
      cases hfits
      have hanswer := w.srv.tells_ready host o ho (readyPayload script) (hauthenticated htwo)
        ⟨_, rfl⟩ ⟨_, rfl⟩
      refine linked_answer h hst hanswer.1 (fun hhello => hhello.resolve_right (by omega))
        (fun _ => hauthenticated htwo) (fun _ => rfl) (fun _ => rfl) hanswer.2 ?_ ?_
      · exact fun hkick => hkick.elim ServerMessage.noConfusion not_isEvent_closedKick
      · rintro m (rfl | hevent)
        · exact ⟨_, hanswer.1, rfl⟩
        · exact meant_of_isEvent hevent
  | disconnect =>
      have htwo : 2 ≤ w.handled := by simpa using hcase
      cases hfits
      have hleave : TcpServer.Aside u
          (fun m => m = .kick (.str (js "client shutting down")) ∨ IsEvent m) w.srv
          (w.srv.onDisconnect host u leavePayload) :=
        w.srv.tells_leave host leavePayload _ rfl (by decide)
      refine linked_aside h hst htwo hleave ?_ ?_
      · rintro (hkick | hevent)
        · exact absurd (Json.str.inj (ServerMessage.kick.inj hkick)) (by decide)
        · exact not_isEvent_closedKick hevent
      · rintro m (rfl | hevent)
        · exact Or.inr (Or.inr ⟨rfl, hasked rfl⟩)
        · exact meant_of_isEvent hevent
  | unknown type => exact hfits.elim

theorem linked_handle (ambient : Ambient) (h : Linked u script w) :
    Linked u script (w.handle host u ambient) := by
  unfold System.handle
  split
  · rename_i line o hline ho
    have hstep : step host w.srv (.message u line.type (some line.payload) ambient) =
        w.srv.onMessage host u o line.type (JsValue.orElse (some line.payload) (.obj []))
          ambient := by
      rw [step, ho]
    rw [hstep]
    refine linked_line h o ho line (List.mem_of_getElem? hline) ambient
      (orderly_cases (orderly_of_stage h.stage) w.handled line.type ?_)
    rw [Client.types, List.getElem?_map, hline]
    rfl
  · exact h

/-- The client comes to a message that was written to it. -/
theorem linked_receive (h : Linked u script w) : Linked u script (w.receive u parses) := by
  unfold System.receive
  split
  · rename_i m hnext
    split
    · -- It is not about the socket's having been closed, because it was written.
      have hwritten : m ∈ arriving w.srv u ∧ m ≠ closedKick := by
        have hunclosed := h.unclosed
        unfold Unclosed at hunclosed
        unfold System.next at hnext
        cases hc : w.closed with
        | none =>
            rw [hc] at hnext hunclosed
            have hmem := List.mem_of_getElem? hnext
            refine ⟨hmem, ?_⟩
            rintro rfl
            exact hunclosed (mem_log_of_arriving hmem)
        | some n =>
            rw [hc] at hnext hunclosed
            have hmem := List.mem_of_getElem? hnext
            refine ⟨List.mem_of_mem_take hmem, ?_⟩
            rintro rfl
            exact hunclosed.2 hmem
      have hlog := mem_log_of_arriving hwritten.1
      refine linked_client h _ (stage_onDispatch m h.stage)
        (backed_onDispatch m hlog (fun reason hm hasked => ?_) h.backed)
      subst hm
      rcases h.told _ hlog with ⟨text, htext, rfl⟩ | rfl | ⟨-, hrequested⟩
      · rcases List.mem_cons.mp htext with rfl | htext
        · exact List.mem_cons_self
        · rcases List.mem_pair.mp htext with rfl | rfl
          · exact List.mem_cons_of_mem _ List.mem_cons_self
          · exact List.mem_cons_of_mem _ (List.mem_cons_of_mem _ List.mem_cons_self)
      · exact absurd rfl hwritten.2
      · exact absurd (hasked.symm.trans hrequested) Bool.false_ne_true
    · exact h
  · exact h

theorem meant_of_reason {text : JsString} (h : text ∈ reasons) : Meant u w (.kick (.str text)) :=
  Or.inl ⟨text, h, rfl⟩

theorem meant_of_unasked {m : ServerMessage} (h : Unasked m) : Meant u w m := by
  rcases h with hevent | rfl | rfl
  · exact meant_of_isEvent hevent
  · exact meant_of_reason List.mem_cons_self
  · exact meant_of_reason (List.mem_cons_of_mem _ List.mem_cons_self)

theorem not_unasked_closedKick : ¬ Unasked closedKick := by
  rintro (hevent | hkick | hkick)
  · exact not_isEvent_closedKick hevent
  · exact absurd (Json.str.inj (ServerMessage.kick.inj hkick)) (by decide)
  · exact absurd (Json.str.inj (ServerMessage.kick.inj hkick)) (by decide)

/-- The socket is closed. -/
theorem linked_close (h : Linked u script w) : Linked u script (w.close host u) := by
  have haside : TcpServer.Aside u (fun m => m = closedKick ∨ IsEvent m) w.srv
      (step host w.srv (.close u)) :=
    TcpServer.aside_disconnectSession (fun _ hevent => Or.inr hevent) w.srv host u
      (.str (js "connection closed")) (fun _ => Or.inl rfl)
  refine linked_foreign h (fun st hst => haside.standing.trans hst) haside.tells ?_
    (unclosed_close h.unclosed haside.tells)
  rintro m (rfl | hevent)
  · exact Or.inr (Or.inl rfl)
  · exact meant_of_isEvent hevent

/-- The administrator kicks the session. -/
theorem linked_kick (h : Linked u script w) : Linked u script (w.kick u) := by
  unfold System.kick
  split
  · have haside : TcpServer.Aside u (fun m => m = .kick (.str (js "kicked by admin"))) w.srv
        (w.srv.send u (.kick (.str (js "kicked by admin")))) :=
      TcpServer.aside_send w.srv u _ (fun _ => rfl)
    refine linked_foreign h (fun st hst => haside.standing.trans hst) haside.tells ?_
      (unclosed_tells h.unclosed haside.tells ?_ _)
    · rintro m rfl
      exact meant_of_reason (List.mem_cons_of_mem _ (List.mem_cons_of_mem _ List.mem_cons_self))
    · exact fun hkick => absurd (Json.str.inj (ServerMessage.kick.inj hkick)) (by decide)
  · exact h

/-- The server's other business. -/
theorem linked_server (e : Event) (he : foreign u e = true) (h : Linked u script w) :
    Linked u script { w with srv := step host w.srv e } := by
  have hmessage : ∀ type payload ambient, e ≠ .message u type payload ambient := by
    rintro type payload ambient rfl
    exact absurd rfl (of_decide_eq_true he)
  have hclose : e ≠ .close u := by
    rintro rfl
    exact absurd rfl (of_decide_eq_true he)
  have htells := tells_foreign host w.srv u e hmessage hclose
  exact linked_foreign h (fun st hst => standing_foreign host w.srv u e st hst hmessage) htells
    (fun m => meant_of_unasked) (unclosed_tells h.unclosed htells not_unasked_closedKick _)

/-- A step of the client's own. -/
theorem linked_own (a : ClientAction) (ha : own a = true) (h : Linked u script w) :
    Linked u script { w with client := Runtime.act services script parses w.client a } := by
  refine linked_client h _ (stage_act a h.stage) ?_
  cases a with
  | main sent expired => exact backed_mainStep sent expired h.backed
  | endOfInput => exact backed_endOfInput h.backed
  | heartbeat sent expired => exact backed_heartbeatStep sent expired h.backed
  | replication state sent => exact backed_replicationStep state sent h.backed
  | dispatch m => exact absurd ha Bool.false_ne_true
  | entity created id => exact backed_onEntity created id h.backed

theorem linked_act (a : Action) (h : Linked u script w) :
    Linked u script (act host u services script parses w a) := by
  cases a with
  | client a =>
      unfold act
      dsimp only
      split
      · rename_i ha
        exact linked_own a ha h
      · exact h
  | handle ambient => exact linked_handle ambient h
  | receive => exact linked_receive h
  | close => exact linked_close h
  | kick => exact linked_kick h
  | server e =>
      unfold act
      dsimp only
      split
      · rename_i he
        exact linked_server e he h
      · exact h

theorem linked_init : Linked u script System.init where
  stage := stage_init
  backed := ⟨fun _ m hm => absurd hm.symm (Option.some_ne_none m),
    fun r hr => absurd hr.symm (Option.some_ne_none r), fun _ he => absurd he List.not_mem_nil,
    fun _ hline => absurd hline List.not_mem_nil, MainPc.noConfusion,
    fun _ hline => absurd hline List.not_mem_nil, fun hasked => hasked⟩
  hello := fun hone => absurd hone (Nat.not_succ_le_zero 0)
  auth := fun htwo => absurd htwo (Nat.not_succ_le_zero 1)
  told := fun _ hm => absurd hm List.not_mem_nil
  unclosed := List.not_mem_nil

theorem linked_run (host : Host) (u : SessionId) (services : Services) (script : Script)
    (parses : ServerMessage → Bool) (as : List Action) :
    Linked u script (as.foldl (act host u services script parses) System.init) :=
  Run.foldl_inv (act host u services script parses) (Linked u script)
    (fun _ a h => linked_act a h) as System.init linked_init

end Steps

/-- What the client reports, and under which id it goes, is so on the server. -/
structure Truthful (u : SessionId) (srv : TcpServer) (c : Client) : Prop where
  compatible : .service (ascii "server-connection") (ascii "ok")
      (ascii "connected and protocol-compatible") ∈ c.events →
    ∃ o, srv.objs u = some o ∧ o.helloReceived = true
  authenticated : ∀ message,
    .service (ascii "authentication") (ascii "ok") message ∈ c.events →
    ∃ o, srv.objs u = some o ∧ o.authenticated = true ∧
      message = ascii "player " ++ asString o.playerId []
  player : ∀ r, c.player = some r →
    ∃ o, srv.objs u = some o ∧ o.authenticated = true ∧ o.playerId = r.playerId
  ready : ∀ message,
    .service (ascii "resources-ready-notification") (ascii "ok") message ∈ c.events →
    ∃ o, srv.objs u = some o ∧ o.resourcesReady = true
  kicked : ∀ status text, .service (ascii "server-connection") status
      (ascii "kicked by server: " ++ text) ∈ c.events → text ∈ excuses

/-- The server has no reason to turn the client away. -/
structure Blameless (u : SessionId) (srv : TcpServer) (c : Client) : Prop where
  hello : ∀ ok version reason, (u, .helloAck ok version reason) ∈ srv.log → ok = true
  kick : ∀ reason, (u, .kick reason) ∈ srv.log →
    (∃ text ∈ reasons, reason = .str text) ∨ reason = .str (js "connection closed") ∨
      reason = .str (js "client shutting down") ∧ c.disconnectRequested = true

theorem exists_session {srv : TcpServer} {u : SessionId} {p : Standing → Prop}
    (h : ∃ st, srv.standing u = some st ∧ p st) : ∃ o, srv.objs u = some o ∧ p o.standing := by
  rcases h with ⟨st, hst, hp⟩
  rcases Option.map_eq_some_iff.mp hst with ⟨o, ho, rfl⟩
  exact ⟨o, ho, hp⟩

/-- What a client reports of its server is so, whatever the server, the
    connection, the others and the threads of the client do. -/
theorem truthful_run (host : Host) (u : SessionId) (services : Services) (script : Script)
    (parses : ServerMessage → Bool) (as : List Action) :
    Truthful u (as.foldl (act host u services script parses) System.init).srv
      (as.foldl (act host u services script parses) System.init).client := by
  have hlinked := linked_run host u services script parses as
  have hbacked := hlinked.backed
  constructor
  · intro hevent
    rcases (hbacked.events _ hevent).1 rfl rfl with ⟨version, reason, htold⟩
    exact exists_session (hlinked.told _ htold).2
  · intro message hevent
    rcases (hbacked.events _ hevent).2.2.1 rfl rfl with ⟨r, htold, rfl⟩
    rcases exists_session (hlinked.told _ htold).2 with ⟨o, ho, hauth, hid⟩
    refine ⟨o, ho, hauth, ?_⟩
    rw [← hid]
    rfl
  · intro r hr
    exact exists_session (hlinked.told _ (hbacked.player r hr)).2
  · intro message hevent
    exact exists_session (hlinked.told _ ((hbacked.events _ hevent).2.2.2 rfl rfl))
  · intro status text hevent
    exact (hbacked.events _ hevent).2.1 rfl text rfl

/-- A client is never turned away for what it says: not for its version, not
    for a line out of turn, and not with its own farewell before it has said
    it. -/
theorem blameless_run (host : Host) (u : SessionId) (services : Services) (script : Script)
    (parses : ServerMessage → Bool) (as : List Action) :
    Blameless u (as.foldl (act host u services script parses) System.init).srv
      (as.foldl (act host u services script parses) System.init).client := by
  have hlinked := linked_run host u services script parses as
  exact ⟨fun ok version reason hm => (hlinked.told _ hm).1,
    fun reason hm => hlinked.told _ hm⟩

end Link

end MzzPlork
