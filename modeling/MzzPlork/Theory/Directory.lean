import MzzPlork.Base.Entries
import MzzPlork.Theory.Conversation

/-!
# What the Others Are Known To Be

The directory of players that a client can draw up from the events it was
sent, with their names and their last states.

A client that folds the events into a table has, for each player id, what it
was told of it: introduced under a name, moved since, or gone again. The
server has the sessions themselves. Along a run the two are the same for
everybody who is present (`directory_run`), if sessions authenticate once, ids
are not shared, and only sessions of the map make themselves heard.

An event may reach a session more than once without doing anything more, so
the events are looked at by what they make of one entry (`heard`).

## Main definitions

* `Known`: What is known of a player.
* `ServerEvent.update`, `knows`: What the events make of the directory.
* `heard`: What a message makes of one entry.
* `Listed`: What the server has on the others.
* `Directory`: The two agree for everybody who is present.

## Theorems

* `knows_introductions`: What a backfill says.
* `told_welcome_self`, `told_welcome_other`: What somebody admitted hears, and the others.
* `directory_act`, `directory_welcome`, `directory_report`: The kinds of step.
* `directory_run`: The directory along a run.
-/

namespace MzzPlork

namespace Server

open Entries

/-- What is known of a player. -/
structure Known where
  displayName : JsValue
  last : Option PlayerState

/-- What an event makes of the directory. Somebody who is known already is not
    introduced again, and a state of somebody unknown makes it known without a
    name. -/
def ServerEvent.update (e : ServerEvent) : Option (Update PlayerId Known) :=
  match e with
  | .playerJoined p name => some ⟨p, fun b => some (b.getD ⟨name, none⟩)⟩
  | .playerLeft p => some ⟨p, fun _ => none⟩
  | .playerState p st =>
    some ⟨p, fun b => some { b.getD ⟨.str [], none⟩ with last := some st }⟩
  | .playerReady _ _ => none

/-- Only events change the directory. -/
def ServerMessage.update (m : ServerMessage) : Option (Update PlayerId Known) :=
  match m with
  | .event e => e.update
  | _ => none

noncomputable instance : DecidableEq PlayerId := Classical.decEq PlayerId

/-- The directory after some messages. -/
noncomputable def knows (ms : List ServerMessage) : PlayerId → Option Known :=
  (ms.filterMap ServerMessage.update).foldl apply (fun _ => none)

/-- What a message makes of one entry. -/
noncomputable def heard (m : ServerMessage) (p : PlayerId) (b : Option Known) : Option Known :=
  match m.update with
  | some w => if w.key = p then w.entry b else b
  | none => b

section Messages

variable (ms : List ServerMessage) (p : PlayerId)

theorem knows_concat (m : ServerMessage) : knows (ms ++ [m]) p = heard m p (knows ms p) := by
  unfold knows heard
  rw [List.filterMap_append, List.foldl_append]
  cases hm : m.update with
  | none => rw [List.filterMap_cons_none hm, List.filterMap_nil, List.foldl_nil]
  | some w =>
      rw [List.filterMap_cons_some hm, List.filterMap_nil, List.foldl_cons, List.foldl_nil]
      by_cases hk : w.key = p
      · rw [← hk, apply_key]
        exact (if_pos rfl).symm
      · rw [apply_of_ne _ w p (Ne.symm hk)]
        exact (if_neg hk).symm

/-- Messages that are no events of a player change nothing. -/
theorem knows_append_of_none (ms' : List ServerMessage) (h : ∀ m ∈ ms', m.update = none) :
    knows (ms ++ ms') p = knows ms p := by
  unfold knows
  rw [List.filterMap_append, List.filterMap_eq_nil_iff.mpr h, List.append_nil]

/-- To hear something twice is to hear it once. -/
theorem heard_heard (m : ServerMessage) (b : Option Known) :
    heard m p (heard m p b) = heard m p b := by
  unfold heard
  cases hm : m.update with
  | none => rfl
  | some w =>
      by_cases hk : w.key = p
      · simp only [hk, if_true]
        cases m with
        | event e =>
            cases e with
            | playerJoined q name =>
                rw [← Option.some.inj hm]
                rfl
            | playerLeft q =>
                rw [← Option.some.inj hm]
            | playerState q st =>
                rw [← Option.some.inj hm]
                rfl
            | playerReady q name => exact absurd hm (Option.some_ne_none w).symm
        | _ => exact absurd hm (Option.some_ne_none w).symm
      · simp only [hk, if_false]

theorem knows_replicate (m : ServerMessage) (n : Nat) :
    knows (ms ++ List.replicate n m) p
      = if 0 < n then heard m p (knows ms p) else knows ms p := by
  induction n with
  | zero => rw [List.replicate_zero, List.append_nil, if_neg (Nat.lt_irrefl 0)]
  | succ n ih =>
      rw [List.replicate_succ', ← List.append_assoc, knows_concat, ih, if_pos (Nat.succ_pos n)]
      split
      · exact heard_heard p m _
      · rfl

/-- What a message makes of the entry of somebody it is not about. -/
theorem heard_of_ne (m : ServerMessage) (b : Option Known)
    (h : ∀ w, m.update = some w → w.key ≠ p) : heard m p b = b := by
  unfold heard
  cases hm : m.update with
  | none => rfl
  | some w => exact if_neg (h w hm)

theorem heard_joined (name : JsValue) (b : Option Known) :
    heard (.event (.playerJoined p name)) p b = some (b.getD ⟨name, none⟩) := if_pos rfl

theorem heard_left (b : Option Known) : heard (.event (.playerLeft p)) p b = none := if_pos rfl

theorem heard_state (st : PlayerState) (b : Option Known) :
    heard (.event (.playerState p st)) p b
      = some { b.getD ⟨.str [], none⟩ with last := some st } := if_pos rfl

end Messages

namespace TcpServer

/-- Copies of one event reach exactly those who are present, but for one. -/
theorem received_broadcastExcept_eq (srv : TcpServer) (u s : SessionId) (e : ServerEvent) :
    ∃ n, (srv.broadcastExcept u e).received s
        = srv.received s ++ List.replicate n (.event e) ∧ (0 < n ↔ srv.Present s ∧ s ≠ u) := by
  have hcopies : ∀ ids : List SessionId, ∃ n,
      ((ids.map (fun t => (t, ServerMessage.event e))).filter
        (fun call => call.1 = s)).map Prod.snd = List.replicate n (.event e) ∧
      (0 < n ↔ s ∈ ids) := by
    intro ids
    induction ids with
    | nil => exact ⟨0, rfl, iff_of_false (Nat.lt_irrefl 0) List.not_mem_nil⟩
    | cons t ids ih =>
        rcases ih with ⟨n, hn, hmem⟩
        by_cases hts : t = s
        · refine ⟨n + 1, ?_, iff_of_true (Nat.succ_pos n) ?_⟩
          · simp only [List.map_cons, List.filter_cons, hts, decide_true, if_true]
            rw [hn, List.replicate_succ]
          · rw [hts]
            exact List.mem_cons_self
        · refine ⟨n, ?_, hmem.trans ?_⟩
          · simp only [List.map_cons, List.filter_cons, hts, decide_false, Bool.false_eq_true,
              if_false]
            exact hn
          · rw [List.mem_cons, or_iff_right (Ne.symm hts)]
  rcases hcopies (srv.sessions.filter (fun t => srv.authenticated t && t ≠ u)) with ⟨n, hn, hmem⟩
  refine ⟨n, (srv.received_emit s _).trans (congrArg _ hn), hmem.trans ?_⟩
  rw [List.mem_filter, Bool.and_eq_true, decide_eq_true_eq]
  exact ⟨fun h => ⟨⟨h.1, h.2.1⟩, h.2.2⟩, fun h => ⟨h.1.1, h.1.2, h.2⟩⟩

/-- What the server has on somebody else who is present. -/
def Listed (srv : TcpServer) (s : SessionId) (p : PlayerId) (k : Known) : Prop :=
  ∃ t, srv.Present t ∧ t ≠ s ∧ srv.playerId t = p ∧ k = ⟨srv.displayName t, srv.lastState t⟩

/-- Everybody present knows of the others what the server has on them. Nothing
    is known to, or of, sessions that have not authenticated. -/
structure Directory (srv : TcpServer) : Prop where
  told : ∀ s, srv.Present s → ∀ p k, knows (srv.received s) p = some k ↔ srv.Listed s p k
  fresh : ∀ s, srv.authenticated s = false → ∀ p, knows (srv.received s) p = none
  silent : ∀ u, srv.authenticated u = false → srv.lastState u = none
  issued : srv.Issued

section Kept

variable {srv srv' : TcpServer}

/-- Ids that are not shared tell authenticated sessions apart. -/
theorem Issued.playerId_inj (hi : srv.Issued) (hd : srv.Distinct) {s t : SessionId}
    (hs : srv.authenticated s = true) (ht : srv.authenticated t = true)
    (heq : srv.playerId s = srv.playerId t) : s = t := by
  rcases hi s hs with ⟨r, hr, hrp⟩
  rcases hi t ht with ⟨r', hr', hrp'⟩
  exact hd s t r r' ((mem_received srv).mp hr) ((mem_received srv).mp hr')
    ((hrp.trans heq).trans hrp'.symm)

/-- Nothing is heard of, and nobody comes or goes. -/
theorem Directory.quiet (h : srv.Directory) (hf : Frame srv srv')
    (hpres : ∀ s, srv'.Present s ↔ srv.Present s)
    (hheard : ∀ s p, knows (srv'.received s) p = knows (srv.received s) p) : srv'.Directory where
  told := fun s hs p k => by
    rw [hheard, h.told s ((hpres s).mp hs) p k]
    unfold Listed
    simp only [hpres, hf.pid, hf.name, hf.last]
  fresh := fun s hs p => (hheard s p).trans (h.fresh s ((hf.auth s).symm.trans hs) p)
  silent := fun u hu => (hf.last u).trans (h.silent u ((hf.auth u).symm.trans hu))
  issued := hf.issued h.issued

theorem update_of_isGreeting {m : ServerMessage} (hm : m.isGreeting = true) :
    m.update = none := by
  cases m with
  | event e => exact Bool.noConfusion hm
  | _ => rfl

theorem update_of_isService {m : ServerMessage} (hm : m.isService = true) :
    m.update = none := by
  cases m with
  | event e => exact Bool.noConfusion hm
  | _ => rfl

theorem knows_send (srv : TcpServer) (u s : SessionId) (m : ServerMessage) (hm : m.update = none)
    (p : PlayerId) : knows ((srv.send u m).received s) p = knows (srv.received s) p := by
  unfold send
  rw [received_emit]
  refine knows_append_of_none _ p _ (fun m' hm' => ?_)
  rcases List.mem_map.mp hm' with ⟨call, hcall, rfl⟩
  rw [List.mem_singleton.mp (List.mem_of_mem_filter hcall)]
  exact hm

/-- Somebody leaves, and everybody who stays crosses it out. -/
theorem directory_depart (u : SessionId) (hu : u ∈ srv.sessions) (hd : srv.Distinct)
    (h : srv.Directory) : (srv.depart u).Directory := by
  have hf := srv.frame_depart u hu
  by_cases ha : srv.authenticated u = true
  · have hpres : ∀ s, (srv.depart u).Present s ↔ srv.Present s ∧ s ≠ u := by
      intro s
      unfold depart
      rw [if_pos (show (srv.delete u).authenticated u = true from ha)]
      constructor
      · rintro ⟨hs, hauth⟩
        rcases List.mem_filter.mp hs with ⟨hs, hne⟩
        exact ⟨⟨hs, hauth⟩, of_decide_eq_true hne⟩
      · rintro ⟨⟨hs, hauth⟩, hne⟩
        exact ⟨List.mem_filter.mpr ⟨hs, decide_eq_true hne⟩, hauth⟩
    have hheard : ∀ s, ∃ n, (srv.depart u).received s
        = srv.received s ++ List.replicate n (.event (.playerLeft (srv.playerId u))) ∧
        (0 < n ↔ (srv.depart u).Present s) := by
      intro s
      rcases received_broadcastExcept_eq (srv.delete u) u s (.playerLeft (srv.playerId u))
        with ⟨n, hn, hpos⟩
      refine ⟨n, ?_, hpos.trans ?_⟩
      · unfold depart
        rw [if_pos (show (srv.delete u).authenticated u = true from ha)]
        exact hn
      · rw [hpres]
        constructor
        · rintro ⟨⟨hs, hauth⟩, hne⟩
          exact ⟨⟨List.mem_of_mem_filter hs, hauth⟩, hne⟩
        · rintro ⟨⟨hs, hauth⟩, hne⟩
          exact ⟨⟨List.mem_filter.mpr ⟨hs, decide_eq_true hne⟩, hauth⟩, hne⟩
    refine ⟨fun s hs p k => ?_, fun s hs p => ?_, fun t ht => (hf.last t).trans (h.silent t
      ((hf.auth t).symm.trans ht)), hf.issued h.issued⟩
    · rcases hheard s with ⟨n, hn, hpos⟩
      rcases (hpres s).mp hs with ⟨hs', hsu⟩
      rw [hn, knows_replicate, if_pos (hpos.mpr hs)]
      by_cases hp : p = srv.playerId u
      · -- Nobody else has the id of somebody who leaves.
        rw [hp, heard_left]
        refine iff_of_false (Option.some_ne_none k).symm ?_
        rintro ⟨t, ht, _, htp, _⟩
        rcases (hpres t).mp ht with ⟨ht', htu⟩
        rw [hf.pid] at htp
        exact htu (h.issued.playerId_inj hd ht'.2 ha htp)
      · rw [heard_of_ne p _ _ (fun w hw => by
          rw [← Option.some.inj hw]
          exact Ne.symm hp), h.told s hs' p k]
        constructor
        · rintro ⟨t, ht, hne, htp, hk⟩
          refine ⟨t, (hpres t).mpr ⟨ht, fun htu => hp (htp ▸ htu ▸ rfl)⟩, hne,
            (hf.pid t).trans htp, ?_⟩
          rw [hk, hf.name, hf.last]
        · rintro ⟨t, ht, hne, htp, hk⟩
          refine ⟨t, ((hpres t).mp ht).1, hne, (hf.pid t).symm.trans htp, ?_⟩
          rw [hk, hf.name, hf.last]
    · rcases hheard s with ⟨n, hn, hpos⟩
      have hnot : ¬ 0 < n := by
        rw [hpos]
        rintro ⟨_, hauth⟩
        rw [hs] at hauth
        exact Bool.noConfusion hauth
      rw [hn, knows_replicate, if_neg hnot]
      exact h.fresh s ((hf.auth s).symm.trans hs) p
  -- A session that had not authenticated leaves without a word.
  · have hdepart : srv.depart u = srv.delete u :=
      if_neg (show ¬ (srv.delete u).authenticated u = true from ha)
    refine h.quiet hf (fun s => ⟨hf.present s, fun hs => ?_⟩) (fun s p => by rw [hdepart]; rfl)
    rw [hdepart]
    refine ⟨List.mem_filter.mpr ⟨hs.1, decide_eq_true (fun hsu => ha (hsu ▸ hs.2))⟩, hs.2⟩

theorem directory_act (hact : Act srv srv') (hd : srv.Distinct) (h : srv.Directory) :
    srv'.Directory := by
  have hf := act_frame hact
  cases hact with
  | touch u f hk =>
      exact h.quiet hf (fun s => srv.present_modify u s f hk.authenticated) (fun _ _ => rfl)
  | greet u m hm =>
      exact h.quiet hf (fun _ => Iff.rfl)
        (fun s p => srv.knows_send u s m (update_of_isGreeting hm) p)
  | serve u m hm hu =>
      exact h.quiet hf (fun _ => Iff.rfl)
        (fun s p => srv.knows_send u s m (update_of_isService hm) p)
  | depart u hu => exact directory_depart u hu hd h
  | record u => exact h.quiet hf (fun _ => Iff.rfl) (fun _ _ => rfl)
  | enter u now hu =>
      refine h.quiet hf (fun s => ?_) (fun _ _ => rfl)
      rw [(srv.removed_onConnection u now hu).present, and_iff_left List.not_mem_nil]

end Kept

section Backfill

variable (srv : TcpServer) (u : SessionId)

/-- One introduction: the name, if it is news, and the last state. -/
theorem knows_introduction (t : SessionId) (ht : srv.authenticated t = true)
    (ms : List ServerMessage) (p : PlayerId)
    (h : ∀ k, knows ms (srv.playerId t) = some k →
      k = ⟨srv.displayName t, srv.lastState t⟩) :
    knows (ms ++ (srv.introduction u t).map Prod.snd) p
      = if p = srv.playerId t then some ⟨srv.displayName t, srv.lastState t⟩
        else knows ms p := by
  rcases srv.objs_of_authenticated t ht with ⟨o, ho, _⟩
  have hpid := srv.playerId_eq t o ho
  have hname : srv.displayName t = o.displayName := by rw [displayName, ho]
  have hlast : srv.lastState t = o.lastPlayerState := by
    rw [lastState, ho]
    rfl
  -- Whoever was known already was known as it is.
  have hjoined : (knows ms (srv.playerId t)).getD ⟨o.displayName, none⟩
      = ⟨o.displayName, (knows ms (srv.playerId t)).elim none (fun _ => o.lastPlayerState)⟩ := by
    cases hk : knows ms (srv.playerId t) with
    | none => rfl
    | some k =>
        rw [h k hk, hname, hlast]
        rfl
  rw [introduction, ho, hname, hlast]
  cases hst : o.lastPlayerState with
  | none =>
      simp only [List.map_cons, List.map_nil, hst]
      rw [knows_concat]
      by_cases hp : p = srv.playerId t
      · rw [if_pos hp, hp, hpid, heard_joined, ← hpid, hjoined, hst]
        cases knows ms (srv.playerId t) <;> rfl
      · rw [if_neg hp, heard_of_ne]
        intro w hw
        rw [← Option.some.inj hw]
        exact fun heq => hp (heq.symm.trans hpid.symm)
  | some st =>
      simp only [List.map_cons, List.map_nil, hst]
      rw [show ms ++ [ServerMessage.event (.playerJoined o.playerId o.displayName),
          .event (.playerState o.playerId st)]
        = (ms ++ [.event (.playerJoined o.playerId o.displayName)])
          ++ [.event (.playerState o.playerId st)] by
            rw [List.append_assoc, List.singleton_append], knows_concat, knows_concat]
      by_cases hp : p = srv.playerId t
      · rw [if_pos hp, hp, hpid, heard_joined, heard_state, ← hpid, hjoined]
        rfl
      · have hne : ∀ w : Update PlayerId Known, w.key = o.playerId → w.key ≠ p :=
          fun w hw heq => hp ((heq.symm.trans hw).trans hpid.symm)
        rw [if_neg hp, heard_of_ne p _ _ (fun w hw => hne w (by rw [← Option.some.inj hw])),
          heard_of_ne p _ _ (fun w hw => hne w (by rw [← Option.some.inj hw]))]

/-- What a backfill says, to somebody who has heard nothing yet. -/
theorem knows_introductions (ids : List SessionId) (ms : List ServerMessage)
    (hauth : ∀ t ∈ ids, srv.authenticated t = true)
    (hinj : ∀ t ∈ ids, ∀ t' ∈ ids, srv.playerId t = srv.playerId t' → t = t')
    (hfresh : ∀ p, knows ms p = none) (p : PlayerId) (k : Known) :
    knows (ms ++ (ids.flatMap (srv.introduction u)).map Prod.snd) p = some k
      ↔ ∃ t ∈ ids, srv.playerId t = p ∧ k = ⟨srv.displayName t, srv.lastState t⟩ := by
  induction ids using List.reverseRecOn generalizing p k with
  | nil =>
      rw [List.flatMap_nil, List.map_nil, List.append_nil, hfresh]
      refine iff_of_false (Option.some_ne_none k).symm ?_
      rintro ⟨t, ht, _⟩
      exact List.not_mem_nil ht
  | append_singleton ids t ih =>
      have hmem : ∀ t' ∈ ids, t' ∈ ids ++ [t] := fun t' ht' => List.mem_append_left [t] ht'
      have hlast : t ∈ ids ++ [t] := List.mem_append_right ids List.mem_cons_self
      have hbefore := ih (fun t' ht' => hauth t' (hmem t' ht'))
        (fun t' ht' t'' ht'' => hinj t' (hmem t' ht') t'' (hmem t'' ht''))
      rw [List.flatMap_append, List.flatMap_singleton, List.map_append, ← List.append_assoc,
        srv.knows_introduction u t (hauth t hlast) _ p (fun k' hk' => by
          -- The same session has been introduced before.
          rcases (hbefore _ k').mp hk' with ⟨t', ht', hp, hk⟩
          rw [hk, hinj t' (hmem t' ht') t hlast hp])]
      by_cases hp : p = srv.playerId t
      · rw [if_pos hp, Option.some.injEq]
        constructor
        · rintro rfl
          exact ⟨t, hlast, hp.symm, rfl⟩
        · rintro ⟨t', ht', hp', hk⟩
          rw [hk, hinj t' ht' t hlast (hp'.trans hp)]
      · rw [if_neg hp, hbefore]
        constructor
        · rintro ⟨t', ht', hp', hk⟩
          exact ⟨t', hmem t' ht', hp', hk⟩
        · rintro ⟨t', ht', hp', hk⟩
          rcases List.mem_append.mp ht' with ht' | ht'
          · exact ⟨t', ht', hp', hk⟩
          · rw [List.mem_singleton.mp ht'] at hp'
            exact absurd hp'.symm hp

end Backfill

section Welcome

variable (srv : TcpServer) (u : SessionId) (clientId : JsValue) (result : AuthResult)

theorem displayName_modify_of_ne (s : SessionId) (f : Session → Session) (hs : s ≠ u) :
    (srv.modify u f).displayName s = srv.displayName s := by
  rw [displayName, displayName, objs_modify, if_neg hs]

theorem displayName_admitted (s : SessionId) (hs : s ≠ u) :
    (srv.admitted u clientId result).displayName s = srv.displayName s :=
  (displayName_modify_of_ne _ u s _ hs).trans (displayName_modify_of_ne srv u s _ hs)

/-- The newcomer has the name of the result. -/
theorem displayName_admitted_self (o : Session) (ho : srv.objs u = some o) :
    (srv.admitted u clientId result).displayName u = result.displayName := by
  refine (displayName_modify _ u u _ (Session.keeps_transitionTo _).displayName).trans ?_
  unfold send emit
  rw [displayName]
  simp only [objs_modify, if_true, ho, Option.map_some]

section Admitted

variable (hok : result.ok = true)

include hok

theorem displayName_welcome (s : SessionId) :
    (srv.welcome u clientId result).displayName s
      = (srv.admitted u clientId result).displayName s := by
  rw [srv.welcome_eq u clientId result hok]
  rfl

theorem lastState_welcome (s : SessionId) :
    (srv.welcome u clientId result).lastState s = srv.lastState s := by
  rw [srv.welcome_eq u clientId result hok]
  exact srv.lastState_admitted u clientId result s

/-- What everybody receives: the newcomer its result and the backfill, the others
    one event. -/
theorem received_welcome (s : SessionId) :
    ∃ n, (srv.welcome u clientId result).received s
      = ((srv.admitted u clientId result).received s
          ++ if s = u then ((srv.admitted u clientId result).backfill u).map Prod.snd else [])
        ++ List.replicate n (.event (.playerJoined result.playerId result.displayName)) ∧
      (0 < n ↔ (srv.welcome u clientId result).Present s ∧ s ≠ u) := by
  rcases received_broadcastExcept_eq ((srv.admitted u clientId result).emit
    ((srv.admitted u clientId result).backfill u)) u s
    (.playerJoined result.playerId result.displayName) with ⟨n, hn, hpos⟩
  rw [srv.welcome_eq u clientId result hok]
  exact ⟨n, by rw [hn, received_backfill], hpos⟩

variable (o : Session) (ho : srv.objs u = some o) (hu : srv.authenticated u = false)
  (hd : (srv.welcome u clientId result).Distinct) (h : srv.Directory)

include ho hu hd h

/-- The backfill tells the newcomer of everybody else. -/
theorem told_welcome_self (p : PlayerId) (k : Known) :
    knows ((srv.welcome u clientId result).received u) p = some k
      ↔ (srv.welcome u clientId result).Listed u p k := by
  have hj := srv.joined_welcome u clientId result o ho hok
  have hissued := srv.issued_welcome u clientId result o ho hok h.issued
  rcases srv.received_welcome u clientId result hok u with ⟨n, hn, hpos⟩
  rw [hn, knows_replicate, if_neg (fun hc => (hpos.mp hc).2 rfl), if_pos rfl, backfill]
  have hfresh : ∀ q, knows ((srv.admitted u clientId result).received u) q = none :=
    fun q => (srv.knows_send u u (.authResult result) rfl q).trans (h.fresh u hu q)
  have hids : ∀ t ∈ (srv.admitted u clientId result).sessions.filter
      (fun t => t ≠ u && (srv.admitted u clientId result).authenticated t),
      t ≠ u ∧ srv.Present t := by
    intro t ht
    rcases List.mem_filter.mp ht with ⟨hmem, hcond⟩
    rw [Bool.and_eq_true, decide_eq_true_eq] at hcond
    exact ⟨hcond.1, hmem, (srv.authenticated_admitted u clientId result t hcond.1).symm.trans
      hcond.2⟩
  rw [knows_introductions _ u _ _ (fun t ht => (srv.authenticated_admitted u clientId result t
    (hids t ht).1).trans (hids t ht).2.2) (fun t ht t' ht' heq => ?_) hfresh]
  · constructor
    · rintro ⟨t, ht, hp, hk⟩
      rcases hids t ht with ⟨htu, hpres⟩
      refine ⟨t, (hj.present t htu).mpr hpres, htu, ?_, ?_⟩
      · rw [hj.pid t htu, ← hp, srv.playerId_admitted u clientId result t htu]
      · rw [hk, srv.displayName_welcome u clientId result hok,
          srv.lastState_welcome u clientId result hok, srv.lastState_admitted u clientId result t]
    · rintro ⟨t, ht, htu, hp, hk⟩
      have hpres := (hj.present t htu).mp ht
      refine ⟨t, List.mem_filter.mpr ⟨hpres.1, ?_⟩, ?_, ?_⟩
      · rw [decide_eq_true htu, srv.authenticated_admitted u clientId result t htu, hpres.2]
        rfl
      · rw [srv.playerId_admitted u clientId result t htu, ← hj.pid t htu, hp]
      · rw [hk, srv.displayName_welcome u clientId result hok,
          srv.lastState_welcome u clientId result hok, srv.lastState_admitted u clientId result t]
  · rcases hids t ht with ⟨htu, hpres⟩
    rcases hids t' ht' with ⟨htu', hpres'⟩
    refine hissued.playerId_inj hd ((hj.auth t htu).trans hpres.2)
      ((hj.auth t' htu').trans hpres'.2) ?_
    rw [hj.pid t htu, hj.pid t' htu', ← srv.playerId_admitted u clientId result t htu,
      ← srv.playerId_admitted u clientId result t' htu', heq]

/-- The others hear of the newcomer, whose id is nobody else's. -/
theorem told_welcome_other (hin : u ∈ srv.sessions) (s : SessionId) (hs : srv.Present s)
    (hsu : s ≠ u) (p : PlayerId) (k : Known) :
    knows ((srv.welcome u clientId result).received s) p = some k
      ↔ (srv.welcome u clientId result).Listed s p k := by
  have hj := srv.joined_welcome u clientId result o ho hok
  have hissued := srv.issued_welcome u clientId result o ho hok h.issued
  have hself : (srv.welcome u clientId result).Present u := hj.present_self.mpr hin
  have hname := srv.displayName_welcome u clientId result hok
  have hlast := srv.lastState_welcome u clientId result hok
  rcases srv.received_welcome u clientId result hok s with ⟨n, hn, hpos⟩
  rw [hn, knows_replicate, if_pos (hpos.mpr ⟨(hj.present s hsu).mpr hs, hsu⟩), if_neg hsu,
    List.append_nil, srv.received_admitted_of_ne u clientId result s hsu]
  have hother : ∀ t, srv.Present t → t ≠ u := by
    rintro t ht rfl
    exact absurd (hu.symm.trans ht.2) Bool.false_ne_true
  by_cases hp : p = result.playerId
  · have hnews : knows (srv.received s) p = none := by
      cases hk : knows (srv.received s) p with
      | none => rfl
      | some k' =>
          rcases (h.told s hs p k').mp hk with ⟨t, ht, _, htp, _⟩
          have htu := hother t ht
          refine absurd (hissued.playerId_inj hd ((hj.auth t htu).trans ht.2) hj.auth_self ?_) htu
          rw [hj.pid t htu, htp, hp, hj.pid_self]
    rw [hnews, hp, heard_joined, Option.getD_none, Option.some.injEq]
    constructor
    · intro hk
      refine ⟨u, hself, Ne.symm hsu, hj.pid_self, ?_⟩
      rw [← hk, hname, srv.displayName_admitted_self u clientId result o ho, hlast, h.silent u hu]
    · rintro ⟨t, ht, _, htp, hk⟩
      have htu := hissued.playerId_inj hd ht.2 hj.auth_self (htp.trans hj.pid_self.symm)
      rw [hk, htu, hname, srv.displayName_admitted_self u clientId result o ho, hlast,
        h.silent u hu]
  · rw [heard_of_ne p _ _ (fun w hw => by
      rw [← Option.some.inj hw]
      exact Ne.symm hp), h.told s hs p k]
    constructor
    · rintro ⟨t, ht, hne, htp, hk⟩
      have htu := hother t ht
      refine ⟨t, (hj.present t htu).mpr ht, hne, (hj.pid t htu).trans htp, ?_⟩
      rw [hk, hname, srv.displayName_admitted u clientId result t htu, hlast]
    · rintro ⟨t, ht, hne, htp, hk⟩
      have htu : t ≠ u := fun heq => hp (by rw [← htp, heq, hj.pid_self])
      refine ⟨t, (hj.present t htu).mp ht, hne, (hj.pid t htu).symm.trans htp, ?_⟩
      rw [hk, hname, srv.displayName_admitted u clientId result t htu, hlast]

/-- What a newcomer and the others know once it has been admitted. -/
theorem directory_welcome (hin : u ∈ srv.sessions) :
    (srv.welcome u clientId result).Directory := by
  have hj := srv.joined_welcome u clientId result o ho hok
  have hfresh : ∀ s, (srv.welcome u clientId result).authenticated s = false →
      s ≠ u ∧ srv.authenticated s = false := by
    intro s hs
    have hsu : s ≠ u := fun heq => by
      rw [heq, hj.auth_self] at hs
      exact Bool.noConfusion hs
    exact ⟨hsu, (hj.auth s hsu).symm.trans hs⟩
  refine ⟨fun s hs p k => ?_, fun s hs p => ?_, fun t ht => ?_,
    srv.issued_welcome u clientId result o ho hok h.issued⟩
  · by_cases hsu : s = u
    · rw [hsu]
      exact srv.told_welcome_self u clientId result hok o ho hu hd h p k
    · exact srv.told_welcome_other u clientId result hok o ho hu hd h hin s
        ((hj.present s hsu).mp hs) hsu p k
  · rcases hfresh s hs with ⟨hsu, hs'⟩
    rcases srv.received_welcome u clientId result hok s with ⟨n, hn, hpos⟩
    have hnot : ¬ 0 < n := fun hc => by
      have hauth := (hpos.mp hc).1.2
      rw [hs] at hauth
      exact Bool.noConfusion hauth
    rw [hn, knows_replicate, if_neg hnot, if_neg hsu, List.append_nil,
      srv.received_admitted_of_ne u clientId result s hsu]
    exact h.fresh s hs' p
  · exact (srv.lastState_welcome u clientId result hok t).trans (h.silent t (hfresh t ht).2)

end Admitted

end Welcome

section Heard

variable (srv : TcpServer) (u : SessionId)

/-- A state of somebody in the map reaches everybody else who is present. -/
theorem directory_report (st : PlayerState) (hu : srv.Present u) (hd : srv.Distinct)
    (h : srv.Directory) :
    ((srv.modify u (fun o => { o with lastPlayerState := some st })).broadcastExcept u
      (.playerState (srv.playerId u) st)).Directory := by
  have hauth : ∀ s, (srv.modify u (fun o => { o with lastPlayerState := some st })).authenticated s
      = srv.authenticated s := fun s => authenticated_modify srv u s _ (fun _ => rfl)
  have hpid : ∀ s, (srv.modify u (fun o => { o with lastPlayerState := some st })).playerId s
      = srv.playerId s := fun s => playerId_modify srv u s _ (fun _ => rfl)
  have hname : ∀ s, (srv.modify u (fun o => { o with lastPlayerState := some st })).displayName s
      = srv.displayName s := fun s => displayName_modify srv u s _ (fun _ => rfl)
  have hlast := fun s => srv.lastState_report u s st hu.2
  have hpres : ∀ s, (srv.modify u (fun o => { o with lastPlayerState := some st })).Present s
      ↔ srv.Present s := fun s => srv.present_modify u s _ (fun _ => rfl)
  have hreceived : ∀ s, ∃ n, ((srv.modify u (fun o =>
        { o with lastPlayerState := some st })).broadcastExcept u
          (.playerState (srv.playerId u) st)).received s
      = srv.received s ++ List.replicate n (.event (.playerState (srv.playerId u) st)) ∧
      (0 < n ↔ srv.Present s ∧ s ≠ u) := by
    intro s
    rcases received_broadcastExcept_eq (srv.modify u (fun o =>
      { o with lastPlayerState := some st })) u s (.playerState (srv.playerId u) st)
      with ⟨n, hn, hpos⟩
    exact ⟨n, hn, by rw [hpos, hpres]⟩
  refine ⟨fun s hs p k => ?_, fun s hs p => ?_, fun t ht => ?_, ?_⟩
  · have hs' : srv.Present s := (hpres s).mp hs
    change _ ↔ ∃ t, (srv.modify u _).Present t ∧ t ≠ s ∧ (srv.modify u _).playerId t = p ∧
      k = ⟨(srv.modify u _).displayName t, (srv.modify u _).lastState t⟩
    simp only [hpres, hpid, hname, hlast]
    rcases hreceived s with ⟨n, hn, hpos⟩
    rw [hn, knows_replicate]
    by_cases hsu : s = u
    -- The session itself hears nothing, and is not listed for itself.
    · rw [if_neg (fun hc => (hpos.mp hc).2 hsu), h.told s hs' p k]
      constructor
      · rintro ⟨t, ht, hne, htp, hk⟩
        exact ⟨t, ht, hne, htp, by rw [hk, if_neg (fun heq => hne (heq.trans hsu.symm))]⟩
      · rintro ⟨t, ht, hne, htp, hk⟩
        exact ⟨t, ht, hne, htp, by rw [hk, if_neg (fun heq => hne (heq.trans hsu.symm))]⟩
    · rw [if_pos (hpos.mpr ⟨hs', hsu⟩)]
      by_cases hp : p = srv.playerId u
      · have hk := (h.told s hs' (srv.playerId u) _).mpr ⟨u, hu, Ne.symm hsu, rfl, rfl⟩
        rw [hp, heard_state, hk, Option.getD_some, Option.some.injEq]
        constructor
        · rintro rfl
          exact ⟨u, hu, Ne.symm hsu, rfl, by rw [if_pos rfl]⟩
        · rintro ⟨t, ht, _, htp, rfl⟩
          have htu := h.issued.playerId_inj hd ht.2 hu.2 htp
          rw [htu, if_pos rfl]
      · rw [heard_of_ne p _ _ (fun w hw => by
          rw [← Option.some.inj hw]
          exact Ne.symm hp), h.told s hs' p k]
        constructor
        · rintro ⟨t, ht, hne, htp, hk⟩
          exact ⟨t, ht, hne, htp, by rw [hk, if_neg (fun heq => hp (by rw [← htp, heq]))]⟩
        · rintro ⟨t, ht, hne, htp, hk⟩
          rw [if_neg (fun heq => hp (by rw [← htp, heq]))] at hk
          exact ⟨t, ht, hne, htp, hk⟩
  · have hs' : srv.authenticated s = false := (hauth s).symm.trans hs
    rcases hreceived s with ⟨n, hn, hpos⟩
    have hnot : ¬ 0 < n := fun hc => by
      have hauth' := (hpos.mp hc).1.2
      rw [hs'] at hauth'
      exact Bool.noConfusion hauth'
    rw [hn, knows_replicate, if_neg hnot]
    exact h.fresh s hs' p
  · have ht' : srv.authenticated t = false := (hauth t).symm.trans ht
    refine (hlast t).trans ?_
    rw [if_neg (fun heq => by
      rw [heq, hu.2] at ht'
      exact Bool.noConfusion ht')]
    exact h.silent t ht'
  · exact h.issued.mono (fun s m hm => sent_emit _ _ hm) hauth hpid

/-- That somebody is ready is in nobody's directory. -/
theorem directory_announce (p name : JsValue) (h : srv.Directory) :
    (((srv.modify u (fun o => { o with resourcesReady := true })).send u
      .resourcesReadyAck).broadcast (.playerReady p name)).Directory := by
  have hkeeps : Session.Keeps (fun o => { o with resourcesReady := true }) :=
    ⟨fun _ => rfl, fun _ => rfl, fun _ => rfl, fun _ => rfl⟩
  have hset := directory_act (Act.touch srv u _ hkeeps)
  have hf := act_frame (Act.touch srv u _ hkeeps)
  have hpres : ∀ s, (srv.modify u (fun o => { o with resourcesReady := true })).Present s
      ↔ srv.Present s := fun s => srv.present_modify u s _ (fun _ => rfl)
  have hheard : ∀ s q, knows ((((srv.modify u (fun o => { o with resourcesReady := true })).send u
      .resourcesReadyAck).broadcast (.playerReady p name)).received s) q
        = knows (srv.received s) q := by
    intro s q
    unfold broadcast
    rw [received_emit]
    refine (knows_append_of_none _ q _ (fun m hm => ?_)).trans
      (knows_send (srv.modify u _) u s .resourcesReadyAck rfl q)
    rcases List.mem_map.mp hm with ⟨call, hcall, rfl⟩
    rw [(recipients_broadcast _ _ call (List.mem_of_mem_filter hcall)).2]
    rfl
  refine ⟨fun s hs q k => ?_, fun s hs q => ?_, fun t ht => ?_, ?_⟩
  · rw [hheard, h.told s ((hpres s).mp hs) q k]
    change _ ↔ ∃ t, (srv.modify u _).Present t ∧ t ≠ s ∧ (srv.modify u _).playerId t = q ∧
      k = ⟨(srv.modify u _).displayName t, (srv.modify u _).lastState t⟩
    simp only [hpres, hf.pid, hf.name, hf.last]
    exact Iff.rfl
  · exact (hheard s q).trans (h.fresh s ((hf.auth s).symm.trans hs) q)
  · exact (hf.last t).trans (h.silent t ((hf.auth t).symm.trans ht))
  · exact h.issued.mono (fun s m hm => sent_emit _ _ (sent_emit _ _ hm)) hf.auth hf.pid

end Heard

end TcpServer

/-- What the steps of a run have to meet: the ids issued by now are distinct,
    `auth` comes from sessions that have not authenticated, and whoever makes
    itself heard is in the map. -/
structure Fair (host : Host) (srv : TcpServer) (e : Event) : Prop where
  distinct : (step host srv e).Distinct
  once : ∀ u, e.authFrom = some u → srv.authenticated u = false
  inside : Inside srv e

theorem directory_step (host : Host) (srv : TcpServer) (e : Event) (h : srv.Directory)
    (hfair : Fair host srv e) : (step host srv e).Directory := by
  have hbefore : srv.Distinct := fun s t r r' hr hr' => hfair.distinct s t r r'
    (mem_log_step host srv e _ hr) (mem_log_step host srv e _ hr')
  rcases step_acts host srv e with hacts | ⟨u, payload, ambient, o, result, rfl, ho, _, hres, heq⟩ |
    ⟨u, payload, ambient, rfl, hu, heq⟩ | ⟨u, payload, ambient, rfl, hu, heq⟩
  -- The ids are distinct before every act, as they are at the end.
  · refine (inv_acts (fun srv' => srv'.Directory ∧ srv'.Distinct) (fun a b hact hI => ?_) hacts
      ⟨h, hbefore⟩).1
    refine ⟨TcpServer.directory_act hact hI.2 hI.1, fun s t r r' hr hr' => ?_⟩
    rcases (TcpServer.act_frame hact).log with ⟨calls, hlog, hcalls⟩
    have hold : ∀ s r, (s, ServerMessage.authResult r) ∈ b.log → (s, .authResult r) ∈ a.log := by
      intro s r hmem
      rw [hlog] at hmem
      refine (List.mem_append.mp hmem).resolve_right (fun hnew => ?_)
      cases hcalls _ hnew with
      | greeting s m hm => exact Bool.noConfusion hm
      | service s m hm hs => exact Bool.noConfusion hm
    exact hI.2 s t r r' (hold s r hr) (hold t r' hr')
  · have hok := ok_of_authenticate host.fmt _ _ _ _ result hres
    have hd := hfair.distinct
    rw [heq] at hd ⊢
    exact srv.directory_welcome u _ result hok o ho (hfair.once u rfl) hd h (hfair.inside u rfl)
  · rw [heq]
    exact srv.directory_report u _ ⟨hfair.inside u rfl, hu⟩ hbefore h
  · rw [heq]
    exact srv.directory_announce u _ _ h

/-- A run in which sessions authenticate once, ids are not shared and only
    sessions of the map make themselves heard. -/
structure FairRun (host : Host) (es : List Event) : Prop where
  once : AuthsOnce es
  distinct : (es.foldl (step host) TcpServer.init).Distinct
  inside : Run.EachStep (step host) Inside TcpServer.init es

theorem fair_of_fairRun (host : Host) (es : List Event) (h : FairRun host es) :
    Run.EachStep (step host) (Fair host) TcpServer.init es := by
  rintro pre e ⟨post, rfl⟩
  refine ⟨?_, fun u hu => ?_, h.inside pre e (List.prefix_append _ post)⟩
  -- What has been issued by now has been issued at the end.
  · have hlog : ∀ call ∈ (step host (pre.foldl (step host) TcpServer.init) e).log,
        call ∈ ((pre ++ [e] ++ post).foldl (step host) TcpServer.init).log := by
      intro call hcall
      rw [List.foldl_append, List.foldl_append]
      exact Run.foldl_inv (step host) (fun srv => call ∈ srv.log)
        (fun srv e h => mem_log_step host srv e call h) post _ hcall
    exact fun s t r r' hr hr' => h.distinct s t r r' (hlog _ hr) (hlog _ hr')
  · refine Bool.eq_false_iff.mpr (fun hauth => ?_)
    have hbefore := authFrom_of_authenticated host pre u hauth
    have honce := h.once
    rw [AuthsOnce, List.filterMap_append, List.filterMap_append, List.filterMap_cons_some hu,
      List.filterMap_nil] at honce
    have hdisjoint := (List.nodup_append.mp (List.nodup_append.mp honce).1).2.2
    exact hdisjoint u hbefore u (List.mem_singleton.mpr rfl) rfl

theorem directory_init : TcpServer.init.Directory where
  told := fun _ hs => absurd hs.1 List.not_mem_nil
  fresh := fun _ _ _ => rfl
  silent := fun _ _ => rfl
  issued := issued_init

/-- At the end of a fair run everybody present knows of the others what the
    server has on them. -/
theorem directory_run (host : Host) (es : List Event) (h : FairRun host es) :
    (es.foldl (step host) TcpServer.init).Directory :=
  Run.foldl_inv_of_eachStep (step host) TcpServer.Directory (Fair host)
    (fun srv e => directory_step host srv e) es TcpServer.init directory_init
    (fair_of_fairRun host es h)

end Server

end MzzPlork
