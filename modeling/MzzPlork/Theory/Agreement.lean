import MzzPlork.Base.Run
import MzzPlork.Theory.Presence

/-!
# Presence Agreement

When what the clients were told is who is there.

Two sessions agree with the server when the players they were told of are
the other authenticated sessions of the map. An event preserves agreement
under a condition on its effect alone (`Safe`). A removal is safe when nobody
who stays has the player id of somebody who goes, because `player_left` names
a player and not a session. An `auth` is safe when the session is in the map
and was not known under another id, because nothing takes the old id back.

Both conditions can fail: two connections of one installation carry the same
client id, a connection may send `auth` twice, and a connection that has left
the map can still send it once. `always_agreement_iff` says that these are
the only ways in which a run ends up with a client seeing someone who is not
there or missing someone who is.

## Main definitions

* `Agreement`: Every authenticated session knows exactly who else is there.
* `Safe`: The effects that preserve it.

## Theorems

* `agreement_removed`, `agreement_joined`: The two kinds of step.
* `agreement_step`: An event preserves agreement exactly when it is safe.
* `always_agreement_iff`: Agreement along a run.
-/

namespace MzzPlork

namespace Server

namespace TcpServer

/-- Every authenticated session of the map has been told of exactly the
    others. -/
def Agreement (srv : TcpServer) : Prop :=
  ∀ s, srv.Present s → srv.presence s = some (srv.others s)

/-- Nothing has been said to a session that has not authenticated. -/
def Heard (srv : TcpServer) : Prop :=
  ∀ s, srv.authenticated s = false → srv.presence s = none

/-- Nobody who stays is known under the id of somebody who goes, as long as
    two stay. -/
def SafeRemoval (srv : TcpServer) (ks : List SessionId) : Prop :=
  ∀ k ∈ ks, srv.Present k → ∀ s t, srv.Present s → s ∉ ks → srv.Present t → t ∉ ks → t ≠ s →
    srv.playerId t ≠ srv.playerId k

/-- For everybody else, the id a session gives up is the new one or is held by
    a third session, and a session outside the map takes an id that is
    already there. -/
def SafeJoin (srv : TcpServer) (u : SessionId) (p : PlayerId) : Prop :=
  ∀ s, srv.Present s → s ≠ u →
    (srv.Present u → srv.playerId u = p ∨
      ∃ t, srv.Present t ∧ t ≠ s ∧ t ≠ u ∧ srv.playerId t = srv.playerId u) ∧
    (u ∉ srv.sessions → ∃ t, srv.Present t ∧ t ≠ s ∧ srv.playerId t = p)

theorem Removed.heard {srv srv' : TcpServer} {ks : List SessionId} (h : Removed srv srv' ks)
    (hh : srv.Heard) : srv'.Heard := by
  intro s hs
  rw [h.auth] at hs
  exact h.unheard s hs (hh s hs)

theorem Joined.heard {srv srv' : TcpServer} {u : SessionId} {p : PlayerId}
    (h : Joined srv srv' u p) (hh : srv.Heard) : srv'.Heard := by
  intro s hs
  by_cases hu : s = u
  · rw [hu, h.auth_self] at hs
    exact Bool.noConfusion hs
  · rw [h.auth s hu] at hs
    have habsent : ¬ srv.Present s := by
      rintro ⟨_, ha⟩
      rw [hs] at ha
      exact Bool.noConfusion ha
    rw [h.told s hu, if_neg habsent]
    exact hh s hs

/-- A removal preserves agreement exactly when it is safe. -/
theorem agreement_removed {srv srv' : TcpServer} {ks : List SessionId}
    (h : Removed srv srv' ks) (hagree : srv.Agreement) :
    srv'.Agreement ↔ srv.SafeRemoval ks := by
  constructor
  · intro hagree' k hk hpk s t hs hsk ht htk hne heq
    have hs' := (h.present s).mpr ⟨hs, hsk⟩
    have htold := h.told s hs'
    rw [hagree' s hs', hagree s hs, Option.map_some, Option.some.injEq] at htold
    have hmem : srv.playerId t ∈ srv'.others s :=
      ⟨t, (h.present t).mpr ⟨ht, htk⟩, hne, h.pid t⟩
    rw [htold] at hmem
    exact hmem.2 ⟨k, hk, hpk, heq.symm⟩
  · intro hsafe s hs'
    rcases (h.present s).mp hs' with ⟨hs, hsk⟩
    -- The two sets agree: who is left, and who was known less the ids that went.
    rw [h.told s hs', hagree s hs, Option.map_some, Option.some.injEq]
    ext p
    constructor
    · rintro ⟨⟨t, ht, hne, rfl⟩, hp⟩
      have htk : t ∉ ks := fun htk => hp ⟨t, htk, ht, rfl⟩
      exact ⟨t, (h.present t).mpr ⟨ht, htk⟩, hne, h.pid t⟩
    · rintro ⟨t, ht', hne, rfl⟩
      rcases (h.present t).mp ht' with ⟨ht, htk⟩
      rw [h.pid]
      refine ⟨⟨t, ht, hne, rfl⟩, ?_⟩
      rintro ⟨k, hk, hpk, heq⟩
      exact hsafe k hk hpk s t hs hsk ht htk hne heq.symm

theorem Joined.present {srv srv' : TcpServer} {u : SessionId} {p : PlayerId}
    (h : Joined srv srv' u p) (s : SessionId) (hs : s ≠ u) :
    srv'.Present s ↔ srv.Present s := by
  rw [Present, Present, h.sessions, h.auth s hs]

theorem Joined.present_self {srv srv' : TcpServer} {u : SessionId} {p : PlayerId}
    (h : Joined srv srv' u p) : srv'.Present u ↔ u ∈ srv.sessions := by
  rw [Present, h.sessions, h.auth_self, and_iff_left rfl]

/-- The newcomer itself always agrees. -/
theorem Joined.agrees_self {srv srv' : TcpServer} {u : SessionId} {p : PlayerId}
    (h : Joined srv srv' u p) (hh : srv.Heard) (hagree : srv.Agreement)
    (hu : srv'.Present u) : srv'.presence u = some (srv'.others u) := by
  rw [h.told_self, others_congr srv srv' u h.sessions h.auth h.pid]
  by_cases ha : srv.authenticated u = true
  · rw [hagree u ⟨h.present_self.mp hu, ha⟩, Option.getD_some, Set.union_self]
  · rw [hh u (Bool.eq_false_iff.mpr ha), Option.getD_none, Set.empty_union]

/-- Whom the others should know of after an id was issued. -/
theorem Joined.mem_others {srv srv' : TcpServer} {u : SessionId} {p : PlayerId}
    (h : Joined srv srv' u p) (s : SessionId) (hs : s ≠ u) (q : PlayerId) :
    q ∈ srv'.others s ↔ (u ∈ srv.sessions ∧ p = q) ∨
      ∃ t, srv.Present t ∧ t ≠ s ∧ t ≠ u ∧ srv.playerId t = q := by
  constructor
  · rintro ⟨t, ht, hne, rfl⟩
    by_cases hu : t = u
    · rw [hu, h.pid_self]
      rw [hu] at ht
      exact Or.inl ⟨h.present_self.mp ht, rfl⟩
    · rw [h.pid t hu]
      exact Or.inr ⟨t, (h.present t hu).mp ht, hne, hu, rfl⟩
  · rintro (⟨hu, rfl⟩ | ⟨t, ht, hne, hu, rfl⟩)
    · exact ⟨u, h.present_self.mpr hu, hs.symm, h.pid_self⟩
    · exact ⟨t, (h.present t hu).mpr ht, hne, h.pid t hu⟩

/-- An `auth` preserves agreement exactly when it is safe. -/
theorem agreement_joined {srv srv' : TcpServer} {u : SessionId} {p : PlayerId}
    (h : Joined srv srv' u p) (hh : srv.Heard) (hagree : srv.Agreement) :
    srv'.Agreement ↔ srv.SafeJoin u p := by
  -- What a session other than the newcomer is told, next to what is the case.
  have htold : ∀ s, srv.Present s → s ≠ u →
      srv'.presence s = some (insert p (srv.others s)) := by
    intro s hs hne
    rw [h.told s hne, if_pos hs, hagree s hs, Option.map_some]
  constructor
  · intro hagree' s hs hne
    have heq := (htold s hs hne).symm.trans (hagree' s ((h.present s hne).mpr hs))
    rw [Option.some.injEq] at heq
    refine ⟨fun hu => ?_, fun hu => ?_⟩
    · have hmem : srv.playerId u ∈ srv'.others s := by
        rw [← heq]
        exact Set.mem_insert_of_mem p ⟨u, hu, hne.symm, rfl⟩
      rcases (h.mem_others s hne _).mp hmem with ⟨_, hp⟩ | hthird
      · exact Or.inl hp.symm
      · exact Or.inr hthird
    · have hmem : p ∈ srv'.others s := by
        rw [← heq]
        exact Set.mem_insert p _
      rcases (h.mem_others s hne p).mp hmem with ⟨hu', _⟩ | ⟨t, ht, htne, _, htp⟩
      · exact absurd hu' hu
      · exact ⟨t, ht, htne, htp⟩
  · intro hsafe s hs'
    by_cases hne : s = u
    · subst hne
      exact h.agrees_self hh hagree hs'
    · have hs := (h.present s hne).mp hs'
      rw [htold s hs hne, Option.some.injEq]
      ext q
      rw [h.mem_others s hne, Set.mem_insert_iff]
      constructor
      · rintro (rfl | ⟨t, ht, htne, rfl⟩)
        -- The id announced is that of a session in the map, or somebody else holds it.
        · by_cases hu : u ∈ srv.sessions
          · exact Or.inl ⟨hu, rfl⟩
          · rcases (hsafe s hs hne).2 hu with ⟨t, ht, htne, htp⟩
            exact Or.inr ⟨t, ht, htne, fun htu => hu (htu ▸ ht.1), htp⟩
        · by_cases htu : t = u
          · rw [htu] at ht ⊢
            -- The id the newcomer gives up is still held by a third session, or not given up.
            rcases (hsafe s hs hne).1 ht with hp | hthird
            · exact Or.inl ⟨ht.1, hp.symm⟩
            · exact Or.inr hthird
          · exact Or.inr ⟨t, ht, htne, htu, rfl⟩
      · rintro (⟨_, rfl⟩ | ⟨t, ht, htne, _, htp⟩)
        · exact Or.inl rfl
        · exact Or.inr ⟨t, ht, htne, htp⟩

end TcpServer

/-- The effects that preserve agreement. -/
def Safe (srv : TcpServer) (c : Effect) : Prop :=
  match c with
  | .removed ks => srv.SafeRemoval ks
  | .joined u p => srv.SafeJoin u p

theorem heard_step (host : Host) (srv : TcpServer) (e : Event) (h : srv.Heard) :
    (step host srv e).Heard := by
  have heffect := step_effect host srv e
  cases hc : effect host srv e with
  | removed ks =>
      rw [hc] at heffect
      exact TcpServer.Removed.heard heffect h
  | joined u p =>
      rw [hc] at heffect
      exact TcpServer.Joined.heard heffect h

/-- An event preserves agreement exactly when its effect is safe. -/
theorem agreement_step (host : Host) (srv : TcpServer) (e : Event) (hh : srv.Heard)
    (hagree : srv.Agreement) :
    (step host srv e).Agreement ↔ Safe srv (effect host srv e) := by
  have heffect := step_effect host srv e
  cases hc : effect host srv e with
  | removed ks =>
      rw [hc] at heffect
      exact TcpServer.agreement_removed heffect hagree
  | joined u p =>
      rw [hc] at heffect
      exact TcpServer.agreement_joined heffect hh hagree

/-- Agreement holds in every state of a run exactly when every step of the run
    is safe. -/
theorem always_agreement_iff (host : Host) (es : List Event) :
    Run.Always (step host) TcpServer.Agreement TcpServer.init es ↔
      Run.EachStep (step host) (fun srv e => Safe srv (effect host srv e)) TcpServer.init es := by
  refine Run.always_iff_eachStep (step host) TcpServer.Heard (heard_step host)
    TcpServer.Agreement _ (agreement_step host) es TcpServer.init ?_ ?_
  · exact fun _ _ => rfl
  · exact fun s hs => absurd hs.1 List.not_mem_nil

section Divergence

/-- A connection that says hello and authenticates under a client id. -/
def arrive (u clientId : JsString) : List Event :=
  let ambient : Ambient := ⟨0, [], [], []⟩
  [.connect u 0,
    .message u .hello (some (.obj [(js "protocolVersion", .str (js "1.0"))])) ambient,
    .message u .auth (some (.obj [(js "clientId", .str clientId)])) ambient]

/-- A client reconnects before its old connection is noticed to be gone. -/
def reconnectRun : List Event :=
  arrive (js "s1") (js "aaaaaaaa") ++ arrive (js "s2") (js "bbbbbbbb")
    ++ arrive (js "s3") (js "bbbbbbbb") ++ [.close (js "s2")]

/-- The server after that. -/
def afterReconnect : TcpServer :=
  reconnectRun.foldl (step (Host.shipped (fun _ => []))) TcpServer.init

/-- The reconnected client is there, and the first client was told it left. -/
theorem not_agreement_afterReconnect : ¬ afterReconnect.Agreement := by
  intro hagree
  have hself : afterReconnect.Present (js "s1") := by decide
  have hthere : Json.str (js "bbbbbbbb") ∈ afterReconnect.others (js "s1") :=
    ⟨js "s3", by decide, by decide, rfl⟩
  have htold : afterReconnect.presence (js "s1")
      = some (insert (.str (js "bbbbbbbb")) (insert (.str (js "bbbbbbbb")) ∅)
          \ {.str (js "bbbbbbbb")}) := rfl
  rw [← Option.some.inj (htold.symm.trans (hagree _ hself))] at hthere
  exact hthere.2 rfl

end Divergence

end Server

end MzzPlork
