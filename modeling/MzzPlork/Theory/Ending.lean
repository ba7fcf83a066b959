import MzzPlork.Base.Fairness
import MzzPlork.Base.Run
import MzzPlork.Core.Runtime

/-!
# The End of a Client

A client always gets to its end. Whatever the server says or leaves unsaid,
whether lines can be sent or not and whichever thread comes to its turn when,
the main thread is through with `Run` as soon as every wait has expired often
enough and the control input has ended.

It waits for replies, which is over when the wait expires, and for its threads,
which it has told to stop by then: the heartbeat thread can be in the middle of
a request, and the replication thread in the middle of a `Tick`, but neither
begins another one.

## Main definitions

* `Client.Over`: The main thread has left `Run`.
* `Told`: A thread that is waited for has been told to stop.
* `left`, `Due`: What is left of a run, and what gets it further.
* `FairRounds`: Schedules in which nobody is left out.

## Theorems

* `progress_act`: What is due gets a run further.
* `over_run`: A run comes to its end.
-/

namespace MzzPlork

namespace Runtime

open Server

/-- The main thread has left `Run`. -/
def Client.Over (c : Client) : Prop := (∃ exitCode, c.main = .returned exitCode) ∨ c.main = .aborted

/-- A thread that is waited for has been told to stop. -/
structure Told (c : Client) : Prop where
  heartbeat : c.main = .joiningHeartbeat → c.heartbeatShouldStop = true
  replication : c.main = .joiningReplication → c.replicationShouldStop = true

/-- What is left of the heartbeat thread, once it has been told to stop. -/
def heartbeatLeft (t : HeartbeatPc) : Nat :=
  match t with
  | .absent | .ended => 0
  | .sleeping => 1
  | .waiting => 2

/-- The same for the replication thread. -/
def replicationLeft (t : ReplicationPc) : Nat :=
  match t with
  | .absent | .ended => 0
  | .checking => 1
  | .ticking => 2

/-- What is left of the main thread. Two steps each are kept for the threads it
    waits for. -/
def MainPc.rank (main : MainPc) : Nat :=
  match main with
  | .starting => 23
  | .services => 22
  | .connecting => 21
  | .helloRequest => 20
  | .helloReply => 19
  | .authRequest => 18
  | .authReply => 17
  | .manifestRequest => 16
  | .manifestReply => 15
  | .applying | .unconnected => 14
  | .loading _ => 13
  | .readyReply => 12
  | .settling => 11
  | .idle => 10
  | .joiningHeartbeat => 7
  | .joiningReplication => 4
  | .requestingDisconnect => 3
  | .disconnect => 2
  | .closing => 1
  | .returned _ | .aborted => 0

/-- What is left of a run. As long as a thread is not waited for, its steps do
    not count. -/
def left (c : Client) : Nat :=
  c.main.rank + match c.main with
    | .joiningHeartbeat => heartbeatLeft c.heartbeat
    | .joiningReplication => replicationLeft c.replication
    | _ => 0

/-- The main thread does not wait for a thread. -/
def MainPc.free (main : MainPc) : Bool := main ≠ .joiningHeartbeat && main ≠ .joiningReplication

/-- What gets a run further: the end of the input, a thread that is waited for,
    or else the main thread, whose wait is over. -/
def Due (c : Client) (a : ClientAction) : Prop :=
  match c.main with
  | .idle => a = .endOfInput
  | .joiningHeartbeat =>
    if heartbeatLeft c.heartbeat = 0 then ∃ sent expired, a = .main sent expired
    else ∃ sent, a = .heartbeat sent true
  | .joiningReplication =>
    if replicationLeft c.replication = 0 then ∃ sent expired, a = .main sent expired
    else ∃ state sent, a = .replication state sent
  | .returned _ | .aborted => False
  | _ => ∃ sent, a = .main sent true

/-- Rounds in which the main thread and the others come to a turn with their
    waits over, and the input is found to have ended. -/
def FairRounds (rounds : List (List ClientAction)) : Prop :=
  ∀ as ∈ rounds, (∃ sent, .main sent true ∈ as) ∧ .endOfInput ∈ as ∧
    (∃ sent, .heartbeat sent true ∈ as) ∧ ∃ state sent, .replication state sent ∈ as

section Steps

variable {c : Client} {services : Services} {script : Heartbeat.Script}
  {parses : ServerMessage → Bool}

theorem left_eq_zero_iff : left c = 0 ↔ c.Over := by
  unfold left MainPc.rank Client.Over
  cases hmain : c.main with
  | returned exitCode => exact ⟨fun _ => Or.inl ⟨exitCode, rfl⟩, fun _ => rfl⟩
  | aborted => exact ⟨fun _ => Or.inr rfl, fun _ => rfl⟩
  | _ =>
      constructor
      · intro h
        dsimp only at h
        omega
      · rintro (⟨_, h⟩ | h) <;> cases h

theorem heartbeatLeft_eq_zero_iff (t : HeartbeatPc) :
    heartbeatLeft t = 0 ↔ t = .absent ∨ t = .ended := by
  cases t <;> simp [heartbeatLeft]

theorem heartbeatLeft_le (t : HeartbeatPc) : heartbeatLeft t ≤ 2 := by
  cases t <;> decide

theorem replicationLeft_le (t : ReplicationPc) : replicationLeft t ≤ 2 := by
  cases t <;> decide

theorem replicationLeft_eq_zero_iff (t : ReplicationPc) :
    replicationLeft t = 0 ↔ t = .absent ∨ t = .ended := by
  cases t <;> simp [replicationLeft]

/-- Something is always due. -/
theorem exists_due (rounds : List (List ClientAction)) (hfair : FairRounds rounds)
    (as : List ClientAction) (has : as ∈ rounds) (hleft : left c ≠ 0) : ∃ a ∈ as, Due c a := by
  rcases hfair as has with ⟨⟨sent, hmain⟩, hinput, ⟨sent', hheartbeat⟩, state, sent'', hreplication⟩
  have hover : ¬ c.Over := fun ho => hleft (left_eq_zero_iff.mpr ho)
  -- What is due depends on what the main thread waits for.
  cases hat : c.main with
  | returned exitCode => exact absurd (Or.inl ⟨exitCode, hat⟩) hover
  | aborted => exact absurd (Or.inr hat) hover
  | idle => exact ⟨.endOfInput, hinput, by simp only [Due, hat]⟩
  | joiningHeartbeat =>
      by_cases hzero : heartbeatLeft c.heartbeat = 0
      · refine ⟨.main sent true, hmain, ?_⟩
        simp only [Due, hat, if_pos hzero]
        exact ⟨sent, true, rfl⟩
      · refine ⟨.heartbeat sent' true, hheartbeat, ?_⟩
        simp only [Due, hat, if_neg hzero]
        exact ⟨sent', rfl⟩
  | joiningReplication =>
      by_cases hzero : replicationLeft c.replication = 0
      · refine ⟨.main sent true, hmain, ?_⟩
        simp only [Due, hat, if_pos hzero]
        exact ⟨sent, true, rfl⟩
      · refine ⟨.replication state sent'', hreplication, ?_⟩
        simp only [Due, hat, if_neg hzero]
        exact ⟨state, sent'', rfl⟩
  | _ =>
      refine ⟨.main sent true, hmain, ?_⟩
      simp only [Due, hat]
      exact ⟨sent, rfl⟩

/-- The main thread has got to a place with so much left, where it waits for no
    thread. -/
structure Lands (c : Client) (k : Nat) : Prop where
  free : c.main.free = true
  left_le : left c ≤ k

theorem left_of_free (hfree : c.main.free = true) : left c = c.main.rank := by
  unfold left
  unfold MainPc.free at hfree
  -- Only where a thread is waited for do its steps count.
  cases hmain : c.main with
  | joiningHeartbeat =>
      rw [hmain] at hfree
      exact absurd hfree (by decide)
  | joiningReplication =>
      rw [hmain] at hfree
      exact absurd hfree (by decide)
  | _ => rfl

theorem lands_goTo {k : Nat} (main : MainPc) (hfree : main.free = true) (hk : main.rank ≤ k) :
    Lands (c.goTo main) k :=
  ⟨hfree, Nat.le_trans (Nat.le_of_eq (left_of_free hfree)) hk⟩

theorem Lands.mono {k k' : Nat} (h : Lands c k) (hk : k ≤ k') : Lands c k' :=
  ⟨h.free, Nat.le_trans h.left_le hk⟩

theorem Lands.told {k : Nat} (h : Lands c k) : Told c where
  heartbeat := fun hmain => by
    have hfree := h.free
    rw [hmain] at hfree
    exact absurd hfree (by decide)
  replication := fun hmain => by
    have hfree := h.free
    rw [hmain] at hfree
    exact absurd hfree (by decide)

section Requests

theorem lands_start : Lands (c.start services) 22 := by
  unfold Client.start
  dsimp only
  split
  · exact lands_goTo _ rfl (by decide)
  · exact lands_goTo _ rfl (by decide)

theorem lands_startServices : Lands (c.startServices services) 21 := by
  unfold Client.startServices
  dsimp only
  split
  · exact lands_goTo _ rfl (by decide)
  · exact lands_goTo _ rfl (by decide)

theorem lands_connect : Lands (c.connect services) 20 := by
  unfold Client.connect
  dsimp only
  split
  · exact lands_goTo _ rfl (by decide)
  · split
    · exact lands_goTo _ rfl (by decide)
    · exact lands_goTo _ rfl (by decide)

theorem lands_giveUp (service message : Bytes) : Lands (c.giveUp service message) 14 :=
  lands_goTo _ rfl (by decide)

theorem lands_request {k : Nat} (line : Line) (replyType : JsString) (sent : Bool)
    (waits : MainPc) (fails : Client → Client) (hfree : waits.free = true) (hk : waits.rank ≤ k)
    (hfails : Lands (fails (c.erase replyType)) k) :
    Lands (c.request line replyType sent waits fails) k := by
  unfold Client.request
  split
  · exact lands_goTo _ hfree hk
  · exact hfails

theorem lands_onHelloAck (reply : Option ServerMessage) : Lands (c.onHelloAck reply) 18 := by
  unfold Client.onHelloAck
  split
  · exact lands_goTo _ rfl (by decide)
  · exact (lands_giveUp _ _).mono (by decide)

theorem lands_onAuthResult (reply : Option ServerMessage) : Lands (c.onAuthResult reply) 16 := by
  unfold Client.onAuthResult
  split
  · split
    · exact lands_goTo _ rfl (by decide)
    · exact (lands_giveUp _ _).mono (by decide)
  · exact (lands_giveUp _ _).mono (by decide)

theorem lands_withoutManifest : Lands c.withoutManifest 13 := lands_goTo _ rfl (by decide)

theorem lands_onManifest (reply : Option ServerMessage) : Lands (c.onManifest reply) 14 := by
  unfold Client.onManifest
  split
  · exact lands_goTo _ rfl (by decide)
  · exact lands_withoutManifest.mono (by decide)

theorem lands_applyManifest : Lands (c.applyManifest services) 13 := by
  unfold Client.applyManifest
  split
  · exact lands_goTo _ rfl (by decide)
  · split
    · exact lands_goTo _ rfl (by decide)
    · exact lands_goTo _ rfl (Nat.le_refl 13)

theorem lands_load (manifestApplied sent : Bool) :
    Lands (c.load script manifestApplied sent) 12 := by
  unfold Client.load
  dsimp only
  split
  · split
    · exact lands_request _ _ sent _ _ rfl (by decide) (lands_goTo _ rfl (by decide))
    · exact lands_goTo _ rfl (by decide)
  · exact lands_goTo _ rfl (by decide)

theorem lands_onReadyAck (reply : Option ServerMessage) : Lands (c.onReadyAck reply) 11 := by
  unfold Client.onReadyAck
  split
  · exact lands_goTo _ rfl (by decide)
  · exact lands_goTo _ rfl (by decide)

end Requests

/-- A state with the same left to do, in which the same is due. -/
theorem waits_of_main {c' : Client} (hmain : c'.main = c.main)
    (hheartbeat : c.main = .joiningHeartbeat → c'.heartbeat = c.heartbeat)
    (hreplication : c.main = .joiningReplication → c'.replication = c.replication) :
    left c' = left c ∧ ∀ a, Due c a → Due c' a := by
  unfold left Due
  rw [hmain]
  -- The state of a thread matters where it is waited for, and only there.
  cases hat : c.main with
  | joiningHeartbeat =>
      rw [hheartbeat hat]
      exact ⟨rfl, fun _ h => h⟩
  | joiningReplication =>
      rw [hreplication hat]
      exact ⟨rfl, fun _ h => h⟩
  | _ => exact ⟨rfl, fun _ h => h⟩

/-- A wait that is not over has not expired. -/
theorem expired_of_reply {replyType : JsString} {expired : Bool}
    (h : c.reply parses replyType expired = none) : expired = false := by
  unfold Client.reply at h
  split at h
  · cases h
  · cases expired with
    | true => cases h
    | false => rfl

/-- A step gets the run further, or was not due and leaves what is due. -/
def Advances (c c' : Client) (a : ClientAction) : Prop :=
  left c' < left c ∨ (¬ Due c a ∧ left c' = left c ∧ ∀ a', Due c a' → Due c' a')

theorem advances_same {a : ClientAction} (hdue : ¬ Due c a) : Advances c c a :=
  Or.inr ⟨hdue, rfl, fun _ h => h⟩

/-- What a step of the main thread comes to: it gets on to where it waits for no
    thread, it waits, or it has joined the heartbeat thread. -/
inductive Turned (c c' : Client) (a : ClientAction) : Prop where
  | lands (k : Nat) (h : Lands c' k) (hk : k < left c)
  | waits (hsame : c' = c) (hdue : ¬ Due c a)
  | joins (hless : left c' < left c) (hmain : c'.main = .joiningReplication)
      (hstop : c'.replicationShouldStop = true)

theorem Turned.advances {c' : Client} {a : ClientAction} (h : Turned c c' a) :
    Advances c c' a := by
  cases h with
  | lands k h hk => exact Or.inl (Nat.lt_of_le_of_lt h.left_le hk)
  | waits hsame hdue =>
      rw [hsame]
      exact advances_same hdue
  | joins hless hmain hstop => exact Or.inl hless

theorem Turned.told {c' : Client} {a : ClientAction} (h : Turned c c' a) (ht : Told c) :
    Told c' := by
  cases h with
  | lands k h hk => exact h.told
  | waits hsame hdue => exact hsame ▸ ht
  | joins hless hmain hstop =>
      exact ⟨fun hat => absurd (hmain.symm.trans hat) (by decide), fun _ => hstop⟩

/-- A wait of the main thread goes on or is over. -/
theorem turned_reply {replyType : JsString} {sent expired : Bool} {k : Nat}
    (f : Client → Option ServerMessage → Client)
    (hf : ∀ (c' : Client) (reply : Option ServerMessage), Lands (f c' reply) k)
    (hk : k < left c)
    (hdue : Due c (.main sent expired) →
      ∃ sent', ClientAction.main sent expired = .main sent' true) :
    Turned c (match c.reply parses replyType expired with
      | some reply => f (c.erase replyType) reply
      | none => c) (.main sent expired) := by
  split
  · exact Turned.lands _ (hf _ _) hk
  · rename_i hnone
    -- A wait that goes on has not expired, but only an expired one is due.
    refine Turned.waits rfl (fun hd => ?_)
    rcases hdue hd with ⟨sent', heq⟩
    exact Bool.noConfusion ((expired_of_reply hnone).symm.trans (ClientAction.main.inj heq).2)

theorem turned_mainStep (sent expired : Bool) :
    Turned c (c.mainStep services script parses sent expired) (.main sent expired) := by
  -- Outside the two joins the rank is all that is left.
  have hrank : ∀ main, c.main = main → main.free = true → left c = main.rank :=
    fun main hmain hfree => hmain ▸ left_of_free (by rw [hmain]; exact hfree)
  unfold Client.mainStep
  cases hmain : c.main with
  | starting => exact Turned.lands _ lands_start (by rw [hrank _ hmain rfl]; decide)
  | services => exact Turned.lands _ lands_startServices (by rw [hrank _ hmain rfl]; decide)
  | connecting => exact Turned.lands _ lands_connect (by rw [hrank _ hmain rfl]; decide)
  | helloRequest =>
      exact Turned.lands _ (lands_request _ _ sent _ _ rfl (Nat.le_refl 19)
        ((lands_giveUp _ _).mono (by decide))) (by rw [hrank _ hmain rfl]; decide)
  | helloReply =>
      exact turned_reply Client.onHelloAck (fun _ reply => lands_onHelloAck reply)
        (by rw [hrank _ hmain rfl]; decide) (fun hdue => by rwa [Due, hmain] at hdue)
  | authRequest =>
      exact Turned.lands _ (lands_request _ _ sent _ _ rfl (Nat.le_refl 17)
        ((lands_giveUp _ _).mono (by decide))) (by rw [hrank _ hmain rfl]; decide)
  | authReply =>
      exact turned_reply Client.onAuthResult (fun _ reply => lands_onAuthResult reply)
        (by rw [hrank _ hmain rfl]; decide) (fun hdue => by rwa [Due, hmain] at hdue)
  | manifestRequest =>
      exact Turned.lands _ (lands_request _ _ sent _ _ rfl (Nat.le_refl 15)
        (lands_withoutManifest.mono (by decide))) (by rw [hrank _ hmain rfl]; decide)
  | manifestReply =>
      exact turned_reply Client.onManifest (fun _ reply => lands_onManifest reply)
        (by rw [hrank _ hmain rfl]; decide) (fun hdue => by rwa [Due, hmain] at hdue)
  | applying => exact Turned.lands _ lands_applyManifest (by rw [hrank _ hmain rfl]; decide)
  | unconnected =>
      exact Turned.lands _ (lands_goTo (.loading false) rfl (Nat.le_refl 13))
        (by rw [hrank _ hmain rfl]; decide)
  | loading manifestApplied =>
      exact Turned.lands _ (lands_load manifestApplied sent)
        (by rw [hrank _ hmain rfl, MainPc.rank]; decide)
  | readyReply =>
      exact turned_reply Client.onReadyAck (fun _ reply => lands_onReadyAck reply)
        (by rw [hrank _ hmain rfl]; decide) (fun hdue => by rwa [Due, hmain] at hdue)
  | settling =>
      exact Turned.lands _ (lands_goTo .idle rfl (Nat.le_refl 10))
        (by rw [hrank _ hmain rfl]; decide)
  | idle =>
      refine Turned.waits rfl (fun hdue => ?_)
      rw [Due, hmain] at hdue
      cases hdue
  | joiningHeartbeat =>
      dsimp only
      unfold Client.joinHeartbeat
      have hleft : left c = 7 + heartbeatLeft c.heartbeat := by
        unfold left
        rw [hmain]
        rfl
      split
      · refine Turned.joins ?_ rfl rfl
        rw [hleft]
        exact Nat.lt_of_le_of_lt (Nat.add_le_add_left (replicationLeft_le _) 4) (by omega)
      · rename_i hrun
        refine Turned.waits rfl (fun hdue => ?_)
        simp only [Due, hmain, if_neg (fun hz => hrun ((heartbeatLeft_eq_zero_iff _).mp hz))]
          at hdue
        rcases hdue with ⟨_, heq⟩
        cases heq
  | joiningReplication =>
      dsimp only
      unfold Client.joinReplication
      have hleft : left c = 4 + replicationLeft c.replication := by
        unfold left
        rw [hmain]
        rfl
      split
      · have hlands : ∀ b : Bool,
            Lands (c.goTo (if b then .requestingDisconnect else .closing)) 3 :=
          fun b => by cases b <;> exact lands_goTo _ rfl (by decide)
        exact Turned.lands _ (hlands _) (by omega)
      · rename_i hrun
        refine Turned.waits rfl (fun hdue => ?_)
        simp only [Due, hmain, if_neg (fun hz => hrun ((replicationLeft_eq_zero_iff _).mp hz))]
          at hdue
        rcases hdue with ⟨_, _, heq⟩
        cases heq
  | requestingDisconnect =>
      exact Turned.lands _ (lands_goTo .disconnect rfl (Nat.le_refl 2))
        (by rw [hrank _ hmain rfl]; decide)
  | disconnect =>
      exact Turned.lands _ (lands_goTo .closing rfl (Nat.le_refl 1))
        (by rw [hrank _ hmain rfl]; decide)
  | closing =>
      exact Turned.lands _ (lands_goTo (.returned 0) rfl (Nat.le_refl 0))
        (by rw [hrank _ hmain rfl]; decide)
  | returned exitCode =>
      refine Turned.waits rfl (fun hdue => ?_)
      rw [Due, hmain] at hdue
      exact hdue
  | aborted =>
      refine Turned.waits rfl (fun hdue => ?_)
      rw [Due, hmain] at hdue
      exact hdue

theorem advances_endOfInput : Advances c c.endOfInput .endOfInput := by
  unfold Client.endOfInput
  split
  · rename_i hmain
    -- Three steps are kept for joining a thread, and it needs two at most.
    have hleft : left c = 10 := left_of_free (by rw [hmain]; rfl) |>.trans (by rw [hmain]; rfl)
    refine Or.inl ?_
    rw [hleft]
    exact Nat.lt_of_le_of_lt (Nat.add_le_add_left (heartbeatLeft_le _) 7) (by omega)
  · rename_i hmain
    -- Elsewhere the end of the input is not what is due.
    refine advances_same (fun hdue => ?_)
    unfold Due at hdue
    split at hdue
    · rename_i hidle
      exact hmain hidle
    · split at hdue
      · rcases hdue with ⟨_, _, heq⟩
        cases heq
      · rcases hdue with ⟨_, heq⟩
        cases heq
    · split at hdue
      · rcases hdue with ⟨_, _, heq⟩
        cases heq
      · rcases hdue with ⟨_, _, heq⟩
        cases heq
    · exact hdue
    · exact hdue
    · rcases hdue with ⟨_, heq⟩
      cases heq

/-- A thread is due where the main thread waits for it, and nowhere else. -/
theorem joining_of_due (a : ClientAction) (hdue : Due c a) :
    (∀ sent expired, a = .heartbeat sent expired →
      c.main = .joiningHeartbeat ∧ heartbeatLeft c.heartbeat ≠ 0 ∧ expired = true) ∧
    (∀ state sent, a = .replication state sent →
      c.main = .joiningReplication ∧ replicationLeft c.replication ≠ 0) ∧
    (∀ m, a ≠ .dispatch m) ∧ ∀ created id, a ≠ .entity created id := by
  unfold Due at hdue
  split at hdue
  · rw [hdue]
    exact ⟨fun _ _ h => (by cases h), fun _ _ h => (by cases h), fun _ h => (by cases h),
      fun _ _ h => (by cases h)⟩
  · rename_i hmain
    split at hdue
    · rcases hdue with ⟨_, _, rfl⟩
      exact ⟨fun _ _ h => (by cases h), fun _ _ h => (by cases h), fun _ h => (by cases h),
        fun _ _ h => (by cases h)⟩
    · rename_i hrun
      rcases hdue with ⟨_, rfl⟩
      exact ⟨fun _ _ h => ⟨hmain, hrun, (ClientAction.heartbeat.inj h).2.symm⟩,
        fun _ _ h => (by cases h), fun _ h => (by cases h), fun _ _ h => (by cases h)⟩
  · rename_i hmain
    split at hdue
    · rcases hdue with ⟨_, _, rfl⟩
      exact ⟨fun _ _ h => (by cases h), fun _ _ h => (by cases h), fun _ h => (by cases h),
        fun _ _ h => (by cases h)⟩
    · rename_i hrun
      rcases hdue with ⟨_, _, rfl⟩
      exact ⟨fun _ _ h => (by cases h), fun _ _ _ => ⟨hmain, hrun⟩, fun _ h => (by cases h),
        fun _ _ h => (by cases h)⟩
  · exact hdue.elim
  · exact hdue.elim
  · rcases hdue with ⟨_, rfl⟩
    exact ⟨fun _ _ h => (by cases h), fun _ _ h => (by cases h), fun _ h => (by cases h),
      fun _ _ h => (by cases h)⟩

/-- The heartbeat thread does not begin another request once it is waited for. -/
theorem advances_heartbeatStep (sent expired : Bool) (ht : Told c) :
    Advances c (c.heartbeatStep parses sent expired) (.heartbeat sent expired) := by
  -- While nobody waits for it, its steps do not count.
  have hstay : ∀ c' : Client, c'.main = c.main → c'.replication = c.replication →
      c.main ≠ .joiningHeartbeat → Advances c c' (.heartbeat sent expired) := by
    intro c' hmain hreplication hne
    rcases waits_of_main hmain (fun hat => absurd hat hne) (fun _ => hreplication) with
      ⟨hleft, hdue⟩
    exact Or.inr ⟨fun hd => hne ((joining_of_due _ hd).1 sent expired rfl).1, hleft, hdue⟩
  by_cases hmain : c.main = .joiningHeartbeat
  · have hless : ∀ (c' : Client) (t : HeartbeatPc), c'.main = c.main → c'.heartbeat = t →
        heartbeatLeft t < heartbeatLeft c.heartbeat →
        Advances c c' (.heartbeat sent expired) := by
      intro c' t hmain' hat hl
      refine Or.inl ?_
      unfold left
      rw [hmain', hmain, hat]
      exact Nat.add_lt_add_left hl 7
    have hidle : heartbeatLeft c.heartbeat = 0 → Advances c c (.heartbeat sent expired) :=
      fun hzero => advances_same (fun hd => ((joining_of_due _ hd).1 sent expired rfl).2.1 hzero)
    unfold Client.heartbeatStep
    cases hbeat : c.heartbeat with
    | absent => exact hidle (by rw [hbeat]; rfl)
    | ended => exact hidle (by rw [hbeat]; rfl)
    | sleeping =>
        -- It has been told to stop, so it sends nothing more.
        dsimp only
        rw [if_pos (ht.heartbeat hmain)]
        exact hless _ .ended rfl rfl (by rw [hbeat]; decide)
    | waiting =>
        dsimp only
        split
        · exact hless _ .sleeping rfl rfl (by rw [hbeat]; decide)
        · rename_i hnone
          refine advances_same (fun hd => ?_)
          exact Bool.noConfusion ((expired_of_reply hnone).symm.trans
            ((joining_of_due _ hd).1 sent expired rfl).2.2)
  · unfold Client.heartbeatStep
    split
    · exact hstay _ rfl rfl hmain
    · split
      · exact hstay _ rfl rfl hmain
      · split <;> exact hstay _ rfl rfl hmain
    · split <;> exact hstay _ rfl rfl hmain
    · exact hstay _ rfl rfl hmain

/-- Nor does the replication thread begin another `Tick`. -/
theorem advances_replicationStep (state : Option JsValue) (sent : Bool) (ht : Told c) :
    Advances c (c.replicationStep state sent) (.replication state sent) := by
  -- While nobody waits for it, its steps do not count.
  have hstay : ∀ c' : Client, c'.main = c.main → c'.heartbeat = c.heartbeat →
      c.main ≠ .joiningReplication → Advances c c' (.replication state sent) := by
    intro c' hmain hheartbeat hne
    rcases waits_of_main hmain (fun _ => hheartbeat) (fun hat => absurd hat hne) with
      ⟨hleft, hdue⟩
    exact Or.inr ⟨fun hd => hne ((joining_of_due _ hd).2.1 state sent rfl).1, hleft, hdue⟩
  by_cases hmain : c.main = .joiningReplication
  · have hless : ∀ (c' : Client) (t : ReplicationPc), c'.main = c.main → c'.replication = t →
        replicationLeft t < replicationLeft c.replication →
        Advances c c' (.replication state sent) := by
      intro c' t hmain' hat hl
      refine Or.inl ?_
      unfold left
      rw [hmain', hmain, hat]
      exact Nat.add_lt_add_left hl 4
    have hidle : replicationLeft c.replication = 0 → Advances c c (.replication state sent) :=
      fun hzero => advances_same (fun hd => ((joining_of_due _ hd).2.1 state sent rfl).2 hzero)
    unfold Client.replicationStep
    cases hat : c.replication with
    | absent => exact hidle (by rw [hat]; rfl)
    | ended => exact hidle (by rw [hat]; rfl)
    | checking =>
        dsimp only
        rw [if_pos (ht.replication hmain)]
        exact hless _ .ended rfl rfl (by rw [hat]; decide)
    | ticking =>
        dsimp only
        split
        · split <;> exact hless _ .checking rfl rfl (by rw [hat]; decide)
        · exact hless _ .checking rfl rfl (by rw [hat]; decide)
  · unfold Client.replicationStep
    split
    · exact hstay _ rfl rfl hmain
    · exact hstay _ rfl rfl hmain
    · split
      · split <;> exact hstay _ rfl rfl hmain
      · exact hstay _ rfl rfl hmain
    · exact hstay _ rfl rfl hmain

/-- A step of the reader thread, which leaves the others where they are. -/
theorem advances_of_kept {c' : Client} {a : ClientAction} (hdue : ¬ Due c a)
    (hmain : c'.main = c.main) (hheartbeat : c'.heartbeat = c.heartbeat)
    (hreplication : c'.replication = c.replication) : Advances c c' a :=
  Or.inr ⟨hdue, waits_of_main hmain (fun _ => hheartbeat) (fun _ => hreplication)⟩

theorem advances_onDispatch (m : ServerMessage) :
    Advances c (c.onDispatch parses m) (.dispatch m) := by
  have hdue : ¬ Due c (.dispatch m) := fun hd => (joining_of_due _ hd).2.2.1 m rfl
  unfold Client.onDispatch
  split
  · unfold Client.onMessage
    split
    · exact advances_same hdue
    · dsimp only
      split <;> exact advances_of_kept hdue rfl rfl rfl
    · exact advances_of_kept hdue rfl rfl rfl
  · exact advances_same hdue

theorem advances_onEntity (created : Bool) (id : Bytes) :
    Advances c (c.onEntity created id) (.entity created id) := by
  have hdue : ¬ Due c (.entity created id) := fun hd => (joining_of_due _ hd).2.2.2 created id rfl
  unfold Client.onEntity
  split
  · exact advances_of_kept hdue rfl rfl rfl
  · exact advances_same hdue

theorem advances_act (a : ClientAction) (ht : Told c) :
    Advances c (act services script parses c a) a := by
  cases a with
  | main sent expired => exact (turned_mainStep sent expired).advances
  | endOfInput => exact advances_endOfInput
  | heartbeat sent expired => exact advances_heartbeatStep sent expired ht
  | replication state sent => exact advances_replicationStep state sent ht
  | dispatch m => exact advances_onDispatch m
  | entity created id => exact advances_onEntity created id

/-- A thread is told to stop before it is waited for. -/
theorem told_act (a : ClientAction) (h : Told c) : Told (act services script parses c a) := by
  have hkeep : ∀ c' : Client, c'.main = c.main →
      c'.heartbeatShouldStop = c.heartbeatShouldStop →
      c'.replicationShouldStop = c.replicationShouldStop → Told c' := by
    intro c' hmain hheartbeat hreplication
    constructor
    · rw [hmain, hheartbeat]
      exact h.heartbeat
    · rw [hmain, hreplication]
      exact h.replication
  cases a with
  | main sent expired => exact (turned_mainStep sent expired).told h
  | endOfInput =>
      unfold act Client.endOfInput
      dsimp only
      split
      · exact ⟨fun _ => rfl, fun hmain => MainPc.noConfusion hmain⟩
      · exact h
  | heartbeat sent expired =>
      unfold act Client.heartbeatStep
      dsimp only
      split
      · exact h
      · split
        · exact hkeep _ rfl rfl rfl
        · split <;> exact hkeep _ rfl rfl rfl
      · split <;> exact hkeep _ rfl rfl rfl
      · exact h
  | replication state sent =>
      unfold act Client.replicationStep
      dsimp only
      split
      · exact h
      · exact hkeep _ rfl rfl rfl
      · split
        · split <;> exact hkeep _ rfl rfl rfl
        · exact hkeep _ rfl rfl rfl
      · exact h
  | dispatch m =>
      unfold act Client.onDispatch Client.onMessage
      dsimp only
      split
      · split
        · exact h
        · split <;> exact hkeep _ rfl rfl rfl
        · exact hkeep _ rfl rfl rfl
      · exact h
  | entity created id =>
      unfold act Client.onEntity
      dsimp only
      split
      · exact hkeep _ rfl rfl rfl
      · exact h

theorem told_init : Told Client.init :=
  ⟨fun hmain => MainPc.noConfusion hmain, fun hmain => MainPc.noConfusion hmain⟩

/-- What is due gets a run further. -/
theorem progress_act : Fairness.Progress (act services script parses) Told left Due where
  keep := fun _ a h _ => told_act a h
  advance := fun _ a h _ => advances_act a h

/-- Nothing happens after the end. -/
theorem over_act (a : ClientAction) (h : c.Over) : (act services script parses c a).Over := by
  have hmain : ∀ c' : Client, c'.main = c.main → c'.Over := by
    intro c' heq
    unfold Client.Over at h ⊢
    rw [heq]
    exact h
  cases a with
  | main sent expired =>
      unfold act Client.mainStep
      rcases h with ⟨exitCode, hat⟩ | hat <;> rw [hat] <;> exact hmain c rfl
  | endOfInput =>
      unfold act Client.endOfInput
      rcases h with ⟨exitCode, hat⟩ | hat <;> rw [hat] <;> exact hmain c rfl
  | heartbeat sent expired =>
      unfold act Client.heartbeatStep
      dsimp only
      split
      · exact hmain _ rfl
      · split
        · exact hmain _ rfl
        · split <;> exact hmain _ rfl
      · split <;> exact hmain _ rfl
      · exact hmain _ rfl
  | replication state sent =>
      unfold act Client.replicationStep
      dsimp only
      split
      · exact hmain _ rfl
      · exact hmain _ rfl
      · split
        · split <;> exact hmain _ rfl
        · exact hmain _ rfl
      · exact hmain _ rfl
  | dispatch m =>
      unfold act Client.onDispatch Client.onMessage
      dsimp only
      split
      · split
        · exact hmain _ rfl
        · split <;> exact hmain _ rfl
        · exact hmain _ rfl
      · exact hmain _ rfl
  | entity created id =>
      unfold act Client.onEntity
      dsimp only
      split <;> exact hmain _ rfl

end Steps

theorem left_le (c : Client) : left c ≤ 23 := by
  -- Two steps of a thread come on top of a low rank only.
  have hrank : c.main.rank ≤ 23 ∧ (c.main.free = false → c.main.rank ≤ 7) := by
    cases c.main with
    | loading manifestApplied => cases manifestApplied <;> decide
    | returned exitCode => exact ⟨Nat.zero_le _, fun _ => Nat.zero_le _⟩
    | _ => decide
  have hheartbeat := heartbeatLeft_le c.heartbeat
  have hreplication := replicationLeft_le c.replication
  by_cases hfree : c.main.free = true
  · rw [left_of_free hfree]
    exact hrank.1
  · have hseven := hrank.2 (Bool.not_eq_true _ ▸ hfree)
    unfold left
    split <;> omega

/-- A client gets to its end. However the run has gone before and whatever comes
    in, `Run` has been left once the main thread, the heartbeat thread and the
    replication thread have come to 23 turns each with their waits expired, and
    the control input has ended. -/
theorem over_run (services : Services) (script : Heartbeat.Script) (parses : ServerMessage → Bool)
    (as : List ClientAction) (rounds : List (List ClientAction)) (hfair : FairRounds rounds)
    (hlength : 23 ≤ rounds.length) :
    ((as ++ rounds.flatten).foldl (act services script parses) Client.init).Over := by
  have htold := Run.foldl_inv (act services script parses) Told (fun _ a h => told_act a h) as
    Client.init told_init
  have hprogress : Fairness.Progress (act services script parses) Told left Due := progress_act
  rcases Fairness.reaches_rounds hprogress rounds
    (fun es hes _ _ hne => exists_due rounds hfair es hes hne) _ htold
    (Nat.le_trans (left_le _) hlength) with ⟨pre, ⟨rest, hrest⟩, hzero⟩
  -- The end is reached somewhere in the rounds, and what follows changes nothing.
  rw [List.foldl_append, ← hrest, List.foldl_append]
  exact Run.foldl_inv (act services script parses) Client.Over (fun _ a h => over_act a h) rest _
    (left_eq_zero_iff.mp hzero)

/-- A client with nothing installed and no server to go to. -/
def offline : Services where
  configuration := ⟨.ok, ascii "no config.json present, using defaults"⟩
  logLevel := ascii "info"
  serverHost := []
  cache := ⟨.ok, []⟩
  network := ⟨.ok, []⟩
  gameInit := ⟨.ok, []⟩
  gameDetection := ⟨.failed, []⟩
  connects := false
  resourcesInit := ⟨.ok, []⟩
  applied := none

/-- One turn each. -/
def everyone : List ClientAction :=
  [.main true true, .endOfInput, .heartbeat true true, .replication none true]

theorem over_run_offline :
    (([ClientAction.main true false] ++ (List.replicate 23 everyone).flatten).foldl
      (act offline ⟨[], 0, 0⟩ (fun _ => true)) Client.init).Over :=
  over_run offline ⟨[], 0, 0⟩ (fun _ => true) [ClientAction.main true false]
    (List.replicate 23 everyone) (fun as has => by
      rw [List.eq_of_mem_replicate has]
      exact ⟨⟨true, List.mem_cons_self⟩, List.mem_cons_of_mem _ List.mem_cons_self,
        ⟨true, List.mem_cons_of_mem _ (List.mem_cons_of_mem _ List.mem_cons_self)⟩, none, true,
        List.mem_cons_of_mem _ (List.mem_cons_of_mem _ (List.mem_cons_of_mem _
          List.mem_cons_self))⟩)
    (Nat.le_of_eq List.length_replicate.symm)

end Runtime

end MzzPlork
