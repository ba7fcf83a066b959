import MzzPlork.Base.Fairness
import MzzPlork.Base.Run
import MzzPlork.Core.ConnectionThreads

/-!
# Closing a Connection

When a connection can be closed and destroyed, and what becomes of it where it
cannot.

`Disconnect` joins the reader thread, but only if the connection is still up
when it is called. A reader that has come to its end by itself, because the
server has closed the connection or it broke, has taken the connection down, so
nobody joins it: it is an orphan. Nothing the owner can do joins it later, the
socket and Winsock stay open, and the process is terminated when the object is
connected again or destroyed. Without an orphan everything is released
(`released_iff`).

A server that answers a `disconnect` closes the connection, so whether an
orphan comes about at the end of a session is a matter of who is faster.

## Main definitions

* `Open`, `Void`: What a connection holds.
* `Phase`: The states of a connection that has no orphan.
* `Orphan`: The reader has ended and nobody is about to join it.
* `Lost`: The process is gone.
* `Released`: The object is gone, and so is all it had acquired.
* `left`, `Due`: What is left of a call of `Disconnect`, and who gets it further.
* `Fair`, `Returns`: Schedules, and calls that come to their end.

## Theorems

* `phase_turn`, `orphan_turn`: One step.
* `released_iff`: When everything is released.
* `advances_turn`: A step of a call.
* `disconnect_returns`: A call of `Disconnect` comes to its end.
-/

namespace MzzPlork

namespace Connection

open Run

/-- A connection that holds a socket and Winsock. -/
structure Open (c : Conn) : Prop where
  destroyed : c.destroyed = false
  terminated : c.terminated = false
  socket : c.socket = true
  wsaStarted : c.wsaStarted = true
  startups : c.startups = c.cleanups + 1
  opened : c.opened = c.closed + 1

/-- A connection that holds nothing. -/
structure Void (c : Conn) : Prop where
  terminated : c.terminated = false
  connected : c.connected = false
  socket : c.socket = false
  wsaStarted : c.wsaStarted = false
  reader : c.reader = .absent
  startups : c.startups = c.cleanups
  opened : c.opened = c.closed

/-- The reader has not told yet that it has ended. -/
def ReaderPc.InLoop (pc : ReaderPc) : Prop := pc ≠ .absent ∧ pc ≠ .ended

theorem inLoop_checking : ReaderPc.InLoop .checking := ⟨by decide, by decide⟩

theorem inLoop_receiving : ReaderPc.InLoop .receiving := ⟨by decide, by decide⟩

theorem inLoop_leaving : ReaderPc.InLoop .leaving := ⟨by decide, by decide⟩

/-- The states of a connection that has no orphan. -/
inductive Phase (c : Conn) : Prop where
  | void (h : Void c) (hcaller : c.caller = .idle)
  | running (h : Open c) (hcaller : c.caller = .idle) (hconnected : c.connected = true)
      (hreader : c.reader.InLoop)
  | stopping (h : Open c) (hcaller : c.caller = .stopping) (hreader : c.reader ≠ .absent)
  | unmarking (h : Open c) (hcaller : c.caller = .unmarking) (hreader : c.reader ≠ .absent)
      (hstop : c.shouldStop = true)
  | waiting (h : Open c) (hcaller : c.caller = .halfClosing ∨ c.caller = .joining)
      (hreader : c.reader ≠ .absent) (hstop : c.shouldStop = true)
      (hconnected : c.connected = false)
  | closing (h : Open c) (hcaller : c.caller = .closing) (hreader : c.reader = .absent)
      (hconnected : c.connected = false)
  | cleaning (hcaller : c.caller = .cleaning) (hdestroyed : c.destroyed = false)
      (hterminated : c.terminated = false) (hconnected : c.connected = false)
      (hsocket : c.socket = false) (hwsa : c.wsaStarted = true) (hreader : c.reader = .absent)
      (hstartups : c.startups = c.cleanups + 1) (hopened : c.opened = c.closed)

/-- The reader has ended, and the owner is not about to join it. -/
structure Orphan (c : Conn) : Prop where
  destroyed : c.destroyed = false
  terminated : c.terminated = false
  connected : c.connected = false
  reader : c.reader = .ended
  caller : c.caller = .idle

/-- The process is gone. -/
structure Lost (c : Conn) : Prop where
  terminated : c.terminated = true
  caller : c.caller = .idle

section Steps

variable {c : Conn}

theorem phase_init : Phase Conn.init := .void ⟨rfl, rfl, rfl, rfl, rfl, rfl, rfl⟩ rfl

/-- A call is made in one of two states. -/
theorem Phase.idle (h : Phase c) (hc : c.caller = .idle) :
    Void c ∨ (Open c ∧ c.connected = true ∧ c.reader.InLoop) := by
  cases h with
  | void h _ => exact Or.inl h
  | running h _ hconnected hreader => exact Or.inr ⟨h, hconnected, hreader⟩
  | stopping h hcaller => exact absurd (hcaller.symm.trans hc) (by decide)
  | unmarking h hcaller => exact absurd (hcaller.symm.trans hc) (by decide)
  | waiting h hcaller =>
      rcases hcaller with hcaller | hcaller <;> exact absurd (hcaller.symm.trans hc) (by decide)
  | closing h hcaller => exact absurd (hcaller.symm.trans hc) (by decide)
  | cleaning hcaller => exact absurd (hcaller.symm.trans hc) (by decide)

/-- Winsock that was started is cleaned up. -/
theorem cleanupWinsock_started (h : c.wsaStarted = true) :
    c.cleanupWinsock = { c with cleanups := c.cleanups + 1, wsaStarted := false } := if_pos h

theorem phase_connect (outcome : Outcome) (hgone : c.gone = false) (h : Phase c)
    (hc : c.caller = .idle) : Phase (c.connect outcome) := by
  unfold Conn.connect
  rcases h.idle hc with hvoid | ⟨hopen, hconnected, hreader⟩
  · rw [if_neg (by rw [hvoid.connected]; exact Bool.false_ne_true)]
    -- Winsock is up before anything else can fail, and is taken down again.
    have hfailed : Phase { c with
        startups := c.startups + 1, wsaStarted := true }.cleanupWinsock := by
      rw [cleanupWinsock_started rfl]
      refine .void ⟨hvoid.terminated, hvoid.connected, hvoid.socket, rfl, hvoid.reader, ?_,
        hvoid.opened⟩ hc
      exact congrArg (· + 1) hvoid.startups
    cases outcome with
    | noWinsock => exact .void hvoid hc
    | unresolved => exact hfailed
    | unreachable => exact hfailed
    | established =>
        -- The old thread is not joinable, so a new one may take its place.
        simp only [hvoid.reader, if_true]
        rw [Conn.gone, Bool.or_eq_false_iff] at hgone
        exact .running ⟨hgone.1, hgone.2, rfl, rfl, congrArg (· + 1) hvoid.startups,
          congrArg (· + 1) hvoid.opened⟩ hc rfl inLoop_checking
  · rw [if_pos hconnected]
    exact .running hopen hc hconnected hreader

theorem phase_callDisconnect (destroying : Bool) (h : Phase c) (hc : c.caller = .idle) :
    Phase (c.callDisconnect destroying) := by
  unfold Conn.callDisconnect
  rcases h.idle hc with hvoid | ⟨hopen, hconnected, hreader⟩
  · rw [if_neg (by rw [hvoid.connected]; exact Bool.false_ne_true)]
    cases destroying with
    | false => exact .void hvoid hc
    | true =>
        unfold Conn.destroyMembers
        simp only [hvoid.reader, if_true]
        exact .void ⟨hvoid.terminated, hvoid.connected, hvoid.socket, hvoid.wsaStarted, rfl,
          hvoid.startups, hvoid.opened⟩ hc
  · rw [if_pos hconnected]
    exact .stopping ⟨hopen.destroyed, hopen.terminated, hopen.socket, hopen.wsaStarted,
      hopen.startups, hopen.opened⟩ rfl hreader.1

/-- The owner joins the reader before it closes the socket. -/
theorem phase_callerStep (h : Phase c) : Phase c.callerStep := by
  unfold Conn.callerStep
  cases h with
  | void h hcaller =>
      rw [hcaller]
      exact .void h hcaller
  | running h hcaller hconnected hreader =>
      rw [hcaller]
      exact .running h hcaller hconnected hreader
  | stopping h hcaller hreader =>
      rw [hcaller]
      exact .unmarking ⟨h.destroyed, h.terminated, h.socket, h.wsaStarted, h.startups, h.opened⟩
        rfl hreader rfl
  | unmarking h hcaller hreader hstop =>
      rw [hcaller]
      exact .waiting ⟨h.destroyed, h.terminated, h.socket, h.wsaStarted, h.startups, h.opened⟩
        (Or.inl rfl) hreader hstop rfl
  | waiting h hcaller hreader hstop hconnected =>
      rcases hcaller with hcaller | hcaller
      · rw [hcaller]
        exact .waiting ⟨h.destroyed, h.terminated, h.socket, h.wsaStarted, h.startups, h.opened⟩
          (Or.inr rfl) hreader hstop hconnected
      · rw [hcaller]
        -- `join` returns for a reader that has ended, and for no other.
        cases hr : c.reader with
        | absent => exact absurd hr hreader
        | ended =>
            exact .closing ⟨h.destroyed, h.terminated, h.socket, h.wsaStarted, h.startups,
              h.opened⟩ rfl rfl hconnected
        | checking => exact .waiting h (Or.inr hcaller) hreader hstop hconnected
        | receiving => exact .waiting h (Or.inr hcaller) hreader hstop hconnected
        | leaving => exact .waiting h (Or.inr hcaller) hreader hstop hconnected
  | closing h hcaller hreader hconnected =>
      rw [hcaller]
      simp only [h.socket, if_true]
      exact .cleaning rfl h.destroyed h.terminated hconnected rfl h.wsaStarted hreader h.startups
        h.opened
  | cleaning hcaller hdestroyed hterminated hconnected hsocket hwsa hreader hstartups hopened =>
      rw [hcaller]
      simp only [cleanupWinsock_started hwsa]
      unfold Conn.returnFromDisconnect
      have hvoid : ∀ destroyed, Void { c with
          cleanups := c.cleanups + 1, wsaStarted := false, caller := .idle,
          destroyed := destroyed } := fun _ =>
        ⟨hterminated, hconnected, hsocket, rfl, hreader, hstartups, hopened⟩
      split
      · unfold Conn.destroyMembers
        rw [if_pos (show _ = ReaderPc.absent from hreader)]
        exact .void (hvoid true) rfl
      · exact .void (hvoid c.destroyed) rfl

/-- The reader moves on within its loop, or out of it. -/
theorem phase_moved (pc : ReaderPc) (h : Phase c) (hloop : c.reader.InLoop) (hpc : pc.InLoop) :
    Phase { c with reader := pc } := by
  cases h with
  | void h hcaller => exact absurd h.reader hloop.1
  | running h hcaller hconnected hreader =>
      exact .running ⟨h.destroyed, h.terminated, h.socket, h.wsaStarted, h.startups, h.opened⟩
        hcaller hconnected hpc
  | stopping h hcaller hreader =>
      exact .stopping ⟨h.destroyed, h.terminated, h.socket, h.wsaStarted, h.startups, h.opened⟩
        hcaller hpc.1
  | unmarking h hcaller hreader hstop =>
      exact .unmarking ⟨h.destroyed, h.terminated, h.socket, h.wsaStarted, h.startups, h.opened⟩
        hcaller hpc.1 hstop
  | waiting h hcaller hreader hstop hconnected =>
      exact .waiting ⟨h.destroyed, h.terminated, h.socket, h.wsaStarted, h.startups, h.opened⟩
        hcaller hpc.1 hstop hconnected
  | closing h hcaller hreader hconnected => exact absurd hreader hloop.1
  | cleaning hcaller hdestroyed hterminated hconnected hsocket hwsa hreader =>
      exact absurd hreader hloop.1

/-- The reader ends. Outside of a call, nobody joins it. -/
theorem phase_ended (h : Phase c) (hleaving : c.reader = .leaving) :
    Phase { c with connected := false, reader := .ended } ∨
      (c.caller = .idle ∧ Orphan { c with connected := false, reader := .ended }) := by
  have hended : ReaderPc.ended ≠ .absent := by decide
  cases h with
  | void h hcaller => exact absurd (h.reader.symm.trans hleaving) (by decide)
  -- `Disconnect` does nothing without `connected_`, so it is never joined.
  | running h hcaller hconnected hreader =>
      exact Or.inr ⟨hcaller, h.destroyed, h.terminated, rfl, rfl, hcaller⟩
  | stopping h hcaller hreader =>
      exact Or.inl (.stopping ⟨h.destroyed, h.terminated, h.socket, h.wsaStarted, h.startups,
        h.opened⟩ hcaller hended)
  | unmarking h hcaller hreader hstop =>
      exact Or.inl (.unmarking ⟨h.destroyed, h.terminated, h.socket, h.wsaStarted, h.startups,
        h.opened⟩ hcaller hended hstop)
  | waiting h hcaller hreader hstop hconnected =>
      exact Or.inl (.waiting ⟨h.destroyed, h.terminated, h.socket, h.wsaStarted, h.startups,
        h.opened⟩ hcaller hended hstop rfl)
  | closing h hcaller hreader hconnected =>
      exact absurd (hreader.symm.trans hleaving) (by decide)
  | cleaning hcaller hdestroyed hterminated hconnected hsocket hwsa hreader =>
      exact absurd (hreader.symm.trans hleaving) (by decide)

theorem phase_readerStep (h : Phase c) :
    Phase c.readerStep ∨ (c.caller = .idle ∧ Orphan c.readerStep) := by
  unfold Conn.readerStep
  cases hr : c.reader with
  | absent => exact Or.inl h
  | checking =>
      refine Or.inl (phase_moved _ h (hr ▸ inLoop_checking) ?_)
      split
      · exact inLoop_leaving
      · exact inLoop_receiving
  | receiving => exact Or.inl h
  | leaving => exact phase_ended h hr
  | ended => exact Or.inl h

theorem phase_receive (received : Received) (h : Phase c) : Phase (c.receive received) := by
  unfold Conn.receive
  cases hr : c.reader with
  | receiving =>
      have hloop : c.reader.InLoop := hr ▸ inLoop_receiving
      cases received with
      | data => exact phase_moved _ h hloop inLoop_checking
      | timedOut => exact phase_moved _ h hloop inLoop_checking
      | closed => exact phase_moved _ h hloop inLoop_leaving
      | failed => exact phase_moved _ h hloop inLoop_leaving
  | absent => exact h
  | checking => exact h
  | leaving => exact h
  | ended => exact h

theorem turn_of_gone (t : Turn) (h : c.gone = true) : turn c t = c := if_pos h

/-- A step leaves no orphan, or makes one outside of a call. -/
theorem phase_turn (t : Turn) (h : Phase c) :
    Phase (turn c t) ∨ (c.caller = .idle ∧ Orphan (turn c t)) := by
  by_cases hgone : c.gone = true
  · rw [turn_of_gone t hgone]
    exact Or.inl h
  have hlive : c.gone = false := Bool.not_eq_true _ ▸ hgone
  -- A call that is not free to be made changes nothing.
  have hcall : ∀ c', (c.caller = .idle → Phase c') → Phase (if c.free = true then c' else c) := by
    intro c' hc'
    split
    · rename_i hfree
      exact hc' (of_decide_eq_true hfree)
    · exact h
  cases t with
  | connect outcome =>
      simp only [turn, hlive, Bool.false_eq_true, if_false]
      exact Or.inl (hcall _ (phase_connect outcome hlive h))
  | disconnect =>
      simp only [turn, hlive, Bool.false_eq_true, if_false]
      exact Or.inl (hcall _ (phase_callDisconnect false h))
  | destroy =>
      simp only [turn, hlive, Bool.false_eq_true, if_false]
      exact Or.inl (hcall _ (phase_callDisconnect true h))
  | caller =>
      simp only [turn, hlive, Bool.false_eq_true, if_false]
      exact Or.inl (phase_callerStep h)
  | reader =>
      simp only [turn, hlive, Bool.false_eq_true, if_false]
      exact phase_readerStep h
  | receive received =>
      simp only [turn, hlive, Bool.false_eq_true, if_false]
      exact Or.inl (phase_receive received h)

/-- An orphan stays one, until it takes the process with it. -/
theorem orphan_turn (t : Turn) (h : Orphan c) : Orphan (turn c t) ∨ Lost (turn c t) := by
  have hne : ¬ c.reader = .absent := fun heq => absurd (heq.symm.trans h.reader) (by decide)
  have hdown : ¬ c.connected = true := by
    rw [h.connected]
    exact Bool.false_ne_true
  unfold turn
  rw [if_neg (show ¬ c.gone = true by
    rw [Conn.gone, h.destroyed, h.terminated]
    exact Bool.false_ne_true)]
  have hfree : c.free = true := decide_eq_true h.caller
  cases t with
  | connect outcome =>
      simp only [hfree, if_true]
      unfold Conn.connect
      rw [if_neg hdown]
      have hfailed : Orphan { c with
          startups := c.startups + 1, wsaStarted := true }.cleanupWinsock := by
        rw [cleanupWinsock_started rfl]
        exact ⟨h.destroyed, h.terminated, h.connected, h.reader, h.caller⟩
      cases outcome with
      | noWinsock => exact Or.inl h
      | unresolved => exact Or.inl hfailed
      | unreachable => exact Or.inl hfailed
      | established =>
          -- A joinable thread that is assigned to terminates the process.
          simp only [hne, if_false]
          exact Or.inr ⟨rfl, h.caller⟩
  | disconnect =>
      simp only [hfree, if_true]
      unfold Conn.callDisconnect
      rw [if_neg hdown]
      exact Or.inl h
  | destroy =>
      simp only [hfree, if_true]
      -- So does one that is destroyed.
      unfold Conn.callDisconnect Conn.destroyMembers
      rw [if_neg hdown, if_pos rfl, if_neg hne]
      exact Or.inr ⟨rfl, h.caller⟩
  | caller =>
      refine Or.inl ?_
      simp only [Conn.callerStep, h.caller]
      exact h
  | reader =>
      refine Or.inl ?_
      simp only [Conn.readerStep, h.reader]
      exact h
  | receive received =>
      refine Or.inl ?_
      simp only [Conn.receive, h.reader]
      exact h

end Steps

section Runs

/-- The object is gone and has released all it had acquired. -/
structure Released (c : Conn) : Prop where
  destroyed : c.destroyed = true
  terminated : c.terminated = false
  reader : c.reader = .absent
  startups : c.startups = c.cleanups
  opened : c.opened = c.closed

/-- An object that is gone without an orphan is gone for good. -/
theorem Phase.released {c : Conn} (h : Phase c) (hd : c.destroyed = true) : Released c := by
  have hnot : c.destroyed = false → False := fun hf => Bool.noConfusion (hf.symm.trans hd)
  cases h with
  | void h hcaller => exact ⟨hd, h.terminated, h.reader, h.startups, h.opened⟩
  | running h => exact (hnot h.destroyed).elim
  | stopping h => exact (hnot h.destroyed).elim
  | unmarking h => exact (hnot h.destroyed).elim
  | waiting h => exact (hnot h.destroyed).elim
  | closing h => exact (hnot h.destroyed).elim
  | cleaning hcaller hdestroyed => exact (hnot hdestroyed).elim

theorem Phase.terminated {c : Conn} (h : Phase c) : c.terminated = false := by
  cases h with
  | void h => exact h.terminated
  | running h => exact h.terminated
  | stopping h => exact h.terminated
  | unmarking h => exact h.terminated
  | waiting h => exact h.terminated
  | closing h => exact h.terminated
  | cleaning hcaller hdestroyed hterminated => exact hterminated

/-- A run without an orphan has gone through the phases. -/
theorem phase_run (ts : List Turn) (c : Conn) (hc : Phase c)
    (h : Always turn (fun c => ¬ Orphan c) c ts) : Phase (ts.foldl turn c) := by
  induction ts generalizing c with
  | nil => exact hc
  | cons t ts ih =>
      rw [always_cons] at h
      have hnot : ¬ Orphan (turn c t) := h.2 [] List.nil_prefix
      exact ih (turn c t) ((phase_turn t hc).resolve_right (fun ho => hnot ho.2)) h.2

/-- After an orphan the object is never gone properly. -/
theorem orphan_run (ts : List Turn) (c : Conn) (h : Orphan c ∨ Lost c) :
    Orphan (ts.foldl turn c) ∨ Lost (ts.foldl turn c) := by
  refine foldl_inv turn (fun c => Orphan c ∨ Lost c) (fun c t hI => ?_) ts c h
  rcases hI with ho | hl
  · exact orphan_turn t ho
  · rw [turn_of_gone t (by rw [Conn.gone, hl.terminated, Bool.or_true])]
    exact Or.inr hl

theorem reachable_run (ts : List Turn) :
    Phase (ts.foldl turn Conn.init) ∨ Orphan (ts.foldl turn Conn.init)
      ∨ Lost (ts.foldl turn Conn.init) := by
  refine foldl_inv turn (fun c => Phase c ∨ Orphan c ∨ Lost c) (fun c t hI => ?_) ts Conn.init
    (Or.inl phase_init)
  rcases hI with hphase | hgone
  · rcases phase_turn t hphase with hphase' | ho
    · exact Or.inl hphase'
    · exact Or.inr (Or.inl ho.2)
  · exact Or.inr (orphan_run [t] c hgone)

/-- When the object or the process is gone, then everything has been released if
    the reader has never ended without being about to be joined, and the
    process has been terminated if it has. -/
theorem released_iff (ts : List Turn) (hgone : (ts.foldl turn Conn.init).gone = true) :
    (Released (ts.foldl turn Conn.init) ↔ Always turn (fun c => ¬ Orphan c) Conn.init ts) ∧
    (Lost (ts.foldl turn Conn.init) ↔ ¬ Always turn (fun c => ¬ Orphan c) Conn.init ts) := by
  have hgood : Always turn (fun c => ¬ Orphan c) Conn.init ts →
      Released (ts.foldl turn Conn.init) := by
    intro h
    have hphase := phase_run ts Conn.init phase_init h
    rw [Conn.gone, hphase.terminated, Bool.or_false] at hgone
    exact hphase.released hgone
  have hbad : ¬ Always turn (fun c => ¬ Orphan c) Conn.init ts →
      Lost (ts.foldl turn Conn.init) := by
    intro h
    unfold Always at h
    push Not at h
    rcases h with ⟨pre, ⟨post, rfl⟩, ho⟩
    rw [List.foldl_append] at hgone ⊢
    refine (orphan_run post _ (Or.inl ho)).resolve_left (fun hend => ?_)
    rw [Conn.gone, hend.destroyed, hend.terminated] at hgone
    exact Bool.noConfusion hgone
  have hnot : Released (ts.foldl turn Conn.init) → ¬ Lost (ts.foldl turn Conn.init) :=
    fun hr hl => Bool.noConfusion (hr.terminated.symm.trans hl.terminated)
  refine ⟨⟨fun hr => ?_, hgood⟩, fun hl h => hnot (hgood h) hl, hbad⟩
  by_contra h
  exact hnot hr (hbad h)

/-- A session that the owner closes. -/
theorem released_iff_closed : Released ([Turn.connect .established, .reader, .destroy, .caller,
    .caller, .caller, .receive .timedOut, .reader, .reader, .caller, .caller, .caller].foldl turn
      Conn.init) ↔
    Always turn (fun c => ¬ Orphan c) Conn.init [Turn.connect .established, .reader, .destroy,
      .caller, .caller, .caller, .receive .timedOut, .reader, .reader, .caller, .caller, .caller] :=
  (released_iff _ rfl).1

end Runs

section Returning

/-- What is left of a call of `Disconnect`. As long as the reader has not been
    told to stop, its steps do not count. -/
def left (c : Conn) : Nat :=
  match c.caller with
  | .idle => 0
  | .stopping => 9
  | .unmarking => 5 + readerLeft c.reader
  | .halfClosing => 4 + readerLeft c.reader
  | .joining => 3 + readerLeft c.reader
  | .closing => 2
  | .cleaning => 1
where
  /-- What is left of the reader's loop. -/
  readerLeft : ReaderPc → Nat
    | .absent | .ended => 0
    | .leaving => 1
    | .checking => 2
    | .receiving => 3

/-- The turns that get a call further: the caller's own, or the reader's where it
    is waited for. -/
def Due (c : Conn) (t : Turn) : Prop :=
  match c.caller, t with
  | .idle, _ => False
  | .joining, .caller => c.reader = .absent ∨ c.reader = .ended
  | .joining, .reader => c.reader = .checking ∨ c.reader = .leaving
  | .joining, .receive _ => c.reader = .receiving
  | .joining, _ => False
  | _, .caller => True
  | _, _ => False

variable {c : Conn}

theorem Phase.live (h : Phase c) (hc : c.caller ≠ .idle) : c.gone = false := by
  have hboth : c.destroyed = false → c.gone = false := fun hd => by
    rw [Conn.gone, hd, h.terminated]
    rfl
  cases h with
  | void h hcaller => exact absurd hcaller hc
  | running h hcaller => exact absurd hcaller hc
  | stopping h => exact hboth h.destroyed
  | unmarking h => exact hboth h.destroyed
  | waiting h => exact hboth h.destroyed
  | closing h => exact hboth h.destroyed
  | cleaning hcaller hdestroyed => exact hboth hdestroyed

/-- The owner cannot make another call. -/
theorem not_free (hc : c.caller ≠ .idle) : c.free = false := decide_eq_false hc

/-- The caller goes on, unless it has to wait. -/
theorem left_callerStep (h : Phase c) (hc : c.caller ≠ .idle) :
    left c.callerStep < left c ∨ (¬ Due c .caller ∧ c.callerStep = c) := by
  cases h with
  | void h hcaller => exact absurd hcaller hc
  | running h hcaller => exact absurd hcaller hc
  | stopping h hcaller hreader =>
      refine Or.inl ?_
      simp only [Conn.callerStep, left, hcaller]
      cases c.reader <;> decide
  | unmarking h hcaller hreader hstop =>
      refine Or.inl ?_
      simp only [Conn.callerStep, left, hcaller]
      omega
  | waiting h hcaller hreader hstop hconnected =>
      rcases hcaller with hcaller | hcaller
      · refine Or.inl ?_
        simp only [Conn.callerStep, left, hcaller]
        omega
      · cases hr : c.reader with
        | absent => exact absurd hr hreader
        | ended =>
            refine Or.inl ?_
            simp only [Conn.callerStep, left, hcaller, hr]
            omega
        | checking => exact Or.inr (by simp [Due, Conn.callerStep, hcaller, hr])
        | receiving => exact Or.inr (by simp [Due, Conn.callerStep, hcaller, hr])
        | leaving => exact Or.inr (by simp [Due, Conn.callerStep, hcaller, hr])
  | closing h hcaller hreader hconnected =>
      refine Or.inl ?_
      simp only [Conn.callerStep, left, hcaller, h.socket, if_true]
      omega
  | cleaning hcaller hdestroyed hterminated hconnected hsocket hwsa hreader =>
      refine Or.inl ?_
      have hidle : c.callerStep.caller = .idle := by
        simp only [Conn.callerStep, hcaller, cleanupWinsock_started hwsa,
          Conn.returnFromDisconnect, Conn.destroyMembers, hreader, if_true]
        split <;> rfl
      simp only [left, hidle, hcaller]
      omega

/-- The reader has nothing to do, or gets on. -/
structure Moves (c c' : Conn) : Prop where
  present : c.reader ≠ .absent
  moved : ∃ pc connected, c' = { c with reader := pc, connected := connected } ∧
    (c.shouldStop = true → left.readerLeft pc < left.readerLeft c.reader)

theorem moves_readerStep :
    (c.readerStep = c ∧ ¬ (c.reader = .checking ∨ c.reader = .leaving)) ∨
      Moves c c.readerStep := by
  unfold Conn.readerStep
  cases hr : c.reader with
  | absent => exact Or.inl ⟨rfl, by decide⟩
  | checking =>
      refine Or.inr ⟨by rw [hr]; decide, _, c.connected, rfl, fun hstop => ?_⟩
      rw [if_pos hstop, hr]
      decide
  | receiving => exact Or.inl ⟨rfl, by decide⟩
  | leaving =>
      refine Or.inr ⟨by rw [hr]; decide, _, false, rfl, fun _ => ?_⟩
      rw [hr]
      decide
  | ended => exact Or.inl ⟨rfl, by decide⟩

theorem moves_receive (received : Received) :
    (c.receive received = c ∧ c.reader ≠ .receiving) ∨ Moves c (c.receive received) := by
  unfold Conn.receive
  cases hr : c.reader with
  | receiving =>
      have hpresent : c.reader ≠ .absent := by
        rw [hr]
        decide
      refine Or.inr ?_
      cases received with
      | data => exact ⟨hpresent, _, c.connected, rfl, fun _ => by rw [hr]; decide⟩
      | timedOut => exact ⟨hpresent, _, c.connected, rfl, fun _ => by rw [hr]; decide⟩
      | closed => exact ⟨hpresent, _, c.connected, rfl, fun _ => by rw [hr]; decide⟩
      | failed => exact ⟨hpresent, _, c.connected, rfl, fun _ => by rw [hr]; decide⟩
  | absent => exact Or.inl ⟨rfl, by decide⟩
  | checking => exact Or.inl ⟨rfl, by decide⟩
  | leaving => exact Or.inl ⟨rfl, by decide⟩
  | ended => exact Or.inl ⟨rfl, by decide⟩

/-- A step gets a call further, or was not due and leaves what is due. -/
def Advances (c c' : Conn) (t : Turn) : Prop :=
  left c' < left c ∨ (¬ Due c t ∧ left c' = left c ∧ ∀ t', Due c' t' ↔ Due c t')

theorem advances_moves (c' : Conn) (t : Turn) (h : Phase c) (hc : c.caller ≠ .idle)
    (hcaller : c.caller = .stopping → ¬ Due c t) (hm : Moves c c') : Advances c c' t := by
  have hloop := hm.present
  rcases hm.moved with ⟨pc, connected, rfl, hless⟩
  cases h with
  | void h hidle => exact absurd hidle hc
  | running h hidle => exact absurd hidle hc
  | stopping h hstopping hreader =>
      refine Or.inr ⟨hcaller hstopping, ?_, fun t' => ?_⟩
      · simp only [left, hstopping]
      · cases t' <;> simp only [Due, hstopping]
  | unmarking h hat hreader hstop =>
      refine Or.inl ?_
      simp only [left, hat]
      exact Nat.add_lt_add_left (hless hstop) 5
  | waiting h hat hreader hstop hconnected =>
      refine Or.inl ?_
      rcases hat with hat | hat <;> simp only [left, hat]
      · exact Nat.add_lt_add_left (hless hstop) 4
      · exact Nat.add_lt_add_left (hless hstop) 3
  | closing h hat hreader => exact absurd hreader hloop
  | cleaning hat hdestroyed hterminated hconnected hsocket hwsa hreader =>
      exact absurd hreader hloop

theorem advances_turn (t : Turn) (h : Phase c) (hc : c.caller ≠ .idle) :
    Advances c (turn c t) t := by
  have hlive := h.live hc
  have hfree := not_free hc
  have hstay : ∀ t', ¬ Due c t' → Advances c c t' := fun t' ht' =>
    Or.inr ⟨ht', rfl, fun _ => Iff.rfl⟩
  cases t with
  | connect outcome =>
      simp only [turn, hlive, hfree, Bool.false_eq_true, if_false]
      refine hstay _ (fun hdue => ?_)
      cases hat : c.caller <;> simp only [Due, hat] at hdue
  | disconnect =>
      simp only [turn, hlive, hfree, Bool.false_eq_true, if_false]
      refine hstay _ (fun hdue => ?_)
      cases hat : c.caller <;> simp only [Due, hat] at hdue
  | destroy =>
      simp only [turn, hlive, hfree, Bool.false_eq_true, if_false]
      refine hstay _ (fun hdue => ?_)
      cases hat : c.caller <;> simp only [Due, hat] at hdue
  | caller =>
      simp only [turn, hlive, Bool.false_eq_true, if_false]
      rcases left_callerStep h hc with hless | ⟨hdue, hsame⟩
      · exact Or.inl hless
      · rw [hsame]
        exact hstay _ hdue
  | reader =>
      simp only [turn, hlive, Bool.false_eq_true, if_false]
      rcases moves_readerStep (c := c) with ⟨hsame, hreader⟩ | hm
      · rw [hsame]
        refine hstay _ (fun hdue => ?_)
        cases hat : c.caller <;> simp only [Due, hat] at hdue
        exact hreader hdue
      · refine advances_moves _ _ h hc (fun hat hdue => ?_) hm
        simp only [Due, hat] at hdue
  | receive received =>
      simp only [turn, hlive, Bool.false_eq_true, if_false]
      rcases moves_receive (c := c) received with ⟨hsame, hreader⟩ | hm
      · rw [hsame]
        refine hstay _ (fun hdue => ?_)
        cases hat : c.caller <;> simp only [Due, hat] at hdue
        exact hreader hdue
      · refine advances_moves _ _ h hc (fun hat hdue => ?_) hm
        simp only [Due, hat] at hdue

/-- Something is always due. -/
theorem exists_due (us : List Turn) (hc : c.caller ≠ .idle) (hcaller : .caller ∈ us)
    (hreader : .reader ∈ us) (hreceive : ∃ received, .receive received ∈ us) :
    ∃ t ∈ us, Due c t := by
  rcases hreceive with ⟨received, hreceive⟩
  cases hat : c.caller with
  | idle => exact absurd hat hc
  | stopping => exact ⟨.caller, hcaller, by simp only [Due, hat]⟩
  | unmarking => exact ⟨.caller, hcaller, by simp only [Due, hat]⟩
  | halfClosing => exact ⟨.caller, hcaller, by simp only [Due, hat]⟩
  | closing => exact ⟨.caller, hcaller, by simp only [Due, hat]⟩
  | cleaning => exact ⟨.caller, hcaller, by simp only [Due, hat]⟩
  | joining =>
      cases hr : c.reader with
      | absent => exact ⟨.caller, hcaller, by simp only [Due, hat]; exact Or.inl hr⟩
      | ended => exact ⟨.caller, hcaller, by simp only [Due, hat]; exact Or.inr hr⟩
      | checking => exact ⟨.reader, hreader, by simp only [Due, hat]; exact Or.inl hr⟩
      | leaving => exact ⟨.reader, hreader, by simp only [Due, hat]; exact Or.inr hr⟩
      | receiving => exact ⟨.receive received, hreceive, by simp only [Due, hat]; exact hr⟩

/-- Nothing is left of a call exactly when the owner is idle. -/
theorem left_eq_zero_iff : left c = 0 ↔ c.caller = .idle := by
  unfold left
  cases hat : c.caller with
  | idle => exact ⟨fun _ => rfl, fun _ => rfl⟩
  | _ => exact ⟨fun h => by dsimp only at h; omega, fun h => by cases h⟩

/-- The turns of a call in progress are progress. -/
theorem progress_turn : Fairness.Progress turn Phase left Due where
  keep := fun c t h hleft =>
    (phase_turn t h).resolve_right (fun ho => hleft (left_eq_zero_iff.mpr ho.1))
  advance := fun c t h hleft => by
    have hc : c.caller ≠ .idle := fun hidle => hleft (left_eq_zero_iff.mpr hidle)
    rcases advances_turn t h hc with hless | ⟨hdue, hsame, hkept⟩
    · exact Or.inl hless
    · exact Or.inr ⟨hdue, hsame, fun t' ht' => (hkept t').mpr ht'⟩

/-- The call returns at some point of the schedule. -/
def Returns (c : Conn) (us : List Turn) : Prop :=
  ∃ pre, pre <+: us ∧ (pre.foldl turn c).caller = .idle

/-- A schedule in which everybody comes to a turn again and again. -/
def Fair (rounds : List (List Turn)) : Prop :=
  ∀ us ∈ rounds, .caller ∈ us ∧ .reader ∈ us ∧ ∃ received, .receive received ∈ us

theorem returns_of_left (rounds : List (List Turn)) (hfair : Fair rounds) (h : Phase c)
    (hleft : left c ≤ rounds.length) : Returns c rounds.flatten := by
  have hdue : ∀ us ∈ rounds, ∀ c, Phase c → left c ≠ 0 → ∃ t ∈ us, Due c t := by
    intro us hus c _ hne
    rcases hfair us hus with ⟨hcaller, hreader, hreceive⟩
    exact exists_due us (fun hidle => hne (left_eq_zero_iff.mpr hidle)) hcaller hreader hreceive
  rcases Fairness.reaches_rounds progress_turn rounds hdue c h hleft with ⟨pre, hpre, hzero⟩
  exact ⟨pre, hpre, left_eq_zero_iff.mp hzero⟩

theorem left_le (hc : c.caller ≠ .idle) : left c ≤ 9 := by
  unfold left
  cases hat : c.caller with
  | idle => exact absurd hat hc
  | _ => cases c.reader <;> simp only [left.readerLeft] <;> omega

/-- `Disconnect` returns. However the run has gone before, if it is in progress
    and nine rounds follow, in each of which both threads and the socket come
    to a turn, in any order and whatever is received, then it has returned in
    the meantime. -/
theorem disconnect_returns (ts : List Turn) (hc : (ts.foldl turn Conn.init).caller ≠ .idle)
    (rounds : List (List Turn)) (hfair : Fair rounds) (hlength : 9 ≤ rounds.length) :
    Returns (ts.foldl turn Conn.init) rounds.flatten := by
  have hphase : Phase (ts.foldl turn Conn.init) := by
    rcases reachable_run ts with hphase | ho | hl
    · exact hphase
    · exact absurd ho.caller hc
    · exact absurd hl.caller hc
  exact returns_of_left rounds hfair hphase (Nat.le_trans (left_le hc) hlength)

/-- The owner closes a connection on which something is just received. -/
theorem disconnect_returns_received :
    Returns ([Turn.connect .established, .reader, .disconnect].foldl turn Conn.init)
      (List.replicate 9 [Turn.receive .data, .reader, .caller]).flatten :=
  disconnect_returns [Turn.connect .established, .reader, .disconnect] (by decide)
    (List.replicate 9 [Turn.receive .data, .reader, .caller])
    (fun us hus => by
      rw [List.eq_of_mem_replicate hus]
      exact ⟨List.mem_cons_of_mem _ (List.mem_cons_of_mem _ List.mem_cons_self),
        List.mem_cons_of_mem _ List.mem_cons_self, .data, List.mem_cons_self⟩)
    (by decide)

end Returning

end Connection

end MzzPlork
