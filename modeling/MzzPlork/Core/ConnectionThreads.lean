import Mathlib.Logic.Basic

/-!
# The Threads of a Connection

`TcpServerConnection` (`runtime/src/TcpServerConnection.cpp`) as an object that
is opened, closed and destroyed while its reader thread runs: what `Connect`,
`Disconnect`, the destructor and `ReaderLoop` do to the flags, the socket, the
thread object and Winsock. What is read and sent is left to `ServerConnection`.

`Disconnect` is taken apart into what it does between two points where the
reader can come in. `Connect` is one turn: where it does anything, the reader
has nothing left to do. A `std::thread` that has run to its end is joinable
until it is joined, and `std::terminate` is called when a joinable one is
assigned to or destroyed.

A turn that does not fit a thread's place changes nothing, so any list of turns
is a schedule.

## Main definitions

* `Outcome`, `Received`: What the system calls answer.
* `ReaderPc`, `CallerPc`: How far the threads are.
* `Conn`: The object, and an account of what it has acquired and released.
* `Turn`, `turn`: One step of one thread.
-/

namespace MzzPlork

namespace Connection

/-- How an attempt to connect ends. -/
inductive Outcome where
  | noWinsock
  | unresolved
  | unreachable
  | established

/-- What `recv` returns. -/
inductive Received where
  | data
  | timedOut
  | closed
  | failed

/-- The reader thread: not there or joined, at the condition of its loop, in
    `recv`, behind the loop, or at its end. -/
inductive ReaderPc where
  | absent
  | checking
  | receiving
  | leaving
  | ended
  deriving DecidableEq

/-- The thread that owns the connection: outside of a call, or in front of a
    statement of `Disconnect`. -/
inductive CallerPc where
  | idle
  | stopping
  | unmarking
  | halfClosing
  | joining
  | closing
  | cleaning
  deriving DecidableEq

/-- The connection. `destroying` is set where `Disconnect` is called by the
    destructor. The counts are those of `WSAStartup`, `WSACleanup`, `socket`
    (as far as they led to a connection) and `closesocket`. -/
structure Conn where
  connected : Bool
  shouldStop : Bool
  wsaStarted : Bool
  socket : Bool
  reader : ReaderPc
  caller : CallerPc
  destroying : Bool
  destroyed : Bool
  terminated : Bool
  startups : Nat
  cleanups : Nat
  opened : Nat
  closed : Nat

namespace Conn

/-- A default-constructed connection. -/
def init : Conn where
  connected := false
  shouldStop := false
  wsaStarted := false
  socket := false
  reader := .absent
  caller := .idle
  destroying := false
  destroyed := false
  terminated := false
  startups := 0
  cleanups := 0
  opened := 0
  closed := 0

/-- `CleanupWinsock`. -/
def cleanupWinsock (c : Conn) : Conn :=
  if c.wsaStarted then { c with cleanups := c.cleanups + 1, wsaStarted := false } else c

/-- `Connect`. -/
def connect (c : Conn) (outcome : Outcome) : Conn :=
  if c.connected then c
  else
    match outcome with
    | .noWinsock => c
    | .unresolved | .unreachable =>
      { c with startups := c.startups + 1, wsaStarted := true }.cleanupWinsock
    | .established =>
      let c := { c with
        startups := c.startups + 1
        wsaStarted := true
        opened := c.opened + 1
        socket := true
        connected := true
        shouldStop := false }
      -- The old thread is assigned to, which a joinable one does not survive.
      if c.reader = .absent then { c with reader := .checking } else { c with terminated := true }

/-- The members are destroyed. -/
def destroyMembers (c : Conn) : Conn :=
  if c.reader = .absent then { c with destroyed := true } else { c with terminated := true }

/-- `Disconnect` is called, and looks at `connected_`. -/
def callDisconnect (c : Conn) (destroying : Bool) : Conn :=
  if c.connected then { c with caller := .stopping, destroying := destroying }
  else if destroying then c.destroyMembers
  else c

/-- The end of `Disconnect`, and of the destructor where that has called it. -/
def returnFromDisconnect (c : Conn) : Conn :=
  if c.destroying then { c with caller := .idle }.destroyMembers else { c with caller := .idle }

/-- `Disconnect` goes on. It waits for a reader that has not ended. -/
def callerStep (c : Conn) : Conn :=
  match c.caller with
  | .idle => c
  | .stopping => { c with shouldStop := true, caller := .unmarking }
  | .unmarking => { c with connected := false, caller := .halfClosing }
  | .halfClosing => { c with caller := .joining }
  | .joining =>
    match c.reader with
    | .absent | .ended => { c with reader := .absent, caller := .closing }
    | _ => c
  | .closing =>
    if c.socket then { c with socket := false, closed := c.closed + 1, caller := .cleaning }
    else { c with caller := .cleaning }
  | .cleaning => c.cleanupWinsock.returnFromDisconnect

/-- `ReaderLoop` goes on, outside of `recv`. -/
def readerStep (c : Conn) : Conn :=
  match c.reader with
  | .checking => { c with reader := if c.shouldStop then .leaving else .receiving }
  | .leaving => { c with connected := false, reader := .ended }
  | _ => c

/-- `recv` returns. -/
def receive (c : Conn) (received : Received) : Conn :=
  match c.reader, received with
  | .receiving, .data | .receiving, .timedOut => { c with reader := .checking }
  | .receiving, .closed | .receiving, .failed => { c with reader := .leaving }
  | _, _ => c

/-- The owner is free to make a call. -/
def free (c : Conn) : Bool := c.caller = .idle

/-- The process is gone, or the object is. -/
def gone (c : Conn) : Bool := c.destroyed || c.terminated

end Conn

/-- What can happen next. -/
inductive Turn where
  | connect (outcome : Outcome)
  | disconnect
  | destroy
  | caller
  | reader
  | receive (received : Received)

/-- One step of one thread. -/
def turn (c : Conn) (t : Turn) : Conn :=
  if c.gone then c
  else
    match t with
    | .connect outcome => if c.free then c.connect outcome else c
    | .disconnect => if c.free then c.callDisconnect false else c
    | .destroy => if c.free then c.callDisconnect true else c
    | .caller => c.callerStep
    | .reader => c.readerStep
    | .receive received => c.receive received

end Connection

end MzzPlork
