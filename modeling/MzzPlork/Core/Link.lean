import MzzPlork.Core.Runtime

/-!
# A Client and Its Server

One `ClientRuntime` (`Runtime`) and the server (`TcpServer`), with the
connection between them. Everybody else who is connected does what he likes.

The two directions of the connection are streams. The server comes to the
client's lines one after the other, in the order in which they were said, and
the reader thread of the client comes to the server's messages one after the
other. Either side takes its time, and both may stop for ever. That lines come
through a socket whole and in order is in `Framing`, and that they mean the same
on both sides is in `Encoding` and `Readable`.

The server ends its side of the socket right after a kick, so nothing that it
says later is written, and nothing is written to a socket that has been closed.

## Main definitions

* `arriving`: What is written to a session.
* `System`: Both sides, and how far they have come with each other's stream.
* `Action`, `act`: What can happen.
-/

namespace MzzPlork

namespace Link

open Server MzzPlork.Runtime

/-- The messages up to the first kick, after which the socket is ended. -/
def upToKick (ms : List ServerMessage) : List ServerMessage :=
  match ms with
  | [] => []
  | .kick reason :: _ => [.kick reason]
  | m :: ms => m :: upToKick ms

/-- What is written to the socket of a session. -/
def arriving (srv : TcpServer) (u : SessionId) : List ServerMessage :=
  upToKick ((srv.log.filter (fun call => call.1 = u)).map Prod.snd)

/-- Both sides. `handled` counts the lines of the client that the server has
    come to, `received` the messages that the client has come to, and `closed`
    is how many were written when the server's socket was closed. -/
structure System where
  srv : TcpServer
  client : Client
  handled : Nat
  received : Nat
  closed : Option Nat

/-- Nobody has connected. -/
def System.init : System where
  srv := TcpServer.init
  client := Client.init
  handled := 0
  received := 0
  closed := none

section Actions

variable (host : Host) (u : SessionId) (services : Services) (script : Heartbeat.Script)
  (parses : ServerMessage → Bool)

/-- The next message the client comes to, if there is any. -/
def System.next (w : System) : Option ServerMessage :=
  match w.closed with
  | some n => ((arriving w.srv u).take n)[w.received]?
  | none => (arriving w.srv u)[w.received]?

/-- The server comes to a line of the client's. There has to be a session. -/
def System.handle (ambient : Ambient) (w : System) : System :=
  match w.client.said[w.handled]?, w.srv.objs u with
  | some line, some _ =>
    { w with
      srv := step host w.srv (.message u line.type (some line.payload) ambient)
      handled := w.handled + 1 }
  | _, _ => w

/-- The reader thread of the client comes to a message. -/
def System.receive (w : System) : System :=
  match w.next u with
  | some m =>
    if w.client.connected then
      { w with client := w.client.onDispatch parses m, received := w.received + 1 }
    else w
  | none => w

/-- The socket of the session is closed, from whichever side. -/
def System.close (w : System) : System :=
  { w with
    srv := step host w.srv (.close u)
    closed := some (w.closed.getD (arriving w.srv u).length) }

/-- `kick` in `server/src/adminConsole.js`. The session stays in the map until
    the socket is closed. -/
def System.kick (w : System) : System :=
  if w.srv.sessions.any (fun s => s = u) then
    { w with srv := w.srv.send u (.kick (.str (js "kicked by admin"))) }
  else w

/-- What else happens to the server: the session's connection is accepted, the
    watchdog ticks, the server shuts down, and whatever others do. -/
def foreign (e : Event) : Bool :=
  match e with
  | .message s _ _ _ => s ≠ u
  | .close s => s ≠ u
  | _ => true

/-- What the client does. Its messages come from the server. -/
def own (a : ClientAction) : Bool :=
  match a with
  | .dispatch _ => false
  | _ => true

/-- What can happen. -/
inductive Action where
  | client (a : ClientAction)
  | handle (ambient : Ambient)
  | receive
  | close
  | kick
  | server (e : Event)

/-- One action. -/
def act (w : System) (a : Action) : System :=
  match a with
  | .client a =>
    if own a then { w with client := Runtime.act services script parses w.client a } else w
  | .handle ambient => w.handle host u ambient
  | .receive => w.receive u parses
  | .close => w.close host u
  | .kick => w.kick u
  | .server e => if foreign u e then { w with srv := step host w.srv e } else w

end Actions

end Link

end MzzPlork
