import Regonf.DaemonRuns
import Regonf.ServerCommands

/-! The daemon that is driven by datagrams, and that it does what the daemon that is driven by
commands does. -/
namespace Regonf

open Script

/-! The chain on any request. -/

section
variable {α : Type*} {request : ACPRequest} {other : Option α} {bs : List (List UInt8 × Option α)}
  {x : α}

end

variable {R : Type} [Zero R] [Sqlite R]

/-- The command that does what the server does for a request; one that changes nothing is like one
that starts no programs. -/
def Handled.toCommand : Handled R → Command R
  | .command c => c
  | _ => .progStart []

/-- A datagram on the socket of the server, or none, with what the stack holds in the place of
the variables of `serverRun`. -/
structure Received where
  stack : Stack
  srv : ACPRequest
  peer_client : Peer
  d : Option Datagram

variable (scanF : List UInt8 → Option (R × List UInt8))

def Received.read (r : Received) (init_state : Bool) : Option (Handled R × ACPRequest × Peer) :=
  serverRead scanF r.stack r.srv init_state r.peer_client r.d

/-- What the server does to read the datagram is defined. -/
def Received.Defined (r : Received) : Prop := (r.read scanF true).isSome = true

def Received.command (r : Received) : Command R :=
  ((r.read scanF true).map fun x => x.1.toCommand).getD (.progStart [])

variable {scanF}

variable [Add R] [Sub R] [LT R] [DecidableLT R] [BEq R] (scanF)

variable {scanF}

end Regonf
