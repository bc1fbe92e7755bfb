import NttX402.Library.Interaction
import NttX402.Worker.Types

namespace NttX402.Worker
open Library

/-! ## Calls to the Workers runtime -/

structure PostRequest where
  url : String
  body : String
  deriving DecidableEq

inductive HostOp
  | newRequest (request : PostRequest)
  | send (request : PostRequest)
  | text (request : PostRequest)
  /-- Awaits the body of the request that is being answered. -/
  | bytes
  | newResponse (status : Nat)
  deriving DecidableEq

/-- An error is given by the text it displays. The body itself is a field of `Request`, since it
does not depend on when it is read. -/
def HostOp.Reply : HostOp → Type
  | .newRequest _ => Except String Unit
  | .send _ => Except String Unit
  | .text _ => Except String String
  | .bytes => Unit
  | .newResponse _ => Except String Unit

def host : Interface where
  Op := HostOp
  Reply := HostOp.Reply

abbrev Host := Program host

def newRequest (request : PostRequest) : Host (Except String Unit) :=
  Program.request (I := host) (.newRequest request)

def send (request : PostRequest) : Host (Except String Unit) :=
  Program.request (I := host) (.send request)

def text (request : PostRequest) : Host (Except String String) :=
  Program.request (I := host) (.text request)

def awaitBytes : Host Unit := Program.request (I := host) .bytes

def newResponse (status : Nat) : Host (Except String Unit) :=
  Program.request (I := host) (.newResponse status)

section Bind
variable {α : Type}

theorem newRequest_bind (request : PostRequest) (f : Except String Unit → Host α) :
    newRequest request >>= f = Program.call (I := host) (.newRequest request) f := rfl

theorem send_bind (request : PostRequest) (f : Except String Unit → Host α) :
    send request >>= f = Program.call (I := host) (.send request) f := rfl

theorem text_bind (request : PostRequest) (f : Except String String → Host α) :
    text request >>= f = Program.call (I := host) (.text request) f := rfl

theorem awaitBytes_bind (f : Unit → Host α) :
    awaitBytes >>= f = Program.call (I := host) .bytes f := rfl

theorem newResponse_bind (status : Nat) (f : Except String Unit → Host α) :
    newResponse status >>= f = Program.call (I := host) (.newResponse status) f := rfl

end Bind

/-! ## Requests, responses and variables -/

structure Request where
  /-- `req.headers().get("X-Payment")` -/
  xPayment : Except String (Option String)
  body : Except String (List UInt8)

structure Response where
  status : Nat
  headers : List (String × String)
  body : List UInt8
  deriving DecidableEq

/-- `env.var`. -/
abbrev Env := String → Except String String

end NttX402.Worker
