import AsmProto.Common

set_option autoImplicit false

/-! # Opening sockets

The calls of `socket.cpp` that throw: the operating system returns what it is said to return, an error
with its `strerror`. -/

namespace AsmProto

namespace Socket

def orThrow (result : Except String Unit) (what : String) : Except StdException Unit :=
  match result with
  | .ok () => .ok ()
  | .error reason => .error (.asmError (what ++ reason))

/-- What the calls that open the listening socket do. -/
structure Listening where
  socket : Except String Unit := .ok ()
  reuseAddr : Bool := true
  bind : Except String Unit := .ok ()
  listen : Except String Unit := .ok ()

/-- `make_tcp_socket`, `set_reuse_addr` and `bind_and_listen`. -/
def listen (listening : Listening) : Except StdException Unit := do
  orThrow listening.socket "socket failed: "
  if listening.reuseAddr then
    orThrow listening.bind "bind failed: "
    orThrow listening.listen "listen failed: "
  else .error (.asmError "failed to set SO_REUSEADDR")

/-- What the calls that connect to a host do. -/
structure Dialling where
  socket : Except String Unit := .ok ()
  /-- `getaddrinfo`: what `connect` will say to each of the addresses. -/
  getaddrinfo : StdString → Except String (List (Except String Unit))
  errno : String := "Success"

/-- The loop over the addresses; `errno` keeps the last failure. -/
def connectAny : String → List (Except String Unit) → Except StdException Unit
  | errno, [] => .error (.asmError ("connect failed: " ++ errno))
  | _, .ok () :: _ => .ok ()
  | _, .error reason :: addresses => connectAny reason addresses

/-- `make_tcp_socket` and `connect`. -/
def dial (dialling : Dialling) (host : StdString) : Except StdException Unit := do
  orThrow dialling.socket "socket failed: "
  match dialling.getaddrinfo host with
  | .error reason => .error (.asmError ("getaddrinfo failed: " ++ reason))
  | .ok addresses => connectAny dialling.errno addresses

end Socket

end AsmProto
