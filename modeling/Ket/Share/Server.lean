import Ket.Share.Policy
import Ket.Share.Socks5

/-!
# Serving one connection (`ket-share/src/server.rs`, `egress.rs`)

A device signs in and says where it is going, the share dials through the tunnel, and bytes are
relayed.  What the tunnel, the site and the device do is a parameter of one run: `Egress` gives the
outcome of each lookup and each try, `Site` says how much of what is written to it arrives and what it
answers.  A lookup or a try that is `pending` runs into the time limit.  The run returns the calls that
the egress gets and the bytes that arrive at the site; a connection that ends early, at a failed
write or because sharing stops, cuts them off somewhere.
-/

namespace Ket.Share

open Ket.Lib

/-! ### Dialling -/

/-- A name that resolves to several addresses gets this many tries. -/
def maxAddressesTried : ℕ := 2

inductive EgressError where
  | noTunnel
  | unresolved
  | timedOut
  | refused
  | unreachable
deriving DecidableEq, Repr

/-- A connection to a site. -/
structure Site where
  /-- How many bytes arrive before the connection ends. -/
  takes : ℕ
  /-- What the site sends, as the reads give it. -/
  answer : List (List UInt8)
deriving DecidableEq

inductive Attempt (α : Type) where
  | answered (result : Except EgressError α)
  | pending

structure Egress where
  resolve : List UInt8 → Attempt (List IpAddr)
  /-- The outcomes of the tries, by their number. -/
  connect : ℕ → Attempt Site
  syntheticRange : Option Ipv4Range

/-- What the egress is asked. -/
inductive Call where
  | resolve (name : List UInt8)
  | connect (address : IpAddr) (port : UInt16)
deriving DecidableEq

inductive DialFailure where
  | notAllowed
  | noTunnel
  | unresolved
  | timedOut
  | refused
  | unreachable
deriving DecidableEq, Repr

def DialFailure.ofEgressError : EgressError → DialFailure
  | .noTunnel => noTunnel
  | .unresolved => unresolved
  | .timedOut => timedOut
  | .refused => refused
  | .unreachable => unreachable

/-- The loop over the addresses.  `n` tries have been made, and `failure` is what the last of them
came to. -/
def tryAddresses (egress : Egress) (port : UInt16) (n : ℕ) (failure : DialFailure) :
    List IpAddr → List Call × Except DialFailure Site
  | [] => ([], .error failure)
  | address :: addresses =>
    match egress.connect n with
    | .answered (.ok site) => ([.connect address port], .ok site)
    | .answered (.error error) =>
      if error = .noTunnel then ([.connect address port], .error .noTunnel)
      else
        let (calls, result) := tryAddresses egress port (n + 1) (.ofEgressError error) addresses
        (.connect address port :: calls, result)
    | .pending => ([.connect address port], .error .timedOut)

/-- The addresses that are tried. -/
def candidates (addresses : List IpAddr) (origin : Origin) (synthetic : Option Ipv4Range) :
    List IpAddr :=
  (addresses.filter fun address => allowed address origin synthetic).take maxAddressesTried

def connectTo (egress : Egress) (port : UInt16) (addresses : List IpAddr) (origin : Origin) :
    List Call × Except DialFailure Site :=
  let tried := candidates addresses origin egress.syntheticRange
  if tried = [] then ([], .error .notAllowed)
  else tryAddresses egress port 0 .unreachable tried

/-- `dial`. -/
def dial (target : Target) (egress : Egress) : List Call × Except DialFailure Site :=
  match target.host with
  | .address address => connectTo egress target.port [address] .requested
  | .name name =>
    match egress.resolve name with
    | .answered (.ok addresses) =>
      let (calls, result) := connectTo egress target.port addresses .resolved
      (.resolve name :: calls, result)
    | .answered (.error error) => ([.resolve name], .error (.ofEgressError error))
    | .pending => ([.resolve name], .error .timedOut)

/-! ### One connection -/

/-- What the connections of a share have in common. -/
structure Shared where
  lib : ShareLib
  credentials : Credentials

/-- What the device takes of what the share writes. -/
structure Device where
  answers : Socks5.Answers
  /-- It takes the head of the response. -/
  response : Bool
deriving DecidableEq

/-- What came of a connection. -/
structure Served where
  refusal : Option Refusal
  calls : List Call
  /-- The bytes that arrived at the site. -/
  sent : List UInt8
deriving DecidableEq

def refused (refusal : Refusal) : Served := ⟨some refusal, [], []⟩

/-- `serve_socks`, on what follows the version byte. -/
def serveSocks (S : Shared) (device : Device) (egress : Egress) (stream : List UInt8) : Served :=
  match (Socks5.negotiate S.lib S.credentials device.answers).run stream with
  | .error refusal => refused refusal
  | .ok (target, rest) =>
    match dial target egress with
    | (calls, .ok site) => ⟨none, calls, rest.take site.takes⟩
    | (calls, .error _) => ⟨none, calls, []⟩

/-- The request of a device that signs in, with the bytes that were read behind its head and those
that were not read. -/
def signedInRequest (S : Shared) (first : UInt8) (chunks : List (List UInt8)) :
    Except Refusal (Http.Request × List UInt8 × List (List UInt8)) := do
  let (head, rest, later) ← Http.readHead [first] chunks
  let request ← Http.parseRequest S.lib head
  request.authorize S.credentials
  return (request, rest, later)

/-- The response head can be passed on. -/
def responds (device : Device) (site : Site) : Bool :=
  match Http.readHead [] site.answer with
  | .error _ => false
  | .ok (response, _, _) => (Http.rewriteResponse response).isSome && device.response

/-- What arrives at the site of an open connection.  A plain request is relayed once its head, what
was read with it and the head of the response have been passed on. -/
def relay (device : Device) (site : Site) (kind : Http.Kind) (rest : List UInt8)
    (later : List (List UInt8)) : List UInt8 :=
  match kind with
  | .tunnel => if device.response then (rest ++ later.flatten).take site.takes else []
  | .forward head =>
    let opening := head ++ rest
    if opening.length ≤ site.takes ∧ responds device site then
      (opening ++ later.flatten).take site.takes
    else opening.take site.takes

/-- `serve_http`. -/
def serveHttp (S : Shared) (device : Device) (egress : Egress) (first : UInt8)
    (chunks : List (List UInt8)) : Served :=
  match signedInRequest S first chunks with
  | .error refusal => refused refusal
  | .ok (request, rest, later) =>
    match dial request.target egress with
    | (calls, .ok site) => ⟨none, calls, relay device site request.kind rest later⟩
    | (calls, .error _) => ⟨none, calls, []⟩

/-- `serve`, from the first byte on. -/
def serve (S : Shared) (device : Device) (egress : Egress) (first : UInt8)
    (chunks : List (List UInt8)) : Served :=
  if first = Socks5.version then serveSocks S device egress chunks.flatten
  else if isAsciiUppercase first then serveHttp S device egress first chunks
  else ⟨none, [], []⟩

namespace Sample

/-- A library that knows no IPv6 address. -/
def noIpv6 : ShareLib := ⟨base64, fun _ => none, nofun⟩

def shared : Shared := ⟨noIpv6, ⟨Str.bytes "ket", Str.bytes "abcdefghjkmn"⟩⟩

end Sample

end Ket.Share
