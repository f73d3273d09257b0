import NodeAttestation.Error
import NodeAttestation.Identifier

/-! Exchanges with the service: one request and the response to it, over a connection of its own. -/

namespace NodeAttestation

/-- How the connection is to be made. -/
structure Transport where
  ignoreCertificateErrors : Bool
  forceRelay : Bool
  compression : Bool
  /-- The bundle that the traffic is attributed to. -/
  bundle : Option String
deriving DecidableEq

/-- Connections to the service itself are direct; none goes through a relay. -/
def Transport.check (t : Transport) : Except Error Unit :=
  if t.forceRelay then .error (.transport "oblivious HTTP relaying is not supported") else .ok ()

/-- The values of a request's headers by their names. -/
abbrev Headers := SortedMap String String

namespace Headers

/-- Tabs, and all characters from the space on but the delete character. -/
def isLegal (c : Char) : Bool := c == '\t' || (0x20 ≤ c.toNat && c.toNat != 0x7f)

def isLegalValue (value : String) : Bool := value.toList.all isLegal

def put (headers : Headers) (name value : String) : Except Error Headers :=
  if isLegalValue value then .ok (headers.insert name value) else .error .headerValue

def putOption (headers : Headers) (name : String) : Option String → Except Error Headers
  | none => .ok headers
  | some value => headers.put name value

end Headers

structure Request where
  id : Id
  endpoint : String
  path : String
  headers : Headers
  body : Bytes
  transport : Transport
deriving DecidableEq

/-- What comes of an attempt to exchange. -/
inductive Reply where
  /-- There is no connection. -/
  | unreachable (reason : String)
  /-- The connection breaks before there is a response. -/
  | broken (reason : String)
  | response (status : Nat) (body : Body)
deriving DecidableEq

/-- A response whose status has three digits; 500 stands for any other. -/
def Reply.withStatus (status : Nat) (body : Body) : Reply :=
  .response (if 100 ≤ status && status ≤ 999 then status else 500) body

/-- The replies to the attempts of an invocation, counted from zero. -/
abbrev Network := Nat → Reply

/-- Replies that are known beforehand; after them there is no connection. -/
def Network.ofList (replies : List Reply) : Network := fun attempt =>
  (replies[attempt]?).getD (.unreachable "no scripted response left")

end NodeAttestation
