import TestRig.Web.Reader
import TestRig.Web.Status

/-! # Exchanges

    The web is what a client finds there: a reply at every address, and a
    way to read URLs that all its requests have in common. An exchange asks
    an address and follows the redirects it is answered with, at most ten of
    them. Its outcome is the response that is not followed, or nothing if
    some request on the way cannot be made or breaks. The requests that were
    made are kept in order.

    `Web.follow` recurses on the number of redirects that may still be
    followed, so a web that redirects in circles, or ever further, is left
    after eleven requests. -/

namespace TestRig

/-! ## Section 1: Replies -/

/-- What a server sends back. -/
structure Response where
  status : Nat
  location : Option Bytes
  /-- The bytes that arrive. -/
  body : Bytes
  /-- Does the body arrive in full? -/
  complete : Bool
  deriving DecidableEq, Inhabited

/-- What becomes of a request to an address. -/
inductive Reply where
  /-- No connection can be made, so no request is sent. -/
  | refused
  /-- The connection breaks before a response arrives. -/
  | broken
  | answered (r : Response)
  deriving DecidableEq

/-- The replies in a table, and one for all addresses that are not there. -/
def Reply.listed (table : List (Address × Reply)) (otherwise : Reply) (a : Address) : Reply :=
  (table.lookup a).getD otherwise

/-- What a client meets: how it reads URLs, and the replies of all
    addresses. -/
structure Web where
  reader : UrlReader
  reply : Address → Reply

/-- The response that arrives when a server sends `body` and declares its
    length. Some statuses never come with a body. Otherwise the response is
    cut short if more was declared than was sent. -/
def Response.served (status : Nat) (location : Option Bytes) (body : Bytes)
    (declared : Option Nat) : Response :=
  if Status.isBodiless status then ⟨status, location, [], true⟩
  else ⟨status, location, body, declared.getD 0 ≤ body.length⟩

/-- The response of a server that does not know the address. -/
def Response.notFound : Response := ⟨404, none, [], true⟩

/-! ## Section 2: Following redirects -/

namespace Web

/-- The web as seen from a machine that is not connected. -/
def unreachable (reader : UrlReader) : Web := ⟨reader, fun _ => .refused⟩

/-- How many redirects one exchange follows. -/
def redirectLimit : Nat := 10

/-- Where a response from `a` sends the client on to, if it does. -/
def onward (w : Web) (a : Address) (r : Response) : Option Reference :=
  if Status.isRedirect r.status then
    match r.location.map (w.reader.refer a) with
    | some .unreadable => none
    | other => other
  else none

/-- What an exchange came to: the requests that were made, and the final
    response if there is one. -/
structure Exchange where
  requests : List Address
  response : Option Response
  deriving DecidableEq

/-- Ask `a` and follow at most `redirects` redirects. -/
def follow (w : Web) : (redirects : Nat) → Address → Exchange
  | redirects, a =>
    match w.reply a with
    | .refused => ⟨[], none⟩
    | .broken => ⟨[a], none⟩
    | .answered r =>
      match w.onward a r with
      | none => ⟨[a], some r⟩
      | some (.address b) =>
        match redirects with
        -- the response that asks for one redirect too many is not kept
        | 0 => ⟨[a], none⟩
        | redirects + 1 =>
          let rest := w.follow redirects b
          ⟨a :: rest.requests, rest.response⟩
      | some _ => ⟨[a], none⟩

/-- Ask for what `url` names. A text that names nothing is not asked for. -/
def exchange (w : Web) (url : Url) : Exchange :=
  match w.reader.read url with
  | .address a => w.follow redirectLimit a
  | _ => ⟨[], none⟩

end Web

end TestRig
