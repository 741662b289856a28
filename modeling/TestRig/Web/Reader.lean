import TestRig.Layout

/-! # What a text names

    A client reads every URL into an address before it asks for anything,
    and it reads every `Location` relative to the address whose response
    holds it. How it does that is settled by the client and by the rules for
    URLs, not by the program that uses it: which spellings of a host are
    one, what is percent-encoded, which schemes can be asked for.

    So the reading of URLs is a parameter here (`UrlReader`), and nothing is
    assumed about it. What is proved of downloads holds for every client
    that reads URLs in some fixed way. -/

namespace TestRig

/-- What a client asks for: a URL over HTTP or HTTPS as it is after it has
    been read, without the part from `#` on. -/
abbrev Address : Type := Bytes

/-- What a text turns out to be when it is read as the URL of a resource. -/
inductive Reference where
  | address (a : Address)
  /-- A URL of a scheme that the client does not speak. -/
  | foreign
  /-- No URL at all, or none that the client goes by. -/
  | unreadable
  deriving DecidableEq

/-- How a client reads texts. -/
structure UrlReader where
  /-- What a text means by itself. -/
  read : Url → Reference
  /-- What the `Location` in a response from `base` means. One that is no
      text is unreadable. -/
  refer : (base : Address) → (location : Bytes) → Reference

end TestRig
