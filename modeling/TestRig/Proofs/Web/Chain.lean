import TestRig.Web.Exchange

/-! # Chains of redirects

    `Web.follow` asks one address after the other while it counts down the
    redirects that are left. `Web.Chain` says without any count what it
    asks for: addresses each of which sends the client on to the next one,
    the last one answering with a response that is not followed. A response
    is final for a URL (`Web.Serves`) if it ends a chain with no more
    redirects than one exchange follows.

    `Web.RedirectChain` is the same for what is asked for, whatever comes of
    it: it also describes the requests of an exchange that fails on the way
    or is sent on too often. `Web.Unanswered` lists what may come in the way
    of a final response. -/

namespace TestRig.Web

/-! ## Section 1: The final response -/

/-- Each address sends the client on to the next one, and the last one
    answers with `r`. -/
inductive Chain (w : Web) : List Address → Response → Prop where
  | final {a r} : w.reply a = .answered r → w.onward a r = none → Chain w [a] r
  | hop {a b s rest r} :
      w.reply a = .answered s → w.onward a s = some (.address b) → Chain w (b :: rest) r →
      Chain w (a :: b :: rest) r

/-- The final response of the exchange for a URL is `r`. -/
def Serves (w : Web) (url : Url) (r : Response) : Prop :=
  ∃ a rest, w.reader.read url = .address a ∧ w.Chain (a :: rest) r ∧ rest.length ≤ redirectLimit

section follow

variable {w : Web} {n : Nat} {a b : Address} {r : Response}

theorem follow_final (hreply : w.reply a = .answered r) (hstay : w.onward a r = none) :
    w.follow n a = ⟨[a], some r⟩ := by
  unfold follow
  rw [hreply]
  simp [hstay]

theorem follow_hop (hreply : w.reply a = .answered r) (hon : w.onward a r = some (.address b)) :
    w.follow (n + 1) a = ⟨a :: (w.follow n b).requests, (w.follow n b).response⟩ := by
  rw [follow, hreply]
  simp [hon]

end follow

/-- Following finds the response at the end of a chain that is short
    enough, and no other. -/
theorem follow_eq_some_iff (w : Web) (n : Nat) (a : Address) (r : Response) :
    (w.follow n a).response = some r ↔ ∃ rest, w.Chain (a :: rest) r ∧ rest.length ≤ n := by
  induction n generalizing a with
  | zero =>
    constructor
    · intro h
      unfold follow at h
      split at h
      · cases h
      · cases h
      · next s hreply =>
        split at h
        · next hstay =>
          cases h
          exact ⟨[], .final hreply hstay, Nat.le_refl 0⟩
        · cases h
        · cases h
    · rintro ⟨rest, hc, hlen⟩
      obtain rfl := List.length_eq_zero_iff.mp (Nat.le_zero.mp hlen)
      cases hc with
      | final hreply hstay => rw [follow_final hreply hstay]
  | succ n ih =>
    constructor
    · intro h
      unfold follow at h
      split at h
      · cases h
      · cases h
      · next s hreply =>
        split at h
        · next hstay =>
          cases h
          exact ⟨[], .final hreply hstay, Nat.zero_le _⟩
        · next b hon =>
          obtain ⟨rest, hc, hlen⟩ := (ih b).mp h
          exact ⟨b :: rest, .hop hreply hon hc, Nat.succ_le_succ hlen⟩
        · cases h
    · rintro ⟨rest, hc, hlen⟩
      cases hc with
      | final hreply hstay => rw [follow_final hreply hstay]
      | @hop _ b s rest _ hreply hon hc =>
        -- one redirect is used up
        have hlen' : rest.length ≤ n := Nat.le_of_succ_le_succ hlen
        have hrest := (ih b).mpr ⟨rest, hc, hlen'⟩
        rw [follow_hop hreply hon, hrest]

theorem exchange_eq_some_iff (w : Web) (url : Url) (r : Response) :
    (w.exchange url).response = some r ↔ w.Serves url r := by
  unfold exchange Serves
  cases h : w.reader.read url with
  | address a => simp [follow_eq_some_iff]
  | foreign => simp
  | unreadable => simp

/-- A URL has one final response at most. -/
theorem Serves.unique {w : Web} {url : Url} {r r' : Response} (h : w.Serves url r)
    (h' : w.Serves url r') : r = r' := by
  rw [← exchange_eq_some_iff] at h h'
  exact Option.some.inj (h.symm.trans h')

/-! ## Section 2: What is asked for -/

/-- The address answers, and the answer sends the client on to `b`. -/
def Redirects (w : Web) (a b : Address) : Prop :=
  ∃ r, w.reply a = .answered r ∧ w.onward a r = some (.address b)

/-- Asking `a` comes to asking for all of these addresses, one after the
    other. Each sends the client on to the next one. The last one does not,
    or it may not be followed any more, or nobody can be reached after it. -/
inductive Asks (w : Web) : (redirects : Nat) → Address → List Address → Prop where
  | unconnected {n a} : w.reply a = .refused → Asks w n a []
  | stays {n a} : w.reply a ≠ .refused → (∀ b, ¬ w.Redirects a b) → Asks w n a [a]
  | limit {a b} : w.Redirects a b → Asks w 0 a [a]
  | hop {n a b as} : w.Redirects a b → Asks w n b as → Asks w (n + 1) a (a :: as)

/-- The addresses that an exchange for the URL asks one after the other. A
    text that names nothing is not asked for. -/
def RedirectChain (w : Web) (url : Url) (as : List Address) : Prop :=
  match w.reader.read url with
  | .address a => w.Asks redirectLimit a as
  | _ => as = []

section requests

variable {w : Web} {a b : Address}

theorem follow_requests_unconnected {n : Nat} (h : w.reply a = .refused) :
    (w.follow n a).requests = [] := by
  unfold follow
  rw [h]

theorem follow_requests_stays {n : Nat} (h : w.reply a ≠ .refused)
    (hstays : ∀ b, ¬ w.Redirects a b) : (w.follow n a).requests = [a] := by
  unfold follow
  split
  · next hr => exact absurd hr h
  · rfl
  · next r hr =>
    split
    · rfl
    · next b hon => exact absurd ⟨r, hr, hon⟩ (hstays b)
    · rfl

theorem follow_requests_limit (h : w.Redirects a b) : (w.follow 0 a).requests = [a] := by
  obtain ⟨r, hr, hon⟩ := h
  unfold follow
  rw [hr]
  simp [hon]

theorem follow_requests_hop {n : Nat} (h : w.Redirects a b) :
    (w.follow (n + 1) a).requests = a :: (w.follow n b).requests := by
  obtain ⟨r, hr, hon⟩ := h
  rw [follow_hop hr hon]

end requests

theorem asks_follow (w : Web) (n : Nat) (a : Address) : w.Asks n a (w.follow n a).requests := by
  by_cases hrefused : w.reply a = .refused
  · rw [follow_requests_unconnected hrefused]
    exact .unconnected hrefused
  by_cases hon : ∃ b, w.Redirects a b
  · obtain ⟨b, hb⟩ := hon
    cases n with
    | zero =>
      rw [follow_requests_limit hb]
      exact .limit hb
    | succ n =>
      rw [follow_requests_hop hb]
      exact .hop hb (asks_follow w n b)
  · have hstays : ∀ b, ¬ w.Redirects a b := fun b hb => hon ⟨b, hb⟩
    rw [follow_requests_stays hrefused hstays]
    exact .stays hrefused hstays

theorem Asks.follow {w : Web} {n : Nat} {a : Address} {as : List Address} (h : w.Asks n a as) :
    (w.follow n a).requests = as := by
  induction h with
  | unconnected hrefused => exact follow_requests_unconnected hrefused
  | stays hreached hstays => exact follow_requests_stays hreached hstays
  | limit hon => exact follow_requests_limit hon
  | hop hon _ ih => rw [follow_requests_hop hon, ih]

/-- An exchange asks for the redirect chain of its URL and for nothing
    else. -/
theorem exchange_requests_eq_iff (w : Web) (url : Url) (as : List Address) :
    (w.exchange url).requests = as ↔ w.RedirectChain url as := by
  unfold exchange RedirectChain
  cases w.reader.read url with
  | address a =>
    constructor
    · rintro rfl
      exact asks_follow w redirectLimit a
    · exact Asks.follow
  | foreign => exact eq_comm
  | unreadable => exact eq_comm

theorem Chain.requests {w : Web} {n : Nat} {a : Address} {rest : List Address} {r : Response}
    (h : w.Chain (a :: rest) r) (hlen : rest.length ≤ n) :
    (w.follow n a).requests = a :: rest := by
  induction n generalizing a rest with
  | zero =>
    obtain rfl := List.length_eq_zero_iff.mp (Nat.le_zero.mp hlen)
    cases h with
    | final hreply hstay => rw [follow_final hreply hstay]
  | succ n ih =>
    cases h with
    | final hreply hstay => rw [follow_final hreply hstay]
    | hop hreply hon hc => rw [follow_hop hreply hon, ih hc (Nat.le_of_succ_le_succ hlen)]

/-- With a final response, what was asked for is the chain that it ends. -/
theorem Serves.requests {w : Web} {url : Url} {r : Response} (h : w.Serves url r) :
    ∃ a rest, w.reader.read url = .address a ∧ w.Chain (a :: rest) r ∧
      (w.exchange url).requests = a :: rest := by
  obtain ⟨a, rest, hread, hc, hlen⟩ := h
  refine ⟨a, rest, hread, hc, ?_⟩
  unfold exchange
  rw [hread]
  exact hc.requests hlen

/-! ## Section 3: What comes in the way of a response -/

/-- Asking `a` comes to no final response. Nobody can be reached, or the
    connection breaks, or the answer sends the client on to something that
    cannot be asked for, or there are more redirects than may be followed. -/
inductive Breaks (w : Web) : (redirects : Nat) → Address → Prop where
  | refused {n a} : w.reply a = .refused → Breaks w n a
  | broken {n a} : w.reply a = .broken → Breaks w n a
  | astray {n a r ref} :
      w.reply a = .answered r → w.onward a r = some ref → (∀ b, ref ≠ .address b) → Breaks w n a
  | tooMany {a b} : w.Redirects a b → Breaks w 0 a
  | hop {n a b} : w.Redirects a b → Breaks w n b → Breaks w (n + 1) a

/-- The URL is unusable, or the exchange fails on the way. -/
def Unanswered (w : Web) (url : Url) : Prop :=
  (∀ a, w.reader.read url ≠ .address a) ∨
    ∃ a, w.reader.read url = .address a ∧ w.Breaks redirectLimit a

theorem Breaks.follow {w : Web} {n : Nat} {a : Address} (h : w.Breaks n a) :
    (w.follow n a).response = none := by
  induction h with
  | refused hreply => simp [Web.follow, hreply]
  | broken hreply => simp [Web.follow, hreply]
  | @astray n a r ref hreply hon haddress =>
    cases ref with
    | address b => exact absurd rfl (haddress b)
    | foreign => simp [Web.follow, hreply, hon]
    | unreadable => simp [Web.follow, hreply, hon]
  | tooMany hb =>
    obtain ⟨r, hreply, hon⟩ := hb
    simp [Web.follow, hreply, hon]
  | hop hb _ ih =>
    obtain ⟨r, hreply, hon⟩ := hb
    rw [follow_hop hreply hon]
    exact ih

theorem breaks_of_follow {w : Web} {n : Nat} {a : Address} (h : (w.follow n a).response = none) :
    w.Breaks n a := by
  by_cases hb : ∃ b, w.Redirects a b
  · obtain ⟨b, r, hreply, hon⟩ := hb
    cases n with
    | zero => exact .tooMany ⟨r, hreply, hon⟩
    | succ n =>
      rw [follow_hop hreply hon] at h
      exact .hop ⟨r, hreply, hon⟩ (breaks_of_follow h)
  · cases hreply : w.reply a with
    | refused => exact .refused hreply
    | broken => exact .broken hreply
    | answered r =>
      cases hon : w.onward a r with
      | none =>
        rw [follow_final hreply hon] at h
        cases h
      | some ref =>
        refine .astray hreply hon ?_
        rintro b rfl
        exact hb ⟨b, r, hreply, hon⟩

/-- There is a final response unless something comes in its way. -/
theorem unanswered_iff (w : Web) (url : Url) : w.Unanswered url ↔ ∀ r, ¬ w.Serves url r := by
  have hnone : (w.exchange url).response = none ↔ ∀ r, ¬ w.Serves url r := by
    rw [Option.eq_none_iff_forall_ne_some]
    exact forall_congr' fun r => not_congr (exchange_eq_some_iff w url r)
  rw [← hnone]
  unfold exchange Unanswered
  cases w.reader.read url with
  | address a =>
    constructor
    · rintro (hunusable | ⟨b, hb, hbreaks⟩)
      · exact absurd rfl (hunusable a)
      · cases hb
        exact hbreaks.follow
    · intro h
      exact .inr ⟨a, rfl, breaks_of_follow h⟩
  | foreign => exact iff_of_true (.inl nofun) rfl
  | unreadable => exact iff_of_true (.inl nofun) rfl

end TestRig.Web
