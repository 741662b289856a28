import TestRig.Proofs.Job.Verdict

/-! # A download as one edit

    Before a download is begun, two things settle all that comes of it: where
    its file would go, and the final response. They are its `Prospect`.
    What is answered (`Prospect.answer`) and which file is filled with what
    (`Prospect.filling`) are functions of the prospect, and a download does
    nothing else (`World.fetch_eq`).

    So what is to be known of several downloads comes down to two questions:
    what becomes of their prospects, and what becomes of files that are
    filled one after the other. To the second one there are two answers:

    * `Tree.fill_fill`: of one file only the last filling is left.
    * `Tree.fill_comm`: different files can be filled in either order. -/

namespace TestRig

/-! ## Section 1: Filling a file -/

namespace Tree

/-- The tree with one file filled, if any. A file that was there keeps its
    mode. -/
def fill (t : Tree) : Option (Place × Bytes) → Tree
  | none => t
  | some (p, content) => t.put p (.file content (t.modeAt p))

variable {t : Tree} {p q : Place} {content content' : Bytes}

/-- A file that is filled is no more and no less executable than it was. -/
theorem modeAt_put_file (h : t.TakesFile p) (executable : Bool) (q : Place) :
    (t.put p (.file content executable)).modeAt q = if p = q then executable else t.modeAt q := by
  unfold modeAt
  rw [nodeAt_put (h.admits _)]
  by_cases hq : p = q
  · rw [if_pos hq, if_pos hq]
  · rw [if_neg hq, if_neg hq]

/-- All that filling does to a tree is to add a file. -/
theorem gainsFiles_fill {f : Option (Place × Bytes)} (h : ∀ e ∈ f, t.TakesFile e.1) :
    t.GainsFiles (t.fill f) := by
  cases f with
  | none => exact .refl t
  | some e =>
    have htakes : t.TakesFile e.1 := h e rfl
    exact htakes.gainsFiles_put _ _

/-- Of one file only the last filling is left. -/
theorem fill_fill {f : Option (Place × Bytes)} (h : ∀ e ∈ f, t.TakesFile e.1 ∧ e.1 = p) :
    (t.fill f).fill (some (p, content)) = t.fill (some (p, content)) := by
  cases f with
  | none => rfl
  | some e =>
    obtain ⟨q, old⟩ := e
    obtain ⟨htakes, rfl⟩ := h _ rfl
    simp only [fill]
    rw [modeAt_put_file htakes, if_pos rfl]
    exact put_put (htakes.admits _) nofun (htakes.admits _)

/-- A file can still be filled after another one was. -/
theorem TakesFile.fill (hq : t.TakesFile q) (hp : t.TakesFile p) :
    (t.fill (some (p, content))).TakesFile q := by
  have hgains : t.GainsFiles (t.fill (some (p, content))) := gainsFiles_fill (by simpa using hp)
  refine ⟨hq.ne_root, hgains.grows.hasDirectory hq.inDirectory, ?_, ?_⟩
  · intro hdir
    have hkind := hgains.onlyFiles q _ (kindAt_eq_directory_iff.mpr hdir) nofun
    exact hq.notDirectory (kindAt_eq_directory_iff.mp hkind)
  · intro target hlink
    have hkind := hgains.onlyFiles q _ (kindAt_eq_link_iff.mpr hlink) nofun
    exact hq.notLink target (kindAt_eq_link_iff.mp hkind)

theorem nodeAt_fill (h : t.TakesFile p) (r : Place) :
    (t.fill (some (p, content))).nodeAt r
      = if p = r then some (.file content (t.modeAt p)) else t.nodeAt r :=
  nodeAt_put (h.admits _) r

theorem fill_some_comm (hp : t.TakesFile p) (hq : t.TakesFile q) (hne : p ≠ q) :
    (t.fill (some (p, content))).fill (some (q, content'))
      = (t.fill (some (q, content'))).fill (some (p, content)) := by
  apply ext_nodeAt
  intro r
  have hmode : (t.fill (some (p, content))).modeAt q = t.modeAt q := by
    simp only [fill]
    rw [modeAt_put_file hp, if_neg hne]
  have hmode' : (t.fill (some (q, content'))).modeAt p = t.modeAt p := by
    simp only [fill]
    rw [modeAt_put_file hq, if_neg hne.symm]
  rw [nodeAt_fill (hq.fill hp), nodeAt_fill hp, nodeAt_fill (hp.fill hq), nodeAt_fill hq, hmode,
    hmode']
  -- no place is both of them
  by_cases hpr : p = r
  · have hqr : q ≠ r := fun hqr => hne (hpr.trans hqr.symm)
    rw [if_pos hpr, if_neg hqr, if_pos hpr]
  · rw [if_neg hpr, if_neg hpr]

/-- Different files can be filled in either order. -/
theorem fill_comm {f g : Option (Place × Bytes)} (hf : ∀ e ∈ f, t.TakesFile e.1)
    (hg : ∀ e ∈ g, t.TakesFile e.1) (hne : ∀ e ∈ f, ∀ e' ∈ g, e.1 ≠ e'.1) :
    (t.fill f).fill g = (t.fill g).fill f := by
  cases f with
  | none => rfl
  | some e =>
    cases g with
    | none => rfl
    | some e' => exact fill_some_comm (hf e rfl) (hg e' rfl) (hne e rfl e' rfl)

end Tree

/-! ## Section 2: What is to be expected of a download -/

/-- What settles a download: the place for its file, or why there is none,
    and the final response, if there is one. -/
structure Prospect where
  place : Except SystemError Place
  response : Option Response

namespace Prospect

/-- What a download of `url` to `dest` answers. -/
def answer (x : Prospect) (url : Url) (dest : Path) : Except Failure Nat :=
  match x.response with
  | none => .error (.get url)
  | some r =>
    if Status.isSuccess r.status then
      match x.place with
      | .error e => .error (.create dest e)
      | .ok _ => if r.complete then .ok r.body.length else .error (.write url dest)
    else .error (.status r.status url)

/-- The file that is filled, and what is in it then. -/
def filling (x : Prospect) : Option (Place × Bytes) :=
  match x.response with
  | none => none
  | some r =>
    if Status.isSuccess r.status then
      match x.place with
      | .error _ => none
      | .ok p => some (p, r.body)
    else none

variable {x : Prospect} {p : Place} {content : Bytes}

theorem answer_of_no_response {url : Url} {dest : Path} (h : x.response = none) :
    x.answer url dest = .error (.get url) := by
  unfold answer
  rw [h]

theorem filling_of_no_response (h : x.response = none) : x.filling = none := by
  unfold filling
  rw [h]

/-- Only the place of the prospect is ever filled. -/
theorem place_of_filling (h : x.filling = some (p, content)) : x.place = .ok p := by
  unfold filling at h
  split at h
  · cases h
  · split at h
    · split at h
      · cases h
      · next q hplace =>
        cases h
        exact hplace
    · cases h

/-- A response that reports success is filled in wherever there is a place. -/
theorem filling_of_success {r : Response} (hplace : x.place = .ok p) (hr : x.response = some r)
    (hok : Status.isSuccess r.status) : x.filling = some (p, r.body) := by
  unfold filling
  rw [hplace, hr]
  exact if_pos hok

end Prospect

namespace World

/-- What is to be expected of a download. -/
def prospect (w : World) (url : Url) (dest : Path) : Prospect where
  place := w.tree.filePlace w.cwd dest
  response := (w.web.exchange url).response

/-- A download answers and fills what was to be expected. It announces its
    URL, and does nothing else. -/
theorem fetch_eq (w : World) (url : Url) (dest : Path) :
    w.fetch url dest
      = { result := (w.prospect url dest).answer url dest
          world := { w with tree := w.tree.fill (w.prospect url dest).filling }
          transcript := ⟨(w.web.exchange url).requests, Job.downloadLine url, [], []⟩ } := by
  obtain ⟨failure, t', h⟩ := w.fetch_downloads url dest
  obtain ⟨n, hfetch⟩ := fetch_eq_of_downloads h
  have hresponse : ∀ {r}, w.web.Serves url r → (w.web.exchange url).response = some r :=
    (Web.exchange_eq_some_iff _ _ _).mpr
  rw [hfetch]
  simp only [prospect, Prospect.answer, Prospect.filling]
  cases h with
  | unanswered hno =>
    have hnone : (w.web.exchange url).response = none := by
      rw [Option.eq_none_iff_forall_ne_some]
      intro r hr
      exact hno r ((Web.exchange_eq_some_iff _ _ _).mp hr)
    rw [hnone]
    rfl
  | unsuccessful hs hbad =>
    rw [hresponse hs]
    simp only [hbad]
    rfl
  | uncreated hs hok hp =>
    have hp' : w.tree.filePlace w.cwd dest = .error _ := hp
    rw [hresponse hs]
    simp only [hok, hp']
    rfl
  | cut hs hok hp hcut =>
    have hp' : w.tree.filePlace w.cwd dest = .ok _ := hp
    rw [hresponse hs]
    simp only [hok, hp', hcut]
    rfl
  | @complete r p hs hok hp hall =>
    have hp' : w.tree.filePlace w.cwd dest = .ok p := hp
    have hwhole : (Verdict.whole r p).Holds w url dest :=
      ⟨hs, Status.isSuccess_iff.mp hok, Tree.filePlace_eq_ok_iff_resolvesTo.mp hp, hall⟩
    -- the number of bytes is not told by the way the download ends
    have hn := fetch_result_of_whole hwhole
    rw [hfetch] at hn
    obtain rfl : n = r.body.length := Except.ok.inj hn
    rw [hresponse hs]
    simp only [hok, hp', hall]
    rfl

variable {w : World} {url : Url} {dest : Path}

theorem takesFile_of_filling : ∀ e ∈ (w.prospect url dest).filling, w.tree.TakesFile e.1 := by
  rintro ⟨p, content⟩ h
  exact Tree.filePlace_spec (Prospect.place_of_filling h)

/-- A download adds nothing but files. -/
theorem gainsFiles_fetch (w : World) (url : Url) (dest : Path) :
    w.tree.GainsFiles (w.fetch url dest).world.tree := by
  rw [fetch_eq]
  exact Tree.gainsFiles_fill takesFile_of_filling

end World

end TestRig
