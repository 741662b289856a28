import TestRig.Proofs.Job.Parts
import TestRig.Proofs.Tree.Obstacle

/-! # What a download comes to

    A download comes to one of five things, and which one it is can be told
    before it is begun: from what the web has for the URL, from where the
    destination leads and from what is in the way there (`Tree.Blocked`).
    `Verdict.Holds` says when each of them is the case, and `Verdict.Tells`
    what is then answered and what is left in the tree.

    * `holds_iff`: the conditions exclude each other and leave nothing out,
      since exactly the one that is worked out (`World.verdict`) holds.
    * `tells_of_holds`: the answer and the tree.
    * `ComesToOne`: both, with what is asked for. -/

namespace TestRig

/-! ## Section 1: The five cases -/

/-- What a download comes to, with the final response and the place of the
    file as far as there are any. -/
inductive Verdict where
  | unanswered
  | unsuccessful (r : Response)
  | uncreated (r : Response)
  | cut (r : Response) (p : Place)
  | whole (r : Response) (p : Place)

namespace Verdict

/-- The case is the one of a download of `url` to `dest`. -/
def Holds (w : World) (url : Url) (dest : Path) : Verdict → Prop
  | unanswered => w.web.Unanswered url
  | unsuccessful r => w.web.Serves url r ∧ ¬ (200 ≤ r.status ∧ r.status ≤ 299)
  | uncreated r =>
    w.web.Serves url r ∧ (200 ≤ r.status ∧ r.status ≤ 299) ∧ w.tree.Blocked w.cwd dest
  | cut r p =>
    w.web.Serves url r ∧ (200 ≤ r.status ∧ r.status ≤ 299) ∧
      (w.tree.ResolvesTo w.cwd dest p ∧ ¬ w.tree.Blocked w.cwd dest) ∧ r.complete = false
  | whole r p =>
    w.web.Serves url r ∧ (200 ≤ r.status ∧ r.status ≤ 299) ∧
      (w.tree.ResolvesTo w.cwd dest p ∧ ¬ w.tree.Blocked w.cwd dest) ∧ r.complete = true

end Verdict

/-- The outcome is a failure of which this is said. -/
def Outcome.Fails {α : Type} (o : Outcome α) (message : Bytes) : Prop :=
  ∃ f, o.result = .error f ∧ f.message = message

/-- The world `w'` is `w` with `content` in the file that `dest` leads to,
    which is at `p`. -/
structure World.FillsFile (w w' : World) (dest : Path) (p : Place) (content : Bytes) : Prop where
  /-- It is found there by looking, through links, and it may be run if it
      could be run before. -/
  found : w'.tree.look w.cwd dest = .ok (p, .file content (w.tree.modeAt p))
  /-- If there was a file at the destination, it is this one. -/
  same : ∀ q old executable, w.tree.look w.cwd dest = .ok (q, .file old executable) → q = p
  /-- Every other entry is as it was. -/
  others : ∀ q, q ≠ p → w'.tree.nodeAt q = w.tree.nodeAt q
  /-- Nothing but the tree has changed. -/
  rest : w' = { w with tree := w'.tree }

namespace Verdict

/-- What is answered in the case, and what becomes of the world. -/
def Tells (w : World) (url : Url) (dest : Path) (o : Outcome Nat) : Verdict → Prop
  | unanswered => o.Fails (text "Failed to GET " ++ url) ∧ o.world = w
  | unsuccessful r =>
    o.Fails (text "HTTP " ++ (decimal r.status ++ text " " ++ text (Status.reason r.status)) ++
      text ": " ++ url) ∧ o.world = w
  | uncreated _ => o.Fails (text "Failed to create " ++ lossy dest) ∧ o.world = w
  | cut r p =>
    o.Fails (text "Failed to write " ++ url ++ text " to " ++ lossy dest) ∧
      w.FillsFile o.world dest p r.body
  | whole r p => o.result = .ok r.body.length ∧ w.FillsFile o.world dest p r.body

end Verdict

/-! ## Section 2: One of them holds -/

theorem Status.isSuccess_iff {status : Nat} : isSuccess status ↔ 200 ≤ status ∧ status ≤ 299 := by
  simp [isSuccess]

/-- The case of a download, worked out from the web and the tree. -/
def World.verdict (w : World) (url : Url) (dest : Path) : Verdict :=
  match (w.web.exchange url).response with
  | none => .unanswered
  | some r =>
    if Status.isSuccess r.status then
      match w.tree.filePlace w.cwd dest with
      | .error _ => .uncreated r
      | .ok p => if r.complete then .whole r p else .cut r p
    else .unsuccessful r

section holds

variable {w : World} {url : Url} {dest : Path} {v : Verdict} {r : Response} {p : Place}

theorem World.verdict_of_serves (hs : w.web.Serves url r) :
    w.verdict url dest =
      if Status.isSuccess r.status then
        match w.tree.filePlace w.cwd dest with
        | .error _ => .uncreated r
        | .ok p => if r.complete then .whole r p else .cut r p
      else .unsuccessful r := by
  rw [verdict, (Web.exchange_eq_some_iff _ _ _).mpr hs]

theorem Verdict.eq_verdict_of_holds (h : v.Holds w url dest) : v = w.verdict url dest := by
  cases v with
  | unanswered =>
    have hno := (Web.unanswered_iff _ _).mp h
    cases hr : (w.web.exchange url).response with
    | none => rw [World.verdict, hr]
    | some r => exact absurd ((Web.exchange_eq_some_iff _ _ _).mp hr) (hno r)
  | unsuccessful r =>
    obtain ⟨hs, hbad⟩ := h
    rw [World.verdict_of_serves hs, if_neg (by rwa [Status.isSuccess_iff])]
  | uncreated r =>
    obtain ⟨hs, hok, hblocked⟩ := h
    obtain ⟨e, hp⟩ := Tree.refused_iff_blocked.mpr hblocked
    rw [World.verdict_of_serves hs, if_pos (Status.isSuccess_iff.mpr hok), hp]
  | cut r p =>
    obtain ⟨hs, hok, hto, hcut⟩ := h
    have hp := Tree.filePlace_eq_ok_iff_resolvesTo.mpr hto
    simp [World.verdict_of_serves hs, Status.isSuccess_iff.mpr hok, hp, hcut]
  | whole r p =>
    obtain ⟨hs, hok, hto, hall⟩ := h
    have hp := Tree.filePlace_eq_ok_iff_resolvesTo.mpr hto
    simp [World.verdict_of_serves hs, Status.isSuccess_iff.mpr hok, hp, hall]

theorem World.holds_verdict (w : World) (url : Url) (dest : Path) :
    (w.verdict url dest).Holds w url dest := by
  cases hr : (w.web.exchange url).response with
  | none =>
    rw [verdict, hr]
    refine (Web.unanswered_iff _ _).mpr fun r hs => ?_
    rw [← Web.exchange_eq_some_iff, hr] at hs
    cases hs
  | some r =>
    have hs : w.web.Serves url r := (Web.exchange_eq_some_iff _ _ _).mp hr
    rw [verdict_of_serves hs]
    by_cases hok : Status.isSuccess r.status
    · rw [if_pos hok]
      cases hp : w.tree.filePlace w.cwd dest with
      | error e =>
        exact ⟨hs, Status.isSuccess_iff.mp hok, Tree.refused_iff_blocked.mp ⟨e, hp⟩⟩
      | ok p =>
        have hto := Tree.filePlace_eq_ok_iff_resolvesTo.mp hp
        by_cases hall : r.complete
        · simp only [hall, if_true]
          exact ⟨hs, Status.isSuccess_iff.mp hok, hto, hall⟩
        · simp only [hall]
          exact ⟨hs, Status.isSuccess_iff.mp hok, hto, by simpa using hall⟩
    · rw [if_neg hok]
      exact ⟨hs, by rwa [Status.isSuccess_iff] at hok⟩

/-- The case that holds is the one that is worked out, and no other. -/
theorem Verdict.holds_iff : v.Holds w url dest ↔ v = w.verdict url dest := by
  constructor
  · exact eq_verdict_of_holds
  · rintro rfl
    exact w.holds_verdict url dest

/-! ## Section 3: What comes of it -/

/-- A body that arrives in full is counted. -/
theorem Job.written_finish_download {site : Site} {t : Tree} (hs : site.web.Serves url r)
    (hok : Status.isSuccess r.status) (hp : t.filePlace site.cwd dest = .ok p)
    (hall : r.complete) : (finish site (download url dest) t).1.written = r.body.length := by
  have hresponse := (Web.exchange_eq_some_iff _ _ _).mpr hs
  have hcreate := Tree.createFile_eq_ok_iff.mpr ⟨hp, rfl⟩
  rw [finish_cons site t (rfl : (download url dest).pending = .request url :: _)]
  simp only [perform, request, hresponse, hok, if_true]
  rw [finish_cons site t rfl]
  simp only [perform, hcreate]
  rw [finish_cons site _ rfl]
  simp only [perform, hall, if_true]
  rw [finish_done site _ rfl]

/-- A file that is put where `dest` leads is what is found there. -/
theorem World.fillsFile_put (hp : w.tree.filePlace w.cwd dest = .ok p) (content : Bytes) :
    w.FillsFile { w with tree := w.tree.put p (.file content (w.tree.modeAt p)) } dest p
      content := by
  have htakes := Tree.filePlace_spec hp
  have hfound := Tree.look_put_of_filePlace hp content (w.tree.modeAt p)
  refine ⟨hfound, ?_, ?_, rfl⟩
  · -- what was found before is found in the same place
    intro q old executable hlook
    obtain ⟨n, -, hlook'⟩ := Tree.look_of_grows (htakes.gainsFiles_put content _).grows hlook
    rw [hfound] at hlook'
    cases hlook'
    rfl
  · intro q hq
    exact Tree.nodeAt_put_of_ne (htakes.admits _) (Ne.symm hq)

theorem World.fetch_result_of_whole (h : (Verdict.whole r p).Holds w url dest) :
    (w.fetch url dest).result = .ok r.body.length := by
  obtain ⟨hs, hok, hto, hall⟩ := h
  have hp := Tree.filePlace_eq_ok_iff_resolvesTo.mpr hto
  have hsuccess := Status.isSuccess_iff.mpr hok
  obtain ⟨n, hfetch⟩ := fetch_eq_of_downloads (.complete hs hsuccess hp hall)
  have hfailure : (Job.finish w.site (.download url dest) w.tree).1.failure = none := by
    cases hf : (Job.finish w.site (.download url dest) w.tree).1.failure with
    | none => rfl
    | some f =>
      have hresult := congrArg Outcome.result hfetch
      simp [fetch, doJob, hf] at hresult
  simp only [fetch, doJob, hfailure]
  rw [Job.written_finish_download hs hsuccess hp hall]

/-- The outcome of a download is what the case tells. -/
theorem Verdict.tells_of_holds (h : v.Holds w url dest) :
    v.Tells w url dest (w.fetch url dest) := by
  cases v with
  | unanswered =>
    obtain ⟨n, hfetch⟩ := World.fetch_eq_of_downloads (.unanswered ((Web.unanswered_iff _ _).mp h))
    rw [hfetch]
    exact ⟨⟨_, rfl, rfl⟩, rfl⟩
  | unsuccessful r =>
    obtain ⟨hs, hbad⟩ := h
    have hbad' : Status.isSuccess r.status = false := by
      rwa [← Status.isSuccess_iff, Bool.not_eq_true] at hbad
    obtain ⟨n, hfetch⟩ := World.fetch_eq_of_downloads (.unsuccessful hs hbad')
    rw [hfetch]
    exact ⟨⟨_, rfl, rfl⟩, rfl⟩
  | uncreated r =>
    obtain ⟨hs, hok, hblocked⟩ := h
    obtain ⟨e, hp⟩ := Tree.refused_iff_blocked.mpr hblocked
    obtain ⟨n, hfetch⟩ :=
      World.fetch_eq_of_downloads (.uncreated hs (Status.isSuccess_iff.mpr hok) hp)
    rw [hfetch]
    exact ⟨⟨_, rfl, rfl⟩, rfl⟩
  | cut r p =>
    obtain ⟨hs, hok, hto, hcut⟩ := h
    have hp := Tree.filePlace_eq_ok_iff_resolvesTo.mpr hto
    obtain ⟨n, hfetch⟩ :=
      World.fetch_eq_of_downloads (.cut hs (Status.isSuccess_iff.mpr hok) hp hcut)
    rw [hfetch]
    exact ⟨⟨_, rfl, rfl⟩, World.fillsFile_put hp _⟩
  | whole r p =>
    refine ⟨World.fetch_result_of_whole h, ?_⟩
    obtain ⟨hs, hok, hto, hall⟩ := h
    have hp := Tree.filePlace_eq_ok_iff_resolvesTo.mpr hto
    obtain ⟨n, hfetch⟩ :=
      World.fetch_eq_of_downloads (.complete hs (Status.isSuccess_iff.mpr hok) hp hall)
    rw [hfetch]
    exact World.fillsFile_put hp _

end holds

/-! ## Section 4: All that a download does -/

/-- The download of `url` to `dest` comes to one thing, and does it. -/
structure ComesToOne (w : World) (url : Url) (dest : Path) : Prop where
  /-- Exactly one of the cases holds. -/
  one : ∃ v : Verdict, v.Holds w url dest ∧ ∀ v' : Verdict, v'.Holds w url dest → v' = v
  /-- It tells what is answered, and what is left in the tree. -/
  told : ∀ v : Verdict, v.Holds w url dest → v.Tells w url dest (w.fetch url dest)
  /-- Whatever becomes of the final response, it was asked for. -/
  asked : ∀ r, w.web.Serves url r →
    ∃ a rest, w.web.reader.read url = .address a ∧ w.web.Chain (a :: rest) r ∧
      (w.fetch url dest).transcript
        = ⟨a :: rest, text "📥 Downloading " ++ url ++ text "\n", [], []⟩

/-- So it is with every download. -/
theorem World.fetch_comes_to_one (w : World) (url : Url) (dest : Path) :
    ComesToOne w url dest where
  one := ⟨w.verdict url dest, w.holds_verdict url dest, fun _ h => Verdict.holds_iff.mp h⟩
  told := fun _ h => Verdict.tells_of_holds h
  asked := by
    intro r hs
    obtain ⟨a, rest, hread, hchain, hrequests⟩ := hs.requests
    obtain ⟨failure, t', h⟩ := w.fetch_downloads url dest
    obtain ⟨n, hfetch⟩ := fetch_eq_of_downloads h
    refine ⟨a, rest, hread, hchain, ?_⟩
    rw [hfetch, hrequests, Job.downloadLine_eq]

end TestRig
