import TestRig.Proofs.Job.Prospect
import TestRig.Proofs.Program.History
import TestRig.Proofs.Tree.Resolution
import TestRig.Web.Locator

/-! # Downloads one after the other

    What one download finds of another one that came before it is in the
    tree, and it is one file at most (`Prospect.filling`). Two cases are
    clear whatever comes of the downloads:

    * Both go to one destination. It still leads to the same place then, and
      of the file that is there nothing is left by the next download that
      succeeds. So any number of downloads to one destination fill no more
      than one file (`Tree.FillsAt`, `World.acts_fillsAt`).
    * They go to different places. The one does not change what the other
      does (`World.fetch_of_gainsFiles`), and different files can be filled
      in either order. So any number of such downloads can be made in any
      order (`World.acts_perm`). -/

namespace TestRig

open TestRig.Tree

/-! ## Section 1: To one destination -/

/-- The tree `t'` is `t` with the file filled to which `dest` leads, or with
    none. -/
def Tree.FillsAt (t t' : Tree) (cwd : Place) (dest : Path) : Prop :=
  ∃ f : Option (Place × Bytes), t' = t.fill f ∧ ∀ e ∈ f, t.filePlace cwd dest = .ok e.1

namespace Tree.FillsAt

variable {t t' t'' : Tree} {cwd : Place} {dest : Path}

theorem refl (t : Tree) : t.FillsAt t cwd dest := ⟨none, rfl, nofun⟩

/-- The destination leads where it led. -/
theorem filePlace (h : t.FillsAt t' cwd dest) : t'.filePlace cwd dest = t.filePlace cwd dest := by
  obtain ⟨f, rfl, hplace⟩ := h
  cases f with
  | none => rfl
  | some e =>
    have hp : t.filePlace cwd dest = .ok e.1 := hplace e rfl
    have hgains : t.GainsFiles (t.fill (some e)) :=
      gainsFiles_fill fun e' he' => filePlace_spec (hplace e' he')
    rw [hp, filePlace_of_gainsFiles hgains hp]

/-- Where no file can be created, none is filled. -/
theorem eq_of_no_place (h : t.FillsAt t' cwd dest) {e : SystemError}
    (he : t.filePlace cwd dest = .error e) : t' = t := by
  obtain ⟨f, rfl, hplace⟩ := h
  cases f with
  | none => rfl
  | some filled =>
    have hok := hplace filled rfl
    rw [he] at hok
    cases hok

/-- Filling the file again is filling it once. -/
theorem fill (h : t.FillsAt t' cwd dest) {p : Place} {content : Bytes}
    (hp : t.filePlace cwd dest = .ok p) :
    t'.fill (some (p, content)) = t.fill (some (p, content)) := by
  obtain ⟨f, rfl, hplace⟩ := h
  apply fill_fill
  intro e he
  have hsame : Except.ok e.1 = Except.ok p := (hplace e he).symm.trans hp
  exact ⟨filePlace_spec (hplace e he), Except.ok.inj hsame⟩

theorem trans (h : t.FillsAt t' cwd dest) (h' : t'.FillsAt t'' cwd dest) :
    t.FillsAt t'' cwd dest := by
  obtain ⟨g, rfl, hplace⟩ := h'
  cases g with
  | none => exact h
  | some e =>
    have hp : t.filePlace cwd dest = .ok e.1 := by rw [← h.filePlace, hplace e rfl]
    refine ⟨some e, h.fill hp, ?_⟩
    rintro e' ⟨⟩
    exact hp

end Tree.FillsAt

namespace World

variable {w : World} {url : Url} {dest : Path} {t : Tree}

/-- A download fills the file to which its destination leads, or none. -/
theorem fetch_fillsAt (w : World) (url : Url) (dest : Path) :
    w.tree.FillsAt (w.fetch url dest).world.tree w.cwd dest := by
  rw [fetch_eq]
  refine ⟨_, rfl, ?_⟩
  rintro ⟨p, content⟩ h
  exact Prospect.place_of_filling h

/-- So do any number of them, each of which may see another web. -/
theorem acts_fillsAt (w : World) {as : List (Web × Action)}
    (h : ∀ a ∈ as, ∃ url, a.2 = .fetch url dest) :
    w.tree.FillsAt (w.acts as).tree w.cwd dest := by
  induction as generalizing w with
  | nil => exact .refl _
  | cons a as ih =>
    obtain ⟨url, ha⟩ := h a List.mem_cons_self
    have hfirst := { w with web := a.1 }.fetch_fillsAt url dest
    have hrest := ih ({ w with web := a.1 }.act a.2) fun b hb => h b (List.mem_cons_of_mem a hb)
    rw [act_cwd, ha] at hrest
    have hacts : w.acts (a :: as) = ({ w with web := a.1 }.act (.fetch url dest)).acts as := by
      rw [← ha]
      rfl
    rw [hacts]
    exact hfirst.trans hrest

/-- A download that gets a response that reports success leaves nothing of
    what earlier ones filled in. -/
theorem fetch_of_fillsAt (h : w.tree.FillsAt t w.cwd dest) {r : Response}
    (hr : w.web.Delivers url r) : { w with tree := t }.fetch url dest = w.fetch url dest := by
  have hprospect : { w with tree := t }.prospect url dest = w.prospect url dest := by
    unfold prospect
    rw [h.filePlace]
  have hfill : t.fill (w.prospect url dest).filling = w.tree.fill (w.prospect url dest).filling := by
    cases hplace : w.tree.filePlace w.cwd dest with
    | error e => rw [h.eq_of_no_place hplace]
    | ok p =>
      have hresponse := (Web.exchange_eq_some_iff _ _ _).mpr hr.1
      rw [Prospect.filling_of_success hplace hresponse hr.2]
      exact h.fill hplace
  rw [fetch_eq, fetch_eq, hprospect, hfill]

/-- Of two downloads to one destination only the last one is left, if it
    succeeds, even if its body is cut short. -/
theorem last_fetch_wins (w : World) (web₁ web₂ : Web) (url₁ url₂ : Url) (dest : Path) {r : Response}
    (h : web₂.Delivers url₂ r) :
    let w₁ := ({ w with web := web₁ }.fetch url₁ dest).world
    { w₁ with web := web₂ }.fetch url₂ dest = { w with web := web₂ }.fetch url₂ dest := by
  have hfills : w.tree.FillsAt ({ w with web := web₁ }.fetch url₁ dest).world.tree w.cwd dest :=
    { w with web := web₁ }.fetch_fillsAt url₁ dest
  exact fetch_of_fillsAt (w := { w with web := web₂ }) hfills h

/-- A link leads to where nothing is yet, and every address answers with an
    archive. -/
def dangling : World where
  tree := Tree.bare.put [text "jar"] (.link (text "data"))
  cwd := []
  searchPath := []
  web := ⟨.plain, fun _ => .answered (.served 200 none (text "archive") none)⟩
  stdin := []
  behaviour := fun _ _ scene => ⟨.ofExit 0, scene.tree, scene.stdin, [], []⟩

/-- Of the archive nothing is left after a download of three bytes, after
    which the connection ends too early. -/
theorem dangling_last_wins :
    let r := Response.served 200 none (text "new") (some 9)
    let web : Web := ⟨.plain, fun _ => .answered r⟩
    let w₁ := (dangling.fetch (text "http://host/a") (text "jar")).world
    let o := { w₁ with web }.fetch (text "http://host/b") (text "jar")
    web.Delivers (text "http://host/b") r ∧
      w₁.tree.nodeAt [text "data"] = some (.file (text "archive") false) ∧
      o = { dangling with web }.fetch (text "http://host/b") (text "jar") ∧
      o.world.tree.nodeAt [text "data"] = some (.file (text "new") false) := by
  intro r web w₁ o
  have hserves : web.Serves (text "http://host/b") r :=
    (Web.exchange_eq_some_iff _ _ _).mp (by decide +kernel)
  have hdelivers : web.Delivers (text "http://host/b") r := ⟨hserves, by decide⟩
  have hlast := dangling.last_fetch_wins dangling.web web (text "http://host/a")
    (text "http://host/b") (text "jar") hdelivers
  exact ⟨hdelivers, by decide +kernel, hlast, by decide +kernel⟩

/-- Downloads change nothing but the tree. -/
theorem acts_of_fetches (w : World) {as : List (Web × Action)}
    (h : ∀ a ∈ as, ∃ url dest, a.2 = .fetch url dest) (web : Web) :
    { w.acts as with web } = { w with tree := (w.acts as).tree, web } := by
  induction as generalizing w with
  | nil => rfl
  | cons a as ih =>
    obtain ⟨url, dest, ha⟩ := h a List.mem_cons_self
    have hrest := ih ({ w with web := a.1 }.act a.2) fun b hb => h b (List.mem_cons_of_mem a hb)
    have hacts : w.acts (a :: as) = ({ w with web := a.1 }.act a.2).acts as := rfl
    rw [hacts, hrest, ha]
    rfl

/-- Of any number of downloads to one destination only the last one is left,
    if it succeeds. -/
theorem fetch_after_acts (w : World) {as : List (Web × Action)} {web : Web} {r : Response}
    (has : ∀ a ∈ as, ∃ url, a.2 = .fetch url dest) (h : web.Delivers url r) :
    { w.acts as with web }.fetch url dest = { w with web }.fetch url dest := by
  have hfills : w.tree.FillsAt (w.acts as).tree w.cwd dest := w.acts_fillsAt has
  have hfetches : ∀ a ∈ as, ∃ url dest, a.2 = .fetch url dest := by
    intro a ha
    obtain ⟨url', hurl⟩ := has a ha
    exact ⟨url', dest, hurl⟩
  rw [w.acts_of_fetches hfetches]
  exact fetch_of_fillsAt (w := { w with web }) hfills h

/-! ## Section 2: To different places -/

/-- In a tree that has gained files, a download to a path that leads
    somewhere does what it would have done before. -/
theorem fetch_of_gainsFiles {p : Place} (h : w.tree.ResolvesTo w.cwd dest p)
    (hgains : w.tree.GainsFiles t) :
    { w with tree := t }.fetch url dest
      = { w.fetch url dest with
          world := { w with tree := t.fill (w.prospect url dest).filling } } := by
  have hprospect : { w with tree := t }.prospect url dest = w.prospect url dest := by
    unfold prospect
    rw [h.filePlace_of_gainsFiles hgains]
  rw [fetch_eq, fetch_eq, hprospect]

/-- A download fills no file but the one at the place that its destination
    leads to. -/
theorem eq_of_filling {p : Place} (h : w.tree.ResolvesTo w.cwd dest p) :
    ∀ e ∈ (w.prospect url dest).filling, e.1 = p := by
  rintro ⟨q, content⟩ hfilling
  exact h.eq_of_filePlace (Prospect.place_of_filling hfilling)

/-- What two downloads to different places fill can be filled in either
    order. They may see two webs. -/
theorem fill_filling_comm (w : World) (web₁ web₂ : Web) (url₁ url₂ : Url) {d₁ d₂ : Path}
    {p₁ p₂ : Place} (h₁ : w.tree.ResolvesTo w.cwd d₁ p₁) (h₂ : w.tree.ResolvesTo w.cwd d₂ p₂)
    (hne : p₁ ≠ p₂) :
    let f₁ := ({ w with web := web₁ }.prospect url₁ d₁).filling
    let f₂ := ({ w with web := web₂ }.prospect url₂ d₂).filling
    (w.tree.fill f₁).fill f₂ = (w.tree.fill f₂).fill f₁ := by
  intro f₁ f₂
  have htakes₁ : ∀ e ∈ f₁, w.tree.TakesFile e.1 := takesFile_of_filling (w := { w with web := web₁ })
  have htakes₂ : ∀ e ∈ f₂, w.tree.TakesFile e.1 := takesFile_of_filling (w := { w with web := web₂ })
  apply fill_comm htakes₁ htakes₂
  intro e₁ he₁ e₂ he₂ heq
  have hp₁ : e₁.1 = p₁ := eq_of_filling (w := { w with web := web₁ }) h₁ e₁ he₁
  have hp₂ : e₂.1 = p₂ := eq_of_filling (w := { w with web := web₂ }) h₂ e₂ he₂
  exact hne (hp₁.symm.trans (heq.trans hp₂))

/-- A download after another one. -/
theorem fetch_after_fetch (w : World) (web₁ web₂ : Web) (url₁ url₂ : Url) (d₁ : Path) {d₂ : Path}
    {p₂ : Place} (h₂ : w.tree.ResolvesTo w.cwd d₂ p₂) :
    let f₁ := ({ w with web := web₁ }.prospect url₁ d₁).filling
    let f₂ := ({ w with web := web₂ }.prospect url₂ d₂).filling
    { ({ w with web := web₁ }.fetch url₁ d₁).world with web := web₂ }.fetch url₂ d₂
      = { { w with web := web₂ }.fetch url₂ d₂ with
          world := { w with tree := (w.tree.fill f₁).fill f₂, web := web₂ } } := by
  intro f₁ f₂
  have hgains : w.tree.GainsFiles (w.tree.fill f₁) :=
    gainsFiles_fill (takesFile_of_filling (w := { w with web := web₁ }))
  rw [fetch_eq { w with web := web₁ }]
  exact fetch_of_gainsFiles (w := { w with web := web₂ }) h₂ hgains

/-- Two downloads to different places can be made in either order. Each of
    them answers the same, and the same world is left. -/
theorem fetches_commute (w : World) (url₁ url₂ : Url) {d₁ d₂ : Path} {p₁ p₂ : Place}
    (h₁ : w.tree.ResolvesTo w.cwd d₁ p₁) (h₂ : w.tree.ResolvesTo w.cwd d₂ p₂) (hne : p₁ ≠ p₂) :
    let o₁ := w.fetch url₁ d₁
    let o₂ := w.fetch url₂ d₂
    (o₁.world.fetch url₂ d₂).world = (o₂.world.fetch url₁ d₁).world ∧
      o₁.result = (o₂.world.fetch url₁ d₁).result ∧
      (o₁.world.fetch url₂ d₂).result = o₂.result := by
  intro o₁ o₂
  let f₁ := (w.prospect url₁ d₁).filling
  let f₂ := (w.prospect url₂ d₂).filling
  have hfirst := w.fetch_after_fetch w.web w.web url₂ url₁ d₂ h₁
  have hsecond := w.fetch_after_fetch w.web w.web url₁ url₂ d₁ h₂
  have hcomm : (w.tree.fill f₁).fill f₂ = (w.tree.fill f₂).fill f₁ :=
    w.fill_filling_comm w.web w.web url₁ url₂ h₁ h₂ hne
  have hworld : (o₁.world.fetch url₂ d₂).world = (o₂.world.fetch url₁ d₁).world :=
    calc (o₁.world.fetch url₂ d₂).world
        = { w with tree := (w.tree.fill f₁).fill f₂ } := congrArg Outcome.world hsecond
      _ = { w with tree := (w.tree.fill f₂).fill f₁ } := by rw [hcomm]
      _ = (o₂.world.fetch url₁ d₁).world := (congrArg Outcome.world hfirst).symm
  have hresult₁ := congrArg Outcome.result hfirst
  have hresult₂ := congrArg Outcome.result hsecond
  exact ⟨hworld, hresult₁.symm, hresult₂⟩

/-- The link leads to another place than the name of the link. -/
theorem dangling_commutes :
    let w₁ := (dangling.fetch (text "http://host/a") (text "jar")).world
    let w₂ := (dangling.fetch (text "http://host/b") (text "data.jar")).world
    dangling.tree.ResolvesTo [] (text "jar") [text "data"] ∧
      dangling.tree.ResolvesTo [] (text "data.jar") [text "data.jar"] ∧
      (w₁.fetch (text "http://host/b") (text "data.jar")).world
        = (w₂.fetch (text "http://host/a") (text "jar")).world := by
  intro w₁ w₂
  have hdata : dangling.tree.ResolvesTo [] (text "jar") [text "data"] := resolvesTo_of_filePlace rfl
  have hjar : dangling.tree.ResolvesTo [] (text "data.jar") [text "data.jar"] :=
    resolvesTo_of_filePlace rfl
  have hne : [text "data"] ≠ [text "data.jar"] := by decide
  exact ⟨hdata, hjar, (dangling.fetches_commute _ _ hdata hjar hne).1⟩

end World

/-! ## Section 3: In any order -/

/-- The action is a download, and its destination leads to the place. -/
def Action.GoesTo (w : World) (a : Action) (p : Place) : Prop :=
  ∃ url dest, a = .fetch url dest ∧ w.tree.ResolvesTo w.cwd dest p

/-- The two actions are downloads to different places. -/
def World.Apart (w : World) (a b : Web × Action) : Prop :=
  ∃ p q, a.2.GoesTo w p ∧ b.2.GoesTo w q ∧ p ≠ q

namespace World

variable {w : World} {a b c : Web × Action} {p q : Place}

theorem Apart.symm (h : w.Apart a b) : w.Apart b a := by
  obtain ⟨p, q, hp, hq, hne⟩ := h
  exact ⟨q, p, hq, hp, hne.symm⟩

/-- A download does not change where another one goes. -/
theorem goesTo_act (h : a.2.GoesTo w p) (hc : c.2.GoesTo w q) :
    a.2.GoesTo ({ w with web := c.1 }.act c.2) p := by
  obtain ⟨url, dest, ha, hp⟩ := h
  obtain ⟨url', dest', hact, -⟩ := hc
  refine ⟨url, dest, ha, ?_⟩
  rw [act_cwd, hact]
  exact hp.of_gainsFiles ({ w with web := c.1 }.gainsFiles_fetch url' dest')

theorem Apart.act (h : w.Apart a b) (hc : c.2.GoesTo w q) :
    ({ w with web := c.1 }.act c.2).Apart a b := by
  obtain ⟨p, p', hp, hp', hne⟩ := h
  exact ⟨p, p', goesTo_act hp hc, goesTo_act hp' hc, hne⟩

/-- Two downloads to different places leave the same, but for the web that
    was seen last. -/
theorem Apart.acts_comm (h : w.Apart a b) (web : Web) :
    { w.acts [a, b] with web } = { w.acts [b, a] with web } := by
  obtain ⟨web₁, a⟩ := a
  obtain ⟨web₂, b⟩ := b
  obtain ⟨p, q, ⟨url₁, d₁, rfl, hp⟩, ⟨url₂, d₂, rfl, hq⟩, hne⟩ := h
  have hsecond := w.fetch_after_fetch web₁ web₂ url₁ url₂ d₁ hq
  have hfirst := w.fetch_after_fetch web₂ web₁ url₂ url₁ d₂ hp
  have hcomm := w.fill_filling_comm web₁ web₂ url₁ url₂ hp hq hne
  calc { w.acts [(web₁, .fetch url₁ d₁), (web₂, .fetch url₂ d₂)] with web }
      = { ({ ({ w with web := web₁ }.fetch url₁ d₁).world with web := web₂ }.fetch url₂ d₂).world
          with web } := rfl
    _ = { ({ ({ w with web := web₂ }.fetch url₂ d₂).world with web := web₁ }.fetch url₁ d₁).world
          with web } := by rw [hsecond, hfirst, hcomm]

/-- The actions after it see webs of their own. -/
theorem acts_tree_congr {x y : World} (h : ∀ web : Web, { x with web } = { y with web })
    (as : List (Web × Action)) : (x.acts as).tree = (y.acts as).tree := by
  cases as with
  | nil =>
    have htree := congrArg World.tree (h x.web)
    exact htree
  | cons a as =>
    calc (x.acts (a :: as)).tree = (({ x with web := a.1 }.act a.2).acts as).tree := rfl
      _ = (({ y with web := a.1 }.act a.2).acts as).tree := by rw [h]
      _ = (y.acts (a :: as)).tree := rfl

/-- Downloads to different places leave the same tree in whatever order they
    are made. The induction is on the way from one order to the other; after
    a download the others still go where they went. -/
theorem acts_perm {as as' : List (Web × Action)} (hperm : as.Perm as') (w : World)
    (hgo : ∀ a ∈ as, ∃ p, a.2.GoesTo w p) (hapart : as.Pairwise w.Apart) :
    (w.acts as).tree = (w.acts as').tree := by
  induction hperm generalizing w with
  | nil => rfl
  | @cons a as as' _ ih =>
    obtain ⟨q, hq⟩ := hgo a List.mem_cons_self
    show (({ w with web := a.1 }.act a.2).acts as).tree = (({ w with web := a.1 }.act a.2).acts as').tree
    apply ih
    · intro b hb
      obtain ⟨p, hp⟩ := hgo b (List.mem_cons_of_mem a hb)
      exact ⟨p, goesTo_act hp hq⟩
    · exact hapart.tail.imp fun h => h.act hq
  | swap a b as =>
    have hab : w.Apart b a := List.rel_of_pairwise_cons hapart List.mem_cons_self
    exact acts_tree_congr hab.acts_comm as
  | @trans as middle as' hleft _ ihLeft ihRight =>
    have hgo' : ∀ a ∈ middle, ∃ p, a.2.GoesTo w p := fun a ha => hgo a (hleft.mem_iff.mpr ha)
    have hapart' := (hleft.pairwise_iff fun h => h.symm).mp hapart
    exact (ihLeft w hgo hapart).trans (ihRight w hgo' hapart')

end World

end TestRig
