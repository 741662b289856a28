import TestRig.Proofs.Tree.Account

/-! # The place that a path leads to

    A path leads to a place: through links to a name in a directory, whether
    or not anything is there under that name, or to a directory itself.
    `Tree.ResolvesTo` says so without asking what the path is wanted for. The
    limits of the system, and a separator at the end of the path, are left
    out of it.

    The place decides all that becomes of a file that is to be created at
    the path, so it stays the same in a tree that has gained other files
    (`ResolvesTo.filePlace_of_gainsFiles`): the file goes where it went, or
    it is refused for the same reason. Nothing of the kind can be said of
    every path. A file that comes to stand where a directory was missing
    changes the reason why paths through it are refused.

    Wherever a file can be created, the path leads to the place where it goes
    (`resolvesTo_of_filePlace`, `ResolvesTo.eq_of_filePlace`). -/

namespace TestRig.Tree

/-! ## Section 1: Following a path to its end -/

/-- Followed through at most `links` links, names lead from `here` to the
    place `p`, which is no link itself. One constructor for each kind of last
    name. -/
inductive Resolves (t : Tree) : (links : Nat) → Place → List Name → (p : Place) → Prop where
  | itself {n here} : Resolves t n here [] here
  | dot {n left here dir names} :
      t.Follows n here names left dir → Resolves t n here (names ++ [TestRig.dot]) dir
  | dotDot {n left here dir names} :
      t.Follows n here names left dir →
      Resolves t n here (names ++ [TestRig.dotDot]) dir.dropLast
  | entry {n left here dir names name} :
      t.Follows n here names left dir → IsEntryName name → t.hasDirectory dir →
      (∀ target, t.nodeAt (dir ++ [name]) ≠ some (.link target)) →
      Resolves t n here (names ++ [name]) (dir ++ [name])
  | link {n left here dir names name target p} :
      t.Follows n here names (left + 1) dir → IsEntryName name →
      t.nodeAt (dir ++ [name]) = some (.link target) →
      Resolves t left (start dir target) target.names p →
      Resolves t n here (names ++ [name]) p

/-- Read in the directory `cwd` and followed through links, the path leads to
    the place `p`. There may be nothing there yet. -/
def ResolvesTo (t : Tree) (cwd : Place) (path : Path) (p : Place) : Prop :=
  ∃ links, t.Resolves links (start cwd path) path.names p

variable {t t' : Tree} {cwd p q : Place} {path : Path}

/-- With more links to follow, names lead where they led. -/
theorem Resolves.more {links : Nat} {here : Place} {names : List Name}
    (h : t.Resolves links here names p) (k : Nat) : t.Resolves (links + k) here names p := by
  induction h with
  | itself => exact .itself
  | dot hf => exact .dot (hf.more k)
  | dotDot hf => exact .dotDot (hf.more k)
  | entry hf hname hdir hlink => exact .entry (hf.more k) hname hdir hlink
  | link hf hname hlink _ ih =>
    have hmore := hf.more k
    rw [Nat.add_right_comm] at hmore
    exact .link hmore hname hlink ih

/-! ## Section 2: What creates a file there -/

/-- A walk that is to create a file ends at `p`, or it is refused for a
    reason that stays when files come along. -/
def EndsAt (t : Tree) (links : Nat) (slashed : Bool) (here : Place) (names : List Name)
    (p : Place) : Prop :=
  (∃ e, ∀ t', t.GainsFiles t' → t'.walk .createFile links slashed here names = .error e) ∨
    ∃ spot, t.walk .createFile links slashed here names = .ok spot ∧ spot.place = p

section walk

variable {links links' left : Nat} {slashed slashed' : Bool} {here here' dir : Place}
  {names names' : List Name} {name : Name}

/-- What the walk goes on with decides. -/
theorem EndsAt.of_step (h : t.EndsAt links' slashed' here' names' p)
    (hstep : ∀ t', t.GainsFiles t' →
      t'.walk .createFile links slashed here names
        = t'.walk .createFile links' slashed' here' names') :
    t.EndsAt links slashed here names p := by
  rcases h with ⟨e, hrefused⟩ | ⟨spot, hwalk, hp⟩
  · left
    refine ⟨e, ?_⟩
    intro t' hgains
    rw [hstep t' hgains, hrefused t' hgains]
  · right
    refine ⟨spot, ?_, hp⟩
    rw [hstep t (.refl t), hwalk]

/-- Without links left, a link is the end of a walk. -/
theorem walk_of_redirected {dir : Place} {target : Path} {rest : List Name}
    (h : t.leg .createFile slashed here names = .redirected dir target rest) :
    t.walk .createFile 0 slashed here names = .error .tooManyLinks := by
  rw [walk, h]

/-- The names before the last one lead the walk there, whatever the number of
    links that it may follow, unless there are too many. -/
theorem Follows.endsAt (hf : t.Follows links here names left dir)
    (h : ∀ n, t.EndsAt n slashed dir [name] p) (n : Nat) :
    t.EndsAt n slashed here (names ++ [name]) p := by
  induction hf generalizing n with
  | done => exact h n
  | dot _ ih =>
    apply (ih h n).of_step
    intro t' _
    rw [List.cons_append, walk_dot]
  | dotDot _ ih =>
    apply (ih h n).of_step
    intro t' _
    rw [List.cons_append, walk_dotDot]
  | down hname hlen hdir _ ih =>
    apply (ih h n).of_step
    intro t' hgains
    have hchild := child_eq_of_nodeAt hlen (hgains.grows.hasDirectory hdir)
    rw [List.cons_append, walk_down hname (by simp) hchild]
  | @link _ here first rest target _ _ hname hlen hlink _ ih =>
    have hchild : ∀ t', t.GainsFiles t' → t'.child here first = .ok (some (.link target)) :=
      fun t' hgains => child_eq_of_nodeAt hlen (hgains.grows.link hlink)
    cases n with
    | zero =>
      left
      refine ⟨.tooManyLinks, ?_⟩
      intro t' hgains
      have hleg : t'.leg .createFile slashed here (first :: (rest ++ [name]))
          = .redirected here target (rest ++ [name]) := by
        rw [leg_cons hname (by simp), hchild t' hgains]
      rw [List.cons_append, walk_of_redirected hleg]
    | succ n =>
      apply (ih h n).of_step
      intro t' hgains
      rw [List.cons_append, walk_link hname (by simp) (hchild t' hgains), List.append_assoc]

/-- No file is created under a name with a separator after it, or under one
    that is too long, whatever is there. -/
theorem endsAt_of_unusable (hname : IsEntryName name) (hdir : t.hasDirectory dir)
    (h : slashed = true ∨ nameLimit < name.length) : t.EndsAt links slashed dir [name] p := by
  left
  cases slashed with
  | true =>
    refine ⟨.isDirectory, ?_⟩
    intro t' _
    have hleg : t'.lastLeg .createFile true dir name = .failed .isDirectory := rfl
    rw [walk, leg_last hname, hleg]
  | false =>
    have hlong : nameLimit < name.length := by simpa using h
    refine ⟨.nameTooLong, ?_⟩
    intro t' hgains
    have hdir' : t'.hasDirectory dir := hgains.grows.hasDirectory hdir
    have hchild : t'.child dir name = .error .nameTooLong := by
      unfold child
      rw [if_neg (not_not_intro hdir'), if_pos hlong]
    exact walk_last_error hname hchild

/-- A walk ends where its names lead. -/
theorem Resolves.endsAt (h : t.Resolves links here names p) (n : Nat) (slashed : Bool) :
    t.EndsAt n slashed here names p := by
  induction h generalizing n slashed with
  | itself => exact .inr ⟨_, walk_nil, rfl⟩
  | dot hf =>
    apply hf.endsAt
    intro n
    exact .inr ⟨_, by rw [walk_dot, walk_nil], rfl⟩
  | dotDot hf =>
    apply hf.endsAt
    intro n
    exact .inr ⟨_, by rw [walk_dotDot, walk_nil], rfl⟩
  | @entry _ _ _ dir _ name hf hname hdir hlink =>
    apply hf.endsAt
    intro n
    by_cases hunusable : slashed = true ∨ nameLimit < name.length
    · exact endsAt_of_unusable hname hdir hunusable
    · obtain ⟨hplain, hlen⟩ := not_or.mp hunusable
      have hchild := child_eq_ok_iff.mpr ⟨hdir, Nat.le_of_not_lt hlen, rfl⟩
      have hsettles : Settles .createFile slashed (t.nodeAt (dir ++ [name])) :=
        ⟨Bool.eq_false_iff.mpr hplain, hlink⟩
      exact .inr ⟨_, walk_last hname hchild hsettles, rfl⟩
  | @link _ _ _ dir _ name target _ hf hname hlink _ ih =>
    have hdir : t.hasDirectory dir := hasDirectory_of_isSome (by rw [hlink]; rfl)
    apply hf.endsAt
    intro n
    by_cases hunusable : slashed = true ∨ nameLimit < name.length
    · exact endsAt_of_unusable hname hdir hunusable
    · obtain ⟨hplain, hlen⟩ := not_or.mp hunusable
      have hredirects : Redirects .createFile slashed := Bool.eq_false_iff.mpr hplain
      have hchild : ∀ t', t.GainsFiles t' → t'.child dir name = .ok (some (.link target)) :=
        fun t' hgains => child_eq_of_nodeAt (Nat.le_of_not_lt hlen) (hgains.grows.link hlink)
      cases n with
      | zero =>
        left
        refine ⟨.tooManyLinks, ?_⟩
        intro t' hgains
        have hleg := lastLeg_eq_redirected_iff.mpr ⟨hchild t' hgains, hredirects, rfl, rfl⟩
        exact walk_of_redirected (by rw [leg_last hname, hleg])
      | succ n =>
        -- the walk goes on with the target, in all these trees
        apply (ih n (slashed || target.endsInSlash)).of_step
        intro t' hgains
        exact walk_lastLink hname (hchild t' hgains) hredirects

end walk

theorem ResolvesTo.locate (h : t.ResolvesTo cwd path p) :
    (∃ e, ∀ t', t.GainsFiles t' → t'.locate .createFile cwd path = .error e) ∨
      ∃ spot, t.locate .createFile cwd path = .ok spot ∧ spot.place = p := by
  obtain ⟨links, hresolves⟩ := h
  unfold Tree.locate
  by_cases hnul : nul ∈ path
  · left
    refine ⟨.nulInPath, ?_⟩
    intro t' _
    rw [if_pos hnul]
  by_cases hempty : path = []
  · left
    refine ⟨.os .noEntry, ?_⟩
    intro t' _
    rw [if_neg hnul, if_pos hempty]
  by_cases hlong : pathLimit < path.length
  · left
    refine ⟨.os .nameTooLong, ?_⟩
    intro t' _
    rw [if_neg hnul, if_neg hempty, if_pos hlong]
  simp only [if_neg hnul, if_neg hempty, if_neg hlong]
  rcases hresolves.endsAt linkLimit path.endsInSlash with ⟨e, hrefused⟩ | ⟨spot, hwalk, hp⟩
  · left
    refine ⟨.os e, ?_⟩
    intro t' hgains
    rw [hrefused t' hgains]
    rfl
  · right
    refine ⟨spot, ?_, hp⟩
    rw [hwalk]
    rfl

/-- A file that can be created goes to the place. -/
theorem ResolvesTo.eq_of_filePlace (h : t.ResolvesTo cwd path p)
    (hq : t.filePlace cwd path = .ok q) : q = p := by
  obtain ⟨dir, name, found, hspot, -, rfl⟩ := filePlace_eq_ok_iff.mp hq
  rcases h.locate with ⟨e, hrefused⟩ | ⟨spot, hlocate, rfl⟩
  · rw [hrefused t (.refl t)] at hspot
    cases hspot
  · rw [hlocate] at hspot
    cases hspot
    rfl

/-- Files that come along make no difference where a walk ends. A directory
    that is in the way stays there. -/
theorem filePlace_of_locate (hgains : t.GainsFiles t') {spot : Spot}
    (h : t.locate .createFile cwd path = .ok spot) : t'.filePlace cwd path = t.filePlace cwd path := by
  have h' := locate_of_gainsFiles hgains h
  cases spot with
  | itself dir =>
    unfold filePlace
    rw [h, h']
    rfl
  | entry dir name found =>
    by_cases hfound : found = some .directory
    · subst hfound
      obtain ⟨-, -, -, ha⟩ := locate_eq_ok_iff.mp h
      have hdir : t.hasDirectory (dir ++ [name]) := (ha.entry rfl).2.1
      have hdir' : t'.nodeAt (dir ++ [name]) = some .directory := hgains.grows.hasDirectory hdir
      rw [Spot.seenIn, hdir'] at h'
      unfold filePlace
      rw [h, h']
    · have hplace : t.filePlace cwd path = .ok (dir ++ [name]) :=
        filePlace_eq_ok_iff.mpr ⟨dir, name, found, h, hfound, rfl⟩
      rw [hplace, filePlace_of_gainsFiles hgains hplace]

/-- Files that come along make no difference to a file that is to be created
    at a path that leads somewhere. -/
theorem ResolvesTo.filePlace_of_gainsFiles (h : t.ResolvesTo cwd path p)
    (hgains : t.GainsFiles t') : t'.filePlace cwd path = t.filePlace cwd path := by
  rcases h.locate with ⟨e, hrefused⟩ | ⟨spot, hlocate, -⟩
  · unfold filePlace
    rw [hrefused t' hgains, hrefused t (.refl t)]
  · exact filePlace_of_locate hgains hlocate

/-! ## Section 3: Where the same path leads later -/

theorem Resolves.of_gainsFiles (hgains : t.GainsFiles t') {links : Nat} {here : Place}
    {names : List Name} (h : t.Resolves links here names p) : t'.Resolves links here names p := by
  induction h with
  | itself => exact .itself
  | dot hf => exact .dot (hf.mono hgains.grows)
  | dotDot hf => exact .dotDot (hf.mono hgains.grows)
  | entry hf hname hdir hlink =>
    refine .entry (hf.mono hgains.grows) hname (hgains.grows.hasDirectory hdir) ?_
    intro target hnode
    exact hlink target (hgains.link hnode)
  | link hf hname hlink _ ih => exact .link (hf.mono hgains.grows) hname (hgains.grows.link hlink) ih

/-- A path leads to the same place after files have come along. -/
theorem ResolvesTo.of_gainsFiles (h : t.ResolvesTo cwd path p) (hgains : t.GainsFiles t') :
    t'.ResolvesTo cwd path p := by
  obtain ⟨links, hresolves⟩ := h
  exact ⟨links, hresolves.of_gainsFiles hgains⟩

/-! ## Section 4: Wherever a file can be created -/

/-- The names of a walk that is to create a file lead where it ends. The
    induction is on the links that may be followed, since one is used up
    before the target of a link is read. -/
theorem Arrives.resolves {links : Nat} {slashed : Bool} {here : Place} {names : List Name}
    {spot : Spot} (h : t.Arrives .createFile links slashed here names spot) :
    t.Resolves links here names spot.place := by
  induction links using Nat.strongRecOn generalizing slashed here names with
  | ind links ih =>
  rcases List.eq_nil_or_concat names with rfl | ⟨before, last, hnames⟩
  · cases h
    exact .itself
  · rw [List.concat_eq_append] at hnames
    subst hnames
    obtain ⟨left, dir, hf, hlast⟩ := arrives_concat_iff.mp h
    cases hlast with
    | dot h =>
      cases h
      exact .dot hf
    | dotDot h =>
      cases h
      exact .dotDot hf
    | last hname hc hs =>
      obtain ⟨hdir, -, rfl⟩ := child_eq_ok_iff.mp hc
      exact .entry hf hname hdir hs.2
    | lastLink hname hc _ ha =>
      obtain ⟨-, -, hnode⟩ := child_eq_ok_iff.mp hc
      exact .link hf hname hnode (ih _ (Nat.lt_of_succ_le hf.left_le) ha)
    | down hrest => exact absurd rfl hrest
    | link hrest => exact absurd rfl hrest

/-- Wherever a file can be created, the path leads to where it goes. -/
theorem resolvesTo_of_filePlace (h : t.filePlace cwd path = .ok p) : t.ResolvesTo cwd path p := by
  obtain ⟨dir, name, found, hspot, -, rfl⟩ := filePlace_eq_ok_iff.mp h
  obtain ⟨-, -, -, ha⟩ := locate_eq_ok_iff.mp hspot
  exact ⟨linkLimit, ha.resolves⟩

end TestRig.Tree
