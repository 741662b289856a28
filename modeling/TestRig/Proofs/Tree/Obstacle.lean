import TestRig.Proofs.Tree.Resolution

/-! # What keeps a file from being created

    A walk that is to create a file reads one text after the other: the path
    itself, the target of the link under its last name, the target of the
    link under the last name of that, and so on (`Tree.Reads`). The file is
    created under the last name of the last of these texts, unless something
    is in the way.

    * `Tree.Obstacle`: the path cannot be passed, one of the texts asks for a
      directory or has no directory before its last name, a directory is in
      the place of the file, or the links lead around in a circle.
    * `Tree.OverLimit`: the path, a last name or the links are more than the
      system takes.
    * `refused_iff_blocked`: nothing else is ever in the way. Without any of
      this a file is created, at the place that the path leads to
      (`filePlace_eq_ok_iff_resolvesTo`).

    `Tree.Circle` does without a count of links. It is a set of links each
    of which leads into the set again, so a walk that gets there follows as
    many links as it may and no file comes of it (`Circle.not_arrives`). The
    other way round, if nothing else is in the way and yet the path leads
    nowhere, the last names of all the texts are such a set
    (`circle_meets`). -/

namespace TestRig.Tree

/-! ## Section 1: The texts that are read -/

/-- Read in `here`, the path ends in the name of an entry, and the names
    before it lead to `dir`, through however many links. -/
def EndsUnder (t : Tree) (here : Place) (path : Path) (dir : Place) (name : Name) : Prop :=
  ∃ names links left, path.names = names ++ [name] ∧ IsEntryName name ∧
    t.Follows links (start here path) names left dir

/-- To create a file at `dest`, the path is read in `here`. It is `dest`
    itself, or the target of the link under the last name of a path that is
    read. -/
inductive Reads (t : Tree) (cwd : Place) (dest : Path) : Place → Path → Prop where
  | itself : Reads t cwd dest cwd dest
  | target {here path dir name target} :
      Reads t cwd dest here path → t.EndsUnder here path dir name →
      t.nodeAt (dir ++ [name]) = some (.link target) → Reads t cwd dest dir target

section reads

variable {t : Tree} {cwd here dir p : Place} {dest path target : Path} {name : Name}
  {links : Nat} {slashed : Bool} {spot : Spot}

theorem EndsUnder.isEntryName (h : t.EndsUnder here path dir name) : IsEntryName name := by
  obtain ⟨_, _, _, -, hname, -⟩ := h
  exact hname

/-- The names before the last one lead a walk to `dir`. -/
theorem EndsUnder.arrives (h : t.EndsUnder here path dir name)
    (ha : t.Arrives .createFile links slashed (start here path) path.names spot) :
    ∃ left, left ≤ links ∧ t.Arrives .createFile left slashed dir [name] spot := by
  obtain ⟨names, n, m, hnames, -, hf⟩ := h
  rw [hnames] at ha
  obtain ⟨left, dir', hf', hlast⟩ := arrives_concat_iff.mp ha
  have hdir : dir = dir' := hf.dir_unique hf'
  rw [← hdir] at hlast
  exact ⟨left, hf'.left_le, hlast⟩

/-- A link under the last name is followed. -/
theorem Arrives.of_lastLink (h : t.Arrives .createFile links slashed dir [name] spot)
    (hname : IsEntryName name) (hlink : t.nodeAt (dir ++ [name]) = some (.link target)) :
    ∃ left, links = left + 1 ∧
      t.Arrives .createFile left (slashed || target.endsInSlash) (start dir target) target.names
        spot := by
  cases h with
  | dot => exact absurd rfl hname.1
  | dotDot => exact absurd rfl hname.2
  | last _ hc hs =>
    obtain ⟨-, -, hfound⟩ := child_eq_ok_iff.mp hc
    exact absurd (hfound.symm.trans hlink) (hs.2 target)
  | lastLink _ hc _ ha =>
    obtain ⟨-, -, hfound⟩ := child_eq_ok_iff.mp hc
    rw [hlink] at hfound
    cases hfound
    exact ⟨_, rfl, ha⟩
  | down hrest => exact absurd rfl hrest
  | link hrest => exact absurd rfl hrest

/-- A walk that ends somewhere ends there from each text that is read. -/
theorem Reads.arrives (h : t.Reads cwd dest here path)
    (ha : t.Arrives .createFile linkLimit dest.endsInSlash (start cwd dest) dest.names spot) :
    ∃ links slashed, (path.endsInSlash → slashed = true) ∧
      t.Arrives .createFile links slashed (start here path) path.names spot := by
  induction h with
  | itself => exact ⟨_, _, id, ha⟩
  | target _ hunder hlink ih =>
    obtain ⟨links, slashed, -, hwalk⟩ := ih
    obtain ⟨left, -, hlast⟩ := hunder.arrives hwalk
    obtain ⟨n, -, hnext⟩ := hlast.of_lastLink hunder.isEntryName hlink
    refine ⟨n, _, ?_, hnext⟩
    intro hslash
    rw [hslash, Bool.or_true]

/-- It comes to the last name of each of them. -/
theorem Reads.arrives_last (h : t.Reads cwd dest here path)
    (hunder : t.EndsUnder here path dir name)
    (ha : t.Arrives .createFile linkLimit dest.endsInSlash (start cwd dest) dest.names spot) :
    ∃ left slashed, t.Arrives .createFile left slashed dir [name] spot := by
  obtain ⟨links, slashed, -, hwalk⟩ := h.arrives ha
  obtain ⟨left, -, hlast⟩ := hunder.arrives hwalk
  exact ⟨left, slashed, hlast⟩

/-- Where a text that is read leads, the path leads. -/
theorem Reads.resolvesTo (h : t.Reads cwd dest here path)
    (hp : t.Resolves links (start here path) path.names p) : t.ResolvesTo cwd dest p := by
  induction h generalizing links with
  | itself => exact ⟨links, hp⟩
  | target _ hunder hlink ih =>
    obtain ⟨names, n, left, hnames, hname, hf⟩ := hunder
    -- one link more than the target takes
    have hmore := hf.more (links + 1)
    have hrest := hp.more left
    rw [Nat.add_comm] at hrest
    apply ih
    rw [hnames]
    exact .link hmore hname hlink hrest

/-- Only the name of an entry is reached by a last name. -/
theorem Arrives.child_of_last {purpose : Purpose} {here : Place} {last : Name}
    {found : Option Node}
    (h : t.Arrives purpose links slashed dir [name] (.entry here last found)) :
    ∃ node, t.child dir name = .ok node := by
  cases h with
  | dot h => cases h
  | dotDot h => cases h
  | last _ hc => exact ⟨_, hc⟩
  | lastLink _ hc => exact ⟨_, hc⟩
  | down hrest => exact absurd rfl hrest
  | link hrest => exact absurd rfl hrest

end reads

/-! ## Section 2: Links in a circle -/

/-- Links that only lead to one another. -/
def Circle (t : Tree) (S : Place → Prop) : Prop :=
  ∀ p, S p → ∃ target dir name, t.nodeAt p = some (.link target) ∧
    t.EndsUnder p.dropLast target dir name ∧ S (dir ++ [name])

/-- No walk gets out of a circle. The induction is on the links that may be
    followed: one is used up before the walk is at a link of the circle
    again. -/
theorem Circle.not_arrives {t : Tree} {S : Place → Prop} (h : t.Circle S) {links : Nat}
    {slashed : Bool} {here : Place} {name : Name} {spot : Spot} (hname : IsEntryName name)
    (hS : S (here ++ [name])) : ¬ t.Arrives .createFile links slashed here [name] spot := by
  induction links using Nat.strongRecOn generalizing slashed here name with
  | ind links ih =>
  intro ha
  obtain ⟨target, dir, next, hlink, hunder, hin⟩ := h _ hS
  rw [List.dropLast_concat] at hunder
  obtain ⟨n, hlinks, hnext⟩ := ha.of_lastLink hname hlink
  obtain ⟨left, hleft, hlast⟩ := hunder.arrives hnext
  exact ih left (by omega) hunder.isEntryName hin hlast

/-! ## Section 3: Obstacles and limits -/

/-- Something in the tree or in the path is in the way of a file at `dest`. -/
inductive Obstacle (t : Tree) (cwd : Place) (dest : Path) : Prop where
  | nulByte : nul ∈ dest → Obstacle t cwd dest
  /-- A text that is read asks for a directory. -/
  | trailingSlash {here path} :
      t.Reads cwd dest here path → path.endsInSlash → Obstacle t cwd dest
  /-- A text that is read is empty, or it ends in a name that stands for a
      directory itself. -/
  | noName {here path} :
      t.Reads cwd dest here path →
      (∀ names name, path.names = names ++ [name] → ¬ IsEntryName name) → Obstacle t cwd dest
  /-- What stands before the last name leads to no directory. -/
  | noParent {here path names name} :
      t.Reads cwd dest here path → path.names = names ++ [name] →
      (∀ links left dir, t.Follows links (start here path) names left dir →
        ¬ t.hasDirectory dir) → Obstacle t cwd dest
  /-- There is a directory under the last name. -/
  | directory {here path dir name} :
      t.Reads cwd dest here path → t.EndsUnder here path dir name →
      t.hasDirectory (dir ++ [name]) → Obstacle t cwd dest
  | circle {S dir name} :
      t.Circle S → t.EndsUnder cwd dest dir name → S (dir ++ [name]) → Obstacle t cwd dest

/-- A file at `dest` is more than the system takes. -/
inductive OverLimit (t : Tree) (cwd : Place) (dest : Path) : Prop where
  | path : pathLimit < dest.length → OverLimit t cwd dest
  | name {here path dir name} :
      t.Reads cwd dest here path → t.EndsUnder here path dir name →
      nameLimit < name.length → OverLimit t cwd dest
  /-- The path leads to a place, but not through as few links as are
      followed. -/
  | links {p} :
      t.ResolvesTo cwd dest p → ¬ t.Resolves linkLimit (start cwd dest) dest.names p →
      OverLimit t cwd dest

/-- Something is in the way of a file at `dest`. -/
def Blocked (t : Tree) (cwd : Place) (dest : Path) : Prop :=
  t.Obstacle cwd dest ∨ t.OverLimit cwd dest

variable {t : Tree} {cwd here p : Place} {dest path : Path}

/-- No file is created in spite of an obstacle. -/
theorem Obstacle.not_filePlace (h : t.Obstacle cwd dest) : t.filePlace cwd dest ≠ .ok p := by
  intro hp
  obtain ⟨dir, last, found, hspot, hfound, -⟩ := filePlace_eq_ok_iff.mp hp
  obtain ⟨hpassed, -, -, ha⟩ := locate_eq_ok_iff.mp hspot
  cases h with
  | nulByte hnul => exact hpassed hnul
  | trailingSlash hreads hslash =>
    obtain ⟨links, slashed, hslashed, hwalk⟩ := hreads.arrives ha
    obtain ⟨_, hspot⟩ := hwalk.itself_of_slashed (hslashed hslash)
    cases hspot
  | @noName here path hreads hnone =>
    obtain ⟨links, slashed, -, hwalk⟩ := hreads.arrives ha
    rcases List.eq_nil_or_concat path.names with hnil | ⟨names, name, hnames⟩
    · rw [hnil] at hwalk
      cases hwalk
    · rw [List.concat_eq_append] at hnames
      rw [hnames] at hwalk
      obtain ⟨left, d, -, hlast⟩ := arrives_concat_iff.mp hwalk
      obtain ⟨_, hspot⟩ := hlast.itself_of_last (hnone names name hnames)
      cases hspot
  | noParent hreads hnames hnone =>
    obtain ⟨links, slashed, -, hwalk⟩ := hreads.arrives ha
    rw [hnames] at hwalk
    obtain ⟨left, d, hf, hlast⟩ := arrives_concat_iff.mp hwalk
    obtain ⟨_, hc⟩ := hlast.child_of_last
    exact hnone _ _ _ hf (child_eq_ok_iff.mp hc).1
  | @directory _ _ d name hreads hunder hdir =>
    obtain ⟨left, slashed, hlast⟩ := hreads.arrives_last hunder ha
    have hnode : t.nodeAt (d ++ [name]) = some .directory := hdir
    -- a directory is no link, so the walk ends there
    have hno : Redirects .createFile slashed →
        ∀ target, t.nodeAt (d ++ [name]) ≠ some (.link target) := by
      intro _ target hlink
      rw [hnode] at hlink
      cases hlink
    obtain ⟨found', hc, -, hspot⟩ := (arrives_last_iff hunder.isEntryName hno).mp hlast
    cases hspot
    obtain ⟨-, -, hfound'⟩ := child_eq_ok_iff.mp hc
    exact hfound (hfound'.symm.trans hnode)
  | circle hcircle hunder hS =>
    obtain ⟨left, -, hlast⟩ := hunder.arrives ha
    exact hcircle.not_arrives hunder.isEntryName hS hlast

/-- No file is created beyond a limit. -/
theorem OverLimit.not_filePlace (h : t.OverLimit cwd dest) : t.filePlace cwd dest ≠ .ok p := by
  intro hp
  obtain ⟨dir, last, found, hspot, -, hplace⟩ := filePlace_eq_ok_iff.mp hp
  obtain ⟨-, -, hpassed, ha⟩ := locate_eq_ok_iff.mp hspot
  cases h with
  | path hlong => exact Nat.not_le_of_lt hlong hpassed
  | name hreads hunder hlong =>
    obtain ⟨left, slashed, hlast⟩ := hreads.arrives_last hunder ha
    obtain ⟨_, hc⟩ := hlast.child_of_last
    obtain ⟨-, hshort, -⟩ := child_eq_ok_iff.mp hc
    exact Nat.not_le_of_lt hlong hshort
  | @links q hto hmany =>
    -- the walk that creates the file follows no more links than allowed
    have hq : p = q := hto.eq_of_filePlace hp
    have hfew := ha.resolves
    rw [← hq, hplace] at hmany
    exact hmany hfew

theorem Blocked.not_filePlace (h : t.Blocked cwd dest) : t.filePlace cwd dest ≠ .ok p := by
  rcases h with h | h
  · exact h.not_filePlace
  · exact h.not_filePlace

/-! ## Section 4: Nothing else is in the way -/

/-- The last name of a text that is read is that of `p`, and its directory is
    there. -/
def Meets (t : Tree) (cwd : Place) (dest : Path) (p : Place) : Prop :=
  ∃ here path dir name, t.Reads cwd dest here path ∧ t.EndsUnder here path dir name ∧
    t.hasDirectory dir ∧ p = dir ++ [name]

/-- A path ends in one name at most. -/
theorem noName_of_concat {names all : List Name} {name : Name} (h : all = names ++ [name])
    (hname : ¬ IsEntryName name) (names' : List Name) (name' : Name)
    (h' : all = names' ++ [name']) : ¬ IsEntryName name' := by
  obtain ⟨-, hlast⟩ := List.append_inj' (h.symm.trans h') rfl
  cases hlast
  exact hname

/-- Without an obstacle, each text that is read ends in the name of an entry
    in a directory. -/
theorem Reads.endsUnder (h : t.Reads cwd dest here path) (hfree : ¬ t.Obstacle cwd dest) :
    ∃ dir name, t.EndsUnder here path dir name ∧ t.hasDirectory dir := by
  rcases List.eq_nil_or_concat path.names with hnil | ⟨names, name, hnames⟩
  · have hnone : ∀ names name, path.names = names ++ [name] → ¬ IsEntryName name := by
      intro names name hnames
      rw [hnil] at hnames
      simp at hnames
    exact absurd (.noName h hnone) hfree
  · rw [List.concat_eq_append] at hnames
    by_cases hname : IsEntryName name
    · apply Classical.byContradiction
      intro hnone
      apply hfree
      apply Obstacle.noParent h hnames
      intro links left dir hf hdir
      exact hnone ⟨dir, name, ⟨names, links, left, hnames, hname, hf⟩, hdir⟩
    · exact absurd (.noName h (noName_of_concat hnames hname)) hfree

/-- If the path leads nowhere and nothing else is in the way, the last names
    that are met are links that only lead to one another. -/
theorem circle_meets (hfree : ¬ t.Obstacle cwd dest) (hnone : ∀ p, ¬ t.ResolvesTo cwd dest p) :
    t.Circle (t.Meets cwd dest) := by
  intro p hp
  obtain ⟨here, path, dir, name, hreads, hunder, hdir, rfl⟩ := hp
  -- an entry that is no link would be where the path leads
  have hlink : ∃ target, t.nodeAt (dir ++ [name]) = some (.link target) := by
    apply Classical.byContradiction
    intro hno
    obtain ⟨names, links, left, hnames, hname, hf⟩ := hunder
    have hentry : t.Resolves links (start here path) path.names (dir ++ [name]) := by
      rw [hnames]
      exact .entry hf hname hdir fun target hlink => hno ⟨target, hlink⟩
    exact hnone _ (hreads.resolvesTo hentry)
  obtain ⟨target, hlink⟩ := hlink
  have hnext : t.Reads cwd dest dir target := .target hreads hunder hlink
  obtain ⟨dir', name', hunder', hdir'⟩ := hnext.endsUnder hfree
  refine ⟨target, dir', name', hlink, ?_, dir, target, dir', name', hnext, hunder', hdir', rfl⟩
  rw [List.dropLast_concat]
  exact hunder'

/-- Without an obstacle the path leads somewhere. -/
theorem exists_resolvesTo (hfree : ¬ t.Obstacle cwd dest) : ∃ p, t.ResolvesTo cwd dest p := by
  apply Classical.byContradiction
  intro hnowhere
  have hnone : ∀ p, ¬ t.ResolvesTo cwd dest p := fun p hp => hnowhere ⟨p, hp⟩
  have hself : t.Reads cwd dest cwd dest := .itself
  obtain ⟨dir, name, hunder, hdir⟩ := hself.endsUnder hfree
  have hmeets : t.Meets cwd dest (dir ++ [name]) :=
    ⟨cwd, dest, dir, name, hself, hunder, hdir, rfl⟩
  exact hfree (.circle (circle_meets hfree hnone) hunder hmeets)

/-- With nothing in the way, no text that is read asks for a directory. -/
theorem Reads.endsInSlash_eq_false (h : t.Reads cwd dest here path)
    (hfree : ¬ t.Blocked cwd dest) : path.endsInSlash = false := by
  rw [Bool.eq_false_iff]
  intro hslash
  exact hfree (.inl (.trailingSlash h hslash))

/-- With nothing in the way, no text that is read ends in a name that is too
    long. -/
theorem Reads.length_le {dir : Place} {name : Name} (h : t.Reads cwd dest here path)
    (hunder : t.EndsUnder here path dir name) (hfree : ¬ t.Blocked cwd dest) :
    name.length ≤ nameLimit := by
  apply Nat.le_of_not_lt
  intro hlong
  exact hfree (.inr (.name h hunder hlong))

/-- With nothing in the way, a walk ends where the path leads. The induction
    is on how it leads there, from each of the texts that are read. -/
theorem Reads.arrives_of_resolves {links : Nat} {names : List Name} {from' : Place}
    (h : t.Reads cwd dest here path) (hfree : ¬ t.Blocked cwd dest)
    (hp : t.Resolves links from' names p) (hstart : from' = start here path)
    (hall : names = path.names) :
    ∃ dir name found, t.Arrives .createFile links false from' names (.entry dir name found) ∧
      found ≠ some .directory ∧ p = dir ++ [name] := by
  have hopen : ¬ t.Obstacle cwd dest := fun hobstacle => hfree (.inl hobstacle)
  induction hp generalizing here path with
  | itself =>
    obtain ⟨_, _, ⟨names, _, _, hnames, -⟩, -⟩ := h.endsUnder hopen
    rw [← hall] at hnames
    simp at hnames
  | dot =>
    have hnone := noName_of_concat hall.symm fun hname => hname.1 rfl
    exact absurd (.noName h hnone) hopen
  | dotDot =>
    have hnone := noName_of_concat hall.symm fun hname => hname.2 rfl
    exact absurd (.noName h hnone) hopen
  | @entry n left here' dir names name hf hname hdir hlink =>
    subst hstart
    have hunder : t.EndsUnder here path dir name := ⟨names, n, left, hall.symm, hname, hf⟩
    have hshort : name.length ≤ nameLimit := h.length_le hunder hfree
    have hfound : t.nodeAt (dir ++ [name]) ≠ some .directory := by
      intro hnode
      exact hopen (.directory h hunder hnode)
    have hchild := child_eq_ok_iff.mpr ⟨hdir, hshort, rfl⟩
    have hlast : t.Arrives .createFile left false dir [name] (.entry dir name _) :=
      .last hname hchild ⟨rfl, hlink⟩
    exact ⟨dir, name, _, arrives_concat_iff.mpr ⟨left, dir, hf, hlast⟩, hfound, rfl⟩
  | @link n left here' dir names name target p hf hname hlink _ ih =>
    subst hstart
    have hunder : t.EndsUnder here path dir name := ⟨names, n, _, hall.symm, hname, hf⟩
    have hnext : t.Reads cwd dest dir target := .target h hunder hlink
    obtain ⟨d, last, found, hwalk, hfound, hp⟩ := ih hnext rfl rfl
    refine ⟨d, last, found, ?_, hfound, hp⟩
    have hchild := child_eq_of_nodeAt (h.length_le hunder hfree) hlink
    have hredirects : Redirects .createFile false := rfl
    have hlast : t.Arrives .createFile (left + 1) false dir [name] (.entry d last found) := by
      apply Arrives.lastLink hname hchild hredirects
      rw [hnext.endsInSlash_eq_false hfree]
      exact hwalk
    exact arrives_concat_iff.mpr ⟨left + 1, dir, hf, hlast⟩

/-- A file is created where the path leads, unless something is in the
    way. -/
theorem filePlace_eq_ok_iff_resolvesTo :
    t.filePlace cwd dest = .ok p ↔ t.ResolvesTo cwd dest p ∧ ¬ t.Blocked cwd dest := by
  constructor
  · intro hp
    exact ⟨resolvesTo_of_filePlace hp, fun hblocked => hblocked.not_filePlace hp⟩
  · intro ⟨hto, hfree⟩
    have hopen : ¬ t.Obstacle cwd dest := fun hobstacle => hfree (.inl hobstacle)
    have hself : t.Reads cwd dest cwd dest := .itself
    have hfew : t.Resolves linkLimit (start cwd dest) dest.names p := by
      apply Classical.byContradiction
      intro hmany
      exact hfree (.inr (.links hto hmany))
    obtain ⟨dir, name, found, hwalk, hfound, hp⟩ := hself.arrives_of_resolves hfree hfew rfl rfl
    have hnul : nul ∉ dest := fun hnul => hopen (.nulByte hnul)
    have hshort : dest.length ≤ pathLimit := by
      apply Nat.le_of_not_lt
      intro hlong
      exact hfree (.inr (.path hlong))
    have hne : dest ≠ [] := by
      rintro rfl
      cases hwalk
    rw [← hself.endsInSlash_eq_false hfree] at hwalk
    have hspot := locate_eq_ok_iff.mpr ⟨hnul, hne, hshort, hwalk⟩
    exact filePlace_eq_ok_iff.mpr ⟨dir, name, found, hspot, hfound, hp⟩

/-- The creation of a file is refused exactly if something is in the way. -/
theorem refused_iff_blocked : (∃ e, t.filePlace cwd dest = .error e) ↔ t.Blocked cwd dest := by
  constructor
  · intro ⟨e, he⟩
    apply Classical.byContradiction
    intro hfree
    obtain ⟨p, hp⟩ := exists_resolvesTo fun hobstacle => hfree (.inl hobstacle)
    have hok := filePlace_eq_ok_iff_resolvesTo.mpr ⟨hp, hfree⟩
    rw [hok] at he
    cases he
  · intro hblocked
    cases hp : t.filePlace cwd dest with
    | error e => exact ⟨e, rfl⟩
    | ok p => exact absurd hp hblocked.not_filePlace

end TestRig.Tree
