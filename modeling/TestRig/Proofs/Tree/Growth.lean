import TestRig.Proofs.Tree.Change

/-! # Trees that only grow

    No edit of a tree removes anything. Two relations say how much a tree
    can differ from an earlier one:

    * `Tree.Grows`: every entry is still there and still of its kind.
    * `Tree.GainsFiles`: moreover all new entries are files.

    Directories and links decide where a path leads, so paths that led
    somewhere lead there in every grown tree. The main results say that a
    directory that cannot be made stays so: once one was made at the path
    (`makeDirectory_refused_of_made`), and as long as only files come along
    (`makeDirectory_refused_of_gainsFiles`).

    `Tree.Gains` names the new entries one by one. They are all that the two
    trees differ in, so the trees tell them (`Gains.mem_iff`). -/

namespace TestRig

/-- What a node is, whatever a file holds. -/
inductive Kind where
  | directory
  | file
  | link (target : Path)
  deriving DecidableEq

/-- The kind of a node. -/
def Node.kind : Node → Kind
  | .directory => .directory
  | .file .. => .file
  | .link target => .link target

@[simp] theorem Node.kind_directory : Node.kind .directory = .directory := rfl

@[simp] theorem Node.kind_file (content : Bytes) (executable : Bool) :
    Node.kind (.file content executable) = .file := rfl

@[simp] theorem Node.kind_link (target : Path) : Node.kind (.link target) = .link target := rfl

theorem Node.eq_file_of_kind {n : Node} (h : n.kind = .file) :
    ∃ content executable, n = .file content executable := by
  cases n with
  | directory => cases h
  | file content executable => exact ⟨content, executable, rfl⟩
  | link target => cases h

namespace Tree

/-- The kind of what is at a place. -/
def kindAt (t : Tree) (p : Place) : Option Kind := (t.nodeAt p).map Node.kind

/-! ## Section 1: Kinds -/

theorem kindAt_eq_directory_iff {t : Tree} {p : Place} :
    t.kindAt p = some .directory ↔ t.hasDirectory p := by
  unfold kindAt hasDirectory
  rcases t.nodeAt p with _ | _ | _ | _ <;> simp

theorem kindAt_eq_link_iff {t : Tree} {p : Place} {target : Path} :
    t.kindAt p = some (.link target) ↔ t.nodeAt p = some (.link target) := by
  unfold kindAt
  rcases t.nodeAt p with _ | _ | _ | _ <;> simp

theorem kindAt_eq_none_iff {t : Tree} {p : Place} : t.kindAt p = none ↔ t.nodeAt p = none := by
  simp [kindAt]

theorem kindAt_put {t : Tree} {p : Place} {n : Node} (h : t.Admits p n) (q : Place) :
    (t.put p n).kindAt q = if p = q then some n.kind else t.kindAt q := by
  unfold kindAt
  rw [nodeAt_put h]
  split <;> rfl

/-! ## Section 2: Growing -/

/-- Every entry is still there, of the kind that it was. -/
def Grows (t t' : Tree) : Prop := ∀ p k, t.kindAt p = some k → t'.kindAt p = some k

/-- The tree grows, and all that is new are files. -/
structure GainsFiles (t t' : Tree) : Prop where
  grows : t.Grows t'
  onlyFiles : ∀ p k, t'.kindAt p = some k → k ≠ .file → t.kindAt p = some k

theorem Grows.refl (t : Tree) : t.Grows t := fun _ _ h => h

theorem Grows.trans {t t' t'' : Tree} (h : t.Grows t') (h' : t'.Grows t'') : t.Grows t'' :=
  fun p k hk => h' p k (h p k hk)

theorem GainsFiles.refl (t : Tree) : t.GainsFiles t := ⟨.refl t, fun _ _ h _ => h⟩

theorem GainsFiles.trans {t t' t'' : Tree} (h : t.GainsFiles t') (h' : t'.GainsFiles t'') :
    t.GainsFiles t'' :=
  ⟨h.grows.trans h'.grows, fun p k hk hne => h.onlyFiles p k (h'.onlyFiles p k hk hne) hne⟩

theorem Grows.hasDirectory {t t' : Tree} (h : t.Grows t') {p : Place} (hp : t.hasDirectory p) :
    t'.hasDirectory p :=
  kindAt_eq_directory_iff.mp (h p _ (kindAt_eq_directory_iff.mpr hp))

theorem Grows.link {t t' : Tree} (h : t.Grows t') {p : Place} {target : Path}
    (hp : t.nodeAt p = some (.link target)) : t'.nodeAt p = some (.link target) :=
  kindAt_eq_link_iff.mp (h p _ (kindAt_eq_link_iff.mpr hp))

theorem Grows.free {t t' : Tree} (h : t.Grows t') {p : Place} (hp : t'.nodeAt p = none) :
    t.nodeAt p = none := by
  cases hk : t.kindAt p with
  | none => exact kindAt_eq_none_iff.mp hk
  | some k =>
    have hk' := h p k hk
    rw [kindAt_eq_none_iff.mpr hp] at hk'
    cases hk'

/-- A new entry, or one of the kind that was there, makes a tree grow. -/
theorem grows_put {t : Tree} {p : Place} {n : Node} (h : t.Admits p n)
    (hkind : t.kindAt p = none ∨ t.kindAt p = some n.kind) : t.Grows (t.put p n) := by
  intro q k hk
  rw [kindAt_put h]
  split
  · next hpq =>
    subst hpq
    rcases hkind with hnone | hsome
    · rw [hnone] at hk
      cases hk
    · rw [← hsome, hk]
  · exact hk

theorem grows_put_free {t : Tree} {p : Place} {n : Node} (h : t.Admits p n)
    (hfree : t.nodeAt p = none) : t.Grows (t.put p n) :=
  grows_put h (.inl (kindAt_eq_none_iff.mpr hfree))

theorem TakesFile.kindAt {t : Tree} {p : Place} (h : t.TakesFile p) :
    t.kindAt p = none ∨ t.kindAt p = some .file := by
  unfold Tree.kindAt
  cases hn : t.nodeAt p with
  | none => exact .inl rfl
  | some n =>
    cases n with
    | directory => exact absurd hn h.notDirectory
    | file => exact .inr rfl
    | link target => exact absurd hn (h.notLink target)

theorem TakesFile.gainsFiles_put {t : Tree} {p : Place} (h : t.TakesFile p) (content : Bytes)
    (executable : Bool) : t.GainsFiles (t.put p (.file content executable)) := by
  refine ⟨grows_put (h.admits _) h.kindAt, fun q k hk hne => ?_⟩
  rw [kindAt_put (h.admits _)] at hk
  split at hk
  · cases hk
    exact absurd rfl hne
  · exact hk

/-! ## Section 3: What each edit adds -/

theorem grows_makeDirectory {t t' : Tree} {cwd : Place} {path : Path}
    (h : t.makeDirectory cwd path = .ok t') : t.Grows t' := by
  obtain ⟨dir, name, hv, rfl⟩ := makeDirectory_eq_ok_iff.mp h
  exact grows_put_free hv.admits hv.free

theorem gainsFiles_createFile {t t' : Tree} {cwd p : Place} {path : Path}
    (h : t.createFile cwd path = .ok (t', p)) : t.GainsFiles t' := by
  obtain ⟨hp, rfl⟩ := createFile_eq_ok_iff.mp h
  rw [truncate_eq_put]
  exact (filePlace_spec hp).gainsFiles_put _ _

theorem gainsFiles_write (t : Tree) (p : Place) (bytes : Bytes) :
    t.GainsFiles (t.write p bytes) := by
  unfold write
  split
  · next old executable hnode =>
    by_cases hroot : p = []
    · -- the root is no file
      subst hroot
      rw [nodeAt_root] at hnode
      cases hnode
    · have hsome : (t.nodeAt (p.dropLast ++ [p.getLast hroot])).isSome := by
        rw [List.dropLast_concat_getLast, hnode]
        rfl
      have htakes : t.TakesFile p :=
        ⟨hroot, hasDirectory_of_isSome hsome, by simp [hasDirectory, hnode], by simp [hnode]⟩
      exact htakes.gainsFiles_put _ _
  · exact .refl t

/-! ## Section 4: Paths in a grown tree -/

theorem Follows.mono {t t' : Tree} (h : t.Grows t') {links left : Nat} {here d : Place}
    {names : List Name} (hf : t.Follows links here names left d) :
    t'.Follows links here names left d := by
  induction hf with
  | done => exact .done
  | dot _ ih => exact .dot ih
  | dotDot _ ih => exact .dotDot ih
  | down hname hlen hdir _ ih => exact .down hname hlen (h.hasDirectory hdir) ih
  | link hname hlen hlink _ ih => exact .link hname hlen (h.link hlink) ih

theorem LeadsTo.mono {t t' : Tree} (h : t.Grows t') {cwd d : Place} {path : Path}
    (hl : t.LeadsTo cwd path d) : t'.LeadsTo cwd path d := by
  obtain ⟨left, hf⟩ := hl
  exact ⟨left, hf.mono h⟩

/-- Files do not open new ways. -/
theorem Follows.of_gainsFiles {t t' : Tree} (h : t.GainsFiles t') {links left : Nat}
    {here d : Place} {names : List Name} (hf : t'.Follows links here names left d) :
    t.Follows links here names left d := by
  induction hf with
  | done => exact .done
  | dot _ ih => exact .dot ih
  | dotDot _ ih => exact .dotDot ih
  | down hname hlen hdir _ ih =>
    have hk := h.onlyFiles _ _ (kindAt_eq_directory_iff.mpr hdir) (by simp)
    exact .down hname hlen (kindAt_eq_directory_iff.mp hk) ih
  | link hname hlen hlink _ ih =>
    have hk := h.onlyFiles _ _ (kindAt_eq_link_iff.mpr hlink) (by simp)
    exact .link hname hlen (kindAt_eq_link_iff.mp hk) ih

/-! ## Section 5: A directory that cannot be made -/

/-- Making the directory is refused. -/
def Refuses (t : Tree) (cwd : Place) (path : Path) : Prop :=
  ∃ e, t.makeDirectory cwd path = .error e

theorem refuses_iff {t : Tree} {cwd : Place} {path : Path} :
    t.Refuses cwd path ↔ ∀ dir name, ¬ t.Vacant cwd path dir name := by
  unfold Refuses
  cases h : t.makeDirectory cwd path with
  | error e =>
    refine ⟨fun _ dir name hv => ?_, fun _ => ⟨e, rfl⟩⟩
    rw [makeDirectory_eq_ok_iff.mpr ⟨dir, name, hv, rfl⟩] at h
    cases h
  | ok t' =>
    obtain ⟨dir, name, hv, -⟩ := makeDirectory_eq_ok_iff.mp h
    exact ⟨fun ⟨_, he⟩ => (by cases he), fun hno => absurd hv (hno dir name)⟩

/-- Files cannot make room for a directory. -/
theorem makeDirectory_refused_of_gainsFiles {t t' : Tree} {cwd : Place} {path : Path}
    (h : t.GainsFiles t') (hr : t.Refuses cwd path) : t'.Refuses cwd path := by
  rw [refuses_iff] at hr ⊢
  rintro dir name ⟨hnul, hlen, ⟨names, left, hnames, hf⟩, hname, hshort, hdir, hfree⟩
  have hdir' := h.onlyFiles _ _ (kindAt_eq_directory_iff.mpr hdir) (by simp)
  exact hr dir name ⟨hnul, hlen, ⟨names, left, hnames, hf.of_gainsFiles h⟩, hname, hshort,
    kindAt_eq_directory_iff.mp hdir', h.grows.free hfree⟩

/-- Where a directory was made, none can be made again. -/
theorem makeDirectory_refused_of_made {t t₁ t' : Tree} {cwd : Place} {path : Path}
    (h : t.makeDirectory cwd path = .ok t₁) (hg : t₁.Grows t') : t'.Refuses cwd path := by
  rw [refuses_iff]
  rintro dir name ⟨-, -, ⟨names, left, hnames, hf⟩, -, -, -, hfree⟩
  obtain ⟨dir₁, name₁, hv, rfl⟩ := makeDirectory_eq_ok_iff.mp h
  obtain ⟨names₁, left₁, hnames₁, hf₁⟩ := hv.leads
  -- both walks follow the same names, and the first one still leads where it led
  rw [hnames] at hnames₁
  obtain ⟨rfl, hlast⟩ := List.append_inj' hnames₁ rfl
  cases hlast
  have hgrows : t.Grows t' := (grows_makeDirectory h).trans hg
  obtain ⟨-, rfl⟩ := hf.unique (hf₁.mono hgrows)
  -- so the name that is free now is the one that was taken
  have hmade := hg.hasDirectory (nodeAt_put_self hv.admits)
  rw [hasDirectory, hfree] at hmade
  cases hmade

/-! ## Section 6: Exactly which entries are new -/

theorem lookUp_append (p : Place) (es ds : List (Place × Node)) :
    lookUp p (es ++ ds) = (lookUp p es).or (lookUp p ds) := by
  induction es with
  | nil => simp [lookUp]
  | cons e es ih =>
    obtain ⟨q, n⟩ := e
    rw [List.cons_append, lookUp, lookUp, ih]
    split <;> simp

theorem lookUp_eq_none_iff {p : Place} {es : List (Place × Node)} :
    lookUp p es = none ↔ p ∉ es.map Prod.fst := by
  induction es with
  | nil => simp [lookUp]
  | cons e es ih =>
    obtain ⟨q, n⟩ := e
    rw [lookUp]
    by_cases hq : q = p
    · simp [hq]
    · simp [hq, ih, Ne.symm hq]

/-- The tree `t'` is `t` with the entries of `added`. All of them are new,
    and no two are at one place. -/
structure Gains (t t' : Tree) (added : List (Place × Node)) : Prop where
  new : ∀ e ∈ added, t.nodeAt e.1 = none
  distinct : (added.map Prod.fst).Nodup
  nodeAt_eq : ∀ p, t'.nodeAt p = (lookUp p added).or (t.nodeAt p)

theorem Gains.refl (t : Tree) : t.Gains t [] := ⟨by simp, by simp, by simp [lookUp]⟩

/-- One more new entry. -/
theorem Gains.put {t t' : Tree} {added : List (Place × Node)} {p : Place} {n : Node}
    (h : t.Gains t' added) (hp : t'.Admits p n) (hfree : t'.nodeAt p = none) :
    t.Gains (t'.put p n) (added ++ [(p, n)]) := by
  rw [h.nodeAt_eq, Option.or_eq_none_iff] at hfree
  obtain ⟨hnew, hold⟩ := hfree
  refine ⟨fun e he => ?_, ?_, fun q => ?_⟩
  · rcases List.mem_append.mp he with he | he
    · exact h.new e he
    · rw [List.mem_singleton.mp he]
      exact hold
  · rw [List.map_append, List.nodup_append]
    refine ⟨h.distinct, by simp, fun a ha b hb => ?_⟩
    rw [List.map_singleton, List.mem_singleton] at hb
    rintro rfl
    have hp' : a = p := hb
    subst hp'
    exact lookUp_eq_none_iff.mp hnew ha
  · rw [nodeAt_put hp, lookUp_append, h.nodeAt_eq]
    by_cases hq : p = q
    · subst hq
      simp [hnew, lookUp]
    · simp [hq, lookUp]

theorem mem_of_lookUp {p : Place} {n : Node} {es : List (Place × Node)} (h : lookUp p es = some n) :
    (p, n) ∈ es := by
  induction es with
  | nil => cases h
  | cons e es ih =>
    obtain ⟨q, m⟩ := e
    rw [lookUp] at h
    split at h
    · next hq =>
      cases h
      subst hq
      exact List.mem_cons_self
    · exact List.mem_cons_of_mem _ (ih h)

/-- Of entries at different places, each is found. -/
theorem lookUp_of_mem {p : Place} {n : Node} {es : List (Place × Node)}
    (hdistinct : (es.map Prod.fst).Nodup) (h : (p, n) ∈ es) : lookUp p es = some n := by
  induction es with
  | nil => cases h
  | cons e es ih =>
    obtain ⟨q, m⟩ := e
    rw [List.map_cons, List.nodup_cons] at hdistinct
    obtain ⟨hq, hrest⟩ := hdistinct
    rw [lookUp]
    rcases List.mem_cons.mp h with he | he
    · cases he
      rw [if_pos rfl]
    · have hne : q ≠ p := by
        rintro rfl
        exact hq (List.mem_map.mpr ⟨_, he, rfl⟩)
      rw [if_neg hne]
      exact ih hrest he

section Gains

variable {t t' : Tree} {added added' : List (Place × Node)}

/-- The new entries are those at places where nothing was. -/
theorem Gains.mem_iff (h : t.Gains t' added) {p : Place} {n : Node} :
    (p, n) ∈ added ↔ t.nodeAt p = none ∧ t'.nodeAt p = some n := by
  constructor
  · intro hmem
    have hfound : lookUp p added = some n := lookUp_of_mem h.distinct hmem
    refine ⟨h.new _ hmem, ?_⟩
    rw [h.nodeAt_eq, hfound]
    rfl
  · rintro ⟨hnone, hsome⟩
    rw [h.nodeAt_eq, hnone, Option.or_none] at hsome
    exact mem_of_lookUp hsome

/-- The two trees tell how many entries are new. -/
theorem Gains.length_eq (h : t.Gains t' added) (h' : t.Gains t' added') :
    added.length = added'.length := by
  have hne : ∀ e e' : Place × Node, e.1 ≠ e'.1 → e ≠ e' := by
    intro e e' hplace he
    exact hplace (congrArg Prod.fst he)
  have hnodup : added.Nodup := List.Pairwise.of_map Prod.fst hne h.distinct
  have hnodup' : added'.Nodup := List.Pairwise.of_map Prod.fst hne h'.distinct
  have hsame : ∀ e, e ∈ added ↔ e ∈ added' := by
    rintro ⟨p, n⟩
    rw [h.mem_iff, h'.mem_iff]
  exact ((List.perm_ext_iff_of_nodup hnodup hnodup').mpr hsame).length_eq

theorem Gains.grows (h : t.Gains t' added) : t.Grows t' := by
  intro p k hk
  -- where something was, no entry is new
  have hold : lookUp p added = none := by
    rw [lookUp_eq_none_iff]
    intro hp
    obtain ⟨e, he, rfl⟩ := List.mem_map.mp hp
    rw [kindAt_eq_none_iff.mpr (h.new e he)] at hk
    cases hk
  unfold kindAt at hk ⊢
  rw [h.nodeAt_eq, hold]
  exact hk

end Gains

end Tree

end TestRig
