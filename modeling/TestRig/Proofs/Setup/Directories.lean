import TestRig.Proofs.Job.Ending
import TestRig.Proofs.Tree.Denotation

/-! # The directories of an installation

    An installation makes a directory, another one in it, and puts a file in
    each. What can happen to a file depends only on what its directory
    holds when the file is created, and the directories are new, so that is
    known: `Tree.OpensTo` says that a path leads to a directory and names
    all that the directory holds.

    * `opensTo_join`: a directory that was just made is empty.
    * `HasRoom.makeDirectory`, `hasRoom_of_makeDirectory`: when the first
      directory is made.
    * `makeDirectory_pluginsDir`: when the second one is made.
    * `Downloads.tree_eq`: what a download does to any tree.
    * `Downloads.into`: what it does to such a directory. -/

namespace TestRig

/-! ## Section 1: The names and places of an installation -/

/-- A name that can be made in every directory that does not hold it yet. -/
structure Tree.IsGoodName (name : Name) : Prop where
  noSlash : slash ∉ name
  noNul : nul ∉ name
  nonempty : name ≠ []
  entryName : Tree.IsEntryName name
  short : name.length ≤ nameLimit

namespace Layout

theorem isGoodName_installName : Tree.IsGoodName installName where
  noSlash := by decide +kernel
  noNul := by decide +kernel
  nonempty := by decide +kernel
  entryName := by decide +kernel
  short := by decide +kernel

theorem isGoodName_pluginsName : Tree.IsGoodName pluginsName where
  noSlash := by decide +kernel
  noNul := by decide +kernel
  nonempty := by decide +kernel
  entryName := by decide +kernel
  short := by decide +kernel

/-- The place of the directory that an installation makes in `d`. -/
def installPlace (d : Place) : Place := d ++ [text "jstestdriver"]

/-- The place of the plugin directory in it. -/
def pluginsPlace (d : Place) : Place := installPlace d ++ [text "plugins"]

end Layout

namespace Tree

/-! ## Section 2: Directories whose content is known -/

/-- The path leads to the directory at `d`. It holds directories of the
    names in `held`, and nothing else. -/
structure OpensTo (t : Tree) (cwd : Place) (base : Path) (d : Place) (held : List Name) : Prop where
  noNul : nul ∉ base
  nonempty : base ≠ []
  leads : t.LeadsTo cwd base d
  isDirectory : t.hasDirectory d
  holds : ∀ name, t.nodeAt (d ++ [name]) = if name ∈ held then some .directory else none

section OpensTo

variable {t : Tree} {cwd d : Place} {base : Path} {name : Name} {held : List Name}

theorem OpensTo.free_iff (h : t.OpensTo cwd base d held) :
    t.nodeAt (d ++ [name]) = none ↔ name ∉ held := by
  rw [h.holds]
  split <;> simp [*]

/-- A directory that was just made is empty. -/
theorem opensTo_join (hname : IsGoodName name) (hbase : nul ∉ base)
    (hleads : t.LeadsTo cwd base d) (hdir : t.hasDirectory d)
    (hfree : t.nodeAt (d ++ [name]) = none) :
    (t.put (d ++ [name]) .directory).OpensTo cwd (Path.join base name) (d ++ [name]) [] := by
  have hadmits : t.Admits (d ++ [name]) .directory := admits_of_free hdir hfree
  have hgrows : t.Grows (t.put (d ++ [name]) .directory) :=
    grows_put_free hadmits hfree
  have hmade : (t.put (d ++ [name]) .directory).hasDirectory (d ++ [name]) :=
    nodeAt_put_self hadmits
  refine ⟨?_, Path.join_ne_nil hname.noSlash hname.nonempty, ?_, hmade, fun below => ?_⟩
  · rw [Path.nul_mem_join hname.noSlash]
    exact not_or.mpr ⟨hbase, hname.noNul⟩
  · exact (hleads.mono hgrows).join hname.noSlash hname.nonempty hname.entryName hname.short hmade
  · -- there was nothing below the name before
    have hnot : ¬ t.hasDirectory (d ++ [name]) := by
      rw [hasDirectory, hfree]
      intro hnone
      cases hnone
    rw [nodeAt_put_of_ne hadmits (by simp), nodeAt_below hnot]
    rfl

/-- A file elsewhere does not matter. -/
theorem OpensTo.put_file (h : t.OpensTo cwd base d held) {p : Place} {content : Bytes}
    {executable : Bool} (hadmits : t.Admits p (.file content executable))
    (hfree : t.nodeAt p = none) (hp : ∀ name, p ≠ d ++ [name]) :
    (t.put p (.file content executable)).OpensTo cwd base d held := by
  have hgrows : t.Grows (t.put p (.file content executable)) :=
    grows_put_free hadmits hfree
  have hdir := hgrows.hasDirectory h.isDirectory
  refine ⟨h.noNul, h.nonempty, h.leads.mono hgrows, hdir, fun name => ?_⟩
  rw [nodeAt_put_of_ne hadmits (hp name), h.holds]

/-- A directory that is made in it is one more that it holds. -/
theorem OpensTo.put_directory (h : t.OpensTo cwd base d [])
    (hadmits : t.Admits (d ++ [name]) .directory) :
    (t.put (d ++ [name]) .directory).OpensTo cwd base d [name] := by
  have hfree : t.nodeAt (d ++ [name]) = none := h.free_iff.mpr (by simp)
  have hgrows : t.Grows (t.put (d ++ [name]) .directory) :=
    grows_put_free hadmits hfree
  have hdir := hgrows.hasDirectory h.isDirectory
  refine ⟨h.noNul, h.nonempty, h.leads.mono hgrows, hdir, fun n => ?_⟩
  rw [nodeAt_put hadmits, h.holds]
  by_cases hn : n = name
  · simp [hn]
  · simp [hn, Ne.symm hn]

/-- Only its length can keep a directory from being made there. -/
theorem OpensTo.makeDirectory_join (h : t.OpensTo cwd base d held) (hname : IsGoodName name)
    (hfree : name ∉ held) :
    t.makeDirectory cwd (Path.join base name) =
      if pathLimit < (Path.join base name).length then .error (.os .nameTooLong)
      else .ok (t.put (d ++ [name]) .directory) := by
  have hnul : ¬ (nul ∈ base ∨ nul ∈ name) := not_or.mpr ⟨h.noNul, hname.noNul⟩
  have hlen : ¬ nameLimit < name.length := Nat.not_lt.mpr hname.short
  rw [Tree.makeDirectory_join hname.noSlash hname.nonempty hname.entryName h.leads h.isDirectory
    (h.free_iff.mpr hfree), if_neg hnul]
  simp only [hlen, or_false]

/-- Where a file is created in a directory of which all is known. -/
theorem OpensTo.filePlace_eq_ok_iff (h : t.OpensTo cwd base d held) (hslash : slash ∉ name)
    {p : Place} :
    t.filePlace cwd (Path.join base name) = .ok p ↔
      (name ≠ [] ∧ nul ∉ name ∧ IsEntryName name) ∧ name ∉ held ∧
        ((Path.join base name).length ≤ pathLimit ∧ name.length ≤ nameLimit) ∧ p = d ++ [name] := by
  constructor
  · intro hp
    obtain ⟨hne, hname⟩ := filePlace_join_isEntryName hslash h.nonempty hp
    -- what it holds are directories, and none of them becomes a file
    have hfree : name ∉ held := by
      intro hheld
      have hd : t.hasDirectory (d ++ [name]) := by rw [hasDirectory, h.holds, if_pos hheld]
      exact filePlace_join_of_hasDirectory hslash hne hname h.leads h.isDirectory hd p hp
    rw [filePlace_join hslash hne hname h.leads h.isDirectory (h.free_iff.mpr hfree)] at hp
    split at hp
    · cases hp
    · next hnul =>
      split at hp
      · cases hp
      · next hlong =>
        cases hp
        rw [not_or, Nat.not_lt, Nat.not_lt] at hlong
        exact ⟨⟨hne, fun hn => hnul (.inr hn), hname⟩, hfree, hlong, rfl⟩
  · rintro ⟨⟨hne, hnul, hname⟩, hfree, hshort, rfl⟩
    rw [filePlace_join hslash hne hname h.leads h.isDirectory (h.free_iff.mpr hfree),
      if_neg (not_or.mpr ⟨h.noNul, hnul⟩),
      if_neg (not_or.mpr ⟨Nat.not_lt.mpr hshort.1, Nat.not_lt.mpr hshort.2⟩)]

end OpensTo

end Tree

/-! ## Section 3: The two directories -/

namespace Layout

/-- The root denotes the directory at `d`, which holds nothing under the
    name of the directory that an installation makes. -/
structure HasRoom (t : Tree) (cwd : Place) (root : Path) (d : Place) : Prop where
  noNul : nul ∉ root
  denotes : t.Denotes cwd root d
  free : t.nodeAt (installPlace d) = none

section resolve

variable {t t₁ : Tree} {cwd d : Place} {root : Path} {artifacts : Artifacts}

theorem HasRoom.admits (h : HasRoom t cwd root d) (n : Node) : t.Admits (installPlace d) n :=
  Tree.admits_of_free h.denotes.1 h.free

/-- With room for it, only its length can keep the first directory from
    being made. -/
theorem HasRoom.makeDirectory (h : HasRoom t cwd root d) :
    t.makeDirectory cwd (resolve root artifacts).installDir =
      if pathLimit < (resolve root artifacts).installDir.length then .error (.os .nameTooLong)
      else .ok (t.put (installPlace d) .directory) := by
  have hname := isGoodName_installName
  obtain ⟨hdir, -, -, hleads⟩ := Tree.denotes_iff.mp h.denotes
  have hnul : ¬ (nul ∈ root ∨ nul ∈ installName) := not_or.mpr ⟨h.noNul, hname.noNul⟩
  have hlen : ¬ nameLimit < installName.length := Nat.not_lt.mpr hname.short
  unfold resolve
  rw [Tree.makeDirectory_join hname.noSlash hname.nonempty hname.entryName hleads hdir h.free,
    if_neg hnul]
  simp only [hlen, or_false]
  rfl

/-- The first directory is made only where there is room for it. -/
theorem hasRoom_of_makeDirectory
    (h : t.makeDirectory cwd (resolve root artifacts).installDir = .ok t₁) :
    ∃ d, HasRoom t cwd root d ∧ t₁ = t.put (installPlace d) .directory := by
  have hname := isGoodName_installName
  obtain ⟨d, name, hv, rfl⟩ := Tree.makeDirectory_eq_ok_iff.mp h
  unfold resolve at hv
  rw [Tree.vacant_join_iff hname.noSlash hname.nonempty hname.entryName] at hv
  obtain ⟨rfl, ⟨hnul, -⟩, hlen, -, hleads, hdir, hfree⟩ := hv
  have hshort : root.length ≤ pathLimit :=
    Nat.le_trans (Path.length_le_length_join hname.noSlash) hlen
  exact ⟨d, ⟨hnul, Tree.denotes_iff.mpr ⟨hdir, hnul, hshort, hleads⟩, hfree⟩, rfl⟩

theorem HasRoom.opensTo (h : HasRoom t cwd root d) :
    (t.put (installPlace d) .directory).OpensTo cwd (resolve root artifacts).installDir
      (installPlace d) [] := by
  obtain ⟨hdir, -, -, hleads⟩ := Tree.denotes_iff.mp h.denotes
  exact Tree.opensTo_join isGoodName_installName h.noNul hleads hdir h.free

/-- In the new directory only its length can keep the second one from being
    made. -/
theorem makeDirectory_pluginsDir
    (h : t₁.OpensTo cwd (resolve root artifacts).installDir (installPlace d) []) :
    t₁.makeDirectory cwd (resolve root artifacts).pluginsDir =
      if pathLimit < (resolve root artifacts).pluginsDir.length then .error (.os .nameTooLong)
      else .ok (t₁.put (pluginsPlace d) .directory) :=
  h.makeDirectory_join isGoodName_pluginsName (by simp)

/-- Once both directories are made, the first one holds the second one,
    and the second one is empty. -/
theorem opensTo_both (h : t₁.OpensTo cwd (resolve root artifacts).installDir (installPlace d) []) :
    t₁.Admits (pluginsPlace d) .directory ∧ t₁.nodeAt (pluginsPlace d) = none ∧
      (t₁.put (pluginsPlace d) .directory).OpensTo cwd (resolve root artifacts).installDir
        (installPlace d) [pluginsName] ∧
      (t₁.put (pluginsPlace d) .directory).OpensTo cwd (resolve root artifacts).pluginsDir
        (pluginsPlace d) [] := by
  have hfree : t₁.nodeAt (pluginsPlace d) = none := h.free_iff.mpr (by simp)
  have hadmits : t₁.Admits (pluginsPlace d) .directory := Tree.admits_of_free h.isDirectory hfree
  exact ⟨hadmits, hfree, h.put_directory hadmits,
    Tree.opensTo_join isGoodName_pluginsName h.noNul h.leads h.isDirectory hfree⟩

end resolve

end Layout

/-! ## Section 4: What a download leaves in the tree -/

/-- The web delivers what the URL names, and reports success. -/
def Web.Delivers (w : Web) (url : Url) (r : Response) : Prop :=
  w.Serves url r ∧ Status.isSuccess r.status

section downloads

variable {site : Site} {url : Url} {dest base : Path} {d : Place} {held : List Name}
  {t t' : Tree} {failure : Option Failure}

/-- A download puts what arrived where its path leads, or nothing. -/
theorem Downloads.tree_eq (h : Downloads site url dest t failure t') :
    t' = t ∨ ∃ r p, site.web.Delivers url r ∧ t.filePlace site.cwd dest = .ok p ∧
      t' = t.put p (.file r.body (t.modeAt p)) := by
  cases h with
  | unanswered => exact .inl rfl
  | unsuccessful => exact .inl rfl
  | uncreated => exact .inl rfl
  | cut hs hok hp => exact .inr ⟨_, _, ⟨hs, hok⟩, hp, rfl⟩
  | complete hs hok hp => exact .inr ⟨_, _, ⟨hs, hok⟩, hp, rfl⟩

/-- Into a directory of which all is known, a download adds one file or
    nothing. If the file is added, it holds
    what arrived, and the download failed just if this was not all. -/
theorem Downloads.into (h : Downloads site url (Path.join base (fileName url)) t failure t')
    (ho : t.OpensTo site.cwd base d held) :
    (t' = t ∧ ∃ f, failure = some f ∧ ∀ u p, f ≠ .write u p) ∨
      ∃ r, site.web.Delivers url r ∧ fileName url ∉ held ∧
        t' = t.put (d ++ [fileName url]) (.file r.body false) ∧
        failure
          = if r.complete then none else some (.write url (Path.join base (fileName url))) := by
  have hslash := slash_not_mem_fileName url
  -- a new file may not be run
  have hmode : fileName url ∉ held → t.modeAt (d ++ [fileName url]) = false := by
    intro hfree
    unfold Tree.modeAt
    rw [ho.free_iff.mpr hfree]
  cases h with
  | unanswered => exact .inl ⟨rfl, _, rfl, nofun⟩
  | unsuccessful => exact .inl ⟨rfl, _, rfl, nofun⟩
  | uncreated => exact .inl ⟨rfl, _, rfl, nofun⟩
  | @cut r p hs hok hp hcut =>
    obtain ⟨-, hfree, -, rfl⟩ := (ho.filePlace_eq_ok_iff hslash).mp hp
    exact .inr ⟨r, ⟨hs, hok⟩, hfree, by rw [hmode hfree], by simp [hcut]⟩
  | @complete r p hs hok hp hcomplete =>
    obtain ⟨-, hfree, -, rfl⟩ := (ho.filePlace_eq_ok_iff hslash).mp hp
    exact .inr ⟨r, ⟨hs, hok⟩, hfree, by rw [hmode hfree], by simp [hcomplete]⟩

end downloads

end TestRig
