import TestRig.Proofs.Tree.Denotation
import TestRig.Proofs.Tree.Stability

/-! # Accounting for what is new

    `Tree.Grows` says that nothing is lost. `Tree.Accounts` says in addition
    where everything comes from that was not there before: it is given two
    predicates, one for the directories that were made and one for what was
    written to files, and all that differs between two trees must fall under
    one of them.

    Accounts of edits that follow each other add up (`Accounts.trans`), so
    the account of a long history is that of its single edits: the making of
    a directory (`accounts_makeDirectory`) and the filling of a file
    (`accounts_put_file`). What such an edit was done to can still be found
    under its path in every later tree (`look_directory_of_grows`,
    `FindsFile.of_grows`). -/

namespace TestRig.Tree

/-! ## Section 1: Accounts -/

/-- All that differs between two trees is accounted for. Nothing is missing
    in the second one, and it has no new links. Its new directories have
    been `made`, and what its files hold now, unless they held it before, was
    `wrote` to them. -/
structure Accounts (made : Place → Prop) (wrote : Place → Bytes → Prop) (t t' : Tree) : Prop where
  grows : t.Grows t'
  directories : ∀ p, t'.hasDirectory p → t.hasDirectory p ∨ made p
  links : ∀ p target, t'.nodeAt p = some (.link target) → t.nodeAt p = some (.link target)
  files : ∀ p content executable, t'.nodeAt p = some (.file content executable) →
    t.nodeAt p = some (.file content executable) ∨ wrote p content

section accounts

variable {made made' : Place → Prop} {wrote wrote' : Place → Bytes → Prop} {t t' t'' : Tree}

theorem Accounts.refl (t : Tree) : Accounts made wrote t t where
  grows := .refl t
  directories := fun _ h => .inl h
  links := fun _ _ h => h
  files := fun _ _ _ h => .inl h

theorem Accounts.trans (h : Accounts made wrote t t') (h' : Accounts made wrote t' t'') :
    Accounts made wrote t t'' where
  grows := h.grows.trans h'.grows
  directories := by
    intro p hp
    rcases h'.directories p hp with hp | hmade
    · exact h.directories p hp
    · exact .inr hmade
  links := by
    intro p target hp
    exact h.links p target (h'.links p target hp)
  files := by
    intro p content executable hp
    rcases h'.files p content executable hp with hp | hwrote
    · exact h.files p content executable hp
    · exact .inr hwrote

theorem Accounts.mono (h : Accounts made wrote t t') (hmade : ∀ p, made p → made' p)
    (hwrote : ∀ p content, wrote p content → wrote' p content) : Accounts made' wrote' t t' where
  grows := h.grows
  directories := by
    intro p hp
    exact (h.directories p hp).imp_right (hmade p)
  links := h.links
  files := by
    intro p content executable hp
    exact (h.files p content executable hp).imp_right (hwrote p content)

/-! ## Section 2: The two kinds of edits -/

/-- A new directory is found where it was made. -/
theorem accounts_makeDirectory {cwd : Place} {path : Path}
    (h : t.makeDirectory cwd path = .ok t') :
    Accounts (fun p => t'.look cwd path = .ok (p, .directory)) wrote t t' := by
  obtain ⟨d, hadmits, hfree, rfl, hlook⟩ := look_of_makeDirectory h
  refine ⟨grows_put_free hadmits hfree, ?_, ?_, ?_⟩
  · intro p hp
    rw [hasDirectory, nodeAt_put hadmits] at hp
    split at hp
    · next hdp =>
      subst hdp
      exact .inr hlook
    · exact .inl hp
  · intro p target hp
    rw [nodeAt_put hadmits] at hp
    split at hp
    · cases hp
    · exact hp
  · intro p content executable hp
    rw [nodeAt_put hadmits] at hp
    split at hp
    · cases hp
    · exact .inl hp

/-- A file that is filled holds what was written, and nothing else changes. -/
theorem accounts_put_file {f : Place} (h : t.TakesFile f) (bytes : Bytes) (mode : Bool) :
    Accounts made (fun p content => p = f ∧ content = bytes) t (t.put f (.file bytes mode)) := by
  refine ⟨(h.gainsFiles_put _ _).grows, ?_, ?_, ?_⟩
  · intro p hp
    have hkind := (h.gainsFiles_put bytes mode).onlyFiles p _
      (kindAt_eq_directory_iff.mpr hp) (by simp)
    exact .inl (kindAt_eq_directory_iff.mp hkind)
  · intro p target hp
    exact (h.gainsFiles_put bytes mode).link hp
  · intro p content executable hp
    rw [nodeAt_put (h.admits _)] at hp
    split at hp
    · next hfp =>
      cases hp
      exact .inr ⟨hfp.symm, rfl⟩
    · exact .inl hp

end accounts

/-! ## Section 3: What was found is still found -/

section look

variable {t t' : Tree} {cwd p : Place} {path : Path}

theorem look_directory_of_grows (h : t.Grows t') (hlook : t.look cwd path = .ok (p, .directory)) :
    t'.look cwd path = .ok (p, .directory) := by
  obtain ⟨n, hkind, hlook'⟩ := look_of_grows h hlook
  cases n <;> cases hkind
  exact hlook'

/-- The path leads to a file at `p`, whatever it holds. -/
def FindsFile (t : Tree) (cwd : Place) (path : Path) (p : Place) : Prop :=
  ∃ content executable, t.look cwd path = .ok (p, .file content executable)

theorem FindsFile.of_grows (h : t.Grows t') (hfinds : t.FindsFile cwd path p) :
    t'.FindsFile cwd path p := by
  obtain ⟨content, executable, hlook⟩ := hfinds
  obtain ⟨n, hkind, hlook'⟩ := look_of_grows h hlook
  obtain ⟨content', executable', rfl⟩ := Node.eq_file_of_kind hkind
  exact ⟨content', executable', hlook'⟩

end look

end TestRig.Tree
