import TestRig.Job
import TestRig.Proofs.Tree.Growth

/-! # Steps one after the other

    What one step does to a job and to the tree is said once:

    * `perform_grows`, `perform_gainsFiles`: what it does to the tree.
    * `perform_pending`: it leaves the steps after it alone or fails.

    The same follows for any number of steps (`advanceBy_grows`,
    `advanceBy_gainsFiles`). `Job.finish` counts steps, which suits jobs
    that take turns; for a job that runs alone, `finish_cons` does one step
    at a time. -/

namespace TestRig.Job

/-! ## Section 1: One step -/

/-- No step removes anything. -/
theorem perform_grows (site : Site) (step : Step) (j : Job) (t : Tree) :
    t.Grows (perform site step j t).2 := by
  cases step with
  | makeDirectory path =>
    simp only [perform]
    split
    · exact .refl t
    · next h => exact Tree.grows_makeDirectory h
  | request url => exact .refl t
  | create dest =>
    simp only [perform]
    split
    · exact .refl t
    · next h => exact (Tree.gainsFiles_createFile h).grows
  | write url dest =>
    simp only [perform]
    split <;> exact (Tree.gainsFiles_write t _ _).grows
  | announce dir => exact .refl t

/-- Only the making of a directory adds something that is no file. -/
theorem perform_gainsFiles (site : Site) {step : Step} (j : Job) (t : Tree)
    (hstep : ∀ path, step ≠ .makeDirectory path) : t.GainsFiles (perform site step j t).2 := by
  cases step with
  | makeDirectory path => exact absurd rfl (hstep path)
  | request url => exact .refl t
  | create dest =>
    simp only [perform]
    split
    · exact .refl t
    · next h => exact Tree.gainsFiles_createFile h
  | write url dest =>
    simp only [perform]
    split <;> exact Tree.gainsFiles_write t _ _
  | announce dir => exact .refl t

/-- A step leaves the steps after it alone, unless it fails: then there
    are none any more. -/
theorem perform_pending (site : Site) (step : Step) (j : Job) (t : Tree) :
    ((perform site step j t).1.pending = j.pending ∧
        (perform site step j t).1.failure = j.failure) ∨
      ((perform site step j t).1.pending = [] ∧
        ∃ f, (perform site step j t).1.failure = some f) := by
  cases step with
  | makeDirectory path =>
    simp only [perform]
    split
    · exact .inr ⟨rfl, _, rfl⟩
    · exact .inl ⟨rfl, rfl⟩
  | request url =>
    simp only [perform, request]
    split
    · exact .inr ⟨rfl, _, rfl⟩
    · split
      · exact .inl ⟨rfl, rfl⟩
      · exact .inr ⟨rfl, _, rfl⟩
  | create dest =>
    simp only [perform]
    split
    · exact .inr ⟨rfl, _, rfl⟩
    · exact .inl ⟨rfl, rfl⟩
  | write url dest =>
    simp only [perform]
    split
    · exact .inl ⟨rfl, rfl⟩
    · exact .inr ⟨rfl, _, rfl⟩
  | announce dir => exact .inl ⟨rfl, rfl⟩

/-! ## Section 2: Some steps -/

theorem advance_done {j : Job} (site : Site) (t : Tree) (h : j.pending = []) :
    j.advance site t = (j, t) := by
  simp [advance, h]

theorem advance_cons {j : Job} {step : Step} {rest : List Step} (site : Site) (t : Tree)
    (h : j.pending = step :: rest) :
    j.advance site t = perform site step { j with pending := rest } t := by
  simp [advance, h]

theorem advanceBy_succ (site : Site) (n : Nat) (j : Job) (t : Tree) :
    advanceBy site (n + 1) j t = advanceBy site n (j.advance site t).1 (j.advance site t).2 := rfl

theorem advanceBy_done {j : Job} (site : Site) (n : Nat) (t : Tree) (h : j.pending = []) :
    advanceBy site n j t = (j, t) := by
  induction n with
  | zero => rfl
  | succ n ih => rw [advanceBy_succ, advance_done site t h, ih]

theorem advanceBy_add (site : Site) (m n : Nat) (j : Job) (t : Tree) :
    advanceBy site (m + n) j t
      = advanceBy site n (advanceBy site m j t).1 (advanceBy site m j t).2 := by
  induction m generalizing j t with
  | zero => simp [advanceBy]
  | succ m ih =>
    rw [Nat.succ_add, advanceBy_succ, advanceBy_succ]
    exact ih _ _

theorem advance_grows (site : Site) (j : Job) (t : Tree) : t.Grows (j.advance site t).2 := by
  unfold advance
  split
  · exact .refl t
  · exact perform_grows site _ _ t

theorem advanceBy_grows (site : Site) (n : Nat) (j : Job) (t : Tree) :
    t.Grows (advanceBy site n j t).2 := by
  induction n generalizing j t with
  | zero => exact .refl t
  | succ n ih => exact (advance_grows site j t).trans (ih _ _)

theorem length_pending_advance_le (site : Site) (j : Job) (t : Tree) :
    (j.advance site t).1.pending.length ≤ j.pending.length - 1 := by
  unfold advance
  split
  · next h => simp [h]
  · next step rest h =>
    rcases perform_pending site step { j with pending := rest } t with ⟨hp, -⟩ | ⟨hp, -⟩
    · simp [hp, h]
    · simp [hp]

/-- A job has no more steps to do than it had in the beginning. -/
theorem length_pending_advanceBy_le (site : Site) (n : Nat) (j : Job) (t : Tree) :
    (advanceBy site n j t).1.pending.length ≤ j.pending.length - n := by
  induction n generalizing j t with
  | zero => exact Nat.le_refl _
  | succ n ih =>
    have hstep := length_pending_advance_le site j t
    have hrest := ih (j.advance site t).1 (j.advance site t).2
    rw [advanceBy_succ]
    omega

/-! ## Section 3: All steps -/

theorem finish_done {j : Job} (site : Site) (t : Tree) (h : j.pending = []) :
    finish site j t = (j, t) :=
  advanceBy_done site _ t h

/-- A job that ran out of steps is where it would be if it had been
    finished in one go. -/
theorem advanceBy_eq_finish (site : Site) (n : Nat) (j : Job) (t : Tree)
    (h : (advanceBy site n j t).1.pending = []) : advanceBy site n j t = finish site j t := by
  unfold finish
  rcases Nat.le_total n j.pending.length with hle | hle
  · -- stopped early, so the steps that are missing do nothing
    obtain ⟨k, hk⟩ := Nat.exists_eq_add_of_le hle
    rw [hk, advanceBy_add, advanceBy_done site k _ h]
  · -- asked to go on after the last step
    obtain ⟨k, hk⟩ := Nat.exists_eq_add_of_le hle
    have hdone : (advanceBy site j.pending.length j t).1.pending = [] := by
      have hlen := length_pending_advanceBy_le site j.pending.length j t
      exact List.length_eq_zero_iff.mp (by omega)
    rw [hk, advanceBy_add, advanceBy_done site k _ hdone]

theorem pending_finish (site : Site) (j : Job) (t : Tree) : (finish site j t).1.pending = [] := by
  have hlen := length_pending_advanceBy_le site j.pending.length j t
  exact List.length_eq_zero_iff.mp (by unfold finish; omega)

theorem finish_advanceBy (site : Site) (n : Nat) (j : Job) (t : Tree) :
    finish site (advanceBy site n j t).1 (advanceBy site n j t).2 = finish site j t := by
  have hdone := pending_finish site (advanceBy site n j t).1 (advanceBy site n j t).2
  unfold finish at hdone ⊢
  rw [← advanceBy_add] at hdone ⊢
  exact advanceBy_eq_finish site _ j t hdone

/-- To finish a job is to do its next step and to finish what comes of it. -/
theorem finish_cons {j : Job} {step : Step} {rest : List Step} (site : Site) (t : Tree)
    (h : j.pending = step :: rest) :
    finish site j t
      = finish site (perform site step { j with pending := rest } t).1
          (perform site step { j with pending := rest } t).2 := by
  have h1 := finish_advanceBy site 1 j t
  rw [advanceBy_succ, advance_cons site t h] at h1
  exact h1.symm

/-- A job that makes no directory adds nothing but files. -/
theorem advanceBy_gainsFiles (site : Site) (n : Nat) {j : Job} (t : Tree)
    (h : ∀ path, .makeDirectory path ∉ j.pending) : t.GainsFiles (advanceBy site n j t).2 := by
  induction n generalizing j t with
  | zero => exact .refl t
  | succ n ih =>
    rw [advanceBy_succ]
    cases hp : j.pending with
    | nil =>
      rw [advance_done site t hp]
      exact ih t h
    | cons step rest =>
      have hstep : ∀ path, step ≠ .makeDirectory path := fun path e => h path (by simp [hp, e])
      have hrest : ∀ path, .makeDirectory path ∉ rest := fun path hm => h path (by simp [hp, hm])
      rw [advance_cons site t hp]
      refine (perform_gainsFiles site _ t hstep).trans (ih _ fun path hm => ?_)
      rcases perform_pending site step { j with pending := rest } t with ⟨hp', -⟩ | ⟨hp', -⟩
      · rw [hp'] at hm
        exact hrest path hm
      · rw [hp'] at hm
        cases hm

end TestRig.Job
