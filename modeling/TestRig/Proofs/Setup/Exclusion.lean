import TestRig.Proofs.Job.Ending

/-! # Installations that run at once

    Any number of installations with one layout take turns on one tree, in
    any order, each with a web of its own. The run that moves first wins:
    its first step makes the directory, or finds that it cannot be made, and
    either way all others are refused in their first step.

    The invariant (`Crew.Led`) says that the winner and the tree are where
    they would be if the winner had run alone, and that every other run has
    not moved yet or has lost. One turn keeps it (`Led.turn`), and so does
    every schedule (`Led.turns`). -/

namespace TestRig

/-! ## Section 1: Runs that take turns -/

/-- Some runs and the tree that they share. -/
structure Crew (n : Nat) where
  jobs : Fin n → Job
  tree : Tree

/-- What the runs have in common, and the web that each of them sees. -/
structure Errand (n : Nat) where
  cwd : Place
  webs : Fin n → Web
  layout : Layout
  artifacts : Artifacts

namespace Errand

variable {n : Nat}

/-- Where a run is done. -/
def site (r : Errand n) (i : Fin n) : Site := ⟨r.cwd, r.webs i⟩

/-- What each run does. -/
def job (r : Errand n) : Job := .installation r.layout r.artifacts

/-- All runs have their steps before them. -/
def start (r : Errand n) (t : Tree) : Crew n := ⟨fun _ => r.job, t⟩

/-- The run `i` does its next step, if it has one left. -/
def turn (r : Errand n) (c : Crew n) (i : Fin n) : Crew n where
  jobs j := if j = i then ((c.jobs i).advance (r.site i) c.tree).1 else c.jobs j
  tree := ((c.jobs i).advance (r.site i) c.tree).2

/-- The runs take turns as the schedule says. -/
def turns (r : Errand n) (c : Crew n) (schedule : List (Fin n)) : Crew n :=
  schedule.foldl r.turn c

theorem turns_concat (r : Errand n) (c : Crew n) (before : List (Fin n)) (i : Fin n) :
    r.turns c (before ++ [i]) = r.turn (r.turns c before) i := by
  simp [turns]

end Errand

namespace Crew

variable {n : Nat}

/-- The run stopped because its directory could not be made. It asked for
    nothing and printed nothing. -/
structure Lost (r : Errand n) (j : Job) : Prop where
  pending : j.pending = []
  failure : ∃ e, j.failure = some (.makeDirectory r.layout.installDir e)
  requests : j.requests = []
  output : j.output = []

/-- The winner and the tree are where they would be if the winner had done
    `k` steps alone, and no other run got past its first step. -/
structure Led (r : Errand n) (t : Tree) (winner : Fin n) (k : Nat) (c : Crew n) : Prop where
  alone : (c.jobs winner, c.tree) = Job.advanceBy (r.site winner) k r.job t
  others : ∀ j, j ≠ winner → c.jobs j = r.job ∨ Lost r (c.jobs j)

/-! ## Section 2: One turn -/

section turn

variable {r : Errand n} {t : Tree} {winner i : Fin n} {k : Nat} {c : Crew n}

theorem led_start (r : Errand n) (t : Tree) (winner : Fin n) : Led r t winner 0 (r.start t) :=
  ⟨rfl, fun _ _ => .inl rfl⟩

/-- A turn of the winner. -/
theorem Led.turn_winner (h : Led r t winner k c) : Led r t winner (k + 1) (r.turn c winner) := by
  refine ⟨?_, fun j hj => ?_⟩
  · have hjob : c.jobs winner = (Job.advanceBy (r.site winner) k r.job t).1 :=
      congrArg Prod.fst h.alone
    have htree : c.tree = (Job.advanceBy (r.site winner) k r.job t).2 := congrArg Prod.snd h.alone
    rw [Job.advanceBy_add, Job.advanceBy_succ, ← hjob, ← htree]
    simp [Errand.turn, Job.advanceBy]
  · have hsame : (r.turn c winner).jobs j = c.jobs j := if_neg hj
    rw [hsame]
    exact h.others j hj

/-- Once the winner has moved, the directory is refused. -/
theorem Led.refuses (h : Led r t winner (k + 1) c) : c.tree.Refuses r.cwd r.layout.installDir := by
  have htree : c.tree = (Job.advanceBy (r.site winner) (k + 1) r.job t).2 :=
    congrArg Prod.snd h.alone
  rw [htree]
  exact Job.refuses_advanceBy_installation (r.site winner) r.layout r.artifacts t k

/-- So a turn of another run changes nothing but that the run has lost. -/
theorem Led.advance_other (h : Led r t winner (k + 1) c) (hi : i ≠ winner) :
    Lost r ((c.jobs i).advance (r.site i) c.tree).1 ∧
      ((c.jobs i).advance (r.site i) c.tree).2 = c.tree := by
  rcases h.others i hi with hjob | hlost
  · -- it has not moved yet, so this is its first step
    have hrefuses : c.tree.Refuses (r.site i).cwd r.layout.installDir := h.refuses
    obtain ⟨e, hfirst⟩ := Job.advance_installation_of_refuses hrefuses r.artifacts
    have hmove : (c.jobs i).advance (r.site i) c.tree
        = (r.job.fail (.makeDirectory r.layout.installDir e), c.tree) := by
      rw [hjob]
      exact hfirst
    rw [hmove]
    exact ⟨⟨rfl, ⟨e, rfl⟩, rfl, rfl⟩, rfl⟩
  · rw [Job.advance_done (r.site i) c.tree hlost.pending]
    exact ⟨hlost, rfl⟩

theorem Led.turn_other (h : Led r t winner (k + 1) c) (hi : i ≠ winner) :
    Led r t winner (k + 1) (r.turn c i) := by
  obtain ⟨hlost, htree⟩ := h.advance_other hi
  refine ⟨?_, fun j hj => ?_⟩
  · have hsame : (r.turn c i).jobs winner = c.jobs winner := if_neg hi.symm
    have htree' : (r.turn c i).tree = c.tree := htree
    rw [hsame, htree']
    exact h.alone
  · by_cases hji : j = i
    · right
      subst hji
      have hmoved : (r.turn c j).jobs j = ((c.jobs j).advance (r.site j) c.tree).1 := if_pos rfl
      rw [hmoved]
      exact hlost
    · have hsame : (r.turn c i).jobs j = c.jobs j := if_neg hji
      rw [hsame]
      exact h.others j hj

end turn

/-! ## Section 3: Every schedule -/

section schedule

variable {r : Errand n} {t : Tree} {winner : Fin n} {c : Crew n}

theorem Led.turns {k : Nat} (h : Led r t winner (k + 1) c) (schedule : List (Fin n)) :
    ∃ k', Led r t winner (k' + 1) (r.turns c schedule) := by
  induction schedule generalizing c k with
  | nil => exact ⟨k, h⟩
  | cons i rest ih =>
    by_cases hi : i = winner
    · subst hi
      exact ih h.turn_winner
    · exact ih (h.turn_other hi)

/-- The run that moves first leads ever after. -/
theorem led_of_first (r : Errand n) (t : Tree) (first : Fin n) (rest : List (Fin n)) :
    ∃ k, Led r t first (k + 1) (r.turns (r.start t) (first :: rest)) :=
  (led_start r t first).turn_winner.turns rest

/-- All runs are over. -/
def Done (c : Crew n) : Prop := ∀ i, (c.jobs i).pending = []

theorem Led.done {k : Nat} (h : Led r t winner k c) (hc : c.Done) :
    (c.jobs winner, c.tree) = Job.finish (r.site winner) r.job t ∧
      ∀ i, i ≠ winner → Lost r (c.jobs i) := by
  have hpending := hc winner
  constructor
  · rw [h.alone]
    rw [show c.jobs winner = _ from congrArg Prod.fst h.alone] at hpending
    exact Job.advanceBy_eq_finish _ _ _ _ hpending
  · intro i hi
    rcases h.others i hi with hjob | hlost
    · have hnot := hc i
      rw [hjob] at hnot
      cases hnot
    · exact hlost

end schedule

/-! ## Section 4: Runs end -/

/-- Each turn takes a step away from its run. -/
theorem length_pending_turns_le (r : Errand n) (c : Crew n) (schedule : List (Fin n)) (i : Fin n) :
    ((r.turns c schedule).jobs i).pending.length
      ≤ (c.jobs i).pending.length - schedule.count i := by
  induction schedule generalizing c with
  | nil => exact Nat.le_refl _
  | cons j rest ih =>
    have hrest := ih (r.turn c j)
    change ((r.turns (r.turn c j) rest).jobs i).pending.length ≤ _
    by_cases hij : i = j
    · subst hij
      have hmoved : (r.turn c i).jobs i = ((c.jobs i).advance (r.site i) c.tree).1 := if_pos rfl
      have hstep := Job.length_pending_advance_le (r.site i) (c.jobs i) c.tree
      rw [hmoved] at hrest
      rw [List.count_cons_self]
      omega
    · have hsame : (r.turn c j).jobs i = c.jobs i := if_neg hij
      rw [hsame] at hrest
      rwa [List.count_cons_of_ne (Ne.symm hij)]

/-- After nine turns of each run all of them are over. -/
theorem done_of_nine_turns (r : Errand n) (t : Tree) (schedule : List (Fin n))
    (h : ∀ i, 9 ≤ schedule.count i) : (r.turns (r.start t) schedule).Done := by
  intro i
  have hlen := length_pending_turns_le r (r.start t) schedule i
  have hstart : ((r.start t).jobs i).pending.length = 9 := rfl
  have hcount := h i
  exact List.length_eq_zero_iff.mp (by omega)

/-! ## Section 5: One winner -/

/-- However the runs take turns, one of them is the only one that gets past
    its first step. The others change nothing, and when all are over they
    have lost, while the winner and the tree are as if it had run alone. -/
theorem runs_exclude_each_other {n : Nat} (r : Errand (n + 1)) (t : Tree)
    (schedule : List (Fin (n + 1))) :
    ∃ winner,
      (∀ before after, schedule = before ++ after →
        ∃ k, Led r t winner k (r.turns (r.start t) before)) ∧
      (∀ before i after, schedule = before ++ i :: after → i ≠ winner →
        (r.turns (r.start t) (before ++ [i])).tree = (r.turns (r.start t) before).tree) ∧
      ((r.turns (r.start t) schedule).Done →
        ((r.turns (r.start t) schedule).jobs winner, (r.turns (r.start t) schedule).tree)
            = Job.finish (r.site winner) r.job t ∧
          ∀ i, i ≠ winner → Lost r ((r.turns (r.start t) schedule).jobs i)) := by
  cases schedule with
  | nil =>
    -- nothing has happened, so any run will do
    refine ⟨0, fun before after h => ?_, fun before i after h => ?_, fun hdone => ?_⟩
    · obtain ⟨rfl, -⟩ := List.append_eq_nil_iff.mp h.symm
      exact ⟨0, led_start r t 0⟩
    · simp at h
    · exact (led_start r t 0).done hdone
  | cons first rest =>
    refine ⟨first, fun before after h => ?_, fun before i after h hi => ?_, fun hdone => ?_⟩
    · cases before with
      | nil => exact ⟨0, led_start r t first⟩
      | cons b before =>
        obtain ⟨rfl, -⟩ := List.cons.inj h
        obtain ⟨k, hled⟩ := led_of_first r t first before
        exact ⟨k + 1, hled⟩
    · cases before with
      | nil =>
        -- the first turn is the winner's own
        exact absurd (List.cons.inj h).1.symm hi
      | cons b before =>
        obtain ⟨rfl, -⟩ := List.cons.inj h
        obtain ⟨k, hled⟩ := led_of_first r t first before
        rw [Errand.turns_concat]
        exact (hled.advance_other hi).2
    · obtain ⟨k, hled⟩ := led_of_first r t first rest
      exact hled.done hdone

end Crew

end TestRig
