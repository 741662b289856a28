import TestRig.Path

/-! # File trees

    A tree assigns nodes to places. A place is the list of names that leads
    to it from the root, through directories only: links have no part in it.
    The entries are kept in the order of their places, and every entry
    stands in a directory, so two trees that answer alike are equal
    (`Tree.ext_nodeAt`) and a place that holds nothing has nothing below it
    (`Tree.nodeAt_below`).

    The only ways to change a tree are to put a node at a place and to drop
    a place with all below it. -/

namespace TestRig

/-! ## Section 1: Names, places and nodes -/

/-- The name of an entry in its directory. -/
abbrev Name : Type := Bytes

/-- Where an entry is: the names from the root to it. The root itself is the
    empty place. -/
abbrev Place : Type := List Name

/-- What can be at a place. -/
inductive Node where
  | directory
  | file (content : Bytes) (executable : Bool)
  | link (target : Path)
  deriving DecidableEq

/-! ## Section 2: Ordered entries -/

/-- The node at the first entry for `p`. -/
def lookUp (p : Place) : List (Place × Node) → Option Node
  | [] => none
  | (q, n) :: es => if q = p then some n else lookUp p es

/-- The entries with `n` at `p`: in place of what was there, or else before
    the first later place. -/
def enter (p : Place) (n : Node) : List (Place × Node) → List (Place × Node)
  | [] => [(p, n)]
  | (q, m) :: es =>
    if p = q then (p, n) :: es
    else if p < q then (p, n) :: (q, m) :: es
    else (q, m) :: enter p n es

/-- Each entry comes before all later ones. -/
def Ordered (es : List (Place × Node)) : Prop := es.Pairwise fun a b => a.1 < b.1

theorem lookUp_enter (p q : Place) (n : Node) (es : List (Place × Node)) :
    lookUp q (enter p n es) = if p = q then some n else lookUp q es := by
  induction es with
  | nil => simp [enter, lookUp]
  | cons e es ih =>
    obtain ⟨r, m⟩ := e
    unfold enter
    split
    · next h => subst h; simp only [lookUp]; split <;> rfl
    · next h =>
      split
      · simp only [lookUp]
      · simp only [lookUp, ih]
        by_cases hp : p = q
        · subst hp; simp [Ne.symm h]
        · simp [hp]

theorem mem_enter {p : Place} {n : Node} {es : List (Place × Node)} {e : Place × Node}
    (h : e ∈ enter p n es) : e = (p, n) ∨ e ∈ es := by
  induction es with
  | nil => simpa [enter] using h
  | cons d es ih =>
    obtain ⟨r, m⟩ := d
    unfold enter at h
    split at h
    · rcases List.mem_cons.1 h with h | h
      · exact .inl h
      · exact .inr (List.mem_cons_of_mem _ h)
    · split at h
      · rcases List.mem_cons.1 h with h | h
        · exact .inl h
        · exact .inr h
      · rcases List.mem_cons.1 h with h | h
        · exact .inr (h ▸ List.mem_cons_self ..)
        · exact (ih h).imp_right (List.mem_cons_of_mem _)

theorem ordered_enter (p : Place) (n : Node) {es : List (Place × Node)} (h : Ordered es) :
    Ordered (enter p n es) := by
  induction es with
  | nil => simp [enter, Ordered]
  | cons e es ih =>
    obtain ⟨r, m⟩ := e
    obtain ⟨hr, hes⟩ := List.pairwise_cons.1 h
    unfold enter
    split
    · next hp => subst hp; exact List.pairwise_cons.2 ⟨hr, hes⟩
    · next hne =>
      split
      · next hlt =>
        refine List.pairwise_cons.2 ⟨fun e he => ?_, h⟩
        rcases List.mem_cons.1 he with rfl | he
        · exact hlt
        · exact List.lt_trans hlt (hr e he)
      · next hnlt =>
        refine List.pairwise_cons.2 ⟨fun e he => ?_, ih hes⟩
        rcases mem_enter he with rfl | he
        · rcases Std.lt_trichotomy r p with h | h | h
          · exact h
          · exact absurd h.symm hne
          · exact absurd h hnlt
        · exact hr e he

theorem lookUp_eq_none_of_lt {p : Place} {es : List (Place × Node)} (h : ∀ e ∈ es, p < e.1) :
    lookUp p es = none := by
  induction es with
  | nil => rfl
  | cons e es ih =>
    obtain ⟨r, m⟩ := e
    have hr : r ≠ p := fun he => List.lt_irrefl p (he ▸ h (r, m) (List.mem_cons_self ..))
    rw [lookUp, if_neg hr]
    exact ih fun e he => h e (List.mem_cons_of_mem _ he)

/-- Ordered entries are determined by what they answer. -/
theorem eq_of_lookUp_eq {es ds : List (Place × Node)} (he : Ordered es) (hd : Ordered ds)
    (h : ∀ p, lookUp p es = lookUp p ds) : es = ds := by
  induction es generalizing ds with
  | nil =>
    cases ds with
    | nil => rfl
    | cons d ds => have := h d.1; simp [lookUp] at this
  | cons e es ih =>
    obtain ⟨p, n⟩ := e
    cases ds with
    | nil => have := h p; simp [lookUp] at this
    | cons d ds =>
      obtain ⟨q, m⟩ := d
      obtain ⟨hp, hes⟩ := List.pairwise_cons.1 he
      obtain ⟨hq, hds⟩ := List.pairwise_cons.1 hd
      have hpq : p = q := by
        rcases Std.lt_trichotomy p q with hlt | heq | hlt
        · have := h p
          rw [lookUp, if_pos rfl, lookUp_eq_none_of_lt] at this
          · exact absurd this (by simp)
          · intro e hmem
            rcases List.mem_cons.1 hmem with rfl | hmem
            · exact hlt
            · exact List.lt_trans hlt (hq e hmem)
        · exact heq
        · have := h q
          rw [lookUp_eq_none_of_lt, lookUp, if_pos rfl] at this
          · exact absurd this (by simp)
          · intro e hmem
            rcases List.mem_cons.1 hmem with rfl | hmem
            · exact hlt
            · exact List.lt_trans hlt (hp e hmem)
      subst hpq
      have hnm : n = m := by have := h p; simpa [lookUp] using this
      subst hnm
      congr 1
      refine ih hes hds fun r => ?_
      have hr := h r
      simp only [lookUp] at hr
      split at hr
      · next hpr =>
        subst hpr
        rw [lookUp_eq_none_of_lt hp, lookUp_eq_none_of_lt hq]
      · exact hr

/-- Is `q` the place `p` or below it? -/
def isWithin (p q : Place) : Bool := q.take p.length = p

theorem isWithin_append {p q : Place} (h : isWithin p q) (rest : Place) :
    isWithin p (q ++ rest) := by
  have hq : q.take p.length = p := by simpa [isWithin] using h
  have hle : p.length ≤ q.length := by
    have := congrArg List.length hq
    rw [List.length_take] at this
    omega
  simp [isWithin, List.take_append_of_le_length hle, hq]

theorem lookUp_filter (p q : Place) (es : List (Place × Node)) :
    lookUp q (es.filter fun e => !isWithin p e.1) = if isWithin p q then none else lookUp q es := by
  induction es with
  | nil => simp [lookUp]
  | cons e es ih =>
    obtain ⟨r, m⟩ := e
    by_cases hr : isWithin p r
    · rw [List.filter_cons_of_neg (by simp [hr]), ih]
      split
      · rfl
      · next hq => rw [lookUp, if_neg fun (he : r = q) => hq (he ▸ hr)]
    · rw [List.filter_cons_of_pos (by simp [hr]), lookUp, lookUp, ih]
      by_cases he : r = q
      · subst he; simp [hr]
      · simp [he]

/-! ## Section 3: Trees -/

/-- A file tree. -/
structure Tree where
  entries : List (Place × Node)
  ordered : Ordered entries
  /-- The root is a directory. -/
  rooted : lookUp [] entries = some .directory
  /-- Every other entry stands in a directory. -/
  grounded : ∀ p name, (lookUp (p ++ [name]) entries).isSome → lookUp p entries = some .directory

namespace Tree

/-- What is at a place, if anything. -/
def nodeAt (t : Tree) (p : Place) : Option Node := lookUp p t.entries

/-- Is there a directory at the place? -/
def hasDirectory (t : Tree) (p : Place) : Prop := t.nodeAt p = some .directory

instance (t : Tree) (p : Place) : Decidable (t.hasDirectory p) :=
  inferInstanceAs (Decidable (_ = _))

@[simp] theorem nodeAt_root (t : Tree) : t.nodeAt [] = some .directory := t.rooted

/-- What stands at a place other than the root stands in a directory. -/
theorem hasDirectory_of_isSome {t : Tree} {p : Place} {name : Name}
    (h : (t.nodeAt (p ++ [name])).isSome) : t.hasDirectory p :=
  t.grounded p name h

/-- Below a place that holds no directory there is nothing. -/
theorem nodeAt_below {t : Tree} {p : Place} (h : ¬ t.hasDirectory p) (name : Name) (rest : Place) :
    t.nodeAt (p ++ name :: rest) = none := by
  induction rest generalizing p name with
  | nil =>
    cases hn : t.nodeAt (p ++ [name]) with
    | none => rfl
    | some n =>
      have hsome : (t.nodeAt (p ++ [name])).isSome := by rw [hn]; rfl
      exact absurd (hasDirectory_of_isSome hsome) h
  | cons below rest ih =>
    have hstep : ¬ t.hasDirectory (p ++ [name]) := fun hd => by
      have hsome : (t.nodeAt (p ++ [name])).isSome := by rw [show t.nodeAt _ = _ from hd]; rfl
      exact h (hasDirectory_of_isSome hsome)
    simpa using ih hstep below

/-- Trees that answer alike are equal. -/
theorem ext_nodeAt {s t : Tree} (h : ∀ p, s.nodeAt p = t.nodeAt p) : s = t := by
  obtain ⟨es, hes, _, _⟩ := s
  obtain ⟨ds, hds, _, _⟩ := t
  obtain rfl : es = ds := eq_of_lookUp_eq hes hds h
  rfl

/-- The tree of an empty root directory. -/
def bare : Tree where
  entries := [([], .directory)]
  ordered := by simp [Ordered]
  rooted := rfl
  grounded := fun p name h => by
    have hne : ([] : Place) ≠ p ++ [name] := by simp
    simp [lookUp, hne] at h

instance : Inhabited Tree := ⟨bare⟩

/-! ## Section 4: Putting and dropping -/

/-- May `n` be put at `p`? The place must lie in a directory, and a
    directory stays one. -/
def Admits (t : Tree) (p : Place) (n : Node) : Prop :=
  p ≠ [] ∧ t.hasDirectory p.dropLast ∧ (t.hasDirectory p → n = .directory)

instance (t : Tree) (p : Place) (n : Node) : Decidable (t.Admits p n) :=
  inferInstanceAs (Decidable (_ ∧ _ ∧ _))

/-- The tree with `n` at `p`, or the tree as it is if it does not admit
    that. -/
def put (t : Tree) (p : Place) (n : Node) : Tree :=
  if h : t.Admits p n then
    { entries := enter p n t.entries
      ordered := ordered_enter p n t.ordered
      rooted := by rw [lookUp_enter, if_neg h.1]; exact t.rooted
      grounded := by
        intro q name hq
        rw [lookUp_enter] at hq ⊢
        have hdir : t.hasDirectory q := by
          split at hq
          · next he => subst he; simpa using h.2.1
          · exact t.grounded q name hq
        split
        · next he => subst he; rw [h.2.2 hdir]
        · exact hdir }
  else t

/-- Putting a node changes what is at its own place only. -/
theorem nodeAt_put {t : Tree} {p : Place} {n : Node} (h : t.Admits p n) (q : Place) :
    (t.put p n).nodeAt q = if p = q then some n else t.nodeAt q := by
  rw [put, dif_pos h]; exact lookUp_enter p q n t.entries

/-- The tree without the entry at `p` and all that is below it. The root
    cannot be dropped. -/
def drop (t : Tree) (p : Place) : Tree :=
  if h : p = [] then t
  else
    { entries := t.entries.filter fun e => !isWithin p e.1
      ordered := List.Pairwise.sublist List.filter_sublist t.ordered
      rooted := by
        rw [lookUp_filter, if_neg]
        · exact t.rooted
        · simpa [isWithin] using Ne.symm h
      grounded := by
        intro q name hq
        rw [lookUp_filter] at hq ⊢
        split at hq
        · simp at hq
        · next hn =>
          rw [if_neg fun hp => hn (isWithin_append hp [name])]
          exact t.grounded q name hq }

end Tree

end TestRig
