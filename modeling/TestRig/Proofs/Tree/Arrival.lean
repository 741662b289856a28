import TestRig.Tree.Edit

/-! # Where a walk arrives

    `Tree.walk` is two nested recursions, one over the links that may still
    be followed and one over the names. Proofs about it go by one
    induction over a relation instead:

    * `Tree.Arrives`: a walk ends at a spot. One constructor for each kind
      of name, so what a walk can do is said once.
    * `Tree.Follows`: names are followed as directories. This is the part
      of a walk before its last name.

    `walk_eq_ok_iff` ties the relation to the walk, `arrives_concat_iff`
    splits a walk at its last name, and `Follows.unique` says that names
    lead to one directory at most. -/

namespace TestRig.Tree

/-! ## Section 1: Names and what a directory holds -/

/-- A name that stands for an entry, and not for the directory itself or
    its parent. -/
def IsEntryName (name : Name) : Prop := name ≠ dot ∧ name ≠ dotDot

instance (name : Name) : Decidable (IsEntryName name) :=
  inferInstanceAs (Decidable (_ ∧ _))

theorem isEntryName_cases (name : Name) : name = dot ∨ name = dotDot ∨ IsEntryName name := by
  by_cases h : name = dot
  · exact .inl h
  · by_cases h' : name = dotDot
    · exact .inr (.inl h')
    · exact .inr (.inr ⟨h, h'⟩)

theorem child_eq_ok_iff {t : Tree} {dir : Place} {name : Name} {found : Option Node} :
    t.child dir name = .ok found ↔
      t.hasDirectory dir ∧ name.length ≤ nameLimit ∧ t.nodeAt (dir ++ [name]) = found := by
  unfold child
  split
  · next h => simp [h]
  · next h =>
    have hdir : t.hasDirectory dir := Decidable.not_not.mp h
    split
    · next hlong => simp [Nat.not_le.mpr hlong]
    · next hshort => simp [hdir, Nat.le_of_not_lt hshort]

/-- A node under a name is found there, since only directories hold names. -/
theorem child_eq_of_nodeAt {t : Tree} {dir : Place} {name : Name} {node : Node}
    (hlen : name.length ≤ nameLimit) (h : t.nodeAt (dir ++ [name]) = some node) :
    t.child dir name = .ok (some node) := by
  have hdir : t.hasDirectory dir := hasDirectory_of_isSome (by rw [h]; rfl)
  exact child_eq_ok_iff.mpr ⟨hdir, hlen, h⟩

/-! ## Section 2: The two relations -/

/-- May a walk end at a last name under which `found` is? -/
def Settles : Purpose → (slashed : Bool) → (found : Option Node) → Prop
  | .makeDirectory, _, _ => True
  | .createFile, slashed, found => slashed = false ∧ ∀ target, found ≠ some (.link target)
  | .look, slashed, found =>
    (∀ target, found ≠ some (.link target)) ∧ (slashed = true → found = some .directory)

/-- Is a link under the last name followed? -/
def Redirects : Purpose → (slashed : Bool) → Prop
  | .makeDirectory, _ => False
  | .createFile, slashed => slashed = false
  | .look, _ => True

theorem not_redirects_makeDirectory (slashed : Bool) : ¬ Redirects .makeDirectory slashed := id

/-- Without a separator after it, a name that is not redirected settles. -/
theorem settles_of_not_link {purpose : Purpose} {found : Option Node}
    (h : Redirects purpose false → ∀ target, found ≠ some (.link target)) :
    Settles purpose false found := by
  cases purpose with
  | makeDirectory => trivial
  | createFile => exact ⟨rfl, h rfl⟩
  | look => exact ⟨h trivial, nofun⟩

/-- A walk along `names` from `here` ends at a spot, with at most `links`
    links followed. -/
inductive Arrives (t : Tree) (purpose : Purpose) :
    (links : Nat) → (slashed : Bool) → Place → List Name → Spot → Prop where
  | itself {n s here} : Arrives t purpose n s here [] (.itself here)
  | dot {n s here rest spot} :
      Arrives t purpose n s here rest spot → Arrives t purpose n s here (TestRig.dot :: rest) spot
  | dotDot {n s here rest spot} :
      Arrives t purpose n s here.dropLast rest spot →
      Arrives t purpose n s here (TestRig.dotDot :: rest) spot
  | last {n s here name found} :
      IsEntryName name → t.child here name = .ok found → Settles purpose s found →
      Arrives t purpose n s here [name] (.entry here name found)
  | lastLink {n s here name target spot} :
      IsEntryName name → t.child here name = .ok (some (.link target)) → Redirects purpose s →
      Arrives t purpose n (s || target.endsInSlash) (start here target) target.names spot →
      Arrives t purpose (n + 1) s here [name] spot
  | down {n s here name rest spot} :
      rest ≠ [] → IsEntryName name → t.child here name = .ok (some .directory) →
      Arrives t purpose n s (here ++ [name]) rest spot →
      Arrives t purpose n s here (name :: rest) spot
  | link {n s here name rest target spot} :
      rest ≠ [] → IsEntryName name → t.child here name = .ok (some (.link target)) →
      Arrives t purpose n s (start here target) (target.names ++ rest) spot →
      Arrives t purpose (n + 1) s here (name :: rest) spot

/-- Followed as directories, `names` lead from `here` to `dir`, and `left`
    of the links that may be followed are left then. -/
inductive Follows (t : Tree) :
    (links : Nat) → Place → List Name → (left : Nat) → (dir : Place) → Prop where
  | done {n here} : Follows t n here [] n here
  | dot {n here rest m d} : Follows t n here rest m d → Follows t n here (TestRig.dot :: rest) m d
  | dotDot {n here rest m d} :
      Follows t n here.dropLast rest m d → Follows t n here (TestRig.dotDot :: rest) m d
  | down {n here name rest m d} :
      IsEntryName name → name.length ≤ nameLimit → t.hasDirectory (here ++ [name]) →
      Follows t n (here ++ [name]) rest m d → Follows t n here (name :: rest) m d
  | link {n here name rest target m d} :
      IsEntryName name → name.length ≤ nameLimit → t.nodeAt (here ++ [name]) = some (.link target) →
      Follows t n (start here target) (target.names ++ rest) m d →
      Follows t (n + 1) here (name :: rest) m d

/-! ## Section 3: The relation and the walk -/

section walk

variable {t : Tree} {purpose : Purpose} {slashed : Bool} {links : Nat} {here : Place}
  {name : Name} {rest : List Name} {spot : Spot}

/-- The walk depends on the names only through the next leg. -/
theorem walk_congr {here' : Place} {names names' : List Name}
    (h : t.leg purpose slashed here names = t.leg purpose slashed here' names') :
    t.walk purpose links slashed here names = t.walk purpose links slashed here' names' := by
  unfold walk
  rw [h]

theorem walk_nil : t.walk purpose links slashed here [] = .ok (.itself here) := by
  unfold walk
  simp [leg]

theorem walk_dot :
    t.walk purpose links slashed here (dot :: rest) = t.walk purpose links slashed here rest :=
  walk_congr (by simp [leg])

theorem walk_dotDot :
    t.walk purpose links slashed here (dotDot :: rest)
      = t.walk purpose links slashed here.dropLast rest :=
  walk_congr (by simp [leg, dot, dotDot])

/-- What happens at a name that is not the last one. -/
theorem leg_cons (hname : IsEntryName name) (hrest : rest ≠ []) :
    t.leg purpose slashed here (name :: rest) =
      match t.child here name with
      | .error e => .failed e
      | .ok none => .failed .noEntry
      | .ok (some .directory) => t.leg purpose slashed (here ++ [name]) rest
      | .ok (some (.file ..)) => .failed .notDirectory
      | .ok (some (.link target)) => .redirected here target rest := by
  rw [leg, if_neg hname.1, if_neg hname.2]
  exact if_neg hrest

theorem leg_last (hname : IsEntryName name) :
    t.leg purpose slashed here [name] = t.lastLeg purpose slashed here name := by
  rw [leg, if_neg hname.1, if_neg hname.2, if_pos rfl]

theorem walk_down (hname : IsEntryName name) (hrest : rest ≠ [])
    (h : t.child here name = .ok (some .directory)) :
    t.walk purpose links slashed here (name :: rest)
      = t.walk purpose links slashed (here ++ [name]) rest :=
  walk_congr (by rw [leg_cons hname hrest, h])

theorem walk_link {target : Path} (hname : IsEntryName name) (hrest : rest ≠ [])
    (h : t.child here name = .ok (some (.link target))) :
    t.walk purpose (links + 1) slashed here (name :: rest)
      = t.walk purpose links slashed (start here target) (target.names ++ rest) := by
  have hleg : t.leg purpose slashed here (name :: rest) = .redirected here target rest := by
    rw [leg_cons hname hrest, h]
  have hempty : rest.isEmpty = false := by simpa using hrest
  rw [walk, hleg]
  simp [hempty]

theorem lastLeg_eq_arrived_iff :
    t.lastLeg purpose slashed here name = .arrived spot ↔
      ∃ found, t.child here name = .ok found ∧ Settles purpose slashed found ∧
        spot = .entry here name found := by
  unfold lastLeg
  cases t.child here name with
  | error e => cases purpose <;> cases slashed <;> simp
  | ok found =>
    rcases found with _ | _ | _ | _ <;> cases purpose <;> cases slashed <;>
      simp [Settles, eq_comm]

theorem lastLeg_eq_redirected_iff {dir : Place} {target : Path} :
    t.lastLeg purpose slashed here name = .redirected dir target rest ↔
      t.child here name = .ok (some (.link target)) ∧ Redirects purpose slashed ∧
        dir = here ∧ rest = [] := by
  unfold lastLeg
  cases t.child here name with
  | error e => cases purpose <;> cases slashed <;> simp
  | ok found =>
    rcases found with _ | _ | _ | _ <;> cases purpose <;> cases slashed <;>
      simp [Redirects, eq_comm, and_left_comm]

theorem walk_last {found : Option Node} (hname : IsEntryName name)
    (h : t.child here name = .ok found) (hs : Settles purpose slashed found) :
    t.walk purpose links slashed here [name] = .ok (.entry here name found) := by
  have hleg := lastLeg_eq_arrived_iff.mpr ⟨found, h, hs, rfl⟩
  rw [walk, leg_last hname, hleg]

theorem walk_lastLink {target : Path} (hname : IsEntryName name)
    (h : t.child here name = .ok (some (.link target))) (hr : Redirects purpose slashed) :
    t.walk purpose (links + 1) slashed here [name]
      = t.walk purpose links (slashed || target.endsInSlash) (start here target) target.names := by
  have hleg := lastLeg_eq_redirected_iff.mpr ⟨h, hr, rfl, rfl⟩
  rw [walk, leg_last hname, hleg]
  simp

theorem walk_last_error {e : Errno} (hname : IsEntryName name) (h : t.child here name = .error e) :
    t.walk purpose links false here [name] = .error e := by
  have hleg : t.lastLeg purpose false here name = .failed e := by
    unfold lastLeg
    rw [h]
    cases purpose <;> rfl
  rw [walk, leg_last hname, hleg]

/-! ## Section 4: What a successful walk says about its first name -/

theorem walk_last_inv (hname : IsEntryName name)
    (h : t.walk purpose links slashed here [name] = .ok spot) :
    (∃ found, t.child here name = .ok found ∧ Settles purpose slashed found ∧
        spot = .entry here name found) ∨
      ∃ n target, links = n + 1 ∧ t.child here name = .ok (some (.link target)) ∧
        Redirects purpose slashed ∧
        t.walk purpose n (slashed || target.endsInSlash) (start here target) target.names
          = .ok spot := by
  rw [walk, leg_last hname] at h
  split at h
  · next hleg =>
    cases h
    exact .inl (lastLeg_eq_arrived_iff.mp hleg)
  · cases h
  · next dir target rest hleg =>
    obtain ⟨hc, hr, rfl, rfl⟩ := lastLeg_eq_redirected_iff.mp hleg
    cases links with
    | zero => cases h
    | succ n => exact .inr ⟨n, target, rfl, hc, hr, by simpa using h⟩

theorem walk_cons_inv (hname : IsEntryName name) (hrest : rest ≠ [])
    (h : t.walk purpose links slashed here (name :: rest) = .ok spot) :
    (t.child here name = .ok (some .directory) ∧
        t.walk purpose links slashed (here ++ [name]) rest = .ok spot) ∨
      ∃ n target, links = n + 1 ∧ t.child here name = .ok (some (.link target)) ∧
        t.walk purpose n slashed (start here target) (target.names ++ rest) = .ok spot := by
  cases hc : t.child here name with
  | error e =>
    rw [walk, leg_cons hname hrest, hc] at h
    cases h
  | ok found =>
    rcases found with _ | _ | _ | target
    · rw [walk, leg_cons hname hrest, hc] at h
      cases h
    · rw [walk_down hname hrest hc] at h
      exact .inl ⟨rfl, h⟩
    · rw [walk, leg_cons hname hrest, hc] at h
      cases h
    · cases links with
      | zero =>
        rw [walk, leg_cons hname hrest, hc] at h
        cases h
      | succ n =>
        rw [walk_link hname hrest hc] at h
        exact .inr ⟨n, target, rfl, rfl, h⟩

end walk

/-- A walk that succeeds arrives. The outer induction is on the links that
    may be followed, since the names grow by those of a link's target. -/
theorem arrives_of_walk {t : Tree} {purpose : Purpose} {links : Nat} {slashed : Bool}
    {here : Place} {names : List Name} {spot : Spot}
    (h : t.walk purpose links slashed here names = .ok spot) :
    t.Arrives purpose links slashed here names spot := by
  induction links using Nat.strongRecOn generalizing slashed here names with
  | ind links ihLinks =>
  induction names generalizing here with
  | nil =>
    rw [walk_nil] at h
    cases h
    exact .itself
  | cons name rest ih =>
    rcases isEntryName_cases name with rfl | rfl | hname
    · rw [walk_dot] at h
      exact .dot (ih h)
    · rw [walk_dotDot] at h
      exact .dotDot (ih h)
    · by_cases hrest : rest = []
      · subst hrest
        rcases walk_last_inv hname h with ⟨found, hc, hs, rfl⟩ | ⟨n, target, rfl, hc, hr, hw⟩
        · exact .last hname hc hs
        · exact .lastLink hname hc hr (ihLinks n (by omega) hw)
      · rcases walk_cons_inv hname hrest h with ⟨hc, hw⟩ | ⟨n, target, rfl, hc, hw⟩
        · exact .down hrest hname hc (ih hw)
        · exact .link hrest hname hc (ihLinks n (by omega) hw)

/-- The walk and the relation say the same. -/
theorem walk_eq_ok_iff {t : Tree} {purpose : Purpose} {links : Nat} {slashed : Bool}
    {here : Place} {names : List Name} {spot : Spot} :
    t.walk purpose links slashed here names = .ok spot ↔
      t.Arrives purpose links slashed here names spot := by
  refine ⟨arrives_of_walk, fun h => ?_⟩
  induction h with
  | itself => exact walk_nil
  | dot _ ih => rw [walk_dot]; exact ih
  | dotDot _ ih => rw [walk_dotDot]; exact ih
  | last hname hc hs => exact walk_last hname hc hs
  | lastLink hname hc hr _ ih => rw [walk_lastLink hname hc hr]; exact ih
  | down hrest hname hc _ ih => rw [walk_down hname hrest hc]; exact ih
  | link hrest hname hc _ ih => rw [walk_link hname hrest hc]; exact ih

/-! ## Section 5: Splitting a walk at its last name -/

/-- Names that are followed lead a walk on to the last name. -/
theorem Follows.walk_concat {t : Tree} {purpose : Purpose} {links left : Nat} {slashed : Bool}
    {here d : Place} {names : List Name} {last : Name}
    (hf : t.Follows links here names left d) :
    t.walk purpose links slashed here (names ++ [last]) = t.walk purpose left slashed d [last] := by
  induction hf with
  | done => rfl
  | dot _ ih => rw [List.cons_append, walk_dot, ih]
  | dotDot _ ih => rw [List.cons_append, walk_dotDot, ih]
  | down hname hlen hdir _ ih =>
    rw [List.cons_append, walk_down hname (by simp) (child_eq_of_nodeAt hlen hdir), ih]
  | link hname hlen hlink _ ih =>
    rw [List.cons_append, walk_link hname (by simp) (child_eq_of_nodeAt hlen hlink),
      ← List.append_assoc, ih]

theorem Arrives.exists_follows {t : Tree} {purpose : Purpose} {links : Nat} {slashed : Bool}
    {here : Place} {all names : List Name} {last : Name} {spot : Spot}
    (h : t.Arrives purpose links slashed here all spot) (hall : all = names ++ [last]) :
    ∃ left d, t.Follows links here names left d ∧ t.Arrives purpose left slashed d [last] spot := by
  induction h generalizing names with
  | itself => simp at hall
  | @dot n s here rest spot hr ih =>
    cases names with
    | nil =>
      obtain ⟨rfl, rfl⟩ := List.cons.inj hall
      exact ⟨n, here, .done, .dot hr⟩
    | cons name names =>
      obtain ⟨rfl, hrest⟩ := List.cons.inj hall
      obtain ⟨left, d, hf, ha⟩ := ih hrest
      exact ⟨left, d, .dot hf, ha⟩
  | @dotDot n s here rest spot hr ih =>
    cases names with
    | nil =>
      obtain ⟨rfl, rfl⟩ := List.cons.inj hall
      exact ⟨n, here, .done, .dotDot hr⟩
    | cons name names =>
      obtain ⟨rfl, hrest⟩ := List.cons.inj hall
      obtain ⟨left, d, hf, ha⟩ := ih hrest
      exact ⟨left, d, .dotDot hf, ha⟩
  | @last n s here name found hname hc hs =>
    obtain ⟨rfl, rfl⟩ : names = [] ∧ name = last := by
      cases names with
      | nil => simpa using hall
      | cons m ms => simp at hall
    exact ⟨n, here, .done, .last hname hc hs⟩
  | @lastLink n s here name target spot hname hc hr ha ih =>
    obtain ⟨rfl, rfl⟩ : names = [] ∧ name = last := by
      cases names with
      | nil => simpa using hall
      | cons m ms => simp at hall
    exact ⟨n + 1, here, .done, .lastLink hname hc hr ha⟩
  | @down n s here name rest spot hrest hname hc ha ih =>
    cases names with
    | nil => exact absurd (List.cons.inj hall).2 hrest
    | cons m ms =>
      obtain ⟨rfl, htail⟩ := List.cons.inj hall
      obtain ⟨left, d, hf, ha⟩ := ih htail
      obtain ⟨-, hlen, hnode⟩ := child_eq_ok_iff.mp hc
      exact ⟨left, d, .down hname hlen hnode hf, ha⟩
  | @link n s here name rest target spot hrest hname hc ha ih =>
    -- the names grow here, which is why the last one is fixed by an equation
    cases names with
    | nil => exact absurd (List.cons.inj hall).2 hrest
    | cons m ms =>
      rw [List.cons_append] at hall
      obtain ⟨rfl, htail⟩ := List.cons.inj hall
      obtain ⟨left, d, hf, ha⟩ := @ih (target.names ++ ms) (by rw [htail, List.append_assoc])
      obtain ⟨-, hlen, hnode⟩ := child_eq_ok_iff.mp hc
      exact ⟨left, d, .link hname hlen hnode hf, ha⟩

/-- A walk follows all names before the last one as directories. -/
theorem arrives_concat_iff {t : Tree} {purpose : Purpose} {links : Nat} {slashed : Bool}
    {here : Place} {names : List Name} {last : Name} {spot : Spot} :
    t.Arrives purpose links slashed here (names ++ [last]) spot ↔
      ∃ left d, t.Follows links here names left d ∧
        t.Arrives purpose left slashed d [last] spot := by
  refine ⟨fun h => h.exists_follows rfl, fun ⟨left, d, hf, ha⟩ => ?_⟩
  rw [← walk_eq_ok_iff, hf.walk_concat, walk_eq_ok_iff]
  exact ha

/-! ## Section 6: Where a walk ends -/

/-- A walk along one name that is not redirected. -/
theorem arrives_last_iff {t : Tree} {purpose : Purpose} {links : Nat} {slashed : Bool}
    {here : Place} {name : Name} {spot : Spot} (hname : IsEntryName name)
    (hr : Redirects purpose slashed → ∀ target, t.nodeAt (here ++ [name]) ≠ some (.link target)) :
    t.Arrives purpose links slashed here [name] spot ↔
      ∃ found, t.child here name = .ok found ∧ Settles purpose slashed found ∧
        spot = .entry here name found := by
  constructor
  · intro h
    rcases walk_last_inv hname (walk_eq_ok_iff.mpr h) with hlast | ⟨n, target, -, hc, hred, -⟩
    · exact hlast
    · obtain ⟨-, -, hnode⟩ := child_eq_ok_iff.mp hc
      exact absurd hnode (hr hred target)
  · rintro ⟨found, hc, hs, rfl⟩
    exact .last hname hc hs

/-- A walk that ends in `.` or `..` ends at a directory itself. -/
theorem Arrives.itself_of_last {t : Tree} {purpose : Purpose} {links : Nat} {slashed : Bool}
    {here : Place} {name : Name} {spot : Spot}
    (h : t.Arrives purpose links slashed here [name] spot)
    (hname : ¬ IsEntryName name) : ∃ dir, spot = .itself dir := by
  cases h with
  | dot h => cases h; exact ⟨_, rfl⟩
  | dotDot h => cases h; exact ⟨_, rfl⟩
  | last hn => exact absurd hn hname
  | lastLink hn => exact absurd hn hname
  | down hrest => exact absurd rfl hrest
  | link hrest => exact absurd rfl hrest

/-- A file cannot be created under a name with a separator after it. -/
theorem Arrives.itself_of_slashed {t : Tree} {links : Nat} {slashed : Bool} {here : Place}
    {names : List Name} {spot : Spot} (h : t.Arrives .createFile links slashed here names spot)
    (hs : slashed = true) : ∃ dir, spot = .itself dir := by
  induction h with
  | @itself n s here => exact ⟨here, rfl⟩
  | dot _ ih => exact ih hs
  | dotDot _ ih => exact ih hs
  | last _ _ hset =>
    obtain ⟨hfalse, -⟩ := hset
    rw [hs] at hfalse
    cases hfalse
  | lastLink _ _ hr =>
    have hfalse : _ = false := hr
    rw [hs] at hfalse
    cases hfalse
  | down _ _ _ _ ih => exact ih hs
  | link _ _ _ _ ih => exact ih hs

/-- The entry at which a walk ends is what its directory holds. -/
theorem Arrives.entry {t : Tree} {purpose : Purpose} {links : Nat} {slashed : Bool} {here : Place}
    {names : List Name} {spot : Spot} (h : t.Arrives purpose links slashed here names spot)
    {dir : Place} {name : Name} {found : Option Node} (hspot : spot = .entry dir name found) :
    t.hasDirectory dir ∧ t.nodeAt (dir ++ [name]) = found ∧ ∃ s, Settles purpose s found := by
  induction h with
  | itself => cases hspot
  | dot _ ih => exact ih hspot
  | dotDot _ ih => exact ih hspot
  | @last n s here name found _ hc hset =>
    cases hspot
    obtain ⟨hdir, -, hnode⟩ := child_eq_ok_iff.mp hc
    exact ⟨hdir, hnode, s, hset⟩
  | lastLink _ _ _ _ ih => exact ih hspot
  | down _ _ _ _ ih => exact ih hspot
  | link _ _ _ _ ih => exact ih hspot

/-! ## Section 7: The directory that names lead to -/

theorem Follows.append {t : Tree} {links middle left : Nat} {here d e : Place}
    {names more : List Name} (h : t.Follows links here names middle d)
    (h' : t.Follows middle d more left e) : t.Follows links here (names ++ more) left e := by
  induction h with
  | done => exact h'
  | dot _ ih => exact .dot (ih h')
  | dotDot _ ih => exact .dotDot (ih h')
  | down hname hlen hdir _ ih => exact .down hname hlen hdir (ih h')
  | link hname hlen hlink _ ih =>
    -- the names of the target come before those that are left
    rw [List.cons_append]
    exact .link hname hlen hlink (by rw [← List.append_assoc]; exact ih h')

theorem dot_ne_dotDot : dot ≠ dotDot := by decide

/-- Names lead to one directory at most. -/
theorem Follows.unique {t : Tree} {links left left' : Nat} {here d d' : Place} {names : List Name}
    (h : t.Follows links here names left d) (h' : t.Follows links here names left' d') :
    left = left' ∧ d = d' := by
  induction h generalizing left' d' with
  | done => cases h'; exact ⟨rfl, rfl⟩
  | @dot n here rest m d _ ih =>
    generalize hall : TestRig.dot :: rest = all at h'
    cases h' with
    | done => cases hall
    | dot h' => cases hall; exact ih h'
    | dotDot h' => exact absurd (List.cons.inj hall).1 dot_ne_dotDot
    | down hname => exact absurd (List.cons.inj hall).1.symm hname.1
    | link hname => exact absurd (List.cons.inj hall).1.symm hname.1
  | @dotDot n here rest m d _ ih =>
    generalize hall : TestRig.dotDot :: rest = all at h'
    cases h' with
    | done => cases hall
    | dot h' => exact absurd (List.cons.inj hall).1.symm dot_ne_dotDot
    | dotDot h' => cases hall; exact ih h'
    | down hname => exact absurd (List.cons.inj hall).1.symm hname.2
    | link hname => exact absurd (List.cons.inj hall).1.symm hname.2
  | @down n here name rest m d hname _ hdir _ ih =>
    cases h' with
    | dot => exact absurd rfl hname.1
    | dotDot => exact absurd rfl hname.2
    | down _ _ _ h' => exact ih h'
    | link _ _ hlink => rw [hdir] at hlink; cases hlink
  | @link n here name rest target m d hname _ hlink _ ih =>
    cases h' with
    | dot => exact absurd rfl hname.1
    | dotDot => exact absurd rfl hname.2
    | down _ _ hdir => rw [hdir] at hlink; cases hlink
    | link _ _ hlink' h' =>
      -- both walks met the same link, so they go on with the same names
      rw [hlink] at hlink'
      cases hlink'
      exact ih h'

theorem Follows.left_le {t : Tree} {links left : Nat} {here d : Place} {names : List Name}
    (h : t.Follows links here names left d) : left ≤ links := by
  induction h with
  | done => exact Nat.le_refl _
  | dot _ ih => exact ih
  | dotDot _ ih => exact ih
  | down _ _ _ _ ih => exact ih
  | link _ _ _ _ ih => exact Nat.le_succ_of_le ih

/-- Links that may be followed besides are left in the end. -/
theorem Follows.more {t : Tree} {links left : Nat} {here d : Place} {names : List Name}
    (h : t.Follows links here names left d) (k : Nat) :
    t.Follows (links + k) here names (left + k) d := by
  induction h with
  | done => exact .done
  | dot _ ih => exact .dot ih
  | dotDot _ ih => exact .dotDot ih
  | down hname hlen hdir _ ih => exact .down hname hlen hdir ih
  | link hname hlen hlink _ ih =>
    rw [Nat.add_right_comm]
    exact .link hname hlen hlink ih

/-- Names lead to one directory, however many links may be followed. -/
theorem Follows.dir_unique {t : Tree} {links links' left left' : Nat} {here d d' : Place}
    {names : List Name} (h : t.Follows links here names left d)
    (h' : t.Follows links' here names left' d') : d = d' := by
  have hmore := h.more links'
  have hmore' := h'.more links
  rw [Nat.add_comm] at hmore'
  exact (hmore.unique hmore').2

/-- Followed as directories, the names of the path lead to `d`. -/
def LeadsTo (t : Tree) (cwd : Place) (path : Path) (d : Place) : Prop :=
  ∃ left, t.Follows linkLimit (start cwd path) path.names left d

end TestRig.Tree
