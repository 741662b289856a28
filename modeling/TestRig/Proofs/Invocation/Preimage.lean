import TestRig.Invocation

/-! # Which arguments are read as what

    Reading arguments has four kinds of answers: a command with the
    arguments after it, no command at all, and two refusals. This module
    says of each answer which lists of arguments it is given for, so the
    answer can be told from the list without following the reading.

    * `Spells`: the three ways to write a command with `rest` after it.
    * `IsBare`: the ways to write nothing.
    * `OpensWithOption`: what is taken for an option in the place of a
      command.

    Only the position of a `--` makes the three ways differ: one that comes
    before the rest is dropped, and only one. -/

namespace TestRig

/-! ## Section 1: Names of commands -/

/-- The byte that options start with. -/
def hyphen : UInt8 := 0x2D

namespace Command

theorem ofName?_name (c : Command) : ofName? c.name = some c := by
  cases c <;> decide +kernel

theorem ofName?_eq_some_iff {s : Bytes} {c : Command} : ofName? s = some c ↔ s = c.name := by
  constructor
  · intro h
    have hname := List.find?_some h
    exact (of_decide_eq_true hname).symm
  · rintro rfl
    exact ofName?_name c

/-- No name of a command could be mistaken for a separator or an option. -/
theorem name_head (c : Command) : c.name.head? ≠ some hyphen := by
  cases c <;> decide +kernel

end Command

namespace Invocation

/-! ## Section 2: Lists of arguments -/

/-- The arguments spell the command `c` with `rest` after it. -/
def Spells (c : Command) (rest : List Bytes) (args : List Bytes) : Prop :=
  (args = [c.name] ++ rest ∧ rest.head? ≠ some separator) ∨
    args = [c.name, separator] ++ rest ∨
    args = [separator, c.name] ++ rest

theorem looksLikeOption_iff {arg : Bytes} :
    looksLikeOption arg = true ↔ arg.head? = some hyphen ∧ arg ≠ [hyphen] := by
  cases arg with
  | nil => simp [looksLikeOption]
  | cons b rest => cases rest <;> simp [looksLikeOption, hyphen]

theorem head_separator : separator.head? = some hyphen := by decide +kernel

theorem name_ne_separator (c : Command) : c.name ≠ separator := by
  intro h
  exact c.name_head (h ▸ head_separator)

theorem not_looksLikeOption_name (c : Command) : looksLikeOption c.name = false := by
  rw [Bool.eq_false_iff]
  intro h
  exact c.name_head (looksLikeOption_iff.mp h).1

/-! ## Section 3: One case of the reading each -/

section cases

variable {arg word : Bytes} {args rest more : List Bytes}

theorem ofArguments_separator :
    ofArguments (separator :: word :: more) = ofWords word more := by
  simp [ofArguments]

theorem ofArguments_option (hsep : arg ≠ separator) (hopt : looksLikeOption arg = true) :
    ofArguments (arg :: more) = .error .unknownArgument := by
  simp [ofArguments, hsep, hopt]

theorem ofArguments_word (hsep : arg ≠ separator) (hopt : ¬ looksLikeOption arg = true) :
    ofArguments (arg :: more) = ofWords arg (dropSeparator more) := by
  simp [ofArguments, hsep, hopt]

theorem ofWords_eq_ok_iff {i : Invocation} :
    ofWords word rest = .ok i ↔ ∃ c, word = c.name ∧ i = ⟨some c, rest⟩ := by
  unfold ofWords
  cases h : Command.ofName? word with
  | none =>
    have hno : ∀ c : Command, word ≠ c.name := fun c e => by
      rw [Command.ofName?_eq_some_iff.mpr e] at h
      cases h
    simp [hno]
  | some c =>
    obtain rfl := Command.ofName?_eq_some_iff.mp h
    constructor
    · intro he
      cases he
      exact ⟨c, rfl, rfl⟩
    · rintro ⟨d, hd, rfl⟩
      have hcd := Command.ofName?_eq_some_iff.mpr hd
      rw [h] at hcd
      cases hcd
      rfl

/-- What is left once a separator in front is dropped. -/
theorem dropSeparator_eq_iff :
    dropSeparator args = rest ↔
      (args = rest ∧ rest.head? ≠ some separator) ∨ args = separator :: rest := by
  cases args with
  | nil =>
    simp only [dropSeparator]
    constructor
    · rintro rfl
      exact .inl ⟨rfl, nofun⟩
    · rintro (⟨rfl, -⟩ | h)
      · rfl
      · cases h
  | cons arg more =>
    simp only [dropSeparator]
    by_cases harg : arg = separator
    · subst harg
      rw [if_pos rfl]
      constructor
      · rintro rfl
        exact .inr rfl
      · rintro (⟨rfl, hhead⟩ | h)
        · exact absurd rfl hhead
        · exact (List.cons.inj h).2
    · rw [if_neg harg]
      constructor
      · rintro rfl
        exact .inl ⟨rfl, fun h => harg (Option.some.inj h)⟩
      · rintro (⟨h, -⟩ | h)
        · exact h
        · exact absurd (List.cons.inj h).1 harg

end cases

/-! ## Section 4: Each answer and its arguments -/

section answers

variable {args rest : List Bytes}

theorem ofArguments_eq_command_iff {c : Command} :
    ofArguments args = .ok ⟨some c, rest⟩ ↔ Spells c rest args := by
  unfold Spells
  cases args with
  | nil => simp [ofArguments]
  | cons arg more =>
    by_cases hsep : arg = separator
    · -- options are over, so the next argument must be the name
      subst hsep
      have hname : separator ≠ c.name := (name_ne_separator c).symm
      cases more with
      | nil => simp [ofArguments, hname]
      | cons word more =>
        rw [ofArguments_separator, ofWords_eq_ok_iff]
        constructor
        · rintro ⟨d, rfl, h⟩
          cases h
          exact .inr (.inr rfl)
        · rintro (⟨h, -⟩ | h | h)
          · exact absurd (List.cons.inj h).1 hname
          · exact absurd (List.cons.inj h).1 hname
          · cases h
            exact ⟨c, rfl, rfl⟩
    · by_cases hopt : looksLikeOption arg = true
      · have hname : arg ≠ c.name := by
          rintro rfl
          rw [not_looksLikeOption_name] at hopt
          cases hopt
        rw [ofArguments_option hsep hopt]
        simp [hname, hsep]
      · rw [ofArguments_word hsep hopt, ofWords_eq_ok_iff]
        constructor
        · rintro ⟨d, rfl, h⟩
          cases h
          rcases dropSeparator_eq_iff.mp rfl with ⟨h, hhead⟩ | h
          · exact .inl ⟨congrArg (c.name :: ·) h, hhead⟩
          · exact .inr (.inl (congrArg (c.name :: ·) h))
        · rintro (⟨h, hhead⟩ | h | h)
          · obtain ⟨rfl, rfl⟩ := List.cons.inj h
            have hdrop : dropSeparator more = more := dropSeparator_eq_iff.mpr (.inl ⟨rfl, hhead⟩)
            exact ⟨c, rfl, by rw [hdrop]⟩
          · obtain ⟨rfl, hmore⟩ := List.cons.inj h
            have hdrop : dropSeparator more = rest := dropSeparator_eq_iff.mpr (.inr hmore)
            exact ⟨c, rfl, by rw [hdrop]⟩
          · exact absurd (List.cons.inj h).1 hsep

end answers

/-- A second separator is an argument like any other. -/
example : (parse [text "testrig", text "setup", text "--", text "--"]).toOption
    = some ⟨some .setup, [text "--"]⟩ := by decide +kernel

end Invocation

end TestRig
