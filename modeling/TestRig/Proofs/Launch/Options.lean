import TestRig.Proofs.Launch.Child
import TestRig.Proofs.Layout.Paths

/-! # Options of a command line

    The runner is told what to do by pairs of words: a flag, and the word
    after it. Whoever looks for a flag compares word by word, so a path that
    is spelled like a flag would be taken for one. No path of a layout is:
    one of the two that are passed on holds a separator, the other one a
    full stop, and no flag holds either, whatever the root and the URLs are.

    * `CommandLine.words`: the words of a list of options.
    * `count_words`, `wordAfter_words`: what a search among them finds.
    * `CommandLine.ReadsAs`: a command line says the options and no others.
    * `readsAs_options`: that both command lines of a layout do so. -/

namespace TestRig

namespace CommandLine

/-! ## Section 1: Searching among the words of options -/

/-- Each flag with its value after it. -/
def words : List (Bytes × Bytes) → List Bytes
  | [] => []
  | (flag, value) :: options => flag :: value :: words options

section words

variable {options : List (Bytes × Bytes)} {flag word : Bytes}

theorem mem_words (h : word ∈ words options) : ∃ o ∈ options, word = o.1 ∨ word = o.2 := by
  induction options with
  | nil => cases h
  | cons o options ih =>
    rcases List.mem_cons.mp h with hflag | h
    · exact ⟨o, List.mem_cons_self, .inl hflag⟩
    · rcases List.mem_cons.mp h with hvalue | h
      · exact ⟨o, List.mem_cons_self, .inr hvalue⟩
      · obtain ⟨p, hp, hword⟩ := ih h
        exact ⟨p, List.mem_cons_of_mem _ hp, hword⟩

/-- A flag that is nobody's value stands there as often as it is given. -/
theorem count_words (h : ∀ o ∈ options, o.2 ≠ flag) :
    (words options).count flag = (options.map Prod.fst).count flag := by
  induction options with
  | nil => rfl
  | cons o options ih =>
    have hvalue : o.2 ≠ flag := h o List.mem_cons_self
    have hrest := ih fun p hp => h p (List.mem_cons_of_mem _ hp)
    show (o.1 :: o.2 :: words options).count flag = (o.1 :: options.map Prod.fst).count flag
    simp [List.count_cons, hvalue, hrest]

theorem wordAfter_cons_of_ne {rest : List Bytes} (h : word ≠ flag) :
    wordAfter flag (word :: rest) = wordAfter flag rest := by
  cases rest with
  | nil => rfl
  | cons next rest => rw [wordAfter, if_neg h]

/-- A search for a flag that is nobody's value finds its own value. -/
theorem wordAfter_words (h : ∀ o ∈ options, o.2 ≠ flag) :
    wordAfter flag (words options) = options.lookup flag := by
  induction options with
  | nil => rfl
  | cons o options ih =>
    have hvalue : o.2 ≠ flag := h o List.mem_cons_self
    have hrest := ih fun p hp => h p (List.mem_cons_of_mem _ hp)
    show wordAfter flag (o.1 :: o.2 :: words options) = (o :: options).lookup flag
    by_cases hflag : o.1 = flag
    · rw [wordAfter, if_pos hflag, List.lookup_cons]
      simp [hflag]
    · have hne : (flag == o.1) = false := by simpa using Ne.symm hflag
      rw [wordAfter_cons_of_ne hflag, wordAfter_cons_of_ne hvalue, hrest, List.lookup_cons, hne]

/-- Where every flag is given once, each one has the value it is given with. -/
theorem lookup_of_mem {value : Bytes} (hdistinct : (options.map Prod.fst).Nodup)
    (h : (flag, value) ∈ options) : options.lookup flag = some value := by
  obtain ⟨before, after, rfl⟩ := List.append_of_mem h
  rw [List.map_append, List.nodup_append] at hdistinct
  rw [List.lookup_eq_some_iff]
  refine ⟨before, after, rfl, ?_⟩
  intro p hp
  have hne := hdistinct.2.2 p.1 (List.mem_map_of_mem hp) flag (by simp)
  simpa using hne.symm

end words

/-! ## Section 2: Command lines that can be read back -/

/-- Every flag that one of the command lines uses. -/
def runnerFlags : List Bytes :=
  [text "-jar", text "--port", text "--config", text "--browser", text "--tests"]

/-- A search that goes by single words finds the options, and no others. -/
structure ReadsAs (c : CommandLine) (options : List (Bytes × Bytes)) : Prop where
  /-- No argument is empty. -/
  nonempty : ∀ word ∈ c.args, word ≠ []
  /-- Each flag stands there once, -/
  once : ∀ flag value, (flag, value) ∈ options → c.args.count flag = 1
  /-- and the word after it is its value. -/
  value : ∀ flag value, (flag, value) ∈ options → wordAfter flag c.args = some value
  /-- No other flag stands there at all. -/
  absent : ∀ flag ∈ runnerFlags, flag ∉ options.map Prod.fst → flag ∉ c.args

/-- It is enough that the flags are different ones, and that no value is
    empty or a flag. -/
theorem readsAs_of_words {c : CommandLine} {options : List (Bytes × Bytes)}
    (hargs : c.args = words options)
    (hflags : ∀ o ∈ options, o.1 ∈ runnerFlags) (hdistinct : (options.map Prod.fst).Nodup)
    (hvalues : ∀ o ∈ options, o.2 ≠ [] ∧ o.2 ∉ runnerFlags) : ReadsAs c options := by
  have hclear : ∀ flag ∈ runnerFlags, ∀ o ∈ options, o.2 ≠ flag := by
    intro flag hflag o ho he
    exact (hvalues o ho).2 (he ▸ hflag)
  refine ⟨?nonempty, ?once, ?value, ?absent⟩
  case nonempty =>
    have hnonempty : ∀ flag ∈ runnerFlags, flag ≠ [] := by decide +kernel
    intro word hword
    rw [hargs] at hword
    obtain ⟨o, ho, rfl | rfl⟩ := mem_words hword
    · exact hnonempty _ (hflags o ho)
    · exact (hvalues o ho).1
  case once =>
    intro flag value ho
    have hmem : flag ∈ options.map Prod.fst := List.mem_map_of_mem ho
    rw [hargs, count_words (hclear flag (hflags _ ho)), hdistinct.count, if_pos hmem]
  case value =>
    intro flag value ho
    rw [hargs, wordAfter_words (hclear flag (hflags _ ho))]
    exact lookup_of_mem hdistinct ho
  case absent =>
    intro flag hflag hnot hmem
    rw [hargs] at hmem
    obtain ⟨o, ho, hword | hword⟩ := mem_words hmem
    · exact hnot (hword ▸ List.mem_map_of_mem ho)
    · exact hclear flag hflag o ho hword.symm

/-! ## Section 3: The paths that are passed on -/

/-- A path is told from every flag by one byte that no flag holds. -/
theorem not_flag_of_mem {p : Path} {b : UInt8} (hflags : ∀ flag ∈ runnerFlags, b ∉ flag)
    (h : b ∈ p) : p ≠ [] ∧ p ∉ runnerFlags :=
  ⟨List.ne_nil_of_mem h, fun hflag => hflags p hflag h⟩

section paths

variable (root : Path) (artifacts : Artifacts)

/-- The archive has the directory of the installation before it. -/
theorem runnerJar_not_flag :
    (Layout.resolve root artifacts).runnerJar ≠ [] ∧
      (Layout.resolve root artifacts).runnerJar ∉ runnerFlags := by
  have hflags : ∀ flag ∈ runnerFlags, slash ∉ flag := by decide +kernel
  apply not_flag_of_mem hflags
  rw [Layout.runnerJar_eq]
  simp

/-- The configuration has a full stop in its name. -/
theorem configFile_not_flag :
    (Layout.resolve root artifacts).configFile ≠ [] ∧
      (Layout.resolve root artifacts).configFile ∉ runnerFlags := by
  have hflags : ∀ flag ∈ runnerFlags, 0x2E ∉ flag := by decide +kernel
  have hname : 0x2E ∈ Layout.configName := by decide +kernel
  apply not_flag_of_mem hflags
  rw [Layout.configFile_eq]
  exact List.mem_append_right _ hname

end paths

/-- Both command lines of a layout can be read back, whatever the root and
    the URLs are spelled like. -/
theorem readsAs_options (root : Path) (artifacts : Artifacts) :
    let l := Layout.resolve root artifacts
    ReadsAs (server l)
        [(text "-jar", l.runnerJar), (text "--port", text "2309"),
          (text "--config", l.configFile), (text "--browser", text "google-chrome")] ∧
      ReadsAs (tests l)
        [(text "-jar", l.runnerJar), (text "--config", l.configFile),
          (text "--tests", text "all")] := by
  intro l
  have hrunner := runnerJar_not_flag root artifacts
  have hconfig := configFile_not_flag root artifacts
  have hfixed : ∀ value ∈ [text "2309", text "google-chrome", text "all"],
      value ≠ [] ∧ value ∉ runnerFlags := by decide +kernel
  constructor
  · have hport : decimal serverPort = text "2309" := by decide +kernel
    have hdistinct : [text "-jar", text "--port", text "--config", text "--browser"].Nodup := by
      decide +kernel
    rw [server, hport]
    refine readsAs_of_words rfl ?_ hdistinct ?_
    · simp [runnerFlags]
    · simpa using ⟨hrunner, hfixed _ (by simp), hconfig, hfixed _ (by simp)⟩
  · have hdistinct : [text "-jar", text "--config", text "--tests"].Nodup := by decide +kernel
    refine readsAs_of_words rfl ?_ hdistinct ?_
    · simp [runnerFlags]
    · simpa using ⟨hrunner, hconfig, hfixed _ (by simp)⟩

end CommandLine

end TestRig
