import Mathlib.Data.List.Forall2
import CoreSplice.Proofs.Command.Verbosity
import CoreSplice.Proofs.Injection.Accounting
import CoreSplice.Proofs.Override.Form

/-!
# What goes before what on the command line

The options are the arguments up to the first that does not start with a dash.  The request for help
is looked for among them before anything else is.  After that come the count of the arguments, the
options one by one, up to the first that is refused, and the files; and the first of these that
something is wrong with is what is reported.  None of it looks at a file.

* `Arguments.Give`, `Arguments.FirstRefused` — the overrides that options give, and the first option
  that gives none.
* `Arguments.readOverrides_eq_ok_iff`, `Arguments.readOverrides_eq_error_iff` — reading options.
* `Arguments.Parsed`, `Arguments.parsed_parse` — arguments are read in one of four ways.
* `printed_run`, `output_run_ne_usage` — a run prints the lines of its attempts, and so never the
  usage text.
* **`execute_arguments`** — the whole of it.
-/

namespace CoreSplice.Command

namespace Arguments

/-! ## Options one by one -/

/-- The switch for verbose reports. -/
def IsSwitch (option : String) : Prop :=
  option = "-v" ∨ option = "--verbose"

/-- The options that are no switches give the overrides, in order. -/
def Give (options : List String) (overrides : Registry) : Prop :=
  List.Forall₂ (fun option o => Override.parse option = .ok o)
    (options.filter fun option => option ≠ "-v" ∧ option ≠ "--verbose") overrides

/-- The option is neither a switch nor an override, and those before it are. -/
structure FirstRefused (options : List String) (refused : String) (error : OptionError) :
    Prop where
  place : ∃ before behind, options = before ++ refused :: behind ∧
    ∀ option ∈ before, IsSwitch option ∨ ∃ o, Override.parse option = .ok o
  not_switch : ¬ IsSwitch refused
  parse_eq : Override.parse refused = .error error

variable {option refused : String} {options rest arguments : List String} {error : OptionError}
  {registry overrides : Registry}

lemma isVerbose_iff : isVerbose option = true ↔ IsSwitch option :=
  decide_eq_true_iff

lemma give_cons_of_switch (h : IsSwitch option) :
    Give (option :: options) overrides ↔ Give options overrides := by
  rw [Give, List.filter_cons_of_neg, Give]
  rcases h with rfl | rfl <;> decide

lemma give_cons (h : ¬ IsSwitch option) :
    Give (option :: options) overrides ↔
      ∃ o behind, Override.parse option = .ok o ∧ Give options behind ∧
        overrides = o :: behind := by
  rw [Give, List.filter_cons_of_pos, List.forall₂_cons_left_iff]
  · rfl
  · simpa [IsSwitch, not_or] using h

lemma firstRefused_cons : FirstRefused (option :: options) refused error ↔
    (option = refused ∧ ¬ IsSwitch option ∧ Override.parse option = .error error) ∨
      ((IsSwitch option ∨ ∃ o, Override.parse option = .ok o) ∧
        FirstRefused options refused error) := by
  constructor
  · rintro ⟨⟨before, behind, hoptions, hbefore⟩, hswitch, hparse⟩
    rcases List.cons_eq_append_iff.1 hoptions with ⟨-, hfirst⟩ | ⟨before', rfl, hrest⟩
    · cases hfirst
      exact Or.inl ⟨rfl, hswitch, hparse⟩
    · exact Or.inr ⟨hbefore _ List.mem_cons_self, ⟨before', behind, hrest,
        fun a ha => hbefore a (List.mem_cons_of_mem _ ha)⟩, hswitch, hparse⟩
  · rintro (⟨rfl, hswitch, hparse⟩ | ⟨hfirst, ⟨before, behind, rfl, hbefore⟩, hswitch, hparse⟩)
    · exact ⟨⟨[], options, rfl, List.forall_mem_nil _⟩, hswitch, hparse⟩
    · exact ⟨⟨option :: before, behind, rfl, List.forall_mem_cons.2 ⟨hfirst, hbefore⟩⟩, hswitch,
        hparse⟩

/-- **Options that are all read** give their overrides, behind those that there are. -/
lemma readOverrides_eq_ok_iff {all : Registry} :
    readOverrides registry options = .ok all ↔
      ∃ overrides, Give options overrides ∧ all = registry ++ overrides := by
  induction options generalizing registry with
  | nil => simp [readOverrides, Give, eq_comm]
  | cons option options ih =>
    rw [readOverrides]
    by_cases hswitch : IsSwitch option
    · simp only [isVerbose_iff.2 hswitch, if_true, ih, give_cons_of_switch hswitch]
    · rw [if_neg (mt isVerbose_iff.1 hswitch)]
      simp only [give_cons hswitch]
      cases hparse : Override.parse option with
      | error e => simp
      | ok o =>
        simp only [ih, Registry.add, List.append_assoc, List.singleton_append]
        constructor
        · rintro ⟨behind, hgive, rfl⟩
          exact ⟨o :: behind, ⟨o, behind, rfl, hgive, rfl⟩, rfl⟩
        · rintro ⟨_, ⟨_, behind, ⟨⟩, hgive, rfl⟩, rfl⟩
          exact ⟨behind, hgive, rfl⟩

/-- **Options that are not all read** are refused for the first that is refused. -/
lemma readOverrides_eq_error_iff :
    readOverrides registry options = .error error ↔
      ∃ refused, FirstRefused options refused error := by
  induction options generalizing registry with
  | nil =>
    refine iff_of_false (by rintro ⟨⟩) ?_
    rintro ⟨refused, ⟨before, behind, hoptions, -⟩, -, -⟩
    simp at hoptions
  | cons option options ih =>
    rw [readOverrides]
    simp only [firstRefused_cons]
    by_cases hswitch : IsSwitch option
    · simp [isVerbose_iff.2 hswitch, ih, hswitch]
    · rw [if_neg (mt isVerbose_iff.1 hswitch)]
      cases hparse : Override.parse option with
      | error e => simp [hswitch]
      | ok o => simp [hswitch, ih]

/-- A row of arguments that start with a dash, up to the end or to one that does not, are the
options. -/
lemma options_append (hoptions : ∀ option ∈ options, option.toList.head? = some '-')
    (hrest : ∀ argument ∈ rest.head?, argument.toList.head? ≠ some '-') :
    Arguments.options (options ++ rest) = options ∧
      (options ++ rest).dropWhile isOption = rest := by
  have hall : ∀ option ∈ options, isOption option = true :=
    fun option h => decide_eq_true (hoptions option h)
  rw [Arguments.options, List.takeWhile_append_of_pos hall, List.dropWhile_append_of_pos hall]
  cases rest with
  | nil => exact ⟨List.append_nil options, rfl⟩
  | cons argument rest =>
    have hnot : ¬ isOption argument = true :=
      mt of_decide_eq_true (hrest argument rfl)
    rw [List.takeWhile_cons_of_neg hnot, List.dropWhile_cons_of_neg hnot, List.append_nil]
    exact ⟨rfl, rfl⟩

lemma any_isVerbose_iff :
    options.any isVerbose = true ↔ "-v" ∈ options ∨ "--verbose" ∈ options := by
  simp only [List.any_eq_true, isVerbose_iff, IsSwitch, and_or_left, exists_or, exists_eq_right]

lemma any_help_iff :
    (options.any fun option => option = "-h" ∨ option = "--help") = true ↔
      "-h" ∈ options ∨ "--help" ∈ options := by
  simp only [List.any_eq_true, decide_eq_true_eq, and_or_left, exists_or, exists_eq_right]

lemma give_iff : Give options overrides ↔ readOverrides [] options = .ok overrides := by
  rw [readOverrides_eq_ok_iff]
  simp

/-! ## All arguments -/

/-- **The ways to read arguments.** -/
inductive Parsed (options rest : List String) : Except ArgumentError Arguments → Prop where
  | tooFew (hcount : (options ++ rest).length < 3) :
      Parsed options rest (.error (.usage .tooFewArguments))
  | refused {error : OptionError} (hcount : 3 ≤ (options ++ rest).length)
      (hread : readOverrides [] options = .error error) :
      Parsed options rest (.error (.option error))
  | filesMissing {overrides : Registry} (hcount : 3 ≤ (options ++ rest).length)
      (hread : readOverrides [] options = .ok overrides) (hfiles : rest.length < 2) :
      Parsed options rest (.error (.usage .filesMissing))
  | complete {overrides : Registry} {core map : String} {dumps : List String}
      (hcount : 3 ≤ (options ++ rest).length) (hread : readOverrides [] options = .ok overrides)
      (hfiles : rest = core :: map :: dumps) :
      Parsed options rest (.ok ⟨overrides, options.any isVerbose, core, map, dumps⟩)

section

variable (hoptions : ∀ option ∈ options, option.toList.head? = some '-')
  (hrest : ∀ argument ∈ rest.head?, argument.toList.head? ≠ some '-')
include hoptions hrest

lemma asksForHelp_append :
    asksForHelp (options ++ rest) = true ↔ "-h" ∈ options ∨ "--help" ∈ options := by
  rw [asksForHelp, (options_append hoptions hrest).1, any_help_iff]

lemma parsed_parse : Parsed options rest (parse (options ++ rest)) := by
  obtain ⟨htake, hdrop⟩ := options_append hoptions hrest
  rw [parse, htake, hdrop]
  by_cases hcount : (options ++ rest).length < 3
  · rw [if_pos hcount]
    exact .tooFew hcount
  · rw [if_neg hcount]
    have henough := Nat.not_lt.1 hcount
    cases hread : readOverrides [] options with
    | error error => exact .refused henough hread
    | ok overrides =>
      rcases rest with _ | ⟨core, _ | ⟨map, dumps⟩⟩
      · exact .filesMissing henough hread Nat.two_pos
      · exact .filesMissing henough hread Nat.one_lt_two
      · exact .complete henough hread rfl

lemma parse_eq_tooFew_iff : parse (options ++ rest) = .error (.usage .tooFewArguments) ↔
    (options ++ rest).length < 3 := by
  have hparsed := parsed_parse hoptions hrest
  generalize parse (options ++ rest) = read at hparsed
  cases hparsed with
  | tooFew hcount => exact iff_of_true rfl hcount
  | refused hcount _ => exact iff_of_false (by rintro ⟨⟩) (Nat.not_lt.2 hcount)
  | filesMissing hcount _ _ => exact iff_of_false (by rintro ⟨⟩) (Nat.not_lt.2 hcount)
  | complete hcount _ _ => exact iff_of_false (by rintro ⟨⟩) (Nat.not_lt.2 hcount)

lemma parse_eq_option_iff : parse (options ++ rest) = .error (.option error) ↔
    3 ≤ (options ++ rest).length ∧ readOverrides [] options = .error error := by
  have hparsed := parsed_parse hoptions hrest
  generalize parse (options ++ rest) = read at hparsed
  cases hparsed with
  | tooFew hcount => exact iff_of_false (by rintro ⟨⟩) fun h => Nat.not_le.2 hcount h.1
  | refused hcount hread =>
    simp only [hread, hcount, true_and, Except.error.injEq, ArgumentError.option.injEq]
  | filesMissing _ hread _ => simp [hread]
  | complete _ hread _ => simp [hread]

lemma parse_eq_filesMissing_iff : parse (options ++ rest) = .error (.usage .filesMissing) ↔
    3 ≤ (options ++ rest).length ∧ (∃ overrides, readOverrides [] options = .ok overrides) ∧
      rest.length < 2 := by
  have hparsed := parsed_parse hoptions hrest
  generalize parse (options ++ rest) = read at hparsed
  cases hparsed with
  | tooFew hcount => exact iff_of_false (by rintro ⟨⟩) fun h => Nat.not_le.2 hcount h.1
  | refused _ hread => simp [hread]
  | filesMissing hcount hread hfiles => exact iff_of_true rfl ⟨hcount, ⟨_, hread⟩, hfiles⟩
  | complete _ _ hfiles => simp [hfiles]

lemma parse_eq_ok_iff {a : Arguments} : parse (options ++ rest) = .ok a ↔
    3 ≤ (options ++ rest).length ∧ readOverrides [] options = .ok a.overrides ∧
      a.verbose = options.any isVerbose ∧ rest = a.core :: a.map :: a.dumps := by
  have hparsed := parsed_parse hoptions hrest
  generalize parse (options ++ rest) = read at hparsed
  cases hparsed with
  | tooFew hcount => exact iff_of_false (by rintro ⟨⟩) fun h => Nat.not_le.2 hcount h.1
  | refused _ hread => simp [hread]
  | filesMissing _ _ hfiles =>
    refine iff_of_false (by rintro ⟨⟩) ?_
    rintro ⟨-, -, -, rfl⟩
    simp only [List.length_cons] at hfiles
    omega
  | complete hcount hread hfiles =>
    constructor
    · rintro ⟨⟩
      exact ⟨hcount, hread, rfl, hfiles⟩
    · rintro ⟨-, hread', hverbose, hfiles'⟩
      rw [hread] at hread'
      rw [hfiles] at hfiles'
      cases a
      cases hread'
      cases hfiles'
      cases hverbose
      rfl

end

end Arguments

/-! ## What a run prints -/

lemma printed_work {s : Session} (hprinted : s.printed = []) (dumps : List String) :
    (work s dumps).printed = (work s dumps).attempts.flatMap Attempt.lines := by
  have hnoted : s.Noted (injections s dumps) :=
    Session.noted_continued (Session.noted_injectAll s dumps) (Session.noted_injectPositions _ _)
  have hlines := hnoted.printed
  rw [hprinted, List.nil_append] at hlines
  simp only [work]
  split
  · exact hlines
  · exact hlines
  · -- The headers are adjusted in silence.
    exact (Session.notes_adjustHeaders (injections s dumps).1).2.trans hlines

/-- A run prints the lines of its attempts. -/
lemma printed_run (disk : Disk) (core map : String) (dumps : List String)
    (overrides : Registry) :
    (run disk core map dumps overrides).printed
      = (run disk core map dumps overrides).attempts.flatMap Attempt.lines := by
  simp only [run]
  -- A run that is stopped before it has both files attempts nothing.
  split
  · rfl
  · split
    · rfl
    · split
      · rfl
      · split
        · rfl
        · exact printed_work rfl dumps

lemma head?_of_mem_lines {a : Attempt} {line : String} (h : line ∈ a.lines) :
    line.toList.head? = some 'i' := by
  rw [Attempt.lines] at h
  split at h
  · rw [List.mem_singleton.1 h]
    simp only [String.toList_append, List.append_assoc, List.head?_append]
    rfl
  · cases h

lemma head?_usage (program : String) : (usage program).toList.head? = some 'u' := by
  rw [usage, List.map_cons, String.join_cons]
  simp only [String.toList_append, List.append_assoc, List.head?_append]
  rfl

/-- What a run prints does not start like the usage text, if it is anything. -/
lemma output_run_ne_usage (disk : Disk) (core map : String) (dumps : List String)
    (overrides : Registry) (style : Diagnostic.Style) (program : String) :
    ((run disk core map dumps overrides).transcript style).output ≠ usage program := by
  intro heq
  have husage := head?_usage program
  rw [← heq] at husage
  simp only [Conclusion.transcript, printed_run] at husage
  cases hlines : (run disk core map dumps overrides).attempts.flatMap Attempt.lines with
  | nil =>
    rw [hlines] at husage
    cases husage
  | cons line lines =>
    have hline : line ∈ (run disk core map dumps overrides).attempts.flatMap Attempt.lines := by
      rw [hlines]
      exact List.mem_cons_self
    obtain ⟨a, -, ha⟩ := List.mem_flatMap.1 hline
    rw [hlines, List.map_cons, String.join_cons] at husage
    simp only [String.toList_append, List.append_assoc, List.head?_append,
      head?_of_mem_lines ha] at husage
    cases husage

/-! ## The whole of it -/

/-- Arguments with something wrong are answered without a look at any file. -/
lemma execute_of_error (bareCommand : Bool) (program : String) {arguments : List String}
    (hhelp : Arguments.asksForHelp arguments = false) {error : ArgumentError}
    (hparse : Arguments.parse arguments = .error error)
    (hshort : ∀ argument, error ≠ .option (.tooManyDigits argument)) :
    ∃ text, ∀ disk, execute disk bareCommand (program :: arguments) = ⟨disk, "", text, .ok 1⟩ := by
  simp only [execute, List.tail_cons, hhelp, hparse, Bool.false_eq_true, if_false]
  cases error with
  | usage error => exact ⟨_, fun disk => rfl⟩
  | option error =>
    cases error with
    | unknown argument => exact ⟨_, fun disk => rfl⟩
    | malformed argument => exact ⟨_, fun disk => rfl⟩
    | tooManyDigits argument => exact absurd rfl (hshort argument)

/-- The usage text is printed on request only. -/
lemma execute_usage_iff (disk : Disk) (bareCommand : Bool) (program : String)
    (arguments : List String) :
    let done := execute disk bareCommand (program :: arguments)
    done.output = usage (Path.lastComponent program) ∧ done.status = .ok 0 ↔
      Arguments.asksForHelp arguments = true := by
  cases hhelp : Arguments.asksForHelp arguments with
  | true =>
    rw [execute_of_help disk bareCommand program hhelp]
    exact iff_of_true ⟨rfl, rfl⟩ rfl
  | false =>
    refine iff_of_false ?_ Bool.false_ne_true
    simp only [execute, List.tail_cons, hhelp, Bool.false_eq_true, if_false]
    cases Arguments.parse arguments with
    | error error =>
      cases error with
      | usage error => rintro ⟨-, ⟨⟩⟩
      | option error => cases error <;> rintro ⟨-, ⟨⟩⟩
    | ok a => exact fun h => output_run_ne_usage disk a.core a.map a.dumps a.overrides _ _ h.1

lemma Arguments.FirstRefused.error_eq {options : List String} {refused : String}
    {error : OptionError} (h : FirstRefused options refused error)
    (hshort : ∀ option ∈ options, ∀ form : Override.Form, form.Gives option → form.IsShort) :
    error = .unknown refused ∨ error = .malformed refused := by
  obtain ⟨⟨before, behind, rfl, -⟩, -, hparse⟩ := h
  have hreading := Override.reading_parse refused
  rw [hparse] at hreading
  cases hreading with
  | unknown _ => exact Or.inl rfl
  | malformed _ _ => exact Or.inr rfl
  | tooManyDigits form hgives hlong =>
    exact absurd (hshort refused (List.mem_append_right _ List.mem_cons_self) form hgives) hlong

/-- **What goes before what.**  Let the options be the arguments up to the first that does not start
with a dash, and none of them an override with a numeral that is too long.  The usage text is asked
for iff an option asks for help, whatever else there is.  Other than that, arguments are too few
iff there are less than three; else they are refused for the first option that is neither a switch
nor an override; else files are missing iff fewer than two arguments stand behind the options; else
the options give the overrides in order and say whether reports are verbose, and what stands behind
them are the core, the map and the dumps.  When anything is wrong, the answer does not depend on the
files, and leaves them as they are. -/
theorem execute_arguments (disk : Disk) (bareCommand : Bool) (program : String)
    {options rest : List String}
    (hoptions : ∀ option ∈ options, option.toList.head? = some '-')
    (hrest : ∀ argument ∈ rest.head?, argument.toList.head? ≠ some '-')
    (hshort : ∀ option ∈ options, ∀ form : Override.Form, form.Gives option → form.IsShort) :
    let arguments := options ++ rest
    let done := execute disk bareCommand (program :: arguments)
    let read := Arguments.parse arguments
    (done.output = usage (Path.lastComponent program) ∧ done.status = .ok 0 ↔
        "-h" ∈ options ∨ "--help" ∈ options) ∧
      (read = .error (.usage .tooFewArguments) ↔ arguments.length < 3) ∧
      (∀ error, read = .error (.option error) ↔ 3 ≤ arguments.length ∧
        ∃ refused, Arguments.FirstRefused options refused error) ∧
      (∀ refused error, Arguments.FirstRefused options refused error →
        error = .unknown refused ∨ error = .malformed refused) ∧
      (read = .error (.usage .filesMissing) ↔ 3 ≤ arguments.length ∧
        (∃ overrides, Arguments.Give options overrides) ∧ rest.length < 2) ∧
      (∀ a, read = .ok a ↔ 3 ≤ arguments.length ∧ Arguments.Give options a.overrides ∧
        (a.verbose = true ↔ "-v" ∈ options ∨ "--verbose" ∈ options) ∧
        rest = a.core :: a.map :: a.dumps) ∧
      (¬ ("-h" ∈ options ∨ "--help" ∈ options) → ∀ error, read = .error error →
        ∃ text, ∀ disk,
          execute disk bareCommand (program :: arguments) = ⟨disk, "", text, .ok 1⟩) := by
  intro arguments done read
  have hhelp := Arguments.asksForHelp_append hoptions hrest
  have hrefused (refused : String) (error : OptionError)
      (h : Arguments.FirstRefused options refused error) := h.error_eq hshort
  refine ⟨(execute_usage_iff disk bareCommand program arguments).trans hhelp,
    Arguments.parse_eq_tooFew_iff hoptions hrest, ?option, hrefused, ?files, ?all, ?untouched⟩
  case option =>
    intro error
    rw [← Arguments.readOverrides_eq_error_iff]
    exact Arguments.parse_eq_option_iff hoptions hrest
  case files =>
    simp only [Arguments.give_iff]
    exact Arguments.parse_eq_filesMissing_iff hoptions hrest
  case all =>
    intro a
    rw [Arguments.give_iff, ← Arguments.any_isVerbose_iff, ← Bool.eq_iff_iff]
    exact Arguments.parse_eq_ok_iff hoptions hrest
  case untouched =>
    intro hno error herror
    refine execute_of_error bareCommand program (Bool.eq_false_iff.2 (mt hhelp.1 hno)) herror ?_
    rintro argument rfl
    obtain ⟨-, hread⟩ := (Arguments.parse_eq_option_iff hoptions hrest).1 herror
    obtain ⟨refused, hfirst⟩ := Arguments.readOverrides_eq_error_iff.1 hread
    rcases hrefused refused _ hfirst with ⟨⟨⟩⟩ | ⟨⟨⟩⟩

/-- A malformed option behind a switch and an override, and before one that is unknown, where a file
is missing as well. -/
theorem execute_arguments_malformed :
    let options := ["-v", "--data=a:2@b+1", "--data=a:2", "-q"]
    Arguments.FirstRefused options "--data=a:2" (.malformed "--data=a:2") ∧
      Arguments.parse (options ++ ["core"]) = .error (.option (.malformed "--data=a:2")) ∧
      ∃ text, ∀ disk,
        execute disk true ("prog" :: (options ++ ["core"])) = ⟨disk, "", text, .ok 1⟩ := by
  intro options
  have hlength : ∀ option ∈ options, option.length ≤ 4300 := by decide
  have hfirst : Arguments.FirstRefused options "--data=a:2" (.malformed "--data=a:2") := by
    refine ⟨⟨["-v", "--data=a:2@b+1"], ["-q"], rfl, ?_⟩, by simp [Arguments.IsSwitch], rfl⟩
    refine List.forall_mem_cons.2 ⟨Or.inl (Or.inl rfl), List.forall_mem_singleton.2 (Or.inr ?_)⟩
    exact ⟨⟨"a", 2, "b", 1, false⟩, by decide +kernel⟩
  obtain ⟨-, -, hoption, -, -, -, huntouched⟩ :=
    @execute_arguments smallDisk true "prog" options ["core"] (by decide) (by decide)
      fun option hmem form hgives => hgives.isShort (hlength option hmem)
  have hparse := (hoption _).2 ⟨by decide, _, hfirst⟩
  exact ⟨hfirst, hparse, huntouched (by decide) _ hparse⟩

end CoreSplice.Command
