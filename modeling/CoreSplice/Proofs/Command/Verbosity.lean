import Mathlib.Data.List.Basic
import Mathlib.Data.List.InsertIdx
import CoreSplice.Proofs.Command.Meaning
import CoreSplice.Proofs.Elf.Frame

/-!
# Verbosity shows and changes nothing else

The switch for verbose reports is an option like any other, so it passes the request for help, the
count of the arguments and the reading of the overrides before it comes to its effect.  Wherever it
stands among the options, it is passed over by all of these but the count: the least number of
arguments is three, and the switch is one of them.

* `Arguments.options_insertIdx`, `Arguments.readOverrides_insertIdx` — the switch among the options.
* `Arguments.parse_insertIdx`, `Arguments.parse_insertIdx_pair` — what the arguments say with it, if
  they are enough without it and if they are not.
* `agrees_of_not_names` — what is done with it, unless the arguments are two names.
* `run_idle` — a run without dumps and overrides, which is what the switch may bring about.
* **`execute_insertIdx`** — the command line with the switch and without it.
* `execute_two_names` — two names alone are too few, and with the switch they are a run.
-/

namespace CoreSplice.Command

namespace Arguments

variable {arguments : List String} {switch : String} {k : Nat}

/-! ## The switch among the options -/

lemma isOption_of_isVerbose (h : isVerbose switch = true) : isOption switch = true := by
  simp only [isVerbose, decide_eq_true_eq] at h
  rcases h with rfl | rfl <;> decide

/-- An option that is put among options, or behind the last, is one of them. -/
lemma options_insertIdx (hoption : isOption switch = true) (hk : k ≤ (options arguments).length) :
    options (arguments.insertIdx k switch) = (options arguments).insertIdx k switch ∧
      (arguments.insertIdx k switch).dropWhile isOption = arguments.dropWhile isOption := by
  induction arguments generalizing k with
  | nil =>
    obtain rfl : k = 0 := Nat.le_zero.1 hk
    simp [options, hoption]
  | cons argument arguments ih =>
    cases k with
    | zero => simp [options, hoption]
    | succ k =>
      cases hfirst : isOption argument with
      | false => simp [options, hfirst] at hk
      | true =>
        have hrest := ih (k := k) (by simpa [options, hfirst] using hk)
        simp only [options] at hrest ⊢
        rw [List.insertIdx_succ_cons, List.takeWhile_cons_of_pos hfirst,
          List.takeWhile_cons_of_pos hfirst, List.dropWhile_cons_of_pos hfirst,
          List.dropWhile_cons_of_pos hfirst, List.insertIdx_succ_cons, hrest.1]
        exact ⟨rfl, hrest.2⟩

lemma length_insertIdx (hk : k ≤ (options arguments).length) :
    (arguments.insertIdx k switch).length = arguments.length + 1 :=
  List.length_insertIdx_of_le_length
    (Nat.le_trans hk (List.takeWhile_sublist isOption).length_le) switch

lemma any_options_insertIdx (hoption : isOption switch = true)
    (hk : k ≤ (options arguments).length) (p : String → Bool) :
    (options (arguments.insertIdx k switch)).any p = (p switch || (options arguments).any p) := by
  rw [(options_insertIdx hoption hk).1, (List.perm_insertIdx switch _ hk).any_eq, List.any_cons]

lemma readOverrides_insertIdx (hswitch : isVerbose switch = true) {options : List String}
    (hk : k ≤ options.length) (registry : Registry) :
    readOverrides registry (options.insertIdx k switch) = readOverrides registry options := by
  induction options generalizing k registry with
  | nil =>
    obtain rfl : k = 0 := Nat.le_zero.1 hk
    simp only [List.insertIdx_zero, readOverrides, hswitch, if_true]
  | cons argument options ih =>
    cases k with
    | zero => rw [List.insertIdx_zero, readOverrides, if_pos hswitch]
    | succ k =>
      have hrest := ih (k := k) (by simpa using hk)
      rw [List.insertIdx_succ_cons, readOverrides, readOverrides, hrest]
      split
      · rfl
      · split
        · rfl
        · exact hrest _

/-- Arguments that are enough without the switch say the same with it. -/
lemma parse_insertIdx (hswitch : isVerbose switch = true) (hk : k ≤ (options arguments).length)
    (hcount : 3 ≤ arguments.length) :
    parse (arguments.insertIdx k switch)
      = (parse arguments).map fun a => { a with verbose := true } := by
  have hoption := isOption_of_isVerbose hswitch
  obtain ⟨hoptions, hrest⟩ := options_insertIdx hoption hk
  have hlength : (arguments.insertIdx k switch).length = arguments.length + 1 := length_insertIdx hk
  have hany := any_options_insertIdx hoption hk isVerbose
  rw [hswitch, Bool.true_or] at hany
  simp only [parse]
  rw [if_neg (by omega), if_neg (by omega), hany, hrest, hoptions,
    readOverrides_insertIdx hswitch hk]
  split
  · rfl
  · split <;> rfl

/-- Two arguments are too few, and so they are with the switch if one of them is an option. -/
lemma parse_insertIdx_pair (hswitch : isVerbose switch = true)
    (hk : k ≤ (options arguments).length) (hcount : arguments.length = 2)
    (hsome : options arguments ≠ []) :
    (∃ e, parse (arguments.insertIdx k switch) = .error (.option e)) ∨
      parse (arguments.insertIdx k switch) = .error (.usage .filesMissing) := by
  have hoption := isOption_of_isVerbose hswitch
  obtain ⟨hoptions, hrest⟩ := options_insertIdx hoption hk
  have hlength : (arguments.insertIdx k switch).length = arguments.length + 1 := length_insertIdx hk
  have hfew : (arguments.dropWhile isOption).length < 2 := by
    have hsplit := congrArg List.length
      (List.takeWhile_append_dropWhile (p := isOption) (l := arguments))
    have hpositive := List.length_pos_iff.2 hsome
    rw [List.length_append] at hsplit
    simp only [options] at hpositive
    omega
  simp only [parse]
  rw [if_neg (by omega), hrest]
  split
  · exact Or.inl ⟨_, rfl⟩
  · split
    · rename_i hfiles
      rw [hfiles] at hfew
      simp only [List.length_cons] at hfew
      omega
    · exact Or.inr rfl

end Arguments

/-! ## A run without dumps and overrides -/

/-- Two disks that hold the same files with the same content. -/
structure Alike (first second : Disk) : Prop where
  isFile : ∀ place, second.IsFile place ↔ first.IsFile place
  content : ∀ node, second.content node = first.content node

lemma Alike.of_eq {first second : Disk} (h : second = first) : Alike first second :=
  h ▸ ⟨fun _ => Iff.rfl, fun _ => rfl⟩

/-- A file may be given the content it has. -/
lemma alike_put_content (disk : Disk) (core : Node) :
    Alike disk (disk.put core (disk.content core)) := by
  refine ⟨fun place => Disk.isFile_put disk core _ place, fun node => ?_⟩
  by_cases hfile : ∃ place, core = .file place ∧ disk.IsFile place
  · obtain ⟨place, rfl, hfile⟩ := hfile
    rw [Disk.content_put hfile]
    split
    · rename_i hnode
      rw [hnode]
    · rfl
  · rw [Disk.put_of_not_file fun place hcore hthere => hfile ⟨place, hcore, hthere⟩]

/-- The header step without regions leaves the content of the file as it is. -/
lemma content_adjust_nil (content : Bytes) (coreSize : Int) (faults : CoreFaults) :
    (Elf.adjust content [] coreSize faults).content = content := by
  rcases Elf.content_adjust_cases content [] coreSize faults with hsame | ⟨_, _, -, heq⟩
  · exact hsame
  · exact heq

/-- A run without dumps and overrides prints nothing and leaves every file as it is. -/
lemma run_idle (disk : Disk) (core map : String) :
    (run disk core map [] []).printed = [] ∧ Alike disk (run disk core map [] []).disk := by
  simp only [run]
  split
  · exact ⟨rfl, .of_eq rfl⟩
  · split
    · exact ⟨rfl, .of_eq rfl⟩
    · split
      · exact ⟨rfl, .of_eq rfl⟩
      · split
        · exact ⟨rfl, .of_eq rfl⟩
        · rename_i coreNode _ _ _ mapNode _
          refine ⟨rfl, ?_⟩
          have hdisk (map : MapSource) : (work { disk, core := coreNode, map } []).disk
              = disk.put coreNode (Elf.adjust (disk.content coreNode) []
                (disk.content coreNode).length {}).content := rfl
          rw [hdisk, content_adjust_nil]
          exact alike_put_content disk coreNode

/-! ## The command line -/

section

variable (disk : Disk) (bareCommand : Bool) (program : String) {arguments : List String} {k : Nat}
  {switch : String}

lemma asksForHelp_insertIdx (hswitch : Arguments.isVerbose switch = true)
    (hk : k ≤ (Arguments.options arguments).length) :
    Arguments.asksForHelp (arguments.insertIdx k switch) = Arguments.asksForHelp arguments := by
  have hother : decide (switch = "-h" ∨ switch = "--help") = false := by
    simp only [Arguments.isVerbose, decide_eq_true_eq] at hswitch
    rcases hswitch with rfl | rfl <;> decide
  rw [Arguments.asksForHelp,
    Arguments.any_options_insertIdx (Arguments.isOption_of_isVerbose hswitch) hk, hother,
    Bool.false_or, Arguments.asksForHelp]

lemma asksForHelp_of_no_options (hnone : Arguments.options arguments = []) :
    Arguments.asksForHelp arguments = false := by
  rw [Arguments.asksForHelp, hnone, List.any_nil]

/-- Two transcripts that differ in the report at most, or else in the error that ends a run that two
arguments do not allow. -/
structure Agrees (arguments : List String) (quiet loud : Transcript) : Prop where
  output : loud.output = quiet.output
  disk : loud.disk = quiet.disk
  status : loud.status = quiet.status ∨
    arguments.length = 2 ∧ quiet.status = .ok 1 ∧ loud.status = .error .tooManyDigits

lemma Agrees.of_eq {quiet loud : Transcript} (h : loud = quiet) : Agrees arguments quiet loud :=
  h ▸ ⟨rfl, rfl, Or.inl rfl⟩

lemma Agrees.exitStatus {quiet loud : Transcript} (h : Agrees arguments quiet loud) :
    loud.exitStatus = quiet.exitStatus := by
  rcases h.status with hsame | ⟨-, hquiet, hloud⟩
  · rw [Transcript.exitStatus, Transcript.exitStatus, hsame]
  · rw [Transcript.exitStatus, Transcript.exitStatus, hquiet, hloud]

lemma execute_of_help (hhelp : Arguments.asksForHelp arguments = true) :
    execute disk bareCommand (program :: arguments)
      = ⟨disk, usage (Path.lastComponent program), "", .ok 0⟩ := by
  simp only [execute, List.tail_cons, hhelp, if_true]

/-- Too few arguments are answered with the usage text. -/
lemma execute_of_few (hhelp : Arguments.asksForHelp arguments = false)
    (hcount : arguments.length < 3) :
    execute disk bareCommand (program :: arguments)
      = ⟨disk, "", usage (Path.lastComponent program), .ok 1⟩ := by
  have hparse : Arguments.parse arguments = .error (.usage .tooFewArguments) := if_pos hcount
  simp only [execute, List.tail_cons, hhelp, hparse, Bool.false_eq_true, if_false]

/-- Enough arguments lead to the same with the switch. -/
lemma agrees_of_enough (hhelp : Arguments.asksForHelp arguments = false)
    (hswitch : Arguments.isVerbose switch = true)
    (hk : k ≤ (Arguments.options arguments).length) (hcount : 3 ≤ arguments.length) :
    Agrees arguments (execute disk bareCommand (program :: arguments))
      (execute disk bareCommand (program :: arguments.insertIdx k switch)) := by
  have hhelp' := (asksForHelp_insertIdx hswitch hk).trans hhelp
  simp only [execute, List.tail_cons, hhelp, hhelp', Bool.false_eq_true, if_false,
    Arguments.parse_insertIdx hswitch hk hcount]
  cases Arguments.parse arguments with
  | error e => exact .of_eq rfl
  | ok a => exact ⟨rfl, rfl, Or.inl rfl⟩

/-- Two arguments of which one is an option are too few with the switch as well. -/
lemma agrees_of_pair (hhelp : Arguments.asksForHelp arguments = false)
    (hswitch : Arguments.isVerbose switch = true)
    (hk : k ≤ (Arguments.options arguments).length) (hcount : arguments.length = 2)
    (hsome : Arguments.options arguments ≠ []) :
    Agrees arguments (execute disk bareCommand (program :: arguments))
      (execute disk bareCommand (program :: arguments.insertIdx k switch)) := by
  have hhelp' := (asksForHelp_insertIdx hswitch hk).trans hhelp
  rw [execute_of_few disk bareCommand program hhelp (by omega)]
  simp only [execute, List.tail_cons, hhelp', Bool.false_eq_true, if_false]
  rcases Arguments.parse_insertIdx_pair hswitch hk hcount hsome with ⟨e, hparse⟩ | hparse
  · rw [hparse]
    cases e with
    | unknown | malformed => exact ⟨rfl, rfl, Or.inl rfl⟩
    | tooManyDigits => exact ⟨rfl, rfl, Or.inr ⟨hcount, rfl, rfl⟩⟩
  · rw [hparse]
    exact ⟨rfl, rfl, Or.inl rfl⟩

/-- Two names are a run with the switch. -/
lemma execute_names (hswitch : Arguments.isVerbose switch = true) {core map : String}
    (hnone : Arguments.options [core, map] = []) :
    execute disk bareCommand (program :: [core, map].insertIdx 0 switch)
      = (run disk core map [] []).transcript { verbose := true, bareCommand } := by
  have hk : 0 ≤ (Arguments.options [core, map]).length := Nat.zero_le _
  have hhelp := asksForHelp_insertIdx hswitch hk
  obtain ⟨hoptions, hrest⟩ :=
    Arguments.options_insertIdx (Arguments.isOption_of_isVerbose hswitch) hk
  have hname : Arguments.isOption core = false := by
    cases hcore : Arguments.isOption core with
    | false => rfl
    | true => simp [Arguments.options, hcore] at hnone
  rw [List.dropWhile_cons_of_neg (by simp [hname])] at hrest
  rw [asksForHelp_of_no_options hnone] at hhelp
  have hparse : Arguments.parse ([core, map].insertIdx 0 switch)
      = .ok ⟨[], true, core, map, []⟩ := by
    simp only [Arguments.parse, Arguments.length_insertIdx hk, hoptions, hrest, hnone]
    simp [Arguments.readOverrides, hswitch]
  simp only [execute, List.tail_cons, hhelp, hparse, Bool.false_eq_true, if_false]

/-- The switch makes no difference of its own unless the arguments are two names. -/
lemma agrees_of_not_names (hswitch : Arguments.isVerbose switch = true)
    (hk : k ≤ (Arguments.options arguments).length)
    (hother : arguments.length = 2 → Arguments.options arguments ≠ []) :
    Agrees arguments (execute disk bareCommand (program :: arguments))
      (execute disk bareCommand (program :: arguments.insertIdx k switch)) := by
  have hhelp' : Arguments.asksForHelp (arguments.insertIdx k switch)
      = Arguments.asksForHelp arguments := asksForHelp_insertIdx hswitch hk
  have hlength : (arguments.insertIdx k switch).length = arguments.length + 1 :=
    Arguments.length_insertIdx hk
  cases hhelp : Arguments.asksForHelp arguments with
  | true =>
    rw [hhelp] at hhelp'
    refine .of_eq ?_
    rw [execute_of_help disk bareCommand program hhelp,
      execute_of_help disk bareCommand program hhelp']
  | false =>
    rw [hhelp] at hhelp'
    rcases Nat.lt_trichotomy arguments.length 2 with hfew | hpair | henough
    · refine .of_eq ?_
      rw [execute_of_few disk bareCommand program hhelp (by omega),
        execute_of_few disk bareCommand program hhelp' (by omega)]
    · exact agrees_of_pair disk bareCommand program hhelp hswitch hk hpair (hother hpair)
    · exact agrees_of_enough disk bareCommand program hhelp hswitch hk henough

end

/-- **The command line with the switch for verbose reports** and without it, the switch being put
among the options or behind the last of them.  It prints the same and leaves the same files with the
same content.  It exits with the same status, and is ended by the same error if by any, unless the
switch is what makes two arguments enough.  With two arguments of which one is an option there is no
run either way, but the error that ends it may be another one.  Two names are refused without the
switch, and with it they are a run without dumps. -/
theorem execute_insertIdx (disk : Disk) (bareCommand : Bool) (program : String)
    {arguments : List String} {k : Nat} (hk : k ≤ (Arguments.options arguments).length)
    {switch : String} (hswitch : Arguments.isVerbose switch = true) :
    let quiet := execute disk bareCommand (program :: arguments)
    let loud := execute disk bareCommand (program :: arguments.insertIdx k switch)
    loud.output = quiet.output ∧ Alike quiet.disk loud.disk ∧
      ((arguments.length = 2 → Arguments.options arguments ≠ []) →
        loud.exitStatus = quiet.exitStatus ∧
          (loud.status = quiet.status ∨
            arguments.length = 2 ∧ quiet.status = .ok 1 ∧ loud.status = .error .tooManyDigits)) ∧
      ∀ core map, arguments = [core, map] → Arguments.options arguments = [] →
        quiet = ⟨disk, "", usage (Path.lastComponent program), .ok 1⟩ ∧
          loud.status = (run disk core map [] []).status := by
  intro quiet loud
  by_cases hother : arguments.length = 2 → Arguments.options arguments ≠ []
  · have h : Agrees arguments quiet loud :=
      agrees_of_not_names disk bareCommand program hswitch hk hother
    refine ⟨h.output, .of_eq h.disk, fun _ => ⟨h.exitStatus, h.status⟩, ?_⟩
    rintro core map rfl hnone
    exact absurd hnone (hother rfl)
  · rw [Classical.not_imp, not_not] at hother
    obtain ⟨hcount, hnone⟩ := hother
    obtain ⟨core, map, rfl⟩ := List.length_eq_two.1 hcount
    obtain rfl : k = 0 := by simpa [hnone] using hk
    have hquiet : quiet = _ :=
      execute_of_few disk bareCommand program (asksForHelp_of_no_options hnone) (by simp)
    have hloud : loud = _ := execute_names disk bareCommand program hswitch hnone
    obtain ⟨hprinted, halike⟩ := run_idle disk core map
    rw [hquiet, hloud]
    refine ⟨?_, halike, fun h => absurd hnone (h rfl), ?_⟩
    · simp only [Conclusion.transcript, hprinted, List.map_nil]
      rfl
    · rintro _ _ ⟨⟩ -
      exact ⟨rfl, rfl⟩

/-- One dump and one override, with the switch behind the override. -/
theorem execute_insertIdx_small :
    let arguments := ["--data=b:2@a+1", "core", "map", "a"]
    let quiet := execute smallDisk false ("prog" :: arguments)
    let loud := execute smallDisk false ("prog" :: arguments.insertIdx 1 "--verbose")
    quiet.exitStatus = 0 ∧ loud.exitStatus = 0 ∧ loud.output = quiet.output ∧
      Alike quiet.disk loud.disk ∧ loud.errors ≠ quiet.errors := by
  intro arguments quiet loud
  have hquiet : quiet.exitStatus = 0 := by decide +kernel
  have hk : 1 ≤ (Arguments.options arguments).length := by decide
  have hswitch : Arguments.isVerbose "--verbose" = true := by decide
  obtain ⟨houtput, halike, hstatus, -⟩ := execute_insertIdx smallDisk false "prog" hk hswitch
  refine ⟨hquiet, ?_, houtput, halike, by decide +kernel⟩
  exact (hstatus (by decide)).1.trans hquiet

/-- Two names alone are refused, and with the switch in front of them they are a run that succeeds.
So the switch does not leave every exit status as it is. -/
theorem execute_two_names :
    (execute smallDisk false ["prog", "core", "map"]).exitStatus = 1 ∧
      (execute smallDisk false ["prog", "-v", "core", "map"]).exitStatus = 0 ∧
      ¬ ∀ (disk : Disk) (bareCommand : Bool) (program : String) (arguments : List String) (k : Nat)
          (switch : String), k ≤ (Arguments.options arguments).length →
        Arguments.isVerbose switch = true →
          (execute disk bareCommand (program :: arguments.insertIdx k switch)).exitStatus
            = (execute disk bareCommand (program :: arguments)).exitStatus := by
  have hquiet : (execute smallDisk false ["prog", "core", "map"]).exitStatus = 1 := by
    decide +kernel
  have hloud : (execute smallDisk false ["prog", "-v", "core", "map"]).exitStatus = 0 := by
    decide +kernel
  refine ⟨hquiet, hloud, fun hall => ?_⟩
  have hsame := hall smallDisk false "prog" ["core", "map"] 0 "-v" (Nat.zero_le _) (by decide)
  rw [List.insertIdx_zero, hquiet, hloud] at hsame
  cases hsame

end CoreSplice.Command
