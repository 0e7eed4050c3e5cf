import CommandSuite.Config
import CommandSuite.Host
import CommandSuite.Proofs.Shell.Fields

/-!
# The compiler in scripts

The compiler is started from an argument vector or from a script that finds it in a variable. The
variable holds the interpreter and the path of the compiler with a space between them, so what a
script starts by the bare variable is what the shell makes of this text.

* `Shell.value?_start`: a shell finds the variables that are added to its environment.
* `Config.fields_compilerVariable` says what the fields of the variable are and when they are the
  argument vector: neither the interpreter nor the path may be empty or hold a blank, since
  nothing in the variable tells such a blank from the space.
-/

namespace CommandSuite

/-! ## Variables of a new shell -/

namespace Shell

/-- The variables that a new shell may set by itself. -/
def ownVariables : List String := ["IFS", "OPTIND", "PPID", "PS1", "PS2", "PS4", "PATH", "PWD"]

/-- The separators that a shell starts with do not come from outside. -/
theorem separators_start (process : Process) (name : String) :
    (Session.start process name).separators = defaultSeparators := rfl

theorem lookup_filter {β : Type} {p : String × β → Bool} {key : String}
    (kept : ∀ value, p (key, value)) (settings : List (String × β)) :
    (settings.filter p).lookup key = settings.lookup key := by
  induction settings with
  | nil => rfl
  | cons setting settings ih =>
    obtain ⟨name, value⟩ := setting
    by_cases same : key = name
    · subst same
      rw [List.filter_cons_of_pos (kept value), List.lookup_cons_self, List.lookup_cons_self]
    · have passed : (key == name) = false := beq_eq_false_iff_ne.2 same
      rw [List.lookup_cons, passed, List.filter_cons]
      split
      · rw [List.lookup_cons, passed]
        exact ih
      · exact ih

theorem lookup_map {β γ : Type} (f : β → γ) (key : String) (settings : List (String × β)) :
    (settings.map fun (name, value) => (name, f value)).lookup key =
      (settings.lookup key).map f := by
  induction settings with
  | nil => rfl
  | cons setting settings ih =>
    obtain ⟨name, value⟩ := setting
    rw [List.map_cons, List.lookup_cons, List.lookup_cons, ih]
    split <;> rfl

/-- A shell finds what its environment says last of a variable, unless the variable is one of its
own. -/
theorem value?_start {key : String} (named : isName key) (other : key ∉ ownVariables)
    (process : Process) (name : String) :
    (Session.start process name).value? key = process.environment.reverse.lookup key := by
  have absent {bound : List (String × Variable)} (own : ∀ v ∈ bound, v.1 ∈ ownVariables) :
      bound.lookup key = none := by
    refine List.lookup_eq_none_iff.2 fun v mem => bne_iff_ne.2 ?_
    rintro rfl
    exact other (own v mem)
  have inherited (v : Variable) : (!(["IFS", "OPTIND", "PPID"].contains (key, v).1)) = true := by
    rw [Bool.not_eq_true', List.contains_eq_mem, decide_eq_false_iff_not]
    intro mem
    exact other (List.mem_append_left ["PS1", "PS2", "PS4", "PATH", "PWD"] mem)
  rw [Session.value?, Session.find?, Session.start]
  simp only [List.lookup_append]
  rw [absent, absent, Option.none_or, Option.none_or, lookup_filter inherited, ← List.map_reverse,
    lookup_map fun value => ({ value := some value, exported := true } : Variable),
    ← List.filter_reverse,
    lookup_filter fun _ => named]
  · cases process.environment.reverse.lookup key <;> rfl
  · -- The variable for the working directory is set only if the environment has none.
    intro v mem
    split at mem
    · cases mem
    · rw [List.mem_singleton.1 mem]
      exact List.mem_of_elem_eq_true rfl
  · intro v mem
    obtain ⟨setting, own, rfl⟩ := List.mem_map.1 mem
    rcases List.mem_append.1 own with fresh | given
    · simp only [List.mem_cons, List.not_mem_nil, or_false] at fresh
      rcases fresh with rfl | rfl | rfl <;> exact List.mem_of_elem_eq_true rfl
    · have given := (List.mem_filter.1 given).1
      simp only [List.mem_cons, List.not_mem_nil, or_false] at given
      rcases given with rfl | rfl | rfl | rfl <;> decide

end Shell

namespace Config

open Shell (blankWords variableWord quotedWord expandFields)

/-- The words that the compiler is started by, without its arguments. -/
def compilerWords (config : Config) : List String :=
  config.interpreter.toList ++ [config.binaryPath]

theorem words_compilerInvocation (config : Config) (arguments : List String) :
    (config.compilerInvocation arguments).words = config.compilerWords ++ arguments := by
  rw [compilerInvocation, compilerWords]
  cases config.interpreter <;> rfl

theorem compilerCommand_eq_intercalate (config : Config) :
    config.compilerCommand = " ".intercalate config.compilerWords := by
  rw [compilerCommand, compilerWords]
  cases config.interpreter with
  | none => exact String.intercalate_singleton.symm
  | some interpreter =>
    rw [Option.toList_some, List.singleton_append, String.intercalate_cons_cons,
      String.intercalate_singleton]

/-- A shell as the host starts it for an invocation, with the search for file names turned off. -/
def startedShell (invocation : Invocation) (settings : List (String × String)) (process : Process)
    (name : String) (machine : Machine) : Shell.State :=
  let added := (Host.additions invocation).map fun (name, value) =>
    (Text.byteText name, Text.byteText value)
  let process := { process with environment := Shell.overlay settings added }
  { session := { Shell.Session.start process name with flags := ['f'] }, machine }

/-- The shell of a script has what the configuration says in the compiler variable, even if the
variable was set before. -/
theorem parameterValues_startedShell (config : Config) (text : String)
    (settings : List (String × String)) (process : Process) (name : String) (machine : Machine) :
    Shell.parameterValues
        (startedShell (config.scriptInvocation text) settings process name machine).session
        compilerVariable =
      some [Text.byteText config.compilerCommand] := by
  let session :=
    (startedShell (config.scriptInvocation text) settings process name machine).session
  have sameName : Text.byteText compilerVariable = compilerVariable := by decide
  have environment : session.process.environment =
      settings.filter (fun setting => setting.1 ≠ Text.byteText compilerVariable) ++
        [(Text.byteText compilerVariable, Text.byteText config.compilerCommand)] := rfl
  have found : session.value? compilerVariable =
      session.process.environment.reverse.lookup compilerVariable :=
    Shell.value?_start (by decide) (by decide) _ name
  rw [environment, List.reverse_concat, sameName, List.lookup_cons_self] at found
  have read : Shell.parameterValues session compilerVariable =
      (session.value? compilerVariable).map fun v => [v] := rfl
  rw [read, found]
  rfl

/-- **The compiler in scripts.** The fields that a script gets from the bare variable, with
arguments behind it, are the words of the text between blanks, whatever else the shell finds in
its environment. They are the argument vector exactly if neither the interpreter nor the
compiler's path is empty or holds a space, a tab or a line feed. -/
theorem fields_compilerVariable (config : Config) (text : String) (arguments : List String) :
    (∀ settings process name machine fuel,
      let state := startedShell (config.scriptInvocation text) settings process name machine
      let words := variableWord compilerVariable :: (arguments.map Text.byteText).map quotedWord
      (expandFields (arguments.length + fuel + 4) words).run state =
        (.ok ((blankWords config.compilerCommand ++ arguments).map Text.byteText), state)) ∧
    (blankWords config.compilerCommand ++ arguments =
        (config.compilerInvocation arguments).words ↔
      ∀ word ∈ config.compilerWords, word ≠ "" ∧ ∀ c ∈ word.toList, c ∉ [' ', '\t', '\n']) := by
  constructor
  · intro settings process name machine fuel state words
    have set := parameterValues_startedShell config text settings process name machine
    have taken := Shell.run_expandFields_command set (Shell.separators_start _ name) rfl
      (arguments.map Text.byteText) fuel
    rw [List.length_map, Shell.blankWords_byteText, ← List.map_append] at taken
    exact taken
  · rw [words_compilerInvocation, List.append_cancel_right_eq, compilerCommand_eq_intercalate,
      Shell.blankWords_intercalate_eq_iff]
    refine forall₂_congr fun word _ => and_congr ?_ (forall₂_congr fun c _ => ?_)
    · rw [Ne, Ne, String.toList_eq_nil_iff]
    · rw [← Bool.not_eq_true, Shell.isSeparatorSpace_iff]
      simp

/-- The words are not those of the argument vector if the compiler lies in a directory with a
blank in its name. -/
theorem fields_ne_words_of_blank :
    let config : Config := { interpreter := some "sh", compiler := some "my dir/arxc" }
    blankWords config.compilerCommand = ["sh", "my", "dir/arxc"] ∧
      (config.compilerInvocation []).words = ["sh", "my dir/arxc"] := by
  decide

end Config

end CommandSuite
