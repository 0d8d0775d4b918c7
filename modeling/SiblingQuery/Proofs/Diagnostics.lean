import Mathlib.Logic.Relation
import SiblingQuery.Command.Run
import SiblingQuery.Proofs.CommandLines

/-!
# Diagnostics change no result

Which records a run shows is a matter of the switches for more records, of the filter that is given
from outside and of the level in the settings.  None of the three has a part in what the run comes
to: how it ends, with its exit status, its output and what it says about a failure, and what it
leaves in the store.

`Louder` puts one switch more into a command line, and the equivalence that it generates relates the
lines that differ in such switches only.  Settings that cannot be loaded are worth a record, and
otherwise the run is the one without settings.
-/

namespace SiblingQuery

/-! ## Switches for more records -/

/-- The second line is the first with one switch for more records put in: as an argument of its
own, or as a letter among the letters after one hyphen, where no option stands before it that
would take it for its value. -/
inductive Louder : List String → List String → Prop
  | argument {before : List String} (h : CommandLine.EndsReady before) {switch : String}
      (hswitch : switch = "-v" ∨ switch = "--verbose") (after : List String) :
      Louder (before ++ after) (before ++ switch :: after)
  | letter {before : List String} (h : CommandLine.EndsReady before) {letters : List Char}
      (hletters : ∀ c ∈ letters, ∀ option, CommandOption.ofLetter? c ≠ some (.value option))
      {rest : List Char} (hfirst : ∃ c ∈ (letters ++ rest).head?, c ≠ '-') (after : List String) :
      Louder (before ++ String.ofList ('-' :: (letters ++ rest)) :: after)
        (before ++ String.ofList ('-' :: (letters ++ 'v' :: rest)) :: after)

namespace CommandLine

variable {read : CommandLine}

lemma letters_insert {front : List Char}
    (hfront : ∀ c ∈ front, ∀ option, CommandOption.ofLetter? c ≠ some (.value option))
    (rest : List Char) (read : CommandLine) :
    letters (front ++ 'v' :: rest) read = (letters (front ++ rest) read).map raise := by
  induction front generalizing read with
  | nil => exact letters_raise rest read
  | cons letter front ih =>
    have ih := ih fun c hc => hfront c (List.mem_cons_of_mem _ hc)
    rw [List.cons_append, List.cons_append, letters, letters]
    cases hletter : CommandOption.ofLetter? letter with
    | none => rfl
    | some option =>
      cases option with
      | switch switch =>
        simp only
        cases read.flip switch with
        | error halt => rfl
        | ok next => exact ih next
      | value option => exact absurd hletter (hfront letter List.mem_cons_self option)

lemma step_letters (hawaiting : read.awaiting = none) (hfiles : read.onlyFiles = false)
    {text : List Char} (hfirst : ∃ c ∈ text.head?, c ≠ '-') :
    step read (String.ofList ('-' :: text)) = letters text read := by
  obtain ⟨c, hc, hhyphen⟩ := hfirst
  obtain ⟨rest, rfl⟩ := List.head?_eq_some_iff.1 hc
  rw [step_of_ready hawaiting hfiles, String.toList_ofList]
  split
  · next heq => simp_all
  · next heq => simp_all
  · next heq => simp_all
  · next heq => exact absurd rfl (heq c rest)

end CommandLine

namespace Arguments

variable {line line' : List String} {arguments arguments' : Arguments}

/-- The arguments without any wish for records. -/
def quiet (arguments : Arguments) : Arguments := { arguments with verbosity := 0 }

lemma quiet_finish_raise (read : CommandLine) :
    read.raise.finish.map quiet = read.finish.map quiet := by
  simp only [CommandLine.finish, CommandLine.raise]
  split <;> rfl

/-- A line that is read from some state on as another one from the raised state is the same, up to
the number of records asked for. -/
lemma quiet_parse_of_map_raise
    (h : line'.foldlM CommandLine.step {} = (line.foldlM CommandLine.step {}).map .raise) :
    (parse line').map quiet = (parse line).map quiet := by
  unfold parse
  rw [h]
  cases line.foldlM CommandLine.step {} with
  | error halt => rfl
  | ok read => exact quiet_finish_raise read

/-- One switch for more records changes nothing but the number of records asked for. -/
lemma quiet_parse_of_louder (h : Louder line line') :
    (parse line').map quiet = (parse line).map quiet := by
  apply quiet_parse_of_map_raise
  -- the new switch is an argument of its own, or a letter in a group of letters
  cases h with
  | argument hready hswitch after =>
    rcases hready.cases with ⟨halt, hhalt⟩ | ⟨read, hawaiting, hfiles, hread⟩
    · rw [hhalt, hhalt]
      rfl
    · have hstep : ∀ switch, switch = "-v" ∨ switch = "--verbose" →
          CommandLine.step read switch = .ok read.raise := by
        rintro switch (rfl | rfl) <;> rw [CommandLine.step_of_ready hawaiting hfiles] <;> rfl
      rw [hread, hread, List.foldlM_cons, hstep _ hswitch]
      exact CommandLine.foldlM_step_raise after read
  | letter hready hletters hfirst after =>
    rename_i before letters rest
    rcases hready.cases with ⟨halt, hhalt⟩ | ⟨read, hawaiting, hfiles, hread⟩
    · rw [hhalt, hhalt]
      rfl
    · have hfirst' : ∃ c ∈ (letters ++ 'v' :: rest).head?, c ≠ '-' := by
        cases letters with
        | nil => exact ⟨'v', rfl, by decide⟩
        | cons c letters => exact hfirst
      rw [hread, hread, List.foldlM_cons, List.foldlM_cons,
        CommandLine.step_letters hawaiting hfiles hfirst,
        CommandLine.step_letters hawaiting hfiles hfirst',
        CommandLine.letters_insert hletters]
      cases CommandLine.letters (letters ++ rest) read with
      | error halt => rfl
      | ok next => exact CommandLine.foldlM_step_raise after next

/-- Lines that differ in switches for more records only ask for the same. -/
lemma quiet_parse_of_eqvGen (h : Relation.EqvGen Louder line line') :
    (parse line).map quiet = (parse line').map quiet := by
  induction h with
  | rel _ _ h => exact (quiet_parse_of_louder h).symm
  | refl _ => rfl
  | symm _ _ _ ih => exact ih.symm
  | trans _ _ _ _ _ ih ih' => exact ih.trans ih'

end Arguments

/-! ## Settings for records -/

/-- Settings that differ in the level for records only. -/
def Settings.SameButLog (settings settings' : Settings) : Prop :=
  ∃ level, settings' = { settings with logLevel := level }

/-- What surrounds two runs that differ in diagnostics only: the filter from outside is any, and if
the settings are not the same, both can be loaded and differ in the level for records. -/
structure Surroundings.SameButLog (around around' : Surroundings) : Prop where
  input : around.input = around'.input
  home : around.home = around'.home
  settings : around.settings = around'.settings ∨
    ∃ settings settings', Settings.load around.home around.settings = .ok settings ∧
      Settings.load around'.home around'.settings = .ok settings' ∧ settings.SameButLog settings'

lemma Surroundings.SameButLog.used {around around' : Surroundings}
    (h : around.SameButLog around') : around.settingsUsed.SameButLog around'.settingsUsed := by
  rcases h.settings with heq | ⟨settings, settings', hload, hload', hsame⟩
  · exact ⟨around.settingsUsed.logLevel, by
      rw [Surroundings.settingsUsed, Surroundings.settingsUsed, h.home, heq]⟩
  · rwa [Surroundings.settingsUsed, Surroundings.settingsUsed, hload, hload']

/-- The answer to the arguments has no use for the number of records asked for, nor for the level
in the settings. -/
lemma Arguments.answer_of_sameButLog {arguments arguments' : Arguments}
    (harguments : arguments.quiet = arguments'.quiet) {settings settings' : Settings}
    (hsettings : settings.SameButLog settings') (intake : Intake) :
    arguments.answer settings intake = arguments'.answer settings' intake := by
  obtain ⟨level, rfl⟩ := hsettings
  calc arguments.answer settings intake = arguments.quiet.answer settings intake := rfl
    _ = arguments'.quiet.answer settings intake := by rw [harguments]
    _ = arguments'.answer { settings with logLevel := level } intake := rfl

/-! ## Runs -/

/-- Two runs come to the same: they end in the same way, hence with the same exit status, the same
output and the same said about a failure, and leave the same files. -/
structure Outcome.SameResult (outcome outcome' : Outcome) : Prop where
  ending : outcome.ending = outcome'.ending
  store : outcome.store = outcome'.store

lemma runOn_of_sameButLog {line line' : List String}
    (hline : (Arguments.parse line).map Arguments.quiet =
      (Arguments.parse line').map Arguments.quiet)
    {around around' : Surroundings} (hinput : around.input = around'.input)
    (hsettings : around.settingsUsed.SameButLog around'.settingsUsed) (medium : Medium)
    (store : Store) :
    (runOn medium line around store).SameResult (runOn medium line' around' store) := by
  cases hparse : Arguments.parse line with
  | error halt =>
    cases hparse' : Arguments.parse line' with
    | error halt' =>
      rw [hparse, hparse'] at hline
      obtain rfl := Except.error.inj hline
      simp only [runOn, hparse, hparse']
      exact ⟨rfl, rfl⟩
    | ok arguments' => simp [hparse, hparse', Except.map] at hline
  | ok arguments =>
    cases hparse' : Arguments.parse line' with
    | error halt' => simp [hparse, hparse', Except.map] at hline
    | ok arguments' =>
      rw [hparse, hparse'] at hline
      have hquiet : arguments.quiet = arguments'.quiet := Except.ok.inj hline
      -- loading and saving never look at the number of records
      have hintake : arguments.intake around.input store =
          arguments'.intake around'.input store := by
        calc arguments.intake around.input store = arguments.quiet.intake around.input store := rfl
          _ = arguments'.quiet.intake around'.input store := by rw [hquiet, hinput]
          _ = arguments'.intake around'.input store := rfl
      have hdeliver : ∀ result world, arguments.deliver medium result world =
          arguments'.deliver medium result world := by
        intro result world
        calc arguments.deliver medium result world
            = arguments.quiet.deliver medium result world := rfl
          _ = arguments'.quiet.deliver medium result world := by rw [hquiet]
          _ = arguments'.deliver medium result world := rfl
      simp only [runOn, hparse, hparse', hintake,
        Arguments.answer_of_sameButLog hquiet hsettings, hdeliver]
      exact ⟨rfl, rfl⟩

/-- Diagnostics change no result, on whatever medium the result is printed or saved.  Runs with the
same arguments, input and files come to the same, however many switches for more records there are,
whatever filter for records is given from outside, and whatever level is in the settings.  And
settings that cannot be loaded, because their file cannot be read, or is no text or no settings,
come to the same as no settings file at all. -/
theorem diagnostics_change_no_result (medium : Medium) (store : Store) :
    (∀ line line' around around', Relation.EqvGen Louder line line' →
      Surroundings.SameButLog around around' →
      (runOn medium line around store).SameResult (runOn medium line' around' store)) ∧
    ∀ line around error, Settings.load around.home around.settings = .error error →
      (runOn medium line around store).SameResult
        (runOn medium line { around with settings := .missing } store) := by
  constructor
  · intro line line' around around' hline haround
    exact runOn_of_sameButLog (Arguments.quiet_parse_of_eqvGen hline) haround.input
      haround.used medium store
  · intro line around error herror
    have hused : around.settingsUsed = .standard := by
      rw [Surroundings.settingsUsed, herror]
    refine runOn_of_sameButLog rfl ?_ ⟨Settings.standard.logLevel, ?_⟩ medium store
    · rfl
    · rw [hused]
      rfl

/-- Three switches more, the settings' level, the filter from outside; and settings of which one has
a value of the wrong type, or whose file cannot be read. -/
theorem diagnostics_change_no_result_loud :
    let line := ["-fyaml", "-a0"]
    let loud := ["--verbose", "-vfyaml", "-a0", "-v"]
    let input := Utf8.encode "\x7b\"type\":\"r\",\"children\":[]\x7d"
    let around : Surroundings :=
      ⟨input, "/home", .content (Utf8.encode "log_level = \"info\""), none⟩
    let other : Surroundings :=
      ⟨input, "/home", .content (Utf8.encode "log_level = \"off\""), some "trace"⟩
    let broken : Surroundings := ⟨input, "/home", .content (Utf8.encode "pretty = 1"), none⟩
    let locked : Surroundings := ⟨input, "/home", .unreadable, none⟩
    let bare : Surroundings := ⟨input, "/home", .missing, none⟩
    (runOn .reliable line around .empty).SameResult (runOn .reliable loud other .empty) ∧
      (runOn .reliable line broken .empty).SameResult (runOn .reliable line bare .empty) ∧
      (runOn .reliable line locked .empty).SameResult (runOn .reliable line bare .empty) := by
  intro line loud input around other broken locked bare
  have hline : Relation.EqvGen Louder line loud := by
    have hbefore := @Louder.argument [] (.of_eq_ok rfl rfl rfl) "--verbose" (.inr rfl) line
    have hletter := @Louder.letter ["--verbose"] (.of_eq_ok rfl rfl rfl) [] nofun
      ['f', 'y', 'a', 'm', 'l'] ⟨'f', rfl, by decide⟩ ["-a0"]
    have hafter := @Louder.argument ["--verbose", "-vfyaml", "-a0"] (.of_eq_ok rfl rfl rfl) "-v"
      (.inl rfl) []
    exact .trans _ _ _ (.rel _ _ hbefore) (.trans _ _ _ (.rel _ _ hletter) (.rel _ _ hafter))
  have haround : around.SameButLog other :=
    { input := rfl
      home := rfl
      settings := .inr ⟨⟨"json", true, "info"⟩, ⟨"json", true, "off"⟩, by decide +kernel,
        by decide +kernel, "off", rfl⟩ }
  have hbroken : Settings.load broken.home broken.settings =
      .error (.malformed ("/home/" ++ Settings.path)) := by decide +kernel
  have hlocked : Settings.load locked.home locked.settings =
      .error (.unreadable ("/home/" ++ Settings.path)) := rfl
  exact ⟨(diagnostics_change_no_result .reliable .empty).1 line loud around other hline haround,
    (diagnostics_change_no_result .reliable .empty).2 line broken _ hbroken,
    (diagnostics_change_no_result .reliable .empty).2 line locked _ hlocked⟩

end SiblingQuery
