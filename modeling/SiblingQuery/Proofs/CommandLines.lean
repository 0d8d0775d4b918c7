import Mathlib.Data.List.Basic
import SiblingQuery.Command.Arguments

/-!
# What one more option changes in a command line

The machine that reads a command line takes one argument at a time, and an option may stand wherever
no value is awaited and two hyphens alone have not been read (`CommandLine.EndsReady`).

Two options are put into a command line here.  No later argument looks at the number of records
asked for, so one switch for more of them is carried through the rest of the line and changes
nothing but that number.  A file to save to is looked at by a second such option only: if none is
given, it is carried through as well.
-/

namespace SiblingQuery

namespace CommandLine

variable {read next last : CommandLine} {before after : List String}

/-- After these arguments an option may stand. -/
def EndsReady (before : List String) : Prop :=
  ∀ read, before.foldlM step {} = .ok read → read.awaiting = none ∧ read.onlyFiles = false

lemma EndsReady.of_eq_ok (h : before.foldlM step {} = .ok read) (hawaiting : read.awaiting = none)
    (hfiles : read.onlyFiles = false) : EndsReady before := by
  intro read' h'
  obtain rfl := Except.ok.inj (h.symm.trans h')
  exact ⟨hawaiting, hfiles⟩

/-- What follows changes nothing once reading has stopped; else it is read in a place that is
ready. -/
lemma EndsReady.cases (h : EndsReady before) :
    (∃ halt, ∀ rest, (before ++ rest).foldlM step {} = .error halt) ∨
      ∃ read, read.awaiting = none ∧ read.onlyFiles = false ∧
        ∀ rest, (before ++ rest).foldlM step {} = rest.foldlM step read := by
  cases hbefore : before.foldlM step {} with
  | error halt =>
    left
    refine ⟨halt, fun rest => ?_⟩
    rw [List.foldlM_append, hbefore]
    rfl
  | ok read =>
    right
    obtain ⟨hawaiting, hfiles⟩ := h read hbefore
    refine ⟨read, hawaiting, hfiles, fun rest => ?_⟩
    rw [List.foldlM_append, hbefore]
    rfl

lemma step_of_awaiting {option : ValueOption} {argument : String}
    (hawaiting : read.awaiting = some option) :
    step read argument =
      if option.takesAny || !looksLikeOption argument then
        fill option argument { read with awaiting := none }
      else .error .misuse := by
  simp only [step, hawaiting]

lemma step_of_onlyFiles {argument : String} (hawaiting : read.awaiting = none)
    (hfiles : read.onlyFiles = true) : step read argument = read.takeFile argument := by
  simp only [step, hawaiting, hfiles, if_true]

lemma step_of_ready {argument : String} (hawaiting : read.awaiting = none)
    (hfiles : read.onlyFiles = false) :
    step read argument =
      match argument.toList with
      | ['-', '-'] => .ok { read with onlyFiles := true }
      | '-' :: '-' :: text => read.named text
      | '-' :: letter :: rest => read.letters (letter :: rest)
      | _ => read.takeFile argument := by
  unfold step
  rw [hawaiting, hfiles]
  rfl

/-! ## One more switch for records -/

/-- One more record level is asked for. -/
def raise (read : CommandLine) : CommandLine := { read with verbosity := read.verbosity + 1 }

lemma fill_raise (option : ValueOption) (value : String) (read : CommandLine) :
    fill option value read.raise = (fill option value read).map raise := by
  cases option with
  | test => rfl
  | parent => cases read with | mk _ parent => cases parent <;> rfl
  | after => cases read with | mk _ _ after => cases after <;> rfl
  | format => cases read with | mk _ _ _ _ format => cases format <;> rfl
  | output =>
    simp only [fill, onceFile]
    split_ifs
    · rfl
    · cases read with | mk _ _ _ _ _ _ output => cases output <;> rfl

lemma flip_raise (switch : Switch) (read : CommandLine) :
    flip switch read.raise = (flip switch read).map raise := by
  cases switch with
  | compact => cases read with | mk _ _ _ _ _ compact => cases compact <;> rfl
  | verbose => rfl
  | help => rfl
  | version => rfl

lemma takeFile_raise (name : String) (read : CommandLine) :
    takeFile name read.raise = (takeFile name read).map raise := by
  simp only [takeFile, onceFile]
  split_ifs
  · rfl
  · cases read with | mk file => cases file <;> rfl

lemma letters_raise (text : List Char) (read : CommandLine) :
    letters text read.raise = (letters text read).map raise := by
  induction text generalizing read with
  | nil => rfl
  | cons letter rest ih =>
    rw [letters, letters]
    cases CommandOption.ofLetter? letter with
    | none => rfl
    | some option =>
      cases option with
      | switch switch =>
        simp only [flip_raise]
        cases read.flip switch with
        | error halt => rfl
        | ok next => exact ih next
      | value option =>
        simp only
        split
        · rfl
        · exact fill_raise _ _ _
        · exact fill_raise _ _ _

lemma named_raise (text : List Char) (read : CommandLine) :
    named text read.raise = (named text read).map raise := by
  simp only [named]
  split
  · rfl
  · exact fill_raise _ _ _
  · exact flip_raise _ _
  · rfl

lemma step_raise (read : CommandLine) (argument : String) :
    step read.raise argument = (step read argument).map raise := by
  cases hawaiting : read.awaiting with
  | some option =>
    rw [step_of_awaiting hawaiting,
      step_of_awaiting (show read.raise.awaiting = some option from hawaiting)]
    split_ifs
    · exact fill_raise _ _ { read with awaiting := none }
    · rfl
  | none =>
    have hraised : read.raise.awaiting = none := hawaiting
    cases hfiles : read.onlyFiles with
    | true =>
      rw [step_of_onlyFiles hawaiting hfiles, step_of_onlyFiles hraised hfiles]
      exact takeFile_raise _ _
    | false =>
      rw [step_of_ready hawaiting hfiles, step_of_ready hraised hfiles]
      split
      · rfl
      · exact named_raise _ _
      · exact letters_raise _ _
      · exact takeFile_raise _ _

/-- No later argument looks at the number of records asked for. -/
lemma foldlM_step_raise (line : List String) (read : CommandLine) :
    line.foldlM step read.raise = (line.foldlM step read).map raise := by
  induction line generalizing read with
  | nil => rfl
  | cons argument line ih =>
    rw [List.foldlM_cons, List.foldlM_cons, step_raise]
    cases step read argument with
    | error halt => rfl
    | ok next => exact ih next

/-! ## A file to save to -/

/-- A file to save to is given. -/
def saveTo (path : String) (read : CommandLine) : CommandLine := { read with output := some path }

lemma fill_saveTo (path : String) {option : ValueOption} {value : String}
    (h : fill option value read = .ok next) (hnone : next.output = none) :
    read.output = none ∧ fill option value (read.saveTo path) = .ok (next.saveTo path) := by
  cases read with | mk file parent after tests format compact output => ?_
  cases option with
  | test =>
    cases h
    exact ⟨hnone, rfl⟩
  | parent =>
    cases parent <;> cases h
    exact ⟨hnone, rfl⟩
  | after =>
    cases after <;> cases h
    exact ⟨hnone, rfl⟩
  | format =>
    cases format <;> cases h
    exact ⟨hnone, rfl⟩
  | output =>
    simp only [fill, onceFile] at h
    split_ifs at h
    · cases h
    · cases output <;> cases h
      cases hnone

lemma flip_saveTo (path : String) {switch : Switch} (h : flip switch read = .ok next)
    (hnone : next.output = none) :
    read.output = none ∧ flip switch (read.saveTo path) = .ok (next.saveTo path) := by
  cases read with | mk file parent after tests format compact output => ?_
  cases switch with
  | compact =>
    cases compact <;> cases h
    exact ⟨hnone, rfl⟩
  | verbose =>
    cases h
    exact ⟨hnone, rfl⟩
  | help => cases h
  | version => cases h

lemma takeFile_saveTo (path : String) {name : String} (h : takeFile name read = .ok next)
    (hnone : next.output = none) :
    read.output = none ∧ takeFile name (read.saveTo path) = .ok (next.saveTo path) := by
  cases read with | mk file parent after tests format compact output => ?_
  simp only [takeFile, onceFile, saveTo] at h ⊢
  split_ifs at h ⊢
  · cases h
  · cases file <;> cases h
    exact ⟨hnone, rfl⟩

lemma letters_saveTo (path : String) {text : List Char} (h : letters text read = .ok next)
    (hnone : next.output = none) :
    read.output = none ∧ letters text (read.saveTo path) = .ok (next.saveTo path) := by
  induction text generalizing read with
  | nil =>
    cases h
    exact ⟨hnone, rfl⟩
  | cons letter rest ih =>
    rw [letters] at h ⊢
    cases hletter : CommandOption.ofLetter? letter with
    | none =>
      rw [hletter] at h
      cases h
    | some option =>
      rw [hletter] at h
      cases option with
      | switch switch =>
        simp only at h ⊢
        -- a switch leaves the file to save to alone, so the rest of the letters is read as before
        cases hflip : read.flip switch with
        | error halt =>
          rw [hflip] at h
          cases h
        | ok flipped =>
          rw [hflip] at h
          obtain ⟨hflipped, hrest⟩ := ih h
          obtain ⟨hread, hfirst⟩ := flip_saveTo path hflip hflipped
          rw [hfirst]
          exact ⟨hread, hrest⟩
      | value option =>
        simp only at h ⊢
        -- the option takes what is left of the argument, or else the next argument
        split at h
        · cases h
          exact ⟨hnone, rfl⟩
        · exact fill_saveTo path h hnone
        · exact fill_saveTo path h hnone

lemma named_saveTo (path : String) {text : List Char} (h : named text read = .ok next)
    (hnone : next.output = none) :
    read.output = none ∧ named text (read.saveTo path) = .ok (next.saveTo path) := by
  simp only [named] at h ⊢
  split at h
  · cases h
    exact ⟨hnone, rfl⟩
  · exact fill_saveTo path h hnone
  · exact flip_saveTo path h hnone
  · cases h

lemma step_saveTo (path : String) {argument : String} (h : step read argument = .ok next)
    (hnone : next.output = none) :
    read.output = none ∧ step (read.saveTo path) argument = .ok (next.saveTo path) := by
  cases hawaiting : read.awaiting with
  | some option =>
    rw [step_of_awaiting hawaiting] at h
    rw [step_of_awaiting (show (read.saveTo path).awaiting = some option from hawaiting)]
    split_ifs at h ⊢
    exact fill_saveTo path h hnone
  | none =>
    have hsaving : (read.saveTo path).awaiting = none := hawaiting
    cases hfiles : read.onlyFiles with
    | true =>
      rw [step_of_onlyFiles hawaiting hfiles] at h
      rw [step_of_onlyFiles hsaving hfiles]
      exact takeFile_saveTo path h hnone
    | false =>
      rw [step_of_ready hawaiting hfiles] at h
      rw [step_of_ready hsaving hfiles]
      split at h
      · cases h
        exact ⟨hnone, rfl⟩
      · exact named_saveTo path h hnone
      · exact letters_saveTo path h hnone
      · exact takeFile_saveTo path h hnone

/-- Where no other file to save to is given, the one that is given is carried through. -/
lemma foldlM_step_saveTo (path : String) {line : List String} (h : line.foldlM step read = .ok last)
    (hnone : last.output = none) :
    read.output = none ∧ line.foldlM step (read.saveTo path) = .ok (last.saveTo path) := by
  induction line generalizing read with
  | nil =>
    cases h
    exact ⟨hnone, rfl⟩
  | cons argument line ih =>
    rw [List.foldlM_cons] at h ⊢
    cases hstep : step read argument with
    | error halt =>
      rw [hstep] at h
      cases h
    | ok next =>
      rw [hstep] at h
      obtain ⟨hnext, hrest⟩ := ih h
      obtain ⟨hread, hfirst⟩ := step_saveTo path hstep hnext
      rw [hfirst]
      exact ⟨hread, hrest⟩

end CommandLine

end SiblingQuery
