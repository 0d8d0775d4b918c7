import SiblingQuery.Proofs.Runs
import SiblingQuery.Proofs.Saving

/-!
# A run that fails leaves nothing behind

What a run changes is a `World`: the text on the standard output, and the files.  Each step of a run
that can change it is looked at on its own.  Printing changes the output only, and saving the files
only.  Saving can fail on a `Medium` at any of its own steps; but a failure to save leaves the files
as they were as soon as it has been released (`Store.release_saveOn`), and a run releases it.

A run prints or saves in its last step only, and that step comes after everything else has
succeeded.  So whatever fails, the world is as it was (`Arguments.deliver_cases`).  Only the standard
output itself can break off after it has taken a part of the text, and not even then has a file
changed.
-/

namespace SiblingQuery

variable {medium : Medium}

/-- Whichever step of saving fails, nothing is left once the failure has been released. -/
lemma Store.release_saveOn (hmedium : medium.IsSound) {store after : Store} {path text : String}
    {failure : SaveFailure} (h : store.saveOn medium path text = (.error failure, after)) :
    failure.release after = store := by
  rcases saveOn_cases hmedium store path text with
    ⟨error, hsave⟩ | ⟨fresh, octets, hunused, hsave⟩ | ⟨_, target, octets, -, -, -, hsave⟩
  · rw [hsave] at h
    cases h
    rfl
  · rw [hsave] at h
    cases h
    show (store.put fresh (.file octets)).erase fresh = store
    rw [erase_put, erase_eq_self hunused]
  · rw [hsave] at h
    cases h

/-! ## Steps -/

namespace World

/-- A text is printed whole, or up to where the standard output takes no more. -/
lemma print_cases (medium : Medium) (world : World) (text : String) :
    world.print medium text = (true, { world with output := world.output ++ text }) ∨
      ∃ part, medium.cut? text = some part ∧
        world.print medium text = (false, { world with output := world.output ++ part }) := by
  cases hcut : medium.cut? text with
  | none => exact .inl (by simp [print, hcut])
  | some part => exact .inr ⟨part, rfl, by simp [print, hcut]⟩

/-- A failure to save changes nothing at all. -/
lemma save_cases (hmedium : medium.IsSound) (world : World) (path text : String) :
    (∃ after, world.save medium path text = (.ok (), { world with store := after })) ∨
      ∃ error, world.save medium path text = (.error error, world) := by
  rcases hsave : world.store.saveOn medium path text with ⟨_ | _, after⟩
  · next failure =>
    have hreleased := Store.release_saveOn hmedium hsave
    exact .inr ⟨failure.error, by simp [save, hsave, hreleased]⟩
  · exact .inl ⟨after, by simp [save, hsave]⟩

end World

/-- Arguments that do not come to a search are answered, or nothing happens. -/
lemma Halt.deliver_cases (medium : Medium) (halt : Halt) (world : World) :
    (∃ after, halt.deliver medium world = (.done, after)) ∨
      halt.deliver medium world = (.misused, world) := by
  cases halt with
  | help => exact .inl ⟨_, rfl⟩
  | version => exact .inl ⟨_, rfl⟩
  | misuse => exact .inr rfl

/-- A result is printed or saved, or there is a failure that changes nothing, or the standard output
takes no more than a part of the text. -/
lemma Arguments.deliver_cases (hmedium : medium.IsSound) (arguments : Arguments)
    (result : Except Failure String) (world : World) :
    (∃ after, arguments.deliver medium result world = (.done, after)) ∨
    (∃ failure, arguments.deliver medium result world = (.failed failure, world)) ∨
    ∃ text part, medium.cut? text = some part ∧ arguments.deliver medium result world =
      (.broken, { world with output := world.output ++ part }) := by
  cases result with
  | error failure => exact .inr (.inl ⟨failure, rfl⟩)
  | ok text =>
    cases houtput : arguments.output with
    | none =>
      rcases world.print_cases medium text with hprint | ⟨part, hcut, hprint⟩
      · exact .inl ⟨_, by simp only [deliver, houtput, hprint]; rfl⟩
      · exact .inr (.inr ⟨text, part, hcut, by simp only [deliver, houtput, hprint]⟩)
    | some path =>
      rcases world.save_cases hmedium path text with ⟨after, hsave⟩ | ⟨error, hsave⟩
      · exact .inl ⟨_, by simp only [deliver, houtput, hsave]; rfl⟩
      · exact .inr (.inl ⟨.save path error, by simp only [deliver, houtput, hsave]⟩)

/-! ## Runs -/

/-- A run that does not end well leaves every file as it was.  Whatever has failed, be it the
arguments, the input, the search, the format or saving, nothing has been printed on the standard
output; only where the standard output itself breaks off is there what it has taken of a text. -/
theorem runOn_of_code_ne_zero (hmedium : medium.IsSound) {line : List String}
    {around : Surroundings} {store : Store} (h : (runOn medium line around store).ending.code ≠ 0) :
    (runOn medium line around store).store = store ∧
      ((runOn medium line around store).ending.stop ≠ .broken →
        (runOn medium line around store).ending.output = "") ∧
      ((runOn medium line around store).ending.stop = .broken →
        ∃ text, medium.cut? text = some (runOn medium line around store).ending.output) := by
  cases hparse : Arguments.parse line with
  | error halt =>
    simp only [runOn, hparse] at h ⊢
    rcases halt.deliver_cases medium ⟨"", store⟩ with ⟨after, hdeliver⟩ | hdeliver
    · rw [hdeliver] at h
      exact absurd rfl h
    · rw [hdeliver]
      exact ⟨rfl, fun _ => rfl, fun hstop => by cases hstop⟩
  | ok arguments =>
    simp only [runOn, hparse] at h ⊢
    rcases arguments.deliver_cases hmedium (arguments.answer around.settingsUsed
      (arguments.intake around.input store)).result ⟨"", store⟩ with
      ⟨after, hdeliver⟩ | ⟨failure, hdeliver⟩ | ⟨text, part, hcut, hdeliver⟩
    · rw [hdeliver] at h
      exact absurd rfl h
    · rw [hdeliver]
      exact ⟨rfl, fun _ => rfl, fun hstop => by cases hstop⟩
    · rw [hdeliver]
      exact ⟨rfl, fun hstop => absurd rfl hstop, fun _ => ⟨text, by simpa using hcut⟩⟩

/-- A search succeeds and its answer is written to a fresh file, but the fresh file cannot take the
place of an older one: the run fails at its very last step, and the older file is left alone.  Where
the answer is to be printed and the standard output takes one character of it, the files are left
alone as well. -/
theorem runOn_of_code_ne_zero_stuck :
    let stuck : Medium := { Medium.reliable with moves := false }
    let full : Medium := { Medium.reliable with cut? := fun _ => some "[" }
    let line := ["-a0", "--compact"]
    let around : Surroundings :=
      ⟨Utf8.encode "\x7b\"type\":\"r\",\"children\":[]\x7d", "/home", .missing, none⟩
    let before : Store := ⟨[(["out.json"], .file [1]), (["work"], .directory)], ["work"]⟩
    stuck.IsSound ∧ full.IsSound ∧
      (runOn stuck (line ++ ["-o../out.json"]) around before).ending =
        .failed (.save "../out.json" .noTarget) ∧
      (runOn stuck (line ++ ["-o../out.json"]) around before).ending.code ≠ 0 ∧
      (runOn stuck (line ++ ["-o../out.json"]) around before).ending.output = "" ∧
      (runOn stuck (line ++ ["-o../out.json"]) around before).store = before ∧
      (runOn full line around before).ending = ⟨.broken, "["⟩ ∧
      (runOn full line around before).store = before := by
  intro stuck full line around before
  have hstuck : stuck.IsSound :=
    ⟨Medium.isSound_reliable.unused, Medium.isSound_reliable.decompress?_compress⟩
  have hfull : full.IsSound :=
    ⟨Medium.isSound_reliable.unused, Medium.isSound_reliable.decompress?_compress⟩
  let arguments (output : Option String) : Arguments :=
    ⟨none, "", "0", [], none, true, output, 0⟩
  have hparse : Arguments.parse line = .ok (arguments none) := by decide +kernel
  have hparse' : Arguments.parse (line ++ ["-o../out.json"]) =
      .ok (arguments (some "../out.json")) := by decide +kernel
  have hload : (Intake.input around.input).load = .ok (.parent "r" []) := by
    -- the text on the standard input is the printed tree
    have hprinted : around.input =
        .octets (Utf8.encode (String.ofList (Node.parent "r" []).toJson.compact)) := by
      decide +kernel
    have hwell : (Node.parent "r" []).WellFormed := Node.wellFormed_parent "r" nofun
    have hwhole : (Node.parent "r" []).IsWhole := Node.isWhole_parent "r" nofun
    rw [hprinted]
    exact hwell.loadOctets_compact hwhole (by decide)
  have hanswer (output : Option String) : ((arguments output).answer around.settingsUsed
      ((arguments output).intake around.input before)).result = .ok "[]\n" := by
    have hafter : Position.parse "0" = .ok (.index 0) := by rfl
    have hsearch : (arguments output).search (.parent "r" []) = .ok ⟨"r", 0, 0, []⟩ :=
      Arguments.search_eq_ok_iff.2 ⟨.root (.parent "r" []) 0, 0, .any, rfl, hafter, rfl, rfl⟩
    have hrender : (arguments none).render around.settingsUsed [] = .ok "[]\n" := by decide +kernel
    exact Arguments.answer_result_eq_ok_iff.2 ⟨_, _, hload, hsearch, hrender⟩
  have hsave : before.saveOn stuck "../out.json" "[]\n" = (.error ⟨.noTarget, some [".tmp0"]⟩,
      before.put [".tmp0"] (.file (Utf8.encode "[]\n"))) := by decide +kernel
  have hfailed : (runOn stuck (line ++ ["-o../out.json"]) around before).ending =
      .failed (.save "../out.json" .noTarget) := by
    simp [runOn, hparse', Arguments.deliver, World.save, hanswer, arguments, hsave, Ending.failed]
  have hbroken : (runOn full line around before).ending = ⟨.broken, "["⟩ := by
    simp [runOn, hparse, Arguments.deliver, World.print, hanswer, arguments, full]
  have hcode : (runOn stuck (line ++ ["-o../out.json"]) around before).ending.code ≠ 0 := by
    rw [hfailed]
    decide
  have hcode' : (runOn full line around before).ending.code ≠ 0 := by
    rw [hbroken]
    decide
  obtain ⟨hstore, houtput, -⟩ := runOn_of_code_ne_zero hstuck hcode
  refine ⟨hstuck, hfull, hfailed, hcode, houtput ?_, hstore, hbroken,
    (runOn_of_code_ne_zero hfull hcode').1⟩
  rw [hfailed]
  rintro ⟨⟩

end SiblingQuery
