import SiblingQuery.Proofs.CommandLines
import SiblingQuery.Proofs.Runs
import SiblingQuery.Proofs.Saving

/-!
# A file to save to takes what would be printed

`Redirects` puts a file to save to into a command line.  If the line asks for a search and names no
such file of its own, the same search is carried out, on the files as they are before anything is
saved: so the text that would have been printed is saved, and nothing is printed.

A line that asks for help or for the version asks for no search.  It is answered on the standard
output, whatever else stands in it.
-/

namespace SiblingQuery

/-- The second line is the first with an option put in that gives a file to save to: as a letter or
as a name, with the path attached or after it. -/
inductive Redirects (path : String) : List String → List String → Prop
  | spaced {before : List String} (h : CommandLine.EndsReady before) {option : String}
      (hoption : option = "-o" ∨ option = "--output")
      (hpath : CommandLine.looksLikeOption path = false) (after : List String) :
      Redirects path (before ++ after) (before ++ option :: path :: after)
  | attached {before : List String} (h : CommandLine.EndsReady before) {option : String}
      (hoption : option = "-o=" ∨ option = "--output=") (after : List String) :
      Redirects path (before ++ after) (before ++ (option ++ path) :: after)
  | letter {before : List String} (h : CommandLine.EndsReady before)
      (hpath : path.toList.head? ≠ some '=') (after : List String) :
      Redirects path (before ++ after) (before ++ ("-o" ++ path) :: after)

namespace CommandLine

variable {read : CommandLine} {path : String}

lemma fill_output (hpath : path ≠ "") (hawaiting : read.awaiting = none)
    (hnone : read.output = none) :
    fill .output path { read with awaiting := none } = .ok (read.saveTo path) := by
  cases read with | mk file parent after tests format compact output verbosity awaiting => ?_
  obtain rfl : output = none := hnone
  obtain rfl : awaiting = none := hawaiting
  simp only [fill, onceFile, if_neg hpath]
  rfl

section Given

variable (hpath : path ≠ "") (hawaiting : read.awaiting = none) (hfiles : read.onlyFiles = false)
  (hnone : read.output = none)

include hpath hawaiting hfiles hnone

lemma foldlM_step_spaced {option : String} (hoption : option = "-o" ∨ option = "--output")
    (hlooks : looksLikeOption path = false) :
    [option, path].foldlM step read = .ok (read.saveTo path) := by
  have hawait : step read option = .ok (read.await .output) := by
    rw [step_of_ready hawaiting hfiles]
    rcases hoption with rfl | rfl <;> rfl
  have hvalue : step (read.await .output) path = .ok (read.saveTo path) := by
    rw [step_of_awaiting rfl, hlooks, ← fill_output hpath hawaiting hnone]
    rfl
  rw [List.foldlM_cons, hawait]
  change [path].foldlM step (read.await .output) = _
  rw [List.foldlM_cons, hvalue]
  rfl

lemma step_attached {option : String} (hoption : option = "-o=" ∨ option = "--output=") :
    step read (option ++ path) = .ok (read.saveTo path) := by
  have hfill := fill_output hpath hawaiting hnone
  rw [← hawaiting] at hfill
  rw [step_of_ready hawaiting hfiles, String.toList_append]
  rcases hoption with rfl | rfl
  · change fill .output (String.ofList path.toList) read = _
    rw [String.ofList_toList, ← hfill]
  · change named ("output=".toList ++ path.toList) read = _
    have hspan : ("output=".toList ++ path.toList).span (· ≠ '=') =
        ("output".toList, '=' :: path.toList) := by
      rw [List.span_eq_takeWhile_dropWhile]
      rfl
    rw [named, hspan]
    change fill .output (String.ofList path.toList) read = _
    rw [String.ofList_toList, ← hfill]

lemma step_letter (hfirst : path.toList.head? ≠ some '=') :
    step read ("-o" ++ path) = .ok (read.saveTo path) := by
  have hfill := fill_output hpath hawaiting hnone
  rw [← hawaiting] at hfill
  rw [step_of_ready hawaiting hfiles, String.toList_append]
  change letters ('o' :: path.toList) read = _
  rw [letters]
  simp only [CommandOption.ofLetter?]
  split
  · next heq => exact absurd (String.toList_eq_nil_iff.1 heq) hpath
  · next heq => exact absurd (by rw [heq]; rfl) hfirst
  · rw [String.ofList_toList, ← hfill]

end Given

/-- Wherever an option may stand, each way to give a file to save to does that. -/
lemma foldlM_step_redirects {line line' : List String} (h : Redirects path line line')
    (hpath : path ≠ "") {last : CommandLine} (hline : line.foldlM step {} = .ok last)
    (hnone : last.output = none) : line'.foldlM step {} = .ok (last.saveTo path) := by
  -- whichever way it is given, the arguments differ by a stretch that only sets the file
  obtain ⟨before, given, after, hready, rfl, rfl, hgiven⟩ : ∃ before given after,
      EndsReady before ∧ line = before ++ after ∧ line' = before ++ (given ++ after) ∧
      ∀ read : CommandLine, read.awaiting = none → read.onlyFiles = false → read.output = none →
        given.foldlM step read = .ok (read.saveTo path) := by
    cases h with
    | @spaced before hready option hoption hlooks after =>
      exact ⟨before, [option, path], after, hready, rfl, rfl, fun read hawaiting hfiles hnone =>
        foldlM_step_spaced hpath hawaiting hfiles hnone hoption hlooks⟩
    | @attached before hready option hoption after =>
      refine ⟨before, [option ++ path], after, hready, rfl, rfl, ?_⟩
      intro read hawaiting hfiles hnone
      rw [List.foldlM_cons, step_attached hpath hawaiting hfiles hnone hoption]
      rfl
    | @letter before hready hfirst after =>
      refine ⟨before, ["-o" ++ path], after, hready, rfl, rfl, ?_⟩
      intro read hawaiting hfiles hnone
      rw [List.foldlM_cons, step_letter hpath hawaiting hfiles hnone hfirst]
      rfl
  rcases hready.cases with ⟨halt, hhalt⟩ | ⟨read, hawaiting, hfiles, hread⟩
  · rw [hhalt] at hline
    cases hline
  · rw [hread] at hline
    obtain ⟨houtput, hrest⟩ := foldlM_step_saveTo path hline hnone
    rw [hread, List.foldlM_append, hgiven read hawaiting hfiles houtput]
    exact hrest

end CommandLine

/-- The arguments of a line into which a file to save to is put. -/
lemma Arguments.parse_of_redirects {path : String} {line line' : List String}
    (h : Redirects path line line') (hpath : path ≠ "") {arguments : Arguments}
    (hparse : Arguments.parse line = .ok arguments) (hnone : arguments.output = none) :
    Arguments.parse line' = .ok { arguments with output := some path } := by
  unfold parse at hparse ⊢
  cases hline : line.foldlM CommandLine.step {} with
  | error halt =>
    rw [hline] at hparse
    cases hparse
  | ok last =>
    rw [hline] at hparse
    simp only [CommandLine.finish] at hparse
    split at hparse
    · next after hawaiting hafter =>
      obtain rfl := Except.ok.inj hparse
      rw [CommandLine.foldlM_step_redirects h hpath hline hnone]
      simp only [CommandLine.finish, CommandLine.saveTo, hawaiting, hafter]
    · cases hparse

/-! ## Runs -/

namespace Store

variable {medium : Medium} {store after : Store} {path text : String}

/-- A text that has been saved stands at the target of its path. -/
lemma exists_put_of_saveOn (hmedium : medium.IsSound)
    (h : store.saveOn medium path text = (.ok (), after)) :
    ∃ directory target octets, store.targetDirectory? path = some directory ∧
      store.target? directory path = some target ∧
      medium.written path text = (octets, none) ∧ after = store.put target (.file octets) := by
  rcases saveOn_cases hmedium store path text with
    ⟨error, hsave⟩ | ⟨fresh, octets, -, hsave⟩ |
    ⟨directory, target, octets, hdirectory, htarget, hwritten, hsave⟩
  · rw [hsave] at h
    cases h
  · rw [hsave] at h
    cases h
  · rw [hsave] at h
    cases h
    exact ⟨directory, target, octets, hdirectory, htarget, hwritten, rfl⟩

end Store

/-- A file to save to only redirects.  If a line asks for a search, names no file to save to, and is
printed a text, and if that text can be saved under a path, then the line with an option for the
path saves it: the run succeeds and prints nothing, the path leads to a file with exactly the text,
or with a gzip member that holds it, and every other file is as before.  The path may be that of the
file which is searched. -/
theorem runOn_redirected {medium : Medium} (hmedium : medium.IsSound) {path : String}
    {line line' : List String} (hline : Redirects path line line') {arguments : Arguments}
    (hparse : Arguments.parse line = .ok arguments) (hnone : arguments.output = none)
    {around : Surroundings} {store after : Store} {text : String}
    (hprinted : (runOn medium line around store).ending = .printed text)
    (hsave : store.saveOn medium path text = (.ok (), after)) :
    (runOn medium line' around store).ending = .printed "" ∧
      (runOn medium line' around store).store = after ∧
      ∃ target octets, after.find? path = some (target, .file octets) ∧
        (path.endsWith ".gz" = false → octets = Utf8.encode text) ∧
        (path.endsWith ".gz" = true → octets = medium.compress (Utf8.encode text) ∧
          Gzip.decompress? octets = some (Utf8.encode text)) ∧
        ∀ other, other ≠ target → after.get? other = store.get? other := by
  obtain ⟨directory, target, octets, hdirectory, htarget, hwritten, rfl⟩ :=
    Store.exists_put_of_saveOn hmedium hsave
  have hpath : path ≠ "" := by
    rintro rfl
    simp [Store.target?, PathText.needsDirectory, PathText.pieces, Text.splitOn] at htarget
  have hparse' := Arguments.parse_of_redirects hline hpath hparse hnone
  -- the answer is found before anything is saved, so it is the one that would have been printed
  have hanswer : (arguments.answer around.settingsUsed
      (arguments.intake around.input store)).result = .ok text := by
    cases hresult : (arguments.answer around.settingsUsed
        (arguments.intake around.input store)).result with
    | error failure =>
      simp [runOn, hparse, Arguments.deliver, hresult, Ending.printed] at hprinted
    | ok answer =>
      cases hcut : medium.cut? answer with
      | none =>
        simp only [runOn, hparse, Arguments.deliver, hresult, hnone, World.print, hcut,
          Ending.printed, Ending.mk.injEq, String.empty_append, true_and] at hprinted
        rw [hprinted]
      | some part =>
        simp [runOn, hparse, Arguments.deliver, hresult, hnone, World.print, hcut,
          Ending.printed] at hprinted
  have hrun : runOn medium line' around store = ⟨.printed "",
      (runOn medium line' around store).records, store.put target (.file octets)⟩ := by
    have hsaved : Arguments.deliver { arguments with output := some path } medium (.ok text)
        ⟨"", store⟩ = (.done, ⟨"", store.put target (.file octets)⟩) := by
      simp only [Arguments.deliver, World.save, hsave]
    have hsame : (Arguments.answer { arguments with output := some path } around.settingsUsed
        (Arguments.intake { arguments with output := some path } around.input store)).result =
        .ok text := hanswer
    simp only [runOn, hparse', hsame, hsaved, Ending.printed]
  have hoctets := Medium.eq_of_written hwritten
  rw [hrun]
  refine ⟨rfl, rfl, target, octets, Store.find?_put_target hdirectory htarget octets, ?_, ?_, ?_⟩
  · intro hplain
    rw [hoctets, hplain]
    rfl
  · intro hgzip
    rw [hgzip, if_pos rfl] at hoctets
    exact ⟨hoctets, hoctets ▸ hmedium.decompress?_compress _⟩
  · intro other hother
    exact Store.get?_put_of_ne hother

/-- The file that is searched is replaced by what was found in it, although its path is not written
in the same way. -/
theorem runOn_redirected_in_place :
    let tree := Node.parent "r" [.leaf "a", .leaf "b"]
    let line := ["tree.json", "-a0", "--compact"]
    let line' := line ++ ["--output", "/work/../work/tree.json"]
    let around : Surroundings := ⟨.terminal, "/home", .missing, none⟩
    let before : Store := ⟨[(["work"], .directory),
      (["work", "tree.json"], .file (Utf8.encode (String.ofList tree.toJson.compact)))], ["work"]⟩
    (runOn .reliable line around before).ending = .printed "[\x7b\"type\":\"b\"\x7d]\n" ∧
      (runOn .reliable line' around before).ending = .printed "" ∧
      (runOn .reliable line' around before).store.find? "tree.json" =
        some (["work", "tree.json"], .file (Utf8.encode "[\x7b\"type\":\"b\"\x7d]\n")) := by
  intro tree line line' around before
  let arguments : Arguments := ⟨some "tree.json", "", "0", [], none, true, none, 0⟩
  have hparse : Arguments.parse line = .ok arguments := by decide +kernel
  have hline : Redirects "/work/../work/tree.json" line line' :=
    @Redirects.spaced "/work/../work/tree.json" line (.of_eq_ok rfl rfl rfl) "--output" (.inr rfl)
      (by decide +kernel) []
  have hwell : tree.WellFormed :=
    Node.wellFormed_parent "r" (List.forall_mem_cons.2
      ⟨Node.wellFormed_leaf "a", List.forall_mem_singleton.2 (Node.wellFormed_leaf "b")⟩)
  have hwhole : tree.IsWhole :=
    Node.isWhole_parent "r" (List.forall_mem_cons.2
      ⟨Node.isWhole_leaf "a", List.forall_mem_singleton.2 (Node.isWhole_leaf "b")⟩)
  -- the file holds a printed tree, so what is loaded is known from the round trip
  have hload : (arguments.intake around.input before).load = .ok tree := by
    have hitem : before.item? "tree.json" =
        some (.file (Utf8.encode (String.ofList tree.toJson.compact))) := by decide +kernel
    have hgzip : namesGzip "tree.json" = false := by decide +kernel
    have htext := Utf8.decode?_encode (String.ofList tree.toJson.compact)
    have hformat : Format.ofPath "tree.json" = .json := by decide +kernel
    have hread := hwell.parseJson?_compact hwhole (by decide)
    change loadItem "tree.json" (before.item? "tree.json") = .ok tree
    simp [loadItem, textOfItem, hitem, hgzip, htext, parseFile, hformat, Format.parse, hread]
  have hprinted : (runOn .reliable line around before).ending =
      .printed "[\x7b\"type\":\"b\"\x7d]\n" := by
    have hafter : Position.parse "0" = .ok (.index 0) := by rfl
    have hsearch : arguments.search tree = .ok ⟨"r", 0, 2, [⟨⟨0, [1]⟩, .leaf "b"⟩]⟩ :=
      Arguments.search_eq_ok_iff.2 ⟨.root tree 0, 0, .any, rfl, hafter, rfl, rfl⟩
    have hanswer : (arguments.answer around.settingsUsed
        (arguments.intake around.input before)).result = .ok "[\x7b\"type\":\"b\"\x7d]\n" :=
      Arguments.answer_result_eq_ok_iff.2 ⟨_, _, hload, hsearch, by decide +kernel⟩
    simp [runOn, hparse, Arguments.deliver, World.print, Medium.reliable, hanswer, arguments,
      Ending.printed]
  have hsave : before.saveOn .reliable "/work/../work/tree.json" "[\x7b\"type\":\"b\"\x7d]\n" =
      (.ok (), before.put ["work", "tree.json"]
        (.file (Utf8.encode "[\x7b\"type\":\"b\"\x7d]\n"))) := by
    decide +kernel
  obtain ⟨hending, hstore, -⟩ :=
    runOn_redirected Medium.isSound_reliable hline hparse rfl hprinted hsave
  refine ⟨hprinted, hending, ?_⟩
  rw [hstore]
  decide +kernel

/-- A question for the version is answered on the standard output, also where a file to save to is
given: the answer could be saved there, and it is not. -/
theorem not_runOn_redirected_version :
    let line := ["--version"]
    let around : Surroundings := ⟨.terminal, "/home", .missing, none⟩
    let after : Store :=
      ⟨[(["work"], .directory), (["work", "out.json"], .file (Utf8.encode versionText))], ["work"]⟩
    Redirects "out.json" line (line ++ ["-o", "out.json"]) ∧
      (runOn .reliable line around .empty).ending = .printed versionText ∧
      Store.saveOn .reliable .empty "out.json" versionText = (.ok (), after) ∧
      (runOn .reliable (line ++ ["-o", "out.json"]) around .empty).ending.code = 0 ∧
      (runOn .reliable (line ++ ["-o", "out.json"]) around .empty).ending.output ≠ "" ∧
      (runOn .reliable (line ++ ["-o", "out.json"]) around .empty).store.find? "out.json" =
        none := by
  intro line around after
  have hready : CommandLine.EndsReady line := by
    intro read hread
    cases hread
  have hsaved : Store.saveOn .reliable .empty "out.json" versionText = (.ok (), after) := by
    decide +kernel
  have hline : Redirects "out.json" line (line ++ ["-o", "out.json"]) :=
    @Redirects.spaced "out.json" line hready "-o" (.inl rfl) (by decide +kernel) []
  exact ⟨hline, rfl, hsaved, rfl, by decide +kernel, by decide +kernel⟩

end SiblingQuery
