import SiblingQuery.Proofs.Loading
import SiblingQuery.Proofs.Saving

/-!
# Saved trees load again

Whether a text is saved as a gzip member is told by the end of its path, and whether a file is
loaded as one by the extension of its name.  A path that leads to a file ends as the last name in it
does, so the two agree, except where the name is nothing but an extension: `.gz` ends with `.gz`,
and has no extension (`PathText.namesGzip_iff`).

So a text that has been saved is loaded from the same path as that text, unless the name is `.gz`.
Then a gzip member is read as if it were a text, which it is not.
-/

namespace SiblingQuery

/-! ## Names of gzip members -/

namespace PathText

/-- What the path of a gzip member ends with. -/
def gzipEnding : List Char := ['.', 'g', 'z']

lemma endsWith_gz_iff (path : String) :
    path.endsWith ".gz" = true ↔ gzipEnding <:+ path.toList := by
  rw [← String.endsWith_toSlice, String.Slice.endsWith_string_iff]
  simp [gzipEnding]

/-- The extension of a name that has a point: none if the name begins with its last point. -/
lemma extension?_eq {name : String} {before last : List Char}
    (h : name.toList = before ++ '.' :: last) (hlast : '.' ∉ last) :
    extension? name = if before = [] then none else some (String.ofList last) := by
  rw [extension?, h, Text.splitOn_append_cons hlast]
  cases hpieces : Text.splitOn '.' before with
  | nil => exact absurd hpieces (Text.splitOn_ne_nil '.' before)
  | cons piece pieces =>
    cases pieces with
    | nil =>
      obtain rfl := Text.eq_of_splitOn_eq_singleton hpieces
      cases before <;> simp
    | cons next pieces =>
      have hne : before ≠ [] := by
        rintro rfl
        simp [Text.splitOn] at hpieces
      simp [hne, List.getLast?_cons]

/-- A name has the extension of a gzip member if it ends so, and is more than that. -/
lemma extension?_eq_gz_iff (name : String) :
    extension? name = some "gz" ↔ gzipEnding <:+ name.toList ∧ name.toList ≠ gzipEnding := by
  -- the ending is what stands behind the last dot, and a name without a dot has none
  by_cases h : '.' ∈ name.toList
  · obtain ⟨before, last, heq, hlast⟩ := Text.exists_eq_append_cons h
    have hends : gzipEnding <:+ name.toList ↔ last = ['g', 'z'] := by
      rw [heq]
      constructor
      · rintro ⟨front, hfront⟩
        exact (Text.append_cons_inj (by simp) hlast hfront).2.symm
      · rintro rfl
        exact List.suffix_append before gzipEnding
    have hwhole : name.toList = gzipEnding ↔ before = [] ∧ last = ['g', 'z'] := by
      rw [heq]
      constructor
      · intro hname
        have hcut : before ++ '.' :: last = [] ++ '.' :: ['g', 'z'] := hname
        exact Text.append_cons_inj hlast (by simp) hcut
      · rintro ⟨rfl, rfl⟩
        rfl
    have hgz : String.ofList last = "gz" ↔ last = ['g', 'z'] := by
      rw [← String.toList_inj, String.toList_ofList]
      rfl
    rw [extension?_eq heq hlast, hends, Ne, hwhole]
    by_cases hbefore : before = [] <;> simp [hbefore, hgz]
  · have hnone : extension? name = none := by
      rw [extension?, Text.splitOn_of_not_mem h]
    rw [hnone]
    simp only [reduceCtorEq, false_iff, not_and]
    rintro ⟨front, hfront⟩
    exact absurd (hfront ▸ by simp [gzipEnding]) h

/-- The last piece of a path that leads to a file is the name of the file. -/
lemma exists_fileName? {path : String} (h : needsDirectory path = false) :
    ∃ name, (pieces path).getLast? = some name ∧ fileName? path = some name ∧ name ≠ "" := by
  cases hlast : (pieces path).getLast? with
  | none => simp [needsDirectory, hlast] at h
  | some name =>
    simp only [needsDirectory, hlast, Bool.or_eq_false_iff, decide_eq_false_iff_not] at h
    obtain ⟨⟨hne, hhere⟩, hup⟩ := h
    have hnames : (names path).getLast? = some name := by
      obtain ⟨front, hfront⟩ := List.getLast?_eq_some_iff.1 hlast
      rw [names, hfront, List.filter_append]
      simp [hne, hhere]
    refine ⟨name, rfl, ?_, hne⟩
    rw [fileName?, hnames]
    exact if_neg hup

/-- A path that leads to a file ends with the name of the file. -/
lemma exists_eq_append_fileName? {path name : String} (hneeds : needsDirectory path = false)
    (hname : fileName? path = some name) :
    ∃ before, path.toList = before ++ name.toList ∧ (before = [] ∨ before.getLast? = some '/') := by
  obtain ⟨before, last, heq, hlast, -, hbefore⟩ := Text.exists_eq_append_getLast? '/' path.toList
  have hpieces : (pieces path).getLast? = some (String.ofList last) := by
    rw [pieces, List.getLast?_map, hlast]
    rfl
  obtain ⟨found, hfound, hfile, -⟩ := exists_fileName? hneeds
  obtain rfl : name = String.ofList last := by
    rw [← Option.some_inj, ← hname, hfile, ← hfound, hpieces]
  refine ⟨before, ?_, hbefore⟩
  rw [String.toList_ofList, heq]

/-- A path that leads to a file ends as a gzip member's does if the name of the file does. -/
lemma endsWith_gz_iff_fileName? {path name : String} (hneeds : needsDirectory path = false)
    (hname : fileName? path = some name) :
    path.endsWith ".gz" = true ↔ gzipEnding <:+ name.toList := by
  obtain ⟨before, heq, hbefore⟩ := exists_eq_append_fileName? hneeds hname
  have hslash : '/' ∉ gzipEnding := by decide
  rw [endsWith_gz_iff, heq, Text.suffix_append_iff hslash hbefore]

/-- A path that leads to a file names a gzip member if it ends so, unless that is the whole name. -/
lemma namesGzip_iff {path name : String} (hneeds : needsDirectory path = false)
    (hname : fileName? path = some name) :
    namesGzip path = true ↔ path.endsWith ".gz" = true ∧ name ≠ ".gz" := by
  have hwhole : name = ".gz" ↔ name.toList = gzipEnding := by
    rw [← String.toList_inj]
    rfl
  rw [namesGzip, hname, Option.bind_some, decide_eq_true_iff, extension?_eq_gz_iff,
    endsWith_gz_iff_fileName? hneeds hname, Ne, Ne, hwhole]

end PathText

/-! ## Loading what has been saved -/

/-- No text is a gzip member. -/
lemma Gzip.decode?_of_decompress? {octets content : List UInt8}
    (h : decompress? octets = some content) : Utf8.decode? octets = none := by
  cases hdecode : Utf8.decode? octets with
  | none => rfl
  | some text =>
    have hmember := isMember_of_decompress? h
    rw [← Utf8.encode_eq_of_decode? hdecode, isMember_encode] at hmember
    cases hmember

namespace Store

variable {medium : Medium} {store after : Store} {path text : String}

/-- A text that has been saved is loaded again from its path: as the tree that it is in the format
of the path, or with the failure to read it so.  Only where the name of the file is `.gz` is there
nothing to be had: the file is a gzip member, but its name has no extension that would say so. -/
theorem loadTree_of_saveOn (hmedium : medium.IsSound)
    (h : store.saveOn medium path text = (.ok (), after)) :
    (PathText.fileName? path ≠ some ".gz" → after.loadTree path = parseFile path text) ∧
      (PathText.fileName? path = some ".gz" → after.loadTree path = .error .unreadable) := by
  rcases saveOn_cases hmedium store path text with
    ⟨error, hsave⟩ | ⟨fresh, octets, -, hsave⟩ |
    ⟨directory, target, octets, hdirectory, htarget, hwritten, hsave⟩
  · rw [hsave] at h
    cases h
  · rw [hsave] at h
    cases h
  rw [hsave] at h
  cases h
  -- saving has succeeded, so the path now leads to what was written
  have hitem : (store.put target (.file octets)).item? path = some (.file octets) := by
    rw [item?, find?_put_target hdirectory htarget]
    rfl
  have hoctets := Medium.eq_of_written hwritten
  obtain ⟨⟨hneeds, -⟩, name, hname, -⟩ := target?_eq_some_iff.1 htarget
  have hnames := PathText.namesGzip_iff hneeds hname
  rw [hname, loadTree, hitem, loadItem, textOfItem, Ne, Option.some.injEq]
  by_cases hends : path.endsWith ".gz" = true
  · rw [if_pos hends] at hoctets
    have hcontent : Gzip.decompress? octets = some (Utf8.encode text) :=
      hoctets ▸ hmedium.decompress?_compress _
    constructor
    · intro hwhole
      rw [if_pos (hnames.2 ⟨hends, hwhole⟩)]
      simp [hcontent, Utf8.decode?_encode]
    · intro hwhole
      rw [if_neg fun hgzip => (hnames.1 hgzip).2 hwhole]
      simp [Gzip.decode?_of_decompress? hcontent]
  · rw [if_neg hends] at hoctets
    rw [if_neg fun hgzip => hends (hnames.1 hgzip).1]
    constructor
    · intro _
      simp [hoctets, Utf8.decode?_encode]
    · rintro rfl
      exact absurd ((PathText.endsWith_gz_iff_fileName? hneeds hname).2 (List.suffix_refl _)) hends

/-- A hidden file with several points in its name, in a directory with a point in its own that is not
below the working directory: what is compressed is loaded as YAML. -/
theorem loadTree_of_saveOn_hidden :
    let before : Store := ⟨[(["x.gz"], .directory), (["work"], .directory)], ["work"]⟩
    Medium.reliable.IsSound ∧
      ∃ after, before.saveOn .reliable "../x.gz/./.tree.yml.gz" "type: a\n" = (.ok (), after) ∧
        PathText.fileName? "../x.gz/./.tree.yml.gz" ≠ some ".gz" ∧
        Format.ofPath "../x.gz/./.tree.yml.gz" = .yaml ∧
        after.loadTree "../x.gz/./.tree.yml.gz" =
          parseFile "../x.gz/./.tree.yml.gz" "type: a\n" := by
  intro before
  have hsave : before.saveOn .reliable "../x.gz/./.tree.yml.gz" "type: a\n" = (.ok (),
      before.put ["x.gz", ".tree.yml.gz"] (.file (Gzip.compress (Utf8.encode "type: a\n")))) := by
    decide +kernel
  have hname : PathText.fileName? "../x.gz/./.tree.yml.gz" ≠ some ".gz" := by decide +kernel
  exact ⟨Medium.isSound_reliable, _, hsave, hname, by decide +kernel,
    (loadTree_of_saveOn Medium.isSound_reliable hsave).1 hname⟩

/-- A tree is saved under the name `.gz`, as a gzip member, and cannot be loaded from there. -/
theorem not_loadTree_of_saveOn_gz :
    ∃ after, Store.empty.saveOn .reliable ".gz" "\x7b\x7d" = (.ok (), after) ∧
      after.item? ".gz" = some (.file (Gzip.compress (Utf8.encode "\x7b\x7d"))) ∧
      parseFile ".gz" "\x7b\x7d" = .ok (.leaf "") ∧
      after.loadTree ".gz" = .error .unreadable := by
  let written : Item := .file (Gzip.compress (Utf8.encode "\x7b\x7d"))
  have hsave : Store.empty.saveOn .reliable ".gz" "\x7b\x7d" =
      (.ok (), Store.empty.put ["work", ".gz"] written) := by decide +kernel
  have hitem : (Store.empty.put ["work", ".gz"] written).item? ".gz" = some written := by
    decide +kernel
  have hload : (Store.empty.put ["work", ".gz"] written).loadTree ".gz" = .error .unreadable := by
    have hnames : namesGzip ".gz" = false := by decide +kernel
    have hdecode := Gzip.decode?_of_decompress? (Gzip.decompress?_compress (Utf8.encode "\x7b\x7d"))
    rw [loadTree, hitem, loadItem, textOfItem, hnames, if_neg Bool.false_ne_true]
    simp only [hdecode]
  have hparse : parseFile ".gz" "\x7b\x7d" = .ok (.leaf "") := by
    have hformat : Format.ofPath ".gz" = .json := by decide +kernel
    have hread : Json.Source.read "\x7b\x7d".toList = some (.object []) :=
      Json.Source.read_of_scan (by decide +kernel)
    have hjson : Node.parseJson? "\x7b\x7d" = some (.leaf "") := by
      rw [Node.parseJson?, hread]
      rfl
    simp only [parseFile, hformat, Format.parse, hjson]
  exact ⟨_, hsave, hitem, hparse, hload⟩

end Store

end SiblingQuery
