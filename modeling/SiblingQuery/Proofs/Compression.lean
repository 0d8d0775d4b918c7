import SiblingQuery.Proofs.Reloading

/-!
# Compressed texts

A text and a gzip member that holds it are loaded alike.  Taken without a name they are told apart
by their first octets, and a file by the extension of its name, but either way the text that comes
out is the same, and no failure is left but that the text is no tree.

What is added to a path that leads to a file is added to the name of the file
(`PathText.getLast?_pieces_append`).  So behind a name that may begin with a point and may have
several, `.gz` is always an extension, and never the name itself (`PathText.namesGzip_append`).  The
format is told by what stands before it, which is the end of the plain name
(`Format.ofPath_append`).
-/

namespace SiblingQuery

/-! ## Names with `.gz` behind them -/

namespace PathText

variable {path more : String}

lemma getLast?_pieces_append (path : String) (h : '/' ∉ more.toList) :
    (pieces (path ++ more)).getLast? = (pieces path).getLast?.map (· ++ more) := by
  obtain ⟨front, last, hplain, hmore⟩ := Text.exists_splitOn_append path.toList h
  rw [pieces, pieces, String.toList_append, hplain, hmore]
  simp [String.ofList_append]

lemma endsWith_append_gz (path : String) : (path ++ ".gz").endsWith ".gz" = true := by
  rw [endsWith_gz_iff, String.toList_append]
  exact List.suffix_append path.toList gzipEnding

/-- A file name with `.gz` behind it names a gzip member: it is more than this ending. -/
lemma namesGzip_append (hplain : needsDirectory path = false)
    (hpacked : needsDirectory (path ++ ".gz") = false) : namesGzip (path ++ ".gz") = true := by
  obtain ⟨name, hname, -, hne⟩ := exists_fileName? hplain
  obtain ⟨found, hfound, hfile, -⟩ := exists_fileName? hpacked
  obtain rfl : found = name ++ ".gz" := by
    rw [← Option.some_inj, ← hfound, getLast?_pieces_append path (by decide), hname]
    rfl
  rw [namesGzip_iff hpacked hfile]
  refine ⟨endsWith_append_gz path, fun hwhole => hne ?_⟩
  rw [← String.toList_inj, String.toList_append, List.append_left_eq_self] at hwhole
  exact String.toList_eq_nil_iff.1 hwhole

lemma namesGzip_eq_false (h : path.endsWith ".gz" = false) (hneeds : needsDirectory path = false) :
    namesGzip path = false := by
  obtain ⟨name, -, hname, -⟩ := exists_fileName? hneeds
  rw [← Bool.not_eq_true, namesGzip_iff hneeds hname, h]
  simp

end PathText

/-- The format of a compressed file is that of the plain one. -/
lemma Format.ofPath_append {path : String} (h : path.endsWith ".gz" = false) :
    ofPath (path ++ ".gz") = ofPath path := by
  have hbase : ((path ++ ".gz").dropEnd 3).copy = path := by
    rw [← String.toList_inj, String.toList_copy_dropEnd]
    simp
  rw [ofPath, if_pos (PathText.endsWith_append_gz path), hbase, ofPath, h,
    if_neg Bool.false_ne_true]

/-! ## Texts -/

section Texts

variable {path text : String} {packed : List UInt8}

lemma textOfOctets_encode (text : String) : textOfOctets (Utf8.encode text) = .ok text := by
  rw [textOfOctets, Gzip.isMember_encode, if_neg Bool.false_ne_true, Utf8.decode?_encode]

lemma textOfOctets_packed (h : Gzip.decompress? packed = some (Utf8.encode text)) :
    textOfOctets packed = .ok text := by
  rw [textOfOctets, if_pos (Gzip.isMember_of_decompress? h), h, Option.bind_some,
    Utf8.decode?_encode]

lemma textOfItem_encode (h : namesGzip path = false) (text : String) :
    textOfItem path (some (.file (Utf8.encode text))) = .ok text := by
  rw [textOfItem, h, if_neg Bool.false_ne_true]
  simp only [Utf8.decode?_encode]

lemma textOfItem_packed (hnames : namesGzip path = true)
    (h : Gzip.decompress? packed = some (Utf8.encode text)) :
    textOfItem path (some (.file packed)) = .ok text := by
  rw [textOfItem, if_pos hnames]
  simp only [h, Option.bind_some, Utf8.decode?_encode]

end Texts

/-! ## Trees -/

namespace Store

variable {store : Store} {path text : String} {octets : List UInt8}

/-- Only a path that ends with a name leads to a file. -/
lemma needsDirectory_of_item? (h : store.item? path = some (.file octets)) :
    PathText.needsDirectory path = false := by
  obtain ⟨⟨address, item⟩, hfind, rfl⟩ := Option.map_eq_some_iff.1 h
  rw [← Bool.not_eq_true]
  intro hneeds
  unfold find? at hfind
  split_ifs at hfind
  split at hfind
  · cases hfind
  · split at hfind <;> simp_all

lemma loadTree_of_item? {item : Item} (hitem : store.item? path = some item)
    (htext : textOfItem path (some item) = .ok text) :
    store.loadTree path = parseFile path text := by
  rw [loadTree, hitem, loadItem, htext]

/-- Compression changes nothing.  Taken without a name, a gzip member that holds a text is loaded as
the text is.  A file with the text, and a file with the gzip member whose name has `.gz` behind it,
are read in the same format, and as the same tree or both as none: neither of them fails in any
other way. -/
theorem loadTree_compressed {packed : List UInt8} {text : String}
    (hpacked : Gzip.decompress? packed = some (Utf8.encode text)) :
    loadOctets packed = loadOctets (Utf8.encode text) ∧
    ∀ (plain compressed : Store) (path : String), path.endsWith ".gz" = false →
      plain.item? path = some (.file (Utf8.encode text)) →
      compressed.item? (path ++ ".gz") = some (.file packed) →
        Format.ofPath (path ++ ".gz") = Format.ofPath path ∧
        ((∃ tree, plain.loadTree path = .ok tree ∧
            compressed.loadTree (path ++ ".gz") = .ok tree) ∨
          ∃ error, plain.loadTree path = .error (.unparsed path error) ∧
            compressed.loadTree (path ++ ".gz") = .error (.unparsed (path ++ ".gz") error)) := by
  constructor
  · rw [loadOctets, loadOctets, textOfOctets_packed hpacked, textOfOctets_encode]
  · intro plain compressed path hends hplain hcompressed
    have hformat := Format.ofPath_append hends
    have hneeds := needsDirectory_of_item? hplain
    have hplainText : plain.loadTree path = parseFile path text :=
      loadTree_of_item? hplain (textOfItem_encode (PathText.namesGzip_eq_false hends hneeds) text)
    have hnames : namesGzip (path ++ ".gz") = true :=
      PathText.namesGzip_append hneeds (needsDirectory_of_item? hcompressed)
    have hcompressedText : compressed.loadTree (path ++ ".gz") = parseFile (path ++ ".gz") text :=
      loadTree_of_item? hcompressed (textOfItem_packed hnames hpacked)
    refine ⟨hformat, ?_⟩
    rw [hplainText, hcompressedText, parseFile, parseFile, hformat]
    cases (Format.ofPath path).parse text with
    | ok tree => exact .inl ⟨tree, rfl, rfl⟩
    | error error => exact .inr ⟨error, rfl, rfl⟩

/-- A hidden file with several points in its name is YAML, and loads as the same tree when it is
compressed. -/
theorem loadTree_compressed_hidden :
    let octets := Utf8.encode "type: a\n"
    let plain : Store := ⟨[([".tree.gz.yml"], .file octets)], []⟩
    let compressed : Store := ⟨[([".tree.gz.yml.gz"], .file (Gzip.compress octets))], []⟩
    loadOctets (Gzip.compress octets) = loadOctets octets ∧
      Format.ofPath ".tree.gz.yml.gz" = .yaml ∧
      ∃ tree, plain.loadTree ".tree.gz.yml" = .ok tree ∧
        compressed.loadTree ".tree.gz.yml.gz" = .ok tree := by
  intro octets plain compressed
  obtain ⟨hoctets, hfiles⟩ := loadTree_compressed (Gzip.decompress?_compress octets)
  have hplain : plain.item? ".tree.gz.yml" = some (.file octets) := by decide +kernel
  have hcompressed : compressed.item? ".tree.gz.yml.gz" = some (.file (Gzip.compress octets)) := by
    decide +kernel
  obtain ⟨hformat, hloaded⟩ :=
    hfiles plain compressed ".tree.gz.yml" (by decide +kernel) hplain hcompressed
  have hyaml : Format.ofPath ".tree.gz.yml" = .yaml := by decide +kernel
  have hread : (plain.loadTree ".tree.gz.yml").toBool = true := by decide +kernel
  refine ⟨hoctets, hformat.trans hyaml, hloaded.resolve_right ?_⟩
  rintro ⟨error, herror, -⟩
  rw [herror] at hread
  cases hread

end Store

end SiblingQuery
