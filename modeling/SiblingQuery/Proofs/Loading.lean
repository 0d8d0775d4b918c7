import Mathlib.Data.List.Basic
import SiblingQuery.Files.Loading
import SiblingQuery.Proofs.GzipRoundTrip
import SiblingQuery.Proofs.JsonDocument

/-!
# A file and its octets without a name

A file is decompressed if its name says so, and octets without a name if they begin as a gzip member
does.  The two agree wherever a file can be loaded: a gzip member does begin so
(`Gzip.isMember_of_decompress?`), and a text does not, because the second octet of the mark goes on
with a character and the first one has none to go on with (`Gzip.isMember_encode`).

So a file and its octets hold the same text (`textOfOctets_of_textOfItem`), and when its name means
JSON the text is read as the same tree.
-/

namespace SiblingQuery

/-! ## Texts and their octets -/

namespace Utf8

lemma encode_eq_flatMap (text : String) :
    encode text = text.toList.flatMap String.utf8EncodeChar := by
  rw [encode, String.toUTF8_eq_toByteArray, ← String.utf8Encode_toList, List.utf8Encode,
    List.toList_data_toByteArray]

/-- A text is read back from its octets. -/
lemma decode?_encode (text : String) : decode? (encode text) = some text := by
  have hvalid : (⟨(encode text).toArray⟩ : ByteArray) = text.toByteArray := ByteArray.ext rfl
  rw [decode?, hvalid, String.fromUTF8?, dif_pos text.isValidUTF8]
  rfl

/-- Octets that are a text are the octets of that text. -/
lemma encode_eq_of_decode? {octets : List UInt8} {text : String} (h : decode? octets = some text) :
    encode text = octets := by
  rw [decode?, String.fromUTF8?] at h
  split_ifs at h
  obtain rfl := Option.some.inj h
  rfl

/-- The octets of a character are that character alone, or begin with one that no single character
is. -/
lemma utf8EncodeChar_cases (c : Char) :
    (∃ octet, String.utf8EncodeChar c = [octet]) ∨
      ∃ first rest, String.utf8EncodeChar c = first :: rest ∧ 192 ≤ first.toNat := by
  unfold String.utf8EncodeChar
  simp only
  split_ifs
  · exact .inl ⟨_, rfl⟩
  all_goals
    refine .inr ⟨_, _, rfl, ?_⟩
    rw [UInt8.toNat_ofNat']
    omega

end Utf8

/-! ## Marks of a gzip member -/

namespace Gzip

/-- No text begins as a gzip member does. -/
lemma isMember_encode (text : String) : isMember (Utf8.encode text) = false := by
  rw [Utf8.encode_eq_flatMap, isMember, decide_eq_false_iff_not]
  intro hmark
  cases hchars : text.toList with
  | nil => simp [hchars] at hmark
  | cons c rest =>
    rw [hchars, List.flatMap_cons] at hmark
    rcases Utf8.utf8EncodeChar_cases c with ⟨octet, hc⟩ | ⟨first, others, hc, hfirst⟩
    · -- the second octet of the mark would have to begin a character
      cases rest with
      | nil => simp [hc] at hmark
      | cons d rest =>
        have hlength : 0 < (String.utf8EncodeChar d).length := by
          simp [d.utf8Size_pos]
        have hbegins : ((String.utf8EncodeChar d)[0]).IsUTF8FirstByte :=
          UInt8.isUTF8FirstByte_getElem_utf8EncodeChar.2 rfl
        cases hd : String.utf8EncodeChar d with
        | nil => simp [hd] at hlength
        | cons next more =>
          simp only [hd, List.getElem_cons_zero] at hbegins
          have hnext : next = 0x8b := by
            simpa [hc, hd] using And.right (by simpa [hc, hd] using hmark)
          rw [hnext] at hbegins
          exact absurd hbegins (by decide)
    · have hsame : first = 0x1f := by
        cases others <;> simp_all
      rw [hsame] at hfirst
      exact absurd hfirst (by decide)

/-- Whatever can be decompressed begins as a gzip member does. -/
lemma isMember_of_decompress? {octets content : List UInt8}
    (h : decompress? octets = some content) : isMember octets = true := by
  have hheader : (afterHeader? octets).isSome = true := by
    cases hheader : afterHeader? octets with
    | none => simp [decompress?, hheader] at h
    | some rest => rfl
  unfold afterHeader? at hheader
  split at hheader
  · rfl
  · cases hheader

end Gzip

/-! ## Loading -/

/-- A file whose text can be read has the same text when it is taken without its name. -/
lemma textOfOctets_of_textOfItem {path text : String} {item : Option Item}
    (h : textOfItem path item = .ok text) :
    ∃ octets, item = some (.file octets) ∧ textOfOctets octets = .ok text ∧
      (namesGzip path = true → Gzip.isMember octets = true) := by
  unfold textOfItem at h
  split_ifs at h with hgzip
  · split at h
    · cases h
    · cases h
    · next octets =>
      cases hcontent : Gzip.decompress? octets with
      | none => simp [hcontent] at h
      | some content =>
        have hmember := Gzip.isMember_of_decompress? hcontent
        refine ⟨octets, rfl, ?_, fun _ => hmember⟩
        rw [textOfOctets, if_pos hmember, hcontent]
        rw [hcontent] at h
        cases hdecode : Utf8.decode? content <;> simp_all
  · split at h
    · next octets =>
      cases hdecode : Utf8.decode? octets with
      | none => simp [hdecode] at h
      | some found =>
        -- a text does not begin like a gzip member, so nothing is unpacked without the name either
        have hmember : Gzip.isMember octets = false := by
          rw [← Utf8.encode_eq_of_decode? hdecode]
          exact Gzip.isMember_encode found
        refine ⟨octets, rfl, ?_, fun hnames => absurd hnames hgzip⟩
        rw [textOfOctets, hmember, if_neg Bool.false_ne_true, hdecode]
        simpa [hdecode] using h
    · cases h

/-- A tree that is loaded from a file whose name means JSON is loaded from the octets of the file as
well, without the name.  No text is taken for a gzip member on the way, and no file that is a gzip
member by its name is missed. -/
theorem loadOctets_of_loadTree {store : Store} {path : String} {tree : Node}
    (hformat : Format.ofPath path = .json) (h : store.loadTree path = .ok tree) :
    ∃ octets, store.item? path = some (.file octets) ∧ loadOctets octets = .ok tree ∧
      (namesGzip path = true → Gzip.isMember octets = true) ∧
      ∀ text, Gzip.isMember (Utf8.encode text) = false := by
  unfold Store.loadTree loadItem at h
  split at h
  · next text htext =>
    obtain ⟨octets, hitem, hoctets, hmember⟩ := textOfOctets_of_textOfItem htext
    refine ⟨octets, hitem, ?_, hmember, Gzip.isMember_encode⟩
    have hjson : Node.parseJson? text = some tree := by
      rw [parseFile, hformat, Format.parse] at h
      cases hparse : Node.parseJson? text with
      | none => simp [hparse] at h
      | some node => simpa [hparse] using h
    rw [loadOctets, hoctets]
    simp only [parseUnnamed, hjson]
  · cases h

/-- A compressed tree is loaded from its file, which is not in the working directory, and so from the
octets of the file. -/
theorem loadOctets_of_loadTree_compressed :
    let octets := Gzip.compress (Utf8.encode "\x7b\"type\":\"r\"\x7d")
    let store : Store := ⟨[(["work"], .directory), (["t.json.gz"], .file octets)], ["work"]⟩
    Format.ofPath "/t.json.gz" = .json ∧ store.loadTree "/t.json.gz" = .ok (.leaf "r") ∧
      loadOctets octets = .ok (.leaf "r") ∧ Gzip.isMember octets = true := by
  intro octets store
  have hformat : Format.ofPath "/t.json.gz" = .json := by decide +kernel
  have hnames : namesGzip "/t.json.gz" = true := by decide +kernel
  have hitem : store.item? "/t.json.gz" = some (.file octets) := by decide +kernel
  have htext : textOfItem "/t.json.gz" (some (.file octets)) =
      .ok "\x7b\"type\":\"r\"\x7d" := by
    rw [textOfItem, if_pos hnames]
    simp only [octets, Gzip.decompress?_compress, Option.bind_some, Utf8.decode?_encode]
  have hparse : Node.parseJson? "\x7b\"type\":\"r\"\x7d" = some (.leaf "r") := by
    have hread : Json.Source.read "\x7b\"type\":\"r\"\x7d".toList =
        some (.object [(Quoted.ofText "type", .string (Quoted.ofText "r"))]) :=
      Json.Source.read_of_scan (by decide +kernel)
    rw [Node.parseJson?, hread]
    rfl
  have hload : store.loadTree "/t.json.gz" = .ok (.leaf "r") := by
    simp only [Store.loadTree, hitem, loadItem, htext, parseFile, hformat, Format.parse, hparse]
  obtain ⟨found, hfound, hloaded, hmember, -⟩ := loadOctets_of_loadTree hformat hload
  obtain rfl : found = octets := by
    rw [hitem] at hfound
    cases hfound
    rfl
  exact ⟨hformat, hload, hloaded, hmember hnames⟩

end SiblingQuery
