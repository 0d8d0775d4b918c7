import SiblingQuery.Proofs.JsonTokens
import SiblingQuery.Proofs.Refusals

/-!
# Tests given as texts

A text is a test as the JSON value that it is, and as the name of a type if it is none.  So the name
of a type is its own text, unless the name happens to be JSON, as `null` and `7` are.  Then the
literal of the name asks for it, and the literal asks for every other name as well: what is printed
is read back, whatever quotes, control characters or blanks the name has.  Of a printed value the
same is true up to its numbers, which need not be read back (`parse_eq_ok_iff`), while what is
refused in it does not depend on them (`Json.refusal?_of_value?_source`).

The two readings of a text never agree by chance.  No text is a JSON string of itself, because
inside the quotes every character takes at least one (`Json.parse?_ne_str`), and nothing but a
string asks for a type (`Test.ofJson_eq_kind_iff`).
-/

namespace SiblingQuery

/-! ## What is printed -/

namespace Json

/-- The text of a value, on one line. -/
def text (value : Json) : String := String.ofList value.compact

/-- The text of a value, indented. -/
def prettyText (value : Json) : String := String.ofList (value.pretty 0)

/-- A text that spells a value is read from its tree. -/
lemma parse?_of_spell {value : Json} {text : List Char}
    (h : Token.Spell text value.source.tokens) :
    parse? (String.ofList text) = value.source.value? Source.maxDepth := by
  rw [parse?, String.toList_ofList, (read_of_spell h).1, Option.bind_some]

/-- In both layouts a value is read from its tree. -/
lemma parse?_printed {value : Json} {text : String}
    (h : text = value.text ∨ text = value.prettyText) :
    parse? text = value.source.value? Source.maxDepth := by
  rcases h with rfl | rfl
  · exact parse?_of_spell (spell_compact value)
  · exact parse?_of_spell (spell_pretty value 0)

/-- Reading a printed value again may change its numbers, but not what is refused in it. -/
lemma refusal?_of_value?_source {value other : Json} {d : ℕ}
    (h : value.source.value? d = some other) : other.refusal? = value.refusal? := by
  induction value generalizing d other with
  | num n =>
    obtain ⟨m, -, rfl⟩ := Option.map_eq_some_iff.1 h
    rfl
  | str s =>
    rw [source, Source.value?, Quoted.text?_ofText] at h
    obtain rfl := Option.some.inj h
    rfl
  | arr items ih =>
    cases d with
    | zero => cases h
    | succ d =>
      obtain ⟨values, hvalues, rfl⟩ := Source.value?_source_arr_iff.1 h
      rw [refusal?_arr, refusal?_arr]
      clear h
      induction hvalues with
      | nil => rfl
      | cons hitem _ ihs =>
        rw [List.findSome?_cons, List.findSome?_cons, ih _ List.mem_cons_self hitem,
          ihs fun other hother => ih other (List.mem_cons_of_mem _ hother)]
  | obj members _ =>
    cases d with
    | zero => cases h
    | succ d =>
      obtain ⟨done, -, rfl⟩ := Source.value?_source_obj_iff.1 h
      rfl
  | _ =>
    obtain rfl := Option.some.inj h
    rfl

lemma parse?_text_num_iff (n : Number) : parse? (num n).text = some (num n) ↔ n.ReadsBack := by
  rw [parse?_printed (.inl rfl), Source.value?_source_iff (.num n) (Nat.zero_le _),
    ReadsBack, forallNumbers_num_iff]

lemma exists_parse?_text_num_iff (n : Number) :
    (∃ value, parse? (num n).text = some value) ↔ n.IsLegible := by
  rw [parse?_printed (.inl rfl), Source.exists_value?_source_iff (Nat.zero_le _),
    IsLegible, forallNumbers_num_iff]

lemma parse?_text_str (name : String) : parse? (str name).text = some (str name) := by
  rw [parse?_printed (.inl rfl)]
  exact Source.value?_source (.str name) (.str name) (Nat.zero_le _)

end Json

/-! ## Texts that are strings -/

/-- Joining units never makes more characters of them. -/
lemma Quoted.length_of_join? {quoted : Quoted} {chars : List Char} (h : join? quoted = some chars) :
    chars.length ≤ quoted.length := by
  fun_induction join? quoted generalizing chars with
  | case1 =>
    obtain rfl := Option.some.inj h
    exact Nat.le_refl 0
  | case2 c units ih =>
    obtain ⟨joined, hjoined, rfl⟩ := Option.map_eq_some_iff.1 h
    exact Nat.succ_le_succ (ih hjoined)
  | case4 n _ _ m units _ ih =>
    obtain ⟨joined, hjoined, rfl⟩ := Option.map_eq_some_iff.1 h
    exact Nat.le_succ_of_le (Nat.succ_le_succ (ih hjoined))
  | case7 n units _ _ ih =>
    obtain ⟨joined, hjoined, rfl⟩ := Option.map_eq_some_iff.1 h
    exact Nat.succ_le_succ (ih hjoined)
  | _ => cases h

namespace Json

/-- Only a quoted string is read as a string. -/
lemma Source.value?_eq_str_iff {source : Source} {d : ℕ} {name : String} :
    source.value? d = some (.str name) ↔
      ∃ quoted, source = .string quoted ∧ quoted.text? = some name := by
  cases source with
  | array items => cases d <;> simp [value?]
  | object members => cases d <;> simp [value?]
  | _ => simp [value?]

/-- No text is a JSON string of itself. -/
lemma parse?_ne_str (text : String) : parse? text ≠ some (.str text) := by
  intro h
  obtain ⟨source, hread, hvalue⟩ := Option.bind_eq_some_iff.1 h
  obtain ⟨quoted, rfl, hname⟩ := Source.value?_eq_str_iff.1 hvalue
  obtain ⟨chars, hchars, rfl⟩ := Option.map_eq_some_iff.1 hname
  have hscan := Source.scan_of_read hread
  rw [String.toList_ofList] at hscan
  obtain ⟨rest, hnext, -⟩ := Token.scan_eq_cons_iff.1 hscan
  obtain ⟨word, hword, -⟩ | ⟨units, after, htoken, htext, hunits⟩ | ⟨numeral, htoken, -⟩ :=
    Token.next?_cases hnext
  · cases hword
  · obtain rfl := Token.string.inj htoken
    -- the text has the opening quote and everything behind it, of which the units are a part
    have hjoined := Quoted.length_of_join? hchars
    have hbody := Token.length_of_quoted hunits
    have hwhole : (Token.pastSpaces chars).length ≤ chars.length :=
      (List.dropWhile_suffix Token.isSpace).length_le
    rw [htext, List.length_cons] at hwhole
    omega
  · cases htoken

end Json

/-! ## Tests -/

namespace Test

lemma ofJson_eq_kind_iff {value : Json} {name : String} :
    ofJson value = .ok (.kind name) ↔ value = .str name := by
  cases value with
  | arr items =>
    rw [ofJson]
    cases ofJsonList items <;> simp
  | _ => simp [ofJson]

/-- A text asks for the nodes of the type that it spells exactly if it is no JSON. -/
lemma parse_eq_kind_iff (text : String) :
    parse text = .ok (.kind text) ↔ Json.parse? text = none := by
  rw [parse]
  cases hvalue : Json.parse? text with
  | none => simp
  | some value =>
    simp only [reduceCtorEq, iff_false, ofJson_eq_kind_iff]
    rintro rfl
    exact Json.parse?_ne_str text hvalue

/-- Values that make the same test are the same. -/
lemma eq_of_ofJson_eq_ok {value other : Json} {test : Test} (hvalue : ofJson value = .ok test)
    (hother : ofJson other = .ok test) : value = other := by
  induction value generalizing other test with
  | bool b => cases hvalue
  | num n => cases hvalue
  | arr items ih =>
    obtain ⟨tests, htests, rfl⟩ := ofJson_arr_eq_ok_iff.1 hvalue
    cases other with
    | arr others =>
      obtain ⟨_, hothers, heq⟩ := ofJson_arr_eq_ok_iff.1 hother
      obtain rfl := Test.anyOf.inj heq
      have hsame := forall₂_trans_of_mem htests hothers.flip fun item hitem test other hfirst
        hsecond => ih item hitem hfirst hsecond
      rw [List.forall₂_eq_eq_eq] at hsame
      rw [hsame]
    | _ => cases hother
  | _ =>
    obtain rfl := Except.ok.inj hvalue
    cases other with
    | arr others =>
      obtain ⟨_, -, heq⟩ := ofJson_arr_eq_ok_iff.1 hother
      cases heq
    | _ => cases hother <;> rfl

/-- A printed value that is a test is read as this test exactly if its numbers are read back. -/
lemma parse_eq_ok_iff {value : Json} {text : String} {test : Test} (hnormal : value.IsNormal)
    (hdepth : value.depth ≤ Json.Source.maxDepth) (h : text = value.text ∨ text = value.prettyText)
    (htest : ofJson value = .ok test) : parse text = .ok test ↔ value.ReadsBack := by
  rw [← Json.Source.value?_source_iff hnormal hdepth, ← Json.parse?_printed h, parse]
  cases hread : Json.parse? text with
  | some other =>
    simp only [Option.some.injEq]
    exact ⟨fun hother => eq_of_ofJson_eq_ok hother htest, fun hother => hother ▸ htest⟩
  | none =>
    simp only [reduceCtorEq, iff_false]
    rintro ⟨⟩
    -- only a string asks for a type, and a printed string is read
    obtain rfl := ofJson_eq_kind_iff.1 htest
    rw [Json.parse?_printed h, Json.Source.value?_source (.str _) (.str _) hdepth] at hread
    cases hread

/-- A printed value that is refused is refused as a text exactly if its numbers are legible. -/
lemma parse_eq_error_iff_isLegible {value : Json} {text : String} {e : FindError}
    (hdepth : value.depth ≤ Json.Source.maxDepth) (h : text = value.text ∨ text = value.prettyText)
    (he : ofJson value = .error e) : parse text = .error e ↔ value.IsLegible := by
  rw [← Json.Source.exists_value?_source_iff hdepth, ← Json.parse?_printed h, parse]
  cases hread : Json.parse? text with
  | some other =>
    rw [Json.parse?_printed h] at hread
    refine iff_of_true ?_ ⟨other, rfl⟩
    rw [ofJson_eq_error_iff] at he ⊢
    rwa [Json.refusal?_of_value?_source hread]
  | none => simp

lemma parse_text_str (name : String) : parse (Json.str name).text = .ok (.kind name) := by
  rw [parse, Json.parse?_text_str]
  rfl

/-- Every name of a type can be asked for as a text.  The literal of the name always asks for it.  A
text that is no JSON asks for the type of this name, as its literal does; and only such a text does.

The text of a value that is not nested too deep, on one line or indented, is the test that the value
is exactly if each of its numbers is read back from its text; and if the value is refused, its text
is refused for the same reason exactly if each of its numbers is read from its text as some number.
Integers are read back. -/
theorem parse_printed :
    (∀ name : String, parse (Json.str name).text = .ok (.kind name)) ∧
    (∀ text : String, (Json.parse? text = none → parse text = .ok (.kind text)) ∧
      (parse text = parse (Json.str text).text ↔ Json.parse? text = none)) ∧
    (∀ value : Json, value.IsNormal → value.depth ≤ Json.Source.maxDepth →
      ∀ text, text = value.text ∨ text = value.prettyText →
        (∀ test, ofJson value = .ok test → (parse text = .ok test ↔ value.ReadsBack)) ∧
        ∀ e, ofJson value = .error e → (parse text = .error e ↔ value.IsLegible)) ∧
    (∀ n : Number, (Json.parse? (Json.num n).text = some (.num n) ↔ n.ReadsBack) ∧
      ((∃ value, Json.parse? (Json.num n).text = some value) ↔ n.IsLegible)) ∧
    ∀ value : Json, (value.IsWhole → value.ReadsBack) ∧ (value.ReadsBack → value.IsLegible) := by
  refine ⟨parse_text_str, fun text => ⟨(parse_eq_kind_iff text).2, ?_⟩, ?_,
    fun n => ⟨Json.parse?_text_num_iff n, Json.exists_parse?_text_num_iff n⟩, ?_⟩
  · rw [parse_text_str, parse_eq_kind_iff]
  · intro value hnormal hdepth text htext
    exact ⟨fun test => parse_eq_ok_iff hnormal hdepth htext,
      fun e => parse_eq_error_iff_isLegible hdepth htext⟩
  · intro value
    exact ⟨fun h => h.mono fun _ => Number.IsWhole.readsBack, fun h => h.mono fun n hn => ⟨n, hn⟩⟩

/-- A type that is called `null` has to be asked for by its literal; a quote alone makes a text no
JSON.  The double `1.0` is read back.  A printed array is refused for the boolean in it. -/
theorem parse_printed_quotes :
    let members : List (String × Json) :=
      [("depth", .num (.int 2)), ("ratio", .num (.float ⟨false, 4503599627370496, -52⟩))]
    let refused : Json := .arr [.obj members, .arr [.bool true]]
    ((Json.obj members).IsNormal ∧ (Json.obj members).depth ≤ Json.Source.maxDepth ∧
      (Json.obj members).ReadsBack) ∧
      parse (Json.obj members).text = .ok (.attributes members) ∧
      (refused.IsNormal ∧ refused.depth ≤ Json.Source.maxDepth ∧ refused.IsLegible) ∧
      parse refused.prettyText = .error (.invalidTest "boolean") ∧
      parse (Json.str "null").text = .ok (.kind "null") ∧
      Json.parse? "nu\"ll" = none ∧ parse "nu\"ll" = .ok (.kind "nu\"ll") := by
  intro members refused
  obtain ⟨hliteral, hname, hprinted, -, hnumbers⟩ := parse_printed
  have hnormal : (Json.obj members).IsNormal :=
    .obj (by decide) (List.forall_mem_cons.2 ⟨.num _, List.forall_mem_singleton.2 (.num _)⟩)
  have hback : (Json.obj members).ReadsBack := by
    refine .obj (List.forall_mem_cons.2 ⟨.num ?_, List.forall_mem_singleton.2 (.num ?_)⟩) <;>
      decide +kernel
  have hnormalAll : refused.IsNormal := .arr (List.forall_mem_cons.2
    ⟨hnormal, List.forall_mem_singleton.2 (.arr (List.forall_mem_singleton.2 (.bool true)))⟩)
  have hlegible : refused.IsLegible := .arr (List.forall_mem_cons.2 ⟨(hnumbers _).2 hback,
    List.forall_mem_singleton.2 (.arr (List.forall_mem_singleton.2 (.bool true)))⟩)
  have hdepth : (Json.obj members).depth ≤ Json.Source.maxDepth := by decide
  have hdepthAll : refused.depth ≤ Json.Source.maxDepth := by decide
  have hnone : Json.parse? "nu\"ll" = none := Option.isNone_iff_eq_none.1 (by decide +kernel)
  refine ⟨⟨hnormal, hdepth, hback⟩, ?_, ⟨hnormalAll, hdepthAll, hlegible⟩, ?_, hliteral "null", hnone,
    (hname "nu\"ll").1 hnone⟩
  · exact ((hprinted _ hnormal hdepth _ (.inl rfl)).1 _ rfl).2 hback
  · exact ((hprinted refused hnormalAll hdepthAll _ (.inr rfl)).2 _ rfl).2 hlegible

/-- The text of a value without fractions need not be the test that the value is.  The double
nearest to `3 * 10 ^ 30` is printed as `3e+30`; the reader multiplies `3` by the double nearest to
`10 ^ 30`, and what this rounds to is the next double. -/
theorem not_parse_printed_double : ¬∀ value : Json, value.IsNormal →
    value.ForallNumbers (fun n => n.IsWhole ∨ ∃ d : Double, n = .float d ∧ d.whole?.isSome = true) →
    value.depth ≤ Json.Source.maxDepth → parse value.text = ofJson value := by
  intro h
  have hnormal (n : Number) : (Json.obj [("n", .num n)]).IsNormal :=
    .obj (List.pairwise_singleton _ _) (List.forall_mem_singleton.2 (.num n))
  have hdepth (n : Number) : (Json.obj [("n", .num n)]).depth ≤ Json.Source.maxDepth := by
    simp [Json.depth, Json.depthOfMembers, Json.Source.maxDepth]
  have hwhole : (Double.whole? ⟨false, 5329070518200751, 49⟩).isSome = true := by decide +kernel
  have hparse := h _ (hnormal _) (.obj (List.forall_mem_singleton.2
    (.num (.inr ⟨_, rfl, hwhole⟩)))) (hdepth _)
  have hback := (parse_eq_ok_iff (hnormal _) (hdepth _) (.inl rfl) rfl).1 hparse
  rw [Json.ReadsBack, Json.forallNumbers_obj_iff, List.forall_mem_singleton, Json.forallNumbers_num_iff] at hback
  exact Number.not_readsBack_double hback

end Test

end SiblingQuery
