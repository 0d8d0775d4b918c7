import SiblingQuery.Proofs.AttributeTests

/-!
# Tests given as data

Of the JSON values, booleans and numbers are no tests, and neither is an array in which one of them
stands, however deep.  Inside an object both are ordinary values, to which a field is compared.  So
what is refused is decided by the *leaves* of a value: what is reached by going into arrays, but
never into objects.  They are taken in the order of the document, and the first that is no test is
the one that is reported (`ofJson_eq_error_iff`).

What a value keeps when it is a test is said without the test, by recursion on the value
(`Json.Keeps`).

Texts are JSON values or else names of types, so a text is refused only for its value, and of
several texts the first that is refused counts.
-/

namespace SiblingQuery

namespace Json

/-! ## Leaves -/

mutual

/-- What is reached by going into arrays only, in the order of the document. -/
def leaves : Json → List Json
  | .arr items => leavesOfItems items
  | value => [value]
termination_by structural value => value

/-- The leaves of all items. -/
def leavesOfItems : List Json → List Json
  | [] => []
  | item :: items => leaves item ++ leavesOfItems items
termination_by structural items => items

end

/-- The value is reached from another one by going into arrays only. -/
inductive IsReachedIn : Json → Json → Prop
  | self (value : Json) : IsReachedIn value value
  | item {value item : Json} {items : List Json} : item ∈ items → IsReachedIn value item →
      IsReachedIn value (.arr items)

/-- What a value that is no test is called. -/
def refusedKind? : Json → Option String
  | .bool _ => some "boolean"
  | .num _ => some "number"
  | _ => none

/-- What is reported of a value that is refused: its first leaf that is no test. -/
def refusal? (value : Json) : Option String := value.leaves.findSome? refusedKind?

variable {value leaf : Json}

lemma leavesOfItems_eq_flatMap (items : List Json) : leavesOfItems items = items.flatMap leaves := by
  induction items with
  | nil => rfl
  | cons item items ih => rw [leavesOfItems, ih, List.flatMap_cons]

lemma leaves_arr (items : List Json) : (arr items).leaves = items.flatMap leaves := by
  rw [leaves, leavesOfItems_eq_flatMap]

lemma leaves_of_ne_arr (h : ∀ items, value ≠ .arr items) : value.leaves = [value] := by
  cases value with
  | arr items => exact absurd rfl (h items)
  | _ => rfl

lemma isReachedIn_of_ne_arr (h : ∀ items, value ≠ .arr items) :
    leaf.IsReachedIn value ↔ leaf = value := by
  constructor
  · rintro (_ | ⟨hitem, -⟩)
    · rfl
    · exact absurd rfl (h _)
  · rintro rfl
    exact .self leaf

lemma isReachedIn_arr_iff {items : List Json} (h : ∀ others, leaf ≠ .arr others) :
    leaf.IsReachedIn (.arr items) ↔ ∃ item ∈ items, leaf.IsReachedIn item := by
  constructor
  · rintro (_ | ⟨hitem, hleaf⟩)
    · exact absurd rfl (h items)
    · exact ⟨_, hitem, hleaf⟩
  · rintro ⟨item, hitem, hleaf⟩
    exact .item hitem hleaf

/-- The leaves are what is reached and is no array itself. -/
lemma mem_leaves_iff :
    leaf ∈ value.leaves ↔ leaf.IsReachedIn value ∧ ∀ items, leaf ≠ .arr items := by
  induction value with
  | arr items ih =>
    rw [leaves_arr, List.mem_flatMap]
    constructor
    · rintro ⟨item, hitem, hleaf⟩
      obtain ⟨hreached, hscalar⟩ := (ih item hitem).1 hleaf
      exact ⟨.item hitem hreached, hscalar⟩
    · rintro ⟨hreached, hscalar⟩
      obtain ⟨item, hitem, hleaf⟩ := (isReachedIn_arr_iff hscalar).1 hreached
      exact ⟨item, hitem, (ih item hitem).2 ⟨hleaf, hscalar⟩⟩
  | _ =>
    rw [leaves_of_ne_arr (by simp), isReachedIn_of_ne_arr (by simp), List.mem_singleton]
    exact ⟨fun h => ⟨h, by simp [h]⟩, And.left⟩

/-- Of the items of an array, the first that is refused is reported. -/
lemma refusal?_arr (items : List Json) : (arr items).refusal? = items.findSome? refusal? := by
  rw [refusal?, leaves_arr]
  induction items with
  | nil => rfl
  | cons item items ih =>
    rw [List.flatMap_cons, List.findSome?_append, ih, List.findSome?_cons, ← refusal?]
    cases item.refusal? <;> rfl

/-- A value is refused exactly if a boolean or a number is reached in it. -/
lemma refusal?_ne_none_iff : value.refusal? ≠ none ↔
    ∃ leaf : Json, leaf.IsReachedIn value ∧ ((∃ b, leaf = .bool b) ∨ ∃ n, leaf = .num n) := by
  rw [refusal?, ne_eq, List.findSome?_eq_none_iff]
  push Not
  constructor
  · rintro ⟨leaf, hleaf, hrefused⟩
    refine ⟨leaf, (mem_leaves_iff.1 hleaf).1, ?_⟩
    cases leaf with
    | bool b => exact .inl ⟨b, rfl⟩
    | num n => exact .inr ⟨n, rfl⟩
    | _ => exact absurd rfl hrefused
  · rintro ⟨leaf, hreached, ⟨b, rfl⟩ | ⟨n, rfl⟩⟩
    · exact ⟨_, mem_leaves_iff.2 ⟨hreached, by simp⟩, by simp [refusedKind?]⟩
    · exact ⟨_, mem_leaves_iff.2 ⟨hreached, by simp⟩, by simp [refusedKind?]⟩

/-! ## What a value keeps -/

/-- What a value keeps as a test: null every node, a string the nodes of its type, an object the
nodes that have all of its members, an array the nodes that one of its items keeps. -/
inductive Keeps (node : Node) : Json → Prop
  | null : Keeps node .null
  | str : Keeps node (.str node.kind)
  | obj {members : List (String × Json)} :
      (∀ member ∈ members, ∃ actual, node.field? member.1 = some actual ∧
        actual.same member.2 = true) → Keeps node (.obj members)
  | arr {items : List Json} {item : Json} : item ∈ items → Keeps node item →
      Keeps node (.arr items)

end Json

/-! ## Values as tests -/

namespace Test

open Json

variable {value : Json} {test : Test}

lemma ofJsonList_eq_mapM (items : List Json) : ofJsonList items = items.mapM ofJson := by
  induction items with
  | nil => rfl
  | cons item items ih =>
    rw [ofJsonList, List.mapM_cons, ih]
    cases ofJson item with
    | error e => rfl
    | ok test => cases items.mapM ofJson <;> rfl

/-- A value is refused for its first leaf that is no test. -/
lemma ofJson_eq_error_iff (value : Json) (e : FindError) :
    ofJson value = .error e ↔ ∃ kind, value.refusal? = some kind ∧ e = .invalidTest kind := by
  induction value generalizing e with
  | arr items ih =>
    have hitems := mapM_eq_error_iff ih e
    rw [refusal?_arr, ← hitems, ← ofJsonList_eq_mapM, ofJson]
    cases ofJsonList items <;> simp
  | _ => simp [ofJson, refusal?, leaves, refusedKind?, eq_comm]

/-- The test of an array is made of the tests of its items. -/
lemma ofJson_arr_eq_ok_iff {items : List Json} :
    ofJson (.arr items) = .ok test ↔ ∃ tests,
      List.Forall₂ (fun item test => ofJson item = .ok test) items tests ∧ test = anyOf tests := by
  simp only [← mapM_eq_ok_iff, ← ofJsonList_eq_mapM]
  rw [ofJson]
  cases ofJsonList items <;> simp [eq_comm]

/-- A test that a value makes keeps what the value keeps. -/
lemma passes_iff_keeps (h : ofJson value = .ok test) (node : Occurrence) (index : ℕ)
    (parent : Occurrence) :
    test.passes node index parent = true ↔ value.Keeps node.node := by
  -- The recursion is through arrays alone: below an object everything is an attribute.
  induction value generalizing test with
  | null =>
    obtain rfl : any = test := Except.ok.inj h
    exact ⟨fun _ => .null, fun _ => rfl⟩
  | bool b => cases h
  | num n => cases h
  | str name =>
    obtain rfl : kind name = test := Except.ok.inj h
    rw [passes, decide_eq_true_iff]
    constructor
    · rintro rfl
      exact .str
    · rintro (_ | _)
      rfl
  | arr items ih =>
    obtain ⟨tests, hitems, rfl⟩ := ofJson_arr_eq_ok_iff.1 h
    rw [passes, passesAny_iff,
      ← exists_mem_iff_of_forall₂ hitems fun item hitem test htest => (ih item hitem htest).symm]
    constructor
    · rintro ⟨item, hitem, hkeeps⟩
      exact .arr hitem hkeeps
    · rintro (_ | _ | _ | ⟨hitem, hkeeps⟩)
      exact ⟨_, hitem, hkeeps⟩
  | obj members =>
    obtain rfl : attributes members = test := Except.ok.inj h
    rw [passes, Node.hasAttributes_iff]
    constructor
    · exact .obj
    · rintro (_ | _ | hmembers)
      exact hmembers

/-! ## Texts as tests -/

variable {text : String} {texts : List String}

/-- What is reported of a text that is refused, if it is a JSON value at all. -/
def refusalOfText? (text : String) : Option String := (Json.parse? text).bind refusal?

/-- What a text keeps as a test: what its value keeps, or the nodes of its type. -/
def KeepsText (node : Node) (text : String) : Prop :=
  match Json.parse? text with
  | some value => value.Keeps node
  | none => node.kind = text

lemma parse_eq_error_iff (text : String) (e : FindError) :
    parse text = .error e ↔ ∃ kind, refusalOfText? text = some kind ∧ e = .invalidTest kind := by
  rw [parse, refusalOfText?]
  cases Json.parse? text with
  | none => simp
  | some value => exact ofJson_eq_error_iff value e

lemma refusalOfText?_eq_none_iff : refusalOfText? text = none ↔
    ∀ value, Json.parse? text = some value → ∃ test, ofJson value = .ok test := by
  rw [refusalOfText?]
  cases Json.parse? text with
  | none => simp
  | some value => simp [exists_ok_iff (ofJson_eq_error_iff value)]

/-- Of several texts, the first that is refused is reported. -/
lemma parseAll_eq_error_iff (texts : List String) (e : FindError) :
    parseAll texts = .error e ↔
      ∃ kind, texts.findSome? refusalOfText? = some kind ∧ e = .invalidTest kind := by
  rw [← mapM_eq_error_iff (fun text _ => parse_eq_error_iff text), ← parseList_eq_mapM, parseAll]
  rcases parseList texts with e | _ | ⟨test, _ | ⟨other, tests⟩⟩ <;> simp

lemma parse_eq_error_iff_value (text : String) (e : FindError) :
    parse text = .error e ↔ ∃ value, Json.parse? text = some value ∧ ofJson value = .error e := by
  rw [parse]
  cases Json.parse? text <;> simp

/-- Several texts are refused as the first of them is that has a value which is refused. -/
lemma parseAll_eq_error_iff_first (texts : List String) (e : FindError) :
    parseAll texts = .error e ↔ ∃ before text after, texts = before ++ text :: after ∧
      (∃ value, Json.parse? text = some value ∧ ofJson value = .error e) ∧
      ∀ earlier ∈ before, ∀ value, Json.parse? earlier = some value →
        ∃ test, ofJson value = .ok test := by
  rw [parseAll_eq_error_iff]
  simp only [List.findSome?_eq_some_iff, refusalOfText?_eq_none_iff, ← parse_eq_error_iff_value,
    parse_eq_error_iff]
  constructor
  · rintro ⟨name, ⟨before, text, after, htexts, hname, hbefore⟩, he⟩
    exact ⟨before, text, after, htexts, ⟨name, hname, he⟩, hbefore⟩
  · rintro ⟨before, text, after, htexts, ⟨name, hname, he⟩, hbefore⟩
    exact ⟨name, ⟨before, text, after, htexts, hname, hbefore⟩, he⟩

lemma passes_iff_keepsText (h : parse text = .ok test) (node : Occurrence) (index : ℕ)
    (parent : Occurrence) :
    test.passes node index parent = true ↔ KeepsText node.node text := by
  unfold parse at h
  unfold KeepsText
  cases hvalue : Json.parse? text with
  | none =>
    rw [hvalue] at h
    obtain rfl : kind text = test := Except.ok.inj h
    simp [passes]
  | some value =>
    rw [hvalue] at h
    exact passes_iff_keeps h node index parent

/-- Which values and texts are no tests, and what the others keep.  A value is refused exactly if a
boolean or a number is reached in it through arrays alone; the first of its leaves that is one is
reported.  Of several texts the first is reported that is a JSON value and is refused as such.  A
value that is a test keeps what it says, and texts keep what one of them keeps, or every node if
there is none. -/
theorem ofJson_refuses :
    (∀ value : Json,
      ((∃ e, ofJson value = .error e) ↔
        ∃ leaf : Json, leaf.IsReachedIn value ∧ ((∃ b, leaf = .bool b) ∨ ∃ n, leaf = .num n)) ∧
      (∀ e, ofJson value = .error e ↔
        ∃ kind, value.leaves.findSome? refusedKind? = some kind ∧ e = .invalidTest kind) ∧
      ∀ test, ofJson value = .ok test → ∀ (node : Occurrence) (index : ℕ) (parent : Occurrence),
        test.passes node index parent = true ↔ value.Keeps node.node) ∧
    ∀ texts : List String,
      ((∃ e, parseAll texts = .error e) ↔ ∃ text ∈ texts, ∃ value e,
        Json.parse? text = some value ∧ ofJson value = .error e) ∧
      (∀ e, parseAll texts = .error e ↔ ∃ before text after, texts = before ++ text :: after ∧
        (∃ value, Json.parse? text = some value ∧ ofJson value = .error e) ∧
        ∀ earlier ∈ before, ∀ value, Json.parse? earlier = some value →
          ∃ test, ofJson value = .ok test) ∧
      ∀ test, parseAll texts = .ok test →
        ∀ (node : Occurrence) (index : ℕ) (parent : Occurrence),
          test.passes node index parent = true ↔
            texts = [] ∨ ∃ text ∈ texts, KeepsText node.node text := by
  refine ⟨fun value => ⟨?_, ofJson_eq_error_iff value, fun test => passes_iff_keeps⟩,
    fun texts => ⟨?_, parseAll_eq_error_iff_first texts, fun test hall node index parent => ?_⟩⟩
  · rw [← refusal?_ne_none_iff, Option.ne_none_iff_exists']
    simp only [ofJson_eq_error_iff]
    constructor
    · rintro ⟨_, name, hname, -⟩
      exact ⟨name, hname⟩
    · rintro ⟨name, hname⟩
      exact ⟨_, name, hname, rfl⟩
  · constructor
    · rintro ⟨e, he⟩
      obtain ⟨before, text, after, rfl, ⟨value, hvalue, hrefusal⟩, -⟩ :=
        (parseAll_eq_error_iff_first texts e).1 he
      exact ⟨text, List.mem_append_right before List.mem_cons_self, value, e, hvalue, hrefusal⟩
    · rintro ⟨text, htext, value, e, hvalue, hrefusal⟩
      cases hall : parseAll texts with
      | error e' => exact ⟨e', rfl⟩
      | ok test =>
        obtain ⟨one, hone⟩ := exists_parseAll_iff.1 ⟨test, hall⟩ text htext
        have := (parse_eq_error_iff_value text e).2 ⟨value, hvalue, hrefusal⟩
        rw [hone] at this
        cases this
  · rw [passes_iff_of_parseAll hall]
    refine or_congr_right (exists_congr fun text => and_congr_right fun htext => ?_)
    constructor
    · rintro ⟨one, hone, hpasses⟩
      exact (passes_iff_keepsText hone node index parent).1 hpasses
    · intro hkeeps
      obtain ⟨one, hone⟩ := exists_parseAll_iff.1 ⟨test, hall⟩ text htext
      exact ⟨one, hone, (passes_iff_keepsText hone node index parent).2 hkeeps⟩

/-- A number deep in arrays is refused before the boolean behind it, though another boolean stands
before it in an object.  Of three texts the second is refused as a number, since the first is no
JSON.  A type and an array of types keep a node of one of these types. -/
theorem ofJson_refuses_nested :
    let object : Json := .obj [("ordered", .bool true)]
    ofJson (.arr [object, .arr [.arr [], .num (.int 3)], .bool false]) =
        .error (.invalidTest "number") ∧
      parseAll ["tru", "7", "true"] = .error (.invalidTest "number") ∧
      ∃ test, parseAll ["break", "[[],\"list\"]"] = .ok test ∧
        ∀ place index parent, test.passes ⟨place, .leaf "list"⟩ index parent = true := by
  intro object
  obtain ⟨hvalues, htexts⟩ := ofJson_refuses
  refine ⟨((hvalues _).2.1 _).2 ⟨"number", rfl, rfl⟩, ?_, ?_⟩
  · have hfirst : Json.parse? "tru" = none := Option.isNone_iff_eq_none.1 (by decide +kernel)
    have hsecond : Json.parse? "7" = some (.num (.int 7)) := by
      have hread : Source.read "7".toList = some (.number ⟨false, ['7'], none, none⟩) :=
        Source.read_of_scan (by decide +kernel)
      rw [Json.parse?, hread]
      rfl
    refine ((htexts _).2.1 _).2 ⟨["tru"], "7", ["true"], rfl, ⟨_, hsecond, rfl⟩, ?_⟩
    rw [List.forall_mem_singleton, hfirst]
    exact nofun
  · have hvalue : Json.parse? "[[],\"list\"]" = some (.arr [.arr [], .str "list"]) := by
      have hread : Source.read "[[],\"list\"]".toList =
          some (.array [.array [], .string (Quoted.ofText "list")]) :=
        Source.read_of_scan (by decide +kernel)
      rw [Json.parse?, hread]
      rfl
    have hbreak : Json.parse? "break" = none := Option.isNone_iff_eq_none.1 (by decide +kernel)
    have hall : parseAll ["break", "[[],\"list\"]"] =
        .ok (.anyOf [.kind "break", .anyOf [.anyOf [], .kind "list"]]) := by
      simp only [parseAll, parseList, parse, hvalue, hbreak]
      rfl
    refine ⟨_, hall, fun place index parent => ?_⟩
    refine ((htexts _).2.2 _ hall ⟨place, .leaf "list"⟩ index parent).2
      (.inr ⟨_, List.mem_cons_of_mem _ List.mem_cons_self, ?_⟩)
    rw [KeepsText, hvalue]
    exact .arr (List.mem_cons_of_mem _ List.mem_cons_self) .str

end Test

end SiblingQuery
