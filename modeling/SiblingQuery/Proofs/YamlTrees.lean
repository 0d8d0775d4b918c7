import SiblingQuery.Proofs.YamlScanning
import SiblingQuery.Tree.Rendering
import SiblingQuery.Yaml.Tree

/-!
# The tree of a printed YAML text

`valueTree` is the tree that a printed value has: no anchors and no tags, and every scalar in the
style in which it was printed.  It is what the tokens of the value are read as (`node?_valueTokens`)
and, since nothing in it is named, also what the document is in the end (`numberFrom?_valueTree`).

Every reader has a bound for its steps, and a value takes no more of them than it has tokens.  Only
a sequence that shares the column of its key takes one more, since no token marks its end.
-/

namespace SiblingQuery

namespace Yaml

/-! ## Values as trees -/

section

variable {α : Type}

mutual

/-- The tree of a printed value. -/
def valueTree : Json → Tree α
  | .null => .scalar none none .plain "null"
  | .bool b => .scalar none none .plain (if b then "true" else "false")
  | .num n => .scalar none none .plain (String.ofList (n.write doubleNotation))
  | .str s => .scalar none none (Quoting.style s) s
  | .arr items => .sequence none none (itemTrees items)
  | .obj members => .mapping none none (memberTrees members)
termination_by structural value => value

/-- The trees of the items of a printed sequence. -/
def itemTrees : List Json → List (Tree α)
  | [] => []
  | item :: items => valueTree item :: itemTrees items
termination_by structural items => items

/-- The trees of the keys and values of a printed mapping. -/
def memberTrees : List (String × Json) → List (Tree α × Tree α)
  | [] => []
  | (key, value) :: members =>
    (.scalar none none (Quoting.style key) key, valueTree value) :: memberTrees members
termination_by structural members => members

end

end

namespace Tree

variable {handles : Handles} {fuel : ℕ} {rest : List Token}

/-! ## From tokens -/

/-- A value that is not there would end where the tokens of an item begin; they end nothing. -/
lemma ends_itemTokens (item : Json) (rest : List Token) :
    endsBlockItem (valueTokens false item ++ rest) = false ∧
      endsIndentless (valueTokens false item ++ rest) = false := by
  cases item with
  | null | bool | num | str => exact ⟨rfl, rfl⟩
  | arr items => cases items <;> exact ⟨rfl, rfl⟩
  | obj members => cases members <;> exact ⟨rfl, rfl⟩

lemma endsBlockPair_valueTokens (onKeyLine : Bool) (value : Json) (rest : List Token) :
    endsBlockPair (valueTokens onKeyLine value ++ rest) = false := by
  cases value with
  | null | bool | num | str => rfl
  | arr items =>
    cases items with
    | nil => rfl
    | cons item items => cases onKeyLine <;> rfl
  | obj members => cases members <;> rfl

/-- The tokens of a value are read as its tree, whatever follows it. -/
def Builds (handles : Handles) (value : Json) : Prop :=
  ∀ ⦃onKeyLine indentless : Bool⦄ ⦃fuel : ℕ⦄ ⦃rest : List Token⦄,
    (valueTokens onKeyLine value).length + onKeyLine.toNat ≤ fuel →
    (onKeyLine = true → indentless = true ∧ rest.head? ≠ some .blockEntry) →
    node? handles true indentless fuel (valueTokens onKeyLine value ++ rest) =
      some (valueTree value, rest)

lemma blockItems?_itemTokens {items : List Json} (hitems : ∀ item ∈ items, Builds handles item)
    (hfuel : (itemTokens items).length < fuel) :
    blockItems? handles fuel (itemTokens items ++ .blockEnd :: rest) =
      some (itemTrees items, rest) := by
  obtain ⟨fuel, rfl⟩ := Nat.exists_eq_add_one_of_ne_zero (by omega : fuel ≠ 0)
  induction items generalizing fuel with
  | nil => rfl
  | cons item items ih =>
    obtain ⟨hitem, hitems⟩ := List.forall_mem_cons.1 hitems
    simp only [itemTokens, List.length_cons, List.length_append] at hfuel
    obtain ⟨fuel, rfl⟩ := Nat.exists_eq_add_one_of_ne_zero (by omega : fuel ≠ 0)
    have hfirst : node? handles true false (fuel + 1) (valueTokens false item ++
        (itemTokens items ++ .blockEnd :: rest)) = _ :=
      hitem (by simp; omega) fun h => absurd h Bool.false_ne_true
    have hends := (ends_itemTokens item (itemTokens items ++ .blockEnd :: rest)).1
    rw [itemTokens, List.cons_append, List.append_assoc, blockItems?, hends,
      if_neg Bool.false_ne_true, hfirst]
    simp only [ih hitems fuel (by omega)]
    rfl

lemma length_valueTokens_pos (item : Json) : 0 < (valueTokens false item).length := by
  cases item with
  | null | bool | num | str => exact Nat.one_pos
  | arr items => cases items <;> exact Nat.succ_pos _
  | obj members => cases members <;> exact Nat.succ_pos _

lemma indentlessItems?_itemTokens {items : List Json} (hitems : ∀ item ∈ items, Builds handles item)
    (hfuel : (itemTokens items).length ≤ fuel) (hpos : 0 < fuel)
    (hrest : rest.head? ≠ some .blockEntry) :
    indentlessItems? handles fuel (itemTokens items ++ rest) = some (itemTrees items, rest) := by
  obtain ⟨fuel, rfl⟩ := Nat.exists_eq_add_one_of_ne_zero (by omega : fuel ≠ 0)
  induction items generalizing fuel with
  | nil =>
    cases rest with
    | nil => rfl
    | cons token rest =>
      cases token
      case blockEntry => exact absurd rfl hrest
      all_goals rfl
  | cons item items ih =>
    obtain ⟨hitem, hitems⟩ := List.forall_mem_cons.1 hitems
    have hlength := length_valueTokens_pos item
    simp only [itemTokens, List.length_cons, List.length_append] at hfuel
    obtain ⟨fuel, rfl⟩ := Nat.exists_eq_add_one_of_ne_zero (by omega : fuel ≠ 0)
    have hfirst : node? handles true false (fuel + 1) (valueTokens false item ++
        (itemTokens items ++ rest)) = _ :=
      hitem (by simp; omega) fun h => absurd h Bool.false_ne_true
    have hends := (ends_itemTokens item (itemTokens items ++ rest)).2
    rw [itemTokens, List.cons_append, List.append_assoc, indentlessItems?, hends,
      if_neg Bool.false_ne_true, hfirst]
    simp only [ih hitems fuel (by omega) (by omega)]
    rfl

/-- A scalar without properties is read as itself. -/
lemma node?_scalar (block indentless : Bool) (style : Style) (text : String) :
    node? handles block indentless (fuel + 1) (.scalar style text :: rest) =
      some (.scalar none none style text, rest) := rfl

lemma head?_memberTokens (members : List (String × Json)) (rest : List Token) :
    (memberTokens members ++ .blockEnd :: rest).head? ≠ some .blockEntry := by
  cases members <;> simp [memberTokens]

lemma blockPairs?_memberTokens {members : List (String × Json)}
    (hmembers : ∀ member ∈ members, Builds handles member.2)
    (hfuel : (memberTokens members).length < fuel) :
    blockPairs? handles fuel (memberTokens members ++ .blockEnd :: rest) =
      some (memberTrees members, rest) := by
  obtain ⟨fuel, rfl⟩ := Nat.exists_eq_add_one_of_ne_zero (by omega : fuel ≠ 0)
  induction members generalizing fuel with
  | nil => rfl
  | cons member members ih =>
    obtain ⟨key, value⟩ := member
    have hvalue : Builds handles value := hmembers (key, value) List.mem_cons_self
    have hlater := (List.forall_mem_cons.1 hmembers).2
    simp only [memberTokens, List.length_cons, List.length_append] at hfuel
    obtain ⟨fuel, rfl⟩ := Nat.exists_eq_add_one_of_ne_zero (by omega : fuel ≠ 0)
    have htoNat := Bool.toNat_le (Quoting.isSimpleKey key)
    have hfirst : node? handles true true fuel (valueTokens (Quoting.isSimpleKey key) value ++
        (memberTokens members ++ .blockEnd :: rest)) = _ :=
      hvalue (by omega) fun _ => ⟨rfl, head?_memberTokens members rest⟩
    have hends := endsBlockPair_valueTokens (Quoting.isSimpleKey key) value
      (memberTokens members ++ .blockEnd :: rest)
    have hkey : endsBlockPair (.scalar (Quoting.style key) key :: .value ::
        (valueTokens (Quoting.isSimpleKey key) value ++
          (memberTokens members ++ .blockEnd :: rest))) = false := rfl
    rw [memberTokens]
    simp only [List.cons_append, List.append_assoc]
    rw [blockPairs?, hkey, if_neg Bool.false_ne_true, node?_scalar]
    simp only [blockValue?, hends, if_neg Bool.false_ne_true, hfirst]
    simp only [ih hlater fuel (by omega)]
    rfl

lemma builds_arr {items : List Json} (h : ∀ item ∈ items, Builds handles item) :
    Builds handles (.arr items) := by
  intro onKeyLine indentless fuel rest hfuel hopen
  cases items with
  | nil =>
    have hlength : 2 ≤ fuel := (Nat.le_add_right _ _).trans hfuel
    obtain ⟨fuel, rfl⟩ := Nat.exists_eq_add_of_le' hlength
    rfl
  | cons item items =>
    -- on the line of a key a sequence needs no indentation, and so has no token for its start
    cases onKeyLine with
    | false =>
      have htokens : valueTokens false (.arr (item :: items)) =
          .blockSequenceStart :: (itemTokens (item :: items) ++ [.blockEnd]) := rfl
      simp only [htokens, List.length_cons, List.length_append, List.length_nil,
        Bool.toNat_false] at hfuel
      obtain ⟨fuel, rfl⟩ := Nat.exists_eq_add_one_of_ne_zero (by omega : fuel ≠ 0)
      have hitems : blockItems? handles fuel (itemTokens (item :: items) ++
          .blockEnd :: rest) = _ := blockItems?_itemTokens h (by omega)
      rw [htokens, List.cons_append, List.append_assoc, List.singleton_append]
      change (blockItems? handles fuel (itemTokens (item :: items) ++
        .blockEnd :: rest)).map _ = _
      rw [hitems]
      rfl
    | true =>
      obtain ⟨rfl, hrest⟩ := hopen rfl
      have htokens : valueTokens true (.arr (item :: items)) = itemTokens (item :: items) := rfl
      simp only [htokens, Bool.toNat_true] at hfuel
      have hlength : 0 < (itemTokens (item :: items)).length := Nat.succ_pos _
      obtain ⟨fuel, rfl⟩ := Nat.exists_eq_add_one_of_ne_zero (by omega : fuel ≠ 0)
      have hitems : indentlessItems? handles fuel (itemTokens (item :: items) ++ rest) = _ :=
        indentlessItems?_itemTokens h (by omega) (by omega) hrest
      rw [htokens]
      change (indentlessItems? handles fuel (itemTokens (item :: items) ++ rest)).map _ = _
      rw [hitems]
      rfl

lemma builds_obj {members : List (String × Json)}
    (h : ∀ member ∈ members, Builds handles member.2) : Builds handles (.obj members) := by
  intro onKeyLine indentless fuel rest hfuel hopen
  cases members with
  | nil =>
    have hlength : 2 ≤ fuel := (Nat.le_add_right _ _).trans hfuel
    obtain ⟨fuel, rfl⟩ := Nat.exists_eq_add_of_le' hlength
    rfl
  | cons member members =>
    have htokens : valueTokens onKeyLine (.obj (member :: members)) =
        .blockMappingStart :: (memberTokens (member :: members) ++ [.blockEnd]) := rfl
    simp only [htokens, List.length_cons, List.length_append, List.length_nil] at hfuel
    obtain ⟨fuel, rfl⟩ := Nat.exists_eq_add_one_of_ne_zero (by omega : fuel ≠ 0)
    have hmembers : blockPairs? handles fuel (memberTokens (member :: members) ++
        .blockEnd :: rest) = _ := blockPairs?_memberTokens h (by omega)
    rw [htokens, List.cons_append, List.append_assoc, List.singleton_append]
    change (blockPairs? handles fuel (memberTokens (member :: members) ++
      .blockEnd :: rest)).map _ = _
    rw [hmembers]
    rfl

/-- The tokens of a printed value are read as its tree. -/
lemma node?_valueTokens (handles : Handles) {value : Json} (h : value.IsWhole) :
    Builds handles value := by
  induction h with
  | null | bool b | num h | str s =>
    intro onKeyLine indentless fuel rest hfuel _
    simp only [valueTokens, List.length_singleton] at hfuel
    obtain ⟨fuel, rfl⟩ := Nat.exists_eq_add_one_of_ne_zero (by omega : fuel ≠ 0)
    rfl
  | arr _ ih => exact builds_arr ih
  | obj _ ih => exact builds_obj ih

/-! ## Whole documents -/

/-- The document of a list of values printed as one sequence. -/
lemma ofTokens?_itemTokens {items : List Json} (h : ∀ item ∈ items, item.IsWhole) :
    ofTokens? (.blockSequenceStart :: (itemTokens items ++ [.blockEnd, .streamEnd])) =
      some (valueTree (.arr items)) := by
  have hitems : blockItems? ([] ++ defaultHandles) (2 * ((itemTokens items).length + 3) + 1)
      (itemTokens items ++ .blockEnd :: [.streamEnd]) = _ :=
    blockItems?_itemTokens (fun item hitem => node?_valueTokens _ (h item hitem)) (by omega)
  have hnode : node? ([] ++ defaultHandles) true false
      (2 * (.blockSequenceStart :: (itemTokens items ++ [.blockEnd, .streamEnd])).length + 2)
        (.blockSequenceStart :: (itemTokens items ++ [.blockEnd, .streamEnd])) =
      some (valueTree (.arr items), [.streamEnd]) := by
    simp only [List.length_cons, List.length_append, List.length_nil]
    change (blockItems? ([] ++ defaultHandles) (2 * ((itemTokens items).length + 3) + 1)
      (itemTokens items ++ [.blockEnd, .streamEnd])).map _ = _
    rw [hitems]
    rfl
  simp only [ofTokens?, directives?]
  rw [hnode]
  rfl

lemma numberItems?_itemTrees {names : Names} {items : List Json} (h : ∀ item ∈ items,
      numberFrom? names (valueTree item) = some (valueTree item, names)) :
    numberItems? names (itemTrees items) = some (itemTrees items, names) := by
  induction items with
  | nil => rfl
  | cons item items ih =>
    obtain ⟨hitem, hitems⟩ := List.forall_mem_cons.1 h
    simp only [itemTrees, numberItems?, hitem, ih hitems, Option.map_some]

lemma numberEntries?_memberTrees {names : Names} {members : List (String × Json)}
    (h : ∀ member ∈ members,
      numberFrom? names (valueTree member.2) = some (valueTree member.2, names)) :
    numberEntries? names (memberTrees members) = some (memberTrees members, names) := by
  induction members with
  | nil => rfl
  | cons member members ih =>
    obtain ⟨hvalue, hmembers⟩ := List.forall_mem_cons.1 h
    simp only [memberTrees, numberEntries?, numberFrom?, Names.declare, hvalue, ih hmembers,
      Option.map_some]

/-- Nothing in the tree of a printed value is named. -/
lemma numberFrom?_valueTree (names : Names) {value : Json} (h : value.IsWhole) :
    numberFrom? names (valueTree value) = some (valueTree value, names) := by
  induction h with
  | null | bool b | num h | str s => rfl
  | arr h ih =>
    simp only [valueTree, numberFrom?, Names.declare, numberItems?_itemTrees ih, Option.map_some]
  | obj h ih =>
    simp only [valueTree, numberFrom?, Names.declare, numberEntries?_memberTrees ih,
      Option.map_some]

end Tree

/-! ## Whole texts -/

/-- A text that a line feed behind it would change: it is printed as a literal block that keeps the
line ends at its tail, and the last of these is not itself a line feed. -/
def Quoting.IsTorn (text : String) : Prop :=
  Quoting.style text = .literal ∧ Scalar.keepsTail text.toList = true ∧
    text.toList.getLast? ≠ some '\n'

instance (text : String) : Decidable (Quoting.IsTorn text) :=
  inferInstanceAs (Decidable (Quoting.style text = .literal ∧
    Scalar.keepsTail text.toList = true ∧ text.toList.getLast? ≠ some '\n'))

/-- The line feed that may have been put behind a printed sequence is not taken for a part of its
last text. -/
lemma exists_endLine_eq_append {item : Json} {items : List Json}
    (hwhole : ∀ item' ∈ item :: items, item'.IsWhole)
    (hlast : ∀ text ∈ lastTextOfItems? (item :: items), ¬ Quoting.IsTorn text) :
    ∃ newlines, Node.endLine (sequenceText (item :: items)) =
        sequenceText (item :: items) ++ newlines ∧ (∀ c ∈ newlines, c = '\n') ∧
          Lexer.SparesTail (lastTextOfItems? (item :: items)) newlines := by
  unfold Node.endLine
  by_cases hfeed : (sequenceText (item :: items)).getLast? = some '\n'
  · rw [if_pos hfeed]
    exact ⟨[], by simp, by simp, nofun⟩
  · rw [if_neg hfeed]
    refine ⟨['\n'], rfl, by simp, fun _ text htext hstyle => ?_⟩
    obtain ⟨b, hb, -, hkept⟩ := endsLine_sequenceText hwhole
    -- a block that keeps its tail ends with the last line end of its text, and not with a line feed
    by_contra hkeeps
    have hkeeps' : Scalar.keepsTail text.toList = true := Bool.not_eq_false _ ▸ hkeeps
    have hsame := hkept text htext hstyle hkeeps'
    refine hlast text htext ⟨hstyle, hkeeps', ?_⟩
    rw [hsame]
    rwa [hb] at hfeed

/-- A list of values printed as one sequence, read back as a tree. -/
lemma bind_scan_endLine {items : List Json} (hwhole : ∀ item ∈ items, item.IsWhole)
    (hlast : ∀ text ∈ lastTextOfItems? items, ¬ Quoting.IsTorn text) :
    (Token.scan (Node.endLine (sequenceText items))).bind Tree.ofTokens? =
      some (valueTree (.arr items)) := by
  cases items with
  | nil =>
    have hscan : Token.scan (Node.endLine (sequenceText [])) =
        some [.flowSequenceStart, .flowSequenceEnd, .streamEnd] := by decide +kernel
    rw [hscan]
    rfl
  | cons item items =>
    obtain ⟨newlines, hend, hnewlines, hspares⟩ := exists_endLine_eq_append hwhole hlast
    rw [hend, scan_sequenceText hwhole hnewlines hspares, Option.bind_some,
      Tree.ofTokens?_itemTokens hwhole]

end Yaml

end SiblingQuery
