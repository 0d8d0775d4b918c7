import SiblingQuery.Proofs.JsonReading
import SiblingQuery.Proofs.Members
import SiblingQuery.Proofs.PrintedNumbers

/-!
# Printed JSON documents read back

Reading goes from text through tokens to a tree and then to a value.  This module follows a printed
document all the way.

* `Token.Spell text tokens` says that a text spells some tokens whatever stands after it.  The two
  layouts of a document spell the same tokens (`spell_compact`, `spell_pretty`), so blanks are dealt
  with once.
* `Source.tokens` writes any tree out as tokens, and the reading machine is its inverse
  (`ofTokens?_tokens`).  A run over the tokens of a value takes the machine from waiting for a value
  to having it, on the same stack.
* `Json.source` is the tree of a printed document, and reading its values gives a normal value back
  exactly if it gives every number of it back (`value?_source_iff`), as it does where all numbers
  are integers of at most 64 bits (`value?_source`).

Texts are followed for any document, and values where they are as fields hold them
(`Json.IsNormal`).
-/

namespace SiblingQuery

namespace Json

/-! ## Kinds of values -/

/-- Structural induction on values: of an array or object, the statement is known of all items or
members. -/
@[elab_as_elim, induction_eliminator]
theorem recAux {motive : Json → Prop} (null : motive .null) (bool : ∀ b, motive (.bool b))
    (num : ∀ n, motive (.num n)) (str : ∀ s, motive (.str s))
    (arr : ∀ items, (∀ item ∈ items, motive item) → motive (.arr items))
    (obj : ∀ members, (∀ member ∈ members, motive member.2) → motive (.obj members)) :
    ∀ value, motive value
  | .null => null
  | .bool b => bool b
  | .num n => num n
  | .str s => str s
  | .arr items => arr items fun item _ => recAux null bool num str arr obj item
  | .obj members => obj members fun member hmember =>
      have : sizeOf member.2 < sizeOf members :=
        Nat.lt_trans (by cases member; simp +arith) (List.sizeOf_lt_of_mem hmember)
      recAux null bool num str arr obj member.2

/-- Every number satisfies `P`. -/
inductive ForallNumbers (P : Number → Prop) : Json → Prop
  | null : ForallNumbers P .null
  | bool (b : Bool) : ForallNumbers P (.bool b)
  | num {n : Number} (h : P n) : ForallNumbers P (.num n)
  | str (s : String) : ForallNumbers P (.str s)
  | arr {items : List Json} (h : ∀ item ∈ items, ForallNumbers P item) : ForallNumbers P (.arr items)
  | obj {members : List (String × Json)} (h : ∀ member ∈ members, ForallNumbers P member.2) :
      ForallNumbers P (.obj members)

section ForallNumbers

variable {P : Number → Prop}

@[simp]
lemma forallNumbers_num_iff {n : Number} : (num n).ForallNumbers P ↔ P n :=
  ⟨fun h => by cases h with | num h => exact h, .num⟩

lemma forallNumbers_arr_iff {items : List Json} :
    (arr items).ForallNumbers P ↔ ∀ item ∈ items, item.ForallNumbers P :=
  ⟨fun h => by cases h with | arr h => exact h, .arr⟩

lemma forallNumbers_obj_iff {members : List (String × Json)} :
    (obj members).ForallNumbers P ↔ ∀ member ∈ members, member.2.ForallNumbers P :=
  ⟨fun h => by cases h with | obj h => exact h, .obj⟩

end ForallNumbers

lemma ForallNumbers.mono {P Q : Number → Prop} (himp : ∀ n, P n → Q n) {value : Json}
    (h : value.ForallNumbers P) : value.ForallNumbers Q := by
  induction h with
  | null => exact .null
  | bool b => exact .bool b
  | num h => exact .num (himp _ h)
  | str s => exact .str s
  | arr _ ih => exact .arr ih
  | obj _ ih => exact .obj ih

/-- Every number is an integer of at most 64 bits. -/
abbrev IsWhole : Json → Prop := ForallNumbers Number.IsWhole

/-- Every number is read from its text as a number. -/
abbrev IsLegible : Json → Prop := ForallNumbers Number.IsLegible

/-- Every number is read back from its text. -/
abbrev ReadsBack : Json → Prop := ForallNumbers Number.ReadsBack

/-- The members of every object have ascending keys. -/
inductive IsNormal : Json → Prop
  | null : IsNormal .null
  | bool (b : Bool) : IsNormal (.bool b)
  | num (n : Number) : IsNormal (.num n)
  | str (s : String) : IsNormal (.str s)
  | arr {items : List Json} (h : ∀ item ∈ items, IsNormal item) : IsNormal (.arr items)
  | obj {members : List (String × Json)} (hkeys : (Members.keys members).Pairwise (· < ·))
      (h : ∀ member ∈ members, IsNormal member.2) : IsNormal (.obj members)

lemma IsNormal.of_isContainer {value : Json} (h : value.isContainer = false) : value.IsNormal := by
  cases value with
  | null => exact .null
  | bool b => exact .bool b
  | num n => exact .num n
  | str s => exact .str s
  | arr _ => cases h
  | obj _ => cases h

mutual

/-- How many arrays and objects stand inside one another. -/
def depth : Json → ℕ
  | .arr items => depthOfItems items + 1
  | .obj members => depthOfMembers members + 1
  | _ => 0
termination_by structural value => value

/-- How deep the deepest item is. -/
def depthOfItems : List Json → ℕ
  | [] => 0
  | item :: items => max item.depth (depthOfItems items)
termination_by structural items => items

/-- How deep the deepest value of a member is. -/
def depthOfMembers : List (String × Json) → ℕ
  | [] => 0
  | (_, value) :: members => max value.depth (depthOfMembers members)
termination_by structural members => members

end

lemma depthOfItems_le_iff {items : List Json} {d : ℕ} :
    depthOfItems items ≤ d ↔ ∀ item ∈ items, item.depth ≤ d := by
  induction items with
  | nil => simp [depthOfItems]
  | cons item items ih => simp [depthOfItems, ih]

lemma depthOfMembers_le_iff {members : List (String × Json)} {d : ℕ} :
    depthOfMembers members ≤ d ↔ ∀ member ∈ members, member.2.depth ≤ d := by
  induction members with
  | nil => simp [depthOfMembers]
  | cons member members ih => simp [depthOfMembers, ih]

/-- An array is one level deeper than its items. -/
lemma exists_depth_of_arr {items : List Json} {d : ℕ} (h : (Json.arr items).depth ≤ d) :
    ∃ inner, d = inner + 1 ∧ ∀ item ∈ items, item.depth ≤ inner := by
  obtain ⟨inner, rfl⟩ := Nat.exists_eq_add_of_le' (Nat.le_trans (Nat.le_add_left 1 _) h)
  simp only [depth, Nat.add_le_add_iff_right, depthOfItems_le_iff] at h
  exact ⟨inner, rfl, h⟩

/-- An object is one level deeper than its members. -/
lemma exists_depth_of_obj {members : List (String × Json)} {d : ℕ}
    (h : (Json.obj members).depth ≤ d) :
    ∃ inner, d = inner + 1 ∧ ∀ member ∈ members, member.2.depth ≤ inner := by
  obtain ⟨inner, rfl⟩ := Nat.exists_eq_add_of_le' (Nat.le_trans (Nat.le_add_left 1 _) h)
  simp only [depth, Nat.add_le_add_iff_right, depthOfMembers_le_iff] at h
  exact ⟨inner, rfl, h⟩

/-! ## The tree of a printed document -/

mutual

/-- The tree that a printed document has. -/
def source : Json → Source
  | .null => .null
  | .bool b => .bool b
  | .num n => .number n.numeral
  | .str s => .string (Quoted.ofText s)
  | .arr items => .array (sourcesOfItems items)
  | .obj members => .object (sourcesOfMembers members)
termination_by structural value => value

/-- The trees of the items of a printed array. -/
def sourcesOfItems : List Json → List Source
  | [] => []
  | item :: items => item.source :: sourcesOfItems items
termination_by structural items => items

/-- The trees of the members of a printed object. -/
def sourcesOfMembers : List (String × Json) → List (Quoted × Source)
  | [] => []
  | (key, value) :: members => (Quoted.ofText key, value.source) :: sourcesOfMembers members
termination_by structural members => members

end

lemma sourcesOfItems_eq_map (items : List Json) : sourcesOfItems items = items.map source := by
  induction items with
  | nil => rfl
  | cons item items ih => simp [sourcesOfItems, ih]

lemma sourcesOfMembers_eq_map (members : List (String × Json)) :
    sourcesOfMembers members =
      members.map fun member => (Quoted.ofText member.1, member.2.source) := by
  induction members with
  | nil => rfl
  | cons member members ih => simp [sourcesOfMembers, ih]

namespace Source

mutual

/-- A tree written out as tokens. -/
def tokens : Source → List Token
  | .null => [.null]
  | .bool b => [.bool b]
  | .number n => [.number n]
  | .string q => [.string q]
  | .array [] => [.openBracket, .closeBracket]
  | .array (item :: items) => .openBracket :: (item.tokens ++ tokensOfItems items)
  | .object [] => [.openBrace, .closeBrace]
  | .object ((key, value) :: members) =>
    .openBrace :: .string key :: .colon :: (value.tokens ++ tokensOfMembers members)
termination_by structural source => source

/-- The items after the first, and the end of the array. -/
def tokensOfItems : List Source → List Token
  | [] => [.closeBracket]
  | item :: items => .comma :: (item.tokens ++ tokensOfItems items)
termination_by structural items => items

/-- The members after the first, and the end of the object. -/
def tokensOfMembers : List (Quoted × Source) → List Token
  | [] => [.closeBrace]
  | (key, value) :: members =>
    .comma :: .string key :: .colon :: (value.tokens ++ tokensOfMembers members)
termination_by structural members => members

end

/-! ## The reading machine -/

/-- An array that has just been opened takes a value as an array with a comma does. -/
lemma foldlM_step_item (source : Source) (stack : List Frame) (rest : List Token) :
    (source.tokens ++ rest).foldlM step (.item stack) =
      (source.tokens ++ rest).foldlM step (.value (.array [] :: stack)) := by
  rcases source with _ | b | n | q | items | members
  · rfl
  · rfl
  · rfl
  · rfl
  · cases items <;> rfl
  · rcases members with _ | ⟨⟨key, value⟩, members⟩ <;> rfl

mutual

/-- A run over the tokens of a value: the machine waited for the value, and then it has it. -/
lemma foldlM_step_tokens (source : Source) (stack : List Frame) (rest : List Token) :
    (source.tokens ++ rest).foldlM step (.value stack) =
      rest.foldlM step (.after source stack) := by
  match source with
  | .null => rfl
  | .bool b => rfl
  | .number n => rfl
  | .string q => rfl
  | .array [] => rfl
  | .array (item :: items) =>
    calc (tokens (.array (item :: items)) ++ rest).foldlM step (.value stack)
      _ = (item.tokens ++ (tokensOfItems items ++ rest)).foldlM step (.item stack) := by
          rw [tokens, List.cons_append, List.append_assoc]; rfl
      _ = (tokensOfItems items ++ rest).foldlM step (.after item (.array [] :: stack)) := by
          rw [foldlM_step_item, foldlM_step_tokens item]
      _ = rest.foldlM step (.after (.array (item :: items)) stack) := by
          rw [foldlM_step_tokensOfItems items]; rfl
  | .object [] => rfl
  | .object ((key, value) :: members) =>
    calc (tokens (.object ((key, value) :: members)) ++ rest).foldlM step (.value stack)
      _ = (value.tokens ++ (tokensOfMembers members ++ rest)).foldlM step
            (.value (.object [] key :: stack)) := by
          rw [tokens, List.cons_append, List.cons_append, List.cons_append, List.append_assoc]; rfl
      _ = (tokensOfMembers members ++ rest).foldlM step (.after value (.object [] key :: stack)) := by
          rw [foldlM_step_tokens value]
      _ = rest.foldlM step (.after (.object ((key, value) :: members)) stack) := by
          rw [foldlM_step_tokensOfMembers members]; rfl

/-- A run to the end of an array, with some items done and one at hand. -/
lemma foldlM_step_tokensOfItems (items : List Source) (item : Source) (done : List Source)
    (stack : List Frame) (rest : List Token) :
    (tokensOfItems items ++ rest).foldlM step (.after item (.array done :: stack)) =
      rest.foldlM step (.after (.array (done.reverse ++ item :: items)) stack) := by
  match items with
  | [] =>
    simp only [tokensOfItems, List.cons_append, List.nil_append]
    rw [← List.reverse_cons]
    rfl
  | next :: items =>
    calc (tokensOfItems (next :: items) ++ rest).foldlM step (.after item (.array done :: stack))
      _ = (next.tokens ++ (tokensOfItems items ++ rest)).foldlM step
            (.value (.array (item :: done) :: stack)) := by
          rw [tokensOfItems, List.cons_append, List.append_assoc]; rfl
      _ = rest.foldlM step
            (.after (.array ((item :: done).reverse ++ next :: items)) stack) := by
          rw [foldlM_step_tokens next, foldlM_step_tokensOfItems items]
      _ = _ := by simp

/-- A run to the end of an object, with some members done and one at hand. -/
lemma foldlM_step_tokensOfMembers (members : List (Quoted × Source)) (key : Quoted)
    (value : Source) (done : List (Quoted × Source)) (stack : List Frame) (rest : List Token) :
    (tokensOfMembers members ++ rest).foldlM step (.after value (.object done key :: stack)) =
      rest.foldlM step (.after (.object (done.reverse ++ (key, value) :: members)) stack) := by
  match members with
  | [] =>
    simp only [tokensOfMembers, List.cons_append, List.nil_append]
    rw [← List.reverse_cons]
    rfl
  | (next, nextValue) :: members =>
    calc (tokensOfMembers ((next, nextValue) :: members) ++ rest).foldlM step
          (.after value (.object done key :: stack))
      _ = (nextValue.tokens ++ (tokensOfMembers members ++ rest)).foldlM step
            (.value (.object ((key, value) :: done) next :: stack)) := by
          rw [tokensOfMembers, List.cons_append, List.cons_append, List.cons_append,
            List.append_assoc]; rfl
      _ = rest.foldlM step (.after (.object (((key, value) :: done).reverse ++
            (next, nextValue) :: members)) stack) := by
          rw [foldlM_step_tokens nextValue, foldlM_step_tokensOfMembers members]
      _ = _ := by simp

end

/-- The machine reads every tree from its tokens. -/
lemma ofTokens?_tokens (source : Source) : ofTokens? source.tokens = some source := by
  have hrun := foldlM_step_tokens source [] []
  rw [List.append_nil] at hrun
  simp [ofTokens?, hrun]

lemma read_of_scan {text : List Char} {source : Source}
    (h : Token.scan text = some source.tokens) : read text = some source := by
  rw [read, h, Option.bind_some, ofTokens?_tokens]

end Source

/-! ## What a text spells -/

namespace Token

/-- A text spells some tokens, whatever stands after it that cannot prolong a number. -/
def Spell (text : List Char) (tokens : List Token) : Prop :=
  ∀ rest after, Ends rest → scan rest = some after → scan (text ++ rest) = some (tokens ++ after)

/-- A text after which a number has ended. -/
def Opens (text : List Char) : Prop := ∀ rest, Ends rest → Ends (text ++ rest)

variable {text other : List Char} {tokens others : List Token}

lemma opens_cons {c : Char} (h : c.isDigit = false ∧ c ≠ '.' ∧ c ≠ 'e' ∧ c ≠ 'E')
    (text : List Char) : Opens (c :: text) := fun _ _ => ends_cons h _

lemma Spell.append (h : Spell text tokens) (hother : Spell other others) (hopens : Opens other) :
    Spell (text ++ other) (tokens ++ others) := by
  intro rest after hrest hscan
  rw [List.append_assoc, List.append_assoc]
  exact h _ _ (hopens rest hrest) (hother rest after hrest hscan)

lemma spell_nil : Spell [] [] := fun _ _ _ h => h

/-- Blanks before a text do not matter. -/
lemma Spell.blank {c : Char} (hc : isSpace c = true) (h : Spell text tokens) :
    Spell (c :: text) tokens := by
  intro rest after hrest hscan
  rw [List.cons_append, scan_space hc]
  exact h rest after hrest hscan

lemma Spell.replicate (n : ℕ) (h : Spell text tokens) :
    Spell (List.replicate n ' ' ++ text) tokens := by
  induction n with
  | zero => exact h
  | succ n ih => exact ih.blank rfl

lemma Spell.newLine (level : ℕ) (h : Spell text tokens) :
    Spell (Json.newLine level ++ text) tokens :=
  (h.replicate (2 * level)).blank rfl

/-- A mark is a token by itself. -/
lemma Spell.mark {c : Char} {token : Token} (hc : isSpace c = false)
    (hnext : ∀ rest, next? (c :: rest) = some (token, rest)) (h : Spell text tokens) :
    Spell (c :: text) (token :: tokens) := by
  intro rest after hrest hscan
  rw [List.cons_append, scan_next (hnext _) (by simpa using hc), h rest after hrest hscan]
  rfl

lemma spell_word {word : List Char} {token : Token} (hspace : ∀ c ∈ word.head?, isSpace c = false)
    (hword : word ≠ []) (hnext : ∀ rest, next? (word ++ rest) = some (token, rest)) :
    Spell word [token] := by
  intro rest after _ hscan
  rw [scan_next (hnext rest), hscan]
  · rfl
  · rwa [List.head?_append_of_ne_nil _ hword]

lemma spell_write (s : String) : Spell (Quoted.write s) [.string (Quoted.ofText s)] := by
  refine spell_word (by simp [Quoted.write, isSpace]) (by simp [Quoted.write]) fun rest => ?_
  simp [Quoted.write, next?, List.append_assoc, Quoted.read_flatMap_writeChar, Quoted.ofText]

lemma spell_number (n : Number) : Spell (n.write doubleNotation) [.number n.numeral] := by
  intro rest after hrest hscan
  have hspells := n.spells_write
  have hspace : ∀ c ∈ (n.write doubleNotation ++ rest).head?, isSpace c = false := by
    obtain ⟨c, text, htext, -⟩ := hspells.exists_first
    rw [htext]
    rintro c' ⟨⟩
    have hc := hspells.isNumberChar c (htext ▸ List.mem_cons_self)
    by_contra hblank
    simp only [isSpace, Bool.not_eq_false, Bool.or_eq_true, decide_eq_true_eq] at hblank
    rcases hblank with ((rfl | rfl) | rfl) | rfl <;> exact absurd hc (by decide)
  rw [scan_next (next?_of_spells hspells hrest) hspace, hscan]
  rfl

lemma spell_scalarText {value : Json} (hscalar : value.isContainer = false) :
    Spell value.scalarText value.source.tokens := by
  cases value with
  | null => exact spell_word (by simp [scalarText, isSpace]) (by simp [scalarText]) fun _ => rfl
  | bool b =>
    cases b
    · exact spell_word (by simp [scalarText, isSpace]) (by simp [scalarText]) fun _ => rfl
    · exact spell_word (by simp [scalarText, isSpace]) (by simp [scalarText]) fun _ => rfl
  | num n => exact spell_number n
  | str s => exact spell_write s
  | arr _ => cases hscalar
  | obj _ => cases hscalar

end Token

open Token

/-! ### On one line -/

lemma opens_compactItems (items : List Json) : Opens (compactItems items) := by
  cases items <;> exact opens_cons (by decide) _

lemma opens_compactMembers (members : List (String × Json)) : Opens (compactMembers members) := by
  cases members <;> exact opens_cons (by decide) _

lemma spell_compactItems {items : List Json}
    (h : ∀ item ∈ items, Spell item.compact item.source.tokens) :
    Spell (compactItems items) (Source.tokensOfItems (sourcesOfItems items)) := by
  induction items with
  | nil => exact spell_nil.mark rfl fun _ => rfl
  | cons item items ih =>
    have hitem := h item (by simp)
    have hitems := ih fun other hother => h other (List.mem_cons_of_mem _ hother)
    exact (hitem.append hitems (opens_compactItems items)).mark rfl fun _ => rfl

/-- A member: its key, a colon, and its value with what follows it. -/
lemma spell_member (key : String) {text : List Char} {tokens : List Token}
    (h : Spell text tokens) :
    Spell (Quoted.write key ++ ':' :: text)
      (.string (Quoted.ofText key) :: .colon :: tokens) :=
  (spell_write key).append (h.mark rfl fun _ => rfl) (opens_cons (by decide) _)

lemma spell_compactMembers {members : List (String × Json)}
    (h : ∀ member ∈ members, Spell member.2.compact member.2.source.tokens) :
    Spell (compactMembers members) (Source.tokensOfMembers (sourcesOfMembers members)) := by
  induction members with
  | nil => exact spell_nil.mark rfl fun _ => rfl
  | cons member members ih =>
    obtain ⟨key, value⟩ := member
    have hvalue := h (key, value) (by simp)
    have hmembers := ih fun other hother => h other (List.mem_cons_of_mem _ hother)
    have hrest := hvalue.append hmembers (opens_compactMembers members)
    exact (spell_member key hrest).mark rfl fun _ => rfl

/-- On one line a document spells its tree. -/
lemma spell_compact (value : Json) : Spell value.compact value.source.tokens := by
  induction value with
  | arr items ih =>
    cases items with
    | nil => exact (spell_nil.mark rfl fun _ => rfl).mark rfl fun _ => rfl
    | cons item items =>
      have hitem := ih item (by simp)
      have hitems := spell_compactItems fun other hother => ih other (List.mem_cons_of_mem _ hother)
      exact (hitem.append hitems (opens_compactItems items)).mark rfl fun _ => rfl
  | obj members ih =>
    rcases members with _ | ⟨⟨key, value⟩, members⟩
    · exact (spell_nil.mark rfl fun _ => rfl).mark rfl fun _ => rfl
    · have hvalue := ih (key, value) (by simp)
      have hmembers :=
        spell_compactMembers fun other hother => ih other (List.mem_cons_of_mem _ hother)
      have hrest := hvalue.append hmembers (opens_compactMembers members)
      exact (spell_member key hrest).mark rfl fun _ => rfl
  | _ => exact spell_scalarText rfl

/-! ### Indented -/

lemma opens_prettyItems (level : ℕ) (items : List Json) : Opens (prettyItems level items) := by
  cases items <;> exact opens_cons (by decide) _

lemma opens_prettyMembers (level : ℕ) (members : List (String × Json)) :
    Opens (prettyMembers level members) := by
  cases members <;> exact opens_cons (by decide) _

lemma spell_prettyItems (level : ℕ) {items : List Json}
    (h : ∀ item ∈ items, Spell (item.pretty (level + 1)) item.source.tokens) :
    Spell (prettyItems level items) (Source.tokensOfItems (sourcesOfItems items)) := by
  induction items with
  | nil => exact (spell_nil.mark rfl fun _ => rfl).newLine level
  | cons item items ih =>
    have hitem := h item (by simp)
    have hitems := ih fun other hother => h other (List.mem_cons_of_mem _ hother)
    have hrest := hitem.append hitems (opens_prettyItems level items)
    exact (hrest.newLine (level + 1)).mark rfl fun _ => rfl

lemma spell_prettyMembers (level : ℕ) {members : List (String × Json)}
    (h : ∀ member ∈ members, Spell (member.2.pretty (level + 1)) member.2.source.tokens) :
    Spell (prettyMembers level members) (Source.tokensOfMembers (sourcesOfMembers members)) := by
  induction members with
  | nil => exact (spell_nil.mark rfl fun _ => rfl).newLine level
  | cons member members ih =>
    obtain ⟨key, value⟩ := member
    have hvalue := h (key, value) (by simp)
    have hmembers := ih fun other hother => h other (List.mem_cons_of_mem _ hother)
    have hrest := hvalue.append hmembers (opens_prettyMembers level members)
    exact ((spell_member key (hrest.blank rfl)).newLine (level + 1)).mark rfl fun _ => rfl

/-- Indented a document spells its tree too. -/
lemma spell_pretty (value : Json) (level : ℕ) :
    Spell (value.pretty level) value.source.tokens := by
  induction value generalizing level with
  | arr items ih =>
    cases items with
    | nil => exact (spell_nil.mark rfl fun _ => rfl).mark rfl fun _ => rfl
    | cons item items =>
      have hitem := ih item (by simp) (level + 1)
      have hitems := spell_prettyItems level fun other hother =>
        ih other (List.mem_cons_of_mem _ hother) (level + 1)
      have hrest := hitem.append hitems (opens_prettyItems level items)
      exact (hrest.newLine (level + 1)).mark rfl fun _ => rfl
  | obj members ih =>
    rcases members with _ | ⟨⟨key, value⟩, members⟩
    · exact (spell_nil.mark rfl fun _ => rfl).mark rfl fun _ => rfl
    · have hvalue := ih (key, value) (by simp) (level + 1)
      have hmembers := spell_prettyMembers level fun other hother =>
        ih other (List.mem_cons_of_mem _ hother) (level + 1)
      have hrest := hvalue.append hmembers (opens_prettyMembers level members)
      exact ((spell_member key (hrest.blank rfl)).newLine (level + 1)).mark rfl fun _ => rfl
  | _ => exact spell_scalarText rfl

/-- A text that spells the tree of a document is read as that tree, with or without a line feed at
its end. -/
lemma read_of_spell {text : List Char} {source : Source} (h : Spell text source.tokens) :
    Source.read text = some source ∧ Source.read (text ++ ['\n']) = some source := by
  have hend : scan ['\n'] = some [] := rfl
  have hbare := h [] [] ends_nil scan_nil
  have hline := h ['\n'] [] (ends_cons (by decide) []) hend
  rw [List.append_nil] at hbare
  simp [Source.read, hbare, hline, Source.ofTokens?_tokens]

/-! ## Line feeds -/

lemma newline_not_mem_compactItems {items : List Json} (h : ∀ item ∈ items, '\n' ∉ item.compact) :
    '\n' ∉ compactItems items := by
  induction items with
  | nil => decide
  | cons item items ih =>
    have hitem := h item (by simp)
    have hitems := ih fun other hother => h other (List.mem_cons_of_mem _ hother)
    simp [compactItems, hitem, hitems]

lemma newline_not_mem_compactMembers {members : List (String × Json)}
    (h : ∀ member ∈ members, '\n' ∉ member.2.compact) : '\n' ∉ compactMembers members := by
  induction members with
  | nil => decide
  | cons member members ih =>
    obtain ⟨key, value⟩ := member
    have hvalue := h (key, value) (by simp)
    have hmembers := ih fun other hother => h other (List.mem_cons_of_mem _ hother)
    simp [compactMembers, Quoted.newline_not_mem_write, hvalue, hmembers]

/-- A document on one line is on one line, whatever its texts and keys hold. -/
lemma newline_not_mem_compact (value : Json) : '\n' ∉ value.compact := by
  induction value with
  | null => decide
  | bool b => cases b <;> decide
  | num n => exact fun h => absurd (n.spells_write.isNumberChar _ h) (by decide)
  | str s => exact Quoted.newline_not_mem_write s
  | arr items ih =>
    cases items with
    | nil => decide
    | cons item items =>
      have hitem := ih item (by simp)
      have hitems := newline_not_mem_compactItems fun other hother =>
        ih other (List.mem_cons_of_mem _ hother)
      simp [compact, hitem, hitems]
  | obj members ih =>
    rcases members with _ | ⟨⟨key, value⟩, members⟩
    · decide
    · have hvalue := ih (key, value) (by simp)
      have hmembers := newline_not_mem_compactMembers fun other hother =>
        ih other (List.mem_cons_of_mem _ hother)
      simp [compact, Quoted.newline_not_mem_write, hvalue, hmembers]

/-! ## Values -/

namespace Source

/-- A printed array is read item by item. -/
lemma value?_source_arr_iff {items : List Json} {d : ℕ} {value : Json} :
    (arr items).source.value? (d + 1) = some value ↔ ∃ values,
      List.Forall₂ (fun item answer => item.source.value? d = some answer) items values ∧
        value = .arr values := by
  rw [source, sourcesOfItems_eq_map, value?_array_eq_some_iff]
  simp only [List.forall₂_map_left_iff]
  constructor
  · rintro ⟨_, values, ⟨⟩, hvalues, rfl⟩
    exact ⟨values, hvalues, rfl⟩
  · rintro ⟨values, hvalues, rfl⟩
    exact ⟨d, values, rfl, hvalues, rfl⟩

/-- A printed object is read member by member, and its keys are read back. -/
lemma value?_source_obj_iff {members : List (String × Json)} {d : ℕ} {value : Json} :
    (obj members).source.value? (d + 1) = some value ↔ ∃ done,
      List.Forall₂ (fun member answer => member.1 = answer.1 ∧
        member.2.source.value? d = some answer.2) members done ∧
          value = .obj (Members.sorted done) := by
  rw [source, sourcesOfMembers_eq_map, value?_object_eq_some_iff]
  simp only [List.forall₂_map_left_iff, memberValue?_eq_some_iff, Quoted.text?_ofText,
    Option.some.injEq]
  constructor
  · rintro ⟨_, done, ⟨⟩, hdone, rfl⟩
    exact ⟨done, hdone, rfl⟩
  · rintro ⟨done, hdone, rfl⟩
    exact ⟨d, done, rfl, hdone, rfl⟩

/-- From its tree, given as many levels as it is deep, a value is read as some value exactly if each
of its numbers is read as some number. -/
lemma exists_value?_source_iff {value : Json} {d : ℕ} (hdepth : value.depth ≤ d) :
    (∃ other, value.source.value? d = some other) ↔ value.IsLegible := by
  induction value generalizing d with
  | null => exact iff_of_true ⟨.null, rfl⟩ .null
  | bool b => exact iff_of_true ⟨.bool b, rfl⟩ (.bool b)
  | num n =>
    simp only [source, value?, Option.map_eq_some_iff, forallNumbers_num_iff]
    constructor
    · rintro ⟨_, m, hm, -⟩
      exact ⟨m, hm⟩
    · rintro ⟨m, hm⟩
      exact ⟨_, m, hm, rfl⟩
  | str s => exact iff_of_true ⟨.str s, by simp [source, value?]⟩ (.str s)
  | arr items ih =>
    obtain ⟨d, rfl, hitems⟩ := exists_depth_of_arr hdepth
    have hread : (∀ item ∈ items, ∃ other, item.source.value? d = some other) ↔
        ∀ item ∈ items, item.IsLegible :=
      forall₂_congr fun item hitem => ih item hitem (hitems item hitem)
    simp only [value?_source_arr_iff]
    rw [IsLegible, forallNumbers_arr_iff, ← hread, ← exists_forall₂_iff]
    constructor
    · rintro ⟨_, values, hvalues, -⟩
      exact ⟨values, hvalues⟩
    · rintro ⟨values, hvalues⟩
      exact ⟨_, values, hvalues, rfl⟩
  | obj members ih =>
    obtain ⟨d, rfl, hmembers⟩ := exists_depth_of_obj hdepth
    have hread : (∀ member ∈ members, ∃ answer : String × Json, member.1 = answer.1 ∧
        member.2.source.value? d = some answer.2) ↔ ∀ member ∈ members, member.2.IsLegible := by
      refine forall₂_congr fun member hmember => ?_
      rw [← ih member hmember (hmembers member hmember)]
      constructor
      · rintro ⟨answer, -, hvalue⟩
        exact ⟨answer.2, hvalue⟩
      · rintro ⟨other, hother⟩
        exact ⟨(member.1, other), rfl, hother⟩
    simp only [value?_source_obj_iff]
    rw [IsLegible, forallNumbers_obj_iff, ← hread, ← exists_forall₂_iff]
    constructor
    · rintro ⟨_, done, hdone, -⟩
      exact ⟨done, hdone⟩
    · rintro ⟨done, hdone⟩
      exact ⟨_, done, hdone, rfl⟩

/-- From its tree, given as many levels as it is deep, a normal value is read as itself exactly if
each of its numbers is. -/
lemma value?_source_iff {value : Json} (hnormal : value.IsNormal) {d : ℕ}
    (hdepth : value.depth ≤ d) : value.source.value? d = some value ↔ value.ReadsBack := by
  induction hnormal generalizing d with
  | null => exact iff_of_true rfl .null
  | bool b => exact iff_of_true rfl (.bool b)
  | num n =>
    rw [source, value?, Option.map_eq_some_iff, ReadsBack, forallNumbers_num_iff]
    constructor
    · rintro ⟨m, hm, heq⟩
      obtain rfl := Json.num.inj heq
      exact hm
    · exact fun h => ⟨n, h, rfl⟩
  | str s => exact iff_of_true (by simp [source, value?]) (.str s)
  | @arr items _ ih =>
    obtain ⟨d, rfl, hitems⟩ := exists_depth_of_arr hdepth
    have hread : List.Forall₂ (fun item answer => item.source.value? d = some answer) items items ↔
        ∀ item ∈ items, item.ReadsBack :=
      List.forall₂_same.trans
        (forall₂_congr fun item hitem => ih item hitem (hitems item hitem))
    rw [value?_source_arr_iff, ReadsBack, forallNumbers_arr_iff, ← hread]
    constructor
    · rintro ⟨values, hvalues, heq⟩
      rwa [← Json.arr.inj heq] at hvalues
    · exact fun hvalues => ⟨items, hvalues, rfl⟩
  | @obj members hkeys _ ih =>
    obtain ⟨d, rfl, hmembers⟩ := exists_depth_of_obj hdepth
    have hread : List.Forall₂ (fun member answer => member.1 = answer.1 ∧
        member.2.source.value? d = some answer.2) members members ↔
          ∀ member ∈ members, member.2.ReadsBack := by
      refine List.forall₂_same.trans (forall₂_congr fun member hmember => ?_)
      rw [ih member hmember (hmembers member hmember)]
      exact and_iff_right rfl
    rw [value?_source_obj_iff, ReadsBack, forallNumbers_obj_iff, ← hread]
    constructor
    · rintro ⟨done, hdone, heq⟩
      -- what has been read has the same keys, so it is sorted
      rw [Members.keys_eq_of_forall₂ (hdone.imp fun _ _ => And.left)] at hkeys
      rw [Members.sorted_eq_self hkeys] at heq
      rwa [← Json.obj.inj heq] at hdone
    · exact fun hdone => ⟨members, hdone, congrArg Json.obj (Members.sorted_eq_self hkeys).symm⟩

/-- Integers are read back. -/
lemma value?_source {value : Json} (hnormal : value.IsNormal) (hwhole : value.IsWhole) {d : ℕ}
    (hdepth : value.depth ≤ d) : value.source.value? d = some value :=
  (value?_source_iff hnormal hdepth).2 (hwhole.mono fun _ => Number.IsWhole.readsBack)

end Source

end Json

end SiblingQuery
