import SiblingQuery.Proofs.YamlReading

/-!
# What a YAML tree says

The readers of YAML trees spend aliases.  What they answer does not depend on how many there are to
spend, and here it is said without them: `Document.target?` is the tree that stands in a place,
`Tree.text?` its text, `Tree.value?` its value, and `Tree.entries?` and `Tree.items?` what it holds.

`Reading.Yields` takes a reading to its meaning: every answer of the reading is the one that the
meaning gives.  How deep a value may be decides whether there is one, but not which
(`Tree.value?_mono`).
-/

namespace SiblingQuery

namespace Yaml

open Reading

/-! ## Places -/

/-- What stands in a place: the tree itself, or what it stands for if it is an alias. -/
def Document.target? (document : Document) : Tree ℕ → Option (Tree ℕ)
  | .alias number => document.anchored? number
  | tree => some tree

namespace Tree

variable {document : Document}

lemma yields_target (tree : Tree ℕ) :
    Yields (target document tree) fun found => document.target? tree = some found := by
  match tree with
  | .alias number =>
    intro left rest found hread
    cases left with
    | zero => cases hread
    | succ left =>
      obtain ⟨other, hother, heq⟩ := Option.map_eq_some_iff.1 hread
      obtain ⟨rfl, -⟩ := Prod.mk.inj heq
      exact hother
  | .scalar .. => exact yields_pure rfl
  | .sequence .. => exact yields_pure rfl
  | .mapping .. => exact yields_pure rfl

/-- The text of a scalar. -/
def text? (document : Document) (tree : Tree ℕ) : Option String :=
  match document.target? tree with
  | some (.scalar _ _ _ text) => some text
  | _ => none

lemma yields_text (tree : Tree ℕ) :
    Yields (text document tree) fun found => text? document tree = some found := by
  refine (yields_target tree).bind fun target htarget => ?_
  split
  · exact yields_pure (by rw [text?, htarget])
  · exact yields_refuse

/-- The entries of a mapping, or of a place with nothing in it. -/
def entries? : Tree ℕ → Option (List (Tree ℕ × Tree ℕ))
  | .mapping _ _ entries => some entries
  | tree => if tree.isVoid then some [] else none

lemma yields_entries (tree : Tree ℕ) :
    Yields (entries tree) fun found => entries? tree = some found := by
  match tree with
  | .mapping .. => exact yields_pure rfl
  | .scalar anchor tag style text =>
    simp only [entries, entries?]
    split_ifs
    · exact yields_pure rfl
    · exact yields_refuse
  | .sequence .. => exact yields_refuse
  | .alias _ => exact yields_refuse

lemma entries?_of_isVoid {tree : Tree ℕ} (h : tree.isVoid = true) : entries? tree = some [] := by
  match tree with
  | .scalar .. => simp only [entries?, h, if_true]
  | .sequence .. => cases h
  | .mapping .. => cases h
  | .alias _ => cases h

/-- The items of a sequence, or of a place with nothing in it. -/
def items? : Tree ℕ → Option (List (Tree ℕ))
  | .sequence _ _ items => some items
  | tree => if tree.isVoid then some [] else none

lemma yields_items (tree : Tree ℕ) :
    Yields (items tree) fun found => items? tree = some found := by
  match tree with
  | .sequence .. => exact yields_pure rfl
  | .scalar anchor tag style text =>
    simp only [items, items?]
    split_ifs
    · exact yields_pure rfl
    · exact yields_refuse
  | .mapping .. => exact yields_refuse
  | .alias _ => exact yields_refuse

/-- What stands in a place that may be left empty is read where it stands. -/
lemma yields_optional_target {α : Type} {P : Tree ℕ → α → Prop} {read : Tree ℕ → Reading α}
    (h : ∀ tree, Yields (read tree) (P tree)) (tree : Tree ℕ) :
    Yields (Tree.optional document read tree) fun answer =>
      ∀ a ∈ answer, ∃ target, document.target? tree = some target ∧ P target a := by
  refine (yields_target tree).bind fun target htarget => yields_bind fun present => ?_
  split_ifs
  · refine (h target).bind fun a ha => yields_pure fun other hother => ?_
    obtain rfl := Option.some.inj hother
    exact ⟨target, htarget, ha⟩
  · exact yields_pure nofun

/-! ## Values -/

/-- The member that an entry of a mapping is: its key has to be a text. -/
def memberOf? (value? : Tree ℕ → Option Json) (entry : Tree ℕ × Tree ℕ) :
    Option (String × Json) :=
  match value? entry.1 with
  | some (.str key) => (value? entry.2).map fun value => (key, value)
  | _ => none

lemma memberOf?_eq_some_iff {value? : Tree ℕ → Option Json} {entry : Tree ℕ × Tree ℕ}
    {member : String × Json} : memberOf? value? entry = some member ↔
      value? entry.1 = some (.str member.1) ∧ value? entry.2 = some member.2 := by
  obtain ⟨key, content⟩ := member
  rw [memberOf?]
  split
  · next name hname =>
    simp only [hname, Option.map_eq_some_iff, Prod.mk.injEq, Option.some.injEq, Json.str.injEq]
    constructor
    · rintro ⟨value, hvalue, rfl, rfl⟩
      exact ⟨rfl, hvalue⟩
    · rintro ⟨rfl, hvalue⟩
      exact ⟨content, hvalue, rfl, rfl⟩
  · next hname =>
    constructor
    · nofun
    · rintro ⟨hkey, -⟩
      exact absurd hkey (hname key)

/-- The value of a tree, at most `depth` collections deep. -/
def value? (document : Document) : ℕ → Tree ℕ → Option Json
  | depth, tree =>
    match document.target? tree with
    | some (.scalar _ tag style text) => Scalar.resolve? tag style text
    | some (.sequence _ tag items) =>
      match depth with
      | 0 => none
      | depth + 1 =>
        if tag.any Tag.isPrivate then none
        else (items.mapM (value? document depth)).map .arr
    | some (.mapping _ tag entries) =>
      match depth with
      | 0 => none
      | depth + 1 =>
        if tag.any Tag.isPrivate then none
        else
          (entries.mapM (memberOf? (value? document depth))).map fun members =>
            .obj (Members.sorted members)
    | _ => none

/-- What a tree is read as is its value. -/
lemma yields_value? (depth : ℕ) (tree : Tree ℕ) :
    Yields (value document depth tree) fun found => value? document depth tree = some found := by
  -- Below an alias stands no smaller tree, so the induction is on the depth that is left.
  induction depth using Nat.strongRecOn generalizing tree with
  | ind depth ih =>
    rw [value]
    refine (yields_target tree).bind fun target htarget => ?_
    unfold value?
    rw [htarget]
    rcases target with number | ⟨anchor, tag, style, text⟩ | ⟨anchor, tag, items⟩ |
      ⟨anchor, tag, entries⟩
    · exact yields_refuse
    · exact yields_ofOption fun value hvalue => hvalue
    · cases depth with
      | zero => exact yields_refuse
      | succ depth =>
        simp only
        split_ifs
        · exact yields_refuse
        · refine (yields_mapM_forall₂ fun item _ => ih depth (Nat.lt_succ_self _) item).bind
            fun values h => yields_pure ?_
          rw [mapM_eq_some_iff.2 h]
          rfl
    · cases depth with
      | zero => exact yields_refuse
      | succ depth =>
        simp only
        split_ifs
        · exact yields_refuse
        · refine (yields_mapM_forall₂ (R := fun entry member =>
            memberOf? (value? document depth) entry = some member) fun entry _ => ?_).bind
              fun members h => ?_
          · refine (ih depth (Nat.lt_succ_self _) entry.1).bind fun key hkey => ?_
            split
            · refine (ih depth (Nat.lt_succ_self _) entry.2).bind fun value hvalue => yields_pure ?_
              exact memberOf?_eq_some_iff.2 ⟨hkey, hvalue⟩
            · exact yields_refuse
          · refine yields_pure ?_
            rw [mapM_eq_some_iff.2 h]
            rfl

/-- A value that is not too deep stays the same when it may be deeper. -/
lemma value?_mono {d e : ℕ} {tree : Tree ℕ} {found : Json}
    (h : value? document d tree = some found) (hle : d ≤ e) :
    value? document e tree = some found := by
  -- An alias leads to a tree that is no smaller, so the induction is on the depth.
  induction d using Nat.strongRecOn generalizing e tree found with
  | ind d ih =>
    unfold value? at h ⊢
    cases htarget : document.target? tree with
    | none => simp [htarget] at h
    | some target =>
      rw [htarget] at h
      match target, d, e with
      | .alias _, _, _ => cases h
      | .scalar .., _, _ => exact h
      | .sequence .., 0, _ => cases h
      | .mapping .., 0, _ => cases h
      | .sequence _ tag items, d + 1, e + 1 =>
        simp only at h ⊢
        split_ifs at h ⊢
        obtain ⟨values, hvalues, rfl⟩ := Option.map_eq_some_iff.1 h
        have hsame : items.mapM (value? document e) = some values := by
          rw [mapM_eq_some_iff] at hvalues ⊢
          exact hvalues.imp fun item value hvalue => ih d (Nat.lt_succ_self d) hvalue (by omega)
        rw [hsame]
        rfl
      | .mapping _ tag entries, d + 1, e + 1 =>
        simp only at h ⊢
        split_ifs at h ⊢
        obtain ⟨members, hmembers, rfl⟩ := Option.map_eq_some_iff.1 h
        have hsame : entries.mapM (memberOf? (value? document e)) = some members := by
          rw [mapM_eq_some_iff] at hmembers ⊢
          refine hmembers.imp fun entry member hmember => ?_
          rw [memberOf?_eq_some_iff] at hmember ⊢
          exact ⟨ih d (Nat.lt_succ_self d) hmember.1 (by omega),
            ih d (Nat.lt_succ_self d) hmember.2 (by omega)⟩
        rw [hsame]
        rfl

end Tree

end Yaml

end SiblingQuery
