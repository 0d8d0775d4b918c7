import SiblingQuery.Proofs.Tests
import SiblingQuery.Proofs.ValueEquality

/-!
# Attributes are part of the serialised form

A node can be asked for what stands under a key in two ways: member by member, with `Node.field?`,
or by writing the node out as an object and looking into that.  `Node.field?` makes up the three
reserved members and finds the others among the fields, while the object holds all of them side by
side.  They agree because no field has a reserved key, and because the value of a field is already
normal (`HasObtainableFields.field?_eq`).

So a test by attributes asks whether its members are members of the serialised form.
-/

namespace SiblingQuery

open Json

namespace Node

variable {node : Node}

/-- The fields of a node are those of a node that can be loaded or built.  Its children and its
position may be any at all. -/
def HasObtainableFields (node : Node) : Prop :=
  ∃ base : Node, base.Obtainable ∧ base.fields = node.fields

lemma Obtainable.hasObtainableFields (h : node.Obtainable) : node.HasObtainableFields :=
  ⟨node, h, rfl⟩

/-- The members of the object that a node serialises to, as a value: sorted by key. -/
def serialised (node : Node) : List (String × Json) :=
  Members.sorted (normalizeMembers node.members)

lemma normalize_toJson (node : Node) : node.toJson.normalize = .obj node.serialised := by
  rw [toJson_eq]
  rfl

lemma pairwise_keys_serialised (node : Node) :
    (Members.keys node.serialised).Pairwise (· < ·) :=
  Members.pairwise_keys_sorted _

lemma nodup_keys_serialised (node : Node) : (Members.keys node.serialised).Nodup :=
  node.pairwise_keys_serialised.imp fun hlt => hlt.ne

namespace HasObtainableFields

lemma not_mem_keys (h : node.HasObtainableFields) {key : String} (hkey : isReserved key = true) :
    key ∉ Members.keys node.fields := by
  obtain ⟨base, hbase, hfields⟩ := h
  rw [← hfields]
  exact hbase.wellFormedWith.not_mem_keys hkey

lemma isNormal (h : node.HasObtainableFields) : ∀ member ∈ node.fields, member.2.IsNormal := by
  obtain ⟨base, hbase, hfields⟩ := h
  rw [← hfields]
  exact hbase.wellFormedWith.isNormal_fields

lemma nodup_keys_fields (h : node.HasObtainableFields) : (Members.keys node.fields).Nodup := by
  obtain ⟨base, hbase, hfields⟩ := h
  rw [← hfields]
  exact hbase.wellFormedWith.nodup_keys

/-- Under a key of the serialised form stands the member of the printed node, normalised. -/
lemma get?_serialised (h : node.HasObtainableFields) (key : String) :
    Members.get? key node.serialised = (Members.get? key node.members).map normalize := by
  rw [serialised, Members.get?_sorted_of_nodup, get?_normalizeMembers]
  rw [keys_normalizeMembers]
  exact Node.nodup_keys_members h.nodup_keys_fields fun _ => h.not_mem_keys

/-- What a node answers for a key is the member of its serialised form. -/
lemma field?_eq (h : node.HasObtainableFields) (key : String) :
    node.field? key = Members.get? key node.serialised := by
  rw [h.get?_serialised, get?_members fun _ => h.not_mem_keys, field?]
  split_ifs
  · rfl
  · rw [Option.map_map]
    rfl
  · rw [Option.map_map]
    rfl
  · cases hvalue : node.get? key with
    | none => rfl
    | some value =>
      have hnormal := h.isNormal (key, value) (Members.mem_of_get?_eq_some hvalue)
      rw [Option.map_some, hnormal.normalize_eq]

end HasObtainableFields

/-! ## Tests by attributes -/

lemma hasAttributes_iff {attributes : List (String × Json)} :
    node.hasAttributes attributes = true ↔
      ∀ member ∈ attributes, ∃ actual, node.field? member.1 = some actual ∧
        actual.same member.2 = true := by
  rw [hasAttributes, List.all_eq_true]
  refine forall₂_congr fun member _ => ?_
  obtain ⟨key, expected⟩ := member
  cases hactual : node.field? key <;> simp [hactual]

/-- Every listed attribute is a member of the serialised form, with an equal value. -/
lemma HasObtainableFields.hasAttributes_iff_forall_mem (h : node.HasObtainableFields)
    {attributes : List (String × Json)} :
    node.hasAttributes attributes = true ↔
      ∀ member ∈ attributes, ∃ value, (member.1, value) ∈ node.serialised ∧
        value.same member.2 = true := by
  simp only [hasAttributes_iff, h.field?_eq, Members.get?_eq_some_iff node.nodup_keys_serialised]

/-- A node has all its own members as attributes. -/
lemma HasObtainableFields.hasAttributes_serialised (h : node.HasObtainableFields) :
    node.hasAttributes node.serialised = true := by
  rw [h.hasAttributes_iff_forall_mem]
  exact fun member hmember => ⟨member.2, hmember, same_self member.2⟩

/-- A test by attributes is inclusion in the serialised form.  What a node answers for a key, be it
reserved or not, is the member of the object that the node serialises to, and nothing where that has
no such member.  So attributes keep the node exactly if each of them is a member of this object with
an equal value; neither their order nor the index nor the parent matters, and the node's own members
keep it. -/
theorem passes_attributes_iff (h : node.HasObtainableFields) :
    node.toJson.normalize = .obj node.serialised ∧
    (Members.keys node.serialised).Pairwise (· < ·) ∧
    (∀ key, node.field? key = Members.get? key node.serialised ∧
      (node.field? key = none ↔ key ∉ Members.keys node.serialised)) ∧
    (∀ (place : Place) (index : ℕ) (parent : Occurrence) (attributes : List (String × Json)),
      ((Test.attributes attributes).passes ⟨place, node⟩ index parent = true ↔
        ∀ member ∈ attributes, ∃ value, (member.1, value) ∈ node.serialised ∧
          value.same member.2 = true) ∧
      (∀ others index' parent', attributes.Perm others →
        (Test.attributes attributes).passes ⟨place, node⟩ index parent =
          (Test.attributes others).passes ⟨place, node⟩ index' parent') ∧
      (Test.attributes node.serialised).passes ⟨place, node⟩ index parent = true) := by
  refine ⟨node.normalize_toJson, node.pairwise_keys_serialised, fun key => ?_,
    fun place index parent attributes => ?_⟩
  · rw [h.field?_eq, Members.get?_eq_none_iff]
    exact ⟨rfl, Iff.rfl⟩
  · simp only [Test.passes]
    refine ⟨h.hasAttributes_iff_forall_mem, fun others _ _ hperm => ?_,
      h.hasAttributes_serialised⟩
    rw [Bool.eq_iff_iff, hasAttributes_iff, hasAttributes_iff]
    exact ⟨fun hall member hmember => hall member (hperm.mem_iff.2 hmember),
      fun hall member hmember => hall member (hperm.mem_iff.1 hmember)⟩

/-- A list with one item and a position with an extra key has its position, its type and its
children as attributes; it has no `value`, not even null. -/
theorem passes_attributes_iff_list :
    let span : Span := ⟨⟨1, 1, none⟩, ⟨2, 3, none⟩, [("indent", .arr [.num (.int 1)])]⟩
    let node := ((parent "list" [leaf "item"]).withField "ordered" (.bool true)).withPosition span
    node.HasObtainableFields ∧
      ∀ place index parent,
        (Test.attributes [("position", span.toJson.normalize), ("type", .str "list"),
          ("children", .arr [.obj [("type", .str "item")]])]).passes ⟨place, node⟩ index parent =
            true ∧
        (Test.attributes [("value", .null)]).passes ⟨place, node⟩ index parent = false := by
  intro span node
  have hnode : node.HasObtainableFields :=
    ⟨_, .withField (.parent "list" (List.forall_mem_singleton.2 (.leaf "item"))) "ordered"
      (.bool true), rfl⟩
  obtain ⟨-, -, hfield, hpasses⟩ := passes_attributes_iff hnode
  refine ⟨hnode, fun place index parent => ⟨?_, ?_⟩⟩
  · rw [(hpasses place index parent _).1]
    have hmember {key : String} {value : Json} (hvalue : node.field? key = some value) :
        (key, value) ∈ node.serialised := by
      rw [(hfield key).1] at hvalue
      exact Members.mem_of_get?_eq_some hvalue
    simp only [List.forall_mem_cons]
    exact ⟨⟨_, hmember rfl, same_self _⟩, ⟨_, hmember rfl, same_self _⟩,
      ⟨_, hmember rfl, same_self _⟩, nofun⟩
  · rw [Bool.eq_false_iff, ne_eq, (hpasses place index parent _).1]
    intro hall
    obtain ⟨value, hvalue, -⟩ := hall _ List.mem_cons_self
    exact (hfield "value").2.1 rfl (Members.key_mem_keys hvalue)

end Node

end SiblingQuery
