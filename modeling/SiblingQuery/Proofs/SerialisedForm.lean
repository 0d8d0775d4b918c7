import SiblingQuery.Proofs.RoundTrip

/-!
# What stands under a key of the serialised form

A node, a span and a point serialise to objects.  Each of these objects holds a few members of a
fixed key, and the objects of nodes and spans also hold the keys that are kept for their producer.
In a node the two never meet, because the fixed keys are reserved: so every key of its object stands
once (`WellFormedWith.nodup_keys_members`), and what stands under it can be said key by key
(`WellFormedWith.get?_members`).  In a span they meet where an extra key is one of the ends' and
nowhere else (`Span.IsNormal.nodup_keys_members_iff`).
-/

namespace SiblingQuery

open Json

/-! ## Association lists -/

namespace Members

variable {α : Type} {key : String} {members : List (String × α)}

lemma get?_append (key : String) (a b : List (String × α)) :
    get? key (a ++ b) = (get? key a).or (get? key b) := by
  induction a with
  | nil => rfl
  | cons member a ih =>
    obtain ⟨k, value⟩ := member
    rw [List.cons_append, get?_cons, get?_cons, ih]
    split_ifs <;> rfl

lemma get?_eq_none_iff : get? key members = none ↔ key ∉ keys members := by
  induction members with
  | nil => simp [get?]
  | cons member members ih =>
    obtain ⟨k, value⟩ := member
    rw [get?_cons, keys_cons, List.mem_cons, not_or, ← ih]
    split_ifs with hk <;> simp [hk]

lemma mem_of_get?_eq_some {value : α} (h : get? key members = some value) :
    (key, value) ∈ members := by
  induction members with
  | nil => cases h
  | cons member members ih =>
    obtain ⟨k, v⟩ := member
    rw [get?_cons] at h
    split_ifs at h with hk
    · obtain rfl := Option.some.inj h
      rw [hk]
      exact List.mem_cons_self
    · exact List.mem_cons_of_mem _ (ih h)

/-- A key that is put into a sorted list holds its new value, and all others are as before. -/
lemma get?_insert (key other : String) (value : α) (members : List (String × α)) :
    get? other (insert key value members) =
      if other = key then some value else get? other members := by
  induction members with
  | nil => rw [insert, get?_cons]
  | cons member members ih =>
    obtain ⟨k, v⟩ := member
    rw [insert]
    by_cases hk : k = key
    · subst hk
      rw [if_pos rfl, get?_cons, get?_cons]
      split_ifs <;> rfl
    · rw [if_neg hk]
      by_cases hlt : key < k
      · rw [if_pos hlt, get?_cons]
      · rw [if_neg hlt, get?_cons, get?_cons, ih]
        by_cases hother : other = k
        · have hne : other ≠ key := hother ▸ hk
          rw [if_pos hother, if_neg hne, if_pos hother]
        · rw [if_neg hother, if_neg hother]

/-- Each key of a sorted list holds the value that it was given last. -/
lemma get?_sorted (key : String) (members : List (String × α)) :
    get? key (sorted members) = get? key members.reverse := by
  induction members using List.reverseRecOn with
  | nil => rfl
  | append_singleton members member ih =>
    obtain ⟨k, value⟩ := member
    rw [sorted_append_singleton, get?_insert, List.reverse_append, ih]
    exact (get?_cons key members.reverse).symm

/-- Nothing but the key decides what stands under a key. -/
lemma get?_filter (wanted : String → Bool) (hkey : wanted key = true) :
    get? key (members.filter fun member => wanted member.1) = get? key members := by
  induction members with
  | nil => rfl
  | cons member members ih =>
    obtain ⟨k, value⟩ := member
    by_cases hk : key = k
    · subst hk
      rw [List.filter_cons, if_pos hkey, get?_cons, get?_cons, if_pos rfl, if_pos rfl]
    · rw [List.filter_cons, get?_cons, if_neg hk]
      split_ifs
      · rw [get?_cons, if_neg hk, ih]
      · exact ih

@[simp]
lemma keys_optional (key : String) (value : Option Json) :
    keys (optional key value) = if value.isSome then [key] else [] := by
  cases value <;> rfl

lemma get?_optional (key other : String) (value : Option Json) :
    get? other (optional key value) = if other = key then value else none := by
  cases value with
  | none => simp [optional, get?]
  | some value => rw [optional, get?_cons, get?]

end Members

/-! ## Points and spans -/

namespace Point

/-- The members of a printed point. -/
def members (point : Point) : List (String × Json) :=
  ("line", .ofNat point.line) :: ("column", .ofNat point.column) ::
    Members.optional "offset" (point.offset.map .ofNat)

lemma toJson_eq (point : Point) : point.toJson = .obj point.members := rfl

lemma get?_line (point : Point) : Members.get? "line" point.members = some (.ofNat point.line) :=
  rfl

lemma get?_column (point : Point) :
    Members.get? "column" point.members = some (.ofNat point.column) := rfl

lemma get?_offset (point : Point) :
    Members.get? "offset" point.members = point.offset.map .ofNat := by
  rw [members, Members.get?_cons, Members.get?_cons, Members.get?_optional]
  rfl

end Point

namespace Span

variable {span : Span}

/-- The members of a printed span. -/
def members (span : Span) : List (String × Json) :=
  ("start", span.start.toJson) :: ("end", span.stop.toJson) :: span.extra

lemma toJson_eq (span : Span) : span.toJson = .obj span.members := rfl

lemma get?_start (span : Span) : Members.get? "start" span.members = some span.start.toJson := rfl

lemma get?_stop (span : Span) : Members.get? "end" span.members = some span.stop.toJson := rfl

/-- Under a key that is not reserved stands what was kept. -/
lemma get?_extra {key : String} (hkey : isReserved key = false) :
    Members.get? key span.members = Members.get? key span.extra := by
  obtain ⟨hstart, hstop⟩ := isReserved_eq_false_iff.1 hkey
  rw [members, Members.get?_cons, Members.get?_cons, if_neg hstart, if_neg hstop]

lemma hasFreeKeys_iff :
    span.HasFreeKeys ↔ ∀ key, isReserved key = true → key ∉ Members.keys span.extra := by
  constructor
  · intro h key hkey hmem
    obtain ⟨member, hmember, rfl⟩ := List.mem_map.1 hmem
    rw [h member hmember] at hkey
    cases hkey
  · intro h member hmember
    rw [← Bool.not_eq_true]
    exact fun hkey => h member.1 hkey (List.mem_map_of_mem hmember)

/-- The keys of a printed span are distinct as long as no extra key is one of its ends'. -/
lemma IsNormal.nodup_keys_members_iff (h : span.IsNormal) :
    (Members.keys span.members).Nodup ↔ span.HasFreeKeys := by
  rw [members, Members.keys_cons, Members.keys_cons, List.nodup_cons, List.nodup_cons,
    List.mem_cons, not_or, hasFreeKeys_iff]
  constructor
  · rintro ⟨⟨-, hstart⟩, hstop, -⟩ key hkey
    rcases isReserved_eq_true_iff.1 hkey with rfl | rfl
    · exact hstart
    · exact hstop
  · intro hfree
    exact ⟨⟨by simp, hfree _ rfl⟩, hfree _ rfl, h.nodup⟩

end Span

/-! ## Nodes -/

namespace Node

variable {P : Span → Prop} {node : Node}

/-- The type comes first, then the fields in their order, then the children and the position where
there are any. -/
lemma keys_members (node : Node) : Members.keys node.members =
    "type" :: (Members.keys node.fields ++
      ((if node.children.isSome then ["children"] else []) ++
        if node.position.isSome then ["position"] else [])) := by
  simp [members]

lemma WellFormedWith.nodup_keys (h : node.WellFormedWith P) : (Members.keys node.fields).Nodup := by
  cases h
  assumption

lemma WellFormedWith.isNormal_fields (h : node.WellFormedWith P) :
    ∀ member ∈ node.fields, member.2.IsNormal := by
  obtain ⟨-, -, hnormal, -, -⟩ := h
  exact hnormal

/-- No reserved key is a field. -/
lemma WellFormedWith.not_mem_keys (h : node.WellFormedWith P) {key : String}
    (hkey : isReserved key = true) :
    key ∉ Members.keys node.fields := by
  cases h with
  | mk _ hfree _ _ _ =>
    intro hmem
    obtain ⟨member, hmember, rfl⟩ := List.mem_map.1 hmem
    rw [hfree member hmember] at hkey
    cases hkey

/-- The keys of a printed node are distinct if those of its fields are, and none of these is
reserved. -/
lemma nodup_keys_members (hnodup : (Members.keys node.fields).Nodup)
    (hfree : ∀ key, isReserved key = true → key ∉ Members.keys node.fields) :
    (Members.keys node.members).Nodup := by
  rw [keys_members]
  set last := (if node.children.isSome then ["children"] else []) ++
    if node.position.isSome then ["position"] else [] with hlast
  have hreserved : ∀ key ∈ last, isReserved key = true ∧ key ≠ "type" := by
    intro key hkey
    rw [hlast] at hkey
    split_ifs at hkey <;> simp at hkey <;> rcases hkey with rfl | rfl <;> decide
  rw [List.nodup_cons, List.nodup_append]
  refine ⟨?_, hnodup, ?_, ?_⟩
  · rw [List.mem_append, not_or]
    exact ⟨hfree _ rfl, fun htype => (hreserved _ htype).2 rfl⟩
  · rw [hlast]
    split_ifs <;> simp
  · rintro field hfield _ hkey rfl
    exact hfree _ (hreserved _ hkey).1 hfield

lemma WellFormedWith.nodup_keys_members (h : node.WellFormedWith P) :
    (Members.keys node.members).Nodup :=
  Node.nodup_keys_members h.nodup_keys fun _ => h.not_mem_keys

/-- What stands under a key of a printed node whose fields have no reserved key. -/
lemma get?_members (hfree : ∀ key, isReserved key = true → key ∉ Members.keys node.fields)
    (key : String) :
    Members.get? key node.members =
      if key = "type" then some (.str node.kind)
      else if key = "children" then node.children.map fun nodes => .arr (listToJson nodes)
      else if key = "position" then node.position.map Span.toJson
      else node.get? key := by
  have hnone {key : String} (hkey : isReserved key = true) :
      Members.get? key node.fields = none :=
    Members.get?_eq_none_iff.2 (hfree key hkey)
  rw [members, Members.get?_cons, Members.get?_append, Members.get?_append, Members.get?_optional,
    Members.get?_optional]
  by_cases hchildren : key = "children"
  · rw [hchildren, hnone rfl]
    simp
  · by_cases hposition : key = "position"
    · rw [hposition, hnone rfl]
      simp
    · simp [hchildren, hposition, get?]

lemma WellFormedWith.get?_members (h : node.WellFormedWith P) (key : String) :
    Members.get? key node.members =
      if key = "type" then some (.str node.kind)
      else if key = "children" then node.children.map fun nodes => .arr (listToJson nodes)
      else if key = "position" then node.position.map Span.toJson
      else node.get? key :=
  Node.get?_members (fun _ => h.not_mem_keys) key

/-- Under a key that is not reserved stands the field. -/
lemma WellFormedWith.get?_field (h : node.WellFormedWith P) {key : String}
    (hkey : isReserved key = false) :
    Members.get? key node.members = node.get? key := by
  obtain ⟨htype, hchildren, hposition⟩ := isReserved_eq_false_iff.1 hkey
  rw [h.get?_members, if_neg htype, if_neg hchildren, if_neg hposition]

end Node

end SiblingQuery
