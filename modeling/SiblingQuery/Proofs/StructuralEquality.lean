import SiblingQuery.Proofs.DocumentEquality
import SiblingQuery.Proofs.FieldHistory
import SiblingQuery.Tree.Place

/-!
# Structural equality is equality of the serialised form

Nodes are compared record by record: the types, the fields without regard to their order, the
children one by one, the positions.  Their serialised forms are compared as documents, in which all
of this stands side by side in one object.  The two comparisons have the same result because every
part of a node can be found in its object under a key of its own: a reserved key is never a field,
and what is missing is left out (`Node.agrees_toJson_iff`).  An extra key of a span hides one of its
ends if both are printed under one key, so here it is asked for that no span has such a key; without
that, nodes that are the same still serialise to the same (`Node.same_normalize_of_same`).

`Node.Compares` is one step of a comparison, with the comparison of lists of members and of lists of
children left open.  Both comparisons of whole nodes are this step with themselves for the children
(`Node.same_iff`, `Node.agrees_toJson_iff`), so they are the same by induction.  With nothing but a
count for the children it is a comparison of what stands in one place, and nodes are the same if and
only if they pass it in every place (`Node.same_iff_forall_path`).
-/

namespace SiblingQuery

open Json

/-! ## Points -/

namespace Point

variable {p q : Point}

lemma hasDistinctKeys_toJson (p : Point) : p.toJson.HasDistinctKeys := by
  refine .obj ?_ (List.forall_mem_cons.2 ⟨.scalar rfl, List.forall_mem_cons.2 ⟨.scalar rfl,
    Members.forall_mem_optional.2 fun value hvalue => ?_⟩⟩)
  · cases p.offset <;> simp [Members.optional]
  · obtain ⟨offset, -, rfl⟩ := Option.map_eq_some_iff.1 hvalue
    exact .scalar rfl

/-- Points whose objects agree are equal; an unknown offset is not the same as any known one. -/
lemma agrees_toJson_iff : p.toJson.Agrees q.toJson ↔ p = q := by
  refine ⟨fun h => ?_, fun h => h ▸ agrees_self _⟩
  rw [toJson_eq, toJson_eq, agrees_obj_iff] at h
  have hline := h "line"
  have hcolumn := h "column"
  have hoffset := h "offset"
  rw [get?_line, get?_line, Option.rel_some_some, agrees_ofNat_iff] at hline
  rw [get?_column, get?_column, Option.rel_some_some, agrees_ofNat_iff] at hcolumn
  rw [get?_offset, get?_offset, rel_map_iff] at hoffset
  obtain ⟨line, column, offset⟩ := p
  obtain ⟨line', column', offset'⟩ := q
  obtain rfl : line = line' := hline
  obtain rfl : column = column' := hcolumn
  cases hoffset with
  | none => rfl
  | some heq => rw [agrees_ofNat_iff.1 heq]

end Point

/-! ## Spans -/

namespace Span

/-- Two spans have the same ends, and extra members that compare. -/
structure Compares (members : List (String × Json) → List (String × Json) → Prop)
    (a b : Span) : Prop where
  start : a.start = b.start
  stop : a.stop = b.stop
  extra : members a.extra b.extra

variable {a b : Span}

lemma WellFormed.hasDistinctKeys_toJson (h : a.WellFormed) : a.toJson.HasDistinctKeys := by
  refine .obj (h.nodup_keys_members_iff.2 h.free) ?_
  exact List.forall_mem_cons.2 ⟨a.start.hasDistinctKeys_toJson,
    List.forall_mem_cons.2 ⟨a.stop.hasDistinctKeys_toJson,
      fun member hmember => (h.normal member hmember).hasDistinctKeys⟩⟩

lemma WellFormed.get?_of_isReserved (h : a.WellFormed) {key : String}
    (hkey : isReserved key = true) : Members.get? key a.extra = none :=
  Members.get?_eq_none_iff.2 (hasFreeKeys_iff.1 h.free key hkey)

/-- The objects of two spans agree if the ends are the same and the extra members agree. -/
lemma agrees_toJson_iff (ha : a.WellFormed) (hb : b.WellFormed) :
    a.toJson.Agrees b.toJson ↔ a.Compares (Members.Agree Agrees) b := by
  rw [toJson_eq, toJson_eq, agrees_obj_iff]
  constructor
  · intro h
    refine ⟨?_, ?_, fun key => ?_⟩
    · have hstart := h "start"
      rwa [get?_start, get?_start, Option.rel_some_some, Point.agrees_toJson_iff] at hstart
    · have hstop := h "end"
      rwa [get?_stop, get?_stop, Option.rel_some_some, Point.agrees_toJson_iff] at hstop
    · cases hkey : isReserved key with
      | false =>
        rw [← get?_extra hkey, ← get?_extra hkey]
        exact h key
      | true =>
        rw [ha.get?_of_isReserved hkey, hb.get?_of_isReserved hkey]
        exact .none
  · intro h key
    cases hkey : isReserved key with
    | false =>
      rw [get?_extra hkey, get?_extra hkey]
      exact h.extra key
    | true =>
      rcases isReserved_eq_true_iff.1 hkey with rfl | rfl
      · rw [get?_start, get?_start, h.start]
        exact .some (agrees_self _)
      · rw [get?_stop, get?_stop, h.stop]
        exact .some (agrees_self _)

/-- Spans with the same ends and equal extra members serialise to equal values, also where an extra
member hides one of the ends. -/
lemma Compares.same_normalize (h : a.Compares (Members.Agree Agrees) b) (ha : a.IsNormal)
    (hb : b.IsNormal) : a.toJson.normalize.same b.toJson.normalize = true := by
  rw [toJson_eq, toJson_eq, same_normalize_obj_iff]
  intro key
  -- what stands last under a key is an extra member, if there is one
  have hlast (span : Span) (hnodup : (Members.keys span.extra).Nodup) :
      Members.get? key span.members.reverse = (Members.get? key span.extra).or
        (Members.get? key [("end", span.stop.toJson), ("start", span.start.toJson)]) := by
    have hreverse : span.members.reverse =
        span.extra.reverse ++ [("end", span.stop.toJson), ("start", span.start.toJson)] := by
      simp [members]
    rw [hreverse, Members.get?_append, Members.get?_reverse hnodup]
  have hends : Option.Rel (fun value other : Json => value.normalize.same other.normalize = true)
      (Members.get? key [("end", a.stop.toJson), ("start", a.start.toJson)])
      (Members.get? key [("end", b.stop.toJson), ("start", b.start.toJson)]) := by
    rw [h.start, h.stop]
    exact rel_self fun _ _ => same_self _
  rw [hlast a ha.nodup, hlast b hb.nodup]
  refine rel_or (rel_imp_of_mem (h.extra key) fun value hvalue other hother hagrees => ?_) hends
  have hnormal := ha.normal _ (Members.mem_of_get?_eq_some hvalue)
  have hnormal' := hb.normal _ (Members.mem_of_get?_eq_some hother)
  rw [hnormal.normalize_eq, hnormal'.normalize_eq]
  exact (hnormal.same_iff_agrees hnormal').2 hagrees

lemma same_iff : a.same b = true ↔
    a.Compares (fun members others => Members.same members others = true) b := by
  simp only [same, Bool.and_eq_true, decide_eq_true_eq]
  exact ⟨fun ⟨⟨hstart, hstop⟩, hextra⟩ => ⟨hstart, hstop, hextra⟩,
    fun h => ⟨⟨h.start, h.stop⟩, h.extra⟩⟩

lemma sameOption_iff {x y : Option Span} : sameOption x y = true ↔
    Option.Rel (Compares fun members others => Members.same members others = true) x y := by
  cases x <;> cases y <;> simp [sameOption, same_iff]

end Span

/-! ## Nodes, one step -/

namespace Node

/-- One step of a comparison: two nodes have the same type, fields that compare, both children that
compare or none, and both a position or none, with the same ends and extra members that compare. -/
structure Compares (members : List (String × Json) → List (String × Json) → Prop)
    (children : List Node → List Node → Prop) (a b : Node) : Prop where
  kind : a.kind = b.kind
  fields : members a.fields b.fields
  children : Option.Rel children a.children b.children
  position : Option.Rel (Span.Compares members) a.position b.position

/-- What stands in two places is equal, whatever the order of fields and extra keys.  Of the
children it is only compared whether there is a list of them, and how long it is. -/
abbrev Agrees : Node → Node → Prop :=
  Compares (Members.Agree Json.Agrees) fun nodes others => nodes.length = others.length

/-- What stands in two places is equal but for the order of fields and extra keys. -/
abbrev Reorders : Node → Node → Prop :=
  Compares List.Perm fun nodes others => nodes.length = others.length

variable {a b : Node} {members members' : List (String × Json) → List (String × Json) → Prop}
  {children children' : List Node → List Node → Prop}

lemma Compares.imp (h : a.Compares members children b)
    (hfields : members a.fields b.fields → members' a.fields b.fields)
    (hextra : ∀ p ∈ a.position, ∀ q ∈ b.position,
      members p.extra q.extra → members' p.extra q.extra)
    (hchildren : ∀ nodes ∈ a.children, ∀ others ∈ b.children,
      children nodes others → children' nodes others) : a.Compares members' children' b where
  kind := h.kind
  fields := hfields h.fields
  children := rel_imp_of_mem h.children hchildren
  position := rel_imp_of_mem h.position fun p hp q hq hspan =>
    ⟨hspan.start, hspan.stop, hextra p hp q hq hspan.extra⟩

lemma compares_congr (hfields : members a.fields b.fields ↔ members' a.fields b.fields)
    (hextra : ∀ p ∈ a.position, ∀ q ∈ b.position,
      (members p.extra q.extra ↔ members' p.extra q.extra))
    (hchildren : ∀ nodes ∈ a.children, ∀ others ∈ b.children,
      (children nodes others ↔ children' nodes others)) :
    a.Compares members children b ↔ a.Compares members' children' b :=
  ⟨fun h => h.imp hfields.1 (fun p hp q hq => (hextra p hp q hq).1)
      fun nodes hnodes others hothers => (hchildren nodes hnodes others hothers).1,
    fun h => h.imp hfields.2 (fun p hp q hq => (hextra p hp q hq).2)
      fun nodes hnodes others hothers => (hchildren nodes hnodes others hothers).2⟩

lemma Compares.symm (h : a.Compares members children b)
    (hmembers : ∀ x y, members x y → members y x) (hchildren : ∀ x y, children x y → children y x) :
    b.Compares members children a where
  kind := h.kind.symm
  fields := hmembers _ _ h.fields
  children := rel_symm h.children fun x _ y _ => hchildren x y
  position := rel_symm h.position fun _ _ _ _ hspan =>
    ⟨hspan.start.symm, hspan.stop.symm, hmembers _ _ hspan.extra⟩

lemma Compares.trans {c : Node} (h : a.Compares members children b)
    (h' : b.Compares members children c)
    (hmembers : ∀ x y z, members x y → members y z → members x z)
    (hchildren : ∀ x y z, children x y → children y z → children x z) :
    a.Compares members children c where
  kind := h.kind.trans h'.kind
  fields := hmembers _ _ _ h.fields h'.fields
  children := rel_trans h.children h'.children fun x _ y _ z _ => hchildren x y z
  position := rel_trans h.position h'.position fun _ _ _ _ _ _ hspan hspan' =>
    ⟨hspan.start.trans hspan'.start, hspan.stop.trans hspan'.stop,
      hmembers _ _ _ hspan.extra hspan'.extra⟩

lemma Agrees.refl (a : Node) : a.Agrees a where
  kind := rfl
  fields _ := rel_self fun _ _ => agrees_self _
  children := rel_self fun _ _ => rfl
  position := rel_self fun _ _ => ⟨rfl, rfl, fun _ => rel_self fun _ _ => agrees_self _⟩

lemma Agrees.symm (h : a.Agrees b) : b.Agrees a :=
  Compares.symm h (fun _ _ hagree key => rel_symm (hagree key) fun _ _ _ _ => Json.Agrees.symm)
    fun _ _ => Eq.symm

lemma Agrees.trans {c : Node} (h : a.Agrees b) (h' : b.Agrees c) : a.Agrees c :=
  Compares.trans h h' (fun _ _ _ hagree hagree' key =>
    rel_trans (hagree key) (hagree' key) fun _ _ _ _ _ _ => Json.Agrees.trans) fun _ _ _ => Eq.trans

/-- Induction over a well-formed node: the statement is known of all children. -/
@[elab_as_elim]
theorem WellFormedWith.inductionOn {P : Span → Prop}
    {motive : ∀ node : Node, node.WellFormedWith P → Prop} (h : a.WellFormedWith P)
    (step : ∀ (node : Node) (hnode : node.WellFormedWith P),
      (∀ nodes (hnodes : node.children = some nodes), ∀ child (hchild : child ∈ nodes),
        motive child (hnode.child hnodes hchild)) → motive node hnode) : motive a h := by
  induction h with
  | mk hnodup hfree hnormal hchildren hposition ih =>
    exact step _ (.mk hnodup hfree hnormal hchildren hposition) ih

lemma WellFormedWith.get?_of_isReserved {P : Span → Prop} (h : a.WellFormedWith P) {key : String}
    (hkey : isReserved key = true) : Members.get? key a.fields = none :=
  Members.get?_eq_none_iff.2 (h.not_mem_keys hkey)

lemma WellFormed.hasDistinctKeys_toJson (h : a.WellFormed) : a.toJson.HasDistinctKeys := by
  induction h using WellFormedWith.inductionOn with
  | step node hnode ih =>
    rw [toJson_eq]
    refine .obj hnode.nodup_keys_members ?_
    refine List.forall_mem_cons.2 ⟨.scalar rfl, List.forall_mem_append.2 ⟨?_,
      List.forall_mem_append.2 ⟨Members.forall_mem_optional.2 ?_,
        Members.forall_mem_optional.2 ?_⟩⟩⟩
    · exact fun member hmember => (hnode.isNormal_fields member hmember).hasDistinctKeys
    · rintro value hvalue
      obtain ⟨nodes, hnodes, rfl⟩ := Option.map_eq_some_iff.1 hvalue
      refine .arr ?_
      rw [listToJson_eq_map, List.forall_mem_map]
      exact ih nodes hnodes
    · rintro value hvalue
      obtain ⟨span, hspan, rfl⟩ := Option.map_eq_some_iff.1 hvalue
      exact (hnode.span hspan).hasDistinctKeys_toJson

/-- The objects of two nodes agree if the nodes do part by part, and the objects of their
children. -/
lemma agrees_toJson_iff (ha : a.WellFormed) (hb : b.WellFormed) :
    a.toJson.Agrees b.toJson ↔ a.Compares (Members.Agree Json.Agrees)
      (List.Forall₂ fun node other => node.toJson.Agrees other.toJson) b := by
  have hchildren : Option.Rel Json.Agrees (a.children.map fun nodes => .arr (listToJson nodes))
      (b.children.map fun nodes => .arr (listToJson nodes)) ↔
        Option.Rel (List.Forall₂ fun node other => node.toJson.Agrees other.toJson)
          a.children b.children := by
    simp only [rel_map_iff, agrees_arr_iff, listToJson_eq_map, List.forall₂_map_left_iff,
      List.forall₂_map_right_iff]
  have hposition : Option.Rel Json.Agrees (a.position.map Span.toJson)
      (b.position.map Span.toJson) ↔
        Option.Rel (Span.Compares (Members.Agree Json.Agrees)) a.position b.position := by
    rw [rel_map_iff]
    exact rel_congr_of_mem fun p hp q hq => Span.agrees_toJson_iff (ha.span hp) (hb.span hq)
  rw [toJson_eq, toJson_eq, agrees_obj_iff, Members.Agree]
  simp only [ha.get?_members, hb.get?_members]
  constructor
  · intro h
    refine ⟨?_, fun key => ?_, hchildren.1 (h "children"), hposition.1 (h "position")⟩
    · exact agrees_str_iff.1 (Option.rel_some_some.1 (h "type"))
    · cases hkey : isReserved key with
      | false =>
        have hrel := h key
        obtain ⟨htype, hchildren, hposition⟩ := isReserved_eq_false_iff.1 hkey
        rwa [if_neg htype, if_neg hchildren, if_neg hposition, if_neg htype, if_neg hchildren,
          if_neg hposition] at hrel
      | true =>
        rw [ha.get?_of_isReserved hkey, hb.get?_of_isReserved hkey]
        exact .none
  · intro h key
    split_ifs
    · exact .some (agrees_str_iff.2 h.kind)
    · exact hchildren.2 h.children
    · exact hposition.2 h.position
    · exact h.fields key

lemma sameList_iff {nodes others : List Node} : sameList nodes others = true ↔
    List.Forall₂ (fun node other => node.same other = true) nodes others := by
  induction nodes generalizing others with
  | nil => cases others <;> simp [sameList]
  | cons node nodes ih => cases others <;> simp [sameList, ih]

lemma same_iff : a.same b = true ↔
    a.Compares (fun members others => Members.same members others = true)
      (List.Forall₂ fun node other => node.same other = true) b := by
  obtain ⟨kind, fields, nodes, position⟩ := a
  obtain ⟨kind', fields', others, position'⟩ := b
  have hchildren : same ⟨kind, fields, nodes, position⟩ ⟨kind', fields', others, position'⟩ = true ↔
      ((kind = kind' ∧ Members.same fields fields' = true) ∧
        Option.Rel (List.Forall₂ fun node other => node.same other = true) nodes others) ∧
        Span.sameOption position position' = true := by
    cases nodes <;> cases others <;> simp [same, sameList_iff]
  rw [hchildren, Span.sameOption_iff]
  exact ⟨fun ⟨⟨⟨hkind, hfields⟩, hnodes⟩, hposition⟩ => ⟨hkind, hfields, hnodes, hposition⟩,
    fun h => ⟨⟨⟨h.kind, h.fields⟩, h.children⟩, h.position⟩⟩

/-- One step of structural equality, with fields that are compared key by key. -/
lemma same_iff_compares (ha : a.WellFormedWith Span.IsNormal) (hb : b.WellFormedWith Span.IsNormal) :
    a.same b = true ↔ a.Compares (Members.Agree Json.Agrees)
      (List.Forall₂ fun node other => node.same other = true) b := by
  rw [same_iff]
  exact compares_congr
    (Members.same_iff_agree_of_isNormal ha.nodup_keys hb.nodup_keys ha.isNormal_fields
      hb.isNormal_fields)
    (fun p hp q hq => Members.same_iff_agree_of_isNormal (ha.span hp).nodup (hb.span hq).nodup
      (ha.span hp).normal (hb.span hq).normal)
    fun _ _ _ _ => Iff.rfl

/-! ## Nodes -/

/-- Structural equality is agreement of the printed objects. -/
lemma same_iff_agrees_toJson (ha : a.WellFormed) (hb : b.WellFormed) :
    a.same b = true ↔ a.toJson.Agrees b.toJson := by
  induction ha using WellFormedWith.inductionOn generalizing b with
  | step node hnode ih =>
    rw [same_iff_compares (wellFormed_iff.1 hnode).1 (wellFormed_iff.1 hb).1,
      agrees_toJson_iff hnode hb]
    exact compares_congr Iff.rfl (fun _ _ _ _ => Iff.rfl) fun nodes hnodes others hothers =>
      forall₂_congr_of_mem fun child hchild other hother =>
        ih nodes hnodes child hchild (hb.child hothers hother)

/-- Nodes that are the same serialise to the same value, whatever their spans. -/
lemma same_normalize_of_same (ha : a.WellFormedWith Span.IsNormal)
    (hb : b.WellFormedWith Span.IsNormal) (h : a.same b = true) :
    a.toJson.normalize.same b.toJson.normalize = true := by
  induction ha using WellFormedWith.inductionOn generalizing b with
  | step node hnode ih =>
    have hcompares := (same_iff_compares hnode hb).1 h
    rw [toJson_eq, toJson_eq, same_normalize_obj_iff]
    intro key
    rw [Members.get?_reverse hnode.nodup_keys_members, Members.get?_reverse hb.nodup_keys_members,
      hnode.get?_members, hb.get?_members]
    split_ifs
    · rw [hcompares.kind]
      exact .some (same_self _)
    · rw [rel_map_iff]
      refine rel_imp_of_mem hcompares.children fun nodes hnodes others hothers hsame => ?_
      rw [Json.normalize, Json.normalize, Json.same, sameItems_iff, normalizeItems_eq_map,
        normalizeItems_eq_map, listToJson_eq_map, listToJson_eq_map]
      simp only [List.forall₂_map_left_iff, List.forall₂_map_right_iff]
      exact forall₂_iff_getElem?.2 fun index => rel_imp_of_mem (forall₂_iff_getElem?.1 hsame index)
        fun child hchild other hother => ih nodes hnodes child (List.mem_of_getElem? hchild)
          (hb.child hothers (List.mem_of_getElem? hother))
    · rw [rel_map_iff]
      exact rel_imp_of_mem hcompares.position fun p hp q hq hspan =>
        hspan.same_normalize (hnode.span hp) (hb.span hq)
    · refine rel_imp_of_mem (hcompares.fields key) fun value hvalue other hother hagrees => ?_
      have hnormal := hnode.isNormal_fields _ (Members.mem_of_get?_eq_some hvalue)
      have hnormal' := hb.isNormal_fields _ (Members.mem_of_get?_eq_some hother)
      rw [hnormal.normalize_eq, hnormal'.normalize_eq]
      exact (hnormal.same_iff_agrees hnormal').2 hagrees

/-! ### Place by place -/

/-- Children are related one by one if there are as many of them and those of one index are. -/
lemma rel_children_iff {R : Node → Node → Prop} :
    Option.Rel (List.Forall₂ R) a.children b.children ↔
      Option.Rel (fun nodes others => nodes.length = others.length) a.children b.children ∧
        ∀ index, Option.Rel R (a.child? index) (b.child? index) := by
  simp only [child?]
  generalize a.children = x
  generalize b.children = y
  cases x <;> cases y
  · simp
  · simp
  · simp
  · simp only [Option.rel_some_some, Option.bind_some, ← forall₂_iff_getElem?]
    exact ⟨fun h => ⟨h.length_eq, h⟩, And.right⟩

section Places

variable (ha : a.WellFormedWith Span.IsNormal) (hb : b.WellFormedWith Span.IsNormal)

include ha hb

lemma agrees_of_same (h : a.same b = true) (path : List ℕ) :
    Option.Rel Agrees (a.descendant? path) (b.descendant? path) := by
  induction path generalizing a b with
  | nil =>
    have hcompares := (same_iff_compares ha hb).1 h
    exact .some (hcompares.imp id (fun _ _ _ _ => id) fun _ _ _ _ => List.Forall₂.length_eq)
  | cons index path ih =>
    have hchildren := ((same_iff_compares ha hb).1 h).children
    exact rel_bind ((rel_children_iff.1 hchildren).2 index) fun x hx y hy hsame =>
      ih (ha.child? hx) (hb.child? hy) hsame

lemma same_of_agrees
    (h : ∀ path, Option.Rel Agrees (a.descendant? path) (b.descendant? path)) :
    a.same b = true := by
  induction ha using WellFormedWith.inductionOn generalizing b with
  | step node hnode ih =>
    have hhere := Option.rel_some_some.1 (h [])
    refine (same_iff_compares hnode hb).2 ⟨hhere.kind, hhere.fields,
      rel_children_iff.2 ⟨hhere.children, fun index => ?_⟩, hhere.position⟩
    have hnone := rel_eq_none_iff (h [index])
    simp only [descendant?, Option.bind_fun_some] at hnone
    refine rel_of_mem hnone fun x hx y hy => ?_
    obtain ⟨nodes, hnodes, hmember⟩ := mem_of_child? hx
    refine ih nodes hnodes x hmember (hb.child? hy) fun path => ?_
    have hbelow := h (index :: path)
    rwa [descendant?, descendant?, hx, hy] at hbelow

/-- Two nodes are the same exactly if what stands in every place below them agrees. -/
lemma same_iff_forall_path :
    a.same b = true ↔
      ∀ path, Option.Rel Agrees (a.descendant? path) (b.descendant? path) :=
  ⟨agrees_of_same ha hb, same_of_agrees ha hb⟩

end Places

/-- Fields and extra keys in another order agree. -/
lemma Reorders.agrees (ha : a.WellFormedWith Span.IsNormal) (h : a.Reorders b) : a.Agrees b :=
  h.imp (fun hperm => Members.agree_of_perm ha.nodup_keys hperm fun _ _ => agrees_self _)
    (fun _ hp _ _ hperm =>
      Members.agree_of_perm (ha.span hp).nodup hperm fun _ _ => agrees_self _)
    fun _ _ _ _ => id

/-- Two nodes that agree both have or both lack a children list, a position and each field, with as
many children and the same ends, and so the same offsets.  Null and integers stand under the same
keys. -/
lemma Agrees.distinguishes (h : a.Agrees b) :
    a.children.map List.length = b.children.map List.length ∧
    a.position.map (fun span => (span.start, span.stop)) =
      b.position.map (fun span => (span.start, span.stop)) ∧
    ∀ key, (a.get? key = none ↔ b.get? key = none) ∧
      ∀ value, value = .null ∨ (∃ n, value = .num (.int n)) →
        (a.get? key = some value ↔ b.get? key = some value) := by
  refine ⟨map_eq_map_of_rel h.children fun _ _ => id,
    map_eq_map_of_rel h.position fun p q hspan => ?_,
    fun key => ⟨rel_eq_none_iff (h.fields key), fun value hvalue => ?_⟩⟩
  · rw [hspan.start, hspan.stop]
  · exact rel_eq_some_iff (h.fields key) fun _ _ hagrees => hagrees.eq_iff hvalue

/-- Structural equality is equality of the serialised form.  Nodes that are the same serialise to the
same value, which is sorted by key; and if no span in two nodes has an extra key under which one of
its ends is printed, the nodes are the same exactly if they do, or if their objects agree key by key
at every depth.  Nodes are the same if and only if what stands in every place below them agrees, so
the order of fields and extra keys counts at no depth.  What counts is whether there are children, a
position, an offset and a field at all, and whether a number is an integer.  The relation is an
equivalence, and a copy is the same as its original. -/
theorem same_iff_toJson (ha : a.Obtainable) (hb : b.Obtainable) :
    (a.same b = true → a.toJson.normalize.same b.toJson.normalize = true) ∧
    (a.HasFreeSpans → b.HasFreeSpans → (a.same b = true ↔ a.toJson.Agrees b.toJson) ∧
      (a.same b = true ↔ a.toJson.normalize.same b.toJson.normalize = true)) ∧
    (a.same b = true ↔ ∀ path, Option.Rel Agrees (a.descendant? path) (b.descendant? path)) ∧
    ((∀ path, Option.Rel Reorders (a.descendant? path) (b.descendant? path)) →
      a.same b = true) ∧
    (a.same b = true → ∀ path x y, a.descendant? path = some x → b.descendant? path = some y →
      x.children.map List.length = y.children.map List.length ∧
      x.position.map (fun span => (span.start, span.stop)) =
        y.position.map (fun span => (span.start, span.stop)) ∧
      ∀ key, (x.get? key = none ↔ y.get? key = none) ∧
        ∀ value, value = .null ∨ (∃ n, value = .num (.int n)) →
          (x.get? key = some value ↔ y.get? key = some value)) ∧
    (∀ place owner, ((⟨place, a⟩ : Occurrence).copy owner).node.same a = true) ∧
    (a.same b = true → b.same a = true) ∧
    ∀ c : Node, c.Obtainable → a.same b = true → b.same c = true → a.same c = true := by
  have hwell := ha.wellFormedWith
  have hwell' := hb.wellFormedWith
  refine ⟨same_normalize_of_same hwell hwell', fun hfree hfree' => ?_,
    same_iff_forall_path hwell hwell', fun h => ?_, fun h path x y hx hy => ?_,
    fun place owner => ?_, fun h => ?_, fun c hc hab hbc => ?_⟩
  · have hsame := same_iff_agrees_toJson (ha.wellFormed hfree) (hb.wellFormed hfree')
    refine ⟨hsame, hsame.trans (same_normalize_iff ?_ ?_).symm⟩
    · exact (ha.wellFormed hfree).hasDistinctKeys_toJson
    · exact (hb.wellFormed hfree').hasDistinctKeys_toJson
  · refine same_of_agrees hwell hwell' fun path => ?_
    exact rel_imp_of_mem (h path) fun x hx y _ hreorders =>
      hreorders.agrees (hwell.descendant? hx)
  · have hrel := agrees_of_same hwell hwell' h path
    rw [hx, hy, Option.rel_some_some] at hrel
    exact hrel.distinguishes
  · exact same_of_agrees hwell hwell fun path => rel_self fun x _ => .refl x
  · exact same_of_agrees hwell' hwell fun path =>
      rel_symm (agrees_of_same hwell hwell' h path) fun _ _ _ _ => Agrees.symm
  · exact same_of_agrees hwell hc.wellFormedWith fun path =>
      rel_trans (agrees_of_same hwell hwell' hab path)
        (agrees_of_same hwell' hc.wellFormedWith hbc path) fun _ _ _ _ _ _ => Agrees.trans

/-- Below two roots stands a text with the same two fields, in either order.  With a fractional one
for the integer it is another text, and a leaf is not a parent without children. -/
theorem same_iff_toJson_reordered :
    let text := leaf "text"
    let one := Json.num (.int 1)
    let first := parent "root" [(text.withField "value" (.str "a")).withField "depth" one]
    let second := parent "root" [(text.withField "depth" one).withField "value" (.str "a")]
    let third := parent "root" [(text.withField "value" (.str "a")).withField "depth"
      (.num (.float ⟨false, 2 ^ 52, -52⟩))]
    first.toJson.Agrees second.toJson ∧ second.same first = true ∧
      ¬first.toJson.Agrees third.toJson ∧
      (leaf "root").toJson.normalize.same (parent "root" []).toJson.normalize = false := by
  intro text one first second third
  have hroot {child : Node} (h : child.Obtainable) : (parent "root" [child]).Obtainable :=
    .parent "root" (List.forall_mem_singleton.2 h)
  have hvalue : (text.withField "value" (.str "a")).Obtainable :=
    .withField (.leaf "text") "value" (.str "a")
  have hdepth : (text.withField "depth" one).Obtainable :=
    .withField (.leaf "text") "depth" (.num _)
  have hfirst : first.Obtainable := hroot (.withField hvalue "depth" (.num _))
  have hsecond : second.Obtainable := hroot (.withField hdepth "value" (.str "a"))
  have hthird : third.Obtainable := hroot (.withField hvalue "depth" (.num _))
  -- none of them has a position
  have hfree {child : Node} (hleaf : child.children = none) (hnone : child.position = none) :
      (parent "root" [child]).HasFreeSpans := by
    obtain ⟨kind, fields, _, _⟩ := child
    obtain rfl := hleaf
    obtain rfl := hnone
    refine .mk ?_ nofun
    rintro _ ⟨⟩
    exact List.forall_mem_singleton.2 (.mk nofun nofun)
  obtain ⟨-, hvalues, -, -, -, -, hsymm, -⟩ := same_iff_toJson hfirst hsecond
  have hsame : first.same second = true := by decide +kernel
  refine ⟨(hvalues (hfree rfl rfl) (hfree rfl rfl)).1.1 hsame, hsymm hsame, fun h => ?_, ?_⟩
  · have hthird_same :=
      ((same_iff_toJson hfirst hthird).2.1 (hfree rfl rfl) (hfree rfl rfl)).1.2 h
    have hdiffer : first.same third = false := by decide +kernel
    rw [hdiffer] at hthird_same
    cases hthird_same
  · rw [Bool.eq_false_iff, ne_eq, ← ((same_iff_toJson (.leaf "root")
      (.parent "root" (List.forall_mem_nil _))).2.1 (.mk nofun nofun)
      (.mk (by rintro _ ⟨⟩; exact List.forall_mem_nil _) nofun)).2]
    decide +kernel

/-- Two spans begin on different lines, and have the same extra key `start`, under which the
beginning is printed as well: the leaves that have them are not the same, but they serialise to the
same value. -/
theorem not_same_iff_toJson_start :
    let extra := [("start", Json.num (.int 7))]
    let first := (leaf "a").withPosition ⟨⟨1, 1, none⟩, ⟨3, 1, none⟩, extra⟩
    let second := (leaf "a").withPosition ⟨⟨2, 1, none⟩, ⟨3, 1, none⟩, extra⟩
    first.Obtainable ∧ second.Obtainable ∧ first.same second = false ∧
      first.toJson.normalize.same second.toJson.normalize = true := by
  intro extra first second
  have hpoint {line : ℕ} (hline : line ≤ maxWord) : Point.InRange ⟨line, 1, none⟩ :=
    ⟨hline, (by decide : 1 ≤ maxWord), nofun⟩
  have hspan {line : ℕ} (hline : line ≤ maxWord) :
      Span.IsNormal ⟨⟨line, 1, none⟩, ⟨3, 1, none⟩, extra⟩ :=
    ⟨hpoint hline, hpoint (by decide), (by decide : ["start"].Nodup),
      List.forall_mem_singleton.2 (.num _)⟩
  exact ⟨.withPosition (.leaf "a") (hspan (by decide)),
    .withPosition (.leaf "a") (hspan (by decide)), by decide +kernel, by decide +kernel⟩

end Node

end SiblingQuery
