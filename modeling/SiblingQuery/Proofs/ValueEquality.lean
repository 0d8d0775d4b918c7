import SiblingQuery.Proofs.SerialisedForm

/-!
# Values, their equality and their normal form

`Json.same` compares two values item by item and member by member, so it is reflexive and transitive
because equality of numbers is; the two zeros are the one pair of different numbers that it takes for
the same.

`Json.normalize` sorts the objects of a document.  A value that is normal stays as it is
(`IsNormal.normalize_eq`), and where no key of an object stands twice, each key of the sorted object
holds what it held before, normalised (`get?_normalizeMembers`, `Members.get?_sorted_of_nodup`).
-/

namespace SiblingQuery

/-! ## Members in another order -/

namespace Members

variable {α : Type} {members others : List (String × α)}

/-- Where each key stands once, a member is what stands under its key. -/
lemma get?_eq_some_iff (h : (keys members).Nodup) {key : String} {value : α} :
    get? key members = some value ↔ (key, value) ∈ members :=
  ⟨mem_of_get?_eq_some, get?_eq_some_of_mem h⟩

/-- Where each key stands once, the order of the members does not matter. -/
lemma get?_of_perm (h : (keys members).Nodup) (hperm : members.Perm others) (key : String) :
    get? key members = get? key others := by
  have hothers : (keys others).Nodup := (hperm.map Prod.fst).nodup_iff.1 h
  ext value
  rw [get?_eq_some_iff h, get?_eq_some_iff hothers, hperm.mem_iff]

lemma get?_reverse (h : (keys members).Nodup) (key : String) :
    get? key members.reverse = get? key members :=
  (get?_of_perm h (List.reverse_perm members).symm key).symm

lemma get?_sorted_of_nodup (h : (keys members).Nodup) (key : String) :
    get? key (sorted members) = get? key members := by
  rw [get?_sorted, get?_reverse h]

end Members

lemma Number.same_symm {a b : Number} (hab : a.same b = true) : b.same a = true := by
  cases a <;> cases b <;> simp only [Number.same, Bool.false_eq_true] at hab ⊢
  · exact decide_eq_true (of_decide_eq_true hab).symm
  · simp only [Double.same, Bool.or_eq_true, Bool.and_eq_true, decide_eq_true_eq] at hab ⊢
    exact hab.imp Eq.symm And.symm

lemma Number.same_trans {a b c : Number} (hab : a.same b = true) (hbc : b.same c = true) :
    a.same c = true := by
  cases a <;> cases b <;> simp only [Number.same, Bool.false_eq_true] at hab
  · obtain rfl := of_decide_eq_true hab
    exact hbc
  · cases c <;> simp only [Number.same, Bool.false_eq_true] at hbc ⊢
    simp only [Double.same, Bool.or_eq_true, Bool.and_eq_true, decide_eq_true_eq] at hab hbc ⊢
    -- of two zeros that are compared with a third number, that one is zero too
    rcases hab with rfl | ⟨ha, hb⟩
    · exact hbc
    · rcases hbc with rfl | ⟨-, hc⟩
      · exact .inr ⟨ha, hb⟩
      · exact .inr ⟨ha, hc⟩

namespace Json

/-! ## Equality -/

lemma sameItems_iff {items others : List Json} :
    sameItems items others = true ↔ List.Forall₂ (fun a b => a.same b = true) items others := by
  induction items generalizing others with
  | nil => cases others <;> simp [sameItems]
  | cons item items ih => cases others <;> simp [sameItems, ih]

lemma sameMembers_iff {members others : List (String × Json)} :
    sameMembers members others = true ↔
      List.Forall₂ (fun a b => a.1 = b.1 ∧ a.2.same b.2 = true) members others := by
  induction members generalizing others with
  | nil => cases others <;> simp [sameMembers]
  | cons member members ih => cases others <;> simp [sameMembers, ih]

/-- Every value is the same as itself. -/
@[simp]
lemma same_self (value : Json) : value.same value = true := by
  induction value with
  | null => rfl
  | bool b => simp [same]
  | num n => cases n <;> simp [same, Number.same, Double.same]
  | str s => simp [same]
  | arr items ih =>
    rw [same, sameItems_iff]
    exact List.forall₂_same.2 ih
  | obj members ih =>
    rw [same, sameMembers_iff]
    exact List.forall₂_same.2 fun member hmember => ⟨rfl, ih member hmember⟩

lemma same_trans {a b c : Json} (hab : a.same b = true) (hbc : b.same c = true) :
    a.same c = true := by
  -- equal values begin alike, so the middle one and the last are of the same kind as the first
  induction a generalizing b c with
  | null =>
    cases b <;> simp only [same, Bool.false_eq_true] at hab
    exact hbc
  | bool x =>
    cases b <;> simp only [same, decide_eq_true_eq, Bool.false_eq_true] at hab
    exact hab ▸ hbc
  | num m =>
    cases b <;> simp only [same, Bool.false_eq_true] at hab
    cases c <;> simp only [same, Bool.false_eq_true] at hbc
    exact Number.same_trans hab hbc
  | str s =>
    cases b <;> simp only [same, decide_eq_true_eq, Bool.false_eq_true] at hab
    exact hab ▸ hbc
  | arr items ih =>
    cases b <;> simp only [same, Bool.false_eq_true] at hab
    cases c <;> simp only [same, Bool.false_eq_true] at hbc
    rw [sameItems_iff] at hab hbc
    rw [same, sameItems_iff]
    exact forall₂_trans_of_mem hab hbc fun item hitem _ _ => ih item hitem
  | obj members ih =>
    cases b <;> simp only [same, Bool.false_eq_true] at hab
    cases c <;> simp only [same, Bool.false_eq_true] at hbc
    rw [sameMembers_iff] at hab hbc
    rw [same, sameMembers_iff]
    exact forall₂_trans_of_mem hab hbc fun member hmember _ _ hfirst hsecond =>
      ⟨hfirst.1.trans hsecond.1, ih member hmember hfirst.2 hsecond.2⟩

/-! ## Normal form -/

lemma normalizeItems_eq_map (items : List Json) : normalizeItems items = items.map normalize := by
  induction items with
  | nil => rfl
  | cons item items ih => simp [normalizeItems, ih]

lemma normalizeMembers_eq_map (members : List (String × Json)) :
    normalizeMembers members = members.map fun member => (member.1, member.2.normalize) := by
  induction members with
  | nil => rfl
  | cons member members ih => simp [normalizeMembers, ih]

/-- A normal value is its own normal form. -/
lemma IsNormal.normalize_eq {value : Json} (h : value.IsNormal) : value.normalize = value := by
  induction h with
  | null => rfl
  | bool b => rfl
  | num n => rfl
  | str s => rfl
  | @arr items _ ih =>
    rw [normalize, normalizeItems_eq_map, List.map_congr_left ih, List.map_id']
  | @obj members hkeys _ ih =>
    have hsame : ∀ member ∈ members, (member.1, member.2.normalize) = id member :=
      fun member hmember => Prod.ext rfl (ih member hmember)
    rw [normalize, normalizeMembers_eq_map, List.map_congr_left hsame, List.map_id,
      Members.sorted_eq_self hkeys]

lemma keys_normalizeMembers (members : List (String × Json)) :
    Members.keys (normalizeMembers members) = Members.keys members := by
  rw [normalizeMembers_eq_map, Members.keys, List.map_map]
  rfl

/-- Under a key stands what stood there, normalised. -/
lemma get?_normalizeMembers (key : String) (members : List (String × Json)) :
    Members.get? key (normalizeMembers members) = (Members.get? key members).map normalize := by
  induction members with
  | nil => rfl
  | cons member members ih =>
    obtain ⟨k, value⟩ := member
    rw [normalizeMembers, Members.get?_cons, Members.get?_cons, ih]
    split_ifs <;> rfl

end Json

end SiblingQuery
