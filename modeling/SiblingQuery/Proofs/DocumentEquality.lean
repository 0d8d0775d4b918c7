import Mathlib.Data.List.Perm.Subperm
import SiblingQuery.Proofs.ValueEquality

/-!
# Documents up to the order of their keys

An object can be compared with another in three ways: its list of members as it stands, the sorted
list member by member, or key by key.  The last is what equality of objects means, and it needs
neither order nor count: `Members.Agree` asks of every key that both lists have something related
under it, or nothing.  `Json.Agrees` compares whole documents in that way.

The other two come down to it where no key stands twice.  For lists as they stand that is a count
(`Members.same_iff_agree`); for sorted ones the first keys have to be the same, since each is the
least (`Json.sameMembers_iff_agree`).  So values are equal exactly if their documents agree
(`Json.same_normalize_iff`).
-/

namespace SiblingQuery

/-! ## Parts that may be missing -/

section Rel

variable {α β γ δ : Type} {R S : α → β → Prop} {x : Option α} {y : Option β}

lemma rel_eq_none_iff (h : Option.Rel R x y) : x = none ↔ y = none := by
  cases h <;> simp

lemma rel_eq_some_iff {value : α} {other : β} (h : Option.Rel R x y)
    (hvalue : ∀ a b, R a b → (a = value ↔ b = other)) : x = some value ↔ y = some other := by
  cases h with
  | some hab => rw [Option.some_inj, Option.some_inj, hvalue _ _ hab]
  | none => simp

lemma map_eq_map_of_rel {f : α → γ} {g : β → γ} (h : Option.Rel R x y)
    (heq : ∀ a b, R a b → f a = g b) : x.map f = y.map g := by
  cases h with
  | some hab => rw [Option.map_some, Option.map_some, heq _ _ hab]
  | none => rfl

lemma rel_of_mem (hnone : x = none ↔ y = none) (h : ∀ a ∈ x, ∀ b ∈ y, R a b) :
    Option.Rel R x y := by
  cases x with
  | none =>
    rw [hnone.1 rfl]
    exact .none
  | some a =>
    cases y with
    | none => cases hnone.2 rfl
    | some b => exact .some (h a rfl b rfl)

lemma rel_imp_of_mem (h : Option.Rel R x y) (himp : ∀ a ∈ x, ∀ b ∈ y, R a b → S a b) :
    Option.Rel S x y := by
  cases h with
  | some hab => exact .some (himp _ rfl _ rfl hab)
  | none => exact .none

lemma rel_congr_of_mem (h : ∀ a ∈ x, ∀ b ∈ y, (R a b ↔ S a b)) :
    Option.Rel R x y ↔ Option.Rel S x y :=
  ⟨fun hrel => rel_imp_of_mem hrel fun a ha b hb => (h a ha b hb).1,
    fun hrel => rel_imp_of_mem hrel fun a ha b hb => (h a ha b hb).2⟩

lemma rel_map_iff {T : γ → δ → Prop} {f : α → γ} {g : β → δ} :
    Option.Rel T (x.map f) (y.map g) ↔ Option.Rel (fun a b => T (f a) (g b)) x y := by
  cases x <;> cases y <;> simp

lemma rel_bind {T : γ → δ → Prop} {f : α → Option γ} {g : β → Option δ} (h : Option.Rel R x y)
    (hnext : ∀ a ∈ x, ∀ b ∈ y, R a b → Option.Rel T (f a) (g b)) :
    Option.Rel T (x.bind f) (y.bind g) := by
  cases h with
  | some hab => exact hnext _ rfl _ rfl hab
  | none => exact .none

lemma rel_symm {T : β → α → Prop} (h : Option.Rel R x y)
    (hsymm : ∀ a ∈ x, ∀ b ∈ y, R a b → T b a) : Option.Rel T y x := by
  cases h with
  | some hab => exact .some (hsymm _ rfl _ rfl hab)
  | none => exact .none

lemma rel_trans {T : β → γ → Prop} {U : α → γ → Prop} {z : Option γ} (hxy : Option.Rel R x y)
    (hyz : Option.Rel T y z) (htrans : ∀ a ∈ x, ∀ b ∈ y, ∀ c ∈ z, R a b → T b c → U a c) :
    Option.Rel U x z := by
  cases hxy with
  | some hab =>
    cases hyz with
    | some hbc => exact .some (htrans _ rfl _ rfl _ rfl hab hbc)
  | none =>
    cases hyz with
    | none => exact .none

lemma rel_or {x' : Option α} {y' : Option β} (h : Option.Rel R x y) (h' : Option.Rel R x' y') :
    Option.Rel R (x.or x') (y.or y') := by
  cases h with
  | some hab => exact .some hab
  | none => exact h'

lemma rel_self {R : α → α → Prop} (h : ∀ a ∈ x, R a a) : Option.Rel R x x := by
  cases x with
  | none => exact .none
  | some a => exact .some (h a rfl)

end Rel

section Forall₂

variable {α β : Type} {R S : α → β → Prop} {as : List α} {bs : List β}

lemma forall₂_congr_of_mem (h : ∀ a ∈ as, ∀ b ∈ bs, (R a b ↔ S a b)) :
    List.Forall₂ R as bs ↔ List.Forall₂ S as bs := by
  rw [List.forall₂_iff_zip, List.forall₂_iff_zip]
  refine and_congr_right fun _ => forall_congr' fun a => forall_congr' fun b => ?_
  refine imp_congr_right fun hmem => ?_
  obtain ⟨ha, hb⟩ := List.of_mem_zip hmem
  exact h a ha b hb

/-- Lists are related item by item exactly if they are so at every index. -/
lemma forall₂_iff_getElem? :
    List.Forall₂ R as bs ↔ ∀ index : ℕ, Option.Rel R as[index]? bs[index]? := by
  induction as generalizing bs with
  | nil =>
    cases bs with
    | nil => simp
    | cons b bs =>
      refine iff_of_false (by simp) fun h => ?_
      cases h 0
  | cons a as ih =>
    cases bs with
    | nil =>
      refine iff_of_false (by simp) fun h => ?_
      cases h 0
    | cons b bs =>
      rw [List.forall₂_cons, ih]
      constructor
      · intro h index
        cases index with
        | zero => exact .some h.1
        | succ index => exact h.2 index
      · exact fun h => ⟨Option.rel_some_some.1 (h 0), fun index => h (index + 1)⟩

end Forall₂

/-! ## Objects key by key -/

namespace Members

variable {α : Type} {R S : α → α → Prop} {members others : List (String × α)} {key : String}

/-- Under every key both have something that is related, or nothing. -/
def Agree (R : α → α → Prop) (members others : List (String × α)) : Prop :=
  ∀ key, Option.Rel R (get? key members) (get? key others)

lemma Agree.mem_keys_iff (h : Agree R members others) : key ∈ keys members ↔ key ∈ keys others := by
  rw [← not_iff_not, ← get?_eq_none_iff, ← get?_eq_none_iff]
  exact rel_eq_none_iff (h key)

lemma agree_congr_of_mem
    (h : ∀ member ∈ members, ∀ other ∈ others, (R member.2 other.2 ↔ S member.2 other.2)) :
    Agree R members others ↔ Agree S members others :=
  forall_congr' fun key => rel_congr_of_mem fun value hvalue other hother =>
    h (key, value) (mem_of_get?_eq_some hvalue) (key, other) (mem_of_get?_eq_some hother)

/-- Where each key stands once, members in another order agree. -/
lemma agree_of_perm (hnodup : (keys members).Nodup) (hperm : members.Perm others)
    (h : ∀ member ∈ members, R member.2 member.2) : Agree R members others := by
  intro key
  rw [← get?_of_perm hnodup hperm]
  exact rel_self fun value hvalue => h (key, value) (mem_of_get?_eq_some hvalue)

end Members

namespace Members

variable {members others : List (String × Json)}

lemma same_iff : same members others = true ↔ members.length = others.length ∧
    ∀ member ∈ members, ∃ other, get? member.1 others = some other ∧
      member.2.same other = true := by
  rw [same, Bool.and_eq_true, decide_eq_true_iff, List.all_eq_true]
  refine and_congr_right fun _ => forall₂_congr fun member _ => ?_
  obtain ⟨key, value⟩ := member
  cases hother : get? key others <;> simp [hother]

/-- Where each key stands once, fields are the same if they are so key by key.  The other one then
cannot have a further key, since it has no more keys than the first. -/
lemma same_iff_agree (hmembers : (keys members).Nodup) (hothers : (keys others).Nodup) :
    same members others = true ↔
      Agree (fun value other => value.same other = true) members others := by
  rw [same_iff]
  constructor
  · rintro ⟨hlength, hsame⟩ key
    cases hvalue : get? key members with
    | some value =>
      obtain ⟨other, hother, hequal⟩ := hsame (key, value) (mem_of_get?_eq_some hvalue)
      rw [hother]
      exact .some hequal
    | none =>
      have hsubset : keys members ⊆ keys others := by
        intro key hkey
        obtain ⟨member, hmember, rfl⟩ := List.mem_map.1 hkey
        obtain ⟨other, hother, -⟩ := hsame member hmember
        exact key_mem_keys (mem_of_get?_eq_some hother)
      -- as many keys, each of them among the others: then they are the same keys
      have hperm : (keys members).Perm (keys others) :=
        (hmembers.subperm hsubset).perm_of_length_le (by simp [keys, hlength])
      rw [get?_eq_none_iff, hperm.mem_iff, ← get?_eq_none_iff] at hvalue
      rw [hvalue]
      exact .none
  · intro hagree
    have hperm : (keys members).Perm (keys others) :=
      (List.perm_ext_iff_of_nodup hmembers hothers).2 fun _ => hagree.mem_keys_iff
    refine ⟨by simpa [keys] using hperm.length_eq, fun member hmember => ?_⟩
    have hrel := hagree member.1
    rw [get?_eq_some_of_mem hmembers hmember] at hrel
    cases hother : get? member.1 others with
    | none =>
      rw [hother] at hrel
      cases hrel
    | some other =>
      rw [hother] at hrel
      cases hrel with
      | some hequal => exact ⟨other, rfl, hequal⟩

/-- Where sorted fields agree, they begin with the same key: each of the two first keys is a key of
the other fields, and so not below their first one. -/
lemma Agree.first_eq {r : Json → Json → Prop} {k l : String} {value other : Json}
    (hmembers : ∀ key ∈ keys members, k < key) (hothers : ∀ key ∈ keys others, l < key)
    (h : Agree r ((k, value) :: members) ((l, other) :: others)) : k = l := by
  rcases List.mem_cons.1 (h.mem_keys_iff.1 List.mem_cons_self) with hk | hk
  · exact hk
  · rcases List.mem_cons.1 (h.mem_keys_iff.2 List.mem_cons_self) with hl | hl
    · exact hl.symm
    · exact absurd (hothers k hk) (hmembers l hl).asymm

/-- Fields with one more key, the same for both, agree if its values and the others do. -/
lemma agree_cons_iff {r : Json → Json → Prop} {k : String} {value other : Json}
    (hmembers : k ∉ keys members) (hothers : k ∉ keys others) :
    Agree r ((k, value) :: members) ((k, other) :: others) ↔
      r value other ∧ Agree r members others := by
  constructor
  · refine fun hagree => ⟨?_, fun key => ?_⟩
    · have hfirst := hagree k
      rwa [get?_cons, get?_cons, if_pos rfl, if_pos rfl, Option.rel_some_some] at hfirst
    · have hrel := hagree key
      rw [get?_cons, get?_cons] at hrel
      by_cases hkey : key = k
      · rw [hkey, get?_eq_none_iff.2 hmembers, get?_eq_none_iff.2 hothers]
        exact .none
      · rwa [if_neg hkey, if_neg hkey] at hrel
  · rintro ⟨hvalue, hrest⟩ key
    rw [get?_cons, get?_cons]
    split_ifs
    · exact .some hvalue
    · exact hrest key

end Members

namespace Json

variable {members others : List (String × Json)}

/-- Sorted members are the same one after the other if they are so key by key. -/
lemma sameMembers_iff_agree (hmembers : (Members.keys members).Pairwise (· < ·))
    (hothers : (Members.keys others).Pairwise (· < ·)) :
    sameMembers members others = true ↔
      Members.Agree (fun value other => value.same other = true) members others := by
  -- the two lists are sorted, so they are compared from the front
  induction members generalizing others with
  | nil =>
    cases others with
    | nil => exact iff_of_true rfl fun _ => .none
    | cons other others =>
      refine iff_of_false (by simp [sameMembers]) fun hagree => ?_
      have hkey := hagree.mem_keys_iff.2 (List.mem_cons_self (a := other.1))
      cases hkey
  | cons member members ih =>
    cases others with
    | nil =>
      refine iff_of_false (by simp [sameMembers]) fun hagree => ?_
      have hkey := hagree.mem_keys_iff.1 (List.mem_cons_self (a := member.1))
      cases hkey
    | cons other others =>
      obtain ⟨k, value⟩ := member
      obtain ⟨l, value'⟩ := other
      rw [Members.keys_cons, List.pairwise_cons] at hmembers hothers
      simp only [sameMembers, Bool.and_eq_true, decide_eq_true_eq]
      rw [ih hmembers.2 hothers.2]
      by_cases hkeys : k = l
      · subst hkeys
        rw [Members.agree_cons_iff (fun hk => (hmembers.1 k hk).false)
          fun hk => (hothers.1 k hk).false]
        simp
      · exact iff_of_false (fun h => hkeys h.1.1) fun hagree =>
          hkeys (hagree.first_eq hmembers.1 hothers.1)

/-! ## Documents -/

/-- Two documents are equal, whatever the order of the keys in their objects. -/
inductive Agrees : Json → Json → Prop
  | null : Agrees .null .null
  | bool (b : Bool) : Agrees (.bool b) (.bool b)
  | num {m n : Number} (h : m.same n = true) : Agrees (.num m) (.num n)
  | str (s : String) : Agrees (.str s) (.str s)
  | arr {items others : List Json} (h : List.Forall₂ Agrees items others) :
      Agrees (.arr items) (.arr others)
  | obj {members others : List (String × Json)}
      (h : ∀ key, Option.Rel Agrees (Members.get? key members) (Members.get? key others)) :
      Agrees (.obj members) (.obj others)

/-- No object of the document has a key twice. -/
inductive HasDistinctKeys : Json → Prop
  | scalar {value : Json} (h : value.isContainer = false) : HasDistinctKeys value
  | arr {items : List Json} (h : ∀ item ∈ items, HasDistinctKeys item) :
      HasDistinctKeys (.arr items)
  | obj {members : List (String × Json)} (hkeys : (Members.keys members).Nodup)
      (h : ∀ member ∈ members, HasDistinctKeys member.2) : HasDistinctKeys (.obj members)

variable {a b value : Json} {items : List Json}

@[simp]
lemma agrees_str_iff {s t : String} : (str s).Agrees (str t) ↔ s = t :=
  ⟨fun h => by cases h; rfl, fun h => h ▸ .str s⟩

lemma agrees_arr_iff {others : List Json} :
    (arr items).Agrees (arr others) ↔ List.Forall₂ Agrees items others :=
  ⟨fun h => by cases h; assumption, .arr⟩

lemma agrees_obj_iff : (obj members).Agrees (obj others) ↔ Members.Agree Agrees members others :=
  ⟨fun h => by cases h; assumption, .obj⟩

/-- With an integer agrees nothing else, and so no fractional number. -/
lemma agrees_int_iff {n : ℤ} : (num (.int n)).Agrees value ↔ value = num (.int n) := by
  constructor
  · rintro (_ | _ | h)
    rename_i number
    cases number with
    | int m => rw [of_decide_eq_true h]
    | float d => cases h
  · rintro rfl
    exact .num (decide_eq_true rfl)

/-- If one of two documents is null or an integer, and so not a fractional number, the other one is
too. -/
lemma Agrees.eq_iff (h : a.Agrees b) (hvalue : value = .null ∨ ∃ n, value = .num (.int n)) :
    a = value ↔ b = value := by
  rcases hvalue with rfl | ⟨n, rfl⟩
  · cases h <;> simp
  · constructor
    · rintro rfl
      exact agrees_int_iff.1 h
    · rintro rfl
      cases h with
      | num hsame => exact agrees_int_iff.1 (.num (Number.same_symm hsame))

@[simp]
lemma agrees_ofNat_iff {m n : ℕ} : (ofNat m).Agrees (ofNat n) ↔ m = n := by
  rw [ofNat, agrees_int_iff, ofNat]
  simp only [Json.num.injEq, Number.int.injEq, Int.ofNat_inj, eq_comm]

lemma agrees_self (value : Json) : value.Agrees value := by
  induction value with
  | null => exact .null
  | bool b => exact .bool b
  | num n => exact .num (by simpa [same] using same_self (num n))
  | str s => exact .str s
  | arr items ih => exact .arr (List.forall₂_same.2 ih)
  | obj members ih =>
    exact .obj fun key => rel_self fun value hvalue =>
      ih (key, value) (Members.mem_of_get?_eq_some hvalue)

lemma Agrees.symm (h : a.Agrees b) : b.Agrees a := by
  induction a generalizing b with
  | null =>
    cases h
    exact .null
  | bool x =>
    cases h
    exact .bool x
  | num m =>
    cases h with
    | num h => exact .num (Number.same_symm h)
  | str s =>
    cases h
    exact .str s
  | arr items ih =>
    cases h with
    | arr h =>
      refine .arr (forall₂_iff_getElem?.2 fun index => ?_)
      exact rel_symm (forall₂_iff_getElem?.1 h index) fun item hitem _ _ =>
        ih item (List.mem_of_getElem? hitem)
  | obj members ih =>
    cases h with
    | obj h =>
      exact .obj fun key => rel_symm (h key) fun value hvalue _ _ =>
        ih (key, value) (Members.mem_of_get?_eq_some hvalue)

lemma Agrees.trans {c : Json} (h : a.Agrees b) (hbc : b.Agrees c) : a.Agrees c := by
  induction a generalizing b c with
  | null =>
    cases h
    exact hbc
  | bool x =>
    cases h
    exact hbc
  | num m =>
    cases h with
    | num h =>
      cases hbc with
      | num h' => exact .num (Number.same_trans h h')
  | str s =>
    cases h
    exact hbc
  | arr items ih =>
    cases h with
    | arr h =>
      cases hbc with
      | arr h' =>
        refine .arr (forall₂_iff_getElem?.2 fun index => ?_)
        exact rel_trans (forall₂_iff_getElem?.1 h index) (forall₂_iff_getElem?.1 h' index)
          fun item hitem _ _ _ _ => ih item (List.mem_of_getElem? hitem)
  | obj members ih =>
    cases h with
    | obj h =>
      cases hbc with
      | obj h' =>
        exact .obj fun key => rel_trans (h key) (h' key) fun value hvalue _ _ _ _ =>
          ih (key, value) (Members.mem_of_get?_eq_some hvalue)

lemma IsNormal.hasDistinctKeys (h : value.IsNormal) : value.HasDistinctKeys := by
  induction h with
  | null => exact .scalar rfl
  | bool b => exact .scalar rfl
  | num n => exact .scalar rfl
  | str s => exact .scalar rfl
  | arr _ ih => exact .arr ih
  | obj hkeys _ ih => exact .obj (hkeys.imp fun hlt => hlt.ne) ih

lemma HasDistinctKeys.of_arr (h : (Json.arr items).HasDistinctKeys) :
    ∀ item ∈ items, item.HasDistinctKeys := by
  cases h with
  | scalar h => cases h
  | arr h => exact h

lemma HasDistinctKeys.of_obj (h : (Json.obj members).HasDistinctKeys) :
    (Members.keys members).Nodup ∧ ∀ member ∈ members, member.2.HasDistinctKeys := by
  cases h with
  | scalar h => cases h
  | obj hkeys h => exact ⟨hkeys, h⟩

/-- The values of two objects are equal exactly if what stands last under each key is. -/
lemma same_normalize_obj_iff :
    (obj members).normalize.same (obj others).normalize = true ↔
      Members.Agree (fun value other => value.normalize.same other.normalize = true)
        members.reverse others.reverse := by
  rw [normalize, normalize, same, sameMembers_iff_agree (Members.pairwise_keys_sorted _)
    (Members.pairwise_keys_sorted _)]
  refine forall_congr' fun key => ?_
  rw [Members.get?_sorted, Members.get?_sorted, normalizeMembers_eq_map, normalizeMembers_eq_map,
    ← List.map_reverse, ← List.map_reverse, ← normalizeMembers_eq_map, ← normalizeMembers_eq_map,
    get?_normalizeMembers, get?_normalizeMembers, rel_map_iff]

/-- The values of two documents are equal exactly if the documents agree. -/
lemma same_normalize_iff (ha : a.HasDistinctKeys) (hb : b.HasDistinctKeys) :
    a.normalize.same b.normalize = true ↔ a.Agrees b := by
  -- documents of different kinds are neither equal nor do they agree
  induction a generalizing b with
  | null =>
    cases b with
    | null => exact iff_of_true rfl .null
    | _ => constructor <;> intro h <;> cases h
  | bool x =>
    cases b with
    | bool y =>
      simp only [normalize, same, decide_eq_true_eq]
      exact ⟨fun h => h ▸ .bool x, fun h => by cases h; rfl⟩
    | _ => constructor <;> intro h <;> cases h
  | num m =>
    cases b with
    | num n => exact ⟨.num, fun h => by cases h; assumption⟩
    | _ => constructor <;> intro h <;> cases h
  | str s =>
    cases b with
    | str t =>
      simp only [normalize, same, decide_eq_true_eq]
      exact agrees_str_iff.symm
    | _ => constructor <;> intro h <;> cases h
  | arr items ih =>
    cases b with
    | arr others =>
      rw [normalize, normalize, same, sameItems_iff, normalizeItems_eq_map, normalizeItems_eq_map,
        List.forall₂_map_left_iff, List.forall₂_map_right_iff, agrees_arr_iff]
      exact forall₂_congr_of_mem fun item hitem other hother =>
        ih item hitem (ha.of_arr item hitem) (hb.of_arr other hother)
    | _ => constructor <;> intro h <;> cases h
  | obj members ih =>
    cases b with
    | obj others =>
      obtain ⟨hmembers, hvalues⟩ := ha.of_obj
      obtain ⟨hothers, hvalues'⟩ := hb.of_obj
      rw [same_normalize_obj_iff, agrees_obj_iff]
      refine forall_congr' fun key => ?_
      rw [Members.get?_reverse hmembers, Members.get?_reverse hothers]
      refine rel_congr_of_mem fun value hvalue other hother => ?_
      have hmember := Members.mem_of_get?_eq_some hvalue
      exact ih (key, value) hmember (hvalues _ hmember)
        (hvalues' (key, other) (Members.mem_of_get?_eq_some hother))
    | _ => constructor <;> intro h <;> cases h

/-- Normal values are equal exactly if they agree. -/
lemma IsNormal.same_iff_agrees (ha : a.IsNormal) (hb : b.IsNormal) :
    a.same b = true ↔ a.Agrees b := by
  rw [← same_normalize_iff ha.hasDistinctKeys hb.hasDistinctKeys, ha.normalize_eq, hb.normalize_eq]

end Json

/-- Members with distinct keys and normal values are the same exactly if they agree. -/
lemma Members.same_iff_agree_of_isNormal {members others : List (String × Json)}
    (hmembers : (keys members).Nodup) (hothers : (keys others).Nodup)
    (hnormal : ∀ member ∈ members, member.2.IsNormal)
    (hnormal' : ∀ member ∈ others, member.2.IsNormal) :
    same members others = true ↔ Agree Json.Agrees members others := by
  rw [same_iff_agree hmembers hothers]
  exact agree_congr_of_mem fun member hmember other hother =>
    (hnormal member hmember).same_iff_agrees (hnormal' other hother)

end SiblingQuery
