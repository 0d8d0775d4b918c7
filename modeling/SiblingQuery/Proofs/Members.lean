import Mathlib.Data.List.Induction
import Mathlib.Data.String.Basic
import SiblingQuery.Tree.Entry

/-!
# Association lists by key

What the three ways to fill a list of members come to.  `Members.set` and its fold
`Members.settled` keep the order of first appearance; `Members.insert` and its fold
`Members.sorted` keep the order of the keys.  Either fold leaves each key once, and either is the
identity on a list that is already of its kind: this is why reading a printed object gives the
object back.
-/

namespace SiblingQuery

namespace Members

variable {α : Type} {key : String} {value : α} {members done : List (String × α)}

/-- The keys of the members, in order. -/
def keys (members : List (String × α)) : List String := members.map Prod.fst

@[simp]
lemma keys_nil : keys ([] : List (String × α)) = [] := rfl

@[simp]
lemma keys_cons (member : String × α) : keys (member :: members) = member.1 :: keys members := rfl

@[simp]
lemma keys_append (a b : List (String × α)) : keys (a ++ b) = keys a ++ keys b :=
  List.map_append

lemma keys_eq_of_forall₂ {β : Type} {others : List (String × β)}
    (h : List.Forall₂ (fun member other => member.1 = other.1) members others) :
    keys members = keys others := by
  induction h with
  | nil => rfl
  | cons hkey _ ih => rw [keys_cons, keys_cons, hkey, ih]

lemma key_mem_keys (h : (key, value) ∈ members) : key ∈ keys members :=
  List.mem_map_of_mem (f := Prod.fst) h

/-! ## The order of first appearance -/

lemma keys_set : keys (set key value members) =
    if key ∈ keys members then keys members else keys members ++ [key] := by
  induction members with
  | nil => simp [set]
  | cons member members ih =>
    obtain ⟨k, v⟩ := member
    by_cases hk : k = key
    · simp [set, hk]
    · have hne : ¬ key = k := fun h => hk h.symm
      by_cases hmem : key ∈ keys members <;> simp [set, hk, hne, ih, hmem]

lemma get?_set (k : String) :
    get? k (set key value members) = if k = key then some value else get? k members := by
  induction members with
  | nil =>
    by_cases hk : key = k
    · simp [set, get?, hk]
    · simp [set, get?, hk, Ne.symm hk]
  | cons member members ih =>
    obtain ⟨l, v⟩ := member
    by_cases hl : l = key
    · subst hl
      by_cases hk : l = k
      · simp [set, get?, hk]
      · simp [set, get?, hk, Ne.symm hk]
    · by_cases hk : l = k
      · subst hk
        simp [set, get?, hl]
      · simp [set, get?, hl, hk, ih]

lemma set_of_not_mem (h : key ∉ keys members) : set key value members = members ++ [(key, value)] := by
  induction members with
  | nil => rfl
  | cons member members ih =>
    obtain ⟨k, v⟩ := member
    simp only [keys_cons, List.mem_cons, not_or] at h
    simp [set, Ne.symm h.1, ih h.2]

lemma mem_set {member : String × α} (h : member ∈ set key value members) :
    member = (key, value) ∨ member ∈ members := by
  induction members with
  | nil => simpa [set] using h
  | cons first members ih =>
    obtain ⟨k, v⟩ := first
    by_cases hk : k = key
    · subst hk
      simp only [set, if_true, List.mem_cons] at h
      tauto
    · simp only [set, hk, if_false, List.mem_cons] at h
      rcases h with rfl | h
      · simp
      · exact (ih h).imp_right (List.mem_cons_of_mem _)

lemma nodup_keys_set (h : (keys members).Nodup) : (keys (set key value members)).Nodup := by
  rw [keys_set]
  split
  · exact h
  · rename_i hmem
    exact List.nodup_append.2 ⟨h, by simp, fun a ha b hb hab => by
      obtain rfl := List.mem_singleton.1 hb
      exact hmem (hab ▸ ha)⟩

/-- Settling one member more. -/
lemma settled_append_singleton (members : List (String × α)) (key : String) (value : α) :
    settled (members ++ [(key, value)]) = set key value (settled members) := by
  simp [settled, List.foldl_append]

/-- Each key stands once, where it appeared first. -/
lemma keys_settled (members : List (String × α)) :
    keys (settled members) = (keys members).eraseDups := by
  induction members using List.reverseRecOn with
  | nil => rfl
  | append_singleton members member ih =>
    obtain ⟨key, value⟩ := member
    rw [settled_append_singleton, keys_set, ih]
    simp only [keys_append, List.eraseDups_append, List.mem_eraseDups]
    by_cases hmem : key ∈ keys members
    · simp [hmem, List.removeAll]
    · simp [hmem, List.removeAll, List.eraseDups_cons]

lemma nodup_keys_settled (members : List (String × α)) : (keys (settled members)).Nodup := by
  induction members using List.reverseRecOn with
  | nil => exact List.nodup_nil
  | append_singleton members member ih =>
    rw [settled_append_singleton]
    exact nodup_keys_set ih

lemma get?_cons (k : String) (members : List (String × α)) :
    get? k ((key, value) :: members) = if k = key then some value else get? k members := by
  by_cases hk : key = k
  · simp [get?, hk]
  · simp [get?, hk, Ne.symm hk]

lemma get?_eq_head? (k : String) (members : List (String × α)) :
    get? k members =
      (members.filterMap fun member => if member.1 = k then some member.2 else none).head? := by
  induction members with
  | nil => rfl
  | cons member members ih =>
    obtain ⟨key, value⟩ := member
    by_cases hk : key = k
    · simp [get?, hk]
    · simp [get?, hk, ih]

lemma get?_eq_some_of_mem (h : (keys members).Nodup) (hmem : (key, value) ∈ members) :
    get? key members = some value := by
  induction members with
  | nil => cases hmem
  | cons member members ih =>
    obtain ⟨k, v⟩ := member
    rw [keys_cons, List.nodup_cons] at h
    rcases List.mem_cons.1 hmem with heq | hmem
    · obtain ⟨rfl, rfl⟩ := Prod.mk.inj heq
      simp [get?]
    · have hne : k ≠ key := fun heq => h.1 (heq ▸ key_mem_keys hmem)
      simp [get?, hne, ih h.2 hmem]

/-- Each key holds the value that it was given last. -/
lemma get?_settled (k : String) (members : List (String × α)) :
    get? k (settled members) = get? k members.reverse := by
  induction members using List.reverseRecOn with
  | nil => rfl
  | append_singleton members member ih =>
    obtain ⟨key, value⟩ := member
    rw [settled_append_singleton, get?_set, List.reverse_append, ih]
    exact (get?_cons k members.reverse).symm

/-- The value of a settled member is the last one that its key was given. -/
lemma getLast?_of_mem_settled (h : (key, value) ∈ settled members) :
    (members.filterMap fun member =>
      if member.1 = key then some member.2 else none).getLast? = some value := by
  have hget := get?_eq_some_of_mem (nodup_keys_settled members) h
  rw [get?_settled, get?_eq_head?, List.filterMap_reverse, List.head?_reverse] at hget
  exact hget

/-- Nothing is settled that was not a member. -/
lemma mem_of_mem_settled {member : String × α} (h : member ∈ settled members) :
    member ∈ members := by
  induction members using List.reverseRecOn with
  | nil => exact h
  | append_singleton members last ih =>
    rw [settled_append_singleton] at h
    rcases mem_set h with rfl | h
    · simp
    · exact List.mem_append_left _ (ih h)

/-- Members with distinct keys are settled. -/
lemma settled_eq_self (h : (keys members).Nodup) : settled members = members := by
  induction members using List.reverseRecOn with
  | nil => rfl
  | append_singleton members member ih =>
    obtain ⟨key, value⟩ := member
    rw [keys_append, List.nodup_append] at h
    rw [settled_append_singleton, ih h.1, set_of_not_mem]
    exact fun hmem => h.2.2 key hmem key (by simp) rfl

/-! ## The order of keys -/

lemma mem_insert {member : String × α} (h : member ∈ insert key value members) :
    member = (key, value) ∨ member ∈ members := by
  induction members with
  | nil => simpa [insert] using h
  | cons first members ih =>
    obtain ⟨k, v⟩ := first
    simp only [insert] at h
    split_ifs at h with hk hlt
    · subst hk
      simp only [List.mem_cons] at h
      tauto
    · exact List.mem_cons.1 h
    · rcases List.mem_cons.1 h with rfl | h
      · simp
      · exact (ih h).imp_right (List.mem_cons_of_mem _)

lemma pairwise_keys_insert (h : (keys members).Pairwise (· < ·)) :
    (keys (insert key value members)).Pairwise (· < ·) := by
  induction members with
  | nil => simp [insert]
  | cons first members ih =>
    obtain ⟨k, v⟩ := first
    rw [keys_cons, List.pairwise_cons] at h
    simp only [insert]
    split_ifs with hk hlt
    · subst hk
      exact List.pairwise_cons.2 h
    · refine List.pairwise_cons.2 ⟨?_, List.pairwise_cons.2 h⟩
      intro other hother
      rcases List.mem_cons.1 hother with rfl | hother
      · exact hlt
      · exact hlt.trans (h.1 other hother)
    · have hgt : k < key := lt_of_le_of_ne (not_lt.1 hlt) hk
      refine List.pairwise_cons.2 ⟨?_, ih h.2⟩
      intro other hother
      obtain ⟨member, hmember, rfl⟩ := List.mem_map.1 hother
      rcases mem_insert hmember with rfl | hmember
      · exact hgt
      · exact h.1 _ (List.mem_map_of_mem hmember)

/-- A key beyond all others goes to the end. -/
lemma insert_of_forall_lt (h : ∀ k ∈ keys members, k < key) :
    insert key value members = members ++ [(key, value)] := by
  induction members with
  | nil => rfl
  | cons first members ih =>
    obtain ⟨k, v⟩ := first
    have hk : k < key := h k (by simp)
    simp only [insert, if_neg hk.ne, if_neg hk.not_gt, List.cons_append]
    rw [ih fun l hl => h l (List.mem_cons_of_mem _ hl)]

lemma sorted_append_singleton (members : List (String × α)) (key : String) (value : α) :
    sorted (members ++ [(key, value)]) = insert key value (sorted members) := by
  simp [sorted, List.foldl_append]

/-- Sorted members have ascending keys, so each key stands once. -/
lemma pairwise_keys_sorted (members : List (String × α)) :
    (keys (sorted members)).Pairwise (· < ·) := by
  induction members using List.reverseRecOn with
  | nil => exact .nil
  | append_singleton members member ih =>
    rw [sorted_append_singleton]
    exact pairwise_keys_insert ih

/-- Nothing is sorted that was not a member. -/
lemma mem_of_mem_sorted {member : String × α} (h : member ∈ sorted members) :
    member ∈ members := by
  induction members using List.reverseRecOn with
  | nil => exact h
  | append_singleton members last ih =>
    rw [sorted_append_singleton] at h
    rcases mem_insert h with rfl | h
    · simp
    · exact List.mem_append_left _ (ih h)

/-- Members with ascending keys are sorted. -/
lemma sorted_eq_self (h : (keys members).Pairwise (· < ·)) : sorted members = members := by
  induction members using List.reverseRecOn with
  | nil => rfl
  | append_singleton members member ih =>
    obtain ⟨key, value⟩ := member
    rw [keys_append, List.pairwise_append] at h
    rw [sorted_append_singleton, ih h.1, insert_of_forall_lt]
    exact fun k hk => h.2.2 k hk key (by simp)

end Members

end SiblingQuery
