import SiblingQuery.Proofs.RoundTrip
import SiblingQuery.Proofs.YamlTrees

/-!
# What printed YAML scalars stand for

A reader of YAML guesses what a plain scalar stands for.  The printer writes a text plain only if
the guess is that very text (`resolve?_style`), and an integer in digits that are guessed to be the
integer (`ofPlain?_intText`).  Everything else about a printed value is said by its tree, so a value
as fields hold them is what its tree stands for (`value_valueTree`).
-/

namespace SiblingQuery

namespace Yaml

namespace Quoting

lemma looksTyped_of_style_plain {text : String} (h : style text = .plain) :
    looksTyped text = false := by
  unfold style at h
  simp only at h
  split_ifs at h with _ _ htyped _ hplain
  exact Bool.eq_false_of_not_eq_true htyped

end Quoting

namespace Scalar

/-! ## Texts -/

/-- What looks like a real number is not read as a text. -/
lemma ne_str_of_real? {text : String} {value : Json} (h : real? text = some value) (s : String) :
    value ≠ .str s := by
  unfold real? at h
  simp only at h
  split_ifs at h
  · obtain rfl := Option.some.inj h
    simp
  · split at h
    · obtain rfl := Option.some.inj h
      simp
    · cases h

/-- A plain scalar that is read as a text is read as its own. -/
lemma eq_of_ofPlain? {text s : String} (h : ofPlain? text = some (.str s)) : s = text := by
  unfold ofPlain? at h
  split at h
  · cases h
  split at h
  · cases h
  split at h
  · cases h
  · cases h
  split at h
  · cases h
    rfl
  · rcases Option.or_eq_some_iff.1 h with h | ⟨-, h⟩
    · exact absurd rfl (ne_str_of_real? h s)
    · cases h
      rfl

/-- A text in its own style stands for itself. -/
lemma resolve?_style (text : String) :
    resolve? none (Quoting.style text) text = some (.str text) := by
  by_cases hplain : Quoting.style text = .plain
  · have htyped := Quoting.looksTyped_of_style_plain hplain
    have hguess : ∃ s, ofPlain? text = some (.str s) := by
      unfold Quoting.looksTyped at htyped
      split at htyped
      case h_1 s hs => exact ⟨s, hs⟩
      case h_2 => simp at htyped
    obtain ⟨s, hs⟩ := hguess
    rw [resolve?, ofStyle?, if_pos hplain, hs, eq_of_ofPlain? hs]
  · rw [resolve?, ofStyle?, if_neg hplain]

/-! ## Integers -/

lemma hexValue?_digitChar : ∀ n < 10, hexValue? (Nat.digitChar n) = some n := by decide

lemma natInRadix?_toDigits (n : ℕ) : natInRadix? 10 (Nat.toDigits 10 n) = some n := by
  rw [natInRadix?, if_neg Nat.toDigits_ne_nil]
  induction n using Nat.strongRecOn with
  | ind n ih =>
    rw [Nat.toDigits_eq_if (by decide)]
    split_ifs with hsmall
    · simp [hexValue?_digitChar n hsmall, hsmall]
    · have hlow := hexValue?_digitChar (n % 10) (Nat.mod_lt n (by decide))
      have hlast : n % 10 < 10 := Nat.mod_lt n (by decide)
      rw [List.foldlM_append, ih (n / 10) (by omega)]
      simp only [List.foldlM_cons, List.foldlM_nil, hlow, if_pos hlast]
      exact congrArg some (by omega)

/-- A number is written without a sign, and begins with a zero for zero only. -/
lemma exists_toDigits_eq_cons (n : ℕ) : ∃ d digits, Nat.toDigits 10 n = d :: digits ∧
    d ≠ '+' ∧ d ≠ '-' ∧ (d = '0' → digits = []) := by
  have hdigit : ∀ c ∈ Nat.toDigits 10 n, c ≠ '+' ∧ c ≠ '-' :=
    forall_mem_toDigits (by decide) (by decide) n
  obtain ⟨d, digits, hdigits⟩ := List.exists_cons_of_ne_nil
    (Nat.toDigits_ne_nil : Nat.toDigits 10 n ≠ [])
  obtain ⟨hplus, hminus⟩ := hdigit d (hdigits ▸ List.mem_cons_self)
  refine ⟨d, digits, hdigits, hplus, hminus, ?_⟩
  rintro rfl
  rcases Nat.eq_zero_or_pos n with rfl | hn
  · exact (List.cons.inj hdigits).2.symm
  · exact absurd (by rw [hdigits]; rfl) (Json.Token.head?_toDigits hn)

lemma hasLeadingZero_toDigits (n : ℕ) : hasLeadingZero (Nat.toDigits 10 n) = false := by
  obtain ⟨d, digits, hdigits, hplus, hminus, hzero⟩ := exists_toDigits_eq_cons n
  rw [hdigits]
  by_cases hd : d = '0'
  · rw [hzero hd, hd]
    decide
  · simp [hasLeadingZero, hplus, hminus, hd]

lemma marked?_toDigits (n : ℕ) : marked? (Nat.toDigits 10 n) = none := by
  obtain ⟨d, digits, hdigits, -, -, hzero⟩ := exists_toDigits_eq_cons n
  rw [hdigits]
  by_cases hd : d = '0'
  · rw [hzero hd, hd]
    decide
  · simp [marked?, hd]

lemma natUpTo?_toDigits {n limit : ℕ} (h : n ≤ limit) :
    natUpTo? limit 10 (Nat.toDigits 10 n) = some n := by
  rw [natUpTo?, natInRadix?_toDigits, Option.filter_some, if_pos (decide_eq_true h)]

lemma unsigned?_toDigits {n limit : ℕ} (h : n ≤ limit) :
    unsigned? limit (Nat.toDigits 10 n) = some n := by
  have hzero := hasLeadingZero_toDigits n
  have hmark := marked?_toDigits n
  have hvalue := natUpTo?_toDigits h
  obtain ⟨d, digits, hdigits, hplus, hminus, -⟩ := exists_toDigits_eq_cons n
  rw [hdigits] at hzero hmark hvalue ⊢
  have hbody : withoutPlus (d :: digits) = d :: digits := by simp [withoutPlus, hplus]
  have hsign : isSigned (d :: digits) = false := by simp [isSigned, hplus, hminus]
  simp [unsigned?, hbody, hmark, hsign, hzero, hvalue]

lemma negative?_toDigits {n limit : ℕ} (h : n ≤ limit) :
    negative? limit ('-' :: Nat.toDigits 10 n) = some (-(n : ℤ)) := by
  simp [negative?, marked?_toDigits, hasLeadingZero_toDigits, natUpTo?_toDigits h]

/-- A word in digits is read as a word. -/
lemma word?_toDigits {n : ℕ} (h : n ≤ maxWord) :
    word? (String.ofList (Nat.toDigits 10 n)) = some n := by
  rw [word?, String.toList_ofList, unsigned?_toDigits h]

/-- An integer of at most 64 bits is read from its digits. -/
lemma int?_intText {n : ℤ} (h : (Number.int n).IsWhole) :
    int? (String.ofList (intText n)) = some (some n) := by
  obtain ⟨hlow, hhigh⟩ := h
  rw [int?, String.toList_ofList]
  unfold intText
  by_cases hneg : n < 0
  · have hle : n.natAbs ≤ signedBound := by omega
    have habs : -(n.natAbs : ℤ) = n := by omega
    have hunsigned : unsigned? maxWord ('-' :: Nat.toDigits 10 n.natAbs) = none := by
      simp [unsigned?, withoutPlus, marked?, isSigned]
    rw [if_pos hneg, hunsigned, negative?_toDigits hle, habs]
  · have hle : n.natAbs ≤ maxWord := by omega
    have habs : (n.natAbs : ℤ) = n := by omega
    rw [if_neg hneg, unsigned?_toDigits hle]
    simp [habs]

/-- The words that stand for something else than a text or a number. -/
def typedWords : List String :=
  ["", "null", "Null", "NULL", "~", "true", "True", "TRUE", "false", "False", "FALSE"]

lemma intText_not_mem_typedWords (n : ℤ) : String.ofList (intText n) ∉ typedWords := by
  intro hword
  have hfirst : ∀ word ∈ typedWords,
      word.toList.head? ≠ some '-' ∧ word.toList.head?.any Char.isDigit = false := by
    decide
  obtain ⟨c, text, htext, hc⟩ := Json.Token.intText_eq_cons n
  have hhead : (String.ofList (intText n)).toList.head? = some c := by
    rw [String.toList_ofList, htext]
    rfl
  obtain ⟨hsign, hdigit⟩ := hfirst _ hword
  rw [hhead] at hsign hdigit
  rcases hc with rfl | hc
  · exact hsign rfl
  · cases hdigit.symm.trans hc

/-- Neither empty nor null nor a truth value. -/
lemma typed_of_not_mem {text : String} (h : text ∉ typedWords) :
    text ≠ "" ∧ isNull text = false ∧ bool? text = none := by
  simp only [typedWords, List.mem_cons, List.not_mem_nil, or_false, not_or] at h
  simp [isNull, bool?, h]

/-- An integer in digits is guessed to be the integer. -/
lemma ofPlain?_intText {n : ℤ} (h : (Number.int n).IsWhole) :
    ofPlain? (String.ofList (intText n)) = some (.num (.int n)) := by
  obtain ⟨hempty, hnull, hbool⟩ := typed_of_not_mem (intText_not_mem_typedWords n)
  simp [ofPlain?, hempty, hnull, hbool, int?_intText h]

end Scalar

namespace Reading

variable {β γ : Type}

/-- A pass over a list whose steps spend nothing and have known answers. -/
lemma mapM_eq_pure {read : β → Reading γ} {items : List β} {answers : List γ}
    (h : List.Forall₂ (fun item answer => read item = pure answer) items answers) :
    items.mapM read = pure answers := by
  induction h with
  | nil => rfl
  | cons hitem _ ih => simp [List.mapM_cons, hitem, ih]

/-- The tree of a printed value is no alias. -/
lemma target_valueTree (document : Document) (value : Json) :
    target document (valueTree value) = pure (valueTree value) := by
  cases value <;> rfl

end Reading

namespace Tree

lemma itemTrees_eq_map {α : Type} (items : List Json) :
    itemTrees items = items.map (valueTree : Json → Tree α) := by
  induction items with
  | nil => rfl
  | cons item items ih => rw [itemTrees, ih, List.map_cons]

lemma memberTrees_eq_map {α : Type} (members : List (String × Json)) :
    memberTrees members = members.map fun member =>
      ((.scalar none none (Quoting.style member.1) member.1 : Tree α), valueTree member.2) := by
  induction members with
  | nil => rfl
  | cons member members ih => rw [memberTrees, ih, List.map_cons]

/-- What the members of a printed mapping are read as, one by one. -/
lemma mapM_memberTrees {β : Type} {read : Tree ℕ × Tree ℕ → Reading β}
    {members : List (String × Json)} {answers : List β}
    (h : List.Forall₂ (fun member answer =>
      read (.scalar none none (Quoting.style member.1) member.1, valueTree member.2) = pure answer)
        members answers) :
    (memberTrees members).mapM read = pure answers := by
  rw [memberTrees_eq_map]
  exact Reading.mapM_eq_pure (List.forall₂_map_left_iff.2 h)

variable {document : Document}

lemma value_scalar (d : ℕ) {style : Style} {text : String} {value : Json}
    (h : Scalar.resolve? none style text = some value) :
    Tree.value document d (.scalar none none style text) = pure value := by
  have htarget : Reading.target document (.scalar none none style text) = pure _ := rfl
  rw [Tree.value, htarget, pure_bind]
  simp only [h]
  rfl

lemma value_sequence {d : ℕ} {trees : List (Tree ℕ)} {items : List Json}
    (h : trees.mapM (Tree.value document d) = pure items) :
    Tree.value document (d + 1) (.sequence none none trees) = pure (.arr items) := by
  have htarget : Reading.target document (.sequence none none trees) = pure _ := rfl
  rw [Tree.value, htarget, pure_bind]
  simp [h]

/-- What an entry of a mapping says as a member of an object. -/
def memberOfTree (document : Document) (d : ℕ) (entry : Tree ℕ × Tree ℕ) :
    Reading (String × Json) := do
  match ← Tree.value document d entry.1 with
  | .str key => return (key, ← Tree.value document d entry.2)
  | _ => Reading.refuse

lemma value_mapping {d : ℕ} {trees : List (Tree ℕ × Tree ℕ)} {members : List (String × Json)}
    (h : trees.mapM (memberOfTree document d) = pure members) :
    Tree.value document (d + 1) (.mapping none none trees) =
      pure (.obj (Members.sorted members)) := by
  have htarget : Reading.target document (.mapping none none trees) = pure _ := rfl
  rw [Tree.value, htarget, pure_bind]
  change (trees.mapM (memberOfTree document d) >>= fun members =>
    pure (Json.obj (Members.sorted members))) = _
  rw [h, pure_bind]

/-- A normal value is what its tree stands for. -/
lemma value_valueTree {value : Json} (hnormal : value.IsNormal) (hwhole : value.IsWhole) {d : ℕ}
    (hd : value.depth ≤ d) : Tree.value document d (valueTree value) = pure value := by
  -- the members are sorted already, so sorting them once more changes nothing
  induction hnormal generalizing d with
  | null => exact value_scalar d (by rfl)
  | bool b =>
    cases b
    · exact value_scalar d (by rfl)
    · exact value_scalar d (by rfl)
  | num n =>
    cases hwhole with
    | num hn =>
      cases n with
      | float x => cases hn
      | int n => exact value_scalar d (Scalar.ofPlain?_intText hn)
  | str s => exact value_scalar d (Scalar.resolve?_style s)
  | arr h ih =>
    cases hwhole with
    | arr hwhole =>
      obtain ⟨d, rfl, hitems⟩ := Json.exists_depth_of_arr hd
      refine value_sequence ?_
      rw [itemTrees_eq_map]
      exact Reading.mapM_eq_pure (List.forall₂_map_left_iff.2 (List.forall₂_same.2 fun item hitem =>
        ih item hitem (hwhole item hitem) (hitems item hitem)))
  | obj hkeys h ih =>
    cases hwhole with
    | obj hwhole =>
      obtain ⟨d, rfl, hmembers⟩ := Json.exists_depth_of_obj hd
      have hentries : (memberTrees _).mapM (memberOfTree document d) = pure _ :=
        mapM_memberTrees (List.forall₂_same.2 fun member hmember => by
          have hkey : Tree.value document d (.scalar none none (Quoting.style member.1) member.1) =
              pure (.str member.1) := value_scalar d (Scalar.resolve?_style member.1)
          have hvalue := ih member hmember (hwhole member hmember) (hmembers member hmember)
          simp [memberOfTree, hkey, hvalue])
      rw [valueTree, value_mapping hentries, Members.sorted_eq_self hkeys]

end Tree

end Yaml

end SiblingQuery
