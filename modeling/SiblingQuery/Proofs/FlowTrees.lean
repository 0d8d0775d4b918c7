import SiblingQuery.Proofs.JsonReading
import SiblingQuery.Proofs.YamlFlow
import SiblingQuery.Proofs.YamlTrees

/-!
# The YAML tree of a JSON text

`StandsFor` says when a YAML tree is a JSON tree written in YAML: no anchors and no tags, the same
items and members in the same order, and every leaf a scalar with the same content.  What the YAML
reader makes of a JSON text is such a tree, if it makes anything of it (`standsFor_of_scan`).

Between the two stand the tokens.  `Written` relates a JSON tree to the tokens that the YAML reader
cuts its text into.  They are those of the tree, but the token of a key may be missing: a colon that
comes too late does not make one.  Then the tokens have no tree, so the relation leaves it open.
-/

namespace SiblingQuery

open Json (Source)

/-! ## Trees with the same reading -/

/-- Every number and every string of a JSON text reads alike in both formats. -/
inductive Json.Source.ReadsAlike : Source → Prop
  | null : ReadsAlike .null
  | bool (b : Bool) : ReadsAlike (.bool b)
  | number {n : Numeral} (h : n.ReadsAlike) : ReadsAlike (.number n)
  | string {quoted : Quoted} (h : quoted.ReadsAlike) : ReadsAlike (.string quoted)
  | array {items : List Source} (h : ∀ item ∈ items, ReadsAlike item) : ReadsAlike (.array items)
  | object {members : List (Quoted × Source)} (hkeys : ∀ member ∈ members, member.1.ReadsAlike)
      (h : ∀ member ∈ members, ReadsAlike member.2) : ReadsAlike (.object members)

namespace Yaml

mutual

/-- A JSON tree, written in YAML. -/
inductive StandsFor {α : Type} : Source → Tree α → Prop
  | null : StandsFor .null (.scalar none none .plain "null")
  | bool (b : Bool) : StandsFor (.bool b) (.scalar none none .plain (if b then "true" else "false"))
  | number {n : Numeral} {word : List Char} (h : n.Spells word) :
      StandsFor (.number n) (.scalar none none .plain (String.ofList word))
  | string {quoted : Quoted} {text : String} (h : quoted.text? = some text) :
      StandsFor (.string quoted) (.scalar none none .doubleQuoted text)
  | array {items : List Source} {trees : List (Tree α)} (h : List.Forall₂ StandsFor items trees) :
      StandsFor (.array items) (.sequence none none trees)
  | object {members : List (Quoted × Source)} {entries : List (Tree α × Tree α)}
      (h : List.Forall₂ MemberStandsFor members entries) :
      StandsFor (.object members) (.mapping none none entries)

/-- A member of a JSON object, written in YAML. -/
inductive MemberStandsFor {α : Type} : Quoted × Source → Tree α × Tree α → Prop
  | mk {quoted : Quoted} {value : Source} {text : String} {tree : Tree α}
      (hkey : quoted.text? = some text) (hvalue : StandsFor value tree) :
      MemberStandsFor (quoted, value) (.scalar none none .doubleQuoted text, tree)

end

/-! ## Tokens -/

mutual

/-- The YAML tokens of a JSON tree. -/
inductive Written : Source → List Token → Prop
  | null : Written .null [.scalar .plain "null"]
  | bool (b : Bool) : Written (.bool b) [.scalar .plain (if b then "true" else "false")]
  | number {n : Numeral} {word : List Char} (h : n.Spells word) :
      Written (.number n) [.scalar .plain (String.ofList word)]
  | string {quoted : Quoted} {text : String} (h : quoted.text? = some text) :
      Written (.string quoted) [.scalar .doubleQuoted text]
  | emptyArray : Written (.array []) [.flowSequenceStart, .flowSequenceEnd]
  | array {item : Source} {items : List Source} {tokens later : List Token}
      (hitem : Written item tokens) (hitems : WrittenItems items later) :
      Written (.array (item :: items)) (.flowSequenceStart :: (tokens ++ later))
  | emptyObject : Written (.object []) [.flowMappingStart, .flowMappingEnd]
  | object {member : Quoted × Source} {members : List (Quoted × Source)}
      {tokens later : List Token} (hmember : WrittenMember member tokens)
      (hmembers : WrittenMembers members later) :
      Written (.object (member :: members)) (.flowMappingStart :: (tokens ++ later))

/-- The tokens of the items after the first, and of the end of the array. -/
inductive WrittenItems : List Source → List Token → Prop
  | nil : WrittenItems [] [.flowSequenceEnd]
  | cons {item : Source} {items : List Source} {tokens later : List Token}
      (hitem : Written item tokens) (hitems : WrittenItems items later) :
      WrittenItems (item :: items) (.flowEntry :: (tokens ++ later))

/-- The tokens of the members after the first, and of the end of the object. -/
inductive WrittenMembers : List (Quoted × Source) → List Token → Prop
  | nil : WrittenMembers [] [.flowMappingEnd]
  | cons {member : Quoted × Source} {members : List (Quoted × Source)}
      {tokens later : List Token} (hmember : WrittenMember member tokens)
      (hmembers : WrittenMembers members later) :
      WrittenMembers (member :: members) (.flowEntry :: (tokens ++ later))

/-- The tokens of a member.  The first of them may be missing. -/
inductive WrittenMember : Quoted × Source → List Token → Prop
  | mk {quoted : Quoted} {value : Source} {text : String} {key tokens : List Token}
      (hkey : key = [] ∨ key = [.key]) (htext : quoted.text? = some text)
      (hvalue : Written value tokens) :
      WrittenMember (quoted, value) (key ++ .scalar .doubleQuoted text :: .value :: tokens)

end

namespace Lexer

variable {s t last : Lexer} {depth : ℕ} {js : List Json.Token} {tokens : List Token}

/-- Reading on comes to an end. -/
def Runs (s last : Lexer) : Prop := ∃ fuel, runFrom fuel s = some last

lemma Runs.exists_step (h : Runs s last) : ∃ t, s.step? = some t ∧
    if t.tokens.head? = some .streamEnd then last = t else Runs t last := by
  obtain ⟨fuel, hrun⟩ := h
  cases fuel with
  | zero => cases hrun
  | succ fuel =>
    rw [runFrom] at hrun
    split at hrun
    · cases hrun
    · next t ht =>
      refine ⟨t, ht, ?_⟩
      split_ifs at hrun ⊢
      · exact (Option.some.inj hrun).symm
      · exact ⟨fuel, hrun⟩

/-- A token is read that is not the last one. -/
lemma Runs.next {P : Lexer → Prop} (h : Runs s last) (hP : ∀ t, s.step? = some t → P t)
    (hinside : ∀ t, P t → t.tokens.head? ≠ some .streamEnd) : ∃ t, P t ∧ Runs t last := by
  obtain ⟨t, ht, hrun⟩ := h.exists_step
  exact ⟨t, hP t ht, by rwa [if_neg (hinside t (hP t ht))] at hrun⟩

/-- Behind a value that both read alike, the YAML reader has its tokens. -/
def Cuts (source : Source) : Prop :=
  ∀ ⦃s last : Lexer⦄ ⦃depth : ℕ⦄ ⦃js : List Json.Token⦄ ⦃tokens : List Token⦄,
    At s (depth + 1) (source.tokens ++ js) tokens → Json.Token.endsItem js = true → Runs s last →
      ∃ t later, Runs t last ∧ At t (depth + 1) js (later.reverse ++ tokens) ∧ Written source later

lemma cuts_plain {source : Source} {token : Json.Token} (htokens : source.tokens = [token])
    (hplain : token.isPlain = true) (hwritten : ∀ word, token.IsWord word →
      Written source [.scalar .plain (String.ofList word)]) : Cuts source := by
  intro s last depth js tokens hat hends hrun
  rw [htokens, List.singleton_append] at hat
  obtain ⟨t, ⟨word, hword, hat⟩, hrun⟩ := hrun.next (fun t => hat.step_plain hplain hends)
    fun t ⟨_, _, ht⟩ => by simp [ht.tokens]
  exact ⟨t, [_], hrun, hat, hwritten word hword⟩

lemma cuts_string {quoted : Quoted} (halike : quoted.ReadsAlike) : Cuts (.string quoted) := by
  intro s last depth js tokens hat hends hrun
  obtain ⟨t, ⟨text, htext, hat, -⟩, hrun⟩ := hrun.next (fun t => hat.step_string halike)
    fun t ⟨_, _, ht, _⟩ => by simp [ht.tokens]
  exact ⟨t, [_], hrun, hat, .string htext⟩

/-! ### Arrays -/

lemma endsItem_tokensOfItems (items : List Source) (js : List Json.Token) :
    Json.Token.endsItem (Source.tokensOfItems items ++ js) = true := by
  cases items <;> rfl

lemma cuts_items {items : List Source} (hitems : ∀ item ∈ items, Cuts item)
    (hat : At s (depth + 1) (Source.tokensOfItems items ++ js) tokens) (hrun : Runs s last) :
    ∃ t later, Runs t last ∧ At t depth js (later.reverse ++ tokens) ∧
      WrittenItems items later := by
  induction items generalizing s tokens with
  | nil =>
    obtain ⟨t, hat, hrun⟩ := hrun.next (fun t => hat.step_closeBracket)
      fun t ht => by simp [ht.tokens]
    exact ⟨t, [_], hrun, hat, .nil⟩
  | cons item items ih =>
    obtain ⟨hitem, hlater⟩ := List.forall_mem_cons.1 hitems
    rw [Source.tokensOfItems, List.cons_append, List.append_assoc] at hat
    obtain ⟨t, ⟨hat, -⟩, hrun⟩ := hrun.next (fun t => hat.step_comma)
      fun t ht => by simp [ht.1.tokens]
    obtain ⟨t, first, hrun, hat, hfirst⟩ := hitem hat (endsItem_tokensOfItems items js) hrun
    obtain ⟨t, later, hrun, hat, hrest⟩ := ih hlater hat hrun
    refine ⟨t, _, hrun, ?_, .cons hfirst hrest⟩
    simpa using hat

lemma cuts_array {items : List Source} (hitems : ∀ item ∈ items, Cuts item) :
    Cuts (.array items) := by
  intro s last depth js tokens hat hends hrun
  cases items with
  | nil =>
    obtain ⟨t, hat, hrun⟩ := hrun.next (fun t => hat.step_openBracket)
      fun t ht => by simp [ht.tokens]
    obtain ⟨t, hat, hrun⟩ := hrun.next (fun t => hat.step_closeBracket)
      fun t ht => by simp [ht.tokens]
    exact ⟨t, [_, _], hrun, hat, .emptyArray⟩
  | cons item items =>
    obtain ⟨hitem, hlater⟩ := List.forall_mem_cons.1 hitems
    rw [Source.tokens, List.cons_append, List.append_assoc] at hat
    obtain ⟨t, hat, hrun⟩ := hrun.next (fun t => hat.step_openBracket)
      fun t ht => by simp [ht.tokens]
    obtain ⟨t, first, hrun, hat, hfirst⟩ := hitem hat (endsItem_tokensOfItems items js) hrun
    obtain ⟨t, later, hrun, hat, hrest⟩ := cuts_items hlater hat hrun
    refine ⟨t, _, hrun, ?_, .array hfirst hrest⟩
    simpa using hat

/-! ### Objects -/

lemma endsItem_tokensOfMembers (members : List (Quoted × Source)) (js : List Json.Token) :
    Json.Token.endsItem (Source.tokensOfMembers members ++ js) = true := by
  cases members <;> rfl

/-- A member, from its key on. -/
lemma cuts_member {key : Quoted} {value : Source} (hkey : key.ReadsAlike) (hvalue : Cuts value)
    (hat : At s (depth + 1) (.string key :: .colon :: (value.tokens ++ js)) tokens)
    (hallowed : s.keyAllowed = true) (hends : Json.Token.endsItem js = true) (hrun : Runs s last) :
    ∃ t later, Runs t last ∧ At t (depth + 1) js (later.reverse ++ tokens) ∧
      WrittenMember (key, value) later := by
  obtain ⟨t, ⟨text, htext, hat, hplace⟩, hrun⟩ := hrun.next (fun t => hat.step_string hkey)
    fun t ⟨_, _, ht, _⟩ => by simp [ht.tokens]
  obtain ⟨found, hfound, hposition⟩ := hplace hallowed
  have hcolon : ∀ candidate ∈ t.candidate, candidate.position = tokens.length := by
    intro candidate hcandidate
    rw [hfound] at hcandidate
    obtain rfl := Option.some.inj hcandidate
    exact hposition
  obtain ⟨t, ⟨mark, hmark, hat⟩, hrun⟩ := hrun.next (fun t => hat.step_colon hcolon)
    fun t ⟨_, _, ht⟩ => by simp [ht.tokens]
  obtain ⟨t, later, hrun, hat, hwritten⟩ := hvalue hat hends hrun
  refine ⟨t, _, hrun, ?_, .mk hmark htext hwritten⟩
  rcases hmark with rfl | rfl
  · simpa using hat
  · simpa using hat

lemma cuts_members {members : List (Quoted × Source)}
    (hkeys : ∀ member ∈ members, member.1.ReadsAlike)
    (hmembers : ∀ member ∈ members, Cuts member.2)
    (hat : At s (depth + 1) (Source.tokensOfMembers members ++ js) tokens) (hrun : Runs s last) :
    ∃ t later, Runs t last ∧ At t depth js (later.reverse ++ tokens) ∧
      WrittenMembers members later := by
  induction members generalizing s tokens with
  | nil =>
    obtain ⟨t, hat, hrun⟩ := hrun.next (fun t => hat.step_closeBrace)
      fun t ht => by simp [ht.tokens]
    exact ⟨t, [_], hrun, hat, .nil⟩
  | cons member members ih =>
    obtain ⟨key, value⟩ := member
    obtain ⟨hkey, hkeys⟩ := List.forall_mem_cons.1 hkeys
    obtain ⟨hvalue, hlater⟩ := List.forall_mem_cons.1 hmembers
    rw [Source.tokensOfMembers, List.cons_append, List.cons_append, List.cons_append,
      List.append_assoc] at hat
    obtain ⟨t, ⟨hat, hallowed⟩, hrun⟩ := hrun.next (fun t => hat.step_comma)
      fun t ht => by simp [ht.1.tokens]
    obtain ⟨t, first, hrun, hat, hfirst⟩ :=
      cuts_member hkey hvalue hat hallowed (endsItem_tokensOfMembers members js) hrun
    obtain ⟨t, later, hrun, hat, hrest⟩ := ih hkeys hlater hat hrun
    refine ⟨t, _, hrun, ?_, .cons hfirst hrest⟩
    simpa using hat

/-- An object is cut in the same way where no bracket is open yet. -/
lemma cuts_object {members : List (Quoted × Source)}
    (hkeys : ∀ member ∈ members, member.1.ReadsAlike)
    (hmembers : ∀ member ∈ members, Cuts member.2)
    (hat : At s depth (Source.tokens (.object members) ++ js) tokens) (hrun : Runs s last) :
    ∃ t later, Runs t last ∧ At t depth js (later.reverse ++ tokens) ∧
      Written (.object members) later := by
  cases members with
  | nil =>
    obtain ⟨t, ⟨hat, -⟩, hrun⟩ := hrun.next (fun t => hat.step_openBrace)
      fun t ht => by simp [ht.1.tokens]
    obtain ⟨t, hat, hrun⟩ := hrun.next (fun t => hat.step_closeBrace)
      fun t ht => by simp [ht.tokens]
    exact ⟨t, [_, _], hrun, hat, .emptyObject⟩
  | cons member members =>
    obtain ⟨key, value⟩ := member
    obtain ⟨hkey, hkeys⟩ := List.forall_mem_cons.1 hkeys
    obtain ⟨hvalue, hlater⟩ := List.forall_mem_cons.1 hmembers
    rw [Source.tokens, List.cons_append, List.cons_append, List.cons_append,
      List.append_assoc] at hat
    obtain ⟨t, ⟨hat, hallowed⟩, hrun⟩ := hrun.next (fun t => hat.step_openBrace)
      fun t ht => by simp [ht.1.tokens]
    obtain ⟨t, first, hrun, hat, hfirst⟩ :=
      cuts_member hkey hvalue hat hallowed (endsItem_tokensOfMembers members js) hrun
    obtain ⟨t, later, hrun, hat, hrest⟩ := cuts_members hkeys hlater hat hrun
    refine ⟨t, _, hrun, ?_, .object hfirst hrest⟩
    simpa using hat

/-- Every JSON value is cut into its tokens. -/
lemma cuts_of_readsAlike {source : Source} (h : source.ReadsAlike) : Cuts source := by
  induction source with
  | null =>
    refine cuts_plain rfl rfl fun word hword => ?_
    cases hword
    exact .null
  | bool b =>
    refine cuts_plain rfl rfl fun word hword => ?_
    cases hword
    rw [String.ofList_toList]
    exact .bool b
  | number n =>
    refine cuts_plain rfl rfl fun word hword => ?_
    cases hword with
    | number hword => exact .number hword
  | string quoted =>
    cases h with
    | string h => exact cuts_string h
  | array items ih =>
    cases h with
    | array h => exact cuts_array fun item hitem => ih item hitem (h item hitem)
  | object members ih =>
    cases h with
    | object hkeys h =>
      intro s last depth js tokens hat _ hrun
      exact cuts_object hkeys (fun member hmember => ih member hmember (h member hmember)) hat hrun

end Lexer

/-- The tokens of a JSON text that is an object are those of the object, and the end of the text. -/
lemma written_of_scan {text : List Char} {members : List (Quoted × Source)} {tokens : List Token}
    (hread : Source.read text = some (.object members))
    (halike : (Source.object members).ReadsAlike) (hscan : Token.scan text = some tokens) :
    ∃ written, tokens = written ++ [.streamEnd] ∧ Written (.object members) written := by
  rw [Token.scan] at hscan
  split_ifs at hscan
  obtain ⟨last, hlast, rfl⟩ := Option.map_eq_some_iff.1 hscan
  have hstart : Lexer.At (Lexer.start text) 0 ((Source.object members).tokens ++ []) [] := by
    refine ⟨?_, le_rfl, rfl, rfl, rfl, rfl, by rintro _ ⟨⟩, List.forall_mem_nil _⟩
    rw [List.append_nil]
    exact Source.scan_of_read hread
  cases halike with
  | object hkeys h =>
    obtain ⟨t, written, hrun, hat, hwritten⟩ := Lexer.cuts_object hkeys
      (fun member hmember => Lexer.cuts_of_readsAlike (h member hmember)) hstart ⟨_, hlast⟩
    obtain ⟨u, hu, hrun⟩ := hrun.exists_step
    have hend := hat.step_end hu
    rw [hend, List.head?_cons, if_pos rfl] at hrun
    exact ⟨written, by simp [hrun, hend], hwritten⟩

/-! ## Trees -/

namespace Tree

variable {handles : Handles} {fuel : ℕ} {tokens rest rest' : List Token}

/-- A token that a scalar or a bracket begins. -/
def opensNode : List Token → Bool
  | .scalar _ _ :: _ | .flowSequenceStart :: _ | .flowMappingStart :: _ => true
  | _ => false

lemma opensNode_of_written {source : Source} (h : Written source tokens) (rest : List Token) :
    opensNode (tokens ++ rest) = true := by
  cases h <;> rfl

/-- Whatever tree the tokens of a JSON tree are read as is that tree, and all tokens are taken. -/
def Grows (handles : Handles) (source : Source) : Prop :=
  ∀ ⦃tokens : List Token⦄, Written source tokens →
    ∀ ⦃block indentless : Bool⦄ ⦃fuel : ℕ⦄ ⦃rest rest' : List Token⦄ ⦃tree : Tree String⦄,
      node? handles block indentless fuel (tokens ++ rest) = some (tree, rest') →
        rest' = rest ∧ StandsFor source tree

/-! ### Arrays -/

/-- Behind a comma an item is read as the first one is. -/
lemma flowItems?_entry : flowItems? handles false (fuel + 1) (.flowEntry :: tokens) =
    flowItems? handles true (fuel + 1) tokens := by
  cases tokens with
  | nil => rfl
  | cons token tokens => cases token <;> rfl

lemma flowItems?_opensNode (h : opensNode tokens = true) :
    flowItems? handles true (fuel + 1) tokens =
      match node? handles false false fuel tokens with
      | none => none
      | some (item, rest) =>
        (flowItems? handles false fuel rest).map fun (items, rest) => (item :: items, rest) := by
  cases tokens with
  | nil => cases h
  | cons token tokens => cases token <;> first | exact absurd h Bool.false_ne_true | rfl

lemma exists_of_flowItems? {item : Source} {later : List Token} {trees : List (Tree String)}
    (hitem : Grows handles item) (htokens : Written item tokens)
    (h : flowItems? handles true fuel (tokens ++ later) = some (trees, rest)) :
    ∃ fuel' tree others, StandsFor item tree ∧
      flowItems? handles false fuel' later = some (others, rest) ∧ trees = tree :: others := by
  cases fuel with
  | zero => cases h
  | succ fuel =>
    rw [flowItems?_opensNode (opensNode_of_written htokens later)] at h
    cases hnode : node? handles false false fuel (tokens ++ later) with
    | none => simp [hnode] at h
    | some found =>
      obtain ⟨tree, behind⟩ := found
      obtain ⟨rfl, hstands⟩ := hitem htokens hnode
      simp only [hnode] at h
      obtain ⟨⟨others, behind⟩, hothers, heq⟩ := Option.map_eq_some_iff.1 h
      obtain ⟨rfl, rfl⟩ := Prod.mk.inj heq
      exact ⟨fuel, tree, others, hstands, hothers, rfl⟩

lemma grows_items {items : List Source} (hitems : ∀ item ∈ items, Grows handles item)
    (htokens : WrittenItems items tokens) {trees : List (Tree String)}
    (h : flowItems? handles false fuel (tokens ++ rest) = some (trees, rest')) :
    rest' = rest ∧ List.Forall₂ StandsFor items trees := by
  induction items generalizing tokens fuel trees with
  | nil =>
    cases htokens
    cases fuel with
    | zero => cases h
    | succ fuel =>
      obtain ⟨rfl, rfl⟩ := Prod.mk.inj (Option.some.inj h)
      exact ⟨rfl, .nil⟩
  | cons item items ih =>
    obtain ⟨hitem, hlater⟩ := List.forall_mem_cons.1 hitems
    cases htokens with
    | cons hfirst hrest =>
      cases fuel with
      | zero => cases h
      | succ fuel =>
        rw [List.cons_append, List.append_assoc, flowItems?_entry] at h
        obtain ⟨fuel', tree, others, hstands, hothers, rfl⟩ := exists_of_flowItems? hitem hfirst h
        obtain ⟨rfl, htrees⟩ := ih hlater hrest hothers
        exact ⟨rfl, .cons hstands htrees⟩

lemma grows_array {items : List Source} (hitems : ∀ item ∈ items, Grows handles item) :
    Grows handles (.array items) := by
  intro tokens htokens block indentless fuel rest rest' tree h
  cases fuel with
  | zero => cases h
  | succ fuel =>
    cases htokens with
    | emptyArray =>
      obtain ⟨⟨trees, behind⟩, htrees, heq⟩ := Option.map_eq_some_iff.1 h
      obtain ⟨rfl, rfl⟩ := Prod.mk.inj heq
      cases fuel with
      | zero => cases htrees
      | succ fuel =>
        obtain ⟨rfl, rfl⟩ := Prod.mk.inj (Option.some.inj htrees)
        exact ⟨rfl, .array .nil⟩
    | array hfirst hrest =>
      obtain ⟨hitem, hlater⟩ := List.forall_mem_cons.1 hitems
      obtain ⟨⟨trees, behind⟩, htrees, heq⟩ := Option.map_eq_some_iff.1 h
      obtain ⟨rfl, rfl⟩ := Prod.mk.inj heq
      rw [List.append_eq, List.append_assoc] at htrees
      obtain ⟨fuel', tree, others, hstands, hothers, rfl⟩ :=
        exists_of_flowItems? hitem hfirst htrees
      obtain ⟨rfl, hall⟩ := grows_items hlater hrest hothers
      exact ⟨rfl, .array (.cons hstands hall)⟩

/-! ### Objects -/

/-- Behind a comma a member is read as the first one is. -/
lemma flowPairs?_entry : flowPairs? handles false (fuel + 1) (.flowEntry :: tokens) =
    flowPairs? handles true (fuel + 1) tokens := by
  cases tokens with
  | nil => rfl
  | cons token tokens => cases token <;> rfl

/-- A member without the token of its key is not read. -/
lemma flowPairs?_of_missing (style : Style) (text : String) :
    flowPairs? handles true fuel (.scalar style text :: .value :: tokens) = none := by
  rcases fuel with _ | _ | fuel <;> rfl

lemma flowPairs?_of_key {style : Style} {text : String} (h : opensNode tokens = true)
    {entries : List (Tree String × Tree String)}
    (hread : flowPairs? handles true fuel (.key :: .scalar style text :: .value :: tokens) =
      some (entries, rest)) :
    ∃ fuel' tree behind others, node? handles false false fuel' tokens = some (tree, behind) ∧
      flowPairs? handles false (fuel' + 1) behind = some (others, rest) ∧
        entries = (.scalar none none style text, tree) :: others := by
  rcases fuel with _ | _ | fuel
  · cases hread
  · cases hread
  · have hvalue : flowValue? handles (fuel + 1) (.value :: tokens) =
        node? handles false false fuel tokens := by
      cases tokens with
      | nil => cases h
      | cons token tokens => cases token <;> first | exact absurd h Bool.false_ne_true | rfl
    have hmember : flowPairs? handles true (fuel + 2)
        (.key :: .scalar style text :: .value :: tokens) =
        (flowValue? handles (fuel + 1) (.value :: tokens)).bind fun value =>
          (flowPairs? handles false (fuel + 1) value.2).map fun more =>
            ((.scalar none none style text, value.1) :: more.1, more.2) := by
      have hkey : node? handles false false (fuel + 1) (.scalar style text :: .value :: tokens) =
          some (.scalar none none style text, .value :: tokens) := rfl
      cases hfound : flowValue? handles (fuel + 1) (.value :: tokens) <;>
        simp [flowPairs?, endsFlowPair, hkey, hfound]
    rw [hmember, hvalue] at hread
    obtain ⟨⟨tree, behind⟩, hnode, hread⟩ := Option.bind_eq_some_iff.1 hread
    obtain ⟨⟨others, last⟩, hothers, heq⟩ := Option.map_eq_some_iff.1 hread
    obtain ⟨rfl, rfl⟩ := Prod.mk.inj heq
    exact ⟨fuel, tree, behind, others, hnode, hothers, rfl⟩

lemma exists_of_flowPairs? {member : Quoted × Source} {later : List Token}
    {entries : List (Tree String × Tree String)} (hvalue : Grows handles member.2)
    (htokens : WrittenMember member tokens)
    (h : flowPairs? handles true fuel (tokens ++ later) = some (entries, rest)) :
    ∃ fuel' entry others, MemberStandsFor member entry ∧
      flowPairs? handles false fuel' later = some (others, rest) ∧ entries = entry :: others := by
  cases htokens with
  | @mk _ _ text key tokens hkey htext hwritten =>
    rw [List.append_assoc, List.cons_append, List.cons_append] at h
    rcases hkey with rfl | rfl
    · rw [List.nil_append, flowPairs?_of_missing] at h
      cases h
    · obtain ⟨fuel', tree, behind, others, hnode, hothers, rfl⟩ :=
        flowPairs?_of_key (opensNode_of_written hwritten later) h
      obtain ⟨rfl, hstands⟩ := hvalue hwritten hnode
      exact ⟨_, _, others, .mk htext hstands, hothers, rfl⟩

lemma grows_members {members : List (Quoted × Source)}
    (hmembers : ∀ member ∈ members, Grows handles member.2)
    (htokens : WrittenMembers members tokens) {entries : List (Tree String × Tree String)}
    (h : flowPairs? handles false fuel (tokens ++ rest) = some (entries, rest')) :
    rest' = rest ∧ List.Forall₂ MemberStandsFor members entries := by
  induction members generalizing tokens fuel entries with
  | nil =>
    cases htokens
    cases fuel with
    | zero => cases h
    | succ fuel =>
      obtain ⟨rfl, rfl⟩ := Prod.mk.inj (Option.some.inj h)
      exact ⟨rfl, .nil⟩
  | cons member members ih =>
    obtain ⟨hmember, hlater⟩ := List.forall_mem_cons.1 hmembers
    cases htokens with
    | cons hfirst hrest =>
      cases fuel with
      | zero => cases h
      | succ fuel =>
        rw [List.cons_append, List.append_assoc, flowPairs?_entry] at h
        obtain ⟨fuel', entry, others, hstands, hothers, rfl⟩ :=
          exists_of_flowPairs? hmember hfirst h
        obtain ⟨rfl, hentries⟩ := ih hlater hrest hothers
        exact ⟨rfl, .cons hstands hentries⟩

lemma grows_object {members : List (Quoted × Source)}
    (hmembers : ∀ member ∈ members, Grows handles member.2) :
    Grows handles (.object members) := by
  intro tokens htokens block indentless fuel rest rest' tree h
  cases fuel with
  | zero => cases h
  | succ fuel =>
    cases htokens with
    | emptyObject =>
      obtain ⟨⟨entries, behind⟩, hentries, heq⟩ := Option.map_eq_some_iff.1 h
      obtain ⟨rfl, rfl⟩ := Prod.mk.inj heq
      cases fuel with
      | zero => cases hentries
      | succ fuel =>
        obtain ⟨rfl, rfl⟩ := Prod.mk.inj (Option.some.inj hentries)
        exact ⟨rfl, .object .nil⟩
    | object hfirst hrest =>
      obtain ⟨hmember, hlater⟩ := List.forall_mem_cons.1 hmembers
      obtain ⟨⟨entries, behind⟩, hentries, heq⟩ := Option.map_eq_some_iff.1 h
      obtain ⟨rfl, rfl⟩ := Prod.mk.inj heq
      rw [List.append_eq, List.append_assoc] at hentries
      obtain ⟨fuel', entry, others, hstands, hothers, rfl⟩ :=
        exists_of_flowPairs? hmember hfirst hentries
      obtain ⟨rfl, hall⟩ := grows_members hlater hrest hothers
      exact ⟨rfl, .object (.cons hstands hall)⟩

/-- A scalar is read from its one token. -/
lemma grows_scalar {source : Source} (h : ∀ tokens, Written source tokens → ∃ style text,
    tokens = [.scalar style text] ∧
      StandsFor source (.scalar none none style text : Tree String)) : Grows handles source := by
  intro tokens htokens block indentless fuel rest rest' tree hread
  obtain ⟨style, text, rfl, hstands⟩ := h tokens htokens
  cases fuel with
  | zero => cases hread
  | succ fuel =>
    obtain ⟨rfl, rfl⟩ := Prod.mk.inj (Option.some.inj hread)
    exact ⟨rfl, hstands⟩

lemma grows (handles : Handles) (source : Source) : Grows handles source := by
  induction source with
  | null => exact grows_scalar fun tokens h => by cases h; exact ⟨_, _, rfl, .null⟩
  | bool b => exact grows_scalar fun tokens h => by cases h; exact ⟨_, _, rfl, .bool b⟩
  | number n =>
    refine grows_scalar fun tokens h => ?_
    cases h with
    | number hword => exact ⟨_, _, rfl, .number hword⟩
  | string quoted =>
    refine grows_scalar fun tokens h => ?_
    cases h with
    | string htext => exact ⟨_, _, rfl, .string htext⟩
  | array items ih => exact grows_array ih
  | object members ih => exact grows_object ih

/-- The document of the tokens of a JSON object is that object. -/
lemma standsFor_of_ofTokens? {members : List (Quoted × Source)} {written : List Token}
    (hwritten : Written (.object members) written) {tree : Tree String}
    (h : ofTokens? (written ++ [.streamEnd]) = some tree) : StandsFor (.object members) tree := by
  have hnode : ofTokens? (written ++ [.streamEnd]) =
      (node? ([] ++ defaultHandles) true false (2 * (written ++ [Token.streamEnd]).length + 2)
        (written ++ [.streamEnd])).bind fun found =>
          if endsStream found.2 then some found.1 else none := by
    cases hwritten
    all_goals
      simp only [ofTokens?, List.cons_append, directives?]
      cases node? _ true false _ _ <;> rfl
  rw [hnode] at h
  obtain ⟨⟨found, rest⟩, hfound, h⟩ := Option.bind_eq_some_iff.1 h
  split_ifs at h
  obtain rfl := Option.some.inj h
  exact (grows _ _ hwritten hfound).2

/-! ### Anchors by number -/

/-- Nothing in the trees of a JSON tree is named, so they stay what they are. -/
def Unnamed (source : Source) : Prop :=
  ∀ ⦃tree : Tree String⦄ ⦃names names' : Names⦄ ⦃numbered : Tree ℕ⦄, StandsFor source tree →
    numberFrom? names tree = some (numbered, names') → names' = names ∧ StandsFor source numbered

lemma unnamed_items {items : List Source} (hitems : ∀ item ∈ items, Unnamed item)
    {trees : List (Tree String)} (hstands : List.Forall₂ StandsFor items trees)
    {names names' : Names} {numbered : List (Tree ℕ)}
    (h : numberItems? names trees = some (numbered, names')) :
    names' = names ∧ List.Forall₂ StandsFor items numbered := by
  induction hstands generalizing numbered with
  | nil =>
    obtain ⟨rfl, rfl⟩ := Prod.mk.inj (Option.some.inj h)
    exact ⟨rfl, .nil⟩
  | @cons item tree items trees hfirst _ ih =>
    obtain ⟨hitem, hlater⟩ := List.forall_mem_cons.1 hitems
    rw [numberItems?] at h
    split at h
    · cases h
    · next first between htree =>
      obtain ⟨rfl, hfirst'⟩ := hitem hfirst htree
      obtain ⟨⟨others, behind⟩, hothers, heq⟩ := Option.map_eq_some_iff.1 h
      obtain ⟨rfl, rfl⟩ := Prod.mk.inj heq
      obtain ⟨rfl, hrest⟩ := ih hlater hothers
      exact ⟨rfl, .cons hfirst' hrest⟩

lemma unnamed_members {members : List (Quoted × Source)}
    (hmembers : ∀ member ∈ members, Unnamed member.2) {entries : List (Tree String × Tree String)}
    (hstands : List.Forall₂ MemberStandsFor members entries)
    {names names' : Names} {numbered : List (Tree ℕ × Tree ℕ)}
    (h : numberEntries? names entries = some (numbered, names')) :
    names' = names ∧ List.Forall₂ MemberStandsFor members numbered := by
  induction hstands generalizing numbered with
  | nil =>
    obtain ⟨rfl, rfl⟩ := Prod.mk.inj (Option.some.inj h)
    exact ⟨rfl, .nil⟩
  | cons hfirst _ ih =>
    obtain ⟨hmember, hlater⟩ := List.forall_mem_cons.1 hmembers
    cases hfirst with
    | mk hkey hvalue =>
      rw [numberEntries?] at h
      split at h
      · cases h
      · next numberedKey between hnumbered =>
        obtain ⟨rfl, rfl⟩ := Prod.mk.inj (Option.some.inj hnumbered)
        split at h
        · cases h
        · next first between htree =>
          obtain ⟨rfl, hfirst⟩ := hmember hvalue htree
          obtain ⟨⟨others, behind⟩, hothers, heq⟩ := Option.map_eq_some_iff.1 h
          obtain ⟨rfl, rfl⟩ := Prod.mk.inj heq
          obtain ⟨rfl, hrest⟩ := ih hlater hothers
          exact ⟨rfl, .cons (.mk hkey hfirst) hrest⟩

lemma unnamed (source : Source) : Unnamed source := by
  -- Only aliases need a name, and what stands for a JSON value has none, at no depth.
  induction source with
  | null =>
    intro tree names names' numbered hstands h
    cases hstands
    obtain ⟨rfl, rfl⟩ := Prod.mk.inj (Option.some.inj h)
    exact ⟨rfl, .null⟩
  | bool b =>
    intro tree names names' numbered hstands h
    cases hstands
    obtain ⟨rfl, rfl⟩ := Prod.mk.inj (Option.some.inj h)
    exact ⟨rfl, .bool b⟩
  | number n =>
    intro tree names names' numbered hstands h
    cases hstands with
    | number hword =>
      obtain ⟨rfl, rfl⟩ := Prod.mk.inj (Option.some.inj h)
      exact ⟨rfl, .number hword⟩
  | string quoted =>
    intro tree names names' numbered hstands h
    cases hstands with
    | string htext =>
      obtain ⟨rfl, rfl⟩ := Prod.mk.inj (Option.some.inj h)
      exact ⟨rfl, .string htext⟩
  | array items ih =>
    intro tree names names' numbered hstands h
    cases hstands with
    | array hitems =>
      obtain ⟨⟨trees, behind⟩, htrees, heq⟩ := Option.map_eq_some_iff.1 h
      obtain ⟨rfl, rfl⟩ := Prod.mk.inj heq
      obtain ⟨rfl, hall⟩ := unnamed_items ih hitems htrees
      exact ⟨rfl, .array hall⟩
  | object members ih =>
    intro tree names names' numbered hstands h
    cases hstands with
    | object hmembers =>
      obtain ⟨⟨entries, behind⟩, hentries, heq⟩ := Option.map_eq_some_iff.1 h
      obtain ⟨rfl, rfl⟩ := Prod.mk.inj heq
      obtain ⟨rfl, hall⟩ := unnamed_members ih hmembers hentries
      exact ⟨rfl, .object hall⟩

end Tree

/-- A JSON object that reads alike is the document that the YAML reader makes of its text. -/
theorem standsFor_of_scan {text : List Char} {members : List (Quoted × Source)}
    {named : Tree String} {document : Document} (hread : Source.read text = some (.object members))
    (halike : (Source.object members).ReadsAlike)
    (hnamed : (Token.scan text).bind Tree.ofTokens? = some named)
    (hdocument : Document.ofNamed? named = some document) :
    StandsFor (.object members) document.root := by
  obtain ⟨tokens, hscan, htree⟩ := Option.bind_eq_some_iff.1 hnamed
  obtain ⟨written, rfl, hwritten⟩ := written_of_scan hread halike hscan
  have hstands := Tree.standsFor_of_ofTokens? hwritten htree
  obtain ⟨⟨root, names⟩, hroot, rfl⟩ := Option.map_eq_some_iff.1 hdocument
  exact (Tree.unnamed _ hstands hroot).2

end Yaml

end SiblingQuery
