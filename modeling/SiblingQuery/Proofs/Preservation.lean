import Mathlib.Data.List.Nodup
import SiblingQuery.Proofs.SerialisedForm
import SiblingQuery.Proofs.Shape

/-!
# What loading keeps of a document

A document that is read as a node can be compared with the serialised form of that node, place by
place.  `Source.Kept` is that comparison: every member of every object of the document stands under
its key in the serialised form, with an equal value, down to the scalars.  It is taken up to members
that may be missing, which depends on the place: what an object is read as is its `Role`.

Three members only say that there is nothing, and these may go: null children and a null position
of a node, and a null offset of a point (`Source.SaysNone`).  Nodes, spans and plain values keep
all others.  Points do not: their unknown keys are dropped as well (`Source.IsLeftOut`), and that
is all that is ever lost (`Node.kept_of_parseJson?`).  A point that is written as an array has no
members; it comes back as an object of the same numbers.
-/

namespace SiblingQuery

namespace Json.Source

/-! ## Places of a document -/

/-- What a place of a document is read as. -/
inductive Role where
  | node
  | children
  | position
  | point
  | value
deriving DecidableEq, Repr

/-- What the value under a key is read as. -/
def Role.under : Role → String → Role
  | .node, key =>
    if key = "children" then .children else if key = "position" then .position else .value
  | .position, key => if Span.isReserved key then .point else .value
  | _, _ => .value

lemma Role.under_node {key : String} (hfree : Node.isReserved key = false) :
    Role.node.under key = .value := by
  obtain ⟨-, hchildren, hposition⟩ := Node.isReserved_eq_false_iff.1 hfree
  rw [under, if_neg hchildren, if_neg hposition]

lemma Role.under_position {key : String} (hfree : Span.isReserved key = false) :
    Role.position.under key = .value := by
  rw [under, hfree]
  rfl

/-- What the items of an array are read as. -/
def Role.item : Role → Role
  | .children => .node
  | _ => .value

/-- The keys that a point has. -/
def isPointKey (key : String) : Bool := key = "line" || key = "column" || key = "offset"

/-- A member that says that there is nothing under its key. -/
def SaysNone : Role → String → Source → Prop
  | .node, key, source => (key = "children" ∨ key = "position") ∧ source = .null
  | .point, key, source => key = "offset" ∧ source = .null
  | _, _, _ => False

/-- A member that is not kept: it says that there is nothing, or its key is unknown to a point. -/
def IsLeftOut (role : Role) (key : String) (source : Source) : Prop :=
  SaysNone role key source ∨ (role = .point ∧ isPointKey key = false)

mutual

/-- No object of the document repeats a key. -/
def hasDistinctKeys : Source → Bool
  | .array items => itemsHaveDistinctKeys items
  | .object members =>
    (members.filterMap fun member => member.1.text?).Nodup && membersHaveDistinctKeys members
  | _ => true
termination_by structural source => source

/-- No object of the items repeats a key. -/
def itemsHaveDistinctKeys : List Source → Bool
  | [] => true
  | item :: items => hasDistinctKeys item && itemsHaveDistinctKeys items
termination_by structural items => items

/-- No object of the members' values repeats a key. -/
def membersHaveDistinctKeys : List (Quoted × Source) → Bool
  | [] => true
  | (_, source) :: members => hasDistinctKeys source && membersHaveDistinctKeys members
termination_by structural members => members

end

lemma hasDistinctKeys_array_iff {items : List Source} :
    (Source.array items).hasDistinctKeys = true ↔ ∀ item ∈ items, item.hasDistinctKeys = true := by
  rw [hasDistinctKeys]
  induction items with
  | nil => simp [itemsHaveDistinctKeys]
  | cons item items ih => simp [itemsHaveDistinctKeys, ih]

lemma hasDistinctKeys_object_iff {members : List (Quoted × Source)} :
    (Source.object members).hasDistinctKeys = true ↔
      (members.filterMap fun member => member.1.text?).Nodup ∧
        ∀ member ∈ members, member.2.hasDistinctKeys = true := by
  have hmembers : membersHaveDistinctKeys members = true ↔
      ∀ member ∈ members, member.2.hasDistinctKeys = true := by
    induction members with
    | nil => simp [membersHaveDistinctKeys]
    | cons member members ih =>
      obtain ⟨key, source⟩ := member
      simp [membersHaveDistinctKeys, ih]
  rw [hasDistinctKeys, Bool.and_eq_true, decide_eq_true_iff, hmembers]

/-- Everything that a document says in some place is still said by a value, except for members that
may be missing. -/
inductive Kept (Missing : Role → String → Source → Prop) : Role → Source → Json → Prop
  | null {role : Role} : Kept Missing role .null .null
  | bool {role : Role} (b : Bool) : Kept Missing role (.bool b) (.bool b)
  | number {role : Role} {numeral : Numeral} {n : Number} (h : Number.ofNumeral? numeral = some n) :
      Kept Missing role (.number numeral) (.num n)
  | string {role : Role} {q : Quoted} {text : String} (h : q.text? = some text) :
      Kept Missing role (.string q) (.str text)
  | array {role : Role} {items : List Source} {values : List Json}
      (hlength : items.length = values.length)
      (hitems : ∀ (i : ℕ) (item : Source) (value : Json), items[i]? = some item →
        values[i]? = some value →
        Kept Missing role.item item value) : Kept Missing role (.array items) (.arr values)
  | object {role : Role} {members : List (Quoted × Source)} {values : List (String × Json)}
      (hpresent : ∀ member ∈ members, ∃ key, member.1.text? = some key ∧
        (Missing role key member.2 ∨ key ∈ Members.keys values))
      (hkept : ∀ member ∈ members, ∀ key value, member.1.text? = some key →
        ¬ Missing role key member.2 → Members.get? key values = some value →
          Kept Missing (role.under key) member.2 value) :
      Kept Missing role (.object members) (.obj values)
  | pair {line column : Source} {values : List (String × Json)} {first second : Json}
      (hfirst : Members.get? "line" values = some first)
      (hsecond : Members.get? "column" values = some second)
      (hline : Kept Missing .value line first) (hcolumn : Kept Missing .value column second) :
      Kept Missing .point (.array [line, column]) (.obj values)
  | triple {line column offset : Source} {values : List (String × Json)} {first second : Json}
      {third : Option Json} (hfirst : Members.get? "line" values = some first)
      (hsecond : Members.get? "column" values = some second)
      (hthird : Members.get? "offset" values = third)
      (hline : Kept Missing .value line first) (hcolumn : Kept Missing .value column second)
      (hnone : third = none → offset = .null)
      (hoffset : ∀ value, third = some value → Kept Missing .value offset value) :
      Kept Missing .point (.array [line, column, offset]) (.obj values)

section Kept

variable {Missing : Role → String → Source → Prop} {role : Role} {key : String}
  {members : List (Quoted × Source)} {values : List (String × Json)}

/-- It is enough to find every member that may not be missing. -/
lemma Kept.of_members (h : ∀ member ∈ members, ∃ key, member.1.text? = some key ∧
    (Missing role key member.2 ∨ ∃ value, Members.get? key values = some value ∧
      Kept Missing (role.under key) member.2 value)) :
    Kept Missing role (.object members) (.obj values) := by
  refine .object ?_ ?_
  · intro member hmember
    obtain ⟨key, hkey, hmissing | ⟨value, hvalue, -⟩⟩ := h member hmember
    · exact ⟨key, hkey, .inl hmissing⟩
    · exact ⟨key, hkey, .inr (Members.key_mem_keys (Members.mem_of_get?_eq_some hvalue))⟩
  · intro member hmember key value hkey hfree hvalue
    obtain ⟨other, hother, hmissing | ⟨same, hsame, hkept⟩⟩ := h member hmember
    · obtain rfl := Option.some.inj (hkey.symm.trans hother)
      exact absurd hmissing hfree
    · obtain rfl := Option.some.inj (hkey.symm.trans hother)
      obtain rfl := Option.some.inj (hvalue.symm.trans hsame)
      exact hkept

/-- A member that is kept is found. -/
lemma Kept.exists_of_object {source : Source} {value : Json} (h : Kept Missing role source value)
    (hsource : source = .object members) {member : Quoted × Source} (hmember : member ∈ members)
    (hkey : member.1.text? = some key) (hfree : ¬ Missing role key member.2) :
    ∃ values content, value = .obj values ∧ Members.get? key values = some content ∧
      Kept Missing (role.under key) member.2 content := by
  cases h <;> cases hsource
  rename_i values hpresent hkept
  obtain ⟨other, hother, hmissing | hmem⟩ := hpresent member hmember
  · obtain rfl := Option.some.inj (hkey.symm.trans hother)
    exact absurd hmissing hfree
  · obtain rfl := Option.some.inj (hkey.symm.trans hother)
    cases hget : Members.get? key values with
    | none => exact absurd hmem (Members.get?_eq_none_iff.1 hget)
    | some content =>
      exact ⟨values, content, rfl, hget, hkept member hmember key content hkey hfree hget⟩

/-- If every item of an array is kept, then so is the array. -/
lemma Kept.of_forall₂ {items : List Source} {contents : List Json}
    (h : List.Forall₂ (Kept Missing role.item) items contents) :
    Kept Missing role (.array items) (.arr contents) := by
  refine .array h.length_eq ?_
  intro i item value hitem hvalue
  obtain ⟨hi, rfl⟩ := List.getElem?_eq_some_iff.1 hitem
  obtain ⟨hi', rfl⟩ := List.getElem?_eq_some_iff.1 hvalue
  exact h.get hi hi'

/-! ## Values -/

lemma kept_of_word? {source : Source} {n : ℕ} (h : source.word? = some n) :
    Kept Missing role source (.ofNat n) := by
  obtain ⟨numeral, rfl, hsign, hinteger, rfl, hle⟩ := word?_eq_some_iff.1 h
  apply Kept.number
  simp [Number.ofNumeral?, hsign, hinteger, hle]

/-- The keys of the answers are those of the members. -/
lemma filterMap_text?_of_forall₂ {R : Quoted × Source → String × Json → Prop}
    {source : List (Quoted × Source)} {answers : List (String × Json)}
    (h : List.Forall₂ R source answers)
    (hkey : ∀ member answer, R member answer → member.1.text? = some answer.1) :
    (source.filterMap fun member => member.1.text?) = Members.keys answers := by
  induction h with
  | nil => rfl
  | @cons member answer source answers hfirst _ ih =>
    have hhead := hkey member answer hfirst
    simp [hhead, ih]

/-- Reading keeps every value in full. -/
lemma kept_of_value? {source : Source} {d : ℕ} {value : Json}
    (hdistinct : source.hasDistinctKeys = true)
    (h : source.value? d = some value) : Kept Missing .value source value := by
  induction source generalizing d value with
  | null =>
    obtain rfl := Option.some.inj h
    exact .null
  | bool b =>
    obtain rfl := Option.some.inj h
    exact .bool b
  | number numeral =>
    obtain ⟨n, hn, rfl⟩ := Option.map_eq_some_iff.1 h
    exact .number hn
  | string q =>
    obtain ⟨text, htext, rfl⟩ := Option.map_eq_some_iff.1 h
    exact .string htext
  | array items ih =>
    obtain ⟨d, values, rfl, hvalues, rfl⟩ := value?_array_eq_some_iff.1 h
    have hitems := hasDistinctKeys_array_iff.1 hdistinct
    apply Kept.of_forall₂
    refine forall₂_imp_of_mem hvalues ?_
    intro item hitem content hcontent
    exact ih item hitem (hitems item hitem) hcontent
  | object members ih =>
    obtain ⟨d, done, rfl, hdone, rfl⟩ := value?_object_eq_some_iff.1 h
    obtain ⟨hkeys, hmembers⟩ := hasDistinctKeys_object_iff.1 hdistinct
    -- sorting loses nothing only because no key stands twice
    have hnodup : (Members.keys done.reverse).Nodup := by
      rw [filterMap_text?_of_forall₂ hdone fun _ _ h => (memberValue?_eq_some_iff.1 h).1] at hkeys
      rw [Members.keys, List.map_reverse]
      exact List.nodup_reverse.2 hkeys
    apply Kept.of_members
    intro member hmember
    obtain ⟨answer, hanswer, hmemberValue⟩ := exists_of_forall₂ hdone.flip member hmember
    obtain ⟨hkey, hcontent⟩ := memberValue?_eq_some_iff.1 hmemberValue
    refine ⟨answer.1, hkey, .inr ⟨answer.2, ?_, ?_⟩⟩
    · rw [Members.get?_sorted]
      exact Members.get?_eq_some_of_mem hnodup (List.mem_reverse.2 hanswer)
    · exact ih member hmember (hmembers member hmember) hcontent

/-! ## The values under a key and their answers -/

/-- A member under a key that has at most one answer has the answer. -/
lemma exists_answer_of_only? {α : Type} {P : Source → α → Prop} {answers : List α}
    {answer : Option α} (h : List.Forall₂ P (under key members) answers)
    (honly : Members.only? answers = some answer) {member : Quoted × Source}
    (hmember : member ∈ members) (hkey : member.1.text? = some key) :
    ∃ a, answer = some a ∧ P member.2 a := by
  have hunder : member.2 ∈ under key members := mem_under_iff.2 ⟨member, hmember, hkey, rfl⟩
  obtain ⟨a, ha, hP⟩ := exists_of_forall₂ h.flip member.2 hunder
  cases answer with
  | none =>
    obtain rfl := Members.only?_eq_some_none.1 honly
    cases ha
  | some b =>
    obtain rfl := Members.only?_eq_some_some.1 honly
    exact ⟨a, by rw [List.mem_singleton.1 ha], hP⟩

/-- If no key repeats, a member stands alone under its key. -/
lemma under_eq_singleton (hdistinct : (members.filterMap fun member => member.1.text?).Nodup)
    {member : Quoted × Source} (hmember : member ∈ members) (hkey : member.1.text? = some key) :
    under key members = [member.2] := by
  induction members with
  | nil => cases hmember
  | cons first members ih =>
    rcases List.mem_cons.1 hmember with rfl | hmember
    · have hrest : ∀ other ∈ members, other.1.text? ≠ some key := by
        intro other hother hsame
        rw [List.filterMap_cons, hkey] at hdistinct
        exact (List.nodup_cons.1 hdistinct).1 (List.mem_filterMap.2 ⟨other, hother, hsame⟩)
      have hnone : members.filter (fun other => other.1.text? = some key) = [] := by
        rw [List.filter_eq_nil_iff]
        intro other hother
        simpa using hrest other hother
      simp [under, hkey, hnone]
    · have hfirst : first.1.text? ≠ some key := by
        intro hsame
        rw [List.filterMap_cons, hsame] at hdistinct
        exact (List.nodup_cons.1 hdistinct).1 (List.mem_filterMap.2 ⟨member, hmember, hkey⟩)
      have hlater : (members.filterMap fun member => member.1.text?).Nodup :=
        hdistinct.sublist ((List.sublist_cons_self first members).filterMap _)
      simpa [under, hfirst] using ih hlater hmember

/-- If no key repeats, every other member is kept with its value. -/
lemma KeepsOthers.get?_eq_some {reserved : String → Bool} {kept : List (String × Json)}
    (h : KeepsOthers reserved members kept)
    (hdistinct : (members.filterMap fun member => member.1.text?).Nodup)
    {member : Quoted × Source} (hmember : member ∈ members) (hkey : member.1.text? = some key)
    (hfree : reserved key = false) {d : ℕ} {value : Json}
    (hvalue : member.2.value? d = some value) :
    Members.get? key kept = some value := by
  have hkeys : key ∈ Members.keys kept := by
    rw [h.keys, List.mem_eraseDups, List.mem_filter]
    exact ⟨List.mem_filterMap.2 ⟨member, hmember, hkey⟩, by rw [hfree]; rfl⟩
  cases hget : Members.get? key kept with
  | none => exact absurd hkeys (Members.get?_eq_none_iff.1 hget)
  | some other =>
    obtain ⟨source, e, hlast, hother⟩ := h.values _ (Members.mem_of_get?_eq_some hget)
    rw [under_eq_singleton hdistinct hmember hkey] at hlast
    obtain rfl : member.2 = source := Option.some.inj hlast
    exact congrArg some (value?_unique hother hvalue)

/-! ## Points, spans and nodes -/

/-- A point keeps its line, its column and its offset, and nothing else. -/
lemma kept_of_point {source : Source} {d : ℕ} {point : Point}
    (h : Point.ofSource? d source = some point) :
    Kept IsLeftOut .point source point.toJson := by
  rw [Point.toJson_eq]
  cases Point.readFrom_of_ofSource? h with
  | object hentries hpoint =>
    obtain ⟨hlines, hcolumns, hoffsets⟩ := forall₂_pointEntries hentries
    obtain ⟨hline, hcolumn, offset, hoffset, hjoin⟩ := Point.ofEntries?_eq_some_iff.1 hpoint
    -- each member is found again under its own key, or is one of those that are left out
    apply Kept.of_members
    intro member hmember
    obtain ⟨entry, -, hentry⟩ := exists_of_forall₂ hentries.flip member hmember
    cases Point.says_of_entryOfSource? hentry with
    | line hkey =>
      obtain ⟨n, hn, hword⟩ := exists_answer_of_only? hlines hline hmember hkey
      obtain rfl := Option.some.inj hn
      exact ⟨"line", hkey, .inr ⟨_, Point.get?_line _, kept_of_word? hword⟩⟩
    | column hkey =>
      obtain ⟨n, hn, hword⟩ := exists_answer_of_only? hcolumns hcolumn hmember hkey
      obtain rfl := Option.some.inj hn
      exact ⟨"column", hkey, .inr ⟨_, Point.get?_column _, kept_of_word? hword⟩⟩
    | offset hkey =>
      obtain ⟨answer, rfl, hanswer⟩ := exists_answer_of_only? hoffsets hoffset hmember hkey
      refine ⟨"offset", hkey, ?_⟩
      rcases offset?_cases hanswer with ⟨hnull, -⟩ | ⟨n, rfl, hword⟩
      · exact .inl (.inl ⟨rfl, hnull⟩)
      · refine .inr ⟨_, ?_, kept_of_word? hword⟩
        rw [Point.get?_offset, ← hjoin]
        rfl
    | @other key hkey hline hcolumn hoffset =>
      refine ⟨key, hkey, .inl (.inr ⟨rfl, ?_⟩)⟩
      simp [isPointKey, hline, hcolumn, hoffset]
  | pair hline hcolumn =>
    exact .pair (Point.get?_line _) (Point.get?_column _) (kept_of_word? hline)
      (kept_of_word? hcolumn)
  | triple hline hcolumn hoffset =>
    refine .triple (Point.get?_line _) (Point.get?_column _) (Point.get?_offset _)
      (kept_of_word? hline) (kept_of_word? hcolumn) ?_ ?_
    · intro hnone
      rcases offset?_cases hoffset with ⟨hnull, -⟩ | ⟨n, rfl, -⟩
      · exact hnull
      · cases hnone
    · intro value hvalue
      rcases offset?_cases hoffset with ⟨-, rfl⟩ | ⟨n, rfl, hword⟩
      · cases hvalue
      · obtain rfl := Option.some.inj hvalue
        exact kept_of_word? hword

/-- A span keeps everything but the unknown keys of its points. -/
lemma kept_of_span {source : Source} {d : ℕ} {span : Span}
    (hdistinct : source.hasDistinctKeys = true)
    (h : Span.ofSource? d source = some (some span)) :
    Kept IsLeftOut .position source span.toJson := by
  rw [Span.toJson_eq]
  rcases Span.ofSource?_cases h with
    ⟨-, hnone⟩ | ⟨members, e, entries, found, rfl, -, hentries, hspan, hfound⟩
  · cases hnone
  obtain rfl := Option.some.inj hfound
  obtain ⟨hstarts, hstops, hextra⟩ := forall₂_spanEntries hentries
  obtain ⟨hstart, hstop, hsettled⟩ := Span.ofEntries?_eq_some_iff.1 hspan
  rw [hsettled] at hextra
  obtain ⟨hkeys, hmembers⟩ := hasDistinctKeys_object_iff.1 hdistinct
  -- the two ends stand under keys of their own, and everything else is an extra key
  apply Kept.of_members
  intro member hmember
  obtain ⟨entry, -, hentry⟩ := exists_of_forall₂ hentries.flip member hmember
  cases Span.says_of_entryOfSource? hentry with
  | start hkey =>
    obtain ⟨point, hfirst, hpoint⟩ := exists_answer_of_only? hstarts hstart hmember hkey
    obtain rfl := Option.some.inj hfirst
    exact ⟨"start", hkey, .inr ⟨_, Span.get?_start _, kept_of_point hpoint⟩⟩
  | stop hkey =>
    obtain ⟨point, hlast, hpoint⟩ := exists_answer_of_only? hstops hstop hmember hkey
    obtain rfl := Option.some.inj hlast
    exact ⟨"end", hkey, .inr ⟨_, Span.get?_stop _, kept_of_point hpoint⟩⟩
  | @extra key value hkey hfree hvalue =>
    have hget := hextra.get?_eq_some hkeys hmember hkey hfree hvalue
    refine ⟨key, hkey, .inr ⟨value, (Span.get?_extra hfree).trans hget, ?_⟩⟩
    rw [Role.under_position hfree]
    exact kept_of_value? (hmembers member hmember) hvalue

lemma eq_null_of_childrenOfSource? {source : Source} {d : ℕ}
    (h : Node.childrenOfSource? d source = some none) : source = .null := by
  cases source with
  | null => rfl
  | array items =>
    obtain ⟨_, _, -, -, hnone⟩ := Node.childrenOfSource?_array_eq_some_iff.1 h
    cases hnone
  | _ => cases h

/-- A node keeps what its members say, if the children lists among them are kept. -/
lemma kept_of_nodeMembers {d : ℕ} {node : Node}
    (hdistinct : (Source.object members).hasDistinctKeys = true)
    (h : Node.ofSource? d (.object members) = some node)
    (hkept : ∀ member ∈ members, ∀ {e : ℕ} {nodes : List Node},
      Node.childrenOfSource? e member.2 = some (some nodes) →
        Kept IsLeftOut .children member.2 (.arr (Node.listToJson nodes))) :
    Kept IsLeftOut .node (.object members) node.toJson := by
  have hwell := (Node.wellFormed_of_source (.object members)).1 h
  obtain ⟨d, entries, rfl, hentries, hnode⟩ := Node.ofSource?_object_eq_some_iff.1 h
  obtain ⟨hkinds, hlists, hspans, hfields⟩ := forall₂_nodeEntries hentries
  obtain ⟨kind, children, position, hkind, hchildren, hposition, rfl⟩ :=
    Node.ofEntries?_eq_some_iff.1 hnode
  obtain ⟨hkeys, hmembers⟩ := hasDistinctKeys_object_iff.1 hdistinct
  rw [Node.toJson_eq]
  -- what a member says decides where it is found again, so the cases are those of `Says`
  apply Kept.of_members
  intro member hmember
  obtain ⟨entry, -, hentry⟩ := exists_of_forall₂ hentries.flip member hmember
  cases Node.says_of_entryOfSource? hentry with
  | kind hkey =>
    obtain ⟨name, rfl, q, hq, hname⟩ := exists_answer_of_only? hkinds hkind hmember hkey
    refine ⟨"type", hkey, .inr ⟨_, hwell.get?_members "type", ?_⟩⟩
    rw [hq]
    exact .string hname
  | children hkey =>
    obtain ⟨answer, rfl, hanswer⟩ := exists_answer_of_only? hlists hchildren hmember hkey
    refine ⟨"children", hkey, ?_⟩
    cases answer with
    | none => exact .inl (.inl ⟨.inl rfl, eq_null_of_childrenOfSource? hanswer⟩)
    | some nodes =>
      exact .inr ⟨_, hwell.get?_members "children", hkept member hmember hanswer⟩
  | position hkey =>
    obtain ⟨answer, rfl, hanswer⟩ := exists_answer_of_only? hspans hposition hmember hkey
    refine ⟨"position", hkey, ?_⟩
    rcases Span.ofSource?_cases hanswer with ⟨hnull, -⟩ | ⟨-, -, -, span, -, -, -, -, rfl⟩
    · exact .inl (.inl ⟨.inr rfl, hnull⟩)
    · exact .inr ⟨_, hwell.get?_members "position",
        kept_of_span (hmembers member hmember) hanswer⟩
  | @field key value hkey hfree hvalue =>
    have hget := hfields.get?_eq_some hkeys hmember hkey hfree hvalue
    refine ⟨key, hkey, .inr ⟨value, (hwell.get?_field hfree).trans hget, ?_⟩⟩
    rw [Role.under_node hfree]
    exact kept_of_value? (hmembers member hmember) hvalue

/-- A node keeps everything but the unknown keys of its points, and so does a children list. -/
lemma kept_of_source (source : Source) (hdistinct : source.hasDistinctKeys = true) :
    (∀ {d : ℕ} {node : Node}, Node.ofSource? d source = some node →
      Kept IsLeftOut .node source node.toJson) ∧
    ∀ {d : ℕ} {nodes : List Node}, Node.childrenOfSource? d source = some (some nodes) →
      Kept IsLeftOut .children source (.arr (Node.listToJson nodes)) := by
  induction source with
  | null => exact ⟨nofun, nofun⟩
  | bool b => exact ⟨nofun, nofun⟩
  | number n => exact ⟨nofun, nofun⟩
  | string q => exact ⟨nofun, nofun⟩
  | array items ih =>
    refine ⟨nofun, fun {d nodes} h => ?_⟩
    obtain ⟨d, found, rfl, hfound, hsame⟩ := Node.childrenOfSource?_array_eq_some_iff.1 h
    obtain rfl := Option.some.inj hsame
    have hitems := hasDistinctKeys_array_iff.1 hdistinct
    rw [Node.listToJson_eq_map]
    apply Kept.of_forall₂
    rw [List.forall₂_map_right_iff]
    refine forall₂_imp_of_mem hfound ?_
    intro item hitem node hnode
    exact (ih item hitem (hitems item hitem)).1 hnode
  | object members ih =>
    have hmembers := (hasDistinctKeys_object_iff.1 hdistinct).2
    refine ⟨fun h => kept_of_nodeMembers hdistinct h ?_, nofun⟩
    intro member hmember e nodes hnodes
    exact (ih member hmember (hmembers member hmember)).2 hnodes

end Kept

end Json.Source

namespace Node

open Json

/-- What loading keeps, of every JSON document in which no object repeats a key: every member of
every object is still there in the serialised form, at the same place, under the same key and with
an equal value, unless it says that there is nothing or is an unknown key of a point. -/
theorem kept_of_parseJson? {text : String} {source : Source} {node : Node}
    (hread : Source.read text.toList = some source) (hnode : parseJson? text = some node)
    (hdistinct : source.hasDistinctKeys = true) :
    source.Kept Source.IsLeftOut .node node.toJson := by
  rw [parseJson?, hread] at hnode
  exact (Source.kept_of_source source hdistinct).1 hnode

/-- A node with a nested value, null children and an extra key of its position, one of whose points
is an array, while the other has a null offset and an unknown key. -/
theorem kept_of_parseJson?_nested :
    let count (digit : Char) : Source := .number ⟨false, [digit], none, none⟩
    let data : Source := .object [(Quoted.ofText "b", .array [count '1', .null]),
      (Quoted.ofText "a", .string (Quoted.ofText "t"))]
    let stop : Source := .object [(Quoted.ofText "byte", count '7'),
      (Quoted.ofText "line", count '1'), (Quoted.ofText "column", count '3'),
      (Quoted.ofText "offset", .null)]
    let source : Source := .object [(Quoted.ofText "data", data), (Quoted.ofText "children", .null),
      (Quoted.ofText "position", .object [(Quoted.ofText "indent", .array []),
        (Quoted.ofText "start", .array [count '1', count '2']), (Quoted.ofText "end", stop)])]
    let text := "\x7b\"data\":\x7b\"b\":[1,null],\"a\":\"t\"\x7d,\"children\":null,\"position\":" ++
      "\x7b\"indent\":[],\"start\":[1,2],\"end\":" ++
      "\x7b\"byte\":7,\"line\":1,\"column\":3,\"offset\":null\x7d\x7d\x7d"
    Source.read text.toList = some source ∧ source.hasDistinctKeys = true ∧
      ∃ node, parseJson? text = some node ∧ source.Kept Source.IsLeftOut .node node.toJson := by
  intro count data stop source text
  have hread : Source.read text.toList = some source := Source.read_of_scan (by decide +kernel)
  have hdistinct : source.hasDistinctKeys = true := by decide +kernel
  obtain ⟨node, hnode⟩ : ∃ node, parseJson? text = some node :=
    Option.isSome_iff_exists.1 (by decide +kernel)
  exact ⟨hread, hdistinct, node, hnode, kept_of_parseJson? hread hnode hdistinct⟩

/-- More is lost than what says that there is nothing: the key `byte` of a point is. -/
theorem not_kept_of_parseJson?_byte :
    ¬ ∀ (text : String) (source : Source) (node : Node), Source.read text.toList = some source →
      parseJson? text = some node → source.hasDistinctKeys = true →
        source.Kept Source.SaysNone .node node.toJson := by
  intro h
  let count (digit : Char) : Source := .number ⟨false, [digit], none, none⟩
  let start : Source := .object [(Quoted.ofText "line", count '1'),
    (Quoted.ofText "column", count '1'), (Quoted.ofText "byte", count '7')]
  let stop : Source :=
    .object [(Quoted.ofText "line", count '1'), (Quoted.ofText "column", count '2')]
  let position : Source := .object [(Quoted.ofText "start", start), (Quoted.ofText "end", stop)]
  let source : Source := .object [(Quoted.ofText "type", .string (Quoted.ofText "text")),
    (Quoted.ofText "position", position)]
  let text := "\x7b\"type\":\"text\",\"position\":" ++
    "\x7b\"start\":\x7b\"line\":1,\"column\":1,\"byte\":7\x7d," ++
    "\"end\":\x7b\"line\":1,\"column\":2\x7d\x7d\x7d"
  have hread : Source.read text.toList = some source := Source.read_of_scan (by decide +kernel)
  have hstart : (parseJson? text).bind (fun node => node.position.map Span.start) =
      some ⟨1, 1, none⟩ := by decide +kernel
  obtain ⟨node, hnode, hspan⟩ := Option.bind_eq_some_iff.1 hstart
  obtain ⟨span, hposition, hpoint⟩ := Option.map_eq_some_iff.1 hspan
  -- The places of the document are followed down to the point, where nothing stands under `byte`.
  have hnodeKept := h text source node hread hnode (by decide +kernel)
  have hpositionMember : (Quoted.ofText "position", position) ∈
      [(Quoted.ofText "type", Source.string (Quoted.ofText "text")),
        (Quoted.ofText "position", position)] := by simp
  obtain ⟨values, content, hvalues, hget, hspanKept⟩ := hnodeKept.exists_of_object rfl
    hpositionMember (Quoted.text?_ofText "position") (by rintro ⟨-, ⟨⟩⟩)
  obtain rfl := Json.obj.inj ((toJson_eq node).symm.trans hvalues)
  rw [(wellFormed_of_parseJson? hnode).get?_members, hposition] at hget
  obtain rfl : span.toJson = content := Option.some.inj hget
  have hstartMember : (Quoted.ofText "start", start) ∈
      [(Quoted.ofText "start", start), (Quoted.ofText "end", stop)] := by simp
  obtain ⟨values, content, hvalues, hget, hpointKept⟩ := hspanKept.exists_of_object rfl
    hstartMember (Quoted.text?_ofText "start") id
  obtain rfl : span.members = values := Json.obj.inj hvalues
  obtain rfl : span.start.toJson = content := Option.some.inj hget
  have hbyteMember : (Quoted.ofText "byte", count '7') ∈
      [(Quoted.ofText "line", count '1'), (Quoted.ofText "column", count '1'),
        (Quoted.ofText "byte", count '7')] := by simp
  obtain ⟨values, content, hvalues, hget, -⟩ := hpointKept.exists_of_object rfl
    hbyteMember (Quoted.text?_ofText "byte") (by
      rintro ⟨hkey, -⟩
      exact absurd hkey (by decide))
  rw [hpoint] at hvalues
  obtain rfl : (Point.mk 1 1 none).members = values := Json.obj.inj hvalues
  cases hget

end Node

end SiblingQuery
