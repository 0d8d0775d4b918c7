import Mathlib.Data.List.Basic
import SiblingQuery.Files.Saving
import SiblingQuery.Proofs.GzipRoundTrip
import SiblingQuery.Proofs.Pieces

/-!
# A text is saved whole or not at all

Saving goes through four steps: a fresh file is created, it is filled, its text may have to be
compressed to the end, and it takes the place of its target.  On a `Medium` each of them may fail,
and the fresh file is then either removed at once or still owned by the failure.

The steps change the store at two addresses only, the fresh file's and the target's.  What a
sequence of `put`, `erase` and `rename` at these two comes to is settled first; then `saveOn_cases`
lists every way in which saving can end, once, and what a reader of the store sees follows from it.

A medium is sound if a fresh file gets a name that is not in use and if its gzip members hold what
was compressed.  `Medium.reliable`, the medium of `Store.saveText`, is sound.
-/

namespace SiblingQuery

namespace Store

variable {store : Store} {address other : Address} {item : Item}

/-! ## Entries of a store -/

lemma ne_nil_of_get?_eq_none (h : store.get? address = none) : address ≠ [] := by
  rintro rfl
  simp [get?] at h

lemma get?_put (h : address ≠ []) : (store.put address item).get? address = some item := by
  have hnone : (store.entries.filter (·.1 ≠ address)).find? (·.1 = address) = none := by
    rw [List.find?_eq_none]
    intro entry hentry
    simpa using (List.mem_filter.1 hentry).2
  rw [get?, put, if_neg h, List.find?_append, hnone]
  simp

/-- Putting an entry changes nothing at another address. -/
lemma get?_put_of_ne (h : other ≠ address) :
    (store.put address item).get? other = store.get? other := by
  have hfind : (store.entries.filter (·.1 ≠ address)).find? (·.1 = other) =
      store.entries.find? (·.1 = other) := by
    rw [List.find?_filter]
    congr 1
    funext entry
    by_cases hentry : entry.1 = other <;> simp [hentry, h]
  rw [get?, get?, put, List.find?_append, hfind]
  simp [h.symm]

/-- An address without an entry has nothing to remove. -/
lemma erase_eq_self (h : store.get? address = none) : store.erase address = store := by
  have hne := ne_nil_of_get?_eq_none h
  have hnone : ∀ entry ∈ store.entries, entry.1 ≠ address := by
    simpa [get?, hne] using h
  rw [erase, List.filter_eq_self.2 fun entry hentry => by simpa using hnone entry hentry]

lemma erase_put : (store.put address item).erase address = store.erase address := by
  simp [erase, put, List.filter_append]

lemma put_put {last : Item} :
    (store.put address item).put address last = store.put address last := by
  simp [put, List.filter_append]

/-- A file that was put at an unused address and then moved might as well have been put where it was
moved to. -/
lemma rename_put (h : store.get? address = none) :
    (store.put address item).rename address other = store.put other item := by
  rw [rename, get?_put (ne_nil_of_get?_eq_none h)]
  show ((store.put address item).erase address).put other item = _
  rw [erase_put, erase_eq_self h]

/-! ## Paths into a store -/

@[simp] lemma start_put (path : String) : (store.put address item).start path = store.start path :=
  rfl

/-- A walk meets directories only, so an entry that is put where none was does not disturb it. -/
lemma follow?_put (h : store.get? address ≠ some .directory) {start there : Address}
    {names : List String} (hfollow : store.follow? start names = some there) :
    (store.put address item).follow? start names = some there := by
  induction names generalizing start with
  | nil => simpa [follow?] using hfollow
  | cons name names ih =>
    rw [follow?] at hfollow ⊢
    cases hstart : store.get? start with
    | none => simp [hstart] at hfollow
    | some found =>
      cases found with
      | file octets => simp [hstart] at hfollow
      | directory =>
        have hne : start ≠ address := by
          rintro rfl
          exact h hstart
        rw [get?_put_of_ne hne]
        simp only [hstart] at hfollow ⊢
        exact ih hfollow

/-- A walk to a directory goes on to the entries in it. -/
lemma follow?_concat {start directory : Address} {names : List String} {name : String}
    (hfollow : store.follow? start names = some directory)
    (hdirectory : store.get? directory = some .directory) (hname : name ≠ "..") :
    store.follow? start (names ++ [name]) = some (directory ++ [name]) := by
  induction names generalizing start with
  | nil =>
    obtain rfl : start = directory := Option.some.inj hfollow
    simp [follow?, hdirectory, hname]
  | cons first names ih =>
    rw [List.cons_append, follow?]
    rw [follow?] at hfollow
    cases hstart : store.get? start with
    | none => simp [hstart] at hfollow
    | some found =>
      cases found with
      | file octets => simp [hstart] at hfollow
      | directory =>
        simp only [hstart] at hfollow ⊢
        exact ih hfollow

end Store

namespace Store

variable {store : Store} {directory target : Address} {path : String} {item : Item}

lemma target?_eq_some_iff : store.target? directory path = some target ↔
    (PathText.needsDirectory path = false ∧ PathText.isTooLong path = false) ∧
      ∃ name, PathText.fileName? path = some name ∧ target = directory ++ [name] ∧
        PathText.isEntryName name = true ∧ store.get? target ≠ some .directory := by
  rw [target?]
  cases hneeds : PathText.needsDirectory path <;> cases hlong : PathText.isTooLong path <;>
    cases hname : PathText.fileName? path <;> simp
  constructor
  · rintro ⟨hlegal, rfl⟩
    exact ⟨rfl, hlegal⟩
  · rintro ⟨rfl, hlegal⟩
    exact ⟨hlegal, rfl⟩

/-- A target depends on the store only through the directories in it. -/
lemma target?_put_file {fresh : Address} (h : store.get? fresh = none) {octets : List UInt8} :
    (store.put fresh (.file octets)).target? directory path = store.target? directory path := by
  have hdirectory (other : Address) :
      (store.put fresh (.file octets)).get? other = some .directory ↔
        store.get? other = some .directory := by
    by_cases hother : other = fresh
    · rw [hother, get?_put (ne_nil_of_get?_eq_none h), h]
      simp
    · rw [get?_put_of_ne hother]
  rw [target?, target?]
  simp only [ne_eq, hdirectory]

/-- A target's directory is the one that the names before the last lead to. -/
lemma follow?_of_targetDirectory? (hdirectory : store.targetDirectory? path = some directory)
    (hnames : PathText.names path ≠ []) :
    store.follow? (store.start path) (PathText.names path).dropLast = some directory ∧
      store.get? directory = some .directory := by
  rw [targetDirectory?] at hdirectory
  simp only [if_neg hnames] at hdirectory
  split_ifs at hdirectory with hroom
  split at hdirectory
  · next found hfollow =>
    split_ifs at hdirectory with hfound
    obtain rfl := Option.some.inj hdirectory
    exact ⟨hfollow, hfound⟩
  · cases hdirectory

/-- What is put at a path's target is what the path then leads to. -/
lemma find?_put_target (hdirectory : store.targetDirectory? path = some directory)
    (htarget : store.target? directory path = some target) (octets : List UInt8) :
    (store.put target (.file octets)).find? path = some (target, .file octets) := by
  obtain ⟨⟨hneeds, hlong⟩, name, hname, rfl, -, hnot⟩ := target?_eq_some_iff.1 htarget
  have hempty : path ≠ "" := by
    rintro rfl
    simp [PathText.needsDirectory, PathText.pieces, Text.splitOn] at hneeds
  have hlast : (PathText.names path).getLast? = some name ∧ name ≠ ".." := by
    rw [PathText.fileName?] at hname
    split at hname
    · split_ifs at hname with hup
      obtain rfl := Option.some.inj hname
      exact ⟨‹_›, hup⟩
    · cases hname
  have hnames : (PathText.names path).dropLast ++ [name] = PathText.names path :=
    List.dropLast_append_getLast? name hlast.1
  have hne : PathText.names path ≠ [] := by
    intro hnil
    simp [hnil] at hlast
  obtain ⟨hfollow, hfound⟩ := follow?_of_targetDirectory? hdirectory hne
  -- nothing on the way changes, since the target is the last name of the path
  have hlead : (store.put (directory ++ [name]) (.file octets)).follow? (store.start path)
      (PathText.names path) = some (directory ++ [name]) := by
    have hbefore : (store.put (directory ++ [name]) (.file octets)).follow? (store.start path)
        (PathText.names path).dropLast = some directory := follow?_put hnot hfollow
    rw [← hnames]
    apply follow?_concat hbefore _ hlast.2
    rwa [get?_put_of_ne (by simp)]
  rw [find?, if_neg (by simp [hempty, hlong]), start_put, hlead]
  have hitem : (store.put (directory ++ [name]) (.file octets)).get? (directory ++ [name]) =
      some (.file octets) := get?_put (by simp)
  simp only [hitem, hneeds]
  rfl

end Store

/-! ## The steps of saving -/

namespace Medium

/-- What is expected of a medium: the name of a fresh file is not in use, and a gzip member holds
what was compressed. -/
structure IsSound (medium : Medium) : Prop where
  unused : ∀ store directory name, medium.freshName? store directory = some name →
    store.get? (directory ++ [name]) = none
  decompress?_compress : ∀ octets, Gzip.decompress? (medium.compress octets) = some octets

/-- The medium on which no step fails is sound. -/
lemma isSound_reliable : reliable.IsSound where
  unused store directory name hname := by
    simpa using List.find?_some hname
  decompress?_compress := Gzip.decompress?_compress

variable {medium : Medium} {store : Store} {directory fresh : Address} {path text : String}

lemma freshFile?_eq_some_iff : medium.freshFile? store path = some (directory, fresh) ↔
    store.targetDirectory? path = some directory ∧
      ∃ name, medium.freshName? store directory = some name ∧ fresh = directory ++ [name] := by
  rw [freshFile?]
  cases store.targetDirectory? path with
  | none => simp
  | some found =>
    simp only [Option.map_eq_some_iff, Prod.mk.injEq, Option.some.injEq]
    constructor
    · rintro ⟨name, hname, rfl, rfl⟩
      exact ⟨rfl, name, hname, rfl⟩
    · rintro ⟨rfl, name, hname, rfl⟩
      exact ⟨name, hname, rfl, rfl⟩

/-- A fresh file that takes its target's place might as well have been put there. -/
lemma moved?_put {octets : List UInt8} (h : store.get? fresh = none) :
    medium.moved? (store.put fresh (.file octets)) directory fresh path =
      if medium.moves then (store.target? directory path).map (store.put · (.file octets))
      else none := by
  have hrename : (store.put fresh (.file octets)).rename fresh = (store.put · (.file octets)) := by
    funext target
    exact Store.rename_put h
  rw [moved?, Store.target?_put_file h, hrename]

/-- What is written in full: the text itself, or a gzip member that holds it. -/
lemma eq_of_written {octets : List UInt8} (h : medium.written path text = (octets, none)) :
    octets = if path.endsWith ".gz" then medium.compress (Utf8.encode text)
      else Utf8.encode text := by
  rw [written] at h
  split_ifs at h ⊢
  · split at h <;> simp_all
  · split at h <;> simp_all

end Medium

/-! ## The outcome of saving -/

namespace Store

/-- Every way in which saving can end.  Up to the last step the fresh file is removed on the spot;
the failure of the last step still owns it. -/
lemma saveOn_cases {medium : Medium} (hmedium : medium.IsSound) (store : Store)
    (path text : String) :
    (∃ error, store.saveOn medium path text = (.error ⟨error, none⟩, store)) ∨
    (∃ fresh octets, store.get? fresh = none ∧
      store.saveOn medium path text =
        (.error ⟨.noTarget, some fresh⟩, store.put fresh (.file octets))) ∨
    (∃ directory target octets, store.targetDirectory? path = some directory ∧
      store.target? directory path = some target ∧
      medium.written path text = (octets, none) ∧
      store.saveOn medium path text = (.ok (), store.put target (.file octets))) := by
  -- the steps in their order: the fresh file, its content, and the move to the target
  cases hfresh : medium.freshFile? store path with
  | none =>
    left
    exact ⟨.noDirectory, by rw [saveOn, hfresh]⟩
  | some place =>
    obtain ⟨directory, fresh⟩ := place
    obtain ⟨hdirectory, name, hname, rfl⟩ := Medium.freshFile?_eq_some_iff.1 hfresh
    have hunused := hmedium.unused store directory name hname
    rcases hwritten : medium.written path text with ⟨octets, error?⟩
    cases error? with
    | some error =>
      left
      refine ⟨error, ?_⟩
      rw [saveOn, hfresh]
      simp only [hwritten, put_put, erase_put, erase_eq_self hunused]
    | none =>
      right
      cases hmoved : (if medium.moves then
          (store.target? directory path).map (store.put · (.file octets)) else none) with
      | none =>
        left
        refine ⟨directory ++ [name], octets, hunused, ?_⟩
        rw [saveOn, hfresh]
        simp only [hwritten, put_put, Medium.moved?_put hunused, hmoved]
      | some after =>
        right
        have hsave : store.saveOn medium path text = (.ok (), after) := by
          rw [saveOn, hfresh]
          simp only [hwritten, put_put, Medium.moved?_put hunused, hmoved]
        split_ifs at hmoved
        obtain ⟨target, htarget, rfl⟩ := Option.map_eq_some_iff.1 hmoved
        exact ⟨directory, target, octets, hdirectory, htarget, rfl, hsave⟩

/-- Saving is all or nothing, on every sound medium.  If it succeeds, the path leads to a file with
exactly the text, or with a gzip member that holds it, and every other address is as before, so that
no fresh file is left either.  If it fails, at whatever step, then the store is as it was as soon as
the failure has been released. -/
theorem saveOn_all_or_nothing {medium : Medium} (hmedium : medium.IsSound) (store : Store)
    (path text : String) :
    (∀ after, store.saveOn medium path text = (.ok (), after) →
      ∃ target octets, after.find? path = some (target, .file octets) ∧
        (path.endsWith ".gz" = false → octets = Utf8.encode text) ∧
        (path.endsWith ".gz" = true → octets = medium.compress (Utf8.encode text) ∧
          Gzip.decompress? octets = some (Utf8.encode text)) ∧
        ∀ other, other ≠ target → after.get? other = store.get? other) ∧
    (∀ failure after, store.saveOn medium path text = (.error failure, after) →
      failure.release after = store) := by
  rcases saveOn_cases hmedium store path text with
    ⟨error, hsave⟩ | ⟨fresh, octets, hunused, hsave⟩ |
    ⟨directory, target, octets, hdirectory, htarget, hwritten, hsave⟩
  · constructor
    · intro after h
      rw [hsave] at h
      cases h
    · intro failure after h
      rw [hsave] at h
      cases h
      rfl
  · constructor
    · intro after h
      rw [hsave] at h
      cases h
    · intro failure after h
      rw [hsave] at h
      cases h
      show (store.put fresh (.file octets)).erase fresh = store
      rw [erase_put, erase_eq_self hunused]
  · constructor
    · intro after h
      rw [hsave] at h
      cases h
      have hoctets := Medium.eq_of_written hwritten
      refine ⟨target, octets, find?_put_target hdirectory htarget octets, ?_, ?_, ?_⟩
      · intro hplain
        rw [hoctets, hplain]
        rfl
      · intro hgzip
        rw [hgzip, if_pos rfl] at hoctets
        exact ⟨hoctets, hoctets ▸ hmedium.decompress?_compress _⟩
      · intro other hother
        exact get?_put_of_ne hother
    · intro failure after h
      rw [hsave] at h
      cases h

/-- Under an absolute path, a text takes the place of an older file and leaves its neighbour alone.
Where files cannot be moved, it gets no further than to a fresh file beside both; the failure owns
that one, and releasing it removes that one only.  So it is under a path out of the working
directory. -/
theorem saveOn_all_or_nothing_replaced :
    let before : Store :=
      ⟨[(["tmp"], .directory), (["tmp", "out.json"], .file [1]), (["tmp", "keep"], .file [2]),
        (["work"], .directory)], ["work"]⟩
    let stuck : Medium := { Medium.reliable with moves := false }
    Medium.reliable.IsSound ∧ stuck.IsSound ∧
      (∃ after, before.saveOn .reliable "/tmp/out.json" "[]" = (.ok (), after) ∧
        (∃ target, after.find? "/tmp/out.json" = some (target, .file (Utf8.encode "[]"))) ∧
        after.get? ["tmp", "keep"] = some (.file [2])) ∧
      ∃ failure after, before.saveOn stuck "../tmp/out.json" "[]" = (.error failure, after) ∧
        after.get? ["tmp", ".tmp0"] = some (.file (Utf8.encode "[]")) ∧
        failure.release after = before := by
  intro before stuck
  have hsound : stuck.IsSound :=
    ⟨Medium.isSound_reliable.unused, Medium.isSound_reliable.decompress?_compress⟩
  have hsaved : before.saveOn .reliable "/tmp/out.json" "[]" =
      (.ok (), before.put ["tmp", "out.json"] (.file (Utf8.encode "[]"))) := by decide +kernel
  have hstuck : before.saveOn stuck "../tmp/out.json" "[]" =
      (.error ⟨.noTarget, some ["tmp", ".tmp0"]⟩,
        before.put ["tmp", ".tmp0"] (.file (Utf8.encode "[]"))) := by
    decide +kernel
  refine ⟨Medium.isSound_reliable, hsound, ⟨_, hsaved, ?_, rfl⟩, ⟨_, _, hstuck, rfl, ?_⟩⟩
  · obtain ⟨target, octets, hfound, hplain, -, -⟩ :=
      (saveOn_all_or_nothing Medium.isSound_reliable before "/tmp/out.json" "[]").1 _ hsaved
    have hoctets := hplain (by decide +kernel)
    exact ⟨target, hoctets ▸ hfound⟩
  · exact (saveOn_all_or_nothing hsound before "../tmp/out.json" "[]").2 _ _ hstuck

end Store

end SiblingQuery
