import TypeStub.Config
import TypeStub.Proofs.Text.EditDistance

/-!
Contract: which known key is suggested for an unknown one.

Owns:
- `ConfigKey.IsNearestIn`, the first of the keys that a text is nearest to;
- what is reported about the keys of a table: `Config.editDistance_decides_suggestions`.
-/

namespace TypeStub

open Text

namespace ConfigKey

variable {text : String} {keys : List ConfigKey} {key other : ConfigKey}

/-! ## The nearest key -/

/-- The key is the first one in the list at the least distance to the text. -/
def IsNearestIn (text : String) (keys : List ConfigKey) (key : ConfigKey) : Prop :=
  ∃ before after, keys = before ++ key :: after ∧
    (∀ other ∈ before, key.distance text < other.distance text) ∧
    ∀ other ∈ after, key.distance text ≤ other.distance text

theorem IsNearestIn.distance_le (nearest : IsNearestIn text keys key) (member : other ∈ keys) :
    key.distance text ≤ other.distance text := by
  obtain ⟨before, after, rfl, ofBefore, ofAfter⟩ := nearest
  rcases List.mem_append.mp member with inBefore | behind
  · exact Nat.le_of_lt (ofBefore other inBefore)
  · rcases List.mem_cons.mp behind with rfl | inAfter
    · exact Nat.le_refl _
    · exact ofAfter other inAfter

theorem IsNearestIn.mem (nearest : IsNearestIn text keys key) : key ∈ keys := by
  obtain ⟨before, after, rfl, -⟩ := nearest
  simp

theorem IsNearestIn.unique (nearest : IsNearestIn text keys key)
    (otherNearest : IsNearestIn text keys other) : key = other := by
  have below := nearest.distance_le otherNearest.mem
  have above := otherNearest.distance_le nearest.mem
  obtain ⟨before, after, rfl, ofBefore, -⟩ := nearest
  obtain ⟨otherBefore, otherAfter, same, ofOtherBefore, -⟩ := otherNearest
  -- The one that comes second would be farther than the first.
  rcases List.append_eq_append_iff.mp same with
    ⟨between, isBefore, isRest⟩ | ⟨between, isBefore, isRest⟩
  · cases between with
    | nil => exact (List.cons.inj isRest).1
    | cons head tail =>
        obtain ⟨rfl, -⟩ := List.cons.inj isRest
        have farther := ofOtherBefore key (by simp [isBefore])
        omega
  · cases between with
    | nil => exact (List.cons.inj isRest).1.symm
    | cons head tail =>
        obtain ⟨rfl, -⟩ := List.cons.inj isRest
        have farther := ofBefore other (by simp [isBefore])
        omega

theorem isNearestIn_nearestOf (text : String) (first : ConfigKey) (rest : List ConfigKey) :
    IsNearestIn text (first :: rest) (nearestOf text first rest) := by
  induction rest generalizing first with
  | nil => exact ⟨[], [], rfl, by simp, by simp⟩
  | cons key rest inductionHypothesis =>
      rw [nearestOf]
      split
      · rename_i closer
        have found := inductionHypothesis key
        have le := found.distance_le List.mem_cons_self
        obtain ⟨before, after, split, ofBefore, ofAfter⟩ := found
        refine ⟨first :: before, after, by rw [split]; rfl, ?_, ofAfter⟩
        exact List.forall_mem_cons.mpr ⟨by omega, ofBefore⟩
      · rename_i notCloser
        have found := inductionHypothesis first
        obtain ⟨before, after, split, ofBefore, ofAfter⟩ := found
        cases before with
        | nil =>
            obtain ⟨isFirst, rfl⟩ := List.cons.inj split
            rw [← isFirst] at ofAfter ⊢
            exact ⟨[], key :: rest, rfl, by simp, List.forall_mem_cons.mpr ⟨by omega, ofAfter⟩⟩
        | cons head before =>
            obtain ⟨rfl, isRest⟩ := List.cons.inj split
            obtain ⟨ofHead, ofTail⟩ := List.forall_mem_cons.mp ofBefore
            refine ⟨first :: key :: before, after, congrArg (first :: key :: ·) isRest, ?_, ofAfter⟩
            exact List.forall_mem_cons.mpr ⟨ofHead, List.forall_mem_cons.mpr ⟨by omega, ofTail⟩⟩

theorem isNearestIn_nearest (text : String) : IsNearestIn text all (nearest text) := by
  -- The search begins with the first key and then meets it again.
  have again : nearest text =
      nearestOf text .formatter [.blacklist, .enumSyntheticMembers, .profileVersion] := by
    simp [nearest, all, nearestOf]
  rw [again]
  exact isNearestIn_nearestOf text .formatter _

theorem isNearestIn_iff : IsNearestIn text all key ↔ nearest text = key :=
  ⟨fun isNearest => (isNearestIn_nearest text).unique isNearest,
    fun same => same ▸ isNearestIn_nearest text⟩

/-- No key has the name. -/
def IsUnknown (name : String) : Prop :=
  ∀ key ∈ all, key.name ≠ name

theorem ofName?_eq_none_iff {name : String} : ofName? name = none ↔ IsUnknown name := by
  simp [ofName?, IsUnknown]

end ConfigKey

/-! ## Bytes of text -/

private theorem bytesFrom_eq (bytes : ByteArray) (start : Nat) (passed : List UInt8) :
    ByteArray.toList.loop bytes start passed = passed.reverse ++ bytes.data.toList.drop start := by
  induction start, passed using ByteArray.toList.loop.induct bytes with
  | case1 start passed inside inductionHypothesis =>
      have inList : start < bytes.data.toList.length := by simpa using inside
      rw [ByteArray.toList.loop, if_pos inside, inductionHypothesis,
        List.drop_eq_getElem_cons inList]
      simp [ByteArray.get!, inside]
  | case2 start passed outside =>
      rw [ByteArray.toList.loop, if_neg outside, List.drop_eq_nil_of_le (by simpa using outside)]
      simp

/-- Texts with the same bytes are the same. -/
theorem toList_toUTF8_inj {left right : String} :
    left.toUTF8.toList = right.toUTF8.toList ↔ left = right := by
  rw [ByteArray.toList, ByteArray.toList, bytesFrom_eq, bytesFrom_eq]
  simp only [List.reverse_nil, List.nil_append, List.drop_zero, Array.toList_inj]
  constructor
  · exact fun same => String.toByteArray_inj.mp (ByteArray.ext same)
  · rintro rfl
    rfl

/-! ## What is reported -/

namespace Config

open ConfigKey (IsUnknown)

variable {entries : Toml.Entries} {name : String} {key : ConfigKey}

theorem keyNotice?_eq_misspelled_iff :
    keyNotice? name = some (.misspelledKey name key) ↔
      IsUnknown name ∧ key.distance name ≤ ConfigKey.tolerance ∧
        ConfigKey.IsNearestIn name ConfigKey.all key := by
  rw [keyNotice?, ← ConfigKey.ofName?_eq_none_iff, ConfigKey.isNearestIn_iff]
  cases known : ConfigKey.ofName? name with
  | some found => simp
  | none =>
      simp only [true_and]
      split
      · rename_i near
        simp only [Option.some.injEq, Notice.misspelledKey.injEq, true_and]
        constructor
        · rintro rfl
          exact ⟨near, rfl⟩
        · exact And.right
      · rename_i far
        simp only [Option.some.injEq, reduceCtorEq, false_iff]
        rintro ⟨near, rfl⟩
        exact far near

theorem misspelledKey_mem_keyNotices_iff :
    Notice.misspelledKey name key ∈ keyNotices entries ↔
      name ∈ entries.map (·.1) ∧ keyNotice? name = some (.misspelledKey name key) := by
  have isAbout : ∀ other, keyNotice? other = some (.misspelledKey name key) → other = name := by
    intro other reported
    rw [keyNotice?] at reported
    split at reported
    · cases reported
    · dsimp only at reported
      split at reported
      · exact (Notice.misspelledKey.inj (Option.some.inj reported)).1
      · cases reported
  rw [keyNotices, List.mem_filterMap]
  constructor
  · rintro ⟨other, member, reported⟩
    obtain rfl := isAbout other reported
    exact ⟨NameSet.mem_ofList.mp member, reported⟩
  · rintro ⟨member, reported⟩
    exact ⟨name, NameSet.mem_ofList.mpr member, reported⟩

/-- The distance of two texts is the least number of bytes to insert, delete and replace. For an
unknown key of a table, a known one is suggested exactly if one is within three such edits, and it
is the first at the least distance. -/
theorem editDistance_decides_suggestions :
    (∀ a b : String, IsLeast {count | Edits count a.toUTF8.toList b.toUTF8.toList}
        (editDistance a.toUTF8.toList b.toUTF8.toList)) ∧
      (∀ a b : String, editDistance a.toUTF8.toList b.toUTF8.toList = 0 ↔ a = b) ∧
      (∀ a b : String, editDistance a.toUTF8.toList b.toUTF8.toList =
        editDistance b.toUTF8.toList a.toUTF8.toList) ∧
      (∀ a b c : String, editDistance a.toUTF8.toList c.toUTF8.toList ≤
        editDistance a.toUTF8.toList b.toUTF8.toList +
          editDistance b.toUTF8.toList c.toUTF8.toList) ∧
      ∀ (entries : Toml.Entries) (name : String),
        ((∃ key, Notice.misspelledKey name key ∈ keyNotices entries) ↔
          name ∈ entries.map (·.1) ∧ IsUnknown name ∧
            ∃ key ∈ ConfigKey.all,
              editDistance name.toUTF8.toList key.name.toUTF8.toList ≤ 3) ∧
        ∀ key, Notice.misspelledKey name key ∈ keyNotices entries ↔
          name ∈ entries.map (·.1) ∧ IsUnknown name ∧
            editDistance name.toUTF8.toList key.name.toUTF8.toList ≤ 3 ∧
            ConfigKey.IsNearestIn name ConfigKey.all key := by
  refine ⟨fun a b => isLeast_editDistance _ _, fun a b => ?_, fun a b => editDistance_comm _ _,
    fun a b c => editDistance_triangle _ _ _, fun entries name => ⟨?_, fun key => ?_⟩⟩
  · rw [editDistance_eq_zero_iff, toList_toUTF8_inj]
  · constructor
    · rintro ⟨key, reported⟩
      obtain ⟨member, isNotice⟩ := misspelledKey_mem_keyNotices_iff.mp reported
      obtain ⟨unknown, near, isNearest⟩ := keyNotice?_eq_misspelled_iff.mp isNotice
      exact ⟨member, unknown, key, isNearest.mem, near⟩
    · rintro ⟨member, unknown, key, known, near⟩
      have isNearest := ConfigKey.isNearestIn_nearest name
      have nearer : (ConfigKey.nearest name).distance name ≤ ConfigKey.tolerance :=
        (isNearest.distance_le known).trans near
      exact ⟨_, misspelledKey_mem_keyNotices_iff.mpr
        ⟨member, keyNotice?_eq_misspelled_iff.mpr ⟨unknown, nearer, isNearest⟩⟩⟩
  · rw [misspelledKey_mem_keyNotices_iff, keyNotice?_eq_misspelled_iff]
    rfl

example : keyNotices [("blaklist", .scalar), ("colour", .scalar)] =
    [.misspelledKey "blaklist" .blacklist, .unknownKey "colour"] := by
  decide +kernel

end Config

end TypeStub
