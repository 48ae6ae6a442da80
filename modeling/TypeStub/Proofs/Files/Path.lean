import Mathlib.Data.List.DropRight
import TypeStub.Files.Path
import TypeStub.Proofs.Text.Intercalate

/-!
Contract: the steps of a path and of the directories above it.

Owns:
- `Path.Above`, that one path's steps are the first ones of another's;
- what the directories are that a path names something in;
- the last step of a path.
-/

namespace TypeStub.Path

variable {path above : String}

/-! ## The steps of a path that is put together -/

theorem steps_ne_nil (path : String) : steps path ≠ [] := by
  have pieces : path.toList.splitOn '/' ≠ [] := List.splitOn_ne_nil _ _
  simp [steps, pieces]

theorem noSlash_of_mem_steps {step : String} (member : step ∈ steps path) :
    '/' ∉ step.toList := by
  obtain ⟨piece, isPiece, rfl⟩ := List.mem_map.mp member
  rw [List.splitOn_eq_splitOnP] at isPiece
  intro isThere
  rw [String.toList_ofList] at isThere
  have free := Intercalate.free_of_mem_splitOnP isPiece '/' isThere
  simp at free

theorem steps_ofSteps {names : List String} (nonempty : names ≠ [])
    (free : ∀ name ∈ names, '/' ∉ name.toList) : steps (ofSteps names) = names := by
  have freePieces : ∀ piece ∈ names.map String.toList, '/' ∉ piece := by
    simpa using free
  have pieces : (ofSteps names).toList.splitOn '/' = names.map String.toList := by
    rw [ofSteps, String.toList_intercalate]
    exact List.splitOn_intercalate '/' freePieces (by simpa using nonempty)
  rw [steps, pieces, List.map_map]
  simp

/-! ## The directories above -/

/-- The steps of `path` are those of `above` and more. -/
def Above (above path : String) : Prop :=
  ∃ back, back ≠ [] ∧ steps path = steps above ++ back

theorem Above.trans {top : String} (first : Above top above) (second : Above above path) :
    Above top path := by
  obtain ⟨lower, nonempty, ofAbove⟩ := first
  obtain ⟨back, -, ofPath⟩ := second
  exact ⟨lower ++ back, by simp [nonempty], by rw [ofPath, ofAbove, List.append_assoc]⟩

private theorem origin_append (pieces : List String) :
    (origin pieces).1 ++ (origin pieces).2 = pieces := by
  cases pieces with
  | nil => rfl
  | cons first rest =>
      rw [origin]
      split <;> rfl

private theorem exists_dropIdle_append (names : List String) :
    ∃ idle, names = dropIdle names ++ idle := by
  obtain ⟨idle, ofNames⟩ := List.rdropWhile_prefix isIdle names
  exact ⟨idle, ofNames.symm⟩

/-- The directory that a path names something in is above it, unless it is the one that the
path starts from. -/
theorem above_of_parent? (found : parent? path = some above) :
    above = "" ∨ above = "/" ∨ Above above path := by
  unfold parent? at found
  have ofPath := origin_append (steps path)
  obtain ⟨idle, ofNames⟩ := exists_dropIdle_append (origin (steps path)).2
  split at found
  rename_i start names divided
  rw [divided] at ofPath ofNames
  split at found
  · split at found
    · exact .inl (Option.some.inj found).symm
    · cases found
  rename_i name rest kept
  rw [kept] at ofNames
  obtain ⟨front, last, ofKept⟩ : ∃ front last, name :: rest = front ++ [last] :=
    ⟨_, _, (List.dropLast_concat_getLast (List.cons_ne_nil name rest)).symm⟩
  obtain ⟨between, ofFront⟩ := exists_dropIdle_append front
  simp only [ofKept, List.dropLast_concat] at found
  generalize dropIdle front = higher at ofFront found
  split at found
  · exact .inr (.inl (Option.some.inj found).symm)
  have isAbove := Option.some.inj found
  have pieces : steps path = (start ++ higher) ++ (between ++ last :: idle) := by
    rw [← ofPath, ofNames, ofKept, ofFront]
    simp
  by_cases isEmpty : start ++ higher = []
  · rw [isEmpty] at isAbove
    exact .inl isAbove.symm
  have free : ∀ step ∈ start ++ higher, '/' ∉ step.toList := by
    intro step member
    apply noSlash_of_mem_steps
    rw [pieces]
    exact List.mem_append_left _ member
  have ofAbove : steps above = start ++ higher := by
    rw [← isAbove, steps_ofSteps isEmpty free]
  exact .inr (.inr ⟨between ++ last :: idle, by simp, by rw [ofAbove, pieces]⟩)

private theorem ancestorsUpTo_eq_nil (unnamed : parent? path = none) (count : Nat) :
    ancestorsUpTo count path = [] := by
  cases count with
  | zero => rfl
  | succ count => rw [ancestorsUpTo, unnamed]

private theorem above_of_mem_ancestorsUpTo {parent : String} (found : parent? path = some parent)
    {count : Nat} (member : above ∈ ancestorsUpTo count parent) : Above above path := by
  induction count generalizing path parent with
  | zero => cases member
  | succ count inductionHypothesis =>
      -- The empty path and the root are not among the ancestors; nothing is above them.
      rcases above_of_parent? found with isTop | isTop | below
      · rw [isTop, ancestorsUpTo_eq_nil (by decide)] at member
        cases member
      · rw [isTop, ancestorsUpTo_eq_nil (by decide)] at member
        cases member
      rw [ancestorsUpTo] at member
      split at member
      · cases member
      rename_i next foundNext
      rcases List.mem_cons.mp member with isParent | higher
      · exact isParent ▸ below
      · exact (inductionHypothesis foundNext higher).trans below

/-- The directories that are made before a file is written are above the file. -/
theorem above_of_mem_ancestors (member : above ∈ ancestors ((parent? path).getD "")) :
    Above above path := by
  cases found : parent? path with
  | none =>
      rw [found, Option.getD_none, ancestors, ancestorsUpTo_eq_nil (by decide)] at member
      cases member
  | some parent =>
      rw [found] at member
      exact above_of_mem_ancestorsUpTo found member

/-! ## The last step -/

theorem endsWith_slash_iff : path.endsWith "/" = true ↔ ['/'] <:+ path.toList := by
  have asSlice := @String.Slice.endsWith_string_iff "/" path.toSlice
  rw [String.copy_toSlice] at asSlice
  exact asSlice

/-- The last step of a path is empty only if the path is, or if a slash ends it. -/
theorem getLast_steps_ne (nonempty : path ≠ "") (unslashed : path.endsWith "/" = false) :
    (steps path).getLast (steps_ne_nil path) ≠ "" := by
  intro isEmpty
  have several : path.toList.splitOn '/' ≠ [] := List.splitOn_ne_nil _ _
  have lastPiece : (path.toList.splitOn '/').getLast several = [] := by
    have isMapped : String.ofList ((path.toList.splitOn '/').getLast several) = "" := by
      rw [← isEmpty]
      simp [steps]
    simpa using congrArg String.toList isMapped
  have joined := @List.intercalate_splitOn _ path.toList _ _ '/'
  rw [← List.dropLast_concat_getLast several, lastPiece] at joined
  by_cases alone : (path.toList.splitOn '/').dropLast = []
  · rw [alone] at joined
    exact nonempty (String.toList_eq_nil_iff.mp (by simpa using joined.symm))
  · rw [Intercalate.append_singleton ['/'] alone] at joined
    have ends : path.endsWith "/" = true := endsWith_slash_iff.mpr ⟨_, by simpa using joined⟩
    simp [ends] at unslashed

end TypeStub.Path
