import TypeStub.FileTree
import TypeStub.Proofs.Files.Path
import TypeStub.Proofs.Outcome

/-!
Contract: what writing a file changes in a tree.

Owns:
- that text is read from the bytes that it is written as;
- walks in a tree that has got more directories;
- `FileTree.MakesWay`, that nothing but missing directories on a way are made;
- `FileTree.Saved`, that a file holds its bytes and the rest is as it was.
-/

namespace TypeStub.Utf8

theorem decode_toUTF8 (text : String) : decode text.toUTF8 = .ok text := by
  have isText : text.toUTF8.IsValidUTF8 := text.isValidUTF8
  rw [decode, String.fromUTF8?, dif_pos isText]
  rfl

end TypeStub.Utf8

namespace TypeStub.FileTree

variable {tree before middle after : FileTree} {names place here steps : List String}
  {node : FileNode}

/-! ## Places -/

@[simp]
theorem node?_nil (tree : FileTree) : tree.node? [] = some .directory :=
  rfl

theorem node?_of_ne (named : names ≠ []) : tree.node? names = tree.entries.lookup names := by
  cases names with
  | nil => exact absurd rfl named
  | cons => rfl

theorem node?_put_self (named : names ≠ []) : (tree.put names node).node? names = some node := by
  simp [node?_of_ne named, put]

private theorem lookup_filter_ne {entries : List (List String × FileNode)}
    (other : place ≠ names) :
    (entries.filter fun entry => entry.1 ≠ names).lookup place = entries.lookup place := by
  induction entries with
  | nil => rfl
  | cons entry rest inductionHypothesis =>
      by_cases isNames : entry.1 = names
      · have differs : (place == entry.1) = false := by simpa [isNames] using other
        rw [List.filter_cons_of_neg (by simpa using isNames), inductionHypothesis,
          List.lookup_cons, differs]
      · rw [List.filter_cons_of_pos (by simpa using isNames), List.lookup_cons, List.lookup_cons,
          inductionHypothesis]

theorem node?_put_of_ne (other : place ≠ names) :
    (tree.put names node).node? place = tree.node? place := by
  by_cases isRoot : place = []
  · rw [isRoot, node?_nil, node?_nil]
  · have differs : (place == names) = false := by simpa using other
    rw [node?_of_ne isRoot, node?_of_ne isRoot, put, List.lookup_cons, differs]
    exact lookup_filter_ne other

/-! ## Walks -/

/-- The place that one step leads to from a directory. -/
def next (here : List String) (step : String) : Except OsCause (List String) :=
  if Path.isIdle step then .ok here
  else if step = ".." then .ok here.dropLast
  else if longestName < step.utf8ByteSize then .error .nameTooLong
  else .ok (here ++ [step])

theorem walk_cons {step : String} (isDirectory : tree.node? here = some .directory) :
    tree.walk here (step :: steps) = next here step >>= fun place => tree.walk place steps := by
  rw [walk, isDirectory, next]
  simp only
  split
  · rfl
  split
  · rfl
  split <;> rfl

/-- Only directories are left on a walk. -/
theorem isDirectory_of_walk {step : String} (walked : tree.walk here (step :: steps) = .ok place) :
    tree.node? here = some .directory := by
  rw [walk] at walked
  split at walked
  · cases walked
  · cases walked
  · assumption

theorem walk_append_eq_ok_iff {front back : List String} :
    tree.walk here (front ++ back) = .ok place ↔
      ∃ between, tree.walk here front = .ok between ∧ tree.walk between back = .ok place := by
  induction front generalizing here with
  | nil => simp [walk]
  | cons step rest inductionHypothesis =>
      by_cases isDirectory : tree.node? here = some .directory
      · rw [List.cons_append, walk_cons isDirectory, walk_cons isDirectory]
        cases next here step with
        | error cause => exact ⟨nofun, nofun⟩
        | ok there => exact inductionHypothesis
      · constructor
        · intro walked
          exact absurd (isDirectory_of_walk walked) isDirectory
        · rintro ⟨between, walked, -⟩
          exact absurd (isDirectory_of_walk walked) isDirectory

/-- What is a directory stays one. -/
def KeepsDirectories (before after : FileTree) : Prop :=
  ∀ place, before.node? place = some .directory → after.node? place = some .directory

theorem KeepsDirectories.walk (keeps : KeepsDirectories before after)
    (walked : before.walk here steps = .ok place) : after.walk here steps = .ok place := by
  induction steps generalizing here with
  | nil => exact walked
  | cons step rest inductionHypothesis =>
      have isDirectory := isDirectory_of_walk walked
      rw [walk_cons isDirectory] at walked
      obtain ⟨there, taken, walkedOn⟩ := Outcome.bind_eq_ok_iff.mp walked
      rw [walk_cons (keeps here isDirectory)]
      exact Outcome.bind_eq_ok_iff.mpr ⟨there, taken, inductionHypothesis walkedOn⟩

/-- A node where no directory is does no harm to a walk. -/
theorem keepsDirectories_put (free : tree.node? names ≠ some .directory) :
    KeepsDirectories tree (tree.put names node) := by
  intro place isDirectory
  have other : place ≠ names := by
    rintro rfl
    exact free isDirectory
  rw [node?_put_of_ne other, isDirectory]

/-! ## Directories on the way -/

/-- Nothing was in that place, which the first of the steps lead to, and a directory is there
now. -/
def IsMade (steps : List String) (before after : FileTree) (place : List String) : Prop :=
  before.node? place = none ∧ after.node? place = some .directory ∧
    ∃ front back, steps = front ++ back ∧ back ≠ [] ∧ after.walk [] front = .ok place

/-- Some of the directories that the steps lead through are made, and nothing else differs. -/
def MakesWay (steps : List String) (before after : FileTree) : Prop :=
  ∀ place, after.node? place = before.node? place ∨ IsMade steps before after place

theorem MakesWay.refl (steps : List String) (tree : FileTree) : MakesWay steps tree tree :=
  fun _ => .inl rfl

theorem MakesWay.keepsDirectories (way : MakesWay steps before after) :
    KeepsDirectories before after := by
  intro place isDirectory
  rcases way place with same | ⟨-, isMade, -⟩
  · rw [same, isDirectory]
  · exact isMade

theorem MakesWay.trans (first : MakesWay steps before middle)
    (second : MakesWay steps middle after) : MakesWay steps before after := by
  intro place
  rcases second place with same | ⟨wasFree, isMade, reached⟩
  · rcases first place with unchanged | ⟨wasFree, isMade, front, back, ofSteps, more, walked⟩
    · exact .inl (same.trans unchanged)
    · exact .inr ⟨wasFree, same.trans isMade, front, back, ofSteps, more,
        second.keepsDirectories.walk walked⟩
  · rcases first place with unchanged | ⟨-, wasMade, -⟩
    · exact .inr ⟨unchanged ▸ wasFree, isMade, reached⟩
    · rw [wasMade] at wasFree
      cases wasFree

theorem checkPath_eq_ok_iff {path : String} :
    checkPath path = .ok () ↔
      '\x00' ∉ path.toList ∧ path ≠ "" ∧ path.utf8ByteSize ≤ longestPath := by
  rw [checkPath]
  split
  · simp_all
  split
  · simp_all
  split
  · simp_all
  · simp_all

theorem locate_eq_ok_iff {path : String} :
    tree.locate steps path = .ok place ↔
      checkPath path = .ok () ∧ tree.walk [] steps = .ok place := by
  rw [locate, Outcome.bind_eq_ok_iff]
  constructor
  · rintro ⟨⟨⟩, allowed, walked⟩
    exact ⟨allowed, walked⟩
  · rintro ⟨allowed, walked⟩
    exact ⟨(), allowed, walked⟩

variable {path above : String}

theorem find_eq_ok (located : tree.locate (Path.steps path) path = .ok place)
    (isNode : tree.node? place = some node) : tree.find path = .ok node := by
  refine Outcome.bind_eq_ok_iff.mpr ⟨place, located, ?_⟩
  rw [isNode]

private theorem exists_stepsUnslashed_append (path : String) :
    ∃ slashes, Path.steps path = stepsUnslashed path ++ slashes := by
  obtain ⟨slashes, ofSteps⟩ := List.rdropWhile_prefix (· == "") (Path.steps path)
  exact ⟨slashes, ofSteps.symm⟩

/-- A directory is made in a place where nothing is. -/
theorem makeDirectory_eq_ok (made : before.makeDirectory path = .ok after) :
    ∃ names, before.walk [] (stepsUnslashed path) = .ok names ∧ before.node? names = none ∧
      after = before.put names .directory := by
  obtain ⟨names, located, isMade⟩ := Outcome.bind_eq_ok_iff.mp made
  split at isMade
  · cases isMade
  · rename_i wasFree
    exact ⟨names, (locate_eq_ok_iff.mp located).2, wasFree, (Except.ok.inj isMade).symm⟩

theorem makesWay_of_makeDirectory (isAbove : Path.Above above path)
    (made : before.makeDirectory above = .ok after) : MakesWay (Path.steps path) before after := by
  obtain ⟨names, walked, wasFree, rfl⟩ := makeDirectory_eq_ok made
  obtain ⟨slashes, ofAbove⟩ := exists_stepsUnslashed_append above
  obtain ⟨back, more, ofPath⟩ := isAbove
  have named : names ≠ [] := by
    rintro rfl
    cases wasFree
  have keeps := @keepsDirectories_put before names .directory (by simp [wasFree])
  intro place
  by_cases isNames : place = names
  · rw [isNames]
    refine .inr ⟨wasFree, node?_put_self named, stepsUnslashed above, slashes ++ back, ?_,
      by simp [more], keeps.walk walked⟩
    rw [ofPath, ofAbove, List.append_assoc]
  · exact .inl (node?_put_of_ne isNames)

theorem makesWay_ensureDirectory (isAbove : Path.Above above path) (tree : FileTree) :
    MakesWay (Path.steps path) tree (tree.ensureDirectory above).2 := by
  rw [ensureDirectory]
  split
  · rename_i made isMade
    exact makesWay_of_makeDirectory isAbove isMade
  · split <;> exact .refl _ tree

theorem makesWay_ensureDirectories {directories : List String}
    (areAbove : ∀ directory ∈ directories, Path.Above directory path) (tree : FileTree) :
    MakesWay (Path.steps path) tree (tree.ensureDirectories directories).2 := by
  induction directories with
  | nil => exact .refl _ tree
  | cons directory above inductionHypothesis =>
      have isAbove := areAbove directory List.mem_cons_self
      have before := inductionHypothesis fun other member =>
        areAbove other (List.mem_cons_of_mem _ member)
      rw [ensureDirectories]
      split
      -- Nothing is there for the directory to stand in: that is made first.
      · split
        · rename_i stopped
          rw [stopped] at before
          exact before
        · rename_i made done
          rw [done] at before
          exact before.trans (makesWay_ensureDirectory isAbove made)
      · exact makesWay_ensureDirectory isAbove tree

/-- Making the directory that a path names something in makes way for the path. -/
theorem makesWay_makeDirectories (path : String) (tree : FileTree) :
    MakesWay (Path.steps path) tree
      (tree.makeDirectories ((Path.parent? path).getD "")).2 :=
  makesWay_ensureDirectories (fun _ => Path.above_of_mem_ancestors) tree

/-! ## A file on the way's end -/

/-- The file of that path holds the bytes, and it stands in directories. Some of these are
new; the rest of the tree is as it was before. -/
structure Saved (before : FileTree) (path : String) (bytes : ByteArray) (after : FileTree) :
    Prop where
  holds : after.read path = .ok bytes
  standsIn : ∀ front back, Path.steps path = front ++ back → back ≠ [] →
    ∃ place, after.walk [] front = .ok place ∧ after.node? place = some .directory
  elsewhere : ∀ place, after.walk [] (Path.steps path) ≠ .ok place →
    after.node? place = before.node? place ∨ IsMade (Path.steps path) before after place

/-- A way whose last step is a dot ends at a directory. -/
private theorem isDirectory_of_walk_dot {front : List String}
    (walked : tree.walk [] (front ++ ["."]) = .ok place) : tree.node? place = some .directory := by
  obtain ⟨between, -, walkedOn⟩ := walk_append_eq_ok_iff.mp walked
  have isDirectory := isDirectory_of_walk walkedOn
  rw [walk_cons isDirectory] at walkedOn
  have stays : between = place := Except.ok.inj walkedOn
  exact stays ▸ isDirectory

/-- A file is written where its path leads to. -/
theorem write_eq_ok {bytes : ByteArray} (written : tree.write path bytes = .ok after) :
    ∃ names, checkPath path = .ok () ∧ tree.walk [] (Path.steps path) = .ok names ∧
      tree.node? names ≠ some .directory ∧ after = tree.put names (.file bytes) := by
  obtain ⟨names, located, isWritten⟩ := Outcome.bind_eq_ok_iff.mp written
  obtain ⟨allowed, walked⟩ := locate_eq_ok_iff.mp located
  split at isWritten
  · cases isWritten
  rename_i isNoDirectory
  -- A slash at the end would lead to a directory, where no file is written.
  have unslashed : path.endsWith "/" = false := by
    by_contra slashed
    rw [stepsToWrite, if_pos (by simpa using slashed)] at walked
    exact isNoDirectory (isDirectory_of_walk_dot walked)
  have nonempty : path ≠ "" := (checkPath_eq_ok_iff.mp allowed).2.1
  have whole : stepsToWrite path = Path.steps path := by
    rw [stepsToWrite, unslashed]
    refine List.rdropWhile_eq_self_iff.mpr fun _ => ?_
    simpa using Path.getLast_steps_ne nonempty unslashed
  exact ⟨names, allowed, whole ▸ walked, isNoDirectory, (Except.ok.inj isWritten).symm⟩

/-- What is written when the way is made is saved. -/
theorem saved_of_write {bytes : ByteArray} (way : MakesWay (Path.steps path) before middle)
    (written : middle.write path bytes = .ok after) : Saved before path bytes after := by
  obtain ⟨names, allowed, walked, isNoDirectory, rfl⟩ := write_eq_ok written
  have named : names ≠ [] := by
    rintro rfl
    exact isNoDirectory rfl
  -- No directory is replaced, so the path leads to the same place as before.
  have keeps := @keepsDirectories_put middle names (.file bytes) isNoDirectory
  have leads := keeps.walk walked
  constructor
  · have located := locate_eq_ok_iff.mpr ⟨allowed, leads⟩
    have isFound := find_eq_ok located (node?_put_self named)
    exact Outcome.bind_eq_ok_iff.mpr ⟨_, isFound, rfl⟩
  · intro front back ofPath more
    rw [ofPath] at leads
    obtain ⟨place, walkedFront, walkedOn⟩ := walk_append_eq_ok_iff.mp leads
    obtain ⟨step, rest, rfl⟩ := List.exists_cons_of_ne_nil more
    exact ⟨place, walkedFront, isDirectory_of_walk walkedOn⟩
  · intro place isElsewhere
    have other : place ≠ names := by
      rintro rfl
      exact isElsewhere leads
    have unchanged := @node?_put_of_ne middle names place (.file bytes) other
    rcases way place with same | ⟨wasFree, isMade, front, back, ofPath, more, walkedFront⟩
    · exact .inl (unchanged.trans same)
    · exact .inr ⟨wasFree, unchanged.trans isMade, front, back, ofPath, more,
        keeps.walk walkedFront⟩

private theorem save_cases (path text : String) (tree : FileTree) :
    (∃ middle after, MakesWay (Path.steps path) tree middle ∧
      middle.write path text.toUTF8 = .ok after ∧ tree.save path text = (.ok (), after)) ∨
    ∃ fault middle, MakesWay (Path.steps path) tree middle ∧
      tree.save path text = (.error fault, middle) := by
  have way := makesWay_makeDirectories path tree
  unfold save
  cases made : tree.makeDirectories ((Path.parent? path).getD "") with
  | mk result middle =>
      rw [made] at way
      simp only [made]
      cases result with
      | error cause => exact .inr ⟨_, middle, way, rfl⟩
      | ok =>
          cases written : middle.write path text.toUTF8 with
          | error cause => exact .inr ⟨.io path cause, middle, way, by simp only [written]⟩
          | ok after => exact .inl ⟨middle, after, way, written, by simp only [written]⟩

theorem saved_of_save {text : String} (finished : tree.save path text = (.ok (), after)) :
    Saved tree path text.toUTF8 after := by
  rcases save_cases path text tree with ⟨middle, last, way, written, ends⟩ | ⟨_, _, -, ends⟩
  · rw [ends] at finished
    cases finished
    exact saved_of_write way written
  · rw [ends] at finished
    cases finished

/-- A text that cannot be saved changes no file. -/
theorem makesWay_of_save {text : String} {fault : Fault}
    (finished : tree.save path text = (.error fault, after)) :
    MakesWay (Path.steps path) tree after := by
  rcases save_cases path text tree with ⟨_, _, -, -, ends⟩ | ⟨_, middle, way, ends⟩
  · rw [ends] at finished
    cases finished
  · rw [ends] at finished
    cases finished
    exact way

end TypeStub.FileTree
