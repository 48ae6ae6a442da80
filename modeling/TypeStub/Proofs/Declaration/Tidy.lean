import TypeStub.Proofs.Declaration.Assembly
import TypeStub.Proofs.Declaration.Layout
import TypeStub.Proofs.TypeExpr.Grammar

/-!
Contract: what is assembled from a dump can be laid out in rows.

Owns:
- `Dump.Module.InLine`, the dumps whose names have no line feed;
- `Resolved.IsTidy`, a property of a value together with namespaces that have none;
- that each builder gives tidy declarations, whatever documentation says.
-/

namespace TypeStub

/-! ## Dumps -/

namespace Dump

/-- No name of a parameter has a line feed. -/
def Routine.InLine (routine : Routine) : Prop :=
  ∀ parameters ∈ routine.signature, ∀ parameter ∈ parameters, '\n' ∉ parameter.name.toList

/-- No name that a stub writes for the class has a line feed. Classes among the members are
only named. -/
structure Class.InLine (cls : Class) : Prop where
  members : ∀ member ∈ cls.members, '\n' ∉ member.name.toList
  routines : ∀ member ∈ cls.members, ∀ routine, member.value = .routine routine → routine.InLine
  signature : ∀ parameters ∈ cls.signature, ∀ parameter ∈ parameters, '\n' ∉ parameter.name.toList
  bases : ∀ base ∈ cls.bases,
    '\n' ∉ base.module.toList ∧ '\n' ∉ base.name.toList ∧ '\n' ∉ base.qualname.toList

/-- No name of a member, a parameter or a base has a line feed. -/
structure Module.InLine (module : Module) : Prop where
  members : ∀ member ∈ module.members, '\n' ∉ member.name.toList
  routines : ∀ member ∈ module.members, ∀ routine,
    member.value = .routine routine → routine.InLine
  classes : ∀ member ∈ module.members, ∀ cls, member.value = .classObject cls → cls.InLine

theorem Class.InLine.reference {cls base : Class} (inLine : cls.InLine)
    (member : base ∈ cls.bases) :
    '\n' ∉ base.reference.toList := by
  obtain ⟨inModule, inName, inQualname⟩ := inLine.bases base member
  have inQualified : '\n' ∉ base.qualifiedName.toList := by
    unfold qualifiedName
    split
    · exact inName
    · exact inQualname
  rw [Class.reference, String.toList_append, String.toList_append]
  exact List.not_mem_append (List.not_mem_append inModule (by decide)) inQualified

end Dump

/-! ## Values with namespaces -/

/-- The value has the property, and no namespace has a line feed. -/
structure Resolved.IsTidy {α : Type} (p : α → Prop) (resolved : Resolved α) : Prop where
  value : p resolved.value
  namespaces : ∀ name ∈ resolved.namespaces, '\n' ∉ name.toList

namespace Resolved

variable {α β : Type} {p : α → Prop} {q : β → Prop}

theorem isTidy_bare {value : α} (holds : p value) : (bare value).IsTidy p where
  value := holds
  namespaces name member := absurd member (NameSet.not_mem_empty name)

theorem IsTidy.map {resolved : Resolved α} (tidy : resolved.IsTidy p) {f : α → β}
    (preserves : ∀ value, p value → q (f value)) : (resolved.map f).IsTidy q where
  value := preserves resolved.value tidy.value
  namespaces := tidy.namespaces

theorem isTidy_all {items : List (Resolved α)} (tidy : ∀ item ∈ items, item.IsTidy p) :
    (all items).IsTidy fun values => ∀ value ∈ values, p value where
  value value member := by
    obtain ⟨item, inItems, rfl⟩ := List.mem_map.mp member
    exact (tidy item inItems).value
  namespaces name member := by
    obtain ⟨set, inSets, inside⟩ := NameSet.mem_unionAll.mp member
    obtain ⟨item, inItems, rfl⟩ := List.mem_map.mp inSets
    exact (tidy item inItems).namespaces name inside

end Resolved

/-! ## Types and documentation -/

theorem TypeExpr.isTidy_of_parse {text : String} {found : Resolved TypeExpr}
    (accepted : parse text = .ok found) : found.IsTidy WellFormed := by
  obtain ⟨wellFormed, same⟩ := wellFormed_of_parse accepted
  refine ⟨wellFormed, ?_⟩
  intro name member
  rw [same] at member
  exact wellFormed.feed_not_mem_namespace member

namespace Documentation

open Text

theorem getLast?_trim (text : List Char) : (trim text).getLast? ≠ some '\n' := by
  intro ends
  have visible := (isCore_trim text).ends '\n' ends
  cases visible

theorem getLast?_description (doc : String) : (description doc).toList.getLast? ≠ some '\n' := by
  rw [description, String.toList_ofList]
  exact getLast?_trim _

private theorem mem_of_mem_payload {text : List Char} : ∀ c ∈ Directive.payload text, c ∈ text := by
  intro c member
  rw [Directive.payload, trimEndBy, List.mem_reverse] at member
  have inRow := List.mem_reverse.mp ((List.dropWhile_sublist _).subset member)
  exact (List.dropWhile_sublist _).subset inRow

/-- What a row says about the value returned is in one line. -/
theorem feed_not_mem_returnDoc {doc text : String} (found : returnDoc doc = .ok (some text)) :
    '\n' ∉ text.toList := by
  have member : text ∈ returnRows .returns doc := by simp [single_eq_ok_iff.mp found]
  obtain ⟨row, inRows, isDirective⟩ := List.mem_filterMap.mp member
  obtain ⟨rest, follows, rfl⟩ := Option.map_eq_some_iff.mp isDirective
  rw [String.toList_ofList]
  intro feed
  have inRow : '\n' ∈ row.dropWhile isSpaceOrTab := by
    rw [Directive.after?_eq_some_iff.mp follows]
    exact List.mem_append_right _ (mem_of_mem_payload '\n' feed)
  exact feed_not_mem_rows inRows ((List.dropWhile_sublist _).subset inRow)

end Documentation

/-! ## Callables and attributes -/

namespace Decl

open TypeExpr (WellFormed)

private theorem isTidy_of_resolveDirective {callable : String}
    {parameters : List TypeStub.Parameter} {directive : TypeDirective}
    {found : Resolved (String × TypeExpr)}
    (accepted : resolveDirective callable parameters directive = .ok found) :
    found.IsTidy fun entry => entry.2.WellFormed := by
  obtain ⟨-, type, parsed, rfl⟩ := resolveDirective_eq_ok_iff.mp accepted
  exact (TypeExpr.isTidy_of_parse parsed).map fun _ => id

private theorem isTidy_of_resolveReturn {expr : Option String}
    {found : Resolved (Option TypeExpr)} (accepted : resolveReturn expr = .ok found) :
    found.IsTidy fun type => ∀ e ∈ type, e.WellFormed := by
  cases expr with
  | none =>
      rw [← resolveReturn_none.mp accepted]
      exact Resolved.isTidy_bare (by simp)
  | some text =>
      obtain ⟨type, parsed, rfl⟩ := resolveReturn_some.mp accepted
      refine (TypeExpr.isTidy_of_parse parsed).map ?_
      intro e wellFormed other isType
      cases isType
      exact wellFormed

private theorem isTidy_annotate {types : List (String × TypeExpr)}
    (wellFormed : ∀ entry ∈ types, entry.2.WellFormed) {parameters : List TypeStub.Parameter}
    (inLine : ∀ parameter ∈ parameters, '\n' ∉ parameter.name.toList) :
    ∀ parameter ∈ parameters.map (annotate types), parameter.IsTidy := by
  intro parameter member
  obtain ⟨reported, inside, rfl⟩ := List.mem_map.mp member
  exact ⟨inLine reported inside, fun type found =>
    wellFormed (reported.name, type) (mem_of_lastType found)⟩

private theorem feed_not_mem_realParameters {kind : CallableKind}
    {parameters : List TypeStub.Parameter}
    (inLine : ∀ parameter ∈ parameters, '\n' ∉ parameter.name.toList) :
    ∀ parameter ∈ kind.realParameters parameters, '\n' ∉ parameter.name.toList := by
  unfold CallableKind.realParameters
  split
  · intro parameter member
    rcases List.mem_cons.mp member with rfl | inside
    · decide
    · exact inLine parameter inside
  · exact inLine

private theorem Callable.isTidy_of_ofParts {name : String} {kind : CallableKind}
    {real : List TypeStub.Parameter} {parts : Documentation.Parts} {built : Resolved Callable}
    (accepted : ofParts name kind real parts = .ok built) (inName : '\n' ∉ name.toList)
    (inLine : ∀ parameter ∈ real, '\n' ∉ parameter.name.toList)
    (ends : parts.description.toList.getLast? ≠ some '\n') : built.IsTidy Callable.IsTidy := by
  obtain ⟨directives, returns, run, returned, rfl⟩ := ofParts_eq_ok_iff.mp accepted
  have ofTypes : (Resolved.all directives).IsTidy fun types =>
      ∀ entry ∈ types, entry.2.WellFormed := by
    refine Resolved.isTidy_all ?_
    intro directive member
    obtain ⟨row, -, resolvedRow⟩ := Outcome.exists_of_mem_mapM run member
    exact isTidy_of_resolveDirective resolvedRow
  have ofReturn := isTidy_of_resolveReturn returned
  constructor
  · refine ⟨inName, isTidy_annotate ofTypes.value inLine, ofReturn.value, ?_⟩
    intro doc isDoc
    split at isDoc
    · rw [mem_nonempty isDoc]
      exact ends
    · cases isDoc
  · intro namespaceName member
    rcases NameSet.mem_union.mp member with inTypes | inReturn
    · exact ofTypes.namespaces namespaceName inTypes
    · exact ofReturn.namespaces namespaceName inReturn

/-- A callable is built tidy, whatever its documentation says. -/
theorem Callable.isTidy_of_build {name : String} {parameters : List TypeStub.Parameter}
    {doc : Option String} {kind : CallableKind} {built : Resolved Callable}
    (accepted : build name parameters doc kind = .ok built) (inName : '\n' ∉ name.toList)
    (inLine : ∀ parameter ∈ parameters, '\n' ∉ parameter.name.toList) :
    built.IsTidy Callable.IsTidy := by
  have ofReal := @feed_not_mem_realParameters kind parameters inLine
  cases doc with
  | none =>
      obtain ⟨-, rfl⟩ := build_none_eq_ok_iff.mp accepted
      exact Resolved.isTidy_bare ⟨inName, isTidy_annotate (by simp) ofReal, by simp, by simp⟩
  | some raw =>
      obtain ⟨-, parts, divided, ofParts⟩ := build_some_eq_ok_iff.mp accepted
      refine isTidy_of_ofParts ofParts inName ofReal ?_
      rw [(Documentation.split_eq_ok_iff.mp divided).1]
      exact Documentation.getLast?_description _

theorem Accessor.isTidy_of_build {name : String} {doc : Option String}
    {built : Resolved Accessor} (accepted : build name doc = .ok built)
    (inName : '\n' ∉ name.toList) : built.IsTidy Accessor.IsTidy := by
  cases doc with
  | none =>
      rw [← build_none_eq_ok_iff.mp accepted]
      exact Resolved.isTidy_bare ⟨inName, by simp, by simp⟩
  | some raw =>
      obtain ⟨expr, type, text, -, returned, described, rfl⟩ := build_some_eq_ok_iff.mp accepted
      have ofType := isTidy_of_resolveReturn returned
      refine ⟨⟨inName, ofType.value, ?_⟩, ofType.namespaces⟩
      intro doc isDoc
      obtain ⟨said, isSaid, isNonempty⟩ := Option.bind_eq_some_iff.mp isDoc
      rw [isSaid] at described
      rw [mem_nonempty isNonempty]
      intro ends
      exact Documentation.feed_not_mem_returnDoc described (List.mem_of_getLast? ends)

/-! ## Entries -/

section Entries

variable {α β : Type} {p : α → Prop} {q : β → Prop}

/-- What members bring together is tidy if each of them brings something tidy. -/
private theorem isTidy_entries {members : List Dump.Member}
    {brings : Dump.Member → Option (Resolved α) → Prop} {built : List (Option (Resolved α))}
    (steps : List.Forall₂ brings (Dump.sortedMembers members) built)
    (tidy : ∀ member ∈ members, ∀ found, brings member (some found) → found.IsTidy p) :
    (Resolved.all (built.filterMap id)).IsTidy fun values => ∀ value ∈ values, p value := by
  refine Resolved.isTidy_all ?_
  intro found isKept
  obtain ⟨member, inSorted, ofMember⟩ := Outcome.exists_left_of_kept steps isKept
  exact tidy member (List.mem_mergeSort.mp inSorted) found ofMember

/-- What is selected from tidy entries is tidy. -/
private theorem forall_selected {select : α → Option β} {entries : List α}
    (tidy : ∀ entry ∈ entries, p entry)
    (selects : ∀ entry found, select entry = some found → p entry → q found) :
    ∀ found ∈ entries.filterMap select, q found := by
  intro found member
  obtain ⟨entry, inEntries, isFound⟩ := List.mem_filterMap.mp member
  exact selects entry found isFound (tidy entry inEntries)

end Entries

/-! ## Classes -/

/-- What an entry brings to a class is tidy. -/
def Entry.IsTidy : Entry → Prop
  | .constructor callable => callable.IsTidy
  | .method callable => callable.IsTidy
  | .magicMethod callable => callable.IsTidy
  | .attribute declared => declared.IsTidy

private theorem isTidy_of_buildRoutine {name : String} {routine : Dump.Routine}
    {kind : CallableKind} {built : Resolved Callable}
    (accepted : buildRoutine name routine kind = .ok built) (inName : '\n' ∉ name.toList)
    (inLine : routine.InLine) : built.IsTidy Callable.IsTidy := by
  refine Callable.isTidy_of_build accepted inName ?_
  cases known : routine.signature with
  | none => cases kind <;> decide
  | some parameters => exact inLine parameters known

private theorem Class.isTidy_of_brings {cls : Dump.Class} {profile : Profile}
    {member : Dump.Member} {found : Resolved Entry} (brings : Brings cls profile member (some found))
    (inLine : cls.InLine) (inside : member ∈ cls.members) : found.IsTidy Entry.IsTidy := by
  have inName := inLine.members member inside
  cases brings with
  | constructor outcome accepted =>
      obtain ⟨-, -, known⟩ := Dump.Class.classify_eq_constructor_iff.mp outcome
      have tidy := Callable.isTidy_of_build accepted (by decide) (inLine.signature _ known)
      exact tidy.map fun _ => id
  | method outcome accepted =>
      obtain ⟨-, isRoutine, -⟩ := Dump.Class.classify_eq_method_iff.mp outcome
      have tidy := isTidy_of_buildRoutine accepted inName
        (inLine.routines member inside _ isRoutine)
      exact tidy.map fun _ => id
  | magicMethod outcome accepted =>
      obtain ⟨-, isRoutine, -⟩ := Dump.Class.classify_eq_magicMethod_iff.mp outcome
      have tidy := isTidy_of_buildRoutine accepted inName
        (inLine.routines member inside _ isRoutine)
      exact tidy.map fun _ => id
  | accessor outcome accepted => exact (Accessor.isTidy_of_build accepted inName).map fun _ => id
  | placeholder outcome => exact Resolved.isTidy_bare inName

private theorem Class.isTidy_ofEntries {name : String} {cls : Dump.Class} {entries : List Entry}
    (inName : '\n' ∉ name.toList) (inLine : cls.InLine) (tidy : ∀ entry ∈ entries, entry.IsTidy) :
    (ofEntries name cls entries).IsTidy where
  name := inName
  bases base member := by
    obtain ⟨declared, inNamed, rfl⟩ := List.mem_map.mp member
    exact inLine.reference (List.mem_filter.mp inNamed).1
  constructor callable member := by
    refine forall_selected tidy ?_ callable (List.mem_of_mem_head? member)
    intro entry found isConstructor ofEntry
    cases entry <;> cases isConstructor
    exact ofEntry
  attributes := by
    refine forall_selected tidy ?_
    intro entry found isAttribute ofEntry
    cases entry <;> cases isAttribute
    exact ofEntry
  methods := by
    refine forall_selected tidy ?_
    intro entry found isMethod ofEntry
    cases entry <;> cases isMethod
    exact ofEntry
  magicMethods := by
    refine forall_selected tidy ?_
    intro entry found isMagic ofEntry
    cases entry <;> cases isMagic
    exact ofEntry
  doc doc member := by
    obtain ⟨raw, -, described⟩ := Option.bind_eq_some_iff.mp member
    rw [mem_nonempty described]
    exact Documentation.getLast?_description _

/-- A class is assembled tidy. -/
theorem Class.isTidy_of_assemble {name : String} {cls : Dump.Class} {profile : Profile}
    {assembled : Resolved Class} (accepted : assemble name cls profile = .ok assembled)
    (inName : '\n' ∉ name.toList) (inLine : cls.InLine) : assembled.IsTidy Class.IsTidy := by
  obtain ⟨built, steps, rfl⟩ := assemble_eq_ok_iff.mp accepted
  have ofEntries := isTidy_entries steps fun member inside found brings =>
    isTidy_of_brings brings inLine inside
  constructor
  · exact isTidy_ofEntries inName inLine ofEntries.value
  · intro namespaceName member
    rcases NameSet.mem_union.mp member with ofBases | inEntries
    · obtain ⟨base, inNamed, rfl⟩ := List.mem_map.mp (NameSet.mem_ofList.mp ofBases)
      exact (inLine.bases base (List.mem_filter.mp inNamed).1).1
    · exact ofEntries.namespaces namespaceName inEntries

/-! ## Modules -/

/-- What an entry brings to a module is tidy. -/
def RootEntry.IsTidy : RootEntry → Prop
  | .classDecl cls => cls.IsTidy
  | .function callable => callable.IsTidy
  | .warning _ => True

private theorem Module.isTidy_of_brings {module : Dump.Module} {profile : Profile}
    {member : Dump.Member} {found : Resolved RootEntry} (brings : Brings profile member (some found))
    (inLine : module.InLine) (inside : member ∈ module.members) :
    found.IsTidy RootEntry.IsTidy := by
  have inName := inLine.members member inside
  cases brings with
  | classDecl outcome accepted =>
      obtain ⟨-, isClass⟩ := Dump.Member.classifyRoot_eq_classObject_iff.mp outcome
      have tidy := Class.isTidy_of_assemble accepted inName
        (inLine.classes member inside _ isClass)
      exact tidy.map fun _ => id
  | function outcome accepted =>
      obtain ⟨-, isRoutine, -⟩ := Dump.Member.classifyRoot_eq_function_iff.mp outcome
      have tidy := isTidy_of_buildRoutine accepted inName
        (inLine.routines member inside _ isRoutine)
      exact tidy.map fun _ => id
  | warning outcome => exact Resolved.isTidy_bare trivial

/-- A module is assembled tidy from a dump whose names have no line feed. -/
theorem Module.isTidy_of_assemble {module : Dump.Module} {profile : Profile}
    {assembled : Assembled} (accepted : assemble module profile = .ok assembled)
    (inLine : module.InLine) : assembled.module.IsTidy := by
  obtain ⟨built, steps, rfl⟩ := assemble_eq_ok_iff.mp accepted
  have ofEntries := isTidy_entries steps fun member inside found brings =>
    isTidy_of_brings brings inLine inside
  constructor
  · refine forall_selected ofEntries.value ?_
    intro entry found isClass ofEntry
    cases entry <;> cases isClass
    exact ofEntry
  · refine forall_selected ofEntries.value ?_
    intro entry found isFunction ofEntry
    cases entry <;> cases isFunction
    exact ofEntry
  · intro namespaceName member
    rcases NameSet.mem_insert.mp member with rfl | inEntries
    · decide
    · exact ofEntries.namespaces namespaceName inEntries

end Decl

end TypeStub
