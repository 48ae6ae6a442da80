import TypeStub.Proofs.Declaration.Tidy
import TypeStub.Stub

/-!
Contract: the rows of generated stubs.

Owns: the rows at the left margin of the stub of a module. None of them comes from
documentation.
-/

namespace TypeStub

/-- Documentation stays out of the left margin of a stub: what stands there is the outline of
the module, with its imports in ascending order. -/
theorem Stub.topRows_generate {module : Dump.Module} {profile : Profile} {stub : Stub}
    (generated : generate module profile = .ok stub) (inLine : module.InLine) :
    ∃ assembled : Decl.Assembled,
      Decl.Module.assemble module profile = .ok assembled ∧
        assembled.module.namespaces.items.Pairwise (· < ·) ∧
        Layout.topRows stub.text.toList = assembled.module.outline := by
  unfold generate at generated
  split at generated
  · cases generated
  rename_i assembled accepted
  have isStub := Except.ok.inj generated
  have tidy := Decl.Module.isTidy_of_assemble accepted inLine
  refine ⟨assembled, accepted, assembled.module.namespaces.ascending, ?_⟩
  rw [← isStub, Decl.Module.render, String.toList_ofList]
  exact Decl.Module.topRows_text tidy

/-- A module with a class, the documentation of which has rows that look like code. -/
def codeInDocs : Dump.Module where
  name := "shapes"
  doc := none
  members :=
    [⟨"Disc", .classObject
        ⟨"Disc", "shapes", "", some "A disc.\n\nclass Ring:", [],
          [⟨"area", .routine ⟨true, some "Area.\ndef f(): ...", none⟩⟩], false, none⟩⟩]
  objectMembers := []

private theorem inLine_codeInDocs : codeInDocs.InLine where
  members := by decide
  routines := by
    intro member inside routine isRoutine
    rw [List.mem_singleton.mp inside] at isRoutine
    cases isRoutine
  classes := by
    intro member inside cls isClass
    rw [List.mem_singleton.mp inside] at isClass
    cases isClass
    constructor
    · decide
    · intro member inside routine isRoutine parameters known
      rw [List.mem_singleton.mp inside] at isRoutine
      cases isRoutine
      cases known
    · intro parameters known
      cases known
    · intro base member
      cases member

theorem Stub.topRows_generate_codeInDocs :
    ∃ stub, generate codeInDocs .standard = .ok stub ∧
      Layout.topRows stub.text.toList =
        ["from __future__ import annotations".toList, "import typing".toList,
          "@typing.final".toList, "class Disc:".toList] := by
  have succeeds : (generate codeInDocs .standard).isOk = true := by decide +kernel
  cases generated : generate codeInDocs .standard with
  | error fault =>
      rw [generated] at succeeds
      cases succeeds
  | ok stub =>
      obtain ⟨assembled, accepted, -, ofStub⟩ := topRows_generate generated inLine_codeInDocs
      have outlined : (Decl.Module.assemble codeInDocs .standard).map (·.module.outline) =
          .ok ["from __future__ import annotations".toList, "import typing".toList,
            "@typing.final".toList, "class Disc:".toList] := by decide +kernel
      rw [accepted] at outlined
      exact ⟨stub, rfl, ofStub.trans (Except.ok.inj outlined)⟩

end TypeStub
