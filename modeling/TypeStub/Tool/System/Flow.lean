import TypeStub.Tool.System.Access

/-!
Contract: programs whose output is the input of others.

Owns: `connect`, which runs a writer and a reader with a pipe between them.

The writer runs first. If it writes more than the pipe takes, the reader runs on what is there
so far. When that is not enough for it, both start again from the world before them, with more
room in the pipe; when the reader ends, the writer starts again and is told that nobody reads
on once the pipe is full. So what both do is what they would do side by side, as long as they
only meet in the pipe.
-/

namespace TypeStub.Tool

/-- How many bytes a pipe takes before its reader has to run. -/
def pipeRoom : Nat :=
  65536

/-- What a writer did with a pipe. -/
inductive Delivery (α : Type) where
  | complete (answer : α)
  | stalled

/-- Run a writer with a pipe as its output, which takes so many bytes. -/
def deliver {α : Type} (bound : Nat) (isLast : Bool) (writer : (opened : Nat) → Job α) :
    Job (Nat × Delivery α) := do
  let pipe ← addPipe ⟨.empty, 0, some bound, true, isLast⟩
  let opened ← addOpened (writingEnd pipe)
  let delivery ← tryCatch (.complete <$> writer opened) fun
    | .stalled number => if number = pipe then return .stalled else throw (.stalled number)
    | other => throw other
  return (pipe, delivery)

/-- Run a writer and then a reader with a pipe between them. The pipe is made larger at most
so many times. -/
def connect {α β : Type} (writer : (opened : Nat) → Job α) (reader : (opened : Nat) → Job β) :
    (times : Nat) → (bound : Nat) → Job (α × β)
  | 0, _ => throw (.killed 9)
  | times + 1, bound => do
      let before ← get
      let (pipe, delivery) ← deliver bound false writer
      let receive (pipe : Nat) : Job β := do
        reader (← addOpened (readingEnd pipe))
      let receiveAll (pipe : Nat) : Job β := do
        editPipe pipe fun pipe => { pipe with isOpen := false }
        receive pipe
      match delivery with
      | .complete written => return (written, ← receiveAll pipe)
      | .stalled =>
          let answer : Option β ← tryCatch (some <$> receive pipe) fun
            | .starved number => if number = pipe then return none else throw (.starved number)
            | other => throw other
          match answer with
          | none =>
              set before
              connect writer reader times (2 * bound)
          | some _ =>
              let taken := ((← pipe? pipe).map Pipe.taken).getD 0
              set before
              match ← deliver (taken + pipeRoom) true writer with
              | (pipe, .complete written) => return (written, ← receiveAll pipe)
              | _ => throw (.killed 9)

/-- How often the pipe between two programs is made larger. -/
def greatestGrowth : Nat :=
  40

end TypeStub.Tool
