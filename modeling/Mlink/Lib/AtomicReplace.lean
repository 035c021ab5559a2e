/-
# Replacing a file as a whole

To replace what a file holds, a program writes a draft beside it and then renames the
draft to the file. Each step may be the last before the program is stopped, and each may
fail, after which the attempt is given up and the draft stays as it is. The file itself
is touched by the rename alone, and at that moment the draft is complete: so at any time
the file holds what it held at the start or what some attempt was to put there, in full.
-/

import Mathlib.Data.List.Basic

namespace AtomicReplace

variable {β : Type}

/-- An attempt: the content is known, or the draft has been created and the rest is still
to be written. -/
inductive Job (β : Type)
  | planned (content : List β)
  | drafting (content rest : List β)
  deriving DecidableEq, Repr

/-- The content an attempt is to put into the file. -/
def Job.content : Job β → List β
  | planned content | drafting content _ => content

/-- The file, the draft, and the attempt in progress. -/
structure Writer (β : Type) where
  file : Option (List β)
  draft : Option (List β)
  job : Option (Job β)
  deriving DecidableEq, Repr

namespace Writer

variable (writer : Writer β)

def start (content : List β) : Writer β := { writer with job := some (.planned content) }

/-- Create the draft, empty, whatever was left of an earlier one. -/
def create : Writer β :=
  match writer.job with
  | some (.planned content) =>
      { writer with draft := some [], job := some (.drafting content content) }
  | _ => writer

/-- Write some more of the draft. -/
def write (count : Nat) : Writer β :=
  match writer.job with
  | some (.drafting content rest) =>
      { writer with
        draft := some (writer.draft.getD [] ++ rest.take count)
        job := some (.drafting content (rest.drop count)) }
  | _ => writer

/-- Once all of it is written, the draft takes the place of the file. -/
def rename : Writer β :=
  match writer.job with
  | some (.drafting _ []) => ⟨writer.draft, none, none⟩
  | _ => writer

/-- An attempt ends halfway. -/
def abandon : Writer β := { writer with job := none }

/-- What is written of the draft and what is not make the content. -/
def Whole : Prop :=
  ∀ content rest, writer.job = some (.drafting content rest) →
    writer.draft.getD [] ++ rest = content ∧ writer.draft.isSome

variable {writer}

theorem whole_start (content : List β) : (writer.start content).Whole :=
  fun _ _ hjob => by cases hjob

theorem whole_abandon : writer.abandon.Whole := fun _ _ hjob => by cases hjob

theorem Whole.create (whole : writer.Whole) : writer.create.Whole := by
  rw [Writer.create]
  split
  · intro content rest hjob
    cases hjob
    exact ⟨rfl, rfl⟩
  · exact whole

theorem Whole.write (whole : writer.Whole) (count : Nat) : (writer.write count).Whole := by
  rw [Writer.write]
  split
  · rename_i content rest hjob
    intro other left hother
    cases hother
    refine ⟨?_, rfl⟩
    rw [Option.getD_some, List.append_assoc, List.take_append_drop]
    exact (whole content rest hjob).1
  · exact whole

theorem Whole.rename (whole : writer.Whole) : writer.rename.Whole := by
  rw [Writer.rename]
  split
  · intro _ _ hjob
    cases hjob
  · exact whole

@[simp]
theorem file_start (content : List β) : (writer.start content).file = writer.file := rfl

@[simp]
theorem file_abandon : writer.abandon.file = writer.file := rfl

@[simp]
theorem file_create : writer.create.file = writer.file := by
  rw [Writer.create]
  split <;> rfl

@[simp]
theorem file_write (count : Nat) : (writer.write count).file = writer.file := by
  rw [Writer.write]
  split <;> rfl

/-- Neither creating nor writing the draft ends the attempt or changes what it is for. -/
theorem content_create : writer.create.job.map Job.content = writer.job.map Job.content := by
  rw [Writer.create]
  split
  · rename_i content hjob
    rw [hjob]
    rfl
  · rfl

theorem content_write (count : Nat) :
    (writer.write count).job.map Job.content = writer.job.map Job.content := by
  rw [Writer.write]
  split
  · rename_i content rest hjob
    rw [hjob]
    rfl
  · rfl

/-- A rename puts the whole content into the file, or is not due yet and changes nothing. -/
theorem Whole.rename_cases (whole : writer.Whole) :
    (∃ content, writer.job = some (.drafting content []) ∧ writer.rename.file = some content ∧
        writer.rename.job = none) ∨
      writer.rename = writer ∧ ∀ content, writer.job ≠ some (.drafting content []) := by
  cases hjob : writer.job with
  | none =>
      right
      refine ⟨?_, fun _ => nofun⟩
      rw [Writer.rename, hjob]
  | some job =>
      cases job with
      | planned content =>
          right
          refine ⟨?_, fun _ => nofun⟩
          rw [Writer.rename, hjob]
      | drafting content rest =>
          cases rest with
          | nil =>
              left
              obtain ⟨hwritten, hdraft⟩ := whole content [] hjob
              obtain ⟨draft, hsome⟩ := Option.isSome_iff_exists.mp hdraft
              rw [hsome, Option.getD_some, List.append_nil] at hwritten
              refine ⟨content, rfl, ?_, ?_⟩
              · rw [Writer.rename, hjob]
                exact hsome.trans (congrArg some hwritten)
              · rw [Writer.rename, hjob]
          | cons first others =>
              right
              refine ⟨?_, fun _ => nofun⟩
              rw [Writer.rename, hjob]

end Writer

end AtomicReplace
