import Mathlib.Data.List.Basic

/-!
# Replacing a file by renaming another over it

A file is written anew by writing a temporary file beside it and renaming that over it.  The
operating system can refuse any of the operations, and the process can end between any two of them.

* `Files.run` — a list of operations under a `Fate`: it completes, one of the operations fails, or
  the process ends.
* `Files.run_rename` — **the replacement is atomic**: whatever happens, the file is the one from
  before or what has been written, and which of the two is known unless the process ends.
-/

set_option autoImplicit false

/-- A file and the temporary file beside it; `none` for one that does not exist. -/
structure Files (β : Type) where
  /-- The file. -/
  file : Option (List β)
  /-- The temporary file. -/
  tmp : Option (List β)

/-- An operation on files. -/
inductive FileOp (β : Type)
  /-- Create the directories above. -/
  | createDir
  /-- Create the temporary file, or empty it. -/
  | create
  /-- Write to the end of the temporary file. -/
  | write (chunk : List β)
  /-- Have what is written stored. -/
  | sync
  /-- Rename the temporary file over the file. -/
  | rename

/-- What becomes of a list of operations. -/
inductive Fate (ε : Type)
  /-- All of them are carried out. -/
  | completes
  /-- The one with the number `step` fails, after `written` items if it writes. -/
  | fails (step written : Nat) (error : ε)
  /-- The process ends before the one with the number `step`, or at the end. -/
  | crashes (step : Nat)

namespace Files

variable {β ε : Type}

/-- What an operation does. -/
def apply (files : Files β) : FileOp β → Files β
  | .createDir | .sync => files
  | .create => { files with tmp := some [] }
  | .write chunk => { files with tmp := files.tmp.map (· ++ chunk) }
  | .rename => ⟨files.tmp, none⟩

/-- What an operation that fails may have done. -/
def applyPart (files : Files β) (written : Nat) : FileOp β → Files β
  | .write chunk => files.apply (.write (chunk.take written))
  | _ => files

/-- The files after a list of operations, and their result unless the process has ended. -/
def run (files : Files β) : List (FileOp β) → Fate ε → Files β × Option (Except ε Unit)
  | [], .crashes _ => (files, none)
  | [], _ => (files, some (.ok ()))
  | op :: _, .fails 0 written error => (files.applyPart written op, some (.error error))
  | _ :: _, .crashes 0 => (files, none)
  | op :: ops, .fails (step + 1) written error =>
    (files.apply op).run ops (.fails step written error)
  | op :: ops, .crashes (step + 1) => (files.apply op).run ops (.crashes step)
  | op :: ops, .completes => (files.apply op).run ops .completes

/-- **A list of operations is carried out** unless one of them fails or the process ends. -/
theorem run_isOk_iff {files : Files β} {ops : List (FileOp β)} {fate : Fate ε}
    (hfate : ∀ step, fate ≠ .crashes step) :
    (files.run ops fate).2 = some (.ok ()) ↔
      ∀ step written error, fate = .fails step written error → ops.length ≤ step := by
  induction ops generalizing files fate with
  | nil =>
    rcases fate with _ | ⟨step, written, error⟩ | step
    · simp [run]
    · simp [run]
    · exact absurd rfl (hfate step)
  | cons op ops ih =>
    rcases fate with _ | ⟨step, written, error⟩ | step
    · rw [run, ih hfate]
      simp
    · rcases step with _ | step
      · simp [run]
      · rw [run, ih (by simp)]
        simp
    · exact absurd rfl (hfate step)

/-- **A list of operations has a result** unless the process ends. -/
theorem exists_crashes_of_run {files : Files β} {ops : List (FileOp β)} {fate : Fate ε}
    (h : (files.run ops fate).2 = none) : ∃ step, fate = .crashes step := by
  induction ops generalizing files fate with
  | nil =>
    rcases fate with _ | ⟨step, written, error⟩ | step
    · cases h
    · cases h
    · exact ⟨step, rfl⟩
  | cons op ops ih =>
    rcases fate with _ | ⟨step, written, error⟩ | step
    · exact ih h
    · rcases step with _ | step
      · cases h
      · obtain ⟨_, hcrash⟩ := @ih (files.apply op) (.fails step written error) h
        cases hcrash
    · exact ⟨step, rfl⟩

theorem file_apply {files : Files β} {op : FileOp β} (h : op ≠ .rename) :
    (files.apply op).file = files.file := by
  cases op <;> first | rfl | exact absurd rfl h

theorem file_applyPart (files : Files β) (written : Nat) (op : FileOp β) :
    (files.applyPart written op).file = files.file := by
  cases op <;> rfl

/-- Chunks written one after the other. -/
theorem tmp_foldl_write (files : Files β) (chunks : List (List β)) :
    ((chunks.map FileOp.write).foldl apply files).tmp = files.tmp.map (· ++ chunks.flatten) := by
  induction chunks generalizing files with
  | nil =>
    rw [List.flatten_nil, List.map_nil, List.foldl_nil]
    rcases files.tmp with _ | content <;> simp
  | cons chunk chunks ih =>
    rw [List.map_cons, List.foldl_cons, ih, apply, Option.map_map, List.flatten_cons]
    rcases files.tmp with _ | content <;> simp

/-- **The replacement is atomic.** -/
theorem run_rename {files : Files β} {ops : List (FileOp β)} (hops : ∀ op ∈ ops, op ≠ .rename)
    (fate : Fate ε) :
    (∃ files', files.run (ops ++ [.rename]) fate = (files', some (.ok ())) ∧
      files'.file = (ops.foldl apply files).tmp ∧ ∀ step, fate ≠ .crashes step) ∨
    (∃ files' error, files.run (ops ++ [.rename]) fate = (files', some (.error error)) ∧
      files'.file = files.file) ∨
    ∃ files' step, files.run (ops ++ [.rename]) fate = (files', none) ∧ fate = .crashes step ∧
      (files'.file = files.file ∨ files'.file = (ops.foldl apply files).tmp) := by
  induction ops generalizing files fate with
  | nil =>
    rcases fate with _ | ⟨step, written, error⟩ | step
    · exact .inl ⟨_, rfl, rfl, by simp⟩
    · rcases step with _ | step
      · exact .inr (.inl ⟨_, _, rfl, rfl⟩)
      · exact .inl ⟨_, rfl, rfl, by simp⟩
    · rcases step with _ | step
      · exact .inr (.inr ⟨_, _, rfl, rfl, .inl rfl⟩)
      · exact .inr (.inr ⟨_, _, rfl, rfl, .inr rfl⟩)
  | cons op ops ih =>
    rw [List.forall_mem_cons] at hops
    have hfile := @file_apply _ files op hops.1
    rcases fate with _ | ⟨step, written, error⟩ | step
    · have hrest := @ih (files.apply op) hops.2 .completes
      rw [hfile] at hrest
      exact hrest
    · rcases step with _ | step
      · exact .inr (.inl ⟨_, _, rfl, files.file_applyPart written op⟩)
      · have hrest := @ih (files.apply op) hops.2 (.fails step written error)
        rw [hfile] at hrest
        simpa [run] using hrest
    · rcases step with _ | step
      · exact .inr (.inr ⟨_, _, rfl, rfl, .inl rfl⟩)
      · have hrest := @ih (files.apply op) hops.2 (.crashes step)
        rw [hfile] at hrest
        simpa [run] using hrest

end Files
