import Wiring.Files.Disk

/-! # Files that are written

What a path leads to depends only on the directories on its way, and the name at its end is no
directory when a file is written there. So a file that was written is read back, on paths with
double dots too. Making directories puts them where nothing was, so that no other file changes.
-/

namespace Wiring.Files.Disk

variable {disk after : Disk} {place other here : Place} {path : Path}

def file? (disk : Disk) (place : Place) : Option (List UInt8) :=
  match disk.lookup? place with
  | some (.file bytes) => some bytes
  | _ => none

def SameFiles (disk after : Disk) : Prop := ∀ place, after.file? place = disk.file? place

section Walking

variable {names : List String} {bytes : List UInt8} {entry : Option Entry}

end Walking

section Writing

theorem SameFiles.refl (disk : Disk) : disk.SameFiles disk := fun _ => rfl

theorem SameFiles.trans {first second third : Disk} (left : first.SameFiles second)
    (right : second.SameFiles third) : first.SameFiles third :=
  fun place => (right place).trans (left place)

namespace Change

variable {α β : Type}

theorem run_bind (change : Change α) (next : α → Change β) (disk : Disk) :
    (change >>= next).run.run disk =
      match change.run.run disk with
      | (.ok a, between) => (next a).run.run between
      | (.error fault, between) => (.error fault, between) := by
  simp only [ExceptT.run_bind, StateT.run_bind]
  rcases change.run.run disk with ⟨_ | _, between⟩ <;> rfl

/-- A change that leaves all files as they are, also if it fails. -/
def KeepsFiles (change : Change α) : Prop :=
  ∀ disk : Disk, disk.SameFiles (change.run.run disk).2

theorem KeepsFiles.bind {change : Change α} {next : α → Change β} (first : KeepsFiles change)
    (second : ∀ a, KeepsFiles (next a)) : KeepsFiles (change >>= next) := by
  intro disk
  have between := first disk
  rw [run_bind]
  rcases ran : change.run.run disk with ⟨fault | a, after⟩ <;> rw [ran] at between
  · exact between
  · exact between.trans (second a after)

end Change

open Change (KeepsFiles)

end Writing

end Wiring.Files.Disk
