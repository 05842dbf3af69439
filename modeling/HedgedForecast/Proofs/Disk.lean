import HedgedForecast.Disk
import Mathlib.Data.List.Infix

/-! # Making directories and files

What stands on a disk after directories were made, and what making a file adds to a disk.
-/

namespace HedgedForecast.Disk

variable {disk after : Disk} {path other : Path}

/-- A file is read as the text that it holds. -/
theorem readText_of_file {text : String} (file : disk.node? path = some (.file text.toUTF8)) :
    disk.readText path = .ok text := by
  have decoded : String.fromUTF8? text.toUTF8 = some text := dif_pos text.isValidUTF8
  rw [readText, file]
  simp only [decoded]

theorem mem_downTo : other ∈ downTo path ↔ other ≠ [] ∧ other <+: path := by
  simp only [downTo, List.mem_map, List.mem_range]
  constructor
  · rintro ⟨count, short, rfl⟩
    refine ⟨?_, List.take_prefix _ _⟩
    rw [← List.length_pos_iff, List.length_take]
    omega
  · rintro ⟨inhabited, above⟩
    have positive := List.length_pos_iff.mpr inhabited
    refine ⟨other.length - 1, ?_, ?_⟩
    · have := above.length_le
      omega
    · rw [Nat.sub_add_cancel positive, ← List.prefix_iff_eq_take.mp above]

theorem above_eq_downTo_dropLast : above path = downTo path.dropLast := by
  unfold above downTo
  rw [← List.map_dropLast, List.dropLast_eq_take, List.length_range, List.take_range, min_eq_left (Nat.sub_le _ _),
    List.length_dropLast]
  apply List.map_congr_left
  intro count short
  rw [List.mem_range] at short
  rw [List.dropLast_eq_take, List.take_take, min_eq_left (by omega)]

theorem mem_above : other ∈ above path ↔ other ≠ [] ∧ other <+: path ∧ other ≠ path := by
  rw [above_eq_downTo_dropLast, mem_downTo, and_congr_right_iff]
  intro inhabited
  constructor
  · intro higher
    refine ⟨higher.trans (List.dropLast_prefix path), ?_⟩
    rintro rfl
    have bound := higher.length_le
    have positive := List.length_pos_iff.mpr inhabited
    rw [List.length_dropLast] at bound
    omega
  · rintro ⟨higher, different⟩
    apply List.prefix_of_prefix_length_le higher (List.dropLast_prefix path)
    have bound := higher.length_le
    have shorter : other.length ≠ path.length := fun same => different (higher.eq_of_length same)
    rw [List.length_dropLast]
    omega

theorem not_mem_above_self : path ∉ above path :=
  fun member => (mem_above.mp member).2.2 rfl

theorem node?_set (node : DiskNode) :
    (disk.set path node).node? other = if other = path then some node else disk.node? other :=
  rfl

theorem node?_foldl_set (paths : List Path) :
    (paths.foldl (fun disk path => disk.set path .directory) disk).node? other =
      if other ∈ paths then some .directory else disk.node? other := by
  induction paths generalizing disk with
  | nil => simp
  | cons first rest ih =>
    rw [List.foldl_cons, ih, node?_set]
    by_cases member : other ∈ rest <;> by_cases same : other = first <;> simp [member, same]

theorem isFile_iff : disk.isFile path ↔ ∃ contents, disk.node? path = some (.file contents) := by
  unfold isFile
  split <;> simp_all

theorem isDirectory_iff : disk.isDirectory path ↔ disk.node? path = some .directory := by
  unfold isDirectory
  split <;> simp_all

/-- What is missing cannot be read. -/
theorem readText_of_missing {text : String} (missing : disk.node? path = none) : disk.readText path ≠ .ok text := by
  rw [readText, missing]
  simp

/-- A file stands where the directory of a path should be, or above it. -/
def Blocked (disk : Disk) (path : Path) : Prop :=
  ∃ directory, (directory = path.dropLast ∨ directory ∈ above path.dropLast) ∧ disk.isFile directory

/-- A disk that differs from the one before by a file with a text and the directories above it. -/
structure Gains (before after : Disk) (path : Path) (text : String) : Prop where
  file : after.node? path = some (.file text.toUTF8)
  directories : ∀ parent ∈ above path, after.node? parent = some .directory
  rest : ∀ other, other ≠ path → other ∉ above path → after.node? other = before.node? other

theorem makeDirectories_of_blocked (blocked : disk.Blocked path) :
    ∃ cause, disk.makeDirectories path.dropLast = .error cause := by
  obtain ⟨directory, place, file⟩ := blocked
  unfold makeDirectories
  split
  · exact ⟨_, rfl⟩
  · next free =>
    rcases place with rfl | higher
    · rw [if_pos file]
      exact ⟨_, rfl⟩
    · exact absurd (List.any_eq_true.mpr ⟨directory, higher, file⟩) free

theorem makeDirectories_of_not_blocked (free : ¬disk.Blocked path) :
    ∃ made, disk.makeDirectories path.dropLast = .ok made ∧
      ∀ other, made.node? other = if other ∈ above path then some .directory else disk.node? other := by
  have higher : ¬((above path.dropLast).any disk.isFile) := by
    intro blocked
    obtain ⟨directory, member, file⟩ := List.any_eq_true.mp blocked
    exact free ⟨directory, .inr member, file⟩
  have own : ¬disk.isFile path.dropLast := fun file => free ⟨_, .inl rfl, file⟩
  rw [makeDirectories, if_neg higher, if_neg own]
  refine ⟨_, rfl, fun other => ?_⟩
  rw [node?_foldl_set, above_eq_downTo_dropLast]

/-- Making a file takes nothing away if nothing stood in its place and no file was in the way. -/
theorem Gains.kept {text : String} {node : DiskNode} (gains : disk.Gains after path text)
    (missing : disk.node? path = none) (free : ¬disk.Blocked path) (there : disk.node? other = some node) :
    after.node? other = some node := by
  by_cases own : other = path
  · rw [own, missing] at there
    contradiction
  by_cases parent : other ∈ above path
  · have directory : node = .directory := by
      cases node with
      | directory => rfl
      | file contents =>
        refine absurd ⟨other, ?_, isFile_iff.mpr ⟨contents, there⟩⟩ free
        rw [above_eq_downTo_dropLast, mem_downTo] at parent
        rw [mem_above]
        tauto
    rw [directory]
    exact gains.directories other parent
  · rw [gains.rest other own parent]
    exact there

end HedgedForecast.Disk
