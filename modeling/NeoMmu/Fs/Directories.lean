import NeoMmu.Fs.Files

/-!
# Directory trees

FatFs removes files and directories with one function. `RemovalLaws` states what `f_unlink()` does to the
tree of the volumes: it removes a file or an empty directory, unless the entry is locked, and nothing else.
-/

namespace NeoMmu

/-! ## Trees -/

/-- What a location of a directory tree holds. -/
inductive Node (β : Type) where
  | file (contents : β)
  | directory
  deriving DecidableEq, Repr

/-- A directory tree: locations are the names on the way from the root. -/
def DirTree (κ β : Type) : Type := List κ → Option (Node β)

namespace DirTree

variable {κ β : Type}

/-- There is a directory with nothing in it. -/
structure EmptyDirectory (t : DirTree κ β) (l : List κ) : Prop where
  here : t l = some .directory
  below : ∀ names, names ≠ [] → t (l ++ names) = none

/-- There is a file or an empty directory. -/
def Removable (t : DirTree κ β) (l : List κ) : Prop :=
  (∃ contents, t l = some (.file contents)) ∨ t.EmptyDirectory l

/-- The tree without one entry. -/
def erase [DecidableEq κ] (t : DirTree κ β) (l : List κ) : DirTree κ β :=
  fun l' => if l' = l then none else t l'

/-- Every file is still there with its contents. -/
def KeepsFiles (t t' : DirTree κ β) : Prop :=
  ∀ l contents, t l = some (.file contents) → t' l = some (.file contents)

variable [DecidableEq κ]

@[simp] theorem erase_self (t : DirTree κ β) (l : List κ) : t.erase l l = none := if_pos rfl

/-- To erase an entry keeps the files exactly if it is not one. -/
theorem keepsFiles_erase_iff (t : DirTree κ β) (l : List κ) :
    t.KeepsFiles (t.erase l) ↔ ∀ contents, t l ≠ some (.file contents) := by
  constructor
  · intro h contents hfile
    have hgone := h l contents hfile
    rw [erase_self] at hgone
    cases hgone
  · intro h l' contents hfile
    have hne : l' ≠ l := by
      rintro rfl
      exact h contents hfile
    rw [erase, if_neg hne]
    exact hfile

end DirTree

/-! ## The laws of FatFs -/

section Removal

variable {σ κ : Type} [DecidableEq κ]

/-- What FatFs does to the `tree` of its volumes, where it reads a path by `locate` and does not let the
entries that are `locked` be removed. -/
structure RemovalLaws (ff : FatFs σ) (tree : σ → DirTree κ (List UInt8)) (locate : List UInt8 → List κ)
    (locked : σ → List κ → Prop) : Prop where
  f_mount : ∀ device s, tree ((ff.f_mount device).final s).fatfs = tree s.fatfs
  f_unlink_iff : ∀ path s, (ff.f_unlink path).result s = FR_OK ↔
    (tree s.fatfs).Removable (locate path) ∧ ¬ locked s.fatfs (locate path)
  f_unlink_ok : ∀ path s, (ff.f_unlink path).result s = FR_OK →
    tree ((ff.f_unlink path).final s).fatfs = (tree s.fatfs).erase (locate path)
  f_unlink_failed : ∀ path s, (ff.f_unlink path).result s ≠ FR_OK →
    tree ((ff.f_unlink path).final s).fatfs = tree s.fatfs

variable {ff : FatFs σ} {tree : σ → DirTree κ (List UInt8)} {locate : List UInt8 → List κ}
  {locked : σ → List κ → Prop}

/-- The path that `rp_fs_rmdir_83()` hands to FatFs. -/
def rmdirPath (device : UInt8) (dirname : List UInt8) : Option (List UInt8) :=
  (rpFsMakeDirPath device dirname).filter fun path => !rpFsIsRootDirPath path

/-- FatFs has the volume of a device and lets an entry of it be removed. -/
structure Unlinks (ff : FatFs σ) (tree : σ → DirTree κ (List UInt8)) (locked : σ → List κ → Prop)
    (s : Storage σ) (device : UInt8) (l : List κ) : Prop where
  mounted : (ensureMounted ff device).result s = true
  removable : (tree s.fatfs).Removable l
  unlocked : ¬ locked ((ensureMounted ff device).final s).fatfs l

variable (laws : RemovalLaws ff tree locate locked)

include laws

theorem tree_ensureMounted (device : UInt8) (s : Storage σ) :
    tree ((ensureMounted ff device).final s).fatfs = tree s.fatfs := by
  have hkept : Prog.Keeps (fun s s' : Storage σ => tree s'.fatfs = tree s.fatfs) (ensureMounted ff device) := by
    have : Std.Refl fun s s' : Storage σ => tree s'.fatfs = tree s.fatfs := ⟨fun _ => rfl⟩
    have : IsTrans (Storage σ) fun s s' => tree s'.fatfs = tree s.fatfs := ⟨fun _ _ _ h h' => h'.trans h⟩
    exact keeps_ensureMounted (fun device s => laws.f_mount device s) (fun _ _ => rfl) device
  exact hkept s

/-- The removal of a directory succeeds where FatFs removes what its path names, a file included. -/
theorem rpFsRmdir83_spec (device : UInt8) (dirname : List UInt8) (s : Storage σ) :
    let m := rpFsRmdir83 ff device dirname
    (m.result s = false ∧ tree (m.final s).fatfs = tree s.fatfs ∧
        ∀ path, rmdirPath device dirname = some path → ¬ Unlinks ff tree locked s device (locate path)) ∨
      ∃ path, rmdirPath device dirname = some path ∧ Unlinks ff tree locked s device (locate path) ∧
        m.result s = true ∧ tree (m.final s).fatfs = (tree s.fatfs).erase (locate path) := by
  have hmount := tree_ensureMounted laws device s
  simp only [rpFsRmdir83, rmdirPath, Prog.result_bind, Prog.final_bind, Prog.result_ite, Prog.final_ite]
  by_cases hmounted : (ensureMounted ff device).result s = true
  swap
  · exact .inl ⟨if_neg hmounted, by rw [if_neg hmounted]; exact hmount, fun _ _ h => hmounted h.mounted⟩
  rcases hpath : rpFsMakeDirPath device dirname with - | path
  · rw [if_pos hmounted, if_pos hmounted]
    exact .inl ⟨rfl, hmount, by rintro _ ⟨⟩⟩
  by_cases hroot : rpFsIsRootDirPath path = true
  · rw [if_pos hmounted, if_pos hmounted]
    simp only [hroot, if_true, Option.filter_some, Bool.not_true, Bool.false_eq_true, if_false]
    exact .inl ⟨rfl, hmount, by rintro _ ⟨⟩⟩
  have hfound : Option.filter (fun path => !rpFsIsRootDirPath path) (some path) = some path := by
    simp [hroot]
  rw [if_pos hmounted, if_pos hmounted, hfound]
  simp only [if_neg hroot, Prog.result_bind, Prog.final_bind, Prog.result_pure, Prog.final_pure]
  by_cases hok : (ff.f_unlink path).result ((ensureMounted ff device).final s) = FR_OK
  · obtain ⟨hremovable, hunlocked⟩ := (laws.f_unlink_iff _ _).1 hok
    rw [hmount] at hremovable
    exact .inr ⟨path, rfl, ⟨hmounted, hremovable, hunlocked⟩, decide_eq_true hok,
      (laws.f_unlink_ok _ _ hok).trans (by rw [hmount])⟩
  · refine .inl ⟨decide_eq_false hok, (laws.f_unlink_failed _ _ hok).trans hmount, ?_⟩
    intro path' hpath' hunlinks
    obtain rfl := Option.some.inj hpath'
    refine hok ((laws.f_unlink_iff _ _).2 ⟨?_, hunlinks.unlocked⟩)
    rw [hmount]
    exact hunlinks.removable

end Removal

/-! ## A disk with directories

A FatFs for a volume whose tree is in memory. Nothing can be opened on it.
-/

/-- The entries of the tree, by their locations. -/
structure TreeDisk where
  entries : List (List (List UInt8) × Node (List UInt8))

namespace TreeDisk

/-- `FR_DENIED` -/
def FR_DENIED : FRESULT := 7

/-- The names on a path, the drive first. -/
def locate (path : List UInt8) : List (List UInt8) := path.splitOn slash

/-- The tree of the disk. -/
def tree (d : TreeDisk) : DirTree (List UInt8) (List UInt8) :=
  fun l => List.lookup l d.entries

/-- The disk has something below a location. -/
def occupied (d : TreeDisk) (l : List (List UInt8)) : Bool :=
  d.entries.any fun e => l.isPrefixOf e.1 && e.1 != l

/-- The disk without the entries of a location. -/
def remove (l : List (List UInt8)) (s : Storage TreeDisk) : Storage TreeDisk :=
  { s with fatfs := ⟨s.fatfs.entries.filter fun e => e.1 != l⟩ }

/-- The FatFs of a tree in memory. -/
def fatFs : FatFs TreeDisk where
  f_mount _ := return FR_OK
  f_open _ _ _ := return FR_DENIED
  f_close _ := return FR_OK
  f_read _ _ := return (FR_DENIED, [])
  f_write _ _ := return (FR_DENIED, 0)
  f_lseek _ _ := return FR_DENIED
  f_size _ _ := 0
  f_tell _ _ := 0
  f_unlink path := do
    let d := (← get).fatfs
    match d.tree (locate path) with
    | none => return RamDisk.FR_NO_FILE
    | some (.file _) =>
      modify (remove (locate path))
      return FR_OK
    | some .directory =>
      if d.occupied (locate path) then
        return FR_DENIED
      else
        modify (remove (locate path))
        return FR_OK
  f_rename _ _ := return FR_DENIED
  f_mkdir _ := return FR_DENIED
  f_opendir _ _ := return FR_DENIED
  f_readdir _ := return (FR_DENIED, ⟨[], [], 0, 0⟩)
  f_closedir _ := return FR_OK
  entriesLeft _ _ := 0
  entriesLeft_readdir := by
    intro slot s h
    exact absurd (show FR_DENIED = FR_OK from h) (by decide)

theorem tree_remove (d : TreeDisk) (l : List (List UInt8)) (s : Storage TreeDisk) (hs : s.fatfs = d) :
    (remove l s).fatfs.tree = d.tree.erase l := by
  subst hs
  funext l'
  show List.lookup l' (s.fatfs.entries.filter fun e => e.1 != l) = if l' = l then none else _
  rw [tree]
  generalize s.fatfs.entries = entries
  induction entries with
  | nil => simp
  | cons e entries ih =>
    obtain ⟨at_, node⟩ := e
    by_cases hkept : at_ = l
    · subst hkept
      rw [List.filter_cons_of_neg (by simp), ih]
      split_ifs with heq
      · rfl
      · rw [List.lookup_cons, beq_false_of_ne heq]
    · rw [List.filter_cons_of_pos (by simpa using hkept), List.lookup_cons, List.lookup_cons, ih]
      by_cases heq : l' = at_
      · subst heq
        simp [hkept]
      · rw [beq_false_of_ne heq]

theorem emptyDirectory_iff (d : TreeDisk) (l : List (List UInt8)) :
    d.tree.EmptyDirectory l ↔ d.tree l = some .directory ∧ d.occupied l = false := by
  have hbelow : (∀ names, names ≠ [] → d.tree (l ++ names) = none) ↔ d.occupied l = false := by
    rw [occupied, List.any_eq_false]
    constructor
    · intro h e he hin
      rw [Bool.and_eq_true, List.isPrefixOf_iff_prefix, bne_iff_ne] at hin
      obtain ⟨⟨names, hnames⟩, hne⟩ := hin
      have hnil : names ≠ [] := by
        rintro rfl
        exact hne (by rw [← hnames, List.append_nil])
      have hnone := h names hnil
      rw [hnames, tree, List.lookup_eq_none_iff] at hnone
      simpa using hnone e he
    · intro h names hnames
      rw [tree, List.lookup_eq_none_iff]
      intro e he
      have hnot := h e he
      rw [Bool.and_eq_true, List.isPrefixOf_iff_prefix, bne_iff_ne] at hnot
      rw [bne_iff_ne]
      intro heq
      refine hnot ⟨⟨names, heq⟩, ?_⟩
      rw [← heq]
      simpa using hnames
  exact ⟨fun h => ⟨h.here, hbelow.1 h.below⟩, fun h => ⟨h.1, hbelow.2 h.2⟩⟩

/-- The call of `f_unlink()` has removed what the path names, or there was nothing to remove. -/
theorem f_unlink_cases (path : List UInt8) (s : Storage TreeDisk) :
    let m := fatFs.f_unlink path
    (s.fatfs.tree.Removable (locate path) ∧ m.result s = FR_OK ∧ m.final s = remove (locate path) s) ∨
      (¬ s.fatfs.tree.Removable (locate path) ∧ m.result s ≠ FR_OK ∧ m.final s = s) := by
  simp only [fatFs, Prog.result_bind, Prog.final_bind, Prog.result_get, Prog.final_get,
    DirTree.Removable, emptyDirectory_iff]
  rcases s.fatfs.tree (locate path) with - | node
  · right
    exact ⟨by simp, show RamDisk.FR_NO_FILE ≠ FR_OK by decide, rfl⟩
  cases node with
  | file contents =>
    left
    exact ⟨.inl ⟨contents, rfl⟩, rfl, rfl⟩
  | directory =>
    by_cases hoccupied : s.fatfs.occupied (locate path) = true
    · right
      simp only [hoccupied, if_true]
      exact ⟨by simp, show FR_DENIED ≠ FR_OK by decide, rfl⟩
    · left
      simp only [hoccupied]
      exact ⟨by simp, rfl, rfl⟩

theorem removalLaws : RemovalLaws fatFs tree locate fun _ _ => False where
  f_mount _ _ := rfl
  f_unlink_iff path s := by
    rcases f_unlink_cases path s with ⟨hremovable, hok, -⟩ | ⟨hnot, hfailed, -⟩
    · exact iff_of_true hok ⟨hremovable, not_false⟩
    · exact iff_of_false hfailed fun h => hnot h.1
  f_unlink_ok path s hok := by
    rcases f_unlink_cases path s with ⟨-, -, hfin⟩ | ⟨-, hfailed, -⟩
    · rw [hfin]
      exact tree_remove s.fatfs (locate path) s rfl
    · exact absurd hok hfailed
  f_unlink_failed path s hfailed := by
    rcases f_unlink_cases path s with ⟨-, hok, -⟩ | ⟨-, -, hfin⟩
    · exact absurd hok hfailed
    · rw [hfin]

end TreeDisk

end NeoMmu
