import NeoMmu.Mailbox.RequestFrame
import NeoMmu.Usb.Lifecycle

/-!
# The file behind a handle

A handle is the number of a slot, and the file it stands for is the one its `FIL` object was opened on.
Callbacks, closes and the calls that open nothing take no handle into use, and a handle that stays in
use keeps its file. An open does so for every handle but the one it returns, which was free.
-/

namespace NeoMmu

variable {τ φ α : Type}

/-- Handles in use were in use before, on the same file; but for those in `but`. -/
def HandlesKept (file : τ → UInt8 → φ) (but : UInt8 → Prop) (s s' : Storage (UsbHost τ)) : Prop :=
  ∀ i, ¬ but i → (s'.gRPFSHandles i).in_use = true →
    (s.gRPFSHandles i).in_use = true ∧ file s'.fatfs.fatfs i = file s.fatfs.fatfs i

/-- No handle. -/
def NoHandle (_ : UInt8) : Prop := False

section

variable {file : τ → UInt8 → φ} {but : UInt8 → Prop}

instance : Std.Refl (HandlesKept file but) where
  refl _ := fun _ _ h => ⟨h, rfl⟩

instance : IsTrans (Storage (UsbHost τ)) (HandlesKept file but) where
  trans s s' s'' h h' := by
    intro i hi hin
    obtain ⟨hin', hfile'⟩ := h' i hi hin
    obtain ⟨hin'', hfile⟩ := h i hi hin'
    exact ⟨hin'', hfile'.trans hfile⟩

theorem HandlesKept.mono {but' : UInt8 → Prop} {s s' : Storage (UsbHost τ)}
    (h : HandlesKept file but s s') (hbut : ∀ i, but i → but' i) : HandlesKept file but' s s' :=
  fun i hi => h i fun hbi => hi (hbut i hbi)

/-- A handle that is free in the end need not be excepted. -/
theorem HandlesKept.of_free {slot : UInt8} {s s' : Storage (UsbHost τ)}
    (h : HandlesKept file (· = slot) s s') (hfree : (s'.gRPFSHandles slot).in_use = false) :
    HandlesKept file NoHandle s s' := by
  intro i _ hin
  refine h i ?_ hin
  rintro rfl
  exact Bool.false_ne_true (hfree.symm.trans hin)

theorem keptByTables_handlesKept : KeptByTables (HandlesKept file but) := by
  intro s s' hhandles _ hfatfs i _ hin
  rw [hhandles] at hin
  exact ⟨hin, by rw [hfatfs]⟩

theorem handlesKept_closeHandle (s : Storage (UsbHost τ)) (i : UInt8) :
    HandlesKept file but s (s.setHandle i ⟨false, 0, 0⟩) := by
  intro j _ hin
  have heq := (subsides_closeHandle s i).handles j hin
  rw [heq] at hin
  exact ⟨hin, rfl⟩

end

/-- What FatFs does to the handles: an open changes the file of its own slot, which is free, a close
that of its own, and the callbacks in a wait at most close. -/
structure HandleLaws (ff : UsbFatFs τ) (file : τ → UInt8 → φ) : Prop where
  f_mount : ∀ device, Prog.Keeps (HandlesKept file NoHandle) (ff.f_mount device)
  f_unmount : ∀ device, Prog.Keeps (HandlesKept file NoHandle) (ff.f_unmount device)
  f_open : ∀ slot path mode s, (s.gRPFSHandles slot).in_use = false →
    HandlesKept file NoHandle s ((ff.f_open slot path mode).final s)
  f_close : ∀ slot, Prog.Keeps (HandlesKept file (· = slot)) (ff.f_close slot)
  f_read : ∀ slot len, Prog.Keeps (HandlesKept file NoHandle) (ff.f_read slot len)
  f_write : ∀ slot src, Prog.Keeps (HandlesKept file NoHandle) (ff.f_write slot src)
  f_lseek : ∀ slot position, Prog.Keeps (HandlesKept file NoHandle) (ff.f_lseek slot position)
  f_unlink : ∀ path, Prog.Keeps (HandlesKept file NoHandle) (ff.f_unlink path)
  f_rename : ∀ old_path new_path, Prog.Keeps (HandlesKept file NoHandle) (ff.f_rename old_path new_path)
  f_mkdir : ∀ path, Prog.Keeps (HandlesKept file NoHandle) (ff.f_mkdir path)
  f_opendir : ∀ slot path, Prog.Keeps (HandlesKept file NoHandle) (ff.f_opendir slot path)
  f_readdir : ∀ slot, Prog.Keeps (HandlesKept file NoHandle) (ff.f_readdir slot)
  f_closedir : ∀ slot, Prog.Keeps (HandlesKept file NoHandle) (ff.f_closedir slot)
  hostTask : Prog.Keeps (HandlesKept file NoHandle) ff.hostTask

/-- An open fails, or takes a free handle into use, and keeps the other handles. -/
def OpenKept (file : τ → UInt8 → φ) (m : Prog (Storage (UsbHost τ)) (Option UInt8)) : Prop :=
  ∀ s, (m.result s = none ∧ HandlesKept file NoHandle s (m.final s)) ∨
    ∃ slot, m.result s = some slot ∧ slot < RP_FS_MAX_HANDLES ∧
      ((m.final s).gRPFSHandles slot).in_use = true ∧ HandlesKept file (· = slot) s (m.final s)

section Calls

variable {ff : UsbFatFs τ} {file : τ → UInt8 → φ} (laws : HandleLaws ff file)

/-! ## Closing -/

include laws

/-- A close and the freeing of the slot behind it. -/
theorem kept_closing (i : UInt8) : Prog.Keeps (HandlesKept file NoHandle) (do
    discard <| ff.f_close i
    modify fun s => s.setHandle i ⟨false, 0, 0⟩ : Prog (Storage (UsbHost τ)) Unit) := by
  intro s
  rw [Prog.final_bind, Prog.final_modify, Prog.final_discard]
  refine HandlesKept.of_free (trans_of (HandlesKept file (· = i)) (laws.f_close i s) ?_) ?_
  · exact handlesKept_closeHandle _ i
  · simp [Storage.setHandle]

theorem hostRules_kept : HostRules ff (HandlesKept file NoHandle) where
  f_mount := laws.f_mount
  f_unmount := laws.f_unmount
  hostTask := laws.hostTask
  closing := kept_closing laws
  closingDir i := (laws.f_closedir i).discard.bind fun _ => Prog.Keeps.modify fun _ _ _ hin => ⟨hin, rfl⟩
  tables := keptByTables_handlesKept

/-! ## Opening -/

theorem kept_opendir (device : UInt8) (dirname : List UInt8) :
    Prog.Keeps (HandlesKept file NoHandle) (rpFsOpendir83 ff.toFatFs device dirname) := by
  intro s
  have hmount := (hostRules_kept laws).ensureMounted device s
  rcases rpFsOpendir83_final ff.toFatFs device dirname s with
    ⟨-, hfin⟩ | ⟨slot, path, -, -, -, ⟨-, hfin⟩ | ⟨-, -, hfin⟩⟩
  · rw [hfin]
    exact hmount
  · rw [hfin]
    exact trans_of (HandlesKept file NoHandle) hmount (laws.f_opendir slot path _)
  · rw [hfin]
    refine trans_of (HandlesKept file NoHandle) hmount ?_
    exact trans_of (HandlesKept file NoHandle) (laws.f_opendir slot path _) fun i _ hin => ⟨hin, rfl⟩

theorem callRules_kept : CallRules ff.toFatFs (HandlesKept file NoHandle) where
  mount := (hostRules_kept laws).ensureMounted
  opendir := kept_opendir laws
  closedir := (hostRules_kept laws).toDetachRules.closedir
  close := (hostRules_kept laws).toDetachRules.close
  f_read := laws.f_read
  f_write := laws.f_write
  f_lseek := laws.f_lseek
  f_unlink := laws.f_unlink
  f_rename := laws.f_rename
  f_mkdir := laws.f_mkdir
  f_readdir := laws.f_readdir

theorem open_kept (device : UInt8) (filename : List UInt8) (mode flags : UInt8) :
    OpenKept file (rpFsOpenMode83 ff.toFatFs device filename mode flags) := by
  intro s
  have hmount := (hostRules_kept laws).ensureMounted device s
  rcases rpFsOpenMode83_final ff.toFatFs device filename mode flags s with
    ⟨hres, hfin⟩ | ⟨slot, path, -, hslot, -, hopen⟩
  · rw [hfin]
    exact .inl ⟨hres, hmount⟩
  have hfree : (((ensureMounted ff.toFatFs device).final s).gRPFSHandles slot).in_use = false := by
    have hfound := List.find?_some hslot
    simpa using hfound
  have hopened := trans_of (HandlesKept file NoHandle) hmount (laws.f_open slot path mode _ hfree)
  rcases hopen with ⟨hres, hfin⟩ | ⟨-, hres, hfin⟩
  · rw [hfin]
    exact .inl ⟨hres, hopened⟩
  · rw [hfin]
    generalize (ff.f_open slot path mode).final _ = s₂ at hopened
    refine .inr ⟨slot, hres, freeSlot_lt hslot, ?_, fun i hi hin => ?_⟩
    · simp [Storage.setHandle]
    · have hother : (s₂.setHandle slot ⟨true, device, flags⟩).gRPFSHandles i = s₂.gRPFSHandles i :=
        Function.update_of_ne hi _ _
      rw [hother] at hin
      exact hopened i id hin

theorem openByMode_kept (mode device : UInt8) (path : List UInt8) :
    OpenKept file (openByMode ff.toFatFs mode device path) := by
  rw [openByMode]
  split
  · exact open_kept laws _ _ _ _
  split
  · exact open_kept laws _ _ _ _
  split
  · exact open_kept laws _ _ _ _
  split
  · exact open_kept laws _ _ _ _
  split
  · exact open_kept laws _ _ _ _
  · exact fun s => .inl ⟨rfl, refl_of (HandlesKept file NoHandle) s⟩

end Calls

/-- A closed handle is free. -/
theorem free_close {σ : Type} (ff : FatFs σ) {handle : UInt8} (hhandle : handle < RP_FS_MAX_HANDLES)
    (s : Storage σ) : (((rpFsClose ff handle).final s).gRPFSHandles handle).in_use = false := by
  simp only [rpFsClose, Prog.final_bind, Prog.result_get, Prog.final_get, Prog.final_ite,
    Prog.final_modify, Prog.final_pure]
  split
  · simp [Storage.setHandle]
  · rename_i hclosed
    simpa [Storage.isOpen, hhandle] using hclosed

end NeoMmu
