import NeoMmu.Vdu.Scrolling

/-!
# The characters on the screen

Behind a reset of the display no cell of the screen holds a control character: what writes a cell writes a space
or a character from 0x20 on, or copies a cell of the screen.
-/

namespace NeoMmu

open Prog (Triple)

namespace VduText

variable {x y : VduText}

/-- No cell of the screen holds a control character. -/
def Printable (x : VduText) : Prop := ∀ r < ROWS, ∀ c < COLS, 0x20 ≤ (x.gScreen r c).ch

theorem le_blank (x : VduText) : 0x20 ≤ x.blank.ch := by
  show (0x20 : UInt8) ≤ ' '.toUInt8
  decide

theorem Printable.fill (h : x.Printable) {row col n : Nat} {cell : VduCell} (hcell : 0x20 ≤ cell.ch) :
    (x.fill row col n cell).Printable := by
  intro r hr c hc
  show 0x20 ≤ (if _ then _ else _ : VduCell).ch
  split
  · exact hcell
  · exact h r hr c hc

/-- Cells are copied within their row. -/
theorem Printable.copy (h : x.Printable) {row dst src n : Nat} (hsrc : ∀ i < n, src + i < COLS) :
    (x.copy (row, dst) (row, src) n).Printable := by
  intro r hr c hc
  show 0x20 ≤ (if _ then _ else _ : VduCell).ch
  split
  · rename_i hcell
    obtain ⟨rfl, hfrom, hto⟩ := hcell
    dsimp only at hfrom hto
    exact h r hr _ (hsrc _ (by omega))
  · exact h r hr c hc

theorem printable_clear (x : VduText) : x.clear.Printable := by
  intro r hr c hc
  show 0x20 ≤ (if r < ROWS ∧ c < COLS then x.blank else _ : VduCell).ch
  rw [if_pos ⟨hr, hc⟩]
  exact x.le_blank

theorem Printable.rotate (h : x.Printable) : x.rotate.Printable := by
  intro r hr c hc
  show 0x20 ≤ (if _ then _ else if _ then _ else _ : VduCell).ch
  split
  · exact h _ (by omega) c hc
  split
  · exact x.le_blank
  · exact h r hr c hc

theorem Printable.scrollRow (h : x.Printable) : x.scrollRow.Printable := by
  rw [VduText.scrollRow, arrive]
  split
  · exact h.rotate
  · exact h.rotate

theorem Printable.scrollUp (h : x.Printable) : x.scrollUp.Printable := by
  rw [VduText.scrollUp]
  split
  · exact h
  · exact h.scrollRow

theorem Printable.stepped (h : x.Printable) (hstep : x.Stepped y) : y.Printable := by
  rcases hstep with rfl | ⟨-, rfl⟩
  · exact h
  rw [scrollStep]
  split
  · exact Printable.scrollRow h
  · exact h

theorem Printable.restore (h : x.Printable) : x.restore.Printable := by
  rw [VduText.restore]
  split
  · show VduText.Printable (if _ then if _ then _ else _ else _)
    split
    · split
      · exact h.scrollUp
      · exact h
    · exact h
  · exact h

theorem Printable.newline (h : x.Printable) : x.newline.Printable := by
  rw [VduText.newline]
  split
  · exact h
  split
  · exact Printable.scrollUp h
  · exact h

theorem Printable.left (h : x.Printable) : x.left.Printable := by
  rw [VduText.left]
  split
  · exact h
  · exact h

theorem Printable.delete (h : x.Printable) : x.delete.Printable := by
  apply Printable.fill _ x.le_blank
  apply h.copy
  omega

theorem Printable.insert (h : x.Printable) {c : UInt8} (hc : 0x20 ≤ c) : (x.insert c).Printable := by
  apply Printable.fill _ hc
  apply h.copy
  omega

theorem Printable.overwrite (h : x.Printable) (c : UInt8) : (x.overwrite c).Printable := by
  rw [VduText.overwrite]
  split
  · exact h.fill ‹_›
  · exact h

theorem Printable.control (h : x.Printable) (c : UInt8) : (x.control c).Printable := by
  unfold VduText.control
  split
  · exact h
  · exact h.left
  · exact h.delete
  · exact h
  · split
    · exact h
    · exact h
  · exact h
  · exact h.fill x.le_blank
  · exact x.printable_clear
  · split
    · exact h
    · exact h
  · exact h
  · split
    · exact h
    · exact h
  · exact h
  · exact h
  · exact h

/-- A character is put into the row only while the screen is edited, when those below 0x20 are commands. -/
theorem Printable.regular (h : x.Printable) (c : UInt8) : (x.regular c).Printable := by
  rw [VduText.regular]
  split
  · exact h.control c
  rename_i hregular
  show (VduText.overwrite _ c).Printable
  split
  · rename_i hinsert
    have hc : ¬ c < 0x20 := fun hc => hregular ⟨hc, hinsert.2⟩
    exact (h.insert (UInt8.not_lt.1 hc)).overwrite c
  · exact h.overwrite c

theorem Printable.put (h : x.Printable) (c : UInt8) : (x.put c).Printable := by
  rw [VduText.put]
  split
  · unfold VduText.putSwitch
    split
    · exact h
    · exact h.newline
    · exact h.newline
    · exact h.left
    · exact h.left
    · exact h.regular c
  · exact h

end VduText

theorem textRules_printable : TextRules VduText.Printable where
  stepped _ _ h hstep := h.stepped hstep
  put _ c h _ := h.put c
  move _ _ _ h := h
  restore _ h := h.restore
  clear x _ := x.printable_clear
  colors _ _ _ h := h
  setMode _ _ h := h

/-- A reset of the display clears the screen, whatever is on it. -/
theorem printable_resetDisplay (s : Vdu) (vMode : UInt8) : (s.step (.resetDisplay vMode)).text.Printable := by
  have hclear : ∀ t, (cmdClearScreen.final t).now.text.Printable := by
    intro t
    have htext : (cmdClearScreen.final t).now.text = t.now.text.clear.move 0 0 := (edits_cmdClearScreen t rfl).1
    rw [htext]
    exact VduText.printable_clear _
  rw [Vdu.step, VduCall.run, resetDisplay, Prog.final_bind, Prog.final_bind, Prog.final_bind]
  exact hclear _

end NeoMmu
