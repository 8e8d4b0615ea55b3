import NeoMmu.Foundation.Page

/-!
# Pages that show a log

A log is a list of lines of any length. A page on which cells are written from its first line on, with a new line for
each line of the log, shows the last lines of the log: of a line that is too long it shows the begin, with the last
element in the last column.
-/

namespace NeoMmu

variable {α : Type*} {height width : Nat}

/-- A line of a log in `width` columns. -/
def screenLine (width : Nat) (blank : α) (line : List α) : List α :=
  (line.take (width - 1) ++ (line.drop (width - 1)).getLast?.toList).rightpad width blank

/-- The end of a log in `height` lines. -/
def screenLines (height width : Nat) (blank : α) (log : List (List α)) : List (List α) :=
  (log.drop (log.length - height)).map (screenLine width blank) ++
    List.replicate (height - log.length) (List.replicate width blank)

theorem screenLine_nil (width : Nat) (blank : α) : screenLine width blank [] = List.replicate width blank := by
  simp [screenLine, List.rightpad]

/-- An element more is written behind a line that has room, and else over the last column. -/
theorem set_screenLine (blank : α) (line : List α) (a : α) (hwidth : 0 < width) :
    (screenLine width blank line).set (min line.length (width - 1)) a = screenLine width blank (line ++ [a]) := by
  rcases Nat.lt_or_ge line.length (width - 1) with hroom | hfull
  · have hline : ∀ l : List α, l.length ≤ width - 1 →
        screenLine width blank l = l ++ List.replicate (width - l.length) blank := by
      intro l hl
      rw [screenLine, List.take_of_length_le hl, List.drop_eq_nil_of_le hl, List.rightpad]
      simp
    have hlast : width - line.length = width - (line ++ [a]).length + 1 := by
      rw [List.length_append, List.length_singleton]
      omega
    rw [hline line hroom.le, hline (line ++ [a]) (by simp; omega), min_eq_left hroom.le, List.set_append_right _ _ le_rfl,
      Nat.sub_self, hlast, List.replicate_succ, List.set_cons_zero, List.append_assoc, List.singleton_append]
  · have htake : (line.take (width - 1)).length = width - 1 := List.length_take_of_le hfull
    have hnext : screenLine width blank (line ++ [a]) = line.take (width - 1) ++ [a] := by
      rw [screenLine, List.take_append_of_le_length hfull, List.drop_append_of_le_length hfull, List.getLast?_concat,
        List.rightpad]
      simp [htake, show width - (width - 1 + 1) = 0 by omega]
    have hset : ∀ rest : List α, rest.length = 1 → (line.take (width - 1) ++ rest).set (width - 1) a =
        line.take (width - 1) ++ [a] := by
      intro rest hrest
      obtain ⟨b, rfl⟩ := List.length_eq_one_iff.1 hrest
      rw [List.set_append_right _ _ htake.le, htake, Nat.sub_self, List.set_cons_zero]
    rw [hnext, min_eq_right hfull, screenLine, List.rightpad, List.append_assoc, hset]
    rcases hlast : (line.drop (width - 1)).getLast? with - | b
    · simp [htake, show width - (width - 1) = 1 by omega]
    · simp [htake, show width - (width - 1 + 1) = 0 by omega]

theorem modify_append_cons (front rest : List α) (a : α) (f : α → α) :
    (front ++ a :: rest).modify front.length f = front ++ f a :: rest := by
  induction front with
  | nil => rfl
  | cons b front ih => rw [List.cons_append, List.length_cons, List.modify_succ_cons, ih, List.cons_append]

/-- The lines of a log with one more behind it. -/
theorem screenLines_concat (blank : α) (older : List (List α)) (current : List α) (hheight : 0 < height) :
    screenLines height width blank (older ++ [current]) =
      (older.drop (older.length + 1 - height)).map (screenLine width blank) ++ screenLine width blank current ::
        List.replicate (height - (older.length + 1)) (List.replicate width blank) := by
  rw [screenLines, List.length_append, List.length_singleton, List.drop_append_of_le_length (by omega), List.map_append,
    List.append_assoc]
  rfl

namespace Page

/-- The page shows a log, with the cursor behind its last line. -/
structure ShowsLog (p : Page α height width) (blank : α) (log : List (List α)) : Prop where
  lines : p.lines = screenLines height width blank log
  row : p.row = min log.length height - 1
  col : p.col = min (log.getLastD []).length (width - 1)

variable {p : Page α height width} {blank : α} {older : List (List α)} {current : List α}

/-- A blank page shows the log that has one empty line. -/
theorem showsLog_clear : (p.clear blank).ShowsLog blank [[]] := by
  have hrow := p.row_lt
  refine ⟨?_, ?_, ?_⟩
  · rw [show [[]] = [] ++ [([] : List α)] from rfl, screenLines_concat _ _ _ (by omega), screenLine_nil]
    show List.replicate height _ = _
    simp only [List.drop_nil, List.map_nil, List.nil_append, List.length_nil, Nat.zero_add, ← List.replicate_succ]
    rw [Nat.sub_add_cancel (by omega)]
  · show 0 = _
    simp only [List.length_singleton]
    omega
  · show 0 = _
    simp

/-- A cell that is written belongs to the last line of the log. -/
theorem ShowsLog.write (h : p.ShowsLog blank (older ++ [current])) (a : α) :
    (p.overwrite a).right.ShowsLog blank (older ++ [current ++ [a]]) := by
  have hrow := p.row_lt
  have hcol := p.col_lt
  obtain ⟨hlines, hat, hcur⟩ := h
  rw [List.getLastD_concat] at hcur
  rw [List.length_append, List.length_singleton] at hat
  refine ⟨?_, ?_, ?_⟩
  · show p.lines.modify p.row (fun line => line.set p.col a) = _
    have hfront : p.row = ((older.drop (older.length + 1 - height)).map (screenLine width blank)).length := by
      rw [List.length_map, List.length_drop]
      omega
    rw [hlines, screenLines_concat _ _ _ (by omega), screenLines_concat _ _ _ (by omega), hfront, modify_append_cons, hcur,
      set_screenLine _ _ _ (by omega)]
  · show p.row = _
    rw [hat, List.length_append, List.length_singleton]
  · show min (p.col + 1) (width - 1) = _
    rw [List.getLastD_concat, List.length_append, List.length_singleton, hcur]
    omega

/-- A new line of the log is begun. -/
theorem ShowsLog.newline (h : p.ShowsLog blank (older ++ [current])) :
    (p.newline true blank).ShowsLog blank (older ++ [current] ++ [[]]) := by
  have hrow := p.row_lt
  obtain ⟨hlines, hat, -⟩ := h
  have hlength : (older ++ [current]).length = older.length + 1 := by
    rw [List.length_append, List.length_singleton]
  rw [hlength] at hat
  have hend : (List.getLastD (older ++ [current] ++ [[]]) []).length = 0 := by
    rw [List.getLastD_concat, List.length_nil]
  rw [Page.newline]
  split
  · refine ⟨?_, ?_, ?_⟩
    · show p.lines = _
      have hsplit : height - (older.length + 1) = height - (older.length + 1 + 1) + 1 := by omega
      have hold : older.length + 1 - height = 0 := by omega
      have hnew : older.length + 1 + 1 - height = 0 := by omega
      rw [hlines, screenLines_concat _ _ _ (by omega), screenLines_concat _ _ _ (by omega), hlength, screenLine_nil,
        hsplit, hold, hnew, List.replicate_succ]
      simp
    · show min (p.row + 1) (height - 1) = _
      rw [List.length_append, List.length_singleton, hlength]
      omega
    · show 0 = _
      rw [hend, Nat.zero_min]
  · refine ⟨?_, ?_, ?_⟩
    · show p.lines.tail ++ [List.replicate width blank] = _
      have hnone : height - (older.length + 1) = 0 := by omega
      have hnone' : height - (older.length + 1 + 1) = 0 := by omega
      have hdrop : older.length + 1 + 1 - height = older.length + 1 - height + 1 := by omega
      rw [hlines, screenLines, screenLines_concat _ _ _ (by omega), hlength, screenLine_nil, hnone, hnone', hdrop,
        ← List.drop_drop, ← List.tail_drop]
      simp
    · show p.row = _
      rw [List.length_append, List.length_singleton, hlength]
      omega
    · show 0 = _
      rw [hend, Nat.zero_min]

end Page

end NeoMmu
