import Mathlib.Algebra.Group.Nat.Defs
import NeoMmu.Foundation.Bytes

/-!
# The scan of a HID report descriptor

`usb_hid_descriptor_has_desktop_usage()` walks the items of a descriptor with a 16-bit position, and tests and
advances it modulo 2^16. A turn of its loop is modelled with the indices it reads. The walk is compared with one
over numbers, in passes: within a pass the position grows, and a pass ends where the walk does, at an item that
stands across the end of the 16-bit range, or where a long item carries the position over that end.
-/

namespace NeoMmu

/-- The locals of the scan between two turns of its loop. -/
structure HidScan where
  usage_page : UInt16
  i : UInt16
  deriving DecidableEq, Repr

/-- What a turn of the loop comes to. -/
inductive HidTurn
  | finished (found : Bool)
  | next (s : HidScan)
  deriving DecidableEq, Repr

/-- `data_size` of a short item. -/
def hidDataSize (item : UInt8) : UInt8 := if item &&& 0x03 = 3 then 4 else item &&& 0x03

section Scan

variable (desc_report : Nat → UInt8) (desc_len wanted_usage : UInt16)

/-- The data of the short item at `i`, the lowest byte first. -/
def hidValue (i : Nat) : UInt32 :=
  (List.range (hidDataSize (desc_report i)).toNat).foldl
    (fun value b => value ||| (desc_report (i + 1 + b)).toUInt32 <<< UInt32.ofNat (8 * b)) 0

/-- The usage page behind the short item at `i`: a global item with tag 0 sets it. -/
def hidUsagePage (usage_page : UInt16) (i : Nat) : UInt16 :=
  let item := desc_report i
  if (item >>> 2) &&& 0x03 = 1 ∧ (item >>> 4) &&& 0x0F = 0 then (hidValue desc_report i).toUInt16
  else usage_page

/-- The short item at `i` is the wanted usage: a local item with tag 0 on the Generic Desktop page. -/
def hidIsWanted (usage_page : UInt16) (i : Nat) : Bool :=
  let item := desc_report i
  (item >>> 2) &&& 0x03 = 2 ∧ (item >>> 4) &&& 0x0F = 0 ∧ usage_page = 0x01 ∧
    (hidValue desc_report i).toUInt16 = wanted_usage

/-- One turn of the loop: the indices it reads, in order, and what it comes to. -/
def hidTurn (s : HidScan) : List Nat × HidTurn :=
  let i := s.i.toNat
  if desc_len ≤ s.i then ([], .finished false)
  else if desc_report i = 0xFE then
    if desc_len ≤ s.i + 2 then ([i], .finished false)
    else ([i, i + 1], .next ⟨s.usage_page, s.i + 3 + (desc_report (i + 1)).toUInt16⟩)
  else
    let data_size := hidDataSize (desc_report i)
    if desc_len < s.i + 1 + data_size.toUInt16 then ([i], .finished false)
    else
      let reads := i :: (List.range data_size.toNat).map (i + 1 + ·)
      let usage_page := hidUsagePage desc_report s.usage_page i
      if hidIsWanted desc_report wanted_usage usage_page i then (reads, .finished true)
      else (reads, .next ⟨usage_page, s.i + 1 + data_size.toUInt16⟩)

/-- The loop, for at most `fuel` turns: the indices it has read, and whether the usage was found. -/
def hidScan : Nat → HidScan → Option (List Nat × Bool)
  | 0, _ => none
  | fuel + 1, s =>
    match hidTurn desc_report desc_len wanted_usage s with
    | (reads, .finished found) => some (reads, found)
    | (reads, .next s') => (hidScan fuel s').map fun (rest, found) => (reads ++ rest, found)

/-- `usb_hid_descriptor_has_desktop_usage()`, for at most `fuel` turns of its loop. -/
def usbHidDescriptorHasDesktopUsage (fuel : Nat) : Option (List Nat × Bool) :=
  if desc_len = 0 then some ([], false) else hidScan desc_report desc_len wanted_usage fuel ⟨0, 0⟩

/-- The function returns, and has read indices below `desc_len` only. -/
def HidScanInBounds : Prop :=
  ∃ fuel reads found, usbHidDescriptorHasDesktopUsage desc_report desc_len wanted_usage fuel =
    some (reads, found) ∧ ∀ j ∈ reads, j < desc_len.toNat

/-! ## Passes -/

/-- How a pass over the descriptor ends. -/
inductive HidPass
  /-- At the end, at an item that is cut off or at the wanted usage. -/
  | stops
  /-- At a short item, or the first bytes of a long one, across the end of the 16-bit range. -/
  | crosses
  /-- At a long item whose end is beyond the 16-bit range: the scan goes on at its remainder. -/
  | wraps (s : HidScan)
  deriving DecidableEq, Repr

/-- The pass that starts at `p`. -/
def hidPass (usage_page : UInt16) (p : Nat) : HidPass :=
  if desc_len.toNat ≤ p then .stops
  else if desc_report p = 0xFE then
    if 2 ^ 16 ≤ p + 2 then .crosses
    else if desc_len.toNat ≤ p + 2 then .stops
    else if 2 ^ 16 ≤ p + 3 + (desc_report (p + 1)).toNat then
      .wraps ⟨usage_page, UInt16.ofNat (p + 3 + (desc_report (p + 1)).toNat)⟩
    else hidPass usage_page (p + 3 + (desc_report (p + 1)).toNat)
  else if 2 ^ 16 ≤ p + 1 + (hidDataSize (desc_report p)).toNat then .crosses
  else if desc_len.toNat < p + 1 + (hidDataSize (desc_report p)).toNat then .stops
  else if hidIsWanted desc_report wanted_usage (hidUsagePage desc_report usage_page p) p then .stops
  else hidPass (hidUsagePage desc_report usage_page p) (p + 1 + (hidDataSize (desc_report p)).toNat)
termination_by desc_len.toNat - p

/-- After finitely many passes one stops, and none has crossed the end of the range. -/
inductive HidSettles : UInt16 → Nat → Prop
  | stops {usage_page : UInt16} {p : Nat} :
    hidPass desc_report desc_len wanted_usage usage_page p = .stops → HidSettles usage_page p
  | wraps {usage_page : UInt16} {p : Nat} {s : HidScan} :
    hidPass desc_report desc_len wanted_usage usage_page p = .wraps s →
      HidSettles s.usage_page s.i.toNat → HidSettles usage_page p

/-! ## A turn within its pass -/

variable {desc_report desc_len wanted_usage}

/-- All indices are below `desc_len`. -/
def Readable (desc_len : UInt16) (reads : List Nat) : Prop := ∀ j ∈ reads, j < desc_len.toNat

theorem hidDataSize_le : ∀ item : UInt8, (hidDataSize item).toNat ≤ 4 := by decide +kernel

/-- The data of a short item end before the item behind it starts. -/
theorem readable_shortItem {i : Nat} {data_size : UInt8} :
    Readable desc_len (i :: (List.range data_size.toNat).map (i + 1 + ·)) ↔
      i + data_size.toNat < desc_len.toNat := by
  simp only [Readable, List.forall_mem_cons, List.forall_mem_map, List.mem_range]
  constructor
  · rintro ⟨hi, hdata⟩
    by_cases h : data_size.toNat = 0
    · omega
    · have := hdata (data_size.toNat - 1) (by omega)
      omega
  · intro h
    exact ⟨by omega, fun b hb => by omega⟩

/-- A turn reads beyond the descriptor only in a pass that crosses the range; any other ends its pass or goes on
in it. -/
def TurnOfPass (desc_report : Nat → UInt8) (desc_len wanted_usage : UInt16) (s : HidScan) (pass : HidPass)
    (turn : List Nat × HidTurn) : Prop :=
  (pass = .crosses ∧ ¬ Readable desc_len turn.1) ∨
    Readable desc_len turn.1 ∧ match turn.2 with
      | .finished _ => pass = .stops
      | .next s' => pass = .wraps s' ∨
        s.i.toNat < s'.i.toNat ∧ s.i.toNat < desc_len.toNat ∧
          pass = hidPass desc_report desc_len wanted_usage s'.usage_page s'.i.toNat

/-- A position that is moved on, before the 16 bits are cut. -/
theorem toNat_advance (i d : UInt16) (k : Nat) (hk : k < 2 ^ 16) :
    (i + UInt16.ofNat k + d).toNat = (i.toNat + k + d.toNat) % 2 ^ 16 := by
  rw [UInt16.toNat_add, UInt16.toNat_add, UInt16.toNat_ofNat_of_lt' hk]
  omega

theorem turnOfPass_long {s : HidScan} (hi : s.i.toNat < desc_len.toNat)
    (hlong : desc_report s.i.toNat = 0xFE) :
    TurnOfPass desc_report desc_len wanted_usage s
      (hidPass desc_report desc_len wanted_usage s.usage_page s.i.toNat)
      (hidTurn desc_report desc_len wanted_usage s) := by
  have hlen := desc_len.toNat_lt
  have hstart : ¬ desc_len ≤ s.i := by
    rw [UInt16.le_iff_toNat_le]
    omega
  have hcut : desc_len ≤ s.i + 2 ↔ desc_len.toNat ≤ (s.i.toNat + 2) % 2 ^ 16 := by
    rw [UInt16.le_iff_toNat_le, UInt16.toNat_add]
    rfl
  have hnext := toNat_advance s.i (desc_report (s.i.toNat + 1)).toUInt16 3 (by decide)
  rw [UInt8.toNat_toUInt16] at hnext
  rw [hidTurn, hidPass, if_neg (by omega), if_neg hstart, if_pos hlong, if_pos hlong, if_congr hcut rfl rfl]
  by_cases hcross : 2 ^ 16 ≤ s.i.toNat + 2
  · rw [if_pos hcross, if_neg (by omega)]
    refine .inl ⟨rfl, fun hread => ?_⟩
    have := hread (s.i.toNat + 1) (by simp)
    omega
  rw [if_neg hcross, Nat.mod_eq_of_lt (by omega)]
  by_cases hshort : desc_len.toNat ≤ s.i.toNat + 2
  · rw [if_pos hshort, if_pos hshort]
    exact .inr ⟨by simpa [Readable] using hi, rfl⟩
  rw [if_neg hshort, if_neg hshort]
  refine .inr ⟨by simp only [Readable, List.forall_mem_cons]; exact ⟨hi, by omega, nofun⟩, ?_⟩
  by_cases hwrap : 2 ^ 16 ≤ s.i.toNat + 3 + (desc_report (s.i.toNat + 1)).toNat
  · rw [if_pos hwrap]
    refine .inl (congrArg (fun i => HidPass.wraps ⟨s.usage_page, i⟩) ?_)
    apply UInt16.toNat_inj.1
    rw [UInt16.toNat_ofNat']
    exact hnext.symm
  · rw [if_neg hwrap]
    rw [Nat.mod_eq_of_lt (by omega)] at hnext
    refine .inr ⟨?_, hi, ?_⟩
    · show _ < (s.i + 3 + _).toNat
      rw [show s.i + 3 + _ = s.i + UInt16.ofNat 3 + _ from rfl, hnext]
      omega
    · exact congrArg (hidPass desc_report desc_len wanted_usage s.usage_page) hnext.symm

theorem turnOfPass_short {s : HidScan} (hi : s.i.toNat < desc_len.toNat)
    (hshort : desc_report s.i.toNat ≠ 0xFE) :
    TurnOfPass desc_report desc_len wanted_usage s
      (hidPass desc_report desc_len wanted_usage s.usage_page s.i.toNat)
      (hidTurn desc_report desc_len wanted_usage s) := by
  have hlen := desc_len.toNat_lt
  have hdata := hidDataSize_le (desc_report s.i.toNat)
  have hstart : ¬ desc_len ≤ s.i := by
    rw [UInt16.le_iff_toNat_le]
    omega
  have hnext := toNat_advance s.i (hidDataSize (desc_report s.i.toNat)).toUInt16 1 (by decide)
  rw [UInt8.toNat_toUInt16] at hnext
  have hcut : desc_len < s.i + 1 + (hidDataSize (desc_report s.i.toNat)).toUInt16 ↔ desc_len.toNat <
      (s.i.toNat + 1 + (hidDataSize (desc_report s.i.toNat)).toNat) % 2 ^ 16 := by
    rw [← hnext]
    exact UInt16.lt_iff_toNat_lt
  rw [hidTurn, hidPass, if_neg (by omega), if_neg hstart, if_neg hshort, if_neg hshort, if_congr hcut rfl rfl]
  by_cases hcross : 2 ^ 16 ≤ s.i.toNat + 1 + (hidDataSize (desc_report s.i.toNat)).toNat
  · rw [if_pos hcross, if_neg (by omega)]
    refine .inl ⟨rfl, fun hread => ?_⟩
    have hbeyond := readable_shortItem.not.2 (show ¬ s.i.toNat +
      (hidDataSize (desc_report s.i.toNat)).toNat < desc_len.toNat by omega)
    refine hbeyond ?_
    dsimp only at hread
    split at hread
    · exact hread
    · exact hread
  rw [Nat.mod_eq_of_lt (by omega)] at hnext ⊢
  rw [if_neg hcross]
  by_cases hend : desc_len.toNat < s.i.toNat + 1 + (hidDataSize (desc_report s.i.toNat)).toNat
  · rw [if_pos hend, if_pos hend]
    exact .inr ⟨by simpa [Readable] using hi, rfl⟩
  rw [if_neg hend, if_neg hend]
  have hread : Readable desc_len (s.i.toNat ::
      (List.range (hidDataSize (desc_report s.i.toNat)).toNat).map (s.i.toNat + 1 + ·)) :=
    readable_shortItem.2 (by omega)
  dsimp only
  split
  · exact .inr ⟨hread, rfl⟩
  · refine .inr ⟨hread, .inr ⟨?_, hi, ?_⟩⟩
    · show _ < (s.i + 1 + _).toNat
      rw [show s.i + 1 + _ = s.i + UInt16.ofNat 1 + _ from rfl, hnext]
      omega
    · exact congrArg (hidPass desc_report desc_len wanted_usage _) hnext.symm

theorem turnOfPass (s : HidScan) :
    TurnOfPass desc_report desc_len wanted_usage s
      (hidPass desc_report desc_len wanted_usage s.usage_page s.i.toNat)
      (hidTurn desc_report desc_len wanted_usage s) := by
  by_cases hi : s.i.toNat < desc_len.toNat
  · by_cases hlong : desc_report s.i.toNat = 0xFE
    · exact turnOfPass_long hi hlong
    · exact turnOfPass_short hi hlong
  · have hend : desc_len ≤ s.i := UInt16.le_iff_toNat_le.2 (by omega)
    rw [hidTurn, hidPass, if_pos (by omega), if_pos hend]
    exact .inr ⟨nofun, rfl⟩

/-! ## Whole scans -/

/-- From `s` the loop ends, and has read indices below `desc_len` only. -/
def HidScan.Returns (desc_report : Nat → UInt8) (desc_len wanted_usage : UInt16) (s : HidScan) : Prop :=
  ∃ fuel reads found, hidScan desc_report desc_len wanted_usage fuel s = some (reads, found) ∧
    Readable desc_len reads

/-- A loop that ends in bounds has come to the end of a pass, over no item that crosses the range. -/
theorem settles_of_hidScan {fuel : Nat} {s : HidScan} {reads : List Nat} {found : Bool}
    (h : hidScan desc_report desc_len wanted_usage fuel s = some (reads, found))
    (hreads : Readable desc_len reads) :
    HidSettles desc_report desc_len wanted_usage s.usage_page s.i.toNat := by
  induction fuel generalizing s reads found with
  | zero => cases h
  | succ fuel ih =>
    have hturn : TurnOfPass desc_report desc_len wanted_usage s _ _ := turnOfPass s
    rw [hidScan] at h
    rcases hsplit : hidTurn desc_report desc_len wanted_usage s with ⟨turnReads, found' | s'⟩
    · rw [hsplit] at h hturn
      cases h
      obtain ⟨-, hbad⟩ | ⟨-, hpass⟩ := hturn
      · exact absurd hreads hbad
      · exact .stops hpass
    · rw [hsplit] at h hturn
      obtain ⟨⟨rest, found''⟩, hrest, heq⟩ := Option.map_eq_some_iff.1 h
      cases heq
      have hboth := List.forall_mem_append.1 hreads
      have hsettles := ih hrest hboth.2
      obtain ⟨-, hbad⟩ | ⟨-, hpass | ⟨-, -, hpass⟩⟩ := hturn
      · exact absurd hboth.1 hbad
      · exact .wraps hpass hsettles
      · cases hsettles with
        | stops hstops => exact .stops (hpass.trans hstops)
        | wraps hwraps hnext => exact .wraps (hpass.trans hwraps) hnext

/-- A pass that stops ends the loop, and one that wraps leaves it to the next. -/
theorem returns_of_pass {s : HidScan}
    (hgood : hidPass desc_report desc_len wanted_usage s.usage_page s.i.toNat = .stops ∨
      ∃ s', hidPass desc_report desc_len wanted_usage s.usage_page s.i.toNat = .wraps s' ∧
        s'.Returns desc_report desc_len wanted_usage) :
    s.Returns desc_report desc_len wanted_usage := by
  induction hleft : desc_len.toNat - s.i.toNat using Nat.strong_induction_on generalizing s with
  | _ left ih =>
    have hturn : TurnOfPass desc_report desc_len wanted_usage s _ _ := turnOfPass s
    have hnext : ∀ {turnReads : List Nat} {s' : HidScan},
        hidTurn desc_report desc_len wanted_usage s = (turnReads, .next s') →
        Readable desc_len turnReads → s'.Returns desc_report desc_len wanted_usage →
        s.Returns desc_report desc_len wanted_usage := by
      rintro turnReads s' hsplit hread ⟨fuel, reads, found, hscan, hreads⟩
      refine ⟨fuel + 1, turnReads ++ reads, found, ?_, List.forall_mem_append.2 ⟨hread, hreads⟩⟩
      simp only [hidScan, hsplit, hscan, Option.map_some]
    rcases hsplit : hidTurn desc_report desc_len wanted_usage s with ⟨turnReads, found | s'⟩
    · rw [hsplit] at hturn
      obtain ⟨hcross, -⟩ | ⟨hread, -⟩ := hturn
      · rw [hcross] at hgood
        obtain h | ⟨s', h, -⟩ := hgood <;> cases h
      · exact ⟨1, turnReads, found, by simp only [hidScan, hsplit], hread⟩
    · rw [hsplit] at hturn
      obtain ⟨hcross, -⟩ | ⟨hread, hpass | ⟨hgrows, hin, hpass⟩⟩ := hturn
      · rw [hcross] at hgood
        obtain h | ⟨s', h, -⟩ := hgood <;> cases h
      · rw [hpass] at hgood
        obtain h | ⟨s'', h, hreturns⟩ := hgood
        · cases h
        · cases h
          exact hnext hsplit hread hreturns
      · rw [hpass] at hgood
        exact hnext hsplit hread (ih _ (by omega) hgood rfl)

theorem returns_of_settles {usage_page : UInt16} {p : Nat}
    (h : HidSettles desc_report desc_len wanted_usage usage_page p) {s : HidScan}
    (hs : s.usage_page = usage_page ∧ s.i.toNat = p) : s.Returns desc_report desc_len wanted_usage := by
  induction h generalizing s with
  | stops hstops =>
    obtain ⟨rfl, rfl⟩ := hs
    exact returns_of_pass (.inl hstops)
  | wraps hwraps _ ih =>
    obtain ⟨rfl, rfl⟩ := hs
    exact returns_of_pass (.inr ⟨_, hwraps, ih ⟨rfl, rfl⟩⟩)

theorem hidScanInBounds_iff :
    HidScanInBounds desc_report desc_len wanted_usage ↔ HidSettles desc_report desc_len wanted_usage 0 0 := by
  rw [HidScanInBounds]
  by_cases hempty : desc_len = 0
  · refine iff_of_true ⟨0, [], false, if_pos hempty, nofun⟩ (.stops ?_)
    rw [hidPass, hempty]
    rfl
  · simp only [usbHidDescriptorHasDesktopUsage, if_neg hempty]
    constructor
    · rintro ⟨fuel, reads, found, hscan, hreads⟩
      exact settles_of_hidScan hscan hreads
    · intro h
      exact returns_of_settles h (s := ⟨0, 0⟩) ⟨rfl, rfl⟩

/-- No item of a descriptor of 65280 bytes comes to the end of the range. -/
theorem hidPass_of_short (hlen : desc_len ≤ 65280) (usage_page : UInt16) (p : Nat) :
    hidPass desc_report desc_len wanted_usage usage_page p = .stops := by
  have hlen' : desc_len.toNat ≤ 65280 := UInt16.le_iff_toNat_le.1 hlen
  induction usage_page, p using hidPass.induct desc_report desc_len wanted_usage with
  | case1 usage_page p hend => rw [hidPass, if_pos hend]
  | case2 usage_page p hend hlong hcross => omega
  | case3 usage_page p hend hlong hcross hcut => rw [hidPass, if_neg hend, if_pos hlong, if_neg hcross, if_pos hcut]
  | case4 usage_page p hend hlong hcross hcut hwrap =>
    have := (desc_report (p + 1)).toNat_lt
    omega
  | case5 usage_page p hend hlong hcross hcut hwrap ih =>
    rw [hidPass, if_neg hend, if_pos hlong, if_neg hcross, if_neg hcut, if_neg hwrap]
    exact ih
  | case6 usage_page p hend hlong hcross =>
    have := hidDataSize_le (desc_report p)
    omega
  | case7 usage_page p hend hlong hcross hcut =>
    rw [hidPass, if_neg hend, if_neg hlong, if_neg hcross, if_pos hcut]
  | case8 usage_page p hend hlong hcross hcut hfound =>
    rw [hidPass, if_neg hend, if_neg hlong, if_neg hcross, if_neg hcut, if_pos hfound]
  | case9 usage_page p hend hlong hcross hcut hfound ih =>
    rw [hidPass, if_neg hend, if_neg hlong, if_neg hcross, if_neg hcut, if_neg hfound]
    exact ih

end Scan

/-! ## A descriptor that is scanned for ever -/

/-- Empty main items, and a long item whose 255 data bytes end with the range. -/
def endlessDescriptor : Nat → UInt8 := fun p =>
  if p = 65278 then 0xFE else if p = 65279 then 0xFF else 0

/-- From every item up to the long one a pass comes round to the start. -/
theorem hidPass_endlessDescriptor {desc_len : UInt16} (hlen : 65280 < desc_len) (wanted_usage : UInt16)
    {p : Nat} (hp : p ≤ 65278) :
    hidPass endlessDescriptor desc_len wanted_usage 0 p = .wraps ⟨0, 0⟩ := by
  have hlen' : 65280 < desc_len.toNat := UInt16.lt_iff_toNat_lt.1 hlen
  induction hp using Nat.decreasingInduction with
  | self =>
    have hbytes : endlessDescriptor 65278 = 0xFE ∧ endlessDescriptor 65279 = 0xFF := ⟨rfl, rfl⟩
    rw [hidPass, if_neg (by omega), if_pos hbytes.1, if_neg (by omega), if_neg (by omega), hbytes.2]
    rfl
  | of_succ p hp ih =>
    have hbyte : endlessDescriptor p = 0 := by
      rw [endlessDescriptor, if_neg (by omega), if_neg (by omega)]
    have hsize : (hidDataSize 0).toNat = 0 := rfl
    have hpage : hidUsagePage endlessDescriptor 0 p = 0 := by
      rw [hidUsagePage, hbyte, if_neg (by decide)]
    have hother : hidIsWanted endlessDescriptor wanted_usage 0 p = false := by
      rw [hidIsWanted, hbyte, decide_eq_false_iff_not]
      exact fun h => absurd h.1 (by decide)
    rw [hidPass, if_neg (by omega), hbyte, if_neg (by decide), hsize, if_neg (by omega), if_neg (by omega), hpage,
      hother, if_neg Bool.false_ne_true]
    exact ih

theorem not_settles_endlessDescriptor {desc_len : UInt16} (hlen : 65280 < desc_len) (wanted_usage : UInt16) :
    ¬ HidSettles endlessDescriptor desc_len wanted_usage 0 0 := by
  have hround := hidPass_endlessDescriptor hlen wanted_usage (Nat.zero_le 65278)
  have hnever : ∀ {usage_page : UInt16} {p : Nat},
      HidSettles endlessDescriptor desc_len wanted_usage usage_page p → ¬ (usage_page = 0 ∧ p = 0) := by
    intro usage_page p h
    induction h with
    | stops hstops =>
      rintro ⟨rfl, rfl⟩
      cases hround.symm.trans hstops
    | wraps hwraps _ ih =>
      rintro ⟨rfl, rfl⟩
      cases hround.symm.trans hwraps
      exact ih ⟨rfl, rfl⟩
  exact fun h => hnever h ⟨rfl, rfl⟩

/-- The scan returns within the descriptor exactly when one of its passes stops before any item crosses the end of
the 16-bit range; all descriptors of a length are scanned so exactly when it is at most 65280. -/
theorem hid_scan_in_bounds_iff (desc_len : UInt16) :
    (∀ desc_report wanted_usage, HidScanInBounds desc_report desc_len wanted_usage ↔
      HidSettles desc_report desc_len wanted_usage 0 0) ∧
    ((∀ desc_report wanted_usage, HidScanInBounds desc_report desc_len wanted_usage) ↔ desc_len ≤ 65280) := by
  refine ⟨fun _ _ => hidScanInBounds_iff, fun hall => ?_, fun hlen desc_report wanted_usage => ?_⟩
  · by_contra hlong
    exact not_settles_endlessDescriptor (UInt16.not_le.1 hlong) 0x06 (hidScanInBounds_iff.1 (hall _ _))
  · exact hidScanInBounds_iff.2 (.stops (hidPass_of_short hlen 0 0))

/-- A descriptor of 65281 bytes keeps the scan for the keyboard usage going for ever. -/
theorem hid_scan_endless : ¬ HidScanInBounds endlessDescriptor 65281 0x06 := by
  rw [hidScanInBounds_iff]
  exact not_settles_endlessDescriptor (by decide) 0x06

/-- A boot mouse's descriptor begins with its page and usage. -/
example : usbHidDescriptorHasDesktopUsage (fun p => [0x05, 0x01, 0x09, 0x02, 0xA1, 0x01].getD p 0) 6 0x02 3 =
    some ([0, 1, 2, 3], true) := by
  decide

end NeoMmu
