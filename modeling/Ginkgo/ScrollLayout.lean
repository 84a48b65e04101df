import Ginkgo.Lib.Vectors

/-!
# The scrolling layout

Every window has one column of one workspace, as wide as a proportion of the output.  The columns
of a workspace stand side by side, and the output shows them from the viewport on.  A fullscreen
window is held in column 0 until it is put back.
-/

namespace Ginkgo.ScrollLayout

open Ginkgo.Lib List

abbrev WindowId := Nat

structure Size where
  width : UInt32
  height : UInt32

structure Insets where
  left : UInt32
  top : UInt32
  right : UInt32
  bottom : UInt32

structure Rect where
  x : Int
  y : Int
  width : UInt32
  height : UInt32

def Rect.right (r : Rect) : Int := saturateI64 (r.x + r.width.toNat)

def Rect.bottom (r : Rect) : Int := saturateI64 (r.y + r.height.toNat)

def Rect.intersection (r other : Rect) : Option Rect :=
  let left := max r.x other.x
  let top := max r.y other.y
  let right := min r.right other.right
  let bottom := min r.bottom other.bottom
  if right ≤ left ∨ bottom ≤ top then none
  else some ⟨left, top, .ofNat (right - left).toNat, .ofNat (bottom - top).toNat⟩

def Rect.inset (r : Rect) (insets : Insets) : Rect :=
  let left := min insets.left r.width
  let top := min insets.top r.height
  let horizontal := min (insets.left.toNat + insets.right.toNat) u32Max
  let vertical := min (insets.top.toNat + insets.bottom.toNat) u32Max
  ⟨saturateI64 (r.x + left.toNat), saturateI64 (r.y + top.toNat),
    .ofNat (r.width.toNat - horizontal), .ofNat (r.height.toNat - vertical)⟩

/-- A positive share of the output width, in thousandths. -/
structure Proportion where
  perMille : UInt16
  positive : perMille ≠ 0

structure Column where
  window : WindowId
  width : Proportion

structure Placement where
  window : WindowId
  outer : Rect
  client : Rect
  visible : Option Rect
  focused : Bool

inductive HorizontalAlignment
  | left
  | center
  | right

structure FullscreenRestore where
  window : WindowId
  columnIndex : Nat
  width : Proportion
  viewport : Int
  focused : Option WindowId

structure Workspace where
  columns : List Column
  focused : Option Nat
  viewport : Int
  fullscreen : Option FullscreenRestore

structure Layout where
  output : Size
  decorations : Insets
  workspaces : List Workspace
  active : Nat

-- The product is below `2 ^ 48`: the 64-bit operations of the source do not saturate.
def pixelWidth (outputWidth : UInt32) (proportion : Proportion) : UInt32 :=
  if outputWidth = 0 then 0
  else .ofNat (min (max ((outputWidth.toNat * proportion.perMille.toNat + 500) / 1000) 1) u32Max)

namespace Workspace

def focusedWindow (w : Workspace) : Option WindowId :=
  (w.focused.bind (w.columns[·]?)).map (·.window)

def position (w : Workspace) (window : WindowId) : Option Nat :=
  w.columns.findIdx? (·.window = window)

/-- Where columns end of which the first starts at `left`. -/
def columnsEnd (outputWidth : UInt32) (left : Int) (columns : List Column) : Int :=
  columns.foldl
    (fun left column => saturateI64 (left + (pixelWidth outputWidth column.width).toNat)) left

def totalWidth (w : Workspace) (outputWidth : UInt32) : Int := columnsEnd outputWidth 0 w.columns

def columnLeft (w : Workspace) (outputWidth : UInt32) (index : Nat) : Int :=
  columnsEnd outputWidth 0 (w.columns.take index)

def clampViewport (outputWidth : UInt32) (w : Workspace) : Workspace :=
  match w.columns.head?, w.columns.getLast? with
  | some first, some last =>
    let firstWidth : Int := (pixelWidth outputWidth first.width).toNat
    let lastWidth : Int := (pixelWidth outputWidth last.width).toNat
    let total := w.totalWidth outputWidth
    let lastLeft := saturateI64 (total - lastWidth)
    let minimum := min (saturateI64 (firstWidth - outputWidth.toNat)) 0
    let maximum := max (max lastLeft (saturateI64 (total - outputWidth.toNat))) 0
    { w with viewport := max minimum (min w.viewport maximum) }
  | _, _ => { w with viewport := 0 }

def finishFullscreen (outputWidth : UInt32) (w : Workspace) : Bool × Workspace :=
  match w.fullscreen with
  | none => (false, w)
  | some restore =>
    let w := { w with fullscreen := none }
    match w.position restore.window with
    | none => (true, w)
    | some current =>
      let columns := w.columns.eraseIdx current
      let restored := min restore.columnIndex columns.length
      let w := { w with columns := columns.insertIdx restored ⟨restore.window, restore.width⟩ }
      (true, clampViewport outputWidth { w with
        focused := some ((restore.focused.bind w.position).getD restored)
        viewport := restore.viewport })

/-- The viewport that shows a column as asked. -/
def alignedViewport (outputWidth : UInt32) (left width : Int) : HorizontalAlignment → Int
  | .left => left
  | .center => saturateI64 (left + (saturateI64 (width - outputWidth.toNat)).tdiv 2)
  | .right => saturateI64 (saturateI64 (left + width) - outputWidth.toNat)

def alignFocused (outputWidth : UInt32) (alignment : HorizontalAlignment) (w : Workspace) :
    Bool × Workspace :=
  let fullscreenWindow := w.fullscreen.map (·.window)
  let w := (w.finishFullscreen outputWidth).2
  let w := { w with focused := (fullscreenWindow.map w.position).getD w.focused }
  match w.focused with
  | none => (false, w)
  | some index =>
    match w.columns[index]? with
    | none => (false, { w with focused := none })
    | some column =>
      let left := w.columnLeft outputWidth index
      let width : Int := (pixelWidth outputWidth column.width).toNat
      (true, clampViewport outputWidth
        { w with viewport := alignedViewport outputWidth left width alignment })

/-- The placements of columns of which the first is at `index` and starts at `left`. -/
def placementsFrom (w : Workspace) (output : Size) (decorations : Insets) :
    Nat → Int → List Column → List Placement
  | _, _, [] => []
  | index, left, column :: columns =>
    let width := pixelWidth output.width column.width
    let outer : Rect := ⟨saturateI64 (left - w.viewport), 0, width, output.height⟩
    ⟨column.window, outer, outer.inset decorations,
      outer.intersection ⟨0, 0, output.width, output.height⟩, w.focused = some index⟩ ::
      w.placementsFrom output decorations (index + 1) (saturateI64 (left + width.toNat)) columns

def placements (w : Workspace) (output : Size) (decorations : Insets) : List Placement :=
  match w.fullscreen with
  | some fullscreen =>
    let outputRect : Rect := ⟨0, 0, output.width, output.height⟩
    [⟨fullscreen.window, outputRect, outputRect, outputRect.intersection outputRect, true⟩]
  | none => w.placementsFrom output decorations 0 0 w.columns

end Workspace

namespace Layout

/-- The active index is that of a workspace; the source panics otherwise. -/
def activeWorkspace (l : Layout) : Option Workspace := l.workspaces[l.active]?

def focusedWindow (l : Layout) : Option WindowId := l.activeWorkspace.bind (·.focusedWindow)

def alignFocused (l : Layout) (alignment : HorizontalAlignment) : Bool × Layout :=
  match l.activeWorkspace with
  | none => (false, l)
  | some w =>
    let (aligned, w) := w.alignFocused l.output.width alignment
    (aligned, { l with workspaces := l.workspaces.set l.active w })

def placements (l : Layout) : List Placement :=
  (l.activeWorkspace.map (·.placements l.output l.decorations)).getD []

end Layout

/-! ## Alignment -/

section Widths

variable {outputWidth : UInt32} {columns : List Column}

/-- The width of columns, if it is within 64 bits. -/
def extent (outputWidth : UInt32) (columns : List Column) : Nat :=
  (columns.map fun column => (pixelWidth outputWidth column.width).toNat).sum

theorem extent_append (before after : List Column) : extent outputWidth (before ++ after) =
    extent outputWidth before + extent outputWidth after := by
  rw [extent, map_append, sum_append]
  rfl

theorem extent_cons (outputWidth : UInt32) (column : Column) (columns : List Column) :
    extent outputWidth (column :: columns) =
      (pixelWidth outputWidth column.width).toNat + extent outputWidth columns :=
  sum_cons

theorem le_extent (outputWidth : UInt32) {column : Column} (hmem : column ∈ columns) :
    (pixelWidth outputWidth column.width).toNat ≤ extent outputWidth columns :=
  single_le_sum (fun _ _ => Nat.zero_le _) _ (mem_map_of_mem hmem)

theorem columnsEnd_eq {left : Nat} (h : left + extent outputWidth columns < 2 ^ 63) :
    Workspace.columnsEnd outputWidth left columns = left + extent outputWidth columns := by
  induction columns generalizing left with
  | nil => rfl
  | cons column columns ih =>
    rw [extent_cons] at h ⊢
    have hfits : saturateI64 (left + (pixelWidth outputWidth column.width).toNat) =
        (left + (pixelWidth outputWidth column.width).toNat) :=
      saturateI64_eq (by omega) (by omega)
    rw [Workspace.columnsEnd, foldl_cons, hfits]
    exact (ih (by omega)).trans (by omega)

theorem columnsEnd_zero (h : extent outputWidth columns < 2 ^ 63) :
    Workspace.columnsEnd outputWidth 0 columns = extent outputWidth columns :=
  (columnsEnd_eq (by rwa [Nat.zero_add])).trans (Int.zero_add _)

end Widths

namespace Workspace

variable {before after : List Column} {column : Column} {focused : Option Nat} {viewport : Int}

/-- A viewport between those that show a column at the left and at the right end of the output is
not clamped. -/
theorem clampViewport_eq {outputWidth : UInt32}
    (hfits : extent outputWidth (before ++ column :: after) < 2 ^ 63)
    (hlow : min (extent outputWidth before + (pixelWidth outputWidth column.width).toNat -
      outputWidth.toNat : Int) 0 ≤ viewport)
    (hhigh : viewport ≤ max (extent outputWidth before : Int) (extent outputWidth before +
      (pixelWidth outputWidth column.width).toNat - outputWidth.toNat)) :
    clampViewport outputWidth ⟨before ++ column :: after, focused, viewport, none⟩ =
      ⟨before ++ column :: after, focused, viewport, none⟩ := by
  obtain ⟨first, hfirst, hmem⟩ : ∃ first, (before ++ column :: after).head? = some first ∧
      first ∈ before ++ [column] := by
    cases before with
    | nil => exact ⟨column, rfl, mem_singleton_self _⟩
    | cons head rest => exact ⟨head, rfl, mem_cons_self⟩
  obtain ⟨last, hlast, hmem'⟩ : ∃ last, (before ++ column :: after).getLast? = some last ∧
      last ∈ column :: after := by
    refine ⟨(column :: after).getLast nofun, ?_, getLast_mem _⟩
    rw [getLast?_append]
    rfl
  have hfirst' := le_extent outputWidth hmem
  have hlast' := le_extent outputWidth hmem'
  have htotal := columnsEnd_zero hfits
  have houtput := outputWidth.toNat_lt
  rw [extent_append, extent_cons, show extent outputWidth [] = 0 from rfl] at hfirst'
  rw [extent_cons] at hlast'
  rw [extent_append, extent_cons] at hfits htotal
  simp only [clampViewport, totalWidth, hfirst, hlast, saturateI64, mk.injEq, true_and,
    and_true]
  omega

theorem placementsFrom_getElem? (w : Workspace) (output : Size) (decorations : Insets)
    (before after : List Column) (column : Column) (index : Nat) (left : Int) :
    ∃ placement, (w.placementsFrom output decorations index left
        (before ++ column :: after))[before.length]? = some placement ∧
      placement.window = column.window ∧
      placement.focused = (w.focused = some (index + before.length)) ∧
      placement.outer = ⟨saturateI64 (columnsEnd output.width left before - w.viewport), 0,
        pixelWidth output.width column.width, output.height⟩ := by
  induction before generalizing index left with
  | nil => exact ⟨_, rfl, rfl, by simp, rfl⟩
  | cons head before ih =>
    obtain ⟨placement, hget, hrest⟩ := ih (index + 1) _
    refine ⟨placement, hget, ?_⟩
    rwa [length_cons, ← Nat.add_assoc, Nat.add_right_comm]

theorem clampViewport_columns (outputWidth : UInt32) (w : Workspace) :
    (w.clampViewport outputWidth).columns = w.columns := by
  unfold clampViewport
  split <;> rfl

theorem clampViewport_focused (outputWidth : UInt32) (w : Workspace) :
    (w.clampViewport outputWidth).focused = w.focused := by
  unfold clampViewport
  split <;> rfl

theorem finishFullscreen_fullscreen (outputWidth : UInt32) (w : Workspace) :
    (w.finishFullscreen outputWidth).2.fullscreen = none := by
  unfold finishFullscreen
  cases h : w.fullscreen with
  | none => exact h
  | some restore =>
    simp only
    split
    · rfl
    · unfold clampViewport
      split <;> rfl

theorem position_some {w : Workspace} {window : WindowId} {index : Nat}
    (h : w.position window = some index) :
    (w.columns[index]?).map (·.window) = some window := by
  obtain ⟨hlt, hwindow, -⟩ := findIdx?_eq_some_iff_getElem.mp h
  rw [getElem?_eq_getElem hlt]
  exact congrArg some (of_decide_eq_true hwindow)

/-- What `alignFocused` is asked to align: the fullscreen window, or else the focused one. -/
def alignTarget (w : Workspace) : Option WindowId :=
  match w.fullscreen with
  | some restore => (w.position restore.window).map fun _ => restore.window
  | none => w.focusedWindow

/-- Putting the fullscreen window back leaves it a column, which then has the focus. -/
theorem finishFullscreen_focusedWindow (outputWidth : UInt32) (w : Workspace) :
    let w' := (w.finishFullscreen outputWidth).2
    let fullscreenWindow := w.fullscreen.map (·.window)
    { w' with focused := (fullscreenWindow.map w'.position).getD w'.focused }.focusedWindow =
      w.alignTarget := by
  unfold finishFullscreen alignTarget
  cases w.fullscreen with
  | none => rfl
  | some restore =>
    simp only [Option.map_some, Option.getD_some]
    cases hposition : position { w with fullscreen := none } restore.window with
    | none =>
      have hposition' : w.position restore.window = none := hposition
      simp only [hposition', focusedWindow]
      rw [hposition]
      rfl
    | some current =>
      have hposition' : w.position restore.window = some current := hposition
      simp only [hposition']
      generalize hw' : clampViewport outputWidth _ = w'
      have hcolumns : ⟨restore.window, restore.width⟩ ∈ w'.columns := by
        rw [← hw', clampViewport_columns]
        exact (mem_insertIdx (Nat.min_le_right _ _)).mpr (.inl rfl)
      cases hindex : w'.position restore.window with
      | none =>
        have hnone := findIdx?_eq_none_iff.mp hindex _ hcolumns
        simp at hnone
      | some index => exact position_some hindex

/-- The column that is aligned has the focus, and nothing is fullscreen. -/
theorem alignFocused_cases (outputWidth : UInt32) (alignment : HorizontalAlignment)
    (w : Workspace) :
    (∃ w', w.alignFocused outputWidth alignment = (false, w') ∧ w'.focusedWindow = none ∧
        w.alignTarget = none) ∨
      ∃ before column after, w.alignTarget = some column.window ∧
        w.alignFocused outputWidth alignment =
        (true, clampViewport outputWidth ⟨before ++ column :: after, some before.length,
          alignedViewport outputWidth (columnsEnd outputWidth 0 before)
            (pixelWidth outputWidth column.width).toNat alignment, none⟩) := by
  unfold alignFocused
  extract_lets fullscreenWindow w1 w2
  have hfull : w2.fullscreen = none := w.finishFullscreen_fullscreen outputWidth
  have htarget : w2.focusedWindow = w.alignTarget := w.finishFullscreen_focusedWindow outputWidth
  obtain ⟨columns, focused, viewport, fullscreen⟩ := w2
  cases hfull
  cases focused with
  | none => exact .inl ⟨_, rfl, rfl, htarget.symm⟩
  | some index =>
    rw [focusedWindow, Option.bind_some] at htarget
    cases hcolumn : columns[index]? with
    | none =>
      simp only [hcolumn] at htarget ⊢
      exact .inl ⟨_, rfl, rfl, htarget.symm⟩
    | some column =>
      obtain ⟨hlt, rfl⟩ := List.getElem?_eq_some_iff.mp hcolumn
      rw [hcolumn] at htarget
      refine .inr ⟨columns.take index, columns[index], columns.drop (index + 1),
        htarget.symm, ?_⟩
      rw [← drop_eq_getElem_cons hlt, take_append_drop, length_take_of_le hlt.le]
      simp only [hcolumn]
      rfl

end Workspace

theorem tdiv_two (a : Int) : 0 ≤ a ∧ a.tdiv 2 = a / 2 ∨ a < 0 ∧ a.tdiv 2 = -(-a / 2) := by
  rcases Int.lt_or_le a 0 with hneg | hpos
  · refine .inr ⟨hneg, ?_⟩
    rw [← Int.tdiv_eq_ediv_of_nonneg (by omega), Int.neg_tdiv, Int.neg_neg]
  · exact .inl ⟨hpos, Int.tdiv_eq_ediv_of_nonneg hpos⟩

/-- A column that starts at `x` and ends at `right` is aligned in an output of this width. -/
def Aligned (outputWidth : UInt32) (x right : Int) : HorizontalAlignment → Prop
  | .left => x = 0
  | .center => (x - (outputWidth.toNat - right)).natAbs ≤ 1
  | .right => right = outputWidth.toNat

theorem alignedViewport_spec (outputWidth : UInt32) {left width : Nat}
    (hfits : left + width < 2 ^ 63) (hwidth : width < 2 ^ 32) (alignment : HorizontalAlignment)
    {v : Int} (hv : v = Workspace.alignedViewport outputWidth left width alignment) :
    min (left + width - outputWidth.toNat : Int) 0 ≤ v ∧
      v ≤ max (left : Int) (left + width - outputWidth.toNat) ∧
      Aligned outputWidth (saturateI64 (left - v)) (saturateI64 (saturateI64 (left - v) + width))
        alignment := by
  have houtput := outputWidth.toNat_lt
  have hhalf := tdiv_two (saturateI64 (width - outputWidth.toNat))
  subst hv
  cases alignment <;>
    simp only [Workspace.alignedViewport, Aligned, saturateI64] at hhalf ⊢ <;> omega

/-- The call succeeds if a window is fullscreen or focused, and its column then stands at the left
end, in the middle or at the right end of the output, whatever the other columns are: the viewport
is not clamped. -/
theorem align_focused_is_exact (l : Layout) (alignment : HorizontalAlignment) :
    let l' := (l.alignFocused alignment).2
    let target := l.activeWorkspace.bind (·.alignTarget)
    (l.alignFocused alignment).1 = target.isSome ∧ l'.focusedWindow = target ∧
    ∀ window w, target = some window → l'.activeWorkspace = some w →
      extent l'.output.width w.columns < 2 ^ 63 →
      ∃ index placement, w.focused = some index ∧ l'.placements[index]? = some placement ∧
        placement.window = window ∧ placement.focused = true ∧
        Aligned l'.output.width placement.outer.x placement.outer.right alignment ∧
        w.viewport = Workspace.alignedViewport l'.output.width (w.columnLeft l'.output.width index)
          placement.outer.width.toNat alignment := by
  unfold Layout.alignFocused
  cases hactive : l.activeWorkspace with
  | none => exact ⟨rfl, by rw [Layout.focusedWindow, hactive]; rfl, nofun⟩
  | some w0 =>
    have hset : ∀ w, { l with workspaces := l.workspaces.set l.active w }.activeWorkspace =
        some w := fun w => getElem?_set_self (lt_length hactive)
    rcases w0.alignFocused_cases l.output.width alignment with
      ⟨w', heq, hnone, htarget⟩ | ⟨before, column, after, htarget, heq⟩
    · simp only [heq, Layout.focusedWindow, hset, Option.bind_some, htarget]
      exact ⟨rfl, hnone, nofun⟩
    simp only [heq, Layout.focusedWindow, Layout.placements, hset, Option.bind_some, htarget]
    refine ⟨rfl, ?_, fun window w hwindow hw hfits => ?_⟩
    · rw [Workspace.focusedWindow, Workspace.clampViewport_columns,
        Workspace.clampViewport_focused]
      simp
    cases hw
    cases hwindow
    rw [Workspace.clampViewport_columns] at hfits
    have hwhole := hfits
    rw [extent_append, extent_cons] at hwhole
    have hleft := columnsEnd_zero (show extent l.output.width before < 2 ^ 63 by omega)
    rw [hleft]
    obtain ⟨hlow, hhigh, haligned⟩ := alignedViewport_spec l.output.width
      (show extent l.output.width before + _ < 2 ^ 63 by omega)
      (pixelWidth l.output.width column.width).toNat_lt alignment rfl
    rw [Workspace.clampViewport_eq hfits hlow hhigh]
    obtain ⟨placement, hget, hwindow, hfocus, houter⟩ := Workspace.placementsFrom_getElem?
      ⟨before ++ column :: after, some before.length, _, none⟩ l.output l.decorations before
      after column 0 0
    refine ⟨_, placement, rfl, hget, hwindow, ?_, ?_, ?_⟩
    · simpa using hfocus
    · rw [houter, hleft]
      exact haligned
    · rw [houter, Workspace.columnLeft, take_left, hleft]

/-- Two columns in an output of 100 pixels. -/
def twoColumns : Layout := ⟨⟨100, 50⟩, ⟨0, 0, 0, 0⟩,
  [⟨[⟨1, ⟨500, by decide⟩⟩, ⟨2, ⟨300, by decide⟩⟩], some 1, 0, none⟩], 0⟩

theorem align_focused_is_exact_twoColumns :
    ∃ placement, (twoColumns.alignFocused .center).2.placements[1]? = some placement ∧
      placement.window = 2 ∧ Aligned 100 placement.outer.x placement.outer.right .center := by
  obtain ⟨index, placement, hfocused, hget, hwindow, -, haligned, -⟩ :=
    (align_focused_is_exact twoColumns .center).2.2 2 _ rfl rfl (by decide)
  cases hfocused
  exact ⟨placement, hget, hwindow, haligned⟩

end Ginkgo.ScrollLayout
