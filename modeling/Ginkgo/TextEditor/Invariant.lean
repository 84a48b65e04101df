import Ginkgo.TextEditor.Document

/-!
# Sound documents

Every call keeps the caret on character boundaries and at the column that vertical movement keeps,
the text and the histories within their bounds, and every text in a document, its histories or its
last save under the number of the edit that made it.  Such a number identifies the text as long as
it has not wrapped around.
-/

namespace Ginkgo.TextEditor

open Ginkgo.Lib List Option

section Text

variable {text start : Text} {p q : Nat}

@[simp]
theorem len_append (a b : Text) : len (a ++ b) = len a + len b := by
  simp [len]

@[simp]
theorem len_cons (c : Char) (a : Text) : len (c :: a) = c.utf8Size + len a := by
  simp [len]

@[simp]
theorem len_nil : len [] = 0 := rfl

theorem len_toList (s : String) : len s.toList = s.toByteArray.size := by
  rw [← String.utf8Encode_toList]
  simp [len, utf8Encode]

theorem upTo_append_onward (text : Text) (p : Nat) : upTo text p ++ onward text p = text := by
  unfold upTo onward
  fun_induction splitAt text p with
  | case1 => rfl
  | case2 c text p hle ih => exact congrArg (c :: ·) ih
  | case3 => rfl

theorem upTo_start (text : Text) (p : Nat) : upTo text p <+: text :=
  ⟨_, upTo_append_onward text p⟩

theorem upTo_upTo (hle : p ≤ q) : upTo (upTo text q) p = upTo text p := by
  unfold upTo
  fun_induction splitAt text q generalizing p with
  | case1 => rfl
  | case2 c text q hq ih =>
    simp only [splitAt]
    split
    · rw [ih (Nat.sub_le_sub_right hle _)]
    · rfl
  | case3 c text q hq =>
    simp only [splitAt, if_neg (show ¬c.utf8Size ≤ p by omega)]

theorem splitAt_append (a b : Text) : splitAt (a ++ b) (len a) = (a, b) := by
  induction a with
  | nil =>
    cases b with
    | nil => rfl
    | cons c b => exact if_neg (by have := c.utf8Size_pos; simp; omega)
  | cons c a ih => simp [splitAt, ih]

theorem upTo_len (h : start <+: text) : upTo text (len start) = start := by
  obtain ⟨rest, rfl⟩ := h
  rw [upTo, splitAt_append]

theorem boundary_start (h : start <+: text) : Boundary text (len start) :=
  congrArg len (upTo_len h)

theorem len_le_start (h : start <+: text) : len start ≤ len text := by
  obtain ⟨rest, rfl⟩ := h
  rw [len_append]
  exact Nat.le_add_right _ _

theorem Boundary.add (h : Boundary text p) (hs : start <+: onward text p) :
    Boundary text (p + len start) := by
  obtain ⟨rest, hrest⟩ := hs
  have hstart : upTo text p ++ start <+: text :=
    ⟨rest, by rw [append_assoc, hrest, upTo_append_onward]⟩
  have := boundary_start hstart
  rwa [len_append, h] at this

theorem Boundary.within (h : Boundary text p) (hle : p ≤ q) : Boundary (upTo text q) p := by
  rwa [Boundary, upTo_upTo hle]

theorem len_onward (h : Boundary text p) : p + len (onward text p) = len text := by
  nth_rw 1 [← h]
  rw [← len_append, upTo_append_onward]

theorem len_slice (h : Boundary text p) (h' : Boundary text q) (hle : p ≤ q) :
    p + len (slice text p q) = q :=
  (len_onward (h.within hle)).trans h'

theorem nextBack_concat (before : Text) (c : Char) :
    nextBack (before ++ [c]) = some (len before, c) := by
  simp [nextBack]

theorem Boundary.nextBack (h : Boundary text p) (hp : p ≠ 0) :
    ∃ i c, nextBack (upTo text p) = some (i, c) ∧ Boundary text i ∧ i < p := by
  rcases eq_nil_or_concat (upTo text p) with hnil | ⟨before, c, heq⟩
  · rw [Boundary, hnil] at h
    exact (hp h.symm).elim
  · rw [concat_eq_append] at heq
    refine ⟨len before, c, ?_, ?_, ?_⟩
    · rw [heq, nextBack_concat]
    · exact boundary_start ((heq ▸ prefix_append _ _ : before <+: upTo text p).trans
        (upTo_start _ _))
    · rw [Boundary, heq] at h
      have := c.utf8Size_pos
      simp at h
      omega

theorem Boundary.next (h : Boundary text p) :
    Boundary text (p + (onward text p).head?.elim 0 Char.utf8Size) := by
  have hlen : len ((onward text p).take 1) = (onward text p).head?.elim 0 Char.utf8Size := by
    cases onward text p <;> simp
  exact hlen ▸ h.add ⟨_, take_append_drop _ _⟩

theorem Boundary.lt_next (h : Boundary text p) (hp : p ≠ len text) :
    p < p + (onward text p).head?.elim 0 Char.utf8Size := by
  have hlen := len_onward h
  cases hon : onward text p with
  | nil =>
    rw [hon] at hlen
    exact (hp hlen).elim
  | cons c rest => exact Nat.lt_add_of_pos_right c.utf8Size_pos

end Text

/-- The caret of a text: its positions are boundaries and a selection is not empty. -/
structure Placed (text : Text) (cursor : Nat) (anchor : Option Nat) : Prop where
  at_boundary : Boundary text cursor
  selects : ∀ a ∈ anchor, Boundary text a ∧ a ≠ cursor

theorem Placed.caret {text : Text} {cursor : Nat} (h : Boundary text cursor) :
    Placed text cursor none := ⟨h, nofun⟩

/-- Where a movement can put the cursor is a boundary; the rest of the document stays. -/
structure Moved (d d' : Document) : Prop where
  placed : Placed d.text d'.cursor d'.selectionAnchor
  eq : d' = { d with
    cursor := d'.cursor
    selectionAnchor := d'.selectionAnchor
    preferredColumn := d'.preferredColumn }

/-- An edit: the old document goes to the undo history, perhaps with another selection. -/
inductive Edited (anchor : Option Nat) (d : Document) : Document → Prop
  | mk {text : Text} {cursor : Nat} (placed : Placed d.text d.cursor anchor)
      (fits : len text ≤ maxDocumentBytes) (caret : Boundary text cursor) :
      Edited anchor d (.finishEdit (.putCaret cursor
        { Document.beginEdit { d with selectionAnchor := anchor } with text }))

/-- The deletions that select a character or a word where nothing is selected. -/
def Edit.selects : Edit → Bool
  | .deleteWordBackward | .backspace | .delete => true
  | _ => false

/-- Everything that an edit can do to a document.  An edit that selects what it deletes does so
before the undo history records the document. -/
inductive Outcome (selects : Bool) (d : Document) : Except DocumentError Bool × Document → Prop
  | error (e : DocumentError) : Outcome selects d (.error e, d)
  | unchanged {d' : Document} (h : Moved d d') (hcolumn : d'.preferredColumn = none ∨ d' = d) :
      Outcome selects d (.ok false, d')
  | changed {d' : Document} {anchor : Option Nat} (h : Edited anchor d d')
      (hanchor : anchor = d.selectionAnchor ∧ (selects → d.selectionAnchor.isSome) ∨
        d.selectionAnchor = none ∧ selects ∧ anchor.isSome) :
      Outcome selects d (.ok true, d')

namespace Document

variable {d : Document}

/-- The caret of the document. -/
abbrev Placed (d : Document) : Prop := TextEditor.Placed d.text d.cursor d.selectionAnchor

theorem Placed.range (h : d.Placed) :
    Boundary d.text d.editRange.1 ∧ Boundary d.text d.editRange.2 ∧ d.editRange.1 ≤ d.editRange.2 ∧
      (d.selectionAnchor.isSome → d.editRange.1 ≠ d.editRange.2) := by
  unfold editRange selectionRange
  cases hanchor : d.selectionAnchor with
  | none => exact ⟨h.at_boundary, h.at_boundary, le_rfl, nofun⟩
  | some a =>
    obtain ⟨ha, hne⟩ := h.selects a hanchor
    simp only [map_some, getD_some]
    split
    · exact ⟨ha, h.at_boundary, by omega, fun _ => hne⟩
    · exact ⟨h.at_boundary, ha, by omega, fun _ => hne.symm⟩

theorem checkSize_eq (size : Nat) : checkSize size = .ok () ∧ size ≤ maxDocumentBytes ∨
    (∃ e, checkSize size = .error e) ∧ maxDocumentBytes < size := by
  unfold checkSize
  split
  · exact .inr ⟨⟨_, rfl⟩, by assumption⟩
  · exact .inl ⟨rfl, by omega⟩

theorem Placed.unchanged (h : d.Placed) (selects : Bool) : Outcome selects d (.ok false, d) :=
  .unchanged ⟨h, rfl⟩ (.inr rfl)

theorem Placed.replaceSelection_cases (h : d.Placed) (replacement : Text) :
    (∃ e, d.replaceSelection replacement = (.error e, d) ∧
      maxDocumentBytes < len d.text + len replacement) ∨
    (∃ d', d.replaceSelection replacement = (.ok false, d') ∧ Moved d d' ∧
      d'.preferredColumn = none ∧ (replacement = [] → d.selectionAnchor = none)) ∨
    ∃ d', d.replaceSelection replacement = (.ok true, d') ∧ Edited d.selectionAnchor d d' := by
  obtain ⟨hstart, hend, hle, hne⟩ := h.range
  have hslice := len_slice hstart hend hle
  have honward := len_onward hend
  unfold replaceSelection
  dsimp only
  rcases checkSize_eq (len d.text - (d.editRange.2 - d.editRange.1) + len replacement) with
    ⟨hok, hfits⟩ | ⟨⟨e, herror⟩, hlarge⟩
  · rw [hok]
    dsimp only
    split
    · rename_i heq
      refine .inr (.inl ⟨_, rfl, ⟨.caret ?_, rfl⟩, rfl, fun hnil => ?_⟩)
      · change Boundary d.text (d.editRange.1 + len replacement)
        rwa [← heq, hslice]
      · rw [heq, hnil] at hslice
        exact not_isSome_iff_eq_none.mp fun hsome => hne hsome hslice
    · refine .inr (.inr ⟨_, rfl, .mk h ?_ ?_⟩)
      · have : len (upTo d.text d.editRange.1) = _ := hstart
        simp only [len_append]
        omega
      · have := boundary_start (prefix_append
          (upTo d.text d.editRange.1 ++ replacement) (onward d.text d.editRange.2))
        rwa [len_append, hstart] at this
  · rw [herror]
    exact .inl ⟨e, rfl, by omega⟩

section Deletions

variable (h : d.Placed) (hfits : len d.text ≤ maxDocumentBytes)

include h hfits

/-- With a selection, the source's `expect` holds and there is a change. -/
theorem Placed.deleteSelection_cases : d.selectionAnchor = none ∧ d.deleteSelection = (false, d) ∨
      ∃ d', d.deleteSelection = (true, d') ∧ d.selectionAnchor.isSome ∧
        Edited d.selectionAnchor d d' := by
  unfold deleteSelection
  split
  · rename_i hsome
    rcases h.replaceSelection_cases [] with ⟨e, -, hlarge⟩ | ⟨d', -, -, -, hnone⟩ | ⟨d', heq, hedit⟩
    · rw [len_nil] at hlarge
      omega
    · rw [hnone rfl] at hsome
      cases hsome
    · rw [heq]
      exact .inr ⟨d', rfl, hsome, hedit⟩
  · rename_i hnone
    exact .inl ⟨not_isSome_iff_eq_none.mp hnone, rfl⟩

theorem Placed.deleteSelection_outcome : Outcome false d (d.deleteSelection.map .ok id) := by
  rcases h.deleteSelection_cases hfits with ⟨-, heq⟩ | ⟨d', heq, -, hedit⟩
  · exact heq ▸ h.unchanged _
  · exact heq ▸ .changed hedit (.inl ⟨rfl, nofun⟩)

/-- The selection goes first; only without one is there something else to delete. -/
theorem Placed.selection_first {otherwise : Document → Bool × Document}
    (hother : d.selectionAnchor = none → Outcome true d ((otherwise d).map .ok id)) :
    Outcome true d (Prod.map .ok id (match d.deleteSelection with
      | (true, d) => (true, d)
      | (false, d) => otherwise d)) := by
  rcases h.deleteSelection_cases hfits with ⟨hnone, heq⟩ | ⟨d', heq, hsome, hedit⟩
  · rw [heq]
    exact hother hnone
  · rw [heq]
    exact .changed hedit (.inl ⟨rfl, fun _ => hsome⟩)

theorem Placed.deletes (hanchor : d.selectionAnchor = none) {a : Nat} (ha : Boundary d.text a)
    (hne : a ≠ d.cursor) :
    Outcome true d ((deleteSelection { d with selectionAnchor := some a }).map .ok id) := by
  have hplaced : Placed { d with selectionAnchor := some a } :=
    ⟨h.at_boundary, by rintro _ ⟨⟩; exact ⟨ha, hne⟩⟩
  rcases hplaced.deleteSelection_cases hfits with ⟨hnone, -⟩ | ⟨d', heq, -, hedit⟩
  · cases hnone
  · rw [heq]
    obtain ⟨hplaced, hfits, hcaret⟩ := hedit
    exact .changed (.mk hplaced hfits hcaret) (.inr ⟨hanchor, rfl, rfl⟩)

theorem Placed.backspace_outcome : Outcome true d (d.backspace.map .ok id) := by
  refine h.selection_first hfits fun hnone => ?_
  split
  · exact h.unchanged _
  · rename_i hzero
    obtain ⟨i, c, hback, hi, hlt⟩ := h.at_boundary.nextBack hzero
    rw [hback]
    exact h.deletes hfits hnone hi (by dsimp; omega)

theorem Placed.delete_outcome : Outcome true d (d.delete.map .ok id) := by
  refine h.selection_first hfits fun hnone => ?_
  split
  · exact h.unchanged _
  · rename_i hend
    exact h.deletes hfits hnone h.at_boundary.next (h.at_boundary.lt_next hend).ne'

theorem Placed.deleteWordBackward_outcome (classes : CharClasses) :
    Outcome true d ((d.deleteWordBackward classes).map .ok id) := by
  refine h.selection_first hfits fun hnone => ?_
  split
  · exact h.unchanged _
  rename_i hzero
  have hcursor : len (upTo d.text d.cursor) = d.cursor := h.at_boundary
  have hword := rdropWhile_prefix classes.isWhitespace (l := upTo d.text d.cursor)
  dsimp only
  rw [upTo_len (hword.trans (upTo_start _ _))]
  -- what is left of the whitespace ends in the last character of the word
  rcases eq_nil_or_concat ((upTo d.text d.cursor).rdropWhile classes.isWhitespace) with
    hnil | ⟨before, previous, hlast⟩
  · rw [hnil]
    exact h.deletes hfits hnone (boundary_start nil_prefix) (Ne.symm hzero)
  · have hkept := rdropWhile_last_not classes.isWhitespace (upTo d.text d.cursor) (by simp [hlast])
    rw [concat_eq_append] at hlast
    simp only [hlast] at hkept hword
    rw [hlast, nextBack_concat]
    dsimp only
    rw [rdropWhile_concat_pos _ _ _ (by simpa using hkept)]
    have hbefore := rdropWhile_prefix (fun c =>
      !(classes.isWhitespace c || classes.isWord c != classes.isWord previous)) (l := before)
    have := len_le_start hbefore
    have := len_le_start hword
    have := previous.utf8Size_pos
    simp only [len_append, len_cons] at *
    refine h.deletes hfits hnone (boundary_start (hbefore.trans ?_)) (by omega)
    exact (prefix_append _ _).trans (hword.trans (upTo_start _ _))

end Deletions

theorem Placed.replaceSelection_outcome (h : d.Placed) (replacement : Text) :
    Outcome false d (d.replaceSelection replacement) := by
  rcases h.replaceSelection_cases replacement with ⟨e, heq, -⟩ | ⟨d', heq, hmoved, hcolumn, -⟩ |
    ⟨d', heq, hedit⟩
  · exact heq ▸ .error e
  · exact heq ▸ .unchanged hmoved (.inl hcolumn)
  · exact heq ▸ .changed hedit (.inl ⟨rfl, nofun⟩)

theorem Placed.edit (h : d.Placed) (hfits : len d.text ≤ maxDocumentBytes) (classes : CharClasses)
    (e : Edit) : Outcome e.selects d (e.run classes d) := by
  cases e with
  | insertText text => exact h.replaceSelection_outcome text
  | insertNewline => exact h.replaceSelection_outcome _
  | replaceSelection replacement => exact h.replaceSelection_outcome replacement
  | deleteSelection => exact h.deleteSelection_outcome hfits
  | deleteWordBackward => exact h.deleteWordBackward_outcome hfits classes
  | backspace => exact h.backspace_outcome hfits
  | delete => exact h.delete_outcome hfits

theorem Placed.setCursor_moved (h : d.Placed) {target : Nat} (htarget : Boundary d.text target)
    (select : Bool) (column : Option Nat) :
    Moved d ({ d with preferredColumn := column }.setCursor target select).2 := by
  refine ⟨⟨htarget, fun a ha => ?_⟩, rfl⟩
  dsimp only [setCursor] at ha ⊢
  split at ha
  · cases ha
  · rename_i hne
    refine ⟨?_, fun heq => hne (heq ▸ ha)⟩
    unfold movingAnchor at ha
    split_ifs at ha
    · obtain rfl := mem_some.mp ha
      exact h.at_boundary
    · exact (h.selects a ha).1
    · cases ha

/-- No newline in the text. -/
def Inner (line : Text) : Prop := ∀ x ∈ line, (x != '\n') = true

/-- The text has a newline or nothing where it meets a line. -/
def Ends (rest : Text) : Prop := rest.dropWhile (· != '\n') = rest

/-- The cursor's line between what is before it, backwards, and after it, with the cursor at
character `c` or at the end. -/
structure OnLine (d : Document) (c : Nat) (before line after : Text) : Prop where
  text : d.text = before.reverse ++ line ++ after
  cursor : d.cursor = len (before.reverse ++ line.take c)
  inner : Inner line
  opens : Ends before
  closes : Ends after

section Lines

variable {d' : Document} {p c : Nat} {before line after next : Text}

theorem lineStart_boundary : Boundary d.text (d.lineStart p) :=
  boundary_start <| rdropWhile_prefix _ _ |>.trans (upTo_start _ _)

theorem lineEnd_boundary (h : Boundary d.text p) : Boundary d.text (d.lineEnd p) :=
  h.add <| takeWhile_prefix _

theorem Inner.reverse (h : Inner line) : Inner line.reverse := fun x hx => h x (mem_reverse.mp hx)

theorem exists_line (rest : Text) : ∃ line after, rest = line ++ after ∧ Inner line ∧ Ends after :=
  ⟨_, _, takeWhile_append_dropWhile.symm, fun _ hx => mem_takeWhile_imp (p := (· != '\n')) hx,
    dropWhile_idempotent ..⟩

theorem Ends.cases (h : Ends after) :
    after = [] ∨ ∃ line rest, after = '\n' :: (line ++ rest) ∧ Inner line ∧ Ends rest := by
  cases after with
  | nil => exact .inl rfl
  | cons x rest =>
    have hx := dropWhile_eq_self_iff.mp h (Nat.succ_pos _)
    simp only [bne_iff_ne, not_not] at hx
    obtain ⟨line, rest, rfl, hline⟩ := exists_line rest
    exact .inr ⟨line, rest, congrArg (· :: _) hx, hline⟩

theorem lineStart_of (htext : d.text = before.reverse ++ line ++ after) (hopens : Ends before)
    (hinner : Inner line) : d.lineStart (len (before.reverse ++ line)) = len before.reverse := by
  rw [lineStart, htext, upTo_len (prefix_append _ _), rdropWhile, reverse_append, reverse_reverse,
    dropWhile_append_of_pos hinner.reverse, hopens]

theorem lineEnd_of (htext : d.text = before ++ (line ++ after)) (hinner : Inner line)
    (hcloses : Ends after) : d.lineEnd (len before) = len (before ++ line) := by
  have hnone := takeWhile_append_dropWhile (p := (· != '\n')) (l := after)
  rw [hcloses, append_left_eq_self] at hnone
  rw [lineEnd, onward, htext, splitAt_append, takeWhile_append_of_pos hinner, hnone,
    append_nil, len_append]

theorem slice_of (htext : d.text = before ++ line ++ after) :
    slice d.text (len before) (len (before ++ line)) = line := by
  rw [slice, htext, upTo_len (prefix_append _ _), onward, splitAt_append]

theorem byteAtColumn_of (htext : d.text = before ++ line ++ after) :
    d.byteAtColumn (len before) (len (before ++ line)) c = len (before ++ line.take c) := by
  rw [byteAtColumn, slice_of htext]
  split
  · rw [len_append]
  · rw [take_of_length_le (by omega)]

namespace OnLine

theorem of_boundary (h : Boundary d.text d.cursor) : ∃ c before line after,
    OnLine d c before line after ∧ (d.preferredColumn = none → d.column = c) := by
  obtain ⟨left, before, hleft, hinner, hopens⟩ := exists_line (upTo d.text d.cursor).reverse
  obtain ⟨right, after, hright, hinner', hcloses⟩ := exists_line (onward d.text d.cursor)
  rw [reverse_eq_iff, reverse_append] at hleft
  have htext : d.text = before.reverse ++ left.reverse ++ (right ++ after) := by
    rw [← hleft, ← hright, upTo_append_onward]
  have hcursor : d.cursor = len (before.reverse ++ left.reverse) := by rw [← hleft, h]
  refine ⟨left.reverse.length, before, left.reverse ++ right, after,
    ⟨by simp [htext], by rw [take_left, hcursor], fun x hx => ?_, hopens, hcloses⟩, fun hnone => ?_⟩
  · exact (mem_append.mp hx).elim (hinner.reverse x) (hinner' x)
  · rw [Document.column, hnone, getD_none, hcursor, lineStart_of htext hopens hinner.reverse,
      slice_of htext]

section

variable (h : OnLine d c before line after)
include h

theorem split : d.text = before.reverse ++ line.take c ++ (line.drop c ++ after) := by
  rw [h.text, append_assoc, append_assoc, ← append_assoc (line.take c), take_append_drop]

theorem boundary : Boundary d.text d.cursor := by
  rw [h.split, h.cursor]
  exact boundary_start (prefix_append _ _)

theorem lineStart : d.lineStart d.cursor = len before.reverse := by
  rw [h.cursor, lineStart_of h.split h.opens fun x hx => h.inner x (mem_of_mem_take hx)]

theorem lineEnd : d.lineEnd d.cursor = len (before.reverse ++ line) := by
  rw [h.cursor, lineEnd_of h.split (fun x hx => h.inner x (mem_of_mem_drop hx)) h.closes,
    append_assoc, take_append_drop]

end

theorem moveDown (h : OnLine d c before line ('\n' :: (next ++ after))) (hinner : Inner next)
    (hcloses : Ends after) (select : Bool) :
    OnLine (d.moveDown select).2 d.column ('\n' :: (line.reverse ++ before)) next after := by
  have htext : d.text = ('\n' :: (line.reverse ++ before)).reverse ++ next ++ after := by
    simp [h.text]
  have hlen : d.lineEnd d.cursor + 1 = len ('\n' :: (line.reverse ++ before)).reverse := by
    rw [h.lineEnd, reverse_cons, reverse_append, reverse_reverse, len_append _ ['\n']]
    rfl
  have hne : d.lineEnd d.cursor ≠ len d.text := by
    rw [htext, append_assoc, len_append, ← hlen]
    omega
  refine ⟨htext, ?_, hinner, rfl, hcloses⟩
  change (if d.lineEnd d.cursor = len d.text then _ else _) = _
  rw [if_neg hne, hlen, lineEnd_of (by rw [htext, append_assoc]) hinner hcloses,
    byteAtColumn_of htext]

theorem moveUp (h : OnLine d c ('\n' :: (next ++ before)) line after) (hinner : Inner next)
    (hopens : Ends before) (select : Bool) :
    OnLine (d.moveUp select).2 d.column before next.reverse ('\n' :: (line ++ after)) := by
  have htext : d.text = before.reverse ++ next.reverse ++ '\n' ::
    (line ++ after) := by simp [h.text]
  have hlen : d.lineStart d.cursor = len (before.reverse ++ next.reverse) + 1 := by
    rw [h.lineStart, reverse_cons, reverse_append, len_append _ ['\n']]
    rfl
  refine ⟨htext, ?_, hinner.reverse, hopens, rfl⟩
  change (if d.lineStart d.cursor = 0 then _ else _) = _
  rw [if_neg (by omega), hlen, Nat.add_sub_cancel, lineStart_of htext hopens hinner.reverse,
    byteAtColumn_of htext]

theorem moveDown_last (h : OnLine d c before line []) (select : Bool) :
    (d.moveDown select).2.cursor = d.cursor :=
  if_pos (by rw [h.lineEnd, h.text, append_nil])

theorem moveUp_first (h : OnLine d c [] line after) (select : Bool) :
    (d.moveUp select).2.cursor = d.cursor :=
  if_pos h.lineStart

end OnLine

/-- The cursor stands where vertical movement at column `c` puts it on the line. -/
structure AtColumn (c : Nat) (before line after : Text) (d : Document) : Prop
    extends OnLine d c before line after where
  column : d.column = c

/-- The cursor stands at the column that vertical movement keeps, or at the end of its line. -/
def Aligned (d : Document) : Prop := ∃ c before line after, AtColumn c before line after d

theorem Aligned.of_boundary (h : Boundary d.text d.cursor) (hnone : d.preferredColumn = none) :
    Aligned d := by
  obtain ⟨c, before, line, after, hline, hcolumn⟩ := OnLine.of_boundary h
  exact ⟨c, before, line, after, hline, hcolumn hnone⟩

namespace AtColumn

theorem stays (h : AtColumn c before line after d) (htext : d'.text = d.text)
    (hcursor : d'.cursor = d.cursor) (hcolumn : d'.column = c) : Aligned d' :=
  ⟨c, before, line, after, ⟨htext.trans h.text, hcursor.trans h.cursor, h.inner, h.opens, h.closes⟩,
    hcolumn⟩

/-- A move down is blocked, or its way back leads to the same place. -/
theorem down (h : AtColumn c before line after d) (select : Bool) :
    (d.moveDown select).2.cursor = d.cursor ∨ ∃ b l a, AtColumn c b l a (d.moveDown select).2 ∧
      ∀ d', AtColumn c b l a d' → AtColumn c before line after (d'.moveUp select).2 := by
  rcases h.closes.cases with rfl | ⟨next, rest, rfl, hinner, hcloses⟩
  · exact .inl (h.moveDown_last select)
  · refine .inr ⟨_, next, rest, ⟨h.column ▸ h.moveDown hinner hcloses select, h.column⟩,
      fun d' h' => ⟨?_, h'.column⟩⟩
    have hup := h'.moveUp h.inner.reverse h.opens select
    rwa [h'.column, reverse_reverse] at hup

theorem up (h : AtColumn c before line after d) (select : Bool) :
    (d.moveUp select).2.cursor = d.cursor ∨ ∃ b l a, AtColumn c b l a (d.moveUp select).2 ∧
      ∀ d', AtColumn c b l a d' → AtColumn c before line after (d'.moveDown select).2 := by
  rcases h.opens.cases with rfl | ⟨prev, rest, rfl, hinner, hopens⟩
  · exact .inl (h.moveUp_first select)
  · refine .inr ⟨rest, _, _, ⟨h.column ▸ h.moveUp hinner hopens select, h.column⟩,
      fun d' h' => ⟨?_, h'.column⟩⟩
    have hdown := h'.moveDown h.inner h.closes select
    rwa [h'.column, reverse_reverse] at hdown

end AtColumn

end Lines

theorem Placed.selection (h : d.Placed) {range : Nat × Nat} (hr : d.selectionRange = some range) :
    Boundary d.text range.1 ∧ Boundary d.text range.2 := by
  have := h.range
  rw [editRange, hr] at this
  exact ⟨this.1, this.2.1⟩

theorem Placed.move (h : d.Placed) (select : Bool) (m : Move) : Moved d (m.run select d).2 := by
  have hcursor := h.at_boundary
  cases m with
  | left =>
    change Moved d (moveLeft select d).2
    unfold moveLeft
    dsimp only
    split
    · exact h.setCursor_moved (h.selection (by assumption)).1 false none
    · refine h.setCursor_moved ?_ _ none
      rcases eq_or_ne d.cursor 0 with hzero | hpos
      · rw [hzero, show upTo d.text 0 = [] from upTo_len nil_prefix]
        exact boundary_start nil_prefix
      · obtain ⟨i, c, hback, hi, -⟩ := hcursor.nextBack hpos
        exact hback ▸ hi
  | right =>
    change Moved d (moveRight select d).2
    unfold moveRight
    dsimp only
    split
    · exact h.setCursor_moved (h.selection (by assumption)).2 false none
    · exact h.setCursor_moved hcursor.next _ none
  | up =>
    refine h.setCursor_moved ?_ select _
    obtain ⟨c, before, line, after, hline, -⟩ := OnLine.of_boundary hcursor
    rcases hline.opens.cases with rfl | ⟨prev, rest, rfl, hinner, hopens⟩
    · exact (congrArg (Boundary d.text) (hline.moveUp_first select)).mpr hcursor
    · exact (hline.moveUp hinner hopens select).boundary
  | down =>
    refine h.setCursor_moved ?_ select _
    obtain ⟨c, before, line, after, hline, -⟩ := OnLine.of_boundary hcursor
    rcases hline.closes.cases with rfl | ⟨next, rest, rfl, hinner, hcloses⟩
    · exact (congrArg (Boundary d.text) (hline.moveDown_last select)).mpr hcursor
    · exact (hline.moveDown hinner hcloses select).boundary
  | home => exact h.setCursor_moved lineStart_boundary select none
  | end_ => exact h.setCursor_moved (lineEnd_boundary hcursor) select none

theorem selectAll_moved (d : Document) : Moved d d.selectAll := by
  unfold selectAll
  split
  · exact ⟨.caret (boundary_start nil_prefix), rfl⟩
  · rename_i htext
    refine ⟨⟨boundary_start prefix_rfl, ?_⟩, rfl⟩
    rintro _ ⟨⟩
    refine ⟨boundary_start nil_prefix, ?_⟩
    obtain ⟨c, rest, hcons⟩ := exists_cons_of_ne_nil htext
    have := c.utf8Size_pos
    simp only [hcons, len_cons]
    omega

theorem reset_cases (bytes : ByteArray) (d : Document) : (∃ e, d.reset bytes = (.error e, d)) ∨
      ∃ text, len text ≤ maxDocumentBytes ∧ d.reset bytes = (.ok (), { new with text }) := by
  unfold reset
  rcases checkSize_eq bytes.size with ⟨hok, hfits⟩ | ⟨⟨e, herror⟩, -⟩
  · rw [hok]
    dsimp only
    split
    · exact .inl ⟨_, rfl⟩
    · rename_i text htext
      refine .inr ⟨text.toList, ?_, rfl⟩
      unfold String.fromUTF8? at htext
      split at htext
      · cases htext
        exact (len_toList _).trans_le hfits
      · cases htext
  · rw [herror]
    exact .inl ⟨e, rfl⟩

theorem Initial.eq (h : d.Initial) :
    ∃ text, len text ≤ maxDocumentBytes ∧ d = { new with text } := by
  rcases h with rfl | ⟨bytes, hload⟩
  · exact ⟨[], Nat.zero_le _, rfl⟩
  · unfold load at hload
    rcases reset_cases bytes new with ⟨e, heq⟩ | ⟨text, hfits, heq⟩
    · rw [heq] at hload
      cases hload
    · rw [heq] at hload
      cases hload
      exact ⟨text, hfits, rfl⟩

end Document

/-! ### Histories -/

/-- The bounds of a history. -/
structure Bounded (history : List Snapshot) : Prop where
  length : history.length ≤ maxHistorySnapshots
  bytes : historyBytes history ≤ maxHistoryBytes

/-- There is room in the history for another text. -/
def HasRoom (bytes : Nat) (history : List Snapshot) : Prop :=
  history.length < maxHistorySnapshots ∧ historyBytes history + bytes ≤ maxHistoryBytes

/-- Only the oldest snapshots go, and none where there is room. -/
theorem makeRoom_spec (bytes : Nat) (history : List Snapshot) :
    makeRoom bytes history (historyBytes history) <:+ history ∧
      (makeRoom bytes history (historyBytes history) = [] ∨
        HasRoom bytes (makeRoom bytes history (historyBytes history))) ∧
      (HasRoom bytes history → makeRoom bytes history (historyBytes history) = history) := by
  induction history with
  | nil => exact ⟨suffix_rfl, .inl rfl, fun _ => rfl⟩
  | cons removed history ih =>
    have hrest : historyBytes (removed :: history) - len removed.text = historyBytes history :=
      Nat.add_sub_cancel_left ..
    unfold makeRoom
    rw [hrest]
    split
    · rename_i hfull
      refine ⟨ih.1.trans (suffix_cons _ _), ih.2.1, fun hroom => ?_⟩
      obtain ⟨hlength, hbytes⟩ := hroom
      unfold saturatingAdd at hfull
      omega
    · rename_i hroom
      refine ⟨suffix_rfl, .inr ?_, fun _ => rfl⟩
      simp only [HasRoom, saturatingAdd, wordMax, maxHistoryBytes] at hroom ⊢
      omega

section Push

variable {history : List Snapshot} {s : Snapshot} {d : Document}

theorem forall_pushBounded {P : Snapshot → Prop} (h : ∀ x ∈ history, P x) (hs : P s) :
    ∀ x ∈ pushBounded history s, P x := by
  intro x hx
  rcases mem_append.mp hx with hold | hnew
  · exact h x ((makeRoom_spec _ _).1.mem hold)
  · exact mem_singleton.mp hnew ▸ hs

theorem pushBounded_bounded (hfits : len s.text ≤ maxDocumentBytes) :
    Bounded (pushBounded history s) := by
  have hsum : ∀ kept, historyBytes (kept ++ [s]) = historyBytes kept + len s.text := by
    simp [historyBytes]
  rcases (makeRoom_spec (len s.text) history).2.1 with hnil | ⟨hlength, hbytes⟩
  · rw [pushBounded, hnil]
    refine ⟨Nat.le_of_ble_eq_true rfl, ?_⟩
    rw [hsum]
    exact ((Nat.zero_add _).trans_le hfits).trans (Nat.le_of_ble_eq_true rfl)
  · refine ⟨?_, (hsum _).trans_le hbytes⟩
    rw [pushBounded, length_append]
    exact hlength

/-- What was taken from the end of a history can be put back. -/
theorem pushBounded_makeRoom :
    pushBounded (makeRoom (len s.text) history (historyBytes history)) s =
      pushBounded history s := by
  unfold pushBounded
  rcases (makeRoom_spec (len s.text) history).2.1 with hnil | hroom
  · rw [hnil]
    rfl
  · rw [(makeRoom_spec _ _).2.2 hroom]

theorem undo_of_last (h : d.undoHistory = history ++ [s]) : d.undo = (true, .restore s { d with
      undoHistory := history, redoHistory := pushBounded d.redoHistory d.snapshot }) := by
  rw [Document.undo, h, getLast?_concat, dropLast_concat]

end Push

/-- What holds of the document and of every snapshot.  `version` holds the text that each edit
made, and `n` edits have been made. -/
structure Sound (version : Nat → Text) (n : Nat) (s : Snapshot) : Prop where
  placed : Placed s.text s.cursor s.selectionAnchor
  fits : len s.text ≤ maxDocumentBytes
  recorded : ∃ r ≤ n, s.revision = r % 2 ^ 64 ∧ version r = s.text

theorem Sound.later {version : Nat → Text} {n : Nat} {s : Snapshot} (h : Sound version n s)
    (text : Text) : Sound (Function.update version (n + 1) text) (n + 1) s := by
  obtain ⟨r, hr, hrev, htext⟩ := h.recorded
  refine ⟨h.placed, h.fits, r, by omega, hrev, ?_⟩
  rwa [Function.update_of_ne (by omega)]

theorem Bounded.dropLast {history : List Snapshot} (h : Bounded history) :
    Bounded history.dropLast :=
  ⟨(length_dropLast.trans_le (Nat.sub_le _ _)).trans h.length,
    ((history.dropLast_sublist.map _).sum_le_sum fun _ _ => Nat.zero_le _).trans h.bytes⟩

structure Inv (version : Nat → Text) (s : Session) : Prop where
  current : Sound version s.edits s.document.snapshot
  undo : ∀ x ∈ s.document.undoHistory, Sound version s.edits x
  redo : ∀ x ∈ s.document.redoHistory, Sound version s.edits x
  undo_bounded : Bounded s.document.undoHistory
  redo_bounded : Bounded s.document.redoHistory
  next : s.document.nextRevision = (s.edits + 1) % 2 ^ 64
  saved : ∃ r ≤ s.edits, s.document.savedRevision = r % 2 ^ 64 ∧ version r = s.savedText

/-- Undo takes the document before the edit from the history, with the selection recorded there, and
redo brings back the document after the edit. -/
theorem Edited.undo {anchor : Option Nat} {d d' : Document} (h : Edited anchor d d') :
    d'.undo.1 = true ∧ d'.undo.2.snapshot = { d.snapshot with selectionAnchor := anchor } ∧
      d'.undo.2.redo = (true, d') := by
  cases h with
  | @mk text cursor =>
    rw [undo_of_last rfl]
    refine ⟨rfl, rfl, ?_⟩
    exact congrArg (fun undoHistory => (true, { Document.finishEdit (.putCaret cursor d) with
      text, undoHistory, redoHistory := [] })) pushBounded_makeRoom

namespace Inv

theorem opened (text : Text) (hfits : len text ≤ maxDocumentBytes) :
    Inv (fun _ => text) (.opened { Document.new with text }) where
  current := ⟨.caret (boundary_start nil_prefix), hfits, 0, le_rfl, rfl, rfl⟩
  undo := nofun
  redo := nofun
  undo_bounded := ⟨Nat.zero_le _, Nat.zero_le _⟩
  redo_bounded := ⟨Nat.zero_le _, Nat.zero_le _⟩
  next := rfl
  saved := ⟨0, le_rfl, rfl, rfl⟩

variable {version : Nat → Text} {s : Session} (h : Inv version s)

include h

theorem moved {d' : Document} (hm : Moved s.document d') :
    Inv version { s with document := d' } := by
  rw [hm.eq]
  exact { h with current := { h.current with placed := hm.placed } }

theorem edited {anchor : Option Nat} {d' : Document} (he : Edited anchor s.document d') :
    Inv (Function.update version (s.edits + 1) d'.text)
      { s with document := d', edits := s.edits + 1 } := by
  obtain ⟨r, hr, hrev, htext⟩ := h.saved
  cases he with
  | @mk text _ hplaced hfits hcaret =>
    have hold : Sound version s.edits { s.document.snapshot with selectionAnchor := anchor } :=
      ⟨hplaced, h.current.fits, h.current.recorded⟩
    exact {
      current := ⟨.caret hcaret, hfits, s.edits + 1, le_rfl, h.next, Function.update_self ..⟩
      undo := forall_pushBounded (fun x hx => (h.undo x hx).later text) (hold.later text)
      redo := nofun
      undo_bounded := pushBounded_bounded h.current.fits
      redo_bounded := ⟨Nat.zero_le _, Nat.zero_le _⟩
      next := (congrArg (fun n => (n + 1) % 2 ^ 64) h.next).trans (Nat.mod_add_mod _ _ _)
      saved := ⟨r, Nat.le_succ_of_le hr, hrev,
        (Function.update_of_ne (Nat.ne_of_lt (Nat.lt_succ_of_le hr)) ..).trans htext⟩ }

/-- A call that forgets the column leaves the cursor at its own. -/
theorem forgets (hnone : s.document.preferredColumn = none) :
    ∃ version, Inv version s ∧ s.document.Aligned :=
  ⟨version, h, .of_boundary h.current.placed.at_boundary hnone⟩

theorem undone (ha : s.document.Aligned) : ∃ version,
    Inv version { s with document := s.document.undo.2 } ∧ s.document.undo.2.Aligned := by
  unfold Document.undo
  split
  · exact ⟨version, h, ha⟩
  · rename_i x hx
    exact forgets (show Inv version _ from { h with
      current := h.undo x (mem_of_getLast? hx)
      undo := fun y hy => h.undo y (dropLast_subset _ hy)
      redo := forall_pushBounded h.redo h.current
      undo_bounded := h.undo_bounded.dropLast
      redo_bounded := pushBounded_bounded h.current.fits }) rfl

theorem redone (ha : s.document.Aligned) : ∃ version,
    Inv version { s with document := s.document.redo.2 } ∧ s.document.redo.2.Aligned := by
  unfold Document.redo
  split
  · exact ⟨version, h, ha⟩
  · rename_i x hx
    exact forgets (show Inv version _ from { h with
      current := h.redo x (mem_of_getLast? hx)
      redo := fun y hy => h.redo y (dropLast_subset _ hy)
      undo := forall_pushBounded h.undo h.current
      redo_bounded := h.redo_bounded.dropLast
      undo_bounded := pushBounded_bounded h.current.fits }) rfl

theorem step (classes : CharClasses) (call : Call) (ha : s.document.Aligned) :
    ∃ version, Inv version (s.step classes call) ∧ (s.step classes call).document.Aligned := by
  have hplaced : s.document.Placed := h.current.placed
  cases call with
  | edit e =>
    have hout := hplaced.edit h.current.fits classes e
    simp only [Session.step]
    generalize e.run classes s.document = r at hout
    cases hout with
    | error => exact ⟨version, h, ha⟩
    | unchanged hm hcolumn =>
      rcases hcolumn with hnone | rfl
      · exact (h.moved hm).forgets hnone
      · exact ⟨version, h, ha⟩
    | changed he =>
      refine (h.edited he).forgets ?_
      cases he
      rfl
  | move m select =>
    have hmoved := h.moved (hplaced.move select m)
    obtain ⟨c, before, line, after, hat⟩ := ha
    cases m with
    | up =>
      rcases hat.up select with hsame | ⟨b, l, a, hnext, -⟩
      · exact ⟨version, hmoved, hat.stays rfl hsame hat.column⟩
      · exact ⟨version, hmoved, c, b, l, a, hnext⟩
    | down =>
      rcases hat.down select with hsame | ⟨b, l, a, hnext, -⟩
      · exact ⟨version, hmoved, hat.stays rfl hsame hat.column⟩
      · exact ⟨version, hmoved, c, b, l, a, hnext⟩
    | home | end_ => exact hmoved.forgets rfl
    | left | right =>
      refine hmoved.forgets ?_
      simp only [Move.run, Document.moveLeft, Document.moveRight]
      split <;> rfl
  | selectAll =>
    refine (h.moved s.document.selectAll_moved).forgets ?_
    simp only [Document.selectAll]
    split <;> rfl
  | undo => exact h.undone ha
  | redo => exact h.redone ha
  | markSaved =>
    obtain ⟨c, before, line, after, hat⟩ := ha
    exact ⟨version, { h with saved := h.current.recorded }, hat.stays rfl rfl hat.column⟩
  | reset bytes =>
    simp only [Session.step]
    rcases Document.reset_cases bytes s.document with ⟨e, heq⟩ | ⟨text, hfits, heq⟩
    · rw [heq]
      exact ⟨version, h, ha⟩
    · rw [heq]
      exact (opened text hfits).forgets rfl

omit h in
/-- The invariant over a whole session with a new or loaded document. -/
theorem run (hd : d.Initial) (classes : CharClasses) (calls : List Call) :
    ∃ version, Inv version (Session.run classes (.opened d) calls) ∧
      (Session.run classes (.opened d) calls).document.Aligned := by
  obtain ⟨text, hfits, rfl⟩ := hd.eq
  have hopened := (opened text hfits).forgets rfl
  generalize Session.opened _ = s at hopened
  induction calls generalizing s with
  | nil => exact hopened
  | cons call calls ih =>
    obtain ⟨version, hinv, ha⟩ := hopened
    exact ih _ (hinv.step classes call ha)

end Inv

/-- Whatever is done to a new or loaded document, its positions are character boundaries, its text
and its histories are bounded, and it is clean only with the text of its last load, reset or
save. -/
theorem documents_stay_sound {d : Document} (hd : d.Initial) (classes : CharClasses)
    (calls : List Call) :
    let s := Session.run classes (.opened d) calls
    Boundary s.document.text s.document.cursor ∧ (∀ anchor ∈ s.document.selectionAnchor,
        Boundary s.document.text anchor ∧ anchor ≠ s.document.cursor) ∧
      len s.document.text ≤ maxDocumentBytes ∧
      Bounded s.document.undoHistory ∧ Bounded s.document.redoHistory ∧
      (s.edits < 2 ^ 64 → s.document.isDirty = false → s.document.text = s.savedText) := by
  intro s
  obtain ⟨version, h, -⟩ := Inv.run hd classes calls
  refine ⟨h.current.placed.at_boundary, h.current.placed.selects, h.current.fits, h.undo_bounded,
    h.redo_bounded, fun hedits hclean => ?_⟩
  obtain ⟨r, hr, hrev, htext⟩ := h.current.recorded
  obtain ⟨r', hr', hrev', htext'⟩ := h.saved
  have heq : s.document.revision = s.document.savedRevision := bne_eq_false_iff_eq.mp hclean
  have hmod : r % 2 ^ 64 = r' % 2 ^ 64 := hrev.symm.trans (heq.trans hrev')
  rw [Nat.mod_eq_of_lt (hr.trans_lt hedits), Nat.mod_eq_of_lt (hr'.trans_lt hedits)] at hmod
  exact htext.symm.trans (hmod ▸ htext')

/-- A document that was edited, saved and edited back is clean with the saved text. -/
theorem documents_stay_sound_after_undo :
    let classes : CharClasses := ⟨Char.isWhitespace, Char.isAlphanum⟩
    let s := Session.run classes (.opened .new)
      [.edit (.insertText ['é']), .markSaved, .edit .backspace, .undo]
    s.document.isDirty = false ∧ s.document.text = s.savedText :=
  ⟨by decide +kernel, (documents_stay_sound (.inl rfl) _ _).2.2.2.2.2 (by decide +kernel)
    (by decide +kernel)⟩

/-- After an edit, undo restores text and cursor, and redo the whole document after the edit.  The
selection is restored unless the edit selected what it deleted. -/
theorem undo_reverts_edit {d : Document} (hd : d.Initial) (classes : CharClasses)
    (calls : List Call) (e : Edit)
    (hchanged : (e.run classes (Session.run classes (.opened d) calls).document).1 = .ok true) :
    let before := (Session.run classes (.opened d) calls).document
    let after := (e.run classes before).2
    after.undo.1 = true ∧ after.undo.2.text = before.text ∧ after.undo.2.cursor = before.cursor ∧
      (after.undo.2.selectionAnchor = before.selectionAnchor ↔
        e.selects = false ∨ before.selectionAnchor.isSome) ∧
      after.undo.2.redo = (true, after) := by
  obtain ⟨version, h, -⟩ := Inv.run hd classes calls
  intro before after
  have hplaced : before.Placed := h.current.placed
  have hout := hplaced.edit h.current.fits classes e
  have hrun : e.run classes before = (.ok true, after) := Prod.ext hchanged rfl
  rw [hrun] at hout
  cases hout with
  | @changed _ anchor he hanchor =>
    obtain ⟨hundo, hback, hredo⟩ := he.undo
    refine ⟨hundo, congrArg Snapshot.text hback, congrArg Snapshot.cursor hback, ?_, hredo⟩
    have hrestored : after.undo.2.selectionAnchor = anchor :=
      congrArg Snapshot.selectionAnchor hback
    rcases hanchor with ⟨rfl, hselected⟩ | ⟨hnone, hselects, hsome⟩
    · refine iff_of_true hrestored ?_
      cases hselects : e.selects with
      | false => exact .inl rfl
      | true => exact .inr (hselected hselects)
    · refine iff_of_false (fun heq => ?_) ?_
      · rw [← hrestored, heq, hnone] at hsome
        cases hsome
      · simp [hselects, hnone]

/-- A replaced selection is selected again after undo. -/
theorem undo_reverts_edit_of_selection :
    let classes : CharClasses := ⟨Char.isWhitespace, Char.isAlphanum⟩
    let before := (Session.run classes (.opened .new)
      [.edit (.insertText ['a', 'é']), .move .left true]).document
    (Edit.backspace.run classes before).2.undo.2.selectionAnchor = some 3 :=
  ((undo_reverts_edit (.inl rfl) _ _ .backspace (by decide +kernel)).2.2.2.1.mpr
    (.inr (by decide +kernel))).trans (by decide +kernel)

/-- A deletion without a selection comes back with what it deleted selected. -/
theorem backspace_undone_selects :
    let classes : CharClasses := ⟨Char.isWhitespace, Char.isAlphanum⟩
    let before := (Session.run classes (.opened .new) [.edit (.insertText ['a'])]).document
    before.selectionAnchor = none ∧ before.backspace.1 = true ∧
      before.backspace.2.undo.2.selectionAnchor = some 0 := by
  decide +kernel

/-- Any number of moves by `f`, none of which is blocked, and as many by `g` restore the cursor. -/
def Returns (f g : Document → Document) (d : Document) : Prop :=
  ∀ k, (∀ i < k, (f^[i + 1] d).cursor ≠ (f^[i] d).cursor) → (g^[k] (f^[k] d)).cursor = d.cursor

/-- One step and its way back carry over to any number of steps. -/
theorem Document.AtColumn.returns {f g : Document → Document} {d : Document} {c : Nat}
    {before line after : Text}
    (hstep : ∀ {d before line after}, AtColumn c before line after d →
      (f d).cursor = d.cursor ∨ ∃ b l a, AtColumn c b l a (f d) ∧
        ∀ d', AtColumn c b l a d' → AtColumn c before line after (g d'))
    (h : AtColumn c before line after d) : Returns f g d := by
  intro k hmoves
  suffices hback : AtColumn c before line after (g^[k] (f^[k] d)) from
    hback.cursor.trans h.cursor.symm
  induction k generalizing d before line after with
  | zero => exact h
  | succ k ih =>
    rw [Function.iterate_succ_apply', Function.iterate_succ_apply _ k d]
    rcases hstep h with hsame | ⟨b, l, a, hnext, hback⟩
    · exact absurd hsame (hmoves 0 k.succ_pos)
    · exact hback _ (ih hnext fun i hi => hmoves (i + 1) (Nat.succ_lt_succ hi))

/-- Vertical movement is reversible in both directions, with or without a selection. -/
theorem vertical_moves_return {d : Document} (hd : d.Initial) (classes : CharClasses)
    (calls : List Call) (select : Bool) :
    let down := fun d => (Document.moveDown select d).2
    let up := fun d => (Document.moveUp select d).2
    let d := (Session.run classes (.opened d) calls).document
    Returns down up d ∧ Returns up down d := by
  obtain ⟨-, -, c, before, line, after, h⟩ := Inv.run hd classes calls
  exact ⟨h.returns fun h => h.down select, h.returns fun h => h.up select⟩

/-- From column 3 over an empty line to a line of wider characters, and back. -/
theorem vertical_moves_return_over_empty :
    let classes : CharClasses := ⟨Char.isWhitespace, Char.isAlphanum⟩
    let d := (Session.run classes (.opened .new) [.edit (.insertText "文é🙂z\n\nabcd".toList),
      .move .left false]).document
    let moved := ((d.moveUp false).2.moveUp false).2
    d.cursor = 15 ∧ moved.cursor = 9 ∧
      ((moved.moveDown false).2.moveDown false).2.cursor = d.cursor :=
  ⟨by decide +kernel, by decide +kernel,
    (vertical_moves_return (.inl rfl) _ _ false).2 2 (by decide +kernel)⟩

end Ginkgo.TextEditor
