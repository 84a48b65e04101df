import Mathlib.Data.List.DropRight
import Ginkgo.Lib.Words

/-!
# The document of the text editor

A text is a list of characters and a position in it a byte offset.  `upTo` and `onward` are the
slices `text[..position]` and `text[position..]`.  The source panics where a slice does not end at a
character boundary; here it is cut at the boundary before, and every position that the calls use is
shown to be a boundary.
-/

namespace Ginkgo.TextEditor

open Ginkgo.Lib

abbrev Text := List Char

/-- The number of UTF-8 bytes. -/
def len (text : Text) : Nat := (text.map Char.utf8Size).sum

def splitAt : Text → Nat → Text × Text
  | [], _ => ([], [])
  | c :: text, position =>
    if c.utf8Size ≤ position then
      (c :: (splitAt text (position - c.utf8Size)).1, (splitAt text (position - c.utf8Size)).2)
    else ([], c :: text)

def upTo (text : Text) (position : Nat) : Text := (splitAt text position).1

def onward (text : Text) (position : Nat) : Text := (splitAt text position).2

def slice (text : Text) (start end_ : Nat) : Text := onward (upTo text end_) start

/-- `is_char_boundary`: the slice up to the position is that long. -/
def Boundary (text : Text) (position : Nat) : Prop := len (upTo text position) = position

/-- `char_indices().next_back()`. -/
def nextBack (text : Text) : Option (Nat × Char) :=
  text.getLast?.map fun c => (len text.dropLast, c)

def maxDocumentBytes : Nat := 256 * 1024

def maxHistorySnapshots : Nat := 64

def maxHistoryBytes : Nat := 384 * 1024

inductive DocumentError
  | invalidUtf8
  | tooLarge (size max : Nat)
  deriving DecidableEq

structure Snapshot where
  text : Text
  cursor : Nat
  selectionAnchor : Option Nat
  revision : Nat
  deriving DecidableEq

structure Document where
  text : Text
  cursor : Nat
  selectionAnchor : Option Nat
  preferredColumn : Option Nat
  revision : Nat
  savedRevision : Nat
  nextRevision : Nat
  undoHistory : List Snapshot
  redoHistory : List Snapshot
  deriving DecidableEq

/-- The Unicode tables behind `char::is_whitespace` and `char::is_alphanumeric`. -/
structure CharClasses where
  isWhitespace : Char → Bool
  isAlphanumeric : Char → Bool

def CharClasses.isWord (classes : CharClasses) (c : Char) : Bool :=
  classes.isAlphanumeric c || c == '_'

def checkSize (size : Nat) : Except DocumentError Unit :=
  if size > maxDocumentBytes then .error (.tooLarge size maxDocumentBytes) else .ok ()

/-- The loop of `push_bounded`, which drops the oldest snapshots. -/
def makeRoom (snapshotBytes : Nat) : List Snapshot → Nat → List Snapshot
  | [], _ => []
  | removed :: history, historyBytes =>
    if maxHistorySnapshots ≤ (removed :: history).length ∨
        maxHistoryBytes < saturatingAdd historyBytes snapshotBytes then
      makeRoom snapshotBytes history (historyBytes - len removed.text)
    else removed :: history

def historyBytes (history : List Snapshot) : Nat := (history.map (len ·.text)).sum

def pushBounded (history : List Snapshot) (snapshot : Snapshot) : List Snapshot :=
  makeRoom (len snapshot.text) history (historyBytes history) ++ [snapshot]

namespace Document

def new : Document := ⟨[], 0, none, none, 0, 0, 1, [], []⟩

def reset (bytes : ByteArray) (d : Document) : Except DocumentError Unit × Document :=
  match checkSize bytes.size with
  | .error e => (.error e, d)
  | .ok _ =>
    match String.fromUTF8? bytes with
    | none => (.error .invalidUtf8, d)
    | some text => (.ok (), { new with text := text.toList })

def load (bytes : ByteArray) : Except DocumentError Document :=
  match reset bytes new with
  | (.error e, _) => .error e
  | (.ok _, d) => .ok d

/-- The documents an editor starts with. -/
def Initial (d : Document) : Prop := d = new ∨ ∃ bytes, load bytes = .ok d

def selectionRange (d : Document) : Option (Nat × Nat) :=
  d.selectionAnchor.map fun anchor =>
    if anchor < d.cursor then (anchor, d.cursor) else (d.cursor, anchor)

/-- What an edit replaces: the selection, or nothing at the cursor. -/
def editRange (d : Document) : Nat × Nat := d.selectionRange.getD (d.cursor, d.cursor)

def isDirty (d : Document) : Bool := d.revision != d.savedRevision

def markSaved (d : Document) : Document := { d with savedRevision := d.revision }

def snapshot (d : Document) : Snapshot := ⟨d.text, d.cursor, d.selectionAnchor, d.revision⟩

def restore (s : Snapshot) (d : Document) : Document :=
  { d with
    text := s.text
    cursor := s.cursor
    selectionAnchor := s.selectionAnchor
    revision := s.revision
    preferredColumn := none }

def undo (d : Document) : Bool × Document :=
  match d.undoHistory.getLast? with
  | none => (false, d)
  | some s =>
    (true, restore s { d with
      undoHistory := d.undoHistory.dropLast
      redoHistory := pushBounded d.redoHistory d.snapshot })

def redo (d : Document) : Bool × Document :=
  match d.redoHistory.getLast? with
  | none => (false, d)
  | some s =>
    (true, restore s { d with
      redoHistory := d.redoHistory.dropLast
      undoHistory := pushBounded d.undoHistory d.snapshot })

def beginEdit (d : Document) : Document :=
  { d with undoHistory := pushBounded d.undoHistory d.snapshot, redoHistory := [] }

def finishEdit (d : Document) : Document :=
  { d with revision := d.nextRevision, nextRevision := (d.nextRevision + 1) % 2 ^ 64 }

/-- The caret after a replacement: nothing is selected and no column is remembered. -/
def putCaret (cursor : Nat) (d : Document) : Document :=
  { d with cursor, selectionAnchor := none, preferredColumn := none }

def replaceSelection (replacement : Text) (d : Document) : Except DocumentError Bool × Document :=
  let range := d.editRange
  match checkSize (len d.text - (range.2 - range.1) + len replacement) with
  | .error e => (.error e, d)
  | .ok _ =>
    if slice d.text range.1 range.2 = replacement then
      (.ok false, d.putCaret (range.1 + len replacement))
    else
      let text := upTo d.text range.1 ++ replacement ++ onward d.text range.2
      (.ok true, finishEdit ({ d.beginEdit with text }.putCaret (range.1 + len replacement)))

def insertText (text : Text) (d : Document) : Except DocumentError Bool × Document :=
  d.replaceSelection text

def insertNewline (d : Document) : Except DocumentError Bool × Document :=
  d.replaceSelection ['\n']

/-- The error is the source's `expect`; `Placed.deleteSelection_cases` shows that there is none. -/
def deleteSelection (d : Document) : Bool × Document :=
  if d.selectionAnchor.isSome then
    match d.replaceSelection [] with
    | (.ok changed, d) => (changed, d)
    | (.error _, d) => (false, d)
  else (false, d)

def deleteWordBackward (classes : CharClasses) (d : Document) : Bool × Document :=
  match d.deleteSelection with
  | (true, d) => (true, d)
  | (false, d) =>
    if d.cursor = 0 then (false, d)
    else
      let start := len ((upTo d.text d.cursor).rdropWhile classes.isWhitespace)
      match nextBack (upTo d.text start) with
      | none => deleteSelection { d with selectionAnchor := some 0 }
      | some (_, previous) =>
        let start := len ((upTo d.text start).rdropWhile fun c =>
          !(classes.isWhitespace c || classes.isWord c != classes.isWord previous))
        deleteSelection { d with selectionAnchor := some start }

def backspace (d : Document) : Bool × Document :=
  match d.deleteSelection with
  | (true, d) => (true, d)
  | (false, d) =>
    if d.cursor = 0 then (false, d)
    else
      let start := (nextBack (upTo d.text d.cursor)).elim 0 (·.1)
      deleteSelection { d with selectionAnchor := some start }

/-- The cursor is left alone where the source has an `expect` that a character follows. -/
def delete (d : Document) : Bool × Document :=
  match d.deleteSelection with
  | (true, d) => (true, d)
  | (false, d) =>
    if d.cursor = len d.text then (false, d)
    else
      let end_ := d.cursor + (onward d.text d.cursor).head?.elim 0 Char.utf8Size
      deleteSelection { d with selectionAnchor := some end_ }

/-- The anchor that a movement starts, keeps or drops. -/
def movingAnchor (target : Nat) (select : Bool) (d : Document) : Option Nat :=
  if select ∧ d.selectionAnchor = none ∧ target ≠ d.cursor then some d.cursor
  else if select then d.selectionAnchor
  else none

def setCursor (target : Nat) (select : Bool) (d : Document) : Bool × Document :=
  let anchor := d.movingAnchor target select
  let anchor := if anchor = some target then none else anchor
  (target != d.cursor || anchor != d.selectionAnchor,
    { d with cursor := target, selectionAnchor := anchor })

/-- One past the last newline before the position, or the start of the text. -/
def lineStart (d : Document) (position : Nat) : Nat :=
  len ((upTo d.text position).rdropWhile (· != '\n'))

/-- The next newline from the position on, or the end of the text. -/
def lineEnd (d : Document) (position : Nat) : Nat :=
  position + len ((onward d.text position).takeWhile (· != '\n'))

def byteAtColumn (d : Document) (start end_ column : Nat) : Nat :=
  if column < (slice d.text start end_).length then
    start + len ((slice d.text start end_).take column)
  else end_

def moveLeft (select : Bool) (d : Document) : Bool × Document :=
  let d := { d with preferredColumn := none }
  match select, d.selectionRange with
  | false, some range => d.setCursor range.1 false
  | _, _ => d.setCursor ((nextBack (upTo d.text d.cursor)).elim d.cursor (·.1)) select

def moveRight (select : Bool) (d : Document) : Bool × Document :=
  let d := { d with preferredColumn := none }
  match select, d.selectionRange with
  | false, some range => d.setCursor range.2 false
  | _, _ =>
    d.setCursor (d.cursor + (onward d.text d.cursor).head?.elim 0 Char.utf8Size) select

/-- The column that vertical movement keeps. -/
def column (d : Document) : Nat :=
  d.preferredColumn.getD (slice d.text (d.lineStart d.cursor) d.cursor).length

def moveUp (select : Bool) (d : Document) : Bool × Document :=
  let lineStart := d.lineStart d.cursor
  let target :=
    if lineStart = 0 then d.cursor
    else d.byteAtColumn (d.lineStart (lineStart - 1)) (lineStart - 1) d.column
  { d with preferredColumn := some d.column }.setCursor target select

def moveDown (select : Bool) (d : Document) : Bool × Document :=
  let lineEnd := d.lineEnd d.cursor
  let target :=
    if lineEnd = len d.text then d.cursor
    else d.byteAtColumn (lineEnd + 1) (d.lineEnd (lineEnd + 1)) d.column
  { d with preferredColumn := some d.column }.setCursor target select

def moveHome (select : Bool) (d : Document) : Bool × Document :=
  { d with preferredColumn := none }.setCursor (d.lineStart d.cursor) select

def moveEnd (select : Bool) (d : Document) : Bool × Document :=
  { d with preferredColumn := none }.setCursor (d.lineEnd d.cursor) select

def selectAll (d : Document) : Document :=
  if d.text = [] then d.putCaret 0
  else { d with preferredColumn := none, selectionAnchor := some 0, cursor := len d.text }

end Document

/-- The editing operations. -/
inductive Edit
  | insertText (text : Text)
  | insertNewline
  | replaceSelection (replacement : Text)
  | deleteSelection
  | deleteWordBackward
  | backspace
  | delete

def Edit.run (classes : CharClasses) (d : Document) : Edit → Except DocumentError Bool × Document
  | .insertText text => d.insertText text
  | .insertNewline => d.insertNewline
  | .replaceSelection replacement => d.replaceSelection replacement
  | .deleteSelection => d.deleteSelection.map .ok id
  | .deleteWordBackward => (d.deleteWordBackward classes).map .ok id
  | .backspace => d.backspace.map .ok id
  | .delete => d.delete.map .ok id

inductive Move
  | left
  | right
  | up
  | down
  | home
  | end_

def Move.run (select : Bool) (d : Document) : Move → Bool × Document
  | .left => d.moveLeft select
  | .right => d.moveRight select
  | .up => d.moveUp select
  | .down => d.moveDown select
  | .home => d.moveHome select
  | .end_ => d.moveEnd select

inductive Call
  | edit (edit : Edit)
  | move (move : Move) (select : Bool)
  | selectAll
  | undo
  | redo
  | markSaved
  | reset (bytes : ByteArray)

/-- A document with a record of its use: the text at the last load, reset or save, and the number
of edits since the last load or reset. -/
structure Session where
  document : Document
  savedText : Text
  edits : Nat

def Session.opened (d : Document) : Session := ⟨d, d.text, 0⟩

def Session.step (classes : CharClasses) (s : Session) : Call → Session
  | .edit edit =>
    { s with
      document := (edit.run classes s.document).2
      edits := if (edit.run classes s.document).1 = .ok true then s.edits + 1 else s.edits }
  | .move move select => { s with document := (move.run select s.document).2 }
  | .selectAll => { s with document := s.document.selectAll }
  | .undo => { s with document := s.document.undo.2 }
  | .redo => { s with document := s.document.redo.2 }
  | .markSaved => { s with document := s.document.markSaved, savedText := s.document.text }
  | .reset bytes =>
    match s.document.reset bytes with
    | (.ok _, d) => .opened d
    | (.error _, d) => { s with document := d }

def Session.run (classes : CharClasses) (s : Session) (calls : List Call) : Session :=
  calls.foldl (·.step classes) s

end Ginkgo.TextEditor
