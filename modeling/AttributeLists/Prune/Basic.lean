/-
# Taking an attribute out of a source text

`Text.prune` takes one attribute out of every bracketed list of a text. Gaps and
lists without the attribute stay as they are. Where lists went away without
leaving a comment, their positions in the new text decide which blank lines
disappear, if blank lines are to be collapsed at all.

The new text is laid down from left to right. A list that loses nothing is passed
over: it is copied later, together with the gaps around it, as one stretch of
source. A text in which no list loses anything is its own result.

The positions never decrease, since they are taken while the new text is laid down;
lists that vanished next to each other share one.
-/

import AttributeLists.Listing.Layout
import AttributeLists.Name.Attribute
import AttributeLists.Prune.BlankRun

namespace AttributeLists

/-- A new text while it is laid down beside its source. -/
structure Draft where
  /-- What has been laid down, piece by piece. -/
  pieces : Array Text
  /-- The number of glyphs that have been laid down. -/
  length : Nat
  /-- The positions in the new text at which lists vanished. -/
  removals : Array Nat
  /-- The offset in the source up to which everything has been dealt with. -/
  taken : Nat
  /-- The number of entries that were taken out. -/
  removed : Nat

namespace Draft

/-- Before anything is laid down. -/
def start : Draft :=
  ⟨#[], 0, #[], 0, 0⟩

/-- The draft after one more list of the source, which starts at an offset. If the
list loses something, the source before it is copied and what became of it follows. -/
def step (source wanted : Text) (d : Draft) : Nat × Bracketed → Draft
  | (first, b) =>
      let pruned := b.prune wanted
      if pruned.removed = 0 then d
      else
        let before := List.extract source d.taken first
        let position := d.length + before.length
        { pieces := (d.pieces.push before).push pruned.text
          length := position + pruned.text.length
          removals := if pruned.text.isEmpty then d.removals.push position else d.removals
          taken := first + b.source.length
          removed := d.removed + pruned.removed }

/-- The whole new text: what has been laid down and the rest of the source. -/
def text (source : Text) (d : Draft) : Text :=
  (d.pieces.push (source.drop d.taken)).toList.flatten

end Draft

namespace Text

/-- Take an attribute out of every list of a text, and tell how many entries that
were. With `collapse`, blank lines that this leaves behind are collapsed. -/
def prune (name : AttributeName) (collapse : Bool) (t : Text) : Pruned :=
  let draft := (Layout.ofText t).starts.foldl (Draft.step t name.text) Draft.start
  if draft.removed = 0 then ⟨t, 0⟩
  else
    let text := draft.text t
    ⟨if collapse && !draft.removals.isEmpty then text.collapse draft.removals.toList else text,
      draft.removed⟩

/-- Take several attributes out, one after the other. -/
def pruneAll (names : List AttributeName) (collapse : Bool) (t : Text) : Pruned :=
  names.foldl
    (fun done name =>
      let next := prune name collapse done.text
      ⟨next.text, done.removed + next.removed⟩)
    ⟨t, 0⟩

end Text

end AttributeLists
