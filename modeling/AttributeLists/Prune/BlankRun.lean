/-
# Runs of blank lines

When lists go away without a trace they may leave blank lines behind. A line is
emptied if it is blank and a list went away somewhere on it, at its start or right
before its ending included. A maximal run of blank lines that holds an emptied
line shrinks to one line break; all other lines stay as they are.

The line break that stays is that of the run's first line. If the first line is
itself emptied then only its ending stays, and otherwise the whole line stays, with
the blanks that were on it before.

The lines are swept from first to last. The blank lines that the sweep has met
since the last line that shows something wait as one run, which is settled when the
next such line or the end of the text is reached.
-/

import AttributeLists.Prune.LowerBound
import AttributeLists.Text.Line

namespace AttributeLists

/-- A line together with whether removals emptied it. -/
structure MarkedLine where
  line : Line
  emptied : Bool
  deriving DecidableEq

namespace MarkedLine

/-- Mark the lines that start at an offset, given the positions at which lists went
away. -/
def mark (removals : Array Nat) (offset : Nat) : List Line → List MarkedLine
  | [] => []
  | line :: rest =>
      ⟨line, line.isBlank && holdsPosition removals offset (offset + line.text.length)⟩ ::
        mark removals (offset + line.length) rest

/-- What stays of a run: all of it, or its first line break if removals emptied one
of its lines. -/
def settle (run : List MarkedLine) : Text :=
  match run.any emptied, run with
  | true, first :: _ => if first.emptied then first.line.ending.text else first.line.render
  | _, _ => run.flatMap (·.line.render)

end MarkedLine

/-- A sweep over the lines of a text between two lines. -/
structure Sweep where
  /-- What stays of the lines that are dealt with, piece by piece. -/
  pieces : Array Text
  /-- The blank lines that wait to be settled as one run. -/
  run : Array MarkedLine

namespace Sweep

/-- Before the first line. -/
def start : Sweep :=
  ⟨#[], #[]⟩

/-- The sweep after its run has been settled. -/
def flush (s : Sweep) : Sweep :=
  ⟨s.pieces.push (MarkedLine.settle s.run.toList), #[]⟩

/-- The sweep after one more line. A blank line joins the run; any other line ends it. -/
def step (s : Sweep) (l : MarkedLine) : Sweep :=
  if l.line.isBlank then { s with run := s.run.push l }
  else { s.flush with pieces := s.flush.pieces.push l.line.render }

/-- What stays once the last run has been settled. -/
def text (s : Sweep) : Text :=
  s.flush.pieces.toList.flatten

end Sweep

/-- Shrink the runs of blank lines that hold an emptied line. The positions must not
decrease; positions beyond the text empty nothing. -/
def Text.collapse (t : Text) (removals : List Nat) : Text :=
  let marked := MarkedLine.mark removals.toArray 0 t.lines
  if marked.any MarkedLine.emptied then (marked.foldl Sweep.step Sweep.start).text else t

end AttributeLists
