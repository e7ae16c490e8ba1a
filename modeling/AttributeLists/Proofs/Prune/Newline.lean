/-
# Pruning keeps the style of line breaks

Pruning cuts a text at the ends of its lists, at commas and colons, at the ends of
trimmed entries and at the ends of lines, and it puts nothing in that breaks a line. None
of these cuts separates a carriage return from the line feed after it, so whatever style
the line breaks of a text have, those of the new text have it too.
-/

import AttributeLists.Proofs.Listing.Append
import AttributeLists.Proofs.Listing.Renewed
import AttributeLists.Proofs.Text.Newline

namespace AttributeLists

section

variable {P : Text → Prop} (style : Text.BreakStyle P)
include style

namespace Bracketed

open Text

variable {b : Bracketed}

/-- All line breaks of a list are in its body. -/
theorem breakStyle_source_iff (trailing : ∀ g ∈ b.space ++ b.comment, g.isLineBreak = false) :
    P b.source ↔ P b.body := by
  have whole : b.source = [.char '['] ++ (b.body ++ .char ']' :: (b.space ++ b.comment)) := by
    simp [source]
  rw [whole]
  constructor
  · intro holds
    obtain ⟨-, inner⟩ := style.cut_cons (t := []) rfl holds
    exact (style.cut_cons rfl inner).1
  · intro holds
    have opening : P [.char '['] := style.unbroken (by simp [Glyph.isLineBreak])
    have closing : P (.char ']' :: (b.space ++ b.comment)) := by
      apply style.unbroken
      intro g inside
      rcases List.mem_cons.mp inside with rfl | later
      · rfl
      · exact trailing g later
    exact style.append opening (style.append holds closing)

theorem breakStyle_listing (holds : P b.body) : P b.listing := by
  rcases target?_cases b with ⟨-, all⟩ | ⟨lead, target, space, -, targets⟩
  · rwa [all]
  · have whole : b.body = lead ++ (target ++ space) ++ .char ':' :: b.listing := by
      simp [targets.body_eq]
    rw [whole] at holds
    exact (style.cut_cons rfl holds).2

theorem breakStyle_targetText : P (targetText b.target?) := by
  cases found : b.target? with
  | none => exact style.nil
  | some target =>
      have shows := (isIdentifier_of_target? found).isBlank_eq_false
      have unbroken : P target :=
        style.unbroken fun g inside => Glyph.isLineBreak_of_shows (shows g inside)
      exact style.append unbroken (style.unbroken (by decide))

theorem breakStyle_entries {entries : List Entry} (divided : b.entries? = some entries)
    (holds : P b.body) : ∀ e ∈ entries, P e := by
  have listing := breakStyle_listing style holds
  rw [← intercalate_of_splitEntries divided] at listing
  exact style.of_intercalate listing

/-- A list that is written anew has the style of its entries. -/
theorem breakStyle_renewed {kept : List Text} (each : ∀ e ∈ kept, P e) :
    P (b.renewed kept).body := by
  have separator : P (Text.ofString ", ") := style.unbroken (by decide)
  refine style.append (breakStyle_targetText style) ?_
  exact intercalate_induction style.nil (fun _ _ => style.append) separator each

theorem breakStyle_prune (wanted : Text) {rest : Text} (stands : b.StandsBefore rest)
    (holds : P b.source) : P (b.prune wanted).text := by
  have trailing := stands.isLineBreak_of_mem_trailing
  rcases prune_cases wanted b with stays | ⟨entries, divided, vanishes | ⟨-, shortened⟩⟩
  · rwa [stays]
  · rw [vanishes]
    exact style.unbroken fun g inside => trailing g (List.mem_append_right _ inside)
  · have body := (breakStyle_source_iff style trailing).mp holds
    have each : ∀ e ∈ remaining wanted entries, P e := by
      intro e remains
      obtain ⟨original, inside, -, rfl⟩ := exists_of_mem_remaining remains
      exact style.trim (breakStyle_entries style divided body original inside)
    have written := breakStyle_renewed (b := b) style each
    rw [shortened]
    exact (breakStyle_source_iff (b := b.renewed _) style trailing).mpr written

end Bracketed

/-- No list starts or stops within a pair. -/
theorem LaidOut.breakStyle_pruned {t : Text} {l : Layout} (laid : LaidOut t l) (holds : P t)
    (wanted : Text) : P (l.pruned wanted) := by
  induction laid with
  | tail unclosed => exact holds
  | @list gap rest b l gap_closed stands laid ih =>
      have opening : ∀ g ∈ (b.source ++ rest).head?, g.isLineBreak = false := by
        simp [Bracketed.source_append, Glyph.isLineBreak]
      obtain ⟨gap_holds, inner⟩ := style.cut holds (Text.not_splitsPair_of_head? opening)
      obtain ⟨source_holds, rest_holds⟩ :=
        style.cut inner (Text.not_splitsPair_of_getLast? stands.isLineBreak_of_getLast?_source)
      have list := Bracketed.breakStyle_prune style wanted stands source_holds
      have whole : (l.cons gap b).pruned wanted =
          gap ++ ((b.prune wanted).text ++ l.pruned wanted) := by
        simp [Layout.cons, Layout.pruned, Layout.prune, Layout.pruneParts]
      rw [whole]
      exact style.append gap_holds (style.append list (ih rest_holds))

namespace Text

/-- What can be kept of a line keeps its style. -/
theorem breakStyle_collapse {t : Text} (holds : P t) (removals : List Nat) :
    P (t.collapse removals) := by
  obtain ⟨pieces, keeps, collapsed⟩ := exists_collapse t removals
  have each := style.of_mem_lines holds
  rw [collapsed]
  generalize t.lines = lines at keeps each
  clear collapsed
  induction keeps with
  | nil => exact style.nil
  | @cons l piece lines pieces first more ih =>
      obtain ⟨whole, ending⟩ := each l List.mem_cons_self
      have rest := ih fun l inside => each l (List.mem_cons_of_mem _ inside)
      rw [List.flatten_cons]
      refine style.append ?_ rest
      cases first with
      | whole => exact whole
      | ending => exact ending
      | nothing => exact style.nil

theorem breakStyle_text_prune (name : AttributeName) (collapse : Bool) {t : Text} (holds : P t) :
    P (t.prune name collapse).text := by
  have pruned := (LaidOut.ofText t).breakStyle_pruned style holds name.text
  exact text_prune_of_pruned pruned fun _ removals kept => breakStyle_collapse style kept removals

end Text

end

/-- If all lines of a text end with carriage return and line feed, those of the new text
do; and if it does without one of the two characters, so does the new text. -/
theorem Text.prune_keeps_newlines (name : AttributeName) (collapse : Bool) (t : Text) :
    (t.CrlfPaired → (t.prune name collapse).text.CrlfPaired) ∧
    (.char '\r' ∉ t → .char '\r' ∉ (t.prune name collapse).text) ∧
    (.char '\n' ∉ t → .char '\n' ∉ (t.prune name collapse).text) := by
  refine ⟨fun paired => ?_, fun unreturned => ?_, fun unfed => ?_⟩
  · exact breakStyle_text_prune breakStyle_crlfPaired name collapse paired
  · exact breakStyle_text_prune (breakStyle_not_mem rfl) name collapse unreturned
  · exact breakStyle_text_prune (breakStyle_not_mem rfl) name collapse unfed

theorem Text.prune_keeps_newlines_of_broken_list :
    let name : AttributeName := ⟨ofString "T", isAttributeName_singleton rfl⟩
    let lines := ["[A,", " T(1),", " B]", " ", " [T]", "int a;"].map ofString
    let paired : Text := lines.flatMap (· ++ LineEnding.crlf.text)
    let fed : Text := lines.flatMap (· ++ LineEnding.lf.text)
    (paired.CrlfPaired ∧ (paired.prune name true).removed = 2 ∧
        (paired.prune name true).text.CrlfPaired) ∧
      .char '\r' ∉ fed ∧ .char '\r' ∉ (fed.prune name true).text := by
  intro name lines paired fed
  have unbroken : ∀ l ∈ lines, ∀ g ∈ l, g.isLineBreak = false := by decide
  have pairs : paired.CrlfPaired := crlfPaired_flatMap unbroken
  have unreturned : .char '\r' ∉ fed := by decide
  exact ⟨⟨pairs, by decide +kernel, (prune_keeps_newlines name true paired).1 pairs⟩,
    unreturned, (prune_keeps_newlines name true fed).2.1 unreturned⟩

end AttributeLists
