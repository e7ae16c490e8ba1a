/-
# The grammar of a list body

A body is a sequence of items: plain glyphs, groups of items in parentheses, and quoted
literals. Which kind of literal a double quote opens shows in the glyphs right before it,
and whether a double quote ends a verbatim literal shows in the glyph right after it. So
items are told in their order, each together with all that stands in front of it.

The division of a body accepts the sequences of items and no other text, and its pieces are
what stands between the commas that are items of their own. One direction reads over item
after item; the other one takes the items off a text that the reading accepts.
-/

import AttributeLists.Proofs.Listing.Commas

namespace AttributeLists

/-- A text between two quotes. -/
def QuoteMark.around (quote : QuoteMark) (content : Text) : Text :=
  quote.glyph :: content ++ [quote.glyph]

namespace Commas

/-- The characters that are no items by themselves. -/
def reserved : List Char :=
  ['"', '\'', '[', '(', ')']

/-- A text between parentheses. -/
def parenthesized (content : Text) : Text :=
  .char '(' :: content ++ [.char ')']

/-- What can stand in a regular literal. -/
inductive RegularContent (quote : QuoteMark) : Text → Prop
  | nil : RegularContent quote []
  | plain {g : Glyph} {t : Text} (unquoted : g ≠ quote.glyph) (unescaped : g ≠ .char '\\')
      (later : RegularContent quote t) : RegularContent quote (g :: t)
  /-- A backslash takes any glyph along. -/
  | escape {g : Glyph} {t : Text} (later : RegularContent quote t) :
      RegularContent quote (.char '\\' :: g :: t)

/-- What can stand in a verbatim literal. -/
inductive VerbatimContent : Text → Prop
  | nil : VerbatimContent []
  | plain {g : Glyph} {t : Text} (unquoted : g ≠ .char '"') (later : VerbatimContent t) :
      VerbatimContent (g :: t)
  /-- Two quotes stand for one. -/
  | doubled {t : Text} (later : VerbatimContent t) :
      VerbatimContent (.char '"' :: .char '"' :: t)

/-- A double quote right after this text opens a verbatim literal. -/
def OpensVerbatim (before : Text) : Prop :=
  Text.ofString "@" <:+ before ∨ Text.ofString "@$" <:+ before

/-- The items of a text that stands behind another one. -/
inductive Items : Text → List Text → Prop
  | nil {before : Text} : Items before []
  | plain {before : Text} {g : Glyph} {items : List Text} (plain : ∀ c ∈ reserved, g ≠ .char c)
      (later : Items (before ++ [g]) items) : Items before ([g] :: items)
  | group {before : Text} {inner items : List Text} (inside : Items (before ++ [.char '(']) inner)
      (later : Items (before ++ parenthesized inner.flatten) items) :
      Items before (parenthesized inner.flatten :: items)
  | regular {before content : Text} {quote : QuoteMark} {items : List Text}
      (opens : quote = .double → ¬ OpensVerbatim before) (closes : RegularContent quote content)
      (later : Items (before ++ quote.around content) items) :
      Items before (quote.around content :: items)
  /-- The quote at the end is not the first of two. -/
  | verbatim {before content : Text} {items : List Text} (opens : OpensVerbatim before)
      (closes : VerbatimContent content) (single : items.flatten.head? ≠ some (.char '"'))
      (later : Items (before ++ QuoteMark.double.around content) items) :
      Items before (QuoteMark.double.around content :: items)

/-! The lead that a reading has seen shows in the text in front of it. -/

/-- The lead that the glyphs of a text make. -/
def leadAfter (before : Text) : Lead :=
  before.foldl Lead.next .none

theorem leadAfter_concat (before : Text) (g : Glyph) :
    leadAfter (before ++ [g]) = (leadAfter before).next g := by
  rw [leadAfter, List.foldl_append, leadAfter]
  rfl

private theorem concat_suffix_concat_iff {t front : Text} {c g : Glyph} :
    t ++ [c] <:+ front ++ [g] ↔ c = g ∧ t <:+ front := by
  rw [← List.reverse_prefix, ← List.reverse_prefix]
  simp only [List.reverse_append, List.reverse_singleton, List.singleton_append,
    List.cons_prefix_cons]

theorem leadAfter_eq_atSign_iff {before : Text} :
    leadAfter before = .atSign ↔ [.char '@'] <:+ before := by
  rcases List.eq_nil_or_concat before with rfl | ⟨front, g, rfl⟩
  · simp [leadAfter]
  · rw [List.concat_eq_append, leadAfter_concat, List.singleton_suffix_append_singleton_iff,
      Lead.next, eq_comm (b := g)]
    by_cases at_sign : g = .char '@'
    · simp [at_sign]
    · by_cases dollar : g = .char '$' ∧ leadAfter front = .atSign
      · simp [dollar]
      · simp [at_sign, dollar]

/-- A reading that is outside literals meets a verbatim literal where the text does. -/
theorem leadAfter_eq_none_iff {before : Text} :
    leadAfter before = .none ↔ ¬ OpensVerbatim before := by
  have one : Text.ofString "@" = [] ++ [.char '@'] := rfl
  have two : Text.ofString "@$" = [.char '@'] ++ [.char '$'] := rfl
  rcases List.eq_nil_or_concat before with rfl | ⟨front, g, rfl⟩
  · simp [leadAfter, OpensVerbatim, one, two]
  · rw [List.concat_eq_append, leadAfter_concat, OpensVerbatim, one, two,
      concat_suffix_concat_iff, concat_suffix_concat_iff, ← leadAfter_eq_atSign_iff, Lead.next,
      eq_comm (b := g), eq_comm (b := g)]
    by_cases at_sign : g = .char '@'
    · simp [at_sign]
    · by_cases dollar : g = .char '$' ∧ leadAfter front = .atSign
      · simp [dollar]
      · simp [at_sign, dollar]

/-! Reading over a text that is made of items. -/

/-- What a glyph outside literals does to the reading. -/
inductive State.Outside (depth : Nat) (lead : Lead) : Glyph → State → Prop
  | regular (quote : QuoteMark) (opens : quote = .double → lead = .none) :
      Outside depth lead quote.glyph ⟨depth, .regular quote⟩
  | verbatim (opens : lead ≠ .none) : Outside depth lead (.char '"') ⟨depth, .verbatim⟩
  | inward : Outside depth lead (.char '(') ⟨depth + 1, .outside .none⟩
  | outward {outer : Nat} (inside : depth = outer + 1) :
      Outside depth lead (.char ')') ⟨outer, .outside .none⟩
  | plain {g : Glyph} (plain : ∀ c ∈ reserved, g ≠ .char c) :
      Outside depth lead g ⟨depth, .outside (lead.next g)⟩

theorem State.stepOutside_eq_some_iff {depth : Nat} {lead : Lead} {g : Glyph} {next : State} :
    stepOutside depth lead g = some next ↔ Outside depth lead g next := by
  constructor
  · intro stepped
    unfold stepOutside at stepped
    split at stepped
    · rename_i double
      subst double
      split at stepped <;> obtain rfl := Option.some.inj stepped
      · rename_i unverbatim
        exact .regular .double fun _ => unverbatim
      · rename_i opens
        exact .verbatim opens
    split at stepped
    · rename_i single
      obtain rfl := Option.some.inj stepped
      subst single
      exact .regular .single nofun
    split at stepped
    · contradiction
    split at stepped
    · rename_i opening
      obtain rfl := Option.some.inj stepped
      subst opening
      exact .inward
    split at stepped
    · rename_i closing
      subst closing
      cases depth with
      | zero => contradiction
      | succ outer =>
          obtain rfl := Option.some.inj stepped
          exact .outward rfl
    · obtain rfl := Option.some.inj stepped
      apply Outside.plain
      simp_all [reserved]
  · intro step
    cases step with
    | regular quote opens =>
        cases quote with
        | single => rfl
        | double => simp [stepOutside, QuoteMark.glyph, opens rfl]
    | verbatim opens => simp [stepOutside, opens]
    | inward => rfl
    | outward inside =>
        subst inside
        rfl
    | plain plain =>
        have differs (c : Char) (among : c ∈ reserved) : g ≠ .char c := plain c among
        simp [stepOutside, differs '"' (by decide), differs '\'' (by decide),
          differs '[' (by decide), differs '(' (by decide), differs ')' (by decide)]

/-- Where the reading stands between two items, at a depth and behind a text. -/
def between (depth : Nat) (before : Text) : State :=
  ⟨depth, .outside (leadAfter before)⟩

/-- The reading goes over a text without a division. -/
def ReadsOver (depth : Nat) (before t rest : Text) : Prop :=
  piecesFrom (between depth before) (t ++ rest) =
    (piecesFrom (between depth (before ++ t)) rest).map (t.foldr extendFirst ·)

theorem readsOver_nil (depth : Nat) (before rest : Text) : ReadsOver depth before [] rest := by
  simp [ReadsOver]

theorem ReadsOver.append {depth : Nat} {before t u rest : Text}
    (first : ReadsOver depth before t (u ++ rest))
    (second : ReadsOver depth (before ++ t) u rest) : ReadsOver depth before (t ++ u) rest := by
  rw [ReadsOver] at first second ⊢
  rw [List.append_assoc, first, second, Option.map_map, List.append_assoc]
  simp only [Function.comp_def, List.foldr_append]

theorem between_concat_of_reserved {c : Char} (among : c ∈ reserved) (depth : Nat)
    (before : Text) : between depth (before ++ [.char c]) = ⟨depth, .outside .none⟩ := by
  have restarts (lead : Lead) : lead.next (.char c) = .none := by
    simp only [reserved, List.mem_cons, List.not_mem_nil, or_false] at among
    rcases among with rfl | rfl | rfl | rfl | rfl <;> rfl
  rw [between, leadAfter_concat, restarts]

theorem between_append_around (depth : Nat) (before content : Text) (quote : QuoteMark) :
    between depth (before ++ quote.around content) = ⟨depth, .outside .none⟩ := by
  rw [QuoteMark.around, ← List.append_assoc]
  cases quote with
  | single => exact between_concat_of_reserved (by decide) depth _
  | double => exact between_concat_of_reserved (by decide) depth _

theorem between_append_parenthesized (depth : Nat) (before content : Text) :
    between depth (before ++ parenthesized content) = ⟨depth, .outside .none⟩ := by
  rw [parenthesized, ← List.append_assoc]
  exact between_concat_of_reserved (by decide) depth _

theorem isClosed_of_outside {depth : Nat} {lead : Lead} :
    State.isClosed ⟨depth, .outside lead⟩ = true ↔ depth = 0 := by
  cases depth <;> simp [State.isClosed]

theorem readsOver_plain (depth : Nat) {g : Glyph} (plain : ∀ c ∈ reserved, g ≠ .char c)
    (undivided : g = .char ',' → depth ≠ 0) (before rest : Text) :
    ReadsOver depth before [g] rest := by
  have stepped : (between depth before).step g = some (between depth (before ++ [g])) := by
    rw [between, between, leadAfter_concat]
    exact State.stepOutside_eq_some_iff.mpr (.plain plain)
  apply piecesFrom_cons_of_step _ stepped
  intro divides
  exact undivided divides.1 (isClosed_of_outside.mp divides.2)

theorem piecesFrom_cons_of_open {s next : State} {g : Glyph} (opened : s.isClosed = false)
    (stepped : s.step g = some next) (t : Text) :
    piecesFrom s (g :: t) = (piecesFrom next t).map (extendFirst g) := by
  apply piecesFrom_cons_of_step _ stepped
  rw [opened]
  exact fun divides => Bool.false_ne_true divides.2

section Literals

variable (depth : Nat) (quote : QuoteMark)

theorem isClosed_regular : State.isClosed ⟨depth, .regular quote⟩ = false := by
  cases depth <;> rfl

theorem isClosed_escaped : State.isClosed ⟨depth, .escaped quote⟩ = false := by
  cases depth <;> rfl

theorem isClosed_verbatim : State.isClosed ⟨depth, .verbatim⟩ = false := by
  cases depth <;> rfl

/-- A quote that no other one follows has ended its verbatim literal. -/
theorem piecesFrom_verbatimQuote {rest : Text} (single : rest.head? ≠ some (.char '"')) :
    piecesFrom ⟨depth, .verbatimQuote⟩ rest = piecesFrom ⟨depth, .outside .none⟩ rest := by
  cases rest with
  | nil => cases depth <;> rfl
  | cons g rest =>
      have unquoted : g ≠ .char '"' := by simpa using single
      have same : State.isClosed ⟨depth, .verbatimQuote⟩ =
          State.isClosed ⟨depth, .outside .none⟩ := by
        cases depth <;> rfl
      simp only [piecesFrom, same, State.step, if_neg unquoted]

variable {quote}

theorem piecesFrom_regular {content : Text} (closes : RegularContent quote content)
    (rest : Text) :
    piecesFrom ⟨depth, .regular quote⟩ (content ++ quote.glyph :: rest) =
      (piecesFrom ⟨depth, .outside .none⟩ rest).map
        ((content ++ [quote.glyph]).foldr extendFirst ·) := by
  have goes_on {g : Glyph} {next : State} (stepped : State.step ⟨depth, .regular quote⟩ g = next)
      (t : Text) :=
    piecesFrom_cons_of_open (isClosed_regular depth quote) stepped t
  induction closes with
  | nil =>
      have ended : State.step ⟨depth, .regular quote⟩ quote.glyph =
          some ⟨depth, .outside .none⟩ := by
        cases quote <;> rfl
      exact goes_on ended rest
  | @plain g content unquoted unescaped later ih =>
      have stays : State.step ⟨depth, .regular quote⟩ g = some ⟨depth, .regular quote⟩ := by
        simp [State.step, unquoted, unescaped]
      rw [List.cons_append, goes_on stays, ih, Option.map_map]
      rfl
  | @escape g content later ih =>
      rw [List.cons_append, List.cons_append, goes_on rfl,
        piecesFrom_cons_of_open (isClosed_escaped depth quote) rfl, ih, Option.map_map,
        Option.map_map]
      rfl

theorem piecesFrom_verbatim {content rest : Text} (closes : VerbatimContent content)
    (single : rest.head? ≠ some (.char '"')) :
    piecesFrom ⟨depth, .verbatim⟩ (content ++ .char '"' :: rest) =
      (piecesFrom ⟨depth, .outside .none⟩ rest).map
        ((content ++ [Glyph.char '"']).foldr extendFirst ·) := by
  have goes_on {g : Glyph} {next : State} (stepped : State.step ⟨depth, .verbatim⟩ g = next)
      (t : Text) :=
    piecesFrom_cons_of_open (isClosed_verbatim depth) stepped t
  induction closes with
  | nil =>
      have ended : State.step ⟨depth, .verbatim⟩ (.char '"') = some ⟨depth, .verbatimQuote⟩ := rfl
      rw [List.nil_append, goes_on ended, piecesFrom_verbatimQuote depth single]
      rfl
  | @plain g content unquoted later ih =>
      have stays : State.step ⟨depth, .verbatim⟩ g = some ⟨depth, .verbatim⟩ := by
        simp [State.step, unquoted]
      rw [List.cons_append, goes_on stays, ih, Option.map_map]
      rfl
  | @doubled content later ih =>
      have again : State.step ⟨depth, .verbatimQuote⟩ (.char '"') = some ⟨depth, .verbatim⟩ := rfl
      have undivided : ¬ (Glyph.char '"' = .char ',' ∧
          State.isClosed ⟨depth, .verbatimQuote⟩ = true) := by simp
      rw [List.cons_append, List.cons_append, goes_on rfl,
        piecesFrom_cons_of_step undivided again, ih, Option.map_map, Option.map_map]
      rfl

end Literals

theorem piecesFrom_cons_of_outside {depth : Nat} {before : Text} {g : Glyph} {next : State}
    (step : State.Outside depth (leadAfter before) g next) (undivided : g ≠ .char ',') (t : Text) :
    piecesFrom (between depth before) (g :: t) = (piecesFrom next t).map (extendFirst g) := by
  apply piecesFrom_cons_of_step
  · exact fun divides => undivided divides.1
  · exact State.stepOutside_eq_some_iff.mpr step

theorem readsOver_regular {depth : Nat} {before content : Text} {quote : QuoteMark}
    (opens : quote = .double → ¬ OpensVerbatim before) (closes : RegularContent quote content)
    (rest : Text) : ReadsOver depth before (quote.around content) rest := by
  have undivided : quote.glyph ≠ .char ',' := by cases quote <;> simp [QuoteMark.glyph]
  have step : State.Outside depth (leadAfter before) quote.glyph ⟨depth, .regular quote⟩ :=
    .regular quote fun double => leadAfter_eq_none_iff.mpr (opens double)
  rw [ReadsOver, between_append_around, QuoteMark.around, List.append_assoc, List.cons_append,
    List.singleton_append, piecesFrom_cons_of_outside step undivided,
    piecesFrom_regular depth closes, Option.map_map]
  rfl

theorem readsOver_verbatim {depth : Nat} {before content rest : Text}
    (opens : OpensVerbatim before) (closes : VerbatimContent content)
    (single : rest.head? ≠ some (.char '"')) :
    ReadsOver depth before (QuoteMark.double.around content) rest := by
  have step : State.Outside depth (leadAfter before) (.char '"') ⟨depth, .verbatim⟩ :=
    .verbatim fun unmarked => leadAfter_eq_none_iff.mp unmarked opens
  rw [ReadsOver, between_append_around, QuoteMark.around, List.append_assoc, List.cons_append,
    List.singleton_append, QuoteMark.glyph, piecesFrom_cons_of_outside step (by simp),
    piecesFrom_verbatim depth closes single, Option.map_map]
  rfl

theorem readsOver_parenthesized {depth : Nat} {before content rest : Text}
    (inside : ReadsOver (depth + 1) (before ++ [.char '(']) content (.char ')' :: rest)) :
    ReadsOver depth before (parenthesized content) rest := by
  rw [ReadsOver, between_concat_of_reserved (by decide)] at inside
  rw [ReadsOver, between_append_parenthesized, parenthesized, List.append_assoc,
    List.cons_append, List.singleton_append, piecesFrom_cons_of_outside .inward (by simp), inside,
    piecesFrom_cons_of_outside (.outward rfl) (by simp), Option.map_map, Option.map_map]
  simp only [Function.comp_def, List.foldr_cons, List.foldr_append, List.foldr_nil,
    List.cons_append]

/-- Inside a group no comma divides, and the reading goes over all items. -/
theorem Items.readsOver {before : Text} {items : List Text} (sequence : Items before items)
    (depth : Nat) {rest : Text} (single : rest.head? ≠ some (.char '"')) :
    ReadsOver (depth + 1) before items.flatten rest := by
  -- What is in a group is read one level deeper, and the parenthesis that ends it follows.
  induction sequence generalizing depth rest with
  | nil => exact readsOver_nil _ _ _
  | plain plain later ih =>
      have reads := readsOver_plain (depth + 1) plain (fun _ => Nat.succ_ne_zero depth)
      exact (reads _ _).append (ih depth single)
  | @group before inner items inside later inside_ih ih =>
      have closing : (Glyph.char ')' :: (items.flatten ++ rest)).head? ≠ some (.char '"') := by
        simp
      have reads := readsOver_parenthesized (inside_ih (depth + 1) closing)
      exact reads.append (ih depth single)
  | regular opens closes later ih =>
      exact (readsOver_regular opens closes _).append (ih depth single)
  | @verbatim before content items opens closes ends later ih =>
      have single_after : (items.flatten ++ rest).head? ≠ some (.char '"') := by
        rw [List.head?_append]
        cases first : items.flatten.head? with
        | none => exact single
        | some g => rwa [first] at ends
      exact (readsOver_verbatim opens closes single_after).append (ih depth single)

theorem map_flatten_splitOn_cons {item : Text} (other : item ≠ [.char ',']) (items : List Text) :
    ((item :: items).splitOn [.char ',']).map List.flatten =
      item.foldr extendFirst ((items.splitOn [.char ',']).map List.flatten) := by
  have unequal : ¬ (item == [.char ',']) = true := by simpa using other
  obtain ⟨first, more, divided⟩ :=
    List.exists_cons_of_ne_nil (List.splitOn_ne_nil [.char ','] items)
  rw [List.splitOn_cons_eq_if_modifyHead, if_neg unequal, divided, List.modifyHead_cons,
    List.map_cons, List.map_cons, List.flatten_cons, foldr_extendFirst]

theorem piecesFrom_flatten_cons {before item : Text} {items : List Text}
    (reads : ReadsOver 0 before item items.flatten) (other : item ≠ [.char ','])
    (divided : piecesFrom (between 0 (before ++ item)) items.flatten =
      some ((items.splitOn [.char ',']).map List.flatten)) :
    piecesFrom (between 0 before) (item :: items).flatten =
      some (((item :: items).splitOn [.char ',']).map List.flatten) := by
  rw [List.flatten_cons, reads, divided, map_flatten_splitOn_cons other]
  rfl

theorem piecesFrom_flatten_comma {before : Text} {items : List Text}
    (divided : piecesFrom (between 0 (before ++ [.char ','])) items.flatten =
      some ((items.splitOn [.char ',']).map List.flatten)) :
    piecesFrom (between 0 before) ([.char ','] :: items).flatten =
      some ((([.char ','] :: items).splitOn [.char ',']).map List.flatten) := by
  have anew : between 0 (before ++ [.char ',']) = .start := by
    rw [between, leadAfter_concat]
    rfl
  have divides : Glyph.char ',' = .char ',' ∧ (between 0 before).isClosed = true :=
    ⟨rfl, isClosed_of_outside.mpr rfl⟩
  rw [anew] at divided
  rw [List.splitOn_cons_eq_if_modifyHead, if_pos (BEq.rfl), List.flatten_cons,
    List.singleton_append, Commas.piecesFrom, if_pos divides, divided]
  rfl

/-- Outside groups the commas that are items divide, and nothing else does. -/
theorem Items.piecesFrom_flatten {before : Text} {items : List Text}
    (sequence : Items before items) :
    piecesFrom (between 0 before) items.flatten =
      some ((items.splitOn [.char ',']).map List.flatten) := by
  have quoted (quote : QuoteMark) (content : Text) : quote.around content ≠ [.char ','] := by
    cases quote <;> simp [QuoteMark.around, QuoteMark.glyph]
  induction sequence with
  | nil => rfl
  | @plain before g items plain later ih =>
      by_cases comma : g = .char ','
      · subst comma
        exact piecesFrom_flatten_comma ih
      · have reads := readsOver_plain 0 plain (fun divides => absurd divides comma)
        exact piecesFrom_flatten_cons (reads _ _) (by simpa using comma) ih
  | @group before inner items inside later inside_ih ih =>
      have closing : (Glyph.char ')' :: items.flatten).head? ≠ some (.char '"') := by simp
      have reads := readsOver_parenthesized (inside.readsOver 0 closing)
      exact piecesFrom_flatten_cons reads (by simp [parenthesized]) ih
  | regular opens closes later ih =>
      exact piecesFrom_flatten_cons (readsOver_regular opens closes _) (quoted _ _) ih
  | verbatim opens closes single later ih =>
      exact piecesFrom_flatten_cons (readsOver_verbatim opens closes single) (quoted _ _) ih

/-! Taking items off a text that the reading accepts. -/

/-- The reading comes to the end of a text with everything closed. -/
def State.Accepts (s : State) (t : Text) : Prop :=
  (piecesFrom s t).isSome = true

theorem State.accepts_nil {s : State} : s.Accepts [] ↔ s.isClosed = true := by
  rw [Accepts, piecesFrom]
  split <;> simp_all

theorem State.step_comma {s : State} (closed : s.isClosed = true) :
    s.step (.char ',') = some .start := by
  rcases s with ⟨depth, mode⟩
  cases depth with
  | zero => cases mode <;> first | rfl | contradiction
  | succ depth => cases mode <;> contradiction

/-- A comma that divides is accepted like any other glyph. -/
theorem State.accepts_cons {s : State} {g : Glyph} {t : Text} :
    s.Accepts (g :: t) ↔ ∃ next, s.step g = some next ∧ next.Accepts t := by
  rw [Accepts, piecesFrom]
  by_cases divides : g = .char ',' ∧ s.isClosed = true
  · obtain ⟨rfl, closed⟩ := divides
    simp [closed, step_comma closed, Accepts]
  · rw [if_neg divides]
    cases s.step g <;> simp [Accepts]

theorem exists_regularContent {depth : Nat} {quote : QuoteMark} {t : Text}
    (accepted : State.Accepts ⟨depth, .regular quote⟩ t) :
    ∃ content rest, t = content ++ quote.glyph :: rest ∧ RegularContent quote content ∧
      State.Accepts ⟨depth, .outside .none⟩ rest := by
  -- An escape takes two glyphs at once, so the induction is on the length.
  induction size : t.length using Nat.strong_induction_on generalizing t with
  | _ size ih =>
      cases t with
      | nil => simp [State.accepts_nil, isClosed_regular] at accepted
      | cons g t =>
          obtain ⟨next, stepped, accepted⟩ := State.accepts_cons.mp accepted
          rw [List.length_cons] at size
          by_cases escape : g = .char '\\'
          · obtain rfl : ⟨depth, .escaped quote⟩ = next := by
              simpa [State.step, escape] using stepped
            cases t with
            | nil => simp [State.accepts_nil, isClosed_escaped] at accepted
            | cons h t =>
                obtain ⟨next, again, accepted⟩ := State.accepts_cons.mp accepted
                obtain rfl := Option.some.inj again
                rw [List.length_cons] at size
                obtain ⟨content, rest, rfl, closes, accepted⟩ := ih _ (by omega) accepted rfl
                exact ⟨g :: h :: content, rest, rfl, escape ▸ .escape closes, accepted⟩
          · by_cases closing : g = quote.glyph
            · subst closing
              obtain rfl : ⟨depth, .outside .none⟩ = next := by
                simpa [State.step, escape] using stepped
              exact ⟨[], t, rfl, .nil, accepted⟩
            · obtain rfl : ⟨depth, .regular quote⟩ = next := by
                simpa [State.step, escape, closing] using stepped
              obtain ⟨content, rest, rfl, closes, accepted⟩ := ih _ (by omega) accepted rfl
              exact ⟨g :: content, rest, rfl, .plain closing escape closes, accepted⟩

theorem exists_verbatimContent {depth : Nat} {t : Text}
    (accepted : State.Accepts ⟨depth, .verbatim⟩ t) :
    ∃ content rest, t = content ++ .char '"' :: rest ∧ VerbatimContent content ∧
      rest.head? ≠ some (.char '"') ∧ State.Accepts ⟨depth, .outside .none⟩ rest := by
  induction size : t.length using Nat.strong_induction_on generalizing t with
  | _ size ih =>
      cases t with
      | nil => simp [State.accepts_nil, isClosed_verbatim] at accepted
      | cons g t =>
          obtain ⟨next, stepped, accepted⟩ := State.accepts_cons.mp accepted
          rw [List.length_cons] at size
          by_cases closing : g = .char '"'
          · subst closing
            obtain rfl := Option.some.inj stepped
            by_cases doubled : t.head? = some (.char '"')
            · obtain ⟨t, rfl⟩ := List.head?_eq_some_iff.mp doubled
              obtain ⟨next, again, accepted⟩ := State.accepts_cons.mp accepted
              obtain rfl := Option.some.inj again
              rw [List.length_cons] at size
              obtain ⟨content, rest, rfl, closes, single, accepted⟩ := ih _ (by omega) accepted rfl
              exact ⟨_ :: _ :: content, rest, rfl, .doubled closes, single, accepted⟩
            · rw [State.Accepts, piecesFrom_verbatimQuote depth doubled] at accepted
              exact ⟨[], t, rfl, .nil, doubled, accepted⟩
          · obtain rfl : ⟨depth, .verbatim⟩ = next := by simpa [State.step, closing] using stepped
            obtain ⟨content, rest, rfl, closes, single, accepted⟩ := ih _ (by omega) accepted rfl
            exact ⟨g :: content, rest, rfl, .plain closing closes, single, accepted⟩

/-- What follows the items at a depth: nothing, or the end of the group they stand in. -/
def Stops : Nat → Text → Prop
  | 0, rest => rest = []
  | depth + 1, rest => ∃ after, rest = .char ')' :: after ∧
      State.Accepts ⟨depth, .outside .none⟩ after

theorem accepts_between_cons {depth : Nat} {before t : Text} {g : Glyph} :
    (between depth before).Accepts (g :: t) ↔
      ∃ next, State.Outside depth (leadAfter before) g next ∧ next.Accepts t := by
  simp only [State.accepts_cons, ← State.stepOutside_eq_some_iff]
  rfl

/-- A text that is accepted between two items starts with items, as many as stand at its depth. -/
theorem exists_items {depth : Nat} {before t : Text}
    (accepted : (between depth before).Accepts t) :
    ∃ items rest, t = items.flatten ++ rest ∧ Items before items ∧ Stops depth rest := by
  -- Behind a group the induction goes on at the outer depth, with what the group has left.
  induction size : t.length using Nat.strong_induction_on generalizing depth before t with
  | _ size ih =>
      cases t with
      | nil =>
          rw [State.accepts_nil, between, isClosed_of_outside] at accepted
          subst accepted
          exact ⟨[], [], rfl, .nil, rfl⟩
      | cons g t =>
          obtain ⟨next, step, goes_on⟩ := accepts_between_cons.mp accepted
          rw [List.length_cons] at size
          cases step with
          | regular quote opens =>
              obtain ⟨content, after, rfl, closes, goes_on⟩ := exists_regularContent goes_on
              rw [← between_append_around depth before content quote] at goes_on
              rw [List.length_append, List.length_cons] at size
              obtain ⟨items, rest, rfl, sequence, stops⟩ := ih _ (by omega) goes_on rfl
              refine ⟨quote.around content :: items, rest, by simp [QuoteMark.around], ?_, stops⟩
              exact .regular (fun double => leadAfter_eq_none_iff.mp (opens double)) closes sequence
          | verbatim opens =>
              obtain ⟨content, after, rfl, closes, single, goes_on⟩ :=
                exists_verbatimContent goes_on
              rw [← between_append_around depth before content .double] at goes_on
              rw [List.length_append, List.length_cons] at size
              obtain ⟨items, rest, rfl, sequence, stops⟩ := ih _ (by omega) goes_on rfl
              have ends : items.flatten.head? ≠ some (.char '"') := by
                intro quoted
                rw [List.head?_append, quoted] at single
                contradiction
              rw [Ne, leadAfter_eq_none_iff, not_not] at opens
              refine ⟨QuoteMark.double.around content :: items, rest, ?_, ?_, stops⟩
              · simp [QuoteMark.around, QuoteMark.glyph]
              · exact .verbatim opens closes ends sequence
          | inward =>
              have entered : between (depth + 1) (before ++ [.char '(']) =
                  ⟨depth + 1, .outside .none⟩ :=
                between_concat_of_reserved (by decide) (depth + 1) before
              rw [← entered] at goes_on
              obtain ⟨inner, rest, rfl, inside, stops⟩ := ih _ (by omega) goes_on rfl
              obtain ⟨after, rfl, left⟩ := stops
              rw [← between_append_parenthesized depth before inner.flatten] at left
              rw [List.length_append, List.length_cons] at size
              obtain ⟨items, rest, rfl, sequence, stops⟩ := ih _ (by omega) left rfl
              refine ⟨parenthesized inner.flatten :: items, rest, ?_, .group inside sequence, stops⟩
              simp [parenthesized]
          | outward inside =>
              subst inside
              exact ⟨[], .char ')' :: t, rfl, .nil, t, rfl, goes_on⟩
          | plain plain =>
              have stays : (between depth (before ++ [g])).Accepts t := by
                rwa [between, leadAfter_concat]
              obtain ⟨items, rest, rfl, sequence, stops⟩ := ih _ (by omega) stays rfl
              exact ⟨[g] :: items, rest, rfl, .plain plain sequence, stops⟩

end Commas

open Commas

/-- A body can be divided exactly if it is a sequence of items, and its entries are what stands
between the commas among the items. -/
theorem splitEntries_eq_some_iff {body : Text} {entries : List Text} :
    splitEntries body = some entries ↔
      ∃ items, Items [] items ∧ items.flatten = body ∧
        (items.splitOn [.char ',']).map List.flatten = entries := by
  have start : State.start = between 0 [] := rfl
  constructor
  · intro divided
    have accepted : (between 0 []).Accepts body := by
      rw [State.Accepts, ← start, ← splitEntries, divided]
      rfl
    obtain ⟨items, rest, whole, sequence, stops⟩ := exists_items accepted
    obtain rfl : rest = [] := stops
    rw [List.append_nil] at whole
    refine ⟨items, sequence, whole.symm, ?_⟩
    rw [splitEntries, whole, start, sequence.piecesFrom_flatten] at divided
    exact Option.some.inj divided
  · rintro ⟨items, sequence, rfl, rfl⟩
    exact sequence.piecesFrom_flatten

/-- In a verbatim literal a backslash is a glyph like any other, and two quotes do not end it. -/
example :
    splitEntries (Text.ofString "A(@\"\\\"), B") =
        some [Text.ofString "A(@\"\\\")", Text.ofString " B"] ∧
      splitEntries (Text.ofString "A(@\"\\\"\"), B") = none := by
  decide +kernel

end AttributeLists
