/-
# What loading a settings file does

`Setting.StandIn` says what the settings of a file are: its lines are cut at the boundaries
of lines, with carriage return and line feed as one of them, and a line makes a setting if it
shows an equals sign and does not start with a number sign. Every file has its settings in one
way only.

The settings are made one after another, and each step gives a value to at most one name that
had none. So a setting counts if its name is new: neither the environment nor a setting before
it has given that name a value. Loading fails at the first new setting that cannot be made,
and otherwise the environment keeps its values and every other name has the value of its
first setting.
-/

import Mathlib.Data.Nat.Init
import AttributeLists.Proofs.Text.LeadingRun
import AttributeLists.Proofs.Text.LetterCase
import AttributeLists.Service.Settings

namespace AttributeLists.Service

/-- Whether a line of a settings file ends at the glyph. -/
def isLineBoundary : Glyph → Bool :=
  Glyph.satisfies lineBoundaries.contains

/-- What stands between a line and the rest of the file: one boundary, where carriage return
and line feed together count as one. -/
inductive LineEnd : Text → Text → Prop
  | pair (rest : Text) : LineEnd [.char '\r', .char '\n'] rest
  | single {g : Glyph} {rest : Text} (boundary : isLineBoundary g = true)
      (unpaired : g = .char '\r' → rest.head? ≠ some (.char '\n')) : LineEnd [g] rest

/-- The settings file consists of these lines. A boundary at its end starts no further line. -/
inductive InFileLines : Text → List Text → Prop
  | nil : InFileLines [] []
  | unfinished {line : Text} (nonempty : line ≠ [])
      (unbroken : ∀ g ∈ line, isLineBoundary g = false) : InFileLines line [line]
  | cons {line ending rest : Text} {lines : List Text}
      (unbroken : ∀ g ∈ line, isLineBoundary g = false) (ends : LineEnd ending rest)
      (later : InFileLines rest lines) : InFileLines (line ++ (ending ++ rest)) (line :: lines)

theorem exists_inFileLines (file : Text) : ∃ lines, InFileLines file lines := by
  -- Two glyphs may end a line, so the induction is on the length of what stands behind it.
  induction size : file.length using Nat.strong_induction_on generalizing file with
  | _ size ih =>
      have unbroken : ∀ g ∈ file.takeWhile (!isLineBoundary ·), isLineBoundary g = false := by
        intro g inside
        simpa using Text.mem_takeWhile_eq_true file g inside
      have whole := List.takeWhile_append_dropWhile (p := (!isLineBoundary ·)) (l := file)
      generalize file.takeWhile (!isLineBoundary ·) = line at unbroken whole
      cases dropped : file.dropWhile (!isLineBoundary ·) with
      | nil =>
          rw [dropped, List.append_nil] at whole
          subst whole
          cases line with
          | nil => exact ⟨[], .nil⟩
          | cons g line => exact ⟨_, .unfinished (List.cons_ne_nil g line) unbroken⟩
      | cons g rest =>
          have boundary : isLineBoundary g = true := by
            simpa using (Text.of_dropWhile_eq_cons dropped).1
          rw [dropped] at whole
          have lengths := congrArg List.length whole
          rw [List.length_append, List.length_cons] at lengths
          by_cases paired : g = .char '\r' ∧ rest.head? = some (.char '\n')
          · obtain ⟨rfl, first⟩ := paired
            obtain ⟨rest, rfl⟩ := List.head?_eq_some_iff.mp first
            rw [List.length_cons] at lengths
            obtain ⟨lines, later⟩ := ih rest.length (by omega) rest rfl
            exact ⟨line :: lines, whole ▸ .cons unbroken (.pair rest) later⟩
          · obtain ⟨lines, later⟩ := ih rest.length (by omega) rest rfl
            have unpaired : g = .char '\r' → rest.head? ≠ some (.char '\n') :=
              fun same first => paired ⟨same, first⟩
            exact ⟨line :: lines, whole ▸ .cons unbroken (.single boundary unpaired) later⟩

namespace Setting

/-- The line makes the setting: around its first equals sign stand a name and a value, and
the line is no comment. -/
def IsMadeBy (line : Text) (s : Setting) : Prop :=
  ∃ name value, line.trim = name ++ .char '=' :: value ∧ .char '=' ∉ name ∧
    line.trim.head? ≠ some (.char '#') ∧ s = ⟨Text.trim name, Text.trim value⟩

/-- The lines make these settings, in order. -/
inductive AreMadeBy : List Text → List Setting → Prop
  | nil : AreMadeBy [] []
  | setting {line : Text} {s : Setting} {lines : List Text} {settings : List Setting}
      (made : s.IsMadeBy line) (later : AreMadeBy lines settings) :
      AreMadeBy (line :: lines) (s :: settings)
  | idle {line : Text} {lines : List Text} {settings : List Setting}
      (unmade : ∀ s : Setting, ¬ s.IsMadeBy line) (later : AreMadeBy lines settings) :
      AreMadeBy (line :: lines) settings

/-- These are the settings of the file, in order. -/
def StandIn (file : Text) (settings : List Setting) : Prop :=
  ∃ lines, InFileLines file lines ∧ AreMadeBy lines settings

theorem ofLine_eq_some_iff {line : Text} {s : Setting} :
    ofLine line = some s ↔ s.IsMadeBy line := by
  simp only [ofLine, IsMadeBy]
  generalize line.trim = shown
  constructor
  · intro made
    split at made
    · contradiction
    · rename_i no_comment
      split at made
      · rename_i g value dropped
        obtain ⟨other, whole⟩ := Text.of_dropWhile_eq_cons dropped
        obtain rfl : g = .char '=' := by simpa using other
        refine ⟨_, value, whole.symm, ?_, no_comment, (Option.some.inj made).symm⟩
        intro inside
        simpa using Text.mem_takeWhile_eq_true shown _ inside
      · contradiction
  · rintro ⟨name, value, rfl, unequal, no_comment, rfl⟩
    have inside := Text.bne_of_not_mem unequal
    have outside : ∀ g ∈ (Glyph.char '=' :: value).head?, (g != .char '=') = false := by simp
    rw [if_neg no_comment, Text.dropWhile_append_of_head? inside outside,
      Text.takeWhile_append_of_head? inside outside]

theorem areMadeBy_iff {lines : List Text} {settings : List Setting} :
    AreMadeBy lines settings ↔ settings = lines.filterMap ofLine := by
  constructor
  · intro made
    induction made with
    | nil => rfl
    | setting made _ ih => rw [List.filterMap_cons_some (ofLine_eq_some_iff.mpr made), ih]
    | @idle line _ _ none _ ih =>
        have unmade : ofLine line = .none :=
          Option.eq_none_iff_forall_ne_some.mpr fun s made => none s (ofLine_eq_some_iff.mp made)
        rw [List.filterMap_cons_none unmade, ih]
  · rintro rfl
    induction lines with
    | nil => exact .nil
    | cons line lines ih =>
        cases made : ofLine line with
        | some s =>
            rw [List.filterMap_cons_some made]
            exact .setting (ofLine_eq_some_iff.mp made) ih
        | none =>
            rw [List.filterMap_cons_none made]
            refine .idle (fun s other => ?_) ih
            rw [← ofLine_eq_some_iff, made] at other
            contradiction

theorem allIn_of_unbroken {line : Text} (unbroken : ∀ g ∈ line, isLineBoundary g = false) :
    allIn line = [line].filterMap ofLine := by
  rw [allIn]
  exact congrArg (List.filterMap ofLine) (List.splitOnP_eq_singleton unbroken)

theorem allIn_append_cons {g : Glyph} (boundary : isLineBoundary g = true) (front rest : Text) :
    allIn (front ++ g :: rest) = allIn front ++ allIn rest := by
  simp only [allIn, ← List.filterMap_append]
  exact congrArg (List.filterMap ofLine) (List.splitOnP_append_cons front rest boundary)

/-- A line feed right after a carriage return cuts off an empty line, which makes nothing. -/
theorem allIn_append_lineEnd {ending rest : Text} (ends : LineEnd ending rest) (front : Text) :
    allIn (front ++ (ending ++ rest)) = allIn front ++ allIn rest := by
  cases ends with
  | single boundary unpaired => exact allIn_append_cons boundary front rest
  | pair =>
      have empty : allIn (.char '\n' :: rest) = allIn rest := allIn_append_cons rfl [] rest
      rw [← empty]
      exact allIn_append_cons rfl front (.char '\n' :: rest)

theorem filterMap_ofLine_of_inFileLines {file : Text} {lines : List Text}
    (stands : InFileLines file lines) : lines.filterMap ofLine = allIn file := by
  induction stands with
  | nil => rfl
  | unfinished nonempty unbroken => exact (allIn_of_unbroken unbroken).symm
  | @cons line ending rest lines unbroken ends later ih =>
      rw [allIn_append_lineEnd ends, allIn_of_unbroken unbroken, ← ih, ← List.filterMap_append]
      rfl

/-- Every file has its settings in one way only. -/
theorem standIn_iff {file : Text} {settings : List Setting} :
    StandIn file settings ↔ settings = allIn file := by
  constructor
  · rintro ⟨lines, stands, made⟩
    rw [areMadeBy_iff.mp made, filterMap_ofLine_of_inFileLines stands]
  · rintro rfl
    obtain ⟨lines, stands⟩ := exists_inFileLines file
    exact ⟨lines, stands, areMadeBy_iff.mpr (filterMap_ofLine_of_inFileLines stands).symm⟩

/-- The name or the value holds a null character. -/
def HoldsNull (s : Setting) : Prop :=
  .char '\x00' ∈ s.name ∨ .char '\x00' ∈ s.value

/-- The setting cannot be made, for this reason. -/
inductive IsFaulty (s : Setting) : SettingError → Prop
  | nullCharacter (null : s.HoldsNull) : IsFaulty s .nullCharacter
  | emptyName (readable : ¬ s.HoldsNull) (empty : s.name = []) : IsFaulty s .emptyName

theorem error?_eq_some_iff {s : Setting} {cause : SettingError} :
    s.error? = some cause ↔ s.IsFaulty cause := by
  unfold error?
  constructor
  · intro faulty
    split at faulty
    · rename_i null
      obtain rfl := Option.some.inj faulty
      exact .nullCharacter null
    · rename_i readable
      split at faulty
      · rename_i empty
        obtain rfl := Option.some.inj faulty
        exact .emptyName readable (List.isEmpty_iff.mp empty)
      · contradiction
  · rintro (null | ⟨readable, empty⟩)
    · exact if_pos null
    · exact (if_neg readable).trans (if_pos (List.isEmpty_iff.mpr empty))

/-- Neither the environment nor a setting before this one gives its name a value. -/
def IsNew (env : Environment) (before : List Setting) (s : Setting) : Prop :=
  env.value? s.name = none ∧ ∀ earlier ∈ before, earlier.name ≠ s.name

/-- The setting is to be made after some others and cannot be. -/
def Fails (env : Environment) (before : List Setting) (s : Setting) (cause : SettingError) :
    Prop :=
  s.IsNew env before ∧ s.IsFaulty cause

/-- Each of the settings can be made, or is not to be made. -/
def NoneFails (env : Environment) (settings : List Setting) : Prop :=
  ∀ before s after cause, settings = before ++ s :: after → ¬ s.Fails env before cause

end Setting

namespace Environment

open Setting

variable {env next loaded : Environment} {s : Setting}

/-- The value of a name after some settings: that of the environment, or else that of the
first setting of the name. -/
def valueAfter (env : Environment) (settings : List Setting) (name : Text) : Option Text :=
  (env.value? name).or ((settings.find? (·.name = name)).map Setting.value)

theorem setDefault_eq_error_iff {cause : SettingError} :
    env.setDefault s = .error cause ↔ s.Fails env [] cause := by
  rw [Setting.Fails, IsNew, ← error?_eq_some_iff, setDefault]
  cases env.value? s.name <;> cases s.error? <;> simp

/-- A setting that is made gives a value to its own name only, and only if that had none. -/
theorem value?_of_setDefault (step : env.setDefault s = .ok next) (name : Text) :
    next.value? name = env.valueAfter [s] name := by
  rw [setDefault] at step
  rw [valueAfter]
  cases present : env.value? s.name with
  | some old =>
      obtain rfl : env = next := by simpa [present] using step
      by_cases same : s.name = name
      · simp [← same, present]
      · simp [same]
  | none =>
      cases faulty : s.error? with
      | some cause => simp [present, faulty] at step
      | none =>
          obtain rfl : ⟨(s.name, s.value) :: env.bindings⟩ = next := by
            simpa [present, faulty] using step
          by_cases same : s.name = name
          · subst same
            rw [present, value?, List.lookup_cons_self]
            simp
          · rw [value?, List.lookup_cons, beq_false_of_ne (Ne.symm same), value?]
            simp [same]

/-- What is new after a setting was new before it and has another name. -/
theorem isNew_of_setDefault (step : env.setDefault s = .ok next) (before : List Setting)
    (t : Setting) : t.IsNew next before ↔ t.IsNew env (s :: before) := by
  rw [IsNew, IsNew, value?_of_setDefault step, valueAfter, List.forall_mem_cons]
  by_cases same : s.name = t.name <;> simp [same]

theorem valueAfter_of_setDefault (step : env.setDefault s = .ok next) (settings : List Setting)
    (name : Text) : next.valueAfter settings name = env.valueAfter (s :: settings) name := by
  rw [valueAfter, valueAfter, value?_of_setDefault step, valueAfter]
  by_cases same : s.name = name <;> simp [same]

theorem noneFails_cons (step : env.setDefault s = .ok next) {settings : List Setting} :
    NoneFails env (s :: settings) ↔ NoneFails next settings := by
  constructor
  · intro fine before t after cause split
    rw [Setting.Fails, isNew_of_setDefault step]
    exact fine (s :: before) t after cause (by rw [split]; rfl)
  · intro fine before t after cause split
    rcases List.cons_eq_append_iff.mp split with ⟨rfl, same⟩ | ⟨before, rfl, later⟩
    · obtain ⟨rfl, rfl⟩ := List.cons.inj same
      rw [← setDefault_eq_error_iff, step]
      exact nofun
    · rw [Setting.Fails, ← isNew_of_setDefault step]
      exact fine before t after cause later

theorem foldlM_cons_of_ok (step : env.setDefault s = .ok next) (settings : List Setting) :
    (s :: settings).foldlM setDefault env = settings.foldlM setDefault next := by
  rw [List.foldlM_cons, step]
  rfl

theorem foldlM_cons_of_error {cause : SettingError} (step : env.setDefault s = .error cause)
    (settings : List Setting) : (s :: settings).foldlM setDefault env = .error cause := by
  rw [List.foldlM_cons, step]
  rfl

/-- If all settings are made, none of them failed and every name has its value. -/
theorem foldlM_eq_ok {settings : List Setting}
    (made : settings.foldlM setDefault env = .ok loaded) :
    NoneFails env settings ∧ ∀ name, loaded.value? name = env.valueAfter settings name := by
  induction settings generalizing env with
  | nil =>
      obtain rfl := Except.ok.inj made
      exact ⟨by simp [NoneFails], fun name => by simp [valueAfter]⟩
  | cons first rest ih =>
      cases step : env.setDefault first with
      | error cause =>
          rw [foldlM_cons_of_error step] at made
          contradiction
      | ok next =>
          rw [foldlM_cons_of_ok step] at made
          obtain ⟨fine, values⟩ := ih made
          refine ⟨(noneFails_cons step).mpr fine, fun name => ?_⟩
          rw [values, valueAfter_of_setDefault step]

/-- If the settings are not made, the first of them that fails is the reason. -/
theorem foldlM_eq_error_iff {settings : List Setting} {cause : SettingError} :
    settings.foldlM setDefault env = .error cause ↔
      ∃ before s after, settings = before ++ s :: after ∧ s.Fails env before cause ∧
        NoneFails env before := by
  induction settings generalizing env with
  | nil => simp [pure, Except.pure]
  | cons first rest ih =>
      cases step : env.setDefault first with
      | error reason =>
          -- Nothing behind a setting that fails is looked at.
          have fails : first.Fails env [] reason := setDefault_eq_error_iff.mp step
          rw [foldlM_cons_of_error step]
          constructor
          · rintro same
            obtain rfl := Except.error.inj same
            exact ⟨[], first, rest, rfl, fails, by simp [NoneFails]⟩
          · rintro ⟨before, s, after, split, again, fine⟩
            rcases List.cons_eq_append_iff.mp split with ⟨rfl, same⟩ | ⟨before, rfl, -⟩
            · obtain ⟨rfl, rfl⟩ := List.cons.inj same
              rw [← step, setDefault_eq_error_iff]
              exact again
            · exact absurd fails (fine [] first before reason rfl)
      | ok next =>
          -- What fails behind a setting that is made fails in the environment that it leaves.
          rw [foldlM_cons_of_ok step, ih]
          constructor
          · rintro ⟨before, s, after, rfl, fails, fine⟩
            rw [Setting.Fails, isNew_of_setDefault step] at fails
            exact ⟨first :: before, s, after, rfl, fails, (noneFails_cons step).mpr fine⟩
          · rintro ⟨before, s, after, split, fails, fine⟩
            rcases List.cons_eq_append_iff.mp split with ⟨rfl, same⟩ | ⟨before, rfl, later⟩
            · obtain ⟨rfl, rfl⟩ := List.cons.inj same
              rw [← setDefault_eq_error_iff, step] at fails
              contradiction
            · rw [Setting.Fails, ← isNew_of_setDefault step] at fails
              exact ⟨before, s, after, later, fails, (noneFails_cons step).mp fine⟩

end Environment

/-- The value turns a setting off: it is a word for no, in either case. -/
def SaysNo (value : Text) : Prop :=
  ∃ word ∈ ["0", "false", "no"], ∃ chars, value = chars.map Glyph.char ∧
    SpelledInEitherCase word chars

theorem map_lowerGlyph_eq_iff {value : Text} {letters : List Char} :
    value.map lowerGlyph = letters.map Glyph.char ↔
      ∃ chars : List Char, value = chars.map Glyph.char ∧ chars.map Char.toLower = letters := by
  constructor
  · intro same
    induction value generalizing letters with
    | nil =>
        obtain rfl : letters = [] := by simpa using same
        exact ⟨[], rfl, rfl⟩
    | cons g value ih =>
        cases letters with
        | nil => contradiction
        | cons letter letters =>
            obtain ⟨first, later⟩ := List.cons.inj same
            obtain ⟨chars, rfl, rfl⟩ := ih later
            cases g with
            | stray byte high => contradiction
            | char c => exact ⟨c :: chars, rfl, by rw [List.map_cons, Glyph.char.inj first]⟩
  · rintro ⟨chars, rfl, rfl⟩
    simp [lowerGlyph]

theorem isOff_iff {value : Text} : isOff value = true ↔ SaysNo value := by
  have small : ∀ word ∈ ["0", "false", "no"], ∀ letter ∈ word.toList, letter.isUpper = false := by
    simp
  have spelled : isOff value = true ↔
      ∃ word ∈ ["0", "false", "no"], value.map lowerGlyph = Text.ofString word := by
    simp [isOff, or_assoc]
  rw [spelled, SaysNo]
  refine exists_congr fun word => and_congr_right fun listed => ?_
  simp only [Text.ofString, map_lowerGlyph_eq_iff, map_toLower_eq_iff (small word listed)]

theorem collapse_eq_false_iff {env : Environment} :
    (Settings.ofEnvironment env).collapse = false ↔
      ∃ value, env.value? (Text.ofString "ATTRSTRIP_COLLAPSE_BLANK_LINES") = some value ∧
        SaysNo value := by
  simp only [Settings.ofEnvironment, ← isOff_iff]
  cases env.value? (Text.ofString "ATTRSTRIP_COLLAPSE_BLANK_LINES") <;> simp

namespace Environment

open Setting

/-- Loading works through the settings of the service's own file, or else of the shared one.
It fails exactly if one of them is new and cannot be made, and the first of these is the
reason. If it succeeds, the environment keeps its values, every other name has the value of
its first setting, and the settings of the service are what the values of its two names say. -/
theorem load_outcome (env : Environment) (own shared : Option Text) :
    ∃ settings,
      (∀ others, StandIn (own.getD (shared.getD [])) others ↔ others = settings) ∧
      ((∃ cause, env.load own shared = .error cause) ↔
        ∃ before s after cause, settings = before ++ s :: after ∧ s.Fails env before cause) ∧
      (∀ cause, env.load own shared = .error cause ↔
        ∃ before s after, settings = before ++ s :: after ∧ s.Fails env before cause ∧
          NoneFails env before) ∧
      ∀ loaded, env.load own shared = .ok loaded →
        (∀ name, loaded.value? name = env.valueAfter settings name) ∧
        (Settings.ofEnvironment loaded).defaultName =
          (env.valueAfter settings (Text.ofString "ATTRSTRIP_ATTRIBUTE")).getD
            (Text.ofString "FormerlySerializedAs") ∧
        ((Settings.ofEnvironment loaded).collapse = false ↔
          ∃ value,
            env.valueAfter settings (Text.ofString "ATTRSTRIP_COLLAPSE_BLANK_LINES") =
              some value ∧ SaysNo value) := by
  have file : (own <|> shared).getD [] = own.getD (shared.getD []) := by cases own <;> rfl
  have loads : env.load own shared =
      (allIn (own.getD (shared.getD []))).foldlM setDefault env := by rw [load, file]
  generalize own.getD (shared.getD []) = text at loads
  refine ⟨allIn text, fun others => standIn_iff, ?_, fun cause => ?_, fun loaded made => ?_⟩
  · constructor
    · rintro ⟨cause, failed⟩
      rw [loads, foldlM_eq_error_iff] at failed
      obtain ⟨before, s, after, split, fails, -⟩ := failed
      exact ⟨before, s, after, cause, split, fails⟩
    · rintro ⟨before, s, after, cause, split, fails⟩
      cases made : env.load own shared with
      | error reason => exact ⟨reason, rfl⟩
      | ok loaded =>
          rw [loads] at made
          exact absurd fails ((foldlM_eq_ok made).1 before s after cause split)
  · rw [loads, foldlM_eq_error_iff]
  · have values := (foldlM_eq_ok (loads ▸ made)).2
    refine ⟨values, ?_, ?_⟩
    · rw [Settings.ofEnvironment, values]
      rfl
    · rw [collapse_eq_false_iff, values]

/-- A setting of a name that has a value is not looked at, even if it could not be made, and
of two settings of one name the first one counts. -/
example :
    let env : Environment := ⟨[(Text.ofString "A", Text.ofString "x")]⟩
    let file := Text.ofString "A=\x00\r\n B = 1=2 \n#C=3\nB=4"
    (env.load (some file) none).toOption.map (fun loaded =>
        (loaded.value? (Text.ofString "B"), loaded.value? (Text.ofString "C"))) =
      some (some (Text.ofString "1=2"), none) := by
  decide +kernel

end Environment

end AttributeLists.Service
