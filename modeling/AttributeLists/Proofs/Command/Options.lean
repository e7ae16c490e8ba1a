/-
# Command lines that ask for something else

A command line that can be read is a sequence of phrases, each one argument or an
option with its value, and each phrase adds to what the phrases after it ask for. So a
phrase can be left out without changing what the others say: without its dry run options
a command line asks for a run that is not dry, and without its last paths for a run on
the paths before them.
-/

import AttributeLists.Command.Options

namespace AttributeLists.Command

/-- The arguments without the options that ask for a dry run. The value of `--attribute`
is no option, whatever it looks like. -/
def withoutDryRun : List String → List String
  | [] => []
  | s :: rest =>
      match Argument.ofString s with
      | .dryRun => withoutDryRun rest
      | .takeOutNext =>
          match rest with
          | [] => [s]
          | name :: rest => s :: name :: withoutDryRun rest
      | _ => s :: withoutDryRun rest

namespace Options

theorem ofArguments_withoutDryRun (arguments : List String) :
    ofArguments (withoutDryRun arguments) =
      (ofArguments arguments).map fun asked => { asked with dryRun := false } := by
  fun_induction withoutDryRun arguments with
  | case1 => rfl
  | case2 s rest read ih =>
      rw [ih, ofArguments.eq_def (s :: rest)]
      simp only [read]
      cases ofArguments rest <;> rfl
  | case3 s read =>
      rw [ofArguments.eq_def]
      simp only [read]
      rfl
  | case4 s read name rest ih =>
      rw [ofArguments.eq_def, ofArguments.eq_def (s :: name :: rest)]
      simp only [read, ih]
      cases ofArguments rest <;> rfl
  | case5 s rest not_dry not_next ih =>
      rw [ofArguments.eq_def, ofArguments.eq_def (s :: rest)]
      simp only [ih]
      cases read : Argument.ofString s with
      | dryRun => exact absurd read not_dry
      | takeOutNext => exact absurd read not_next
      | unknown option => rfl
      | keepBlankLines => cases ofArguments rest <;> rfl
      | takeOut name => cases ofArguments rest <;> rfl
      | path p => cases ofArguments rest <;> rfl

/-- Arguments that are read together, and what they add to what the others ask for. -/
inductive Phrase : List String → (Options → Options) → Prop
  | dryRun {s : String} (read : Argument.ofString s = .dryRun) :
      Phrase [s] fun o => { o with dryRun := true }
  | keepBlankLines {s : String} (read : Argument.ofString s = .keepBlankLines) :
      Phrase [s] fun o => { o with collapse := false }
  | takeOut {s name : String} (read : Argument.ofString s = .takeOut name) :
      Phrase [s] (consAttribute name)
  | takeOutNext {s : String} (name : String) (read : Argument.ofString s = .takeOutNext) :
      Phrase [s, name] (consAttribute name)
  | path {s : String} {p : Path} (read : Argument.ofString s = .path p) :
      Phrase [s] (consPath p)

/-- The arguments are a sequence of phrases that together ask for the options. -/
inductive Asks : List String → Options → Prop
  | nothing : Asks [] empty
  | phrase {words rest : List String} {add : Options → Options} {others : Options}
      (first : Phrase words add) (later : Asks rest others) : Asks (words ++ rest) (add others)

theorem Phrase.ofArguments_append {words : List String} {add : Options → Options}
    (phrase : Phrase words add) (rest : List String) :
    ofArguments (words ++ rest) = (ofArguments rest).map add := by
  cases phrase with
  | takeOutNext name read =>
      rw [List.cons_append, List.singleton_append, ofArguments.eq_def]
      simp only [read]
  | dryRun read | keepBlankLines read | takeOut read | path read =>
      rw [List.singleton_append, ofArguments.eq_def]
      simp only [read]

private theorem exists_of_map_eq_ok {read : Except UsageError Options}
    {add : Options → Options} {asked : Options} (parsed : read.map add = .ok asked) :
    ∃ others, read = .ok others ∧ add others = asked := by
  cases read with
  | error cause => contradiction
  | ok others => exact ⟨others, rfl, Except.ok.inj parsed⟩

/-- A command line can be read exactly if it is a sequence of phrases. -/
theorem asks_iff {arguments : List String} {asked : Options} :
    Asks arguments asked ↔ ofArguments arguments = .ok asked := by
  constructor
  · intro asks
    induction asks with
    | nothing => rfl
    | phrase first _ ih =>
        rw [first.ofArguments_append, ih]
        rfl
  · intro parsed
    fun_induction ofArguments arguments generalizing asked with
    | case1 =>
        obtain rfl := Except.ok.inj parsed
        exact .nothing
    | case2 s rest read ih =>
        obtain ⟨others, found, rfl⟩ := exists_of_map_eq_ok parsed
        exact .phrase (.dryRun read) (ih found)
    | case3 s rest read ih =>
        obtain ⟨others, found, rfl⟩ := exists_of_map_eq_ok parsed
        exact .phrase (.keepBlankLines read) (ih found)
    | case4 s rest name read ih =>
        obtain ⟨others, found, rfl⟩ := exists_of_map_eq_ok parsed
        exact .phrase (.takeOut read) (ih found)
    | case5 s read => contradiction
    | case6 s read name rest ih =>
        obtain ⟨others, found, rfl⟩ := exists_of_map_eq_ok parsed
        exact .phrase (.takeOutNext name read) (ih found)
    | case7 s rest option read => contradiction
    | case8 s rest p read ih =>
        obtain ⟨others, found, rfl⟩ := exists_of_map_eq_ok parsed
        exact .phrase (.path read) (ih found)

/-- The first of the paths are asked for by the command line without the other ones. -/
theorem Asks.exists_fewer_paths {arguments : List String} {asked : Options}
    (asks : Asks arguments asked) {before : List Path} (first : before <+: asked.paths) :
    ∃ fewer, Asks fewer { asked with paths := before } := by
  induction asks generalizing before with
  | nothing =>
      obtain rfl := List.prefix_nil.mp first
      exact ⟨[], .nothing⟩
  | phrase words _ ih =>
      cases words with
      | dryRun read =>
          obtain ⟨fewer, kept⟩ := ih first
          exact ⟨_, .phrase (.dryRun read) kept⟩
      | keepBlankLines read =>
          obtain ⟨fewer, kept⟩ := ih first
          exact ⟨_, .phrase (.keepBlankLines read) kept⟩
      | takeOut read =>
          obtain ⟨fewer, kept⟩ := ih first
          exact ⟨_, .phrase (.takeOut read) kept⟩
      | takeOutNext name read =>
          obtain ⟨fewer, kept⟩ := ih first
          exact ⟨_, .phrase (.takeOutNext name read) kept⟩
      | path read =>
          cases before with
          | nil => exact ih List.nil_prefix
          | cons p before =>
              obtain ⟨same, further⟩ := List.cons_prefix_cons.mp first
              obtain ⟨fewer, kept⟩ := ih further
              subst same
              exact ⟨_, .phrase (.path read) kept⟩

end Options

end AttributeLists.Command
