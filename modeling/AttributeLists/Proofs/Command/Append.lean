/-
# Command lines one behind the other

What each phrase of a command line adds stands in front of what the phrases after it ask for,
so the options that two command lines ask for together are those of the first followed by
those of the second. Where the first can be read, whether the whole can be read, and the
message if not, is a matter of the second alone. The defaults come last: they stand in for
attributes and for paths only if neither of the two names any.

An attribute can be asked for in one argument or in two, and no value tells these apart.
-/

import AttributeLists.Proofs.Command.Failure

namespace AttributeLists.Command

namespace Options

/-- The options of two command lines, the first in front of the second. -/
def followedBy (first second : Options) : Options where
  attributes := first.attributes ++ second.attributes
  paths := first.paths ++ second.paths
  dryRun := first.dryRun || second.dryRun
  collapse := first.collapse && second.collapse

@[simp]
theorem empty_followedBy (o : Options) : empty.followedBy o = o := by
  simp [followedBy, empty]

/-- What a phrase adds stands in front of everything after it. -/
theorem Phrase.followedBy {words : List String} {add : Options → Options}
    (phrase : Phrase words add) (first second : Options) :
    add (first.followedBy second) = (add first).followedBy second := by
  cases phrase <;> rfl

theorem Asks.ofArguments_append {arguments : List String} {asked : Options}
    (asks : Asks arguments asked) (more : List String) :
    ofArguments (arguments ++ more) = (ofArguments more).map asked.followedBy := by
  induction asks with
  | nothing =>
      rw [List.nil_append]
      cases ofArguments more with
      | error cause => rfl
      | ok others => simp [Except.map]
  | phrase first later ih =>
      rw [List.append_assoc, first.ofArguments_append, ih]
      cases ofArguments more with
      | error cause => rfl
      | ok others => simp [Except.map, first.followedBy]

end Options

theorem Argument.ofString_attribute : ofString "--attribute" = .takeOutNext := by
  decide +kernel

/-- Everything behind the first equals sign is the value. -/
theorem Argument.ofString_attribute_append (value : String) :
    ofString ("--attribute=" ++ value) = .takeOut value := by
  -- An option without an equals sign is none of the texts that start with this one.
  have other (option : String) (shown : ¬ "--attribute=".toList <+: option.toList) :
      "--attribute=" ++ value ≠ option := by
    rintro rfl
    apply shown
    rw [String.toList_append]
    exact List.prefix_append _ _
  have found : "--attribute=".toList.isPrefixOf? ("--attribute=" ++ value).toList =
      some value.toList := by
    rw [List.isPrefixOf?_eq_some_iff_append_eq, String.toList_append]
  rw [ofString, if_neg (other "--dry-run" (by decide)),
    if_neg (other "--keep-blank-lines" (by decide)), if_neg (other "--attribute" (by decide)),
    found]
  exact congrArg takeOut String.ofList_toList

namespace Options

/-- The value of an attribute option is taken as it is, in the next argument or behind an
equals sign. -/
theorem ofArguments_attribute (value : String) (rest : List String) :
    ofArguments ("--attribute" :: value :: rest) =
      ofArguments (("--attribute=" ++ value) :: rest) := by
  have apart := (Phrase.takeOutNext value Argument.ofString_attribute).ofArguments_append rest
  have joined := (Phrase.takeOut (Argument.ofString_attribute_append value)).ofArguments_append rest
  exact apart.trans joined.symm

theorem ofArguments_append_eq_error_iff {first : List String} {asked : Options}
    (asks : Asks first asked) {second : List String} {cause : UsageError} :
    ofArguments (first ++ second) = .error cause ↔ ofArguments second = .error cause := by
  rw [asks.ofArguments_append]
  cases ofArguments second <;> simp [Except.map]

end Options

/-- Where a command line can be read, what it asks for stands in front of what a command line
behind it asks for, and the defaults stand in only for what neither of them names. The second
one decides whether the whole can be read, and its message is that of the whole. An attribute
behind the first one may be asked for in one argument or in two. -/
theorem command_lines_compose {first : List String} {asked : Options}
    (read : Options.ofArguments first = .ok asked) (second : List String) :
    (∀ others, Options.ofArguments second = .ok others →
      ∃ whole, Options.ofArguments (first ++ second) = .ok whole ∧
        whole.attributes = asked.attributes ++ others.attributes ∧
        whole.paths = asked.paths ++ others.paths ∧
        whole.dryRun = (asked.dryRun || others.dryRun) ∧
        whole.collapse = (asked.collapse && others.collapse) ∧
        whole.withDefaults.attributes =
          (if asked.attributes = [] ∧ others.attributes = [] then [defaultAttribute]
            else whole.attributes) ∧
        whole.withDefaults.paths =
          (if asked.paths = [] ∧ others.paths = [] then [Path.current] else whole.paths) ∧
        whole.withDefaults.dryRun = whole.dryRun ∧
        whole.withDefaults.collapse = whole.collapse) ∧
    (∀ cause, Options.ofArguments (first ++ second) = .error cause ↔
      Options.ofArguments second = .error cause) ∧
    (∀ cause, Options.ofArguments second = .error cause →
      ∀ tree, (run (first ++ second) tree).output = cause.message ++ "\n") ∧
    ∀ value, Options.ofArguments (first ++ "--attribute" :: value :: second) =
      Options.ofArguments (first ++ ("--attribute=" ++ value) :: second) := by
  have asks := Options.asks_iff.mpr read
  refine ⟨fun others read_second => ?_, fun cause => ?_, fun cause unread tree => ?_,
    fun value => ?_⟩
  · refine ⟨asked.followedBy others, ?_, rfl, rfl, rfl, rfl, ?_, ?_, rfl, rfl⟩
    · rw [asks.ofArguments_append, read_second]
      rfl
    · simp [Options.withDefaults, Options.followedBy]
    · simp [Options.withDefaults, Options.followedBy]
  · exact Options.ofArguments_append_eq_error_iff asks
  · rw [run_of_unread ((Options.ofArguments_append_eq_error_iff asks).mpr unread)]
    simp [Outcome.output]
  · rw [asks.ofArguments_append, asks.ofArguments_append, Options.ofArguments_attribute]

/-- The value of an attribute is not read as an option although it looks like one, and an
option without a value is refused with the same words behind any arguments. -/
theorem command_lines_compose_behind_value :
    let src : Path := ⟨.relative, ["src"]⟩
    let first := ["--attribute", "--dry-run", "src"]
    Options.ofArguments first = .ok ⟨["--dry-run"], [src], false, true⟩ ∧
    (∃ whole, Options.ofArguments (first ++ ["--attribute=A=B", "--dry-run"]) = .ok whole ∧
      whole.attributes = ["--dry-run", "A=B"] ∧ whole.withDefaults.paths = [src] ∧
      whole.dryRun = true) ∧
    Options.ofArguments (first ++ ["--attribute"]) = .error .missingValue ∧
    Options.ofArguments (first ++ ["--attribute", "--x=", "y"]) =
      Options.ofArguments (first ++ ["--attribute=--x=", "y"]) := by
  intro src first
  have read : Options.ofArguments first = .ok ⟨["--dry-run"], [src], false, true⟩ := rfl
  have more : Options.ofArguments ["--attribute=A=B", "--dry-run"] =
      .ok ⟨["A=B"], [], true, true⟩ := rfl
  have dangling : Options.ofArguments ["--attribute"] = .error .missingValue := rfl
  obtain ⟨whole, together, attributes, paths, dry, -, -, defaults, -⟩ :=
    (command_lines_compose read ["--attribute=A=B", "--dry-run"]).1 _ more
  have refused := ((command_lines_compose read ["--attribute"]).2.1 _).mpr dangling
  have respelled := (command_lines_compose read ["y"]).2.2.2 "--x="
  exact ⟨read, ⟨whole, together, attributes, defaults.trans paths, dry⟩, refused, respelled⟩

end AttributeLists.Command
