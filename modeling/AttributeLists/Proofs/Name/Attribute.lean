/-
# Lists of attribute names

Texts are accepted together as attribute names if each of them is one. Otherwise the first
one that is none is refused, whatever comes after it.
-/

import AttributeLists.Name.Attribute

namespace AttributeLists.AttributeName

variable {given : Text} {rest attributes : List Text}

theorem ofText_text (name : AttributeName) : ofText name.text = .ok name :=
  dif_pos name.valid

theorem mapM_ofText_cons_of_accepted (name : AttributeName) (rest : List Text) :
    (name.text :: rest).mapM ofText = (rest.mapM ofText).map (name :: ·) := by
  rw [List.mapM_cons, ofText_text]
  cases rest.mapM ofText <;> rfl

theorem mapM_ofText_cons_of_refused (refused : ¬ isAttributeName given = true) (rest : List Text) :
    (given :: rest).mapM ofText = .error ⟨.text given⟩ := by
  rw [List.mapM_cons, ofText, dif_neg refused]
  rfl

theorem mapM_ofText_map_text (names : List AttributeName) :
    (names.map text).mapM ofText = .ok names := by
  induction names with
  | nil => rfl
  | cons name names ih => rw [List.map_cons, mapM_ofText_cons_of_accepted, ih, Except.map]

theorem mapM_ofText_eq_ok_iff {names : List AttributeName} :
    attributes.mapM ofText = .ok names ↔ names.map text = attributes := by
  constructor
  · intro all
    induction attributes generalizing names with
    | nil =>
        obtain rfl : [] = names := Except.ok.inj all
        rfl
    | cons given rest ih =>
        by_cases valid : isAttributeName given = true
        · rw [mapM_ofText_cons_of_accepted ⟨given, valid⟩] at all
          cases others : rest.mapM ofText with
          | error cause => simp [others, Except.map] at all
          | ok more =>
              rw [others] at all
              obtain rfl := Except.ok.inj all
              rw [List.map_cons, ih others]
        · simp [mapM_ofText_cons_of_refused valid] at all
  · rintro rfl
    exact mapM_ofText_map_text names

theorem mapM_ofText_eq_error_iff {cause : InvalidName} :
    attributes.mapM ofText = .error cause ↔
      ∃ refused, attributes.find? (!isAttributeName ·) = some refused ∧
        cause = ⟨.text refused⟩ := by
  induction attributes with
  | nil => simp [List.mapM_nil, pure, Except.pure]
  | cons given rest ih =>
      by_cases valid : isAttributeName given = true
      · have accepted := mapM_ofText_cons_of_accepted ⟨given, valid⟩ rest
        have later : (given :: rest).find? (!isAttributeName ·) =
            rest.find? (!isAttributeName ·) := List.find?_cons_of_neg (by simp [valid])
        rw [accepted, later, ← ih]
        cases rest.mapM ofText <;> simp [Except.map]
      · have first : (given :: rest).find? (!isAttributeName ·) = some given :=
          List.find?_cons_of_pos (by simp [valid])
        rw [mapM_ofText_cons_of_refused valid, first]
        simp [eq_comm]

theorem exists_mapM_ofText_eq_ok_iff :
    (∃ names, attributes.mapM ofText = .ok names) ↔
      ∀ given ∈ attributes, isAttributeName given = true := by
  cases checked : attributes.mapM ofText with
  | error cause =>
      obtain ⟨refused, first, -⟩ := mapM_ofText_eq_error_iff.mp checked
      have invalid : isAttributeName refused = false := by
        simpa using List.find?_some first
      constructor
      · rintro ⟨names, impossible⟩
        contradiction
      · intro valid
        have accepted := valid refused (List.mem_of_find?_eq_some first)
        rw [invalid] at accepted
        contradiction
  | ok names =>
      obtain rfl := mapM_ofText_eq_ok_iff.mp checked
      refine ⟨fun _ given inside => ?_, fun _ => ⟨names, rfl⟩⟩
      obtain ⟨name, -, rfl⟩ := List.mem_map.mp inside
      exact name.valid

end AttributeLists.AttributeName
