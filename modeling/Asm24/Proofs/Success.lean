import Mathlib.Data.List.Forall2

/-!
# Computations that succeed

The passes of the assembler are computations that end with a value or a cause.
This module says once when a composite computation ends with a value, so that
later proofs take a pass apart into the steps that it is made of and never
unfold the composition itself.
-/

namespace Asm24.Proofs

variable {cause value result : Type}

/--
A sequence of two computations succeeds if both do, the second on the value of
the first.
-/
theorem bind_eq_ok_iff
    {first : Except cause value} {second : value → Except cause result}
    {final : result} :
    (first >>= second) = .ok final ↔
      ∃ middle, first = .ok middle ∧ second middle = .ok final := by
  cases first with
  | error => simp [bind, Except.bind]
  | ok middle => simp [bind, Except.bind]

@[simp]
theorem pure_eq_ok_iff {given final : result} :
    (pure given : Except cause result) = .ok final ↔ given = final := by
  simp [pure, Except.pure]

/-- A computation behind a check that has no value. -/
theorem check_eq_ok_iff
    {check : Except cause Unit} {rest : Unit → Except cause result}
    {final : result} :
    (check >>= rest) = .ok final ↔ check = .ok () ∧ rest () = .ok final := by
  rw [bind_eq_ok_iff]
  constructor
  · rintro ⟨⟨⟩, checked, finished⟩
    exact ⟨checked, finished⟩
  · rintro ⟨checked, finished⟩
    exact ⟨(), checked, finished⟩

/--
A computation behind a check succeeds if the check is passed and the computation
succeeds.
-/
theorem guard_eq_ok_iff
    {condition : Prop} [Decidable condition] {failure : cause}
    {skipped : value → Except cause result} {rest : Except cause result}
    {final : result} :
    (if condition then (.error failure >>= skipped) else rest) = .ok final ↔
      ¬ condition ∧ rest = .ok final := by
  by_cases holds : condition
  · simp [holds, bind_eq_ok_iff]
  · simp [holds]

/-- A check that is made under a condition only. -/
theorem conditional_eq_ok_iff
    {condition : Prop} [Decidable condition] {check : Except cause Unit}
    {rest : Unit → Except cause result} {final : result} :
    (if condition then (check >>= rest) else rest ()) = .ok final ↔
      (condition → check = .ok ()) ∧ rest () = .ok final := by
  by_cases holds : condition
  · simp [holds, check_eq_ok_iff]
  · simp [holds]

/-- A traversal succeeds if each of its steps does. -/
theorem mapM_eq_ok_iff {step : value → Except cause result}
    {values : List value} {results : List result} :
    values.mapM step = .ok results ↔ values.map step = results.map .ok := by
  induction values generalizing results with
  | nil => cases results <;> simp
  | cons first rest ih =>
      rw [List.mapM_cons, bind_eq_ok_iff]
      constructor
      · rintro ⟨head, stepped, others⟩
        obtain ⟨tail, traversed, same⟩ := bind_eq_ok_iff.mp others
        cases same
        simp [stepped, ih.mp traversed]
      · intro same
        cases results with
        | nil => simp at same
        | cons head tail =>
            simp only [List.map_cons, List.cons.injEq] at same
            exact ⟨head, same.1, bind_eq_ok_iff.mpr ⟨tail, ih.mpr same.2, rfl⟩⟩

/-- The steps of a traversal have results exactly if each has one. -/
theorem exists_map_eq_ok_iff {step : value → Except cause result}
    {values : List value} :
    (∃ results : List result, values.map step = results.map .ok) ↔
      ∀ value ∈ values, ∃ result, step value = .ok result := by
  induction values with
  | nil => exact ⟨by simp, fun _ => ⟨[], rfl⟩⟩
  | cons first rest ih =>
      rw [List.forall_mem_cons, ← ih]
      constructor
      · rintro ⟨results, same⟩
        cases results with
        | nil => simp at same
        | cons head tail =>
            simp only [List.map_cons, List.cons.injEq] at same
            exact ⟨⟨head, same.1⟩, tail, same.2⟩
      · rintro ⟨⟨head, stepped⟩, tail, traversed⟩
        exact ⟨head :: tail, by simp [stepped, traversed]⟩

/--
What is at an index after a traversal is the result of what was there before.
-/
theorem step_of_getElem? {step : value → Except cause result}
    {values : List value} {results : List result}
    (traversed : values.map step = results.map .ok) {index : Nat}
    {given : value} (found : values[index]? = some given) :
    ∃ final, results[index]? = some final ∧ step given = .ok final := by
  have stepped : (results.map (.ok : result → Except cause result))[index]? =
      some (step given) := by
    rw [← traversed, List.getElem?_map, found]
    rfl
  rw [List.getElem?_map, Option.map_eq_some_iff] at stepped
  obtain ⟨final, there, same⟩ := stepped
  exact ⟨final, there, same.symm⟩

/--
A traversal of changed values succeeds if each step does after the change.
-/
theorem map_eq_ok_of_step {other final : Type}
    {step : value → Except cause result}
    {stepAfter : other → Except cause final} {before : value → other}
    {after : result → final} {values : List value} {results : List result}
    (traversed : values.map step = results.map .ok)
    (steps : ∀ value ∈ values, ∀ result, step value = .ok result →
      stepAfter (before value) = .ok (after result)) :
    (values.map before).map stepAfter = (results.map after).map .ok := by
  induction values generalizing results with
  | nil =>
      cases results with
      | nil => rfl
      | cons => simp at traversed
  | cons first rest ih =>
      cases results with
      | nil => simp at traversed
      | cons head tail =>
          simp only [List.map_cons, List.cons.injEq] at traversed
          rcases List.forall_mem_cons.mp steps with ⟨stepFirst, stepRest⟩
          rw [List.map_cons, List.map_cons, List.map_cons, List.map_cons,
            stepFirst head traversed.1, ih traversed.2 stepRest]

/--
Each value of a list that is related to another list is related to some value.
-/
theorem exists_related {left right : Type} {related : left → right → Prop}
    {lefts : List left} {rights : List right}
    (all : List.Forall₂ related lefts rights) :
    ∀ value ∈ lefts, ∃ other, related value other := by
  induction all with
  | nil => simp
  | cons first rest ih => exact List.forall_mem_cons.mpr ⟨⟨_, first⟩, ih⟩

end Asm24.Proofs
