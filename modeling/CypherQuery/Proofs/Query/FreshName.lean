import CypherQuery.Proofs.Number.Distinctness
import CypherQuery.Query.Parameters
import Mathlib.Data.List.Nodup
import Mathlib.Data.List.Perm.Subperm

/-! # Fresh names

A fresh name is found among as many candidates as there are names in use, and one more. The
candidates differ from each other (`candidate_injective`), and so one of them is free
(`exists_free`). The main statement, `freshName_spec`, is that the first free candidate is the one
that is taken. -/

namespace CypherQuery.Parameters

/-- Different numbers make different names: `candidate base` is injective. -/
theorem candidate_injective (base : String) : Function.Injective (candidate base) := by
  intro m n same
  -- A number is written behind the base name, which is shorter.
  have longer (k : Nat) : candidate base (k + 1) ≠ base := by
    intro same
    have lengths := congrArg (·.toList.length) same
    simp [candidate] at lengths
  rcases m with _ | m <;> rcases n with _ | n
  · rfl
  · exact absurd same.symm (longer n)
  · exact absurd same (longer m)
  · rw [candidate, candidate, String.ofList_inj] at same
    have numbers := List.append_cancel_left same
    exact digits_injective (List.cons.inj numbers).2

/-- Among one more `candidate` than there are names in use, one is free. -/
theorem exists_free (parameters : Parameters) (base : String) :
    ∃ n ≤ parameters.size, parameters.contains (candidate base n) = false := by
  by_contra none
  have used (n : Nat) (small : n ≤ parameters.size) :
      parameters.contains (candidate base n) = true := by
    rw [← Bool.not_eq_false]
    exact fun free => none ⟨n, small, free⟩
  have candidates : ((List.range (parameters.size + 1)).map (candidate base)).Nodup :=
    List.Nodup.map (candidate_injective base) List.nodup_range
  have bound : (List.range (parameters.size + 1)).map (candidate base) ⊆ parameters.names := by
    intro name mem
    obtain ⟨n, small, rfl⟩ := List.mem_map.mp mem
    exact Dictionary.mem_names_iff.mpr (used n (Nat.lt_succ_iff.mp (List.mem_range.mp small)))
  have more := (List.subperm_of_subset candidates bound).length_le
  rw [List.length_map, List.length_range, Dictionary.names, List.length_map] at more
  exact absurd more (Nat.not_succ_le_self _)

/-- The search `firstFree` stops at a free candidate, or behind as many as it tries. -/
theorem firstFree_spec (parameters : Parameters) (base : String) (tries number : Nat) :
    ∃ n ≤ tries, firstFree parameters base tries number = candidate base (number + n) ∧
      (∀ m < n, parameters.contains (candidate base (number + m)) = true) ∧
      (parameters.contains (candidate base (number + n)) = false ∨ n = tries) := by
  induction tries generalizing number with
  | zero => exact ⟨0, Nat.le_refl 0, rfl, by simp, .inr rfl⟩
  | succ tries ih =>
      rw [firstFree]
      by_cases used : parameters.contains (candidate base number) = true
      · obtain ⟨n, small, same, earlier, last⟩ := ih (number + 1)
        rw [Nat.succ_add_eq_add_succ] at same last
        refine ⟨n + 1, Nat.succ_le_succ small, (if_pos used).trans same, ?_,
          last.imp_right (congrArg (· + 1))⟩
        rintro (_ | m) before
        · exact used
        · rw [← Nat.succ_add_eq_add_succ]
          exact earlier m (Nat.lt_of_succ_lt_succ before)
      · exact ⟨0, Nat.zero_le _, if_neg used, by simp, .inl (Bool.eq_false_iff.mpr used)⟩

/-- The `freshName` of a preferred name is the first `candidate` of its `baseName` that is free. -/
theorem freshName_spec (parameters : Parameters) (preferred : String) :
    ∃ n, parameters.freshName preferred = candidate (baseName preferred) n ∧
      parameters.contains (candidate (baseName preferred) n) = false ∧
      ∀ m < n, parameters.contains (candidate (baseName preferred) m) = true := by
  obtain ⟨n, small, same, earlier, last⟩ :=
    parameters.firstFree_spec (baseName preferred) parameters.size 0
  simp only [Nat.zero_add] at same earlier last
  refine ⟨n, same, ?_, earlier⟩
  rcases last with free | rfl
  · exact free
  · obtain ⟨k, within, free⟩ := parameters.exists_free (baseName preferred)
    rcases Nat.lt_or_eq_of_le within with before | rfl
    · rw [earlier k before] at free
      cases free
    · exact free

/-- Nothing is bound to a `freshName`. -/
theorem get?_freshName (parameters : Parameters) (preferred : String) :
    parameters.get? (parameters.freshName preferred) = none := by
  obtain ⟨n, same, free, -⟩ := parameters.freshName_spec preferred
  rw [same]
  exact Option.not_isSome_iff_eq_none.mp (Bool.eq_false_iff.mp free)

/-- Which name is fresh depends on the `names` in use, and not on the values. -/
theorem freshName_eq_of_names {parameters others : Parameters}
    (same : parameters.names = others.names) (preferred : String) :
    parameters.freshName preferred = others.freshName preferred := by
  have sizes : parameters.size = others.size := by
    rw [Dictionary.size, ← List.length_map (·.1), ← Dictionary.names, same, Dictionary.names,
      List.length_map, Dictionary.size]
  rw [freshName, freshName, sizes]
  generalize others.size = tries
  generalize 0 = number
  induction tries generalizing number with
  | zero => rfl
  | succ tries ih => rw [firstFree, firstFree, Dictionary.contains_eq_of_names same, ih]

end CypherQuery.Parameters
