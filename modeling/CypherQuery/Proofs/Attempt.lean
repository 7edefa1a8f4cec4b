import Mathlib.Data.List.Forall2

/-! # Attempts

What is known of an attempt that is made in steps, by `>>=`, or of the attempts that are made for
the items of a list, by `mapM`. Two attempts that look alike from outside (`Except.map` of some view
is the same) fail with the same error, or come to results that look alike. -/

namespace CypherQuery.Attempt

variable {ε α β γ δ : Type}

/-- The attempt `first >>= second` succeeds if `first` does and leads to a success of `second`. -/
theorem bind_eq_ok {first : Except ε α} {second : α → Except ε β} {result : β} :
    (first >>= second) = .ok result ↔ ∃ found, first = .ok found ∧ second found = .ok result := by
  rcases first with failure | found
  · constructor
    · rintro ⟨⟩
    · rintro ⟨found, ⟨⟩, -⟩
  · constructor
    · exact fun whole => ⟨found, rfl, whole⟩
    · rintro ⟨found, ⟨⟩, whole⟩
      exact whole

/-- The attempt `first >>= second` fails if `first` does, or leads to a failure of `second`. -/
theorem bind_eq_error {first : Except ε α} {second : α → Except ε β} {failure : ε} :
    (first >>= second) = .error failure ↔
      first = .error failure ∨ ∃ found, first = .ok found ∧ second found = .error failure := by
  rcases first with other | found
  · constructor
    · rintro ⟨⟩
      exact .inl rfl
    · rintro (⟨⟨⟩⟩ | ⟨found, ⟨⟩, -⟩)
      rfl
  · constructor
    · exact fun whole => .inr ⟨found, rfl, whole⟩
    · rintro (⟨⟨⟩⟩ | ⟨found, ⟨⟩, whole⟩)
      exact whole

/-- A `pure` attempt has its own result and none other. -/
theorem pure_eq_ok {found result : α} : (pure found : Except ε α) = .ok result ↔ found = result :=
  Except.ok.injEq found result ▸ Iff.rfl

/-- An attempt for each item, by `mapM`, succeeds exactly if all of them do, each with its
result. -/
theorem mapM_eq_ok {attempt : α → Except ε β} {items : List α} {results : List β} :
    items.mapM attempt = .ok results ↔
      List.Forall₂ (fun item result => attempt item = .ok result) items results := by
  induction items generalizing results with
  | nil => rw [List.mapM_nil, List.forall₂_nil_left_iff, pure_eq_ok, eq_comm]
  | cons item rest ih =>
      rw [List.mapM_cons, List.forall₂_cons_left_iff, bind_eq_ok]
      constructor
      · rintro ⟨result, first, later⟩
        obtain ⟨others, found, same⟩ := bind_eq_ok.mp later
        exact ⟨result, others, first, ih.mp found, (pure_eq_ok.mp same).symm⟩
      · rintro ⟨result, others, first, found, rfl⟩
        exact ⟨result, first, bind_eq_ok.mpr ⟨others, ih.mpr found, rfl⟩⟩

/-- Every result of `items.mapM attempt` is the result for some item. -/
theorem exists_of_mem_mapM {attempt : α → Except ε β} {items : List α} {results : List β}
    (made : items.mapM attempt = .ok results) {result : β} (mem : result ∈ results) :
    ∃ item ∈ items, attempt item = .ok result := by
  have each := mapM_eq_ok.mp made
  clear made
  induction each with
  | nil => cases mem
  | cons first _ ih =>
      rcases List.mem_cons.mp mem with rfl | later
      · exact ⟨_, List.mem_cons_self, first⟩
      · obtain ⟨item, among, same⟩ := ih later
        exact ⟨item, List.mem_cons_of_mem _ among, same⟩

/-! ## What is seen of attempts -/

/-- The steps `first >>= second` look like `other >>= third` if the first ones look alike, and the
second ones do behind results that look alike. -/
theorem map_bind_eq {view : α → γ} {outlook : β → δ} {first other : Except ε α}
    {second third : α → Except ε β} (same : first.map view = other.map view)
    (later : ∀ found twin, view found = view twin →
      (second found).map outlook = (third twin).map outlook) :
    (first >>= second).map outlook = (other >>= third).map outlook := by
  rcases first with failure | found <;> rcases other with failure' | twin
  · cases same
    rfl
  · cases same
  · cases same
  · exact later found twin (Except.ok.inj same)

/-- What is seen of `first >>= second` depends on what is seen of `second`. -/
theorem map_bind_congr {outlook : β → δ} {first : Except ε α} {second third : α → Except ε β}
    (later : ∀ found, (second found).map outlook = (third found).map outlook) :
    (first >>= second).map outlook = (first >>= third).map outlook := by
  rcases first with failure | found
  · rfl
  · exact later found

/-- Attempts that look alike still do when their errors are read in another way, by `mapError`. -/
theorem map_mapError_eq {view : α → γ} {first other : Except ε α} (read : ε → β)
    (same : first.map view = other.map view) :
    (first.mapError read).map view = (other.mapError read).map view := by
  rcases first with failure | found <;> rcases other with failure' | twin
  · cases same
    rfl
  · cases same
  · cases same
  · exact congrArg Except.ok (Except.ok.inj same)

end CypherQuery.Attempt
