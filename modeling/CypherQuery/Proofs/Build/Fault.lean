import CypherQuery.Proofs.Build.Stage

/-! # The first fault of a built statement

What either builder makes, `Statement.IsBuilt`, has its clauses in order, so that only its content
can keep it from being rendered. The main statement, `rendering_fails_at_first_fault`, is that a
built statement is rendered exactly if all its `demands` are met, and that otherwise the first one
that is not, in the order of writing, decides the error under all options. -/

namespace CypherQuery

namespace Draft

/-- A draft that is `projecting` has read something; of the other drafts nothing is asked. -/
def HasRead : Draft → Prop
  | .projecting stage => stage.reading ≠ []
  | .start | .unfiltered _ | .filtered _ => True

/-- No call takes away what has been read: `HasRead` is kept. -/
theorem HasRead.call {draft next : Draft} (read : draft.HasRead) {call : StagedCall}
    (offered : draft.call? call = some next) : next.HasRead := by
  rcases draft with _ | ⟨reading⟩ | ⟨reading⟩ | stage
  case projecting =>
    -- Behind the items of the answer, a call only changes the order and the window of rows.
    rcases call with (_ | _ | _ | _ | items | count | count) | _ | _
    all_goals cases offered
    all_goals exact read
  all_goals
    rcases call with (_ | _ | _ | ⟨distinct, items⟩ | _ | _ | _) | _ | _ <;> cases offered
  case unfiltered.common.returning => exact List.concat_ne_nil _ _
  case filtered.common.returning => exact List.concat_ne_nil _ _
  all_goals exact trivial

/-- No calls, however many, take away what has been read: `HasRead` is kept, by induction on the
sequence. -/
theorem HasRead.calls {draft last : Draft} (read : draft.HasRead) {sequence : List StagedCall}
    (offered : draft.calls? sequence = some last) : last.HasRead := by
  induction sequence generalizing draft with
  | nil =>
      cases offered
      exact read
  | cons call rest ih =>
      rw [calls?, List.foldlM_cons] at offered
      obtain ⟨next, first, others⟩ := Option.bind_eq_some_iff.mp offered
      exact ih (read.call first) others

end Draft

/-- A statement that one of the builders makes of some calls: the conclusion holds for both. -/
inductive Statement.IsBuilt (s : Statement) : Prop where
  /-- The staged builder makes it. -/
  | staged (sequence : List StagedCall) (made : Statement.ofCalls? sequence = some s)
  /-- The checked builder makes it. -/
  | checked (sequence : List BuilderCall) (builder : StatementBuilder)
      (reached : StatementBuilder.new.calls sequence = .ok builder)
      (made : builder.build = .ok s)

/-- What a builder makes are reading clauses, at least one, and a projecting clause whose order, if
there is one, has criteria: `Statement.ofClauses` of these. -/
theorem Statement.IsBuilt.exists_clauses {s : Statement} (built : s.IsBuilt) :
    ∃ (reading : List Match) (returning : Return), s = .ofClauses reading returning ∧
      reading ≠ [] ∧ returning.order ≠ some [] := by
  rcases built with ⟨sequence, made⟩ | ⟨sequence, builder, reached, made⟩
  · obtain ⟨draft, offered, complete⟩ := Option.bind_eq_some_iff.mp made
    have read := Draft.HasRead.calls (show Draft.start.HasRead from trivial) offered
    rcases draft with _ | _ | _ | stage <;> cases complete
    exact ⟨stage.reading, stage.returning.close, rfl, read, stage.returning.order_close_ne⟩
  · have sound : builder.Sound := StatementBuilder.Sound.calls .empty reached
    obtain ⟨reading, returning, same, reads, -, ordered⟩ := sound.exists_of_built made
    exact ⟨reading, returning, same, reads, ordered⟩

/-- A built statement is rendered exactly if all its `demands` are met: its patterns have elements,
its projection has items, its names have characters, its numbers are finite and its counts are not
negative. Otherwise the error is the `Demand.fault` of the first demand, in the order of writing,
that is not met, and no option has a say in it. -/
theorem rendering_fails_at_first_fault {s : Statement} (built : s.IsBuilt) (config : RenderConfig) :
    ((∃ text, Renderer.render ⟨config⟩ s = .ok text) ↔ ∀ demand ∈ s.demands, demand.Met) ∧
    (∀ failure, Renderer.render ⟨config⟩ s = .error failure ↔
      ∃ before demand after, s.demands = before ++ demand :: after ∧ (∀ d ∈ before, d.Met) ∧
        ¬demand.Met ∧ demand.fault = failure) ∧
    ∀ other failure, Renderer.render ⟨config⟩ s = .error failure →
      Renderer.render ⟨other⟩ s = .error failure := by
  obtain ⟨reading, returning, rfl, reads, ordered⟩ := built.exists_clauses
  have hinges (options : RenderConfig) := Renderer.render_hingesOn options reads ordered
  refine ⟨(hinges config).ok_iff, (hinges config).error_iff, fun other failure failed => ?_⟩
  exact ((hinges other).error_iff failure).mpr (((hinges config).error_iff failure).mp failed)

/-- A node with two labels. -/
def labeledTwice : Pattern :=
  .ofNode ((Node.ofLabel "A").labeled "B")

/-- Calls with a condition, a pattern, an answer and a count that cannot be written. -/
def faultyCalls : List StagedCall :=
  [.common (.matching false labeledTwice),
    .common (.filter
      (.comparison .less (.property (.variable "n") "") (.literal (.float .infinity)))),
    .common (.matching true ⟨[]⟩), .common (.returning false []), .common (.skip (-1))]

/-- Of all that is wrong in the statement of `faultyCalls`, the key without characters comes
first. -/
theorem rendering_fails_at_empty_key :
    ∃ s, Statement.ofCalls? faultyCalls = some s ∧
      Renderer.render ⟨.plain⟩ s = .error (.emptyName .property) ∧
      Renderer.render ⟨⟨true, true⟩⟩ s = .error (.emptyName .property) ∧
      ¬∃ text, Renderer.render ⟨.plain⟩ s = .ok text := by
  refine ⟨_, rfl, ?_⟩
  obtain ⟨written, failing, everywhere⟩ :=
    rendering_fails_at_first_fault (.staged faultyCalls rfl) .plain
  have unmet : ¬(Demand.named .property "").Met := fun met => met rfl
  have earlier : ∀ d ∈ [Demand.elements labeledTwice, .named .label "A", .named .label "B",
      .named .variable "n"], d.Met := by
    simp [Demand.Met, labeledTwice, Pattern.ofNode, Pattern.ofElement]
  have first := (failing (.emptyName .property)).mpr
    ⟨_, .named .property "", _, rfl, earlier, unmet, rfl⟩
  exact ⟨first, everywhere _ _ first, fun success =>
    unmet (written.mp success _ (List.mem_append_right [_, _, _, _] List.mem_cons_self))⟩

end CypherQuery
