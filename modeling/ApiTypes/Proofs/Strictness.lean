import ApiTypes.Proofs.Generation

/-!
# Strict and lenient generation

A strict run stops at the first faulty node, a lenient one passes the nodes without a
known type and stops at the first with several composite keywords.  So the two runs part
only at a node without a known type: up to there they are the same run, and behind it
the lenient one ends well or meets a conflict.
-/

namespace ApiTypes

/-! ### The walk over nodes -/

theorem firstFault_cons (strict : Bool) (k : Kind) (rest : List Kind) :
    firstFault strict (k :: rest) = (k.fault? strict).or (firstFault strict rest) := by
  simp only [firstFault, List.findSome?_cons]
  cases k.fault? strict <;> rfl

-- the two runs stop at a node alike, pass it alike, or it has no known type
theorem Kind.fault?_strict_cases (k : Kind) :
    k.fault? true = k.fault? false ∨ ∃ source, k = .unrecognized source := by
  cases k with
  | unrecognized source => exact .inr ⟨source, rfl⟩
  | _ => exact .inl rfl

/-- Two walks over the same nodes meet the same fault or none, or part at a node without a
known type, where the strict one stops and the lenient one goes on. -/
theorem firstFault_strict_cases (nodes : List Kind) :
    firstFault true nodes = firstFault false nodes ∨
      ∃ before source after, nodes = before ++ .unrecognized source :: after ∧
        firstFault true nodes = some (.invalidType source) ∧
        firstFault false nodes = firstFault false after := by
  induction nodes with
  | nil => exact .inl rfl
  | cons k rest ih =>
    rw [firstFault_cons, firstFault_cons]
    rcases k.fault?_strict_cases with hsame | ⟨source, rfl⟩
    · rw [hsame]
      cases hk : k.fault? false with
      | some e => exact .inl rfl
      | none =>
        simp only [Option.none_or]
        rcases ih with hrest | ⟨before, source, after, rfl, hstrict, hlenient⟩
        · exact .inl hrest
        · exact .inr ⟨k :: before, source, after, rfl, hstrict, hlenient⟩
    · exact .inr ⟨[], source, rest, rfl, rfl, rfl⟩

theorem conflict_of_firstFault {nodes : List Kind} {e : GenerationError}
    (h : firstFault false nodes = some e) :
    ∃ keywords source, e = .conflictingComposites keywords source := by
  obtain ⟨k, -, hk⟩ := List.exists_of_findSome?_eq_some h
  cases k with
  | conflicting keywords source => exact ⟨keywords, source, (Option.some.inj hk).symm⟩
  | _ => cases hk

namespace Document
variable (outputType : OutputType) (document : Json)

/-! ### Two runs on one document -/

/-- The two runs end alike, or the strict one fails at a node without a known type and the
lenient one can fail only at a conflict. -/
theorem generate_strict_cases :
    generate ⟨outputType, true⟩ document = generate ⟨outputType, false⟩ document ∨
      ∃ source, generate ⟨outputType, true⟩ document = .error (.invalidType source) ∧
        ∀ e, generate ⟨outputType, false⟩ document = .error e →
          ∃ keywords other, e = .conflictingComposites keywords other := by
  rw [generate_eq, generate_eq]
  cases checkVersion document with
  | error e => exact .inl rfl
  | ok _ =>
    cases definitions document with
    | error e => exact .inl rfl
    | ok defs =>
      have hrun : ∀ strict e,
          unlessFault (firstFault strict (nodes defs)) (moduleText defs outputType) = .error e ↔
            firstFault strict (nodes defs) = some e :=
        fun strict e => unlessFault_eq_error_iff _ _ e
      rcases firstFault_strict_cases (nodes defs) with hsame | ⟨_, source, _, -, hstrict, -⟩
      · left
        show unlessFault (firstFault true (nodes defs)) _ = unlessFault _ _
        rw [hsame]
      · right
        refine ⟨source, (hrun true _).mpr hstrict, fun e he => ?_⟩
        exact conflict_of_firstFault ((hrun false e).mp he)

theorem lenient_ne_invalidType (source : String) :
    generate ⟨outputType, false⟩ document ≠ .error (.invalidType source) := by
  intro h
  rcases generate_cases ⟨outputType, false⟩ document with
    ⟨-, he⟩ | ⟨-, -, he⟩ | ⟨_, _, -, -, -, he⟩ | ⟨_, named, -, -, -, -, he⟩
  · rw [he] at h
    cases h
  · rw [he] at h
    cases h
  · rw [he] at h
    cases h
  · rw [he, unlessFault_eq_error_iff] at h
    obtain ⟨keywords, other, hconflict⟩ := conflict_of_firstFault h
    cases hconflict

/-- Strictness turns unknown types into failures and changes nothing else: a text of the
strict run is the text of the lenient one, every other failure is met by both, and behind
an unknown type the lenient run succeeds or meets a conflict. -/
theorem strictness_refuses_unknown_types_only :
    (∀ text, generate ⟨outputType, true⟩ document = .ok text →
      generate ⟨outputType, false⟩ document = .ok text) ∧
    (∀ source, generate ⟨outputType, false⟩ document ≠ .error (.invalidType source)) ∧
    (∀ e, generate ⟨outputType, true⟩ document = .error e →
      (∀ source, e ≠ .invalidType source) → generate ⟨outputType, false⟩ document = .error e) ∧
    (∀ source, generate ⟨outputType, true⟩ document = .error (.invalidType source) →
      (∃ text, generate ⟨outputType, false⟩ document = .ok text) ∨
      ∃ keywords other, generate ⟨outputType, false⟩ document =
        .error (.conflictingComposites keywords other)) ∧
    (∀ e, generate ⟨outputType, false⟩ document = .error e →
      ∃ e', generate ⟨outputType, true⟩ document = .error e') := by
  have hlenient := lenient_ne_invalidType outputType document
  rcases generate_strict_cases outputType document with hsame | ⟨source, hstrict, hconflict⟩
  · rw [hsame]
    refine ⟨fun text h => h, hlenient, fun e h _ => h, fun source h => ?_, fun e h => ⟨e, h⟩⟩
    exact absurd h (hlenient source)
  · rw [hstrict]
    refine ⟨?_, hlenient, ?_, ?_, fun e _ => ⟨_, rfl⟩⟩
    · intro text h
      cases h
    · intro e h hother
      exact absurd (Except.error.inj h).symm (hother source)
    · intro _ _
      cases hrun : generate ⟨outputType, false⟩ document with
      | ok text => exact .inl ⟨text, rfl⟩
      | error e =>
        obtain ⟨keywords, other, rfl⟩ := hconflict e hrun
        exact .inr ⟨keywords, other, rfl⟩

/-- An unknown type in one member hides a conflict in the next from the strict run. -/
example :
    let document : Json := .object [("openapi", .string "3.0.0"), ("components", .object [
      ("schemas", .object [("A", .object [("anyOf", .array [.object [("type", .string "x")],
        .object [("allOf", .array []), ("oneOf", .array [])]])])])])]
    generate ⟨.codec, true⟩ document = .error (.invalidType "\x7b\"type\":\"x\"\x7d") ∧
      generate ⟨.codec, false⟩ document = .error (.conflictingComposites "allOf, oneOf"
        "\x7b\"allOf\":[],\"oneOf\":[]\x7d") := ⟨rfl, rfl⟩

end Document

end ApiTypes
