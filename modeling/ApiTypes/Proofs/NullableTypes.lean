import ApiTypes.Proofs.Annotations
import ApiTypes.Proofs.NormalNodes

/-!
# Nullable types

`nullable` passes normalizing by and leaves the kind of a schema as it is, but for the
text that a diagnostic quotes.  So it does one thing to the type that is written: it wraps
it once, on the outside.  Where nothing can be written, it changes nothing but that text.
-/

namespace ApiTypes

namespace Schema

def withNullable (s : Schema) (n : Option Bool) : Schema := { s with nullable := n }

theorem settle_withNullable (s : Schema) (n : Option Bool) :
    (s.withNullable n).settle = s.settle.withNullable n := by
  have hcomposites : (s.withNullable n).composites = s.composites := rfl
  have htype : (s.withNullable n).hasTypeKeyword = s.hasTypeKeyword := rfl
  rw [settle, settle, hcomposites, htype]
  split
  · -- a member is appended wherever `nullable` stands beside it
    obtain ⟨r, allOf, anyOf, oneOf, t, i, p, q, e, m, x⟩ := s
    cases allOf <;> cases anyOf <;> cases oneOf <;> rfl
  · rfl

theorem normalize_withNullable (s : Schema) (n : Option Bool) :
    (s.withNullable n).normalize = s.normalize.withNullable n := by
  have hchildren : (s.withNullable n).withNormalChildren =
      s.withNormalChildren.withNullable n := rfl
  rw [normalize_eq_settle, normalize_eq_settle, hchildren, settle_withNullable]

/-- The kind of a schema, up to the text that it quotes, does not depend on `nullable`. -/
theorem nodeShape_withNullable (s : Schema) (n : Option Bool) :
    ∃ k k' : Kind, s.nodeShape = .mk k s.isNullable ∧
      (s.withNullable n).nodeShape = .mk k' (n.getD false) ∧ k'.outline = k.outline := by
  obtain ⟨r, allOf, anyOf, oneOf, t, i, p, q, e, m, x⟩ := s
  have hcomposites : (mk r allOf anyOf oneOf t i p q e n x).composites =
      (mk r allOf anyOf oneOf t i p q e m x).composites := rfl
  have hvariant : (mk r allOf anyOf oneOf t i p q e n x).variant =
      (mk r allOf anyOf oneOf t i p q e m x).variant := rfl
  refine ⟨_, _, by rw [nodeShape], by rw [withNullable, nodeShape, isNullable], ?_⟩
  simp only [compositeNames, hcomposites, hvariant]
  split
  · simp only [Kind.outline]
  · generalize variant _ = v
    cases v with
    | array => cases i <;> simp only [optionShape, Kind.outline]
    | _ => simp only [Kind.outline]

theorem shape_withNullable {s : Schema} (h : s.nullable ≠ some true) :
    ∃ k k' : Kind, s.shape = .mk k false ∧ (s.withNullable (some true)).shape = .mk k' true ∧
      k'.outline = k.outline := by
  obtain ⟨k, k', hk, hk', houtline⟩ := nodeShape_withNullable s.normalize (some true)
  have hplain : s.normalize.isNullable = false := by
    rw [isNullable, (sameFrame_normalize s).nullable]
    cases hn : s.nullable with
    | none => rfl
    | some b => simpa [hn] using h
  rw [hplain] at hk
  refine ⟨k, k', hk, ?_, houtline⟩
  rw [shape, normalize_withNullable, hk']
  rfl

end Schema

/-! ### Failures at one node -/

namespace Shape

def failure? (strict : Bool) (s : Shape) : Option (List Nat × GenerationError) :=
  firstFailure strict s.sites

theorem firstFault_nodes (strict : Bool) (s : Shape) :
    firstFault strict s.nodes = (s.failure? strict).map Prod.snd := by
  rw [← map_snd_sites]
  exact firstFault_map_snd strict s.sites

/-- Failures of the same kind at the same node of two shapes.  Only the text that a failure
quotes may differ. -/
inductive FailAlike (strict : Bool) (s s' : Shape) : GenerationError → GenerationError → Prop
  | type {path : List Nat} {source other : String}
    (h : s.failure? strict = some (path, .invalidType source))
    (h' : s'.failure? strict = some (path, .invalidType other)) :
    FailAlike strict s s' (.invalidType source) (.invalidType other)
  | composites {path : List Nat} {keywords source other : String}
    (h : s.failure? strict = some (path, .conflictingComposites keywords source))
    (h' : s'.failure? strict = some (path, .conflictingComposites keywords other)) :
    FailAlike strict s s' (.conflictingComposites keywords source)
      (.conflictingComposites keywords other)

theorem FailAlike.symm {strict : Bool} {s s' : Shape} {e e' : GenerationError}
    (h : FailAlike strict s s' e e') : FailAlike strict s' s e' e := by
  cases h with
  | type h h' => exact .type h' h
  | composites h h' => exact .composites h' h

theorem exists_failAlike {strict : Bool} {s s' : Shape} {e : GenerationError}
    (hsites : s'.sites.map outlineSite = s.sites.map outlineSite)
    (h : firstFault strict s.nodes = some e) :
    ∃ e', firstFault strict s'.nodes = some e' ∧ FailAlike strict s s' e e' := by
  rw [firstFault_nodes] at h ⊢
  obtain ⟨⟨path, e⟩, hfailure, rfl⟩ := Option.map_eq_some_iff.mp h
  rcases firstFailure_alike hsites hfailure with
    ⟨source, other, rfl, hother⟩ | ⟨keywords, source, other, rfl, hother⟩
  · exact ⟨_, by rw [failure?, hother]; rfl, .type hfailure hother⟩
  · exact ⟨_, by rw [failure?, hother]; rfl, .composites hfailure hother⟩

end Shape

/-! ### The wrapped type -/

theorem Target.nullable_injective {t : Target} (ht : t ∈ [Target.typeScript, .flow, .codec])
    {type other : String} (h : t.nullable type = t.nullable other) : type = other := by
  simp only [List.mem_cons, List.not_mem_nil, or_false] at ht
  rcases ht with rfl | rfl | rfl
  · have hopen : "(" ++ type = "(" ++ other := (String.append_left_inj "|null)").mp h
    exact (String.append_right_inj "(").mp hopen
  · exact (String.append_right_inj "?").mp h
  · have hopen : "t.union([" ++ type = "t.union([" ++ other :=
      (String.append_left_inj ",t.null])").mp h
    exact (String.append_right_inj "t.union([").mp hopen

namespace TypeWriter

/-- A schema that is made nullable is written as before, with the type wrapped once on the
outside.  If it cannot be written it could not before, because of the same node: the nodes
of both shapes have the same paths and differ at most in the texts they quote. -/
theorem nullable_wraps_outside {t : Target} (ht : t ∈ [Target.typeScript, .flow, .codec])
    (strict : Bool) {s : Schema} (hs : s.nullable ≠ some true) :
    let w : TypeWriter := ⟨t, strict⟩
    let s' : Schema := { s with nullable := some true }
    s'.shape.sites.map outlineSite = s.shape.sites.map outlineSite ∧
    (∀ type, w.shape s.shape = .ok type ↔ w.shape s'.shape = .ok (t.nullable type)) ∧
    (∀ e, w.shape s.shape = .error e →
      ∃ e', w.shape s'.shape = .error e' ∧ Shape.FailAlike strict s.shape s'.shape e e') ∧
    (∀ e', w.shape s'.shape = .error e' →
      ∃ e, w.shape s.shape = .error e ∧ Shape.FailAlike strict s.shape s'.shape e e') := by
  intro w s'
  obtain ⟨k, k', hk, hk', houtline⟩ := Schema.shape_withNullable hs
  have hs' : s'.shape = .mk k' true := hk'
  have hsites : s'.shape.sites.map outlineSite = s.shape.sites.map outlineSite := by
    rw [← Shape.sites_outline, ← Shape.sites_outline, hk, hs', Shape.outline, Shape.outline,
      houtline, Shape.sites, Shape.sites]
  have hwritten : t.written s'.shape = t.nullable (t.written s.shape) := by
    rw [hk, hs', Target.written, Target.written, if_pos rfl, if_neg Bool.false_ne_true,
      ← Target.writtenKind_outline, houtline, Target.writtenKind_outline]
  have hforth : ∀ e, firstFault strict s.shape.nodes = some e →
      ∃ e', firstFault strict s'.shape.nodes = some e' ∧
        Shape.FailAlike strict s.shape s'.shape e e' :=
    fun e he => Shape.exists_failAlike hsites he
  have hback : ∀ e', firstFault strict s'.shape.nodes = some e' →
      ∃ e, firstFault strict s.shape.nodes = some e ∧
        Shape.FailAlike strict s'.shape s.shape e' e :=
    fun e' he' => Shape.exists_failAlike hsites.symm he'
  have hfaultless : firstFault strict s.shape.nodes = none ↔
      firstFault strict s'.shape.nodes = none := by
    simp only [Option.eq_none_iff_forall_ne_some]
    constructor
    · intro h e' he'
      obtain ⟨e, he, -⟩ := hback e' he'
      exact h e he
    · intro h e he
      obtain ⟨e', he', -⟩ := hforth e he
      exact h e' he'
  simp only [w, shape_eq, hwritten, unlessFault_eq_ok_iff, unlessFault_eq_error_iff]
  refine ⟨hsites, ?_, hforth, ?_⟩
  · intro type
    rw [hfaultless]
    refine and_congr_right fun _ => ⟨congrArg t.nullable, ?_⟩
    exact Target.nullable_injective ht
  · intro e' he'
    obtain ⟨e, he, halike⟩ := hback e' he'
    exact ⟨e, he, halike.symm⟩

/-- The type of a composite with moved siblings, one of its members unknown, is wrapped. -/
theorem nullable_wraps_outside_moved :
    let s : Schema := { oneOf := some [{ type := some "mystery" }],
                        items := some { type := some "string", nullable := some true },
                        nullable := some false }
    let w : TypeWriter := ⟨.codec, false⟩
    s.nullable ≠ some true ∧
      w.shape ({ s with nullable := some true } : Schema).shape = .ok
        "t.union([t.union([t.unknown,t.array(t.union([t.string,t.null]))]),t.null])" := by
  intro s w
  have hs : s.nullable ≠ some true := by decide
  have hplain : w.shape s.shape =
      .ok "t.union([t.unknown,t.array(t.union([t.string,t.null]))])" := by decide +kernel
  have hcodec : Target.codec ∈ [Target.typeScript, .flow, .codec] := by simp
  obtain ⟨-, hwrapped, -⟩ := nullable_wraps_outside hcodec false hs
  exact ⟨hs, (hwrapped _).mp hplain⟩

end TypeWriter

end ApiTypes
