import ApiTypes.Proofs.CompactText
import ApiTypes.Proofs.TidySchemas

/-!
# Printed schemas

A schema that was decoded from a value without fractions is read back from the text
that is printed for it, and so is its normal form.
-/

namespace ApiTypes

theorem Json.structural_integral : Json.Structural Json.Integral where
  toHereditary := hereditary_integral
  bool _ := fun _ hn => absurd hn List.not_mem_nil
  string _ := fun _ hn => absurd hn List.not_mem_nil
  array _ h := fun n hn => by
    obtain ⟨item, hitem, hn⟩ := mem_itemsNumbers_iff.mp hn
    exact h item hitem n hn
  object _ _ h := fun n hn => by
    obtain ⟨member, hmember, hn⟩ := mem_membersNumbers_iff.mp hn
    exact h member hmember n hn

namespace Schema

/-- A tidy schema is read back from its text if this is not nested too deeply. -/
theorem Tidy.onText_text {s : Schema} (hdistinct : s.Tidy Json.Distinct)
    (hnumbers : s.Tidy Json.Integral) (hdepth : s.toJson.depth ≤ Json.nestingLimit) :
    Decoder.onText decode s.text = .ok s := by
  have hkeys := hdistinct.toJson Json.structural_distinct
  have hintegral := hnumbers.toJson Json.structural_integral
  have hagree := agree_of_readsAlike (Json.parse_compact hkeys hintegral hdepth)
    (Json.repeatsNoKey_compact hkeys hintegral hdepth) readsAlike_decode
  exact (hagree.result s).mpr hdistinct.decode_toJson

/-- The text of a decoded schema, or of its normal form, is decoded to the same schema. -/
theorem onText_text_of_decode {value : Json} (hvalue : value.Distinct)
    (hnumbers : value.Integral) {r n : Schema} (hr : Decoder.onValue decode value = .ok r)
    (hn : n = r ∨ n = r.normalize) (hdepth : n.toJson.depth ≤ Json.nestingLimit) :
    Decoder.onText decode n.text = .ok n := by
  have hdistinct := tidy_of_decode Json.hereditary_distinct value hvalue hvalue r hr
  have hintegral := tidy_of_decode Json.hereditary_integral value hvalue hnumbers r hr
  rcases hn with rfl | rfl
  · exact hdistinct.onText_text hintegral hdepth
  · exact hdistinct.normalize.onText_text hintegral.normalize hdepth

/-- A mixed schema whose strings need escapes, with nulls and the largest integers. -/
def escaped : Json :=
  .object [
    ("enum", .array [.null, .string "\"\\/\x00\x1f\x7f\n",
      .number (.integer 18446744073709551615)]),
    ("x-\tü€😀", .array [.number (.integer (-9223372036854775808)),
      .object [("", .bool false)], .null]),
    ("oneOf", .array [.object [("properties", .object [("b", .object []),
      ("a\"", .object [("$ref", .string "\x08\x0c\r")])]), ("required", .array [.string "a\""])]])]

theorem onText_text_of_escaped :
    escaped.Distinct ∧ escaped.Integral ∧ ∃ r, Decoder.onValue decode escaped = .ok r ∧
      r.normalize ≠ r ∧ r.normalize.toJson.depth = 5 ∧
      Decoder.onText decode r.normalize.text = .ok r.normalize := by
  have hvalue : escaped.Distinct := by decide +kernel
  have hnumbers : escaped.Integral := by decide +kernel
  obtain ⟨r, hr⟩ : ∃ r, Decoder.onValue decode escaped = .ok r := ⟨_, rfl⟩
  have hnormal : r.normalize ≠ r ∧ r.normalize.toJson.depth = 5 := by
    obtain rfl := Except.ok.inj hr
    decide +kernel
  refine ⟨hvalue, hnumbers, r, hr, hnormal.1, hnormal.2, ?_⟩
  exact onText_text_of_decode hvalue hnumbers hr (.inr rfl) (by rw [hnormal.2]; decide)

end Schema

end ApiTypes
