import ApiTypes.Document
import ApiTypes.Proofs.Annotations
import ApiTypes.Proofs.SchemaGrammar
import ApiTypes.Proofs.SchemaWalk

/-!
# The first misfit

Decoding follows the walk through named schemas.  It succeeds where every value on the
walk is of the kind its place calls for; otherwise it fails at the first that is not, and
the failure names the path of that value, the value and the kind.
-/

namespace ApiTypes
open Json (Node Label)

/-- How a message describes a value. -/
def Found.of : Json → Found
  | .null => .null
  | .bool b => .bool b
  | .number n => .number n
  | .string s => .string s
  | .array _ => .sequence
  | .object _ => .map

def Visit.failure (v : Visit) : Failure :=
  ⟨v.path, .wrongType (Found.of v.value) v.expected.text, 0⟩

theorem refusal_ofJson (expected : String) (value : Json) :
    (Node.ofJson value).refusal expected = ⟨[], .wrongType (Found.of value) expected, 0⟩ := by
  cases value <;> rfl

/-! ### Outcomes settled by a walk -/

/-- The outcome is the failure of the first visit that does not fit, or a result where
all fit. -/
inductive SettledBy {α : Type} (walk : List Visit) : Except Failure α → Prop
  | misfit {before after : List Visit} {v : Visit} (walk_eq : walk = before ++ v :: after)
    (fits : ∀ u ∈ before, u.fits = true) (misfit : v.fits = false) :
    SettledBy walk (.error v.failure)
  | fits (fits : ∀ v ∈ walk, v.fits = true) (a : α) : SettledBy walk (.ok a)

section
variable {α β : Type} {first rest : List Visit} {x : Except Failure α}

theorem settledBy_ok (a : α) : SettledBy [] (Except.ok a : Except Failure α) :=
  .fits (List.forall_mem_nil _) a

theorem SettledBy.bind {f : α → Except Failure β} (hx : SettledBy first x)
    (hf : ∀ a, SettledBy rest (f a)) : SettledBy (first ++ rest) (x >>= f) := by
  cases hx with
  | @misfit before after v walk_eq fits misfit =>
    have hwalk : first ++ rest = before ++ v :: (after ++ rest) := by simp [walk_eq]
    exact .misfit hwalk fits misfit
  | fits fits a =>
    show SettledBy (first ++ rest) (f a)
    have hfa := hf a
    generalize f a = y at hfa
    cases hfa with
    | @misfit before after v walk_eq before_fits misfit =>
      have hwalk : first ++ rest = (first ++ before) ++ v :: after := by simp [walk_eq]
      exact .misfit hwalk (List.forall_mem_append.mpr ⟨fits, before_fits⟩) misfit
    | fits rest_fits b => exact .fits (List.forall_mem_append.mpr ⟨fits, rest_fits⟩) b

theorem SettledBy.map (hx : SettledBy first x) (f : α → β) : SettledBy first (x.map f) := by
  cases hx with
  | misfit walk_eq fits misfit => exact .misfit walk_eq fits misfit
  | fits fits a => exact .fits fits (f a)

theorem SettledBy.within (hx : SettledBy first x) (step : Step) :
    SettledBy (first.map (Visit.under step)) (within step x) := by
  have hunder : ∀ {walk : List Visit}, (∀ v ∈ walk, v.fits = true) →
      ∀ v ∈ walk.map (Visit.under step), v.fits = true := by
    intro walk h
    exact List.forall_mem_map.mpr h
  cases hx with
  | @misfit before after v walk_eq fits misfit =>
    have hwalk : first.map (Visit.under step) =
        before.map (Visit.under step) ++ v.under step :: after.map (Visit.under step) := by
      simp [walk_eq]
    exact .misfit hwalk (hunder fits) misfit
  | fits fits a => exact .fits (hunder fits) a

theorem settledBy_cons_iff {v : Visit} :
    SettledBy (v :: rest) x ↔
      v.fits = true ∧ SettledBy rest x ∨ v.fits = false ∧ x = .error v.failure := by
  constructor
  · intro h
    cases h with
    | @misfit before after u walk_eq fits misfit =>
      cases before with
      | nil =>
        obtain ⟨rfl, rfl⟩ := List.cons.inj walk_eq
        exact .inr ⟨misfit, rfl⟩
      | cons first before =>
        obtain ⟨rfl, hrest⟩ := List.cons.inj walk_eq
        rw [List.forall_mem_cons] at fits
        exact .inl ⟨fits.1, .misfit hrest fits.2 misfit⟩
    | fits fits a =>
      rw [List.forall_mem_cons] at fits
      exact .inl ⟨fits.1, .fits fits.2 a⟩
  · intro h
    rcases h with ⟨hv, hx⟩ | ⟨hv, rfl⟩
    · cases hx with
      | @misfit before after u walk_eq fits misfit =>
        have hwalk : v :: rest = (v :: before) ++ u :: after := by simp [walk_eq]
        exact .misfit hwalk (List.forall_mem_cons.mpr ⟨hv, fits⟩) misfit
      | fits fits a => exact .fits (List.forall_mem_cons.mpr ⟨hv, fits⟩) a
    · exact .misfit (List.nil_append _).symm (List.forall_mem_nil _) hv

theorem SettledBy.cons {v : Visit} (hx : SettledBy rest x) (hv : v.fits = true) :
    SettledBy (v :: rest) x :=
  settledBy_cons_iff.mpr (.inl ⟨hv, hx⟩)

end

/-! ### Decoders follow the walk -/

/-- A value that does not fit is refused at once. -/
theorem settledBy_refusal {α : Type} {expected : Expected} {value : Json}
    (h : expected.fits value = false) :
    SettledBy (visits expected value)
      (.error ((Node.ofJson value).refusal expected.text) : Except Failure α) := by
  rw [refusal_ofJson]
  exact settledBy_cons_iff.mpr (.inr ⟨h, rfl⟩)

theorem settledBy_string (value : Json) :
    SettledBy (visits .string value) (Decoder.string.onValue value) := by
  cases value with
  | string s => exact (settledBy_ok s).cons rfl
  | _ => exact settledBy_refusal rfl

theorem settledBy_bool (value : Json) :
    SettledBy (visits .boolean value) (Decoder.bool.onValue value) := by
  cases value with
  | bool b => exact (settledBy_ok b).cons rfl
  | _ => exact settledBy_refusal rfl

theorem itemVisits_eq_nil {part? : Step → Option Expected} (h : ∀ i, part? (.index i) = none)
    (i : Nat) (items : List Json) : itemVisits part? i items = [] := by
  induction items generalizing i with
  | nil => rfl
  | cons item rest ih => rw [itemVisits, h i, ih, List.nil_append]

/-- The values of an enumeration are not entered, and all of them are taken. -/
theorem settledBy_values (value : Json) :
    SettledBy (visits .values value) ((Decoder.list Decoder.json).onValue value) := by
  cases value with
  | array items =>
    have hitems : List.Forall₂ (fun item a => Decoder.json.onValue item = .ok a) items
        (items.map fun item => (Node.ofJson item).toJson) := by
      rw [List.forall₂_map_right_iff]
      exact List.forall₂_same.mpr fun item _ => json_onValue item
    rw [list_onValue_eq_ok_iff.mpr ⟨items, rfl, hitems⟩, visits, below,
      itemVisits_eq_nil fun _ => rfl]
    exact (settledBy_ok _).cons rfl
  | _ => exact settledBy_refusal rfl

section
variable {α : Type} {d : Decoder α} {expected : Expected}

theorem settledBy_items {items : List Json}
    (h : ∀ item ∈ items, SettledBy (visits expected item) (d.onValue item)) (i : Nat) :
    SettledBy (itemVisits (Expected.list expected).part? i items)
      (Decoder.items d i (Node.itemsOfJson items)) := by
  induction items generalizing i with
  | nil => exact settledBy_ok []
  | cons item rest ih =>
    rw [List.forall_mem_cons] at h
    rw [Node.itemsOfJson, Decoder.items, itemVisits]
    refine (h.1.within (.index i)).bind fun a => ?_
    exact (ih h.2 (i + 1)).map (a :: ·)

theorem settledBy_list {value : Json} (h : ∀ items, value = .array items →
      ∀ item ∈ items, SettledBy (visits expected item) (d.onValue item)) :
    SettledBy (visits (.list expected) value) ((Decoder.list d).onValue value) := by
  cases value with
  | array items =>
    have hitems := settledBy_items (h items rfl) 0
    have hlist : (Decoder.list d).onValue (.array items) =
        (Decoder.items d 0 (Node.itemsOfJson items)).map id := by
      rw [Decoder.onValue, Node.ofJson, Decoder.list]
      cases Decoder.items d 0 (Node.itemsOfJson items) <;> rfl
    rw [hlist, visits]
    exact (hitems.map id).cons rfl
  | _ => exact settledBy_refusal rfl

theorem settledBy_members {members : List (String × Json)}
    (h : ∀ m ∈ members, SettledBy (visits expected m.2) (d.onValue m.2)) :
    SettledBy (memberVisits (Expected.map expected).part? members)
      (Decoder.members d (Node.membersOfJson members)) := by
  induction members with
  | nil => exact settledBy_ok []
  | cons m rest ih =>
    obtain ⟨key, value⟩ := m
    rw [List.forall_mem_cons] at h
    rw [Node.membersOfJson, Decoder.members, memberVisits]
    refine (h.1.within (.key key)).bind fun a => ?_
    exact (ih h.2).map ((key, a) :: ·)

theorem settledBy_map {value : Json} (h : ∀ members, value = .object members →
      ∀ m ∈ members, SettledBy (visits expected m.2) (d.onValue m.2)) :
    SettledBy (visits (.map expected) value) ((Decoder.map d).onValue value) := by
  cases value with
  | object members =>
    rw [map_onValue_object, visits]
    exact ((settledBy_members (h members rfl)).map Members.ofList).cons rfl
  | _ => exact settledBy_refusal rfl

theorem settledBy_optional {value : Json}
    (h : SettledBy (visits expected value) (d.onValue value)) :
    SettledBy (visits (.optional expected) value) ((Decoder.optional d).onValue value) := by
  rw [optional_onValue]
  by_cases hnull : value = .null
  · subst hnull
    exact (settledBy_ok none).cons rfl
  · have hfits : (Expected.optional expected).fits value = expected.fits value := by
      cases value with
      | null => exact absurd rfl hnull
      | _ => rfl
    have hbelow : below (.optional expected) value = below expected value := by
      cases value <;> rfl
    rw [visits, settledBy_cons_iff] at h
    rw [if_neg hnull, visits, hbelow, settledBy_cons_iff]
    rcases h with ⟨hvalue, hx⟩ | ⟨hvalue, hx⟩
    · exact .inl ⟨hfits.trans hvalue, hx.map some⟩
    · refine .inr ⟨hfits.trans hvalue, ?_⟩
      rw [hx]
      rfl

end

namespace Schema

theorem settledBy_keyword (k : Keyword) {value : Json}
    (h : ∀ w ∈ schemasUnder k value, SettledBy (visits .schema w) (Decoder.onValue decode w)) :
    SettledBy (visits k.expected value) (k.decoder.onValue value) := by
  cases k with
  | reference => exact settledBy_string value
  | type => exact settledBy_string value
  | nullable => exact settledBy_bool value
  | enum => exact settledBy_values value
  | required => exact settledBy_list fun items _ item _ => settledBy_string item
  | items => exact h value (List.mem_singleton_self value)
  | allOf | anyOf | oneOf =>
    refine settledBy_list ?_
    intro items hitems
    subst hitems
    exact h
  | properties =>
    refine settledBy_map ?_
    intro members hmembers m hm
    subst hmembers
    exact h m.2 (List.mem_map_of_mem hm)

/-- Members are read as they are visited: keywords by what they call for, others not at all. -/
theorem settledBy_decodeMembers {members : List (String × Json)}
    (hkeys : (members.map Prod.fst).Nodup)
    (h : ∀ m ∈ members, ∀ k : Keyword, SettledBy (visits k.expected m.2) (k.decoder.onValue m.2))
    {p : Progress} (hunseen : ∀ k : Keyword, k.name ∈ members.map Prod.fst → k ∉ p.seen) :
    SettledBy (memberVisits Expected.schema.part? members)
      (decodeMembers p (Node.membersOfJson members)) := by
  induction members generalizing p with
  | nil =>
    rw [Node.membersOfJson, decodeMembers]
    exact settledBy_ok p
  | cons m rest ih =>
    obtain ⟨key, value⟩ := m
    rw [List.map_cons, List.nodup_cons] at hkeys
    rw [List.forall_mem_cons] at h
    rw [Node.membersOfJson, memberVisits]
    cases hkey : Keyword.ofName? key with
    | none =>
      have hlabel : Keyword.ofName? (Label.mk key 0).key = none := hkey
      have hpart : Expected.schema.part? (.key key) = none := by simp [Expected.part?, hkey]
      rw [decodeMembers_other hlabel, json_eq_ok (fault?_ofJson value), hpart]
      exact ih hkeys.2 h.2 fun k hk => hunseen k (List.mem_cons_of_mem _ hk)
    | some k =>
      obtain rfl := Keyword.ofName?_eq_some_iff.mp hkey
      have hlabel : Keyword.ofName? (Label.mk k.name 0).key = some k := hkey
      have hpart : Expected.schema.part? (.key k.name) = some (.optional k.expected) := by
        simp [Expected.part?, hkey]
      rw [decodeMembers_keyword hlabel, checkFresh_of_notMem (hunseen k List.mem_cons_self), hpart]
      refine ((settledBy_optional (h.1 k)).within (.key k.name)).bind fun c => ?_
      refine ih hkeys.2 h.2 fun l hl => ?_
      rw [List.mem_cons, not_or]
      refine ⟨?_, hunseen l (List.mem_cons_of_mem _ hl)⟩
      intro hlk
      subst hlk
      exact hkeys.1 hl

theorem settledBy_decode (value : Json) (h : value.Distinct) :
    SettledBy (visits .schema value) (Decoder.onValue decode value) := by
  induction value, h using induction_schemasUnder with
  | object members h ih =>
    have hmembers : ∀ m ∈ members, ∀ k : Keyword,
        SettledBy (visits k.expected m.2) (k.decoder.onValue m.2) := by
      intro m hm k
      refine settledBy_keyword k fun w hw => ?_
      have hvalue := Json.distinctMembers_iff.mp h.2 m hm
      exact ih m hm k w hw (distinct_schemasUnder hvalue hw)
    rw [onValue_object, visits]
    exact ((settledBy_decodeMembers h.1 hmembers fun _ _ => List.not_mem_nil).map _).cons rfl
  | other value _ hother =>
    cases value with
    | object members => exact absurd rfl (hother members)
    | _ => exact settledBy_refusal rfl

theorem settledBy_decodeMap {value : Json} (h : value.Distinct) :
    SettledBy (visits (.map .schema) value) (decodeMap.onValue value) := by
  refine settledBy_map fun members hmembers m hm => ?_
  subst hmembers
  exact settledBy_decode m.2 (Json.distinctMembers_iff.mp h.2 m hm)

end Schema

/-! ### Malformed documents -/

/-- How the first misfit of a map of schemas is reported. -/
def Visit.report (v : Visit) : String :=
  "at JSON path " ++ Step.path v.path ++ " → invalid type: " ++ (Found.of v.value).text ++
    ", expected " ++ v.expected.text

theorem message_failure (v : Visit) : v.failure.message = v.report := by
  have harrow : " → invalid type: " = " → " ++ "invalid type: " := by decide +kernel
  have hjoin : ∀ path found expected : String,
      "at JSON path " ++ path ++ " → " ++ ("invalid type: " ++ found ++ ", expected " ++ expected) =
        "at JSON path " ++ path ++ " → invalid type: " ++ found ++ ", expected " ++ expected := by
    intro path found expected
    simp only [harrow, String.append_assoc]
  exact hjoin _ _ _

namespace Document

/-- Where the named schemas of a document do not decode, the failure names the first value
on the walk through them that is not of the kind its place calls for. -/
theorem malformed_at_first_misfit {document schemas : Json} (hdistinct : document.Distinct)
    (hschemas : schemas? document = some schemas)
    (hmalformed : ∀ named, Schema.decodeMap.onValue schemas ≠ .ok named) :
    ∃ before misfit after, visits (.map .schema) schemas = before ++ misfit :: after ∧
      (∀ v ∈ before, v.fits = true) ∧ misfit.fits = false ∧
      schemas.at? misfit.path = some misfit.value ∧
      definitions document = .error (.malformedSchema misfit.report) ∧
      ∀ options, checkVersion document = .ok () →
        generate options document = .error (.malformedSchema misfit.report) := by
  have hvalue := distinct_of_schemas? hdistinct hschemas
  have hsettled := Schema.settledBy_decodeMap hvalue
  generalize houtcome : Schema.decodeMap.onValue schemas = outcome at hsettled
  cases hsettled with
  | fits fits named => exact absurd houtcome (hmalformed named)
  | @misfit before after v walk_eq fits misfit =>
    have hmem : v ∈ visits (.map .schema) schemas := by simp [walk_eq]
    have hat := forall_mem_visits (at?_of_mem_below (.map .schema) schemas hvalue) v hmem
    have hdefinitions : definitions document = .error (.malformedSchema v.report) := by
      simp [definitions, hschemas, houtcome, message_failure]
    refine ⟨before, v, after, walk_eq, fits, misfit, hat, hdefinitions, fun options hversion => ?_⟩
    rw [generate, hversion, hdefinitions]
    rfl

/-- A number among required names, and behind it a type that is no string. -/
def misfits : Json :=
  .object [("A", .object [
      ("allOf", .array [
        .object [("enum", .array [.null, .number (.integer 3)]), ("x", .number (.integer 7))],
        .object [("properties", .object [("p", .object [
          ("required", .array [.string "q", .number (.integer 5)])])])]]),
      ("type", .bool true)])]

theorem malformed_at_first_misfit_in_required :
    let document : Json :=
      .object [("openapi", .string "3.0.0"), ("components", .object [("schemas", misfits)])]
    document.Distinct ∧ schemas? document = some misfits ∧
    (∀ named, Schema.decodeMap.onValue misfits ≠ .ok named) ∧ checkVersion document = .ok () ∧
    (∃ before misfit after, visits (.map .schema) misfits = before ++ misfit :: after ∧
      (∀ v ∈ before, v.fits = true) ∧ misfit.fits = false ∧
      generate ⟨.flow, true⟩ document = .error (.malformedSchema misfit.report)) ∧
    generate ⟨.flow, true⟩ document = .error (.malformedSchema
      ("at JSON path A.allOf[1].properties.p.required[1]" ++
        " → invalid type: integer `5`, expected a string")) := by
  intro document
  have hdistinct : document.Distinct := by decide +kernel
  have hmalformed : ∀ named, Schema.decodeMap.onValue misfits ≠ .ok named := by
    intro named h
    obtain ⟨failure, hfailure⟩ : ∃ failure, Schema.decodeMap.onValue misfits = .error failure :=
      ⟨_, rfl⟩
    rw [hfailure] at h
    cases h
  have hversion : checkVersion document = .ok () := by decide +kernel
  obtain ⟨before, misfit, after, hwalk, hfits, hmisfit, -, -, hgenerate⟩ :=
    malformed_at_first_misfit hdistinct rfl hmalformed
  exact ⟨hdistinct, rfl, hmalformed, hversion,
    ⟨before, misfit, after, hwalk, hfits, hmisfit, hgenerate _ hversion⟩, by decide +kernel⟩

end Document

end ApiTypes
