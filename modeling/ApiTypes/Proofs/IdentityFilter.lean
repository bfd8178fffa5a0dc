import ApiTypes.Filter
import ApiTypes.Proofs.CompactText

/-!
# The filter that changes nothing

The filter `.` gives its input, once.  Even so a document is not handed back: it becomes a
value of the filter language, that value is printed, and what is printed is parsed.  The
printed text is the compact text of the document, whatever its numbers.  A document that
was parsed repeats no key and is no deeper than a reader admits, so if its numbers are
integers it is what its compact text is parsed to.
-/

namespace ApiTypes

/-! ### The depth of parsed values -/

namespace Json

theorem itemsDepth_le_iff {items : List Json} {depth : Nat} :
    itemsDepth items ≤ depth ↔ ∀ item ∈ items, item.depth ≤ depth := by
  induction items with
  | nil => simp [itemsDepth]
  | cons item rest ih => rw [itemsDepth, Nat.max_le, ih, List.forall_mem_cons]

theorem membersDepth_le_iff {members : List (String × Json)} {depth : Nat} :
    membersDepth members ≤ depth ↔ ∀ member ∈ members, member.2.depth ≤ depth := by
  induction members with
  | nil => simp [membersDepth]
  | cons member rest ih => rw [membersDepth, Nat.max_le, ih, List.forall_mem_cons]

namespace Node

/-- Unless it is faulty, the node has no more than `depth` brackets open at once. -/
def Shallow (depth : Nat) (node : Node) : Prop :=
  node.fault? = none → node.toJson.depth ≤ depth

variable {depth : Nat}

theorem shallow_broken (fault : Fault) : (broken fault).Shallow depth := nofun

theorem shallow_scalar (value : Scalar) (stop : Nat) : (scalar value stop).Shallow depth := by
  intro _
  have hflat : value.toJson.depth = 0 := by cases value <;> rfl
  exact hflat ▸ Nat.zero_le depth

theorem depth_itemsToJson {items : List Node} (h : ∀ item ∈ items, item.Shallow depth)
    (hfault : itemsFault? items = none) : ∀ item ∈ itemsToJson items, item.depth ≤ depth := by
  induction items with
  | nil => simp [itemsToJson]
  | cons item rest ih =>
    rw [itemsFault?, Option.orElse_eq_none] at hfault
    rw [List.forall_mem_cons] at h
    rw [itemsToJson, List.forall_mem_cons]
    exact ⟨h.1 hfault.1, ih h.2 hfault.2⟩

theorem depth_membersToJson {members : List (Label × Node)}
    (h : ∀ member ∈ members, member.2.Shallow depth) (hfault : membersFault? members = none) :
    ∀ member ∈ membersToJson members, member.2.depth ≤ depth := by
  induction members with
  | nil => simp [membersToJson]
  | cons member rest ih =>
    obtain ⟨label, value⟩ := member
    rw [membersFault?, Option.orElse_eq_none] at hfault
    rw [List.forall_mem_cons] at h
    rw [membersToJson, List.forall_mem_cons]
    exact ⟨h.1 hfault.1, ih h.2 hfault.2⟩

theorem shallow_array {start : Nat} {items : List Node} {finish : Finish}
    (h : ∀ item ∈ items, item.Shallow depth) : (array start items finish).Shallow (depth + 1) := by
  intro hfault
  rw [fault?, Option.orElse_eq_none] at hfault
  exact Nat.succ_le_succ (itemsDepth_le_iff.mpr (depth_itemsToJson h hfault.1))

theorem shallow_object {start : Nat} {members : List (Label × Node)} {finish : Finish}
    (h : ∀ member ∈ members, member.2.Shallow depth) :
    (object start members finish).Shallow (depth + 1) := by
  intro hfault
  rw [fault?, Option.orElse_eq_none] at hfault
  refine Nat.succ_le_succ (membersDepth_le_iff.mpr fun member hmember => ?_)
  exact depth_membersToJson h hfault.1 member (Members.mem_of_mem_ofList hmember)

end Node

theorem shallow_readConstant (depth : Nat) (word : String) (value : Scalar) (c : Cursor) :
    (readConstant word value c).1.Shallow depth := by
  unfold readConstant
  split
  · exact Node.shallow_scalar _ _
  · exact Node.shallow_broken _

mutual

theorem shallow_readValue : ∀ (fuel depth : Nat) (c : Cursor),
    (readValue fuel depth c).1.Shallow depth
  | 0, _, _ => Node.shallow_broken _
  | fuel + 1, depth, c => by
    unfold readValue
    simp only
    split
    · exact Node.shallow_broken _
    · exact shallow_readConstant _ _ _ _
    · exact shallow_readConstant _ _ _ _
    · exact shallow_readConstant _ _ _ _
    · split
      · exact Node.shallow_scalar _ _
      · exact Node.shallow_broken _
    · cases depth with
      -- nothing may be opened any more, so what is read is faulty
      | zero => exact nofun
      | succ depth => exact Node.shallow_array (shallow_readItems fuel depth true _)
    · cases depth with
      | zero => exact nofun
      | succ depth => exact Node.shallow_object (shallow_readMembers fuel depth true _)
    · split
      · split
        · exact Node.shallow_scalar _ _
        · exact Node.shallow_broken _
      · exact Node.shallow_broken _

theorem shallow_readItems : ∀ (fuel depth : Nat) (isFirst : Bool) (c : Cursor),
    ∀ item ∈ (readItems fuel depth isFirst c).1, item.Shallow depth
  | 0, _, _, _ => List.forall_mem_nil _
  | fuel + 1, depth, isFirst, c => by
    unfold readItems
    split
    · exact List.forall_mem_nil _
    · exact List.forall_mem_nil _
    · rename_i entry _
      have hitem := shallow_readValue fuel depth entry
      split
      · rename_i hread
        rw [hread] at hitem
        exact List.forall_mem_singleton.mpr hitem
      · rename_i after hread
        rw [hread] at hitem
        exact List.forall_mem_cons.mpr ⟨hitem, shallow_readItems fuel depth false after⟩

theorem shallow_readMembers : ∀ (fuel depth : Nat) (isFirst : Bool) (c : Cursor),
    ∀ member ∈ (readMembers fuel depth isFirst c).1, member.2.Shallow depth
  | 0, _, _, _ => List.forall_mem_nil _
  | fuel + 1, depth, isFirst, c => by
    unfold readMembers
    split
    · exact List.forall_mem_nil _
    · exact List.forall_mem_nil _
    · split
      · exact List.forall_mem_nil _
      · split
        · exact List.forall_mem_nil _
        · rename_i entry _
          have hvalue := shallow_readValue fuel depth entry
          split
          · rename_i hread
            rw [hread] at hvalue
            exact List.forall_mem_singleton.mpr hvalue
          · rename_i after hread
            rw [hread] at hvalue
            exact List.forall_mem_cons.mpr ⟨hvalue, shallow_readMembers fuel depth false after⟩

end

theorem depth_of_parse {text : String} {value : Json} (h : parse text = .ok value) :
    value.depth ≤ nestingLimit := by
  obtain ⟨hfault, hvalue⟩ := node_of_parse h
  rw [← hvalue]
  exact shallow_readValue _ _ _ hfault

end Json

namespace Filter

/-! ### The text of a filter value -/

mutual

/-- A value is printed as a filter value as it is printed as JSON. -/
theorem text_ofJson : ∀ value : Json, (Value.ofJson value).text = value.compact
  | .null => rfl
  | .bool b => by cases b <;> rfl
  | .number (.integer n) => by
    -- beyond 63 bits an integer is kept by its text, which is the same
    rw [Value.ofJson, Value.ofNumber]
    split
    · rfl
    · rfl
  | .number (.double x) => rfl
  | .string s => rfl
  | .array items => by
    rw [Value.ofJson, Value.text, itemTexts_ofItems items]
    rfl
  | .object members => by
    rw [Value.ofJson, Value.text, memberTexts_ofMembers members]
    rfl

theorem itemTexts_ofItems : ∀ items : List Json,
    Value.itemTexts (Value.ofItems items) = Json.compactItems items
  | [] => rfl
  | item :: rest => by
    rw [Value.ofItems, Value.itemTexts, text_ofJson item, itemTexts_ofItems rest]
    rfl

theorem memberTexts_ofMembers : ∀ members : List (String × Json),
    Value.memberTexts (Value.ofMembers members) = Json.compactMembers members
  | [] => rfl
  | (key, value) :: rest => by
    rw [Value.ofMembers, Value.memberTexts, text_ofJson value, memberTexts_ofMembers rest]
    rfl

end

theorem toJson_ofJson {document : Json} (hdistinct : document.Distinct)
    (hnumbers : document.Integral) (hdepth : document.depth ≤ Json.nestingLimit) :
    (Value.ofJson document).toJson = .ok document := by
  rw [Value.toJson, text_ofJson, Json.parse_compact hdistinct hnumbers hdepth]

/-! ### The term of a dot -/

namespace Read

theorem steps_nil (fuel : Nat) : steps (fuel + 1) [] = some ([], []) := by
  rw [steps]
  rfl

theorem suffixes_nil (fuel : Nat) (t : Term) : suffixes (fuel + 2) t [] = some (t, []) := by
  rw [suffixes]
  show (steps (fuel + 1) []).bind _ = _
  rw [steps_nil]
  rfl

theorem tail_nil (fuel : Nat) (commas : Bool) : tail (fuel + 2) commas [] = some ([], []) := by
  rw [tail]
  show (connective (fuel + 1) commas []).bind _ = _
  rw [connective]
  rfl

theorem term_dot (fuel : Nat) (commas : Bool) :
    term (fuel + 4) commas [.symbol "."] = some (.identity, []) := by
  rw [term]
  show (atom (fuel + 3) [.symbol "."]).bind _ = _
  have hatom : atom (fuel + 3) [.symbol "."] = some (.identity, []) := by
    rw [atom]
    exact suffixes_nil fuel .identity
  rw [hatom]
  show (tail (fuel + 3) commas []).bind _ = _
  rw [tail_nil]
  rfl

end Read

theorem read_dot : read "." = .ok .identity := by
  have htokens : Token.ofText? "." = some [.symbol "."] := rfl
  have hterm : Term.ofText? "." = some .identity := by
    have hread : Read.term (8 * (Token.sizeAll [.symbol "."] + 1)) true [.symbol "."] =
        some (.identity, []) := Read.term_dot 12 true
    simp only [Term.ofText?, htokens, hread]
  rw [read, hterm]
  rfl

theorem outputs_dot (document : Json) :
    outputs "." document = [Value.ofJson document].mapM Value.toJson := by
  rw [outputs, read_dot]
  rfl

/-- The identity filter gives a parsed document of integers back as it is: every string and
number, the order of the keys and the nesting. -/
theorem apply_dot {text : String} {document : Json} (hparse : Json.parse text = .ok document)
    (hnumbers : document.Integral) : apply "." document = .ok document := by
  have hvalue := toJson_ofJson (Json.distinct_of_parse hparse) hnumbers (Json.depth_of_parse hparse)
  rw [apply, outputs_dot, List.mapM_cons, hvalue]
  rfl

/-- A text with escapes, a repeated key, and integers beyond 63 bits. -/
def escapedText : String :=
  "\x7b\"\\u0000\\\"\": 0,\n \"a\": \x7b\"\\ud83d\\ude00\": \"é\\n\\u001f\"\x7d, " ++
    "\"\\u0000\\\"\":[[-9223372036854775808],18446744073709551615]\x7d"

def escapedDocument : Json :=
  .object [
    ("\x00\"", .array [.array [.number (.integer (-9223372036854775808))],
      .number (.integer 18446744073709551615)]),
    ("a", .object [("😀", .string "é\n\x1f")])]

theorem apply_dot_escaped :
    Json.parse escapedText = .ok escapedDocument ∧ escapedDocument.Integral ∧
      apply "." escapedDocument = .ok escapedDocument := by
  have hparse : Json.parse escapedText = .ok escapedDocument := by decide +kernel
  have hnumbers : escapedDocument.Integral := by decide +kernel
  exact ⟨hparse, hnumbers, apply_dot hparse hnumbers⟩

end Filter

end ApiTypes
