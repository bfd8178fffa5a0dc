import ApiTypes.Fixture
import ApiTypes.Proofs.Decoding
import ApiTypes.Proofs.ReadValues
import ApiTypes.Proofs.ValueEnds

/-!
# Parts of fixtures

What a part of a fixture holds, and which texts say so: the reader of a part takes these texts
and no others.
-/

namespace ApiTypes.Fixture
open Json

/-! ### Values of parts -/

def Part.Value : Part → Type
  | .outputType => OutputType
  | .exitOnInvalidType => Bool
  | .document => Json
  | .expected | .expectedError => Option String

/-- The value of a part in a fixture. -/
def get (f : Fixture) : (p : Part) → p.Value
  | .outputType => f.options.outputType
  | .exitOnInvalidType => f.options.exitOnInvalidType
  | .document => f.document
  | .expected => f.expected
  | .expectedError => f.expectedError

/-- The value of a part that is not written. -/
def Part.fallback? : (p : Part) → Option p.Value
  | .outputType | .document => none
  | .exitOnInvalidType => some false
  | .expected | .expectedError => some none

namespace Draft

def get (d : Draft) : (p : Part) → Option p.Value
  | .outputType => d.outputType
  | .exitOnInvalidType => d.exitOnInvalidType
  | .document => d.document
  | .expected => d.expected
  | .expectedError => d.expectedError

def set (d : Draft) : (p : Part) → p.Value → Draft
  | .outputType, t => { d with outputType := some t }
  | .exitOnInvalidType, b => { d with exitOnInvalidType := some b }
  | .document, j => { d with document := some j }
  | .expected, s => { d with expected := some s }
  | .expectedError, s => { d with expectedError := some s }

theorem has_eq (d : Draft) (p : Part) : d.has p = (d.get p).isSome := by
  cases p <;> rfl

theorem get_set_self (d : Draft) (p : Part) (v : p.Value) : (d.set p v).get p = some v := by
  cases p <;> rfl

theorem get_set_of_ne (d : Draft) {p q : Part} (h : q ≠ p) (v : p.Value) :
    (d.set p v).get q = d.get q := by
  cases p <;> cases q <;> first | rfl | exact absurd rfl h

theorem get_empty (p : Part) : ({} : Draft).get p = none := by
  cases p <;> rfl

end Draft

/-- Only the parts without a fallback have to be written. -/
theorem isRequired_iff (p : Part) : p.isRequired = true ↔ p.fallback? = none := by
  cases p <;> simp [Part.isRequired, Part.fallback?]

theorem ofDraft_eq_ok_iff {d : Draft} {stop : Nat} {f : Fixture} :
    ofDraft d stop = .ok f ↔ ∀ p, (d.get p).or p.fallback? = some (f.get p) := by
  constructor
  · intro h p
    rw [ofDraft] at h
    split at h
    · rename_i t j ht hj
      obtain rfl := Except.ok.inj h
      cases p with
      | outputType => exact congrArg (Option.or · none) ht
      | exitOnInvalidType => exact Option.or_some
      | document => exact congrArg (Option.or · none) hj
      | expected => exact Option.or_some
      | expectedError => exact Option.or_some
    · cases h
    · cases h
  · intro h
    have ht : d.outputType = some f.options.outputType := Option.or_none.symm.trans (h .outputType)
    have hj : d.document = some f.document := Option.or_none.symm.trans (h .document)
    have hexit : d.exitOnInvalidType.getD false = f.options.exitOnInvalidType :=
      Option.some.inj (Option.or_some.symm.trans (h .exitOnInvalidType))
    have hexpected : d.expected.getD none = f.expected :=
      Option.some.inj (Option.or_some.symm.trans (h .expected))
    have herror : d.expectedError.getD none = f.expectedError :=
      Option.some.inj (Option.or_some.symm.trans (h .expectedError))
    rw [ofDraft, ht, hj, hexit, hexpected, herror]

/-! ### Texts of parts -/

/-- How many brackets can be opened inside the bracket of a fixture. -/
def partDepth : Nat := nestingLimit - 1

/-- Whether a text is that of this value of a part.  An output type is its name, or the name as
the only key of an object, over a null. -/
def Part.IsText : (p : Part) → List Char → p.Value → Prop
  | .outputType, text, t => IsTextOf partDepth text (.string t.name) ∨
      ∃ cs, text = '\x7b' :: cs ∧ IsMembers true cs [(t.name, "null".toList)]
  | .exitOnInvalidType, text, b => IsTextOf partDepth text (.bool b)
  | .document, text, j => IsTextOf partDepth text j
  | .expected, text, s | .expectedError, text, s =>
      IsTextOf partDepth text (s.elim .null .string)

/-- Whether a reader takes the texts of `T`, and these only, and gets from each what it is the
text of. -/
structure Matches {α : Type} (reader : Cursor → Except Failure (α × Cursor))
    (T : List Char → α → Prop) : Prop where
  isValue : ∀ {text a}, T text a → IsValue text
  takes : ∀ {c c' a}, reader c = .ok (a, c') → ∃ blanks text, IsBlank blanks ∧
    c.rest = blanks ++ (text ++ c'.rest) ∧ T text a
  gives : ∀ {text a}, T text a → ∀ gap tail, IsBlank gap → (IsNumber text → Ends tail) →
    ∀ offset, ∃ stop, reader ⟨gap ++ (text ++ tail), offset⟩ = .ok (a, ⟨tail, stop⟩)

section
variable {α : Type}

/-- A text is that of one value at most. -/
theorem Matches.unique {reader : Cursor → Except Failure (α × Cursor)}
    {T : List Char → α → Prop} (h : Matches reader T) {text : List Char} {a a' : α}
    (ha : T text a) (ha' : T text a') : a = a' := by
  obtain ⟨stop, hread⟩ := h.gives ha [] [] .nil (fun _ => .nil) 0
  obtain ⟨stop', hread'⟩ := h.gives ha' [] [] .nil (fun _ => .nil) 0
  rw [hread] at hread'
  exact (Prod.mk.inj (Except.ok.inj hread')).1

theorem matches_readBy {decoder : Decoder α} {toJson : α → Json}
    (h : ∀ node, node.fault? = none → ∀ a, decoder node = .ok a ↔ node.toJson = toJson a) :
    Matches (readBy decoder) fun text a => IsTextOf partDepth text (toJson a) where
  isValue := IsTextOf.isValue
  takes := by
    intro c c' a h'
    cases hread : readNode (nestingLimit - 1) c with
    | mk node next =>
      rw [readBy, hread] at h'
      obtain ⟨a', hdecoder, hnext⟩ := bind_eq_ok_iff.mp h'
      cases next with
      | none => cases hnext
      | some after =>
        obtain ⟨rfl, rfl⟩ := Prod.mk.inj (Except.ok.inj hnext)
        obtain ⟨hfault, blanks, text, hblanks, hrest, htext⟩ := isTextOf_of_readNode hread
        rw [(h node hfault a').mp hdecoder] at htext
        exact ⟨blanks, text, hblanks, hrest, htext⟩
  gives := by
    intro text a htext gap tail hgap htail offset
    obtain ⟨node, stop, hread, hfault, hvalue⟩ := htext.readNode hgap htail offset
    have hread : readNode (nestingLimit - 1) ⟨gap ++ (text ++ tail), offset⟩ =
      (node, some ⟨tail, stop⟩) := hread
    refine ⟨stop, ?_⟩
    rw [readBy, hread]
    exact bind_eq_ok_iff.mpr ⟨a, (h node hfault a).mpr hvalue, rfl⟩

end

theorem bool_eq_ok_iff (node : Node) (hfault : node.fault? = none) (b : Bool) :
    Decoder.bool node = .ok b ↔ node.toJson = .bool b := by
  cases node with
  | scalar value stop => cases value <;> simp [Decoder.bool, Node.toJson, Scalar.toJson]
  | array start items finish => simp [Decoder.bool, Node.toJson]
  | object start members finish => simp [Decoder.bool, Node.toJson]
  | broken fault => cases hfault

theorem string_eq_ok_iff (node : Node) (hfault : node.fault? = none) (s : String) :
    Decoder.string node = .ok s ↔ node.toJson = .string s := by
  cases node with
  | scalar value stop => cases value <;> simp [Decoder.string, Node.toJson, Scalar.toJson]
  | array start items finish => simp [Decoder.string, Node.toJson]
  | object start members finish => simp [Decoder.string, Node.toJson]
  | broken fault => cases hfault

theorem isNull_iff (node : Node) (hfault : node.fault? = none) :
    node.isNull = true ↔ node.toJson = .null := by
  cases node with
  | scalar value stop => cases value <;> simp [Node.isNull, Node.toJson, Scalar.toJson]
  | array start items finish => simp [Node.isNull, Node.toJson]
  | object start members finish => simp [Node.isNull, Node.toJson]
  | broken fault => cases hfault

theorem optionalString_eq_ok_iff (node : Node) (hfault : node.fault? = none)
    (s : Option String) :
    Decoder.optional Decoder.string node = .ok s ↔ node.toJson = s.elim .null .string := by
  have hnull := isNull_iff node hfault
  rw [Decoder.optional]
  split
  · rename_i h
    rw [hnull.mp h]
    cases s <;> simp
  · rename_i h
    have hne : node.toJson ≠ .null := fun hvalue => h (hnull.mpr hvalue)
    rw [map_eq_ok_iff]
    cases s with
    | none => simpa using hne
    | some s =>
      rw [Option.elim_some, ← string_eq_ok_iff node hfault]
      simp

theorem json_eq_ok_iff (node : Node) (hfault : node.fault? = none) (j : Json) :
    Decoder.json node = .ok j ↔ node.toJson = j := by
  rw [json_eq_ok hfault, Except.ok.injEq]

/-! ### Output types -/

theorem name_of_ofName {offset : Nat} {name : String} {t : OutputType}
    (h : OutputType.ofName offset name = .ok t) : t.name = name := by
  rw [OutputType.ofName] at h
  split at h
  · rename_i t' hfind
    obtain rfl := Except.ok.inj h
    have hname := List.find?_some hfind
    exact eq_of_beq hname
  · cases h

theorem ofName_name (offset : Nat) (t : OutputType) : OutputType.ofName offset t.name = .ok t := by
  cases t <;> rfl

theorem orFail_eq_ok_iff {α : Type} {x : Except Fault α} {a : α} :
    OutputType.orFail x = .ok a ↔ x = .ok a := by
  cases x <;> simp [OutputType.orFail]

theorem decodeUnit_eq_ok_iff (node : Node) (hfault : node.fault? = none) :
    OutputType.decodeUnit node = .ok () ↔ node.toJson = .null := by
  cases node with
  | scalar value stop => cases value <;> simp [OutputType.decodeUnit, Node.toJson, Scalar.toJson]
  | array start items finish => simp [OutputType.decodeUnit, Node.toJson]
  | object start members finish => simp [OutputType.decodeUnit, Node.toJson]
  | broken fault => cases hfault

theorem text_of_readName {c c' : Cursor} {t : OutputType}
    (h : OutputType.readName c = .ok (t, c')) : ∃ blanks rest, IsBlank blanks ∧
      c.rest = blanks ++ '"' :: (rest ++ c'.rest) ∧ IsStringOf rest t.name := by
  rw [OutputType.readName] at h
  split at h
  · rename_i name stop after hread
    obtain ⟨t', hname, hpair⟩ := map_eq_ok_iff.mp h
    obtain ⟨rfl, rfl⟩ := Prod.mk.inj hpair
    obtain ⟨-, blanks, text, hblanks, hrest, htext⟩ := isTextOf_of_readNode hread
    have htext : IsTextOf nestingLimit text (.string name) := htext
    obtain ⟨rest, rfl, hstring⟩ := isTextOf_string_iff.mp htext
    rw [← name_of_ofName hname] at hstring
    exact ⟨blanks, rest, hblanks, hrest, hstring⟩
  · cases h

theorem scalar_of_toJson_string {node : Node} (hfault : node.fault? = none) {s : String}
    (h : node.toJson = .string s) : ∃ stop, node = .scalar (.string s) stop := by
  cases node with
  | scalar value stop =>
    cases value with
    | string s' => exact ⟨stop, by rw [Json.string.inj h]⟩
    | null => cases h
    | bool b => cases h
    | number n => cases h
  | array start items finish => cases h
  | object start members finish => cases h
  | broken fault => cases hfault

theorem readName_gives {t : OutputType} {rest : List Char} (h : IsStringOf rest t.name)
    (gap tail : List Char) (hgap : IsBlank gap) (offset : Nat) :
    ∃ stop, OutputType.readName ⟨gap ++ '"' :: (rest ++ tail), offset⟩ = .ok (t, ⟨tail, stop⟩) := by
  have htext : IsTextOf nestingLimit ('"' :: rest) (.string t.name) := h.isTextOf
  have hends : IsNumber ('"' :: rest) → Ends tail := fun hnumber =>
    absurd hnumber (not_isNumber_cons (by decide) rfl rest)
  obtain ⟨node, stop, hread, hfault, hvalue⟩ := htext.readNode hgap hends offset
  obtain ⟨behind, rfl⟩ := scalar_of_toJson_string hfault hvalue
  refine ⟨stop, ?_⟩
  rw [List.cons_append] at hread
  rw [OutputType.readName, hread]
  exact map_eq_ok_iff.mpr ⟨t, ofName_name behind t, rfl⟩

/-- What stands behind the opening brace of an output type. -/
theorem members_of_read {cs : List Char} {start : Nat} {c' : Cursor} {t : OutputType}
    (h : OutputType.read ⟨'\x7b' :: cs, start⟩ = .ok (t, c')) :
    ∃ part, cs = part ++ c'.rest ∧ IsMembers true part [(t.name, "null".toList)] := by
  have hskip : Cursor.skipBlanks ⟨'\x7b' :: cs, start⟩ = ⟨'\x7b' :: cs, start⟩ := rfl
  rw [OutputType.read, hskip] at h
  obtain ⟨⟨t', colon⟩, hname, h⟩ := bind_eq_ok_iff.mp h
  obtain ⟨gap, key, hgap, hcs, hkey⟩ := text_of_readName hname
  obtain ⟨value, hcolon, h⟩ := bind_eq_ok_iff.mp h
  obtain ⟨before, hbefore, hvalue⟩ := rest_of_readColon (orFail_eq_ok_iff.mp hcolon)
  split at h
  · rename_i node after hread
    obtain ⟨u, hunit, h⟩ := bind_eq_ok_iff.mp h
    obtain ⟨hfault, gap', text, hgap', hnull, htext⟩ := isTextOf_of_readNode hread
    rw [within_eq_ok_iff, decodeUnit_eq_ok_iff node hfault] at hunit
    rw [hunit, isTextOf_null_iff] at htext
    obtain ⟨blanks, rest, stop, hskip', hrest, hblanks, -⟩ := exists_skipBlanks after
    rw [hskip'] at h
    dsimp only at h
    split at h
    · rename_i tail
      obtain ⟨rfl, rfl⟩ := Prod.mk.inj (Except.ok.inj h)
      have hcs : cs = gap ++ '"' :: (key ++ colon.rest) := hcs
      have hnullText : IsValue "null".toList := .word (by simp)
      refine ⟨_, ?_, .member (.first hgap) (.intro hkey hbefore hgap') hnullText (.close hblanks)⟩
      rw [hcs, hvalue, hnull, htext, hrest]
      simp [Cursor.next]
    · cases h
    · cases h
  · obtain ⟨u, -, h⟩ := bind_eq_ok_iff.mp h
    cases h

theorem read_members {cs : List Char} {t : OutputType}
    (h : IsMembers true cs [(t.name, "null".toList)]) (tail : List Char) (start : Nat) :
    ∃ stop, OutputType.read ⟨'\x7b' :: (cs ++ tail), start⟩ = .ok (t, ⟨tail, stop⟩) := by
  cases h with
  | @member _ separator label null rest _ _ hseparator hlabel _ hclose =>
  obtain @⟨key, before, after, _, hkey, hbefore, hafter⟩ := hlabel
  cases hseparator with
  | first hseparator =>
  cases hclose with
  | @close _ blanks hblanks =>
  obtain ⟨colon, hname⟩ := readName_gives hkey separator
    (before ++ ':' :: (after ++ ("null".toList ++ (blanks ++ '\x7d' :: tail))))
    hseparator (start + '\x7b'.utf8Size)
  obtain ⟨value, hcolon⟩ := passes_readColon hbefore
    (after ++ ("null".toList ++ (blanks ++ '\x7d' :: tail))) colon
  have hnull : IsTextOf nestingLimit "null".toList .null := isTextOf_null_iff.mpr rfl
  obtain ⟨node, middle, hread, hfault, hvalue⟩ := hnull.readNode hafter
    (fun hnumber => absurd hnumber (not_isNumber_cons (by decide) rfl _)) value
  obtain ⟨stop, hskip⟩ := skipBlanks_append hblanks (stops_cons (c := '\x7d') rfl tail) middle
  refine ⟨stop + '\x7d'.utf8Size, ?_⟩
  simp only [List.append_assoc, List.cons_append, List.nil_append]
  refine bind_eq_ok_iff.mpr ⟨_, hname, ?_⟩
  refine bind_eq_ok_iff.mpr ⟨_, orFail_eq_ok_iff.mpr hcolon, ?_⟩
  rw [hread]
  dsimp only
  refine bind_eq_ok_iff.mpr ⟨(), ?_, ?_⟩
  · rw [within_eq_ok_iff, decodeUnit_eq_ok_iff node hfault]
    exact hvalue
  · rw [hskip]
    rfl

theorem matches_outputType : Matches OutputType.read (Part.IsText .outputType) where
  isValue := by
    intro text t h
    obtain h | ⟨cs, rfl, hmembers⟩ := h
    · exact h.isValue
    · have hinside : Inside .object true cs := hmembers.inside
      exact .enclosed hinside
  takes := by
    intro c c' t h
    obtain ⟨blanks, rest, stop, hskip, hrest, hblanks, -⟩ := exists_skipBlanks c
    rw [OutputType.read, hskip] at h
    dsimp only at h
    split at h
    · cases h
    · rename_i cs
      obtain ⟨gap, part, hgap, hcs, hpart⟩ := text_of_readName h
      have hcs : '"' :: cs = gap ++ '"' :: (part ++ c'.rest) := hcs
      refine ⟨blanks ++ gap, '"' :: part, hblanks.append hgap, ?_, .inl hpart.isTextOf⟩
      rw [hrest, hcs]
      simp
    · rename_i cs
      have hread : OutputType.read ⟨'\x7b' :: cs, stop⟩ = .ok (t, c') := h
      obtain ⟨part, hcs, hmembers⟩ := members_of_read hread
      exact ⟨blanks, '\x7b' :: part, hblanks, by rw [hrest, hcs]; rfl, .inr ⟨part, rfl, hmembers⟩⟩
    · cases h
  gives := by
    intro text t htext gap tail hgap _ offset
    obtain htext | ⟨cs, rfl, hmembers⟩ := htext
    · obtain ⟨rest, rfl, hrest⟩ := isTextOf_string_iff.mp htext
      obtain ⟨start, hskip⟩ :=
        skipBlanks_append hgap (stops_cons (c := '"') rfl (rest ++ tail)) offset
      obtain ⟨stop, hread⟩ := readName_gives hrest [] tail .nil start
      refine ⟨stop, ?_⟩
      rw [List.cons_append, OutputType.read, hskip]
      exact hread
    · obtain ⟨start, hskip⟩ :=
        skipBlanks_append hgap (stops_cons (c := '\x7b') rfl (cs ++ tail)) offset
      obtain ⟨stop, hread⟩ := read_members hmembers tail start
      refine ⟨stop, ?_⟩
      rw [List.cons_append, OutputType.read, hskip]
      exact hread

def Part.read : (p : Part) → Cursor → Except Failure (p.Value × Cursor)
  | .outputType => OutputType.read
  | .exitOnInvalidType => readBy Decoder.bool
  | .document => readBy Decoder.json
  | .expected | .expectedError => readBy (Decoder.optional Decoder.string)

theorem readPart_eq (d : Draft) (p : Part) (c : Cursor) :
    readPart d p c = (p.read c).map fun (v, c) => (d.set p v, c) := by
  cases p <;> rfl

theorem Part.matches : (p : Part) → Matches p.read p.IsText
  | .outputType => matches_outputType
  | .exitOnInvalidType => matches_readBy bool_eq_ok_iff
  | .document => matches_readBy json_eq_ok_iff
  | .expected => matches_readBy optionalString_eq_ok_iff
  | .expectedError => matches_readBy optionalString_eq_ok_iff

end ApiTypes.Fixture
