import ApiTypes.Proofs.IntegerText
import ApiTypes.Proofs.Quoting
import ApiTypes.Proofs.TextReading

/-!
# Compact text reads back

A value whose numbers are integers of 64 bits is read back from its compact text, as long
as no more brackets are open at once than a reader admits.  The text of a part may be
followed by a comma or a closing bracket: what is read ends where the part ends.
-/

namespace ApiTypes.Json
open Name (Follows follows_cons follows_nil)
open Text (tailText toList_joinWith_cons toList_quote_append)

/-! ### The parts of a value -/

mutual

/-- All numbers in a value. -/
def numbers : Json → List Number
  | .null | .bool _ | .string _ => []
  | .number n => [n]
  | .array items => itemsNumbers items
  | .object members => membersNumbers members

def itemsNumbers : List Json → List Number
  | [] => []
  | item :: rest => item.numbers ++ itemsNumbers rest

def membersNumbers : List (String × Json) → List Number
  | [] => []
  | (_, value) :: rest => value.numbers ++ membersNumbers rest

end

/-- Whether all numbers in a value are integers. -/
def Integral (value : Json) : Prop := ∀ n ∈ value.numbers, n.IsInteger

instance (value : Json) : Decidable value.Integral :=
  inferInstanceAs (Decidable (∀ n ∈ value.numbers, n.IsInteger))

theorem mem_itemsNumbers_iff {items : List Json} {n : Number} :
    n ∈ itemsNumbers items ↔ ∃ item ∈ items, n ∈ item.numbers := by
  induction items with
  | nil => simp [itemsNumbers]
  | cons item rest ih => simp [itemsNumbers, ih]

theorem mem_membersNumbers_iff {members : List (String × Json)} {n : Number} :
    n ∈ membersNumbers members ↔ ∃ member ∈ members, n ∈ member.2.numbers := by
  induction members with
  | nil => simp [membersNumbers]
  | cons member rest ih => simp only [membersNumbers, List.mem_append, ih, List.exists_mem_cons_iff]

theorem hereditary_integral : Hereditary Integral where
  item _ h item hitem n hn := h n (mem_itemsNumbers_iff.mpr ⟨item, hitem, hn⟩)
  member _ h member hmember n hn := h n (mem_membersNumbers_iff.mpr ⟨member, hmember, hn⟩)

mutual

/-- How many brackets are open at once in the text of a value. -/
def depth : Json → Nat
  | .null | .bool _ | .number _ | .string _ => 0
  | .array items => itemsDepth items + 1
  | .object members => membersDepth members + 1

def itemsDepth : List Json → Nat
  | [] => 0
  | item :: rest => max item.depth (itemsDepth rest)

def membersDepth : List (String × Json) → Nat
  | [] => 0
  | (_, value) :: rest => max value.depth (membersDepth rest)

end

/-! ### Entries -/

/-- The texts of entries with commas; before the first entry of all is none. -/
def separated : Bool → List String → List Char
  | true, text :: texts => text.toList ++ tailText texts
  | _, texts => tailText texts

theorem toList_joinWith (texts : List String) :
    (Text.joinWith "," texts).toList = separated true texts := by
  cases texts with
  | nil => rfl
  | cons text texts => exact toList_joinWith_cons text texts

theorem separated_true_cons (text : String) (texts : List String) :
    separated true (text :: texts) = text.toList ++ separated false texts := rfl

theorem separated_false_cons (text : String) (texts : List String) :
    separated false (text :: texts) = ',' :: (text.toList ++ separated false texts) := rfl

theorem follows_separated {close : Char} (hclose : close ∈ closers) (texts : List String)
    (rest : List Char) : Follows closers (separated false texts ++ close :: rest) := by
  cases texts with
  | nil => exact follows_cons hclose
  | cons text texts => exact follows_cons (by decide)

/-- Whether a text begins with a character that is neither blank nor a bracket that closes
a list. -/
def Opens (text : String) : Prop :=
  ∃ x xs, text.toList = x :: xs ∧ Cursor.isBlank x = false ∧ x ≠ ']'

theorem skipBlanks_cons {x : Char} (h : Cursor.isBlank x = false) (xs : List Char)
    (offset : Nat) : (⟨x :: xs, offset⟩ : Cursor).skipBlanks = ⟨x :: xs, offset⟩ := by
  simp [Cursor.skipBlanks, Cursor.skipFrom, h]

section
variable {text : String} (isFirst : Bool) (texts : List String) (rest : List Char) (offset : Nat)

theorem nextItem_entry (h : Opens text) : ∃ start,
    nextItem isFirst ⟨separated isFirst (text :: texts) ++ rest, offset⟩ =
      .ok (.entry ⟨text.toList ++ (separated false texts ++ rest), start⟩) := by
  obtain ⟨x, xs, htext, hblank, hclose⟩ := h
  cases isFirst with
  | true =>
    refine ⟨offset, ?_⟩
    rw [separated_true_cons, htext, List.append_assoc, List.cons_append, nextItem]
    simp [skipBlanks_cons hblank]
  | false =>
    refine ⟨offset + 1, ?_⟩
    have hcomma : Cursor.isBlank ',' = false := rfl
    rw [separated_false_cons, htext, List.cons_append, List.append_assoc, List.cons_append,
      nextItem, skipBlanks_cons hcomma]
    simp only [Char.reduceEq, imp_self, Bool.false_eq_true, if_false, if_true, Cursor.next,
      skipBlanks_cons hblank]
    split
    · rename_i hnil
      cases hnil
    · rename_i hcons
      exact absurd (List.cons.inj hcons).1 hclose
    · rfl

theorem nextItem_close :
    ∃ stop, nextItem isFirst ⟨']' :: rest, offset⟩ = .ok (.close ⟨rest, stop⟩) :=
  ⟨_, rfl⟩

theorem nextMember_entry {xs : List Char} (h : text.toList = '"' :: xs) : ∃ start,
    nextMember isFirst ⟨separated isFirst (text :: texts) ++ rest, offset⟩ =
      .ok (.entry ⟨text.toList ++ (separated false texts ++ rest), start⟩) := by
  cases isFirst with
  | true =>
    refine ⟨offset, ?_⟩
    rw [separated_true_cons, h, List.append_assoc]
    rfl
  | false =>
    refine ⟨offset + 1, ?_⟩
    rw [separated_false_cons, h, List.cons_append, List.append_assoc]
    rfl

theorem nextMember_close :
    ∃ stop, nextMember isFirst ⟨'\x7d' :: rest, offset⟩ = .ok (.close ⟨rest, stop⟩) :=
  ⟨_, rfl⟩

theorem readLabel_quote (key : String) : ∃ label c stop,
    readLabel ⟨(Text.quote key).toList ++ ':' :: rest, offset⟩ = .ok (label, c) ∧
      readColon c = .ok ⟨rest, stop⟩ ∧ label.key = key := by
  obtain ⟨colon, hread⟩ := readString_quote key (':' :: rest) (offset + '"'.utf8Size)
  refine ⟨⟨key, labelStop ⟨':' :: rest, colon⟩⟩, ⟨':' :: rest, colon⟩, _, ?_, rfl, rfl⟩
  rw [toList_quote_append, readLabel, Cursor.next, hread]
  rfl

end

/-! ### Values -/

/-- What reading gives where a value stands: a sound node of that value, and the cursor at
what follows it. -/
def ReadsTo (reading : Node × Option Cursor) (value : Json) (rest : List Char) : Prop :=
  ∃ node stop, reading = (node, some ⟨rest, stop⟩) ∧ node.Sound ∧ node.toJson = value

/-- Whether a value is read back from its compact text. -/
def ReadsBack (value : Json) : Prop :=
  ∀ (fuel depth offset : Nat) (rest : List Char), Follows closers rest →
    2 * value.compact.toList.length ≤ fuel + 1 → value.depth ≤ depth →
    ReadsTo (readValue (fuel + 1) depth ⟨value.compact.toList ++ rest, offset⟩) value rest

theorem sound_scalar (value : Scalar) (stop : Nat) : (Node.scalar value stop).Sound :=
  ⟨rfl, trivial⟩

section
variable (fuel depth : Nat) (xs : List Char) (offset : Nat)

theorem readValue_quote : readValue (fuel + 1) depth ⟨'"' :: xs, offset⟩ =
    match readString ⟨xs, offset + 1⟩ with
    | .ok (s, c) => (.scalar (.string s) c.offset, some c)
    | .error fault => (.broken fault, none) := rfl

theorem readValue_bracket : readValue (fuel + 1) (depth + 1) ⟨'[' :: xs, offset⟩ =
    (.array offset (readItems fuel depth true ⟨xs, offset + 1⟩).1
      (readItems fuel depth true ⟨xs, offset + 1⟩).2.1,
        (readItems fuel depth true ⟨xs, offset + 1⟩).2.2) := rfl

theorem readValue_brace : readValue (fuel + 1) (depth + 1) ⟨'\x7b' :: xs, offset⟩ =
    (.object offset (readMembers fuel depth true ⟨xs, offset + 1⟩).1
      (readMembers fuel depth true ⟨xs, offset + 1⟩).2.1,
        (readMembers fuel depth true ⟨xs, offset + 1⟩).2.2) := rfl

theorem ne_of_number {x y : Char} (hx : x = '-' ∨ x.isDigit = true)
    (hy : ¬ (y = '-' ∨ y.isDigit = true)) : x ≠ y := by
  rintro rfl
  exact hy hx

theorem isBlank_of_number {x : Char} (hx : x = '-' ∨ x.isDigit = true) :
    Cursor.isBlank x = false := by
  have hspace : x ≠ ' ' := ne_of_number hx (by decide)
  have hbreak : x ≠ '\n' := ne_of_number hx (by decide)
  have htab : x ≠ '\t' := ne_of_number hx (by decide)
  have hreturn : x ≠ '\r' := ne_of_number hx (by decide)
  simp [Cursor.isBlank, hspace, hbreak, htab, hreturn]

theorem readValue_number {x : Char} (hx : x = '-' ∨ x.isDigit = true) :
    readValue (fuel + 1) depth ⟨x :: xs, offset⟩ =
      match readNumber ⟨x :: xs, offset⟩ with
      | .ok (n, c) => (.scalar (.number n) c.offset, some c)
      | .error fault => (.broken fault, none) := by
  unfold readValue
  simp only [skipBlanks_cons (isBlank_of_number hx)]
  split
  · rename_i h
    cases h
  · rename_i h
    exact absurd (List.cons.inj h).1 (ne_of_number hx (by decide))
  · rename_i h
    exact absurd (List.cons.inj h).1 (ne_of_number hx (by decide))
  · rename_i h
    exact absurd (List.cons.inj h).1 (ne_of_number hx (by decide))
  · rename_i h
    exact absurd (List.cons.inj h).1 (ne_of_number hx (by decide))
  · rename_i h
    exact absurd (List.cons.inj h).1 (ne_of_number hx (by decide))
  · rename_i h
    exact absurd (List.cons.inj h).1 (ne_of_number hx (by decide))
  · rename_i h
    obtain ⟨rfl, rfl⟩ := List.cons.inj h
    exact if_pos hx

end

theorem readsBack_null : ReadsBack .null :=
  fun _ _ _ _ _ _ _ => ⟨_, _, rfl, sound_scalar _ _, rfl⟩

theorem readsBack_bool (b : Bool) : ReadsBack (.bool b) := by
  cases b with
  | false => exact fun _ _ _ _ _ _ _ => ⟨_, _, rfl, sound_scalar _ _, rfl⟩
  | true => exact fun _ _ _ _ _ _ _ => ⟨_, _, rfl, sound_scalar _ _, rfl⟩

theorem readsBack_string (s : String) : ReadsBack (.string s) := by
  intro fuel depth offset rest _ _ _
  obtain ⟨stop, hread⟩ := readString_quote s rest (offset + 1)
  rw [compact, toList_quote_append, readValue_quote, hread]
  exact ⟨_, stop, rfl, sound_scalar _ _, rfl⟩

theorem readsBack_integer {n : Int} (hn : (Number.integer n).IsInteger) :
    ReadsBack (.number (.integer n)) := by
  intro fuel depth offset rest hrest _ _
  obtain ⟨stop, hread⟩ := readNumber_text hn hrest offset
  obtain ⟨x, xs, htext, hx⟩ := exists_head_text n
  rw [htext] at hread
  rw [compact, htext, List.cons_append, readValue_number _ _ _ _ hx, ← List.cons_append, hread]
  exact ⟨_, stop, rfl, sound_scalar _ _, rfl⟩

/-! ### Lists and objects -/

theorem Opens.one_le {text : String} (h : Opens text) : 1 ≤ text.toList.length := by
  obtain ⟨x, xs, htext, -, -⟩ := h
  rw [htext, List.length_cons]
  omega

theorem length_separated_cons (isFirst : Bool) (text : String) (texts : List String) :
    text.toList.length + (separated false texts).length ≤
      (separated isFirst (text :: texts)).length := by
  cases isFirst with
  | true => simp only [separated_true_cons, List.length_append, Nat.le_refl]
  | false =>
    rw [separated_false_cons, List.length_cons, List.length_append]
    omega

theorem readItems_compact {depth : Nat} {items : List Json}
    (hitems : ∀ item ∈ items, ReadsBack item) (hopens : ∀ item ∈ items, Opens item.compact)
    (hdepth : itemsDepth items ≤ depth) (isFirst : Bool) (fuel offset : Nat) (rest : List Char)
    (hfuel : 2 * (separated isFirst (compactItems items)).length ≤ fuel) :
    ∃ nodes close stop, readItems (fuel + 1) depth isFirst
        ⟨separated isFirst (compactItems items) ++ ']' :: rest, offset⟩ =
          (nodes, .closed close, some ⟨rest, stop⟩) ∧
      Node.itemsFault? nodes = none ∧ Node.DistinctItems nodes ∧
        Node.itemsToJson nodes = items := by
  induction items generalizing isFirst fuel offset with
  | nil =>
    have hnone : separated isFirst (compactItems []) = [] := by cases isFirst <;> rfl
    obtain ⟨stop, hclose⟩ := nextItem_close isFirst rest offset
    refine ⟨[], stop, stop, ?_, rfl, trivial, rfl⟩
    rw [hnone, List.nil_append, readItems, hclose]
  | cons item items ih =>
    rw [List.forall_mem_cons] at hitems hopens
    rw [itemsDepth, Nat.max_le] at hdepth
    rw [compactItems] at hfuel ⊢
    -- the item takes a character at least, which leaves fuel for it and for what follows
    have hlength := length_separated_cons isFirst item.compact (compactItems items)
    have hone := hopens.1.one_le
    obtain ⟨n, rfl⟩ : ∃ n, fuel = n + 1 := ⟨fuel - 1, by omega⟩
    obtain ⟨start, hentry⟩ :=
      nextItem_entry isFirst (compactItems items) (']' :: rest) offset hopens.1
    obtain ⟨node, middle, hnode, hsound, hvalue⟩ := hitems.1 n depth start
      (separated false (compactItems items) ++ ']' :: rest)
      (follows_separated (by decide) _ _) (by omega) hdepth.1
    obtain ⟨nodes, close, stop, hread, hfault, hdistinct, htail⟩ :=
      ih hitems.2 hopens.2 hdepth.2 false n middle (by omega)
    refine ⟨node :: nodes, close, stop, ?_, ?_, ⟨hsound.distinct, hdistinct⟩, ?_⟩
    · rw [readItems, hentry]
      simp only [hnode, hread]
    · rw [Node.itemsFault?, hsound.faultless, hfault]
      rfl
    · rw [Node.itemsToJson, hvalue, htail]

theorem toList_compact_array (items : List Json) : (compact (.array items)).toList =
    '[' :: (separated true (compactItems items) ++ [']']) := by
  rw [compact, String.toList_append, String.toList_append, toList_joinWith]
  rfl

theorem readsBack_array {items : List Json} (hitems : ∀ item ∈ items, ReadsBack item)
    (hopens : ∀ item ∈ items, Opens item.compact) : ReadsBack (.array items) := by
  intro fuel depth offset rest _ hfuel hdepth
  rw [toList_compact_array] at hfuel ⊢
  simp only [List.length_cons, List.length_append] at hfuel
  rw [Json.depth] at hdepth
  obtain ⟨n, rfl⟩ : ∃ n, fuel = n + 1 := ⟨fuel - 1, by omega⟩
  obtain ⟨d, rfl⟩ : ∃ d, depth = d + 1 := ⟨depth - 1, by omega⟩
  obtain ⟨nodes, close, stop, hread, hfault, hdistinct, hvalue⟩ := readItems_compact hitems hopens
    (Nat.le_of_succ_le_succ hdepth) true n (offset + 1) rest (by omega)
  refine ⟨.array offset nodes (.closed close), stop, ?_, ⟨?_, hdistinct⟩, congrArg array hvalue⟩
  · rw [List.cons_append, List.append_assoc, List.singleton_append, readValue_bracket, hread]
  · rw [Node.fault?, hfault]
    rfl

theorem toList_member (key : String) (value : Json) :
    (Text.quote key ++ ":" ++ value.compact).toList =
      (Text.quote key).toList ++ ':' :: value.compact.toList := by
  rw [String.toList_append, String.toList_append, List.append_assoc]
  rfl

theorem exists_toList_quote (s : String) : ∃ xs, (Text.quote s).toList = '"' :: xs :=
  ⟨_, String.toList_ofList⟩

theorem readMembers_compact {depth : Nat} {members : List (String × Json)}
    (hmembers : ∀ member ∈ members, ReadsBack member.2)
    (hdepth : membersDepth members ≤ depth) (isFirst : Bool) (fuel offset : Nat)
    (rest : List Char)
    (hfuel : 2 * (separated isFirst (compactMembers members)).length ≤ fuel) :
    ∃ nodes close stop, readMembers (fuel + 1) depth isFirst
        ⟨separated isFirst (compactMembers members) ++ '\x7d' :: rest, offset⟩ =
          (nodes, .closed close, some ⟨rest, stop⟩) ∧
      Node.membersFault? nodes = none ∧ Node.DistinctMembers nodes ∧
        Node.membersToJson nodes = members := by
  induction members generalizing isFirst fuel offset with
  | nil =>
    have hnone : separated isFirst (compactMembers []) = [] := by cases isFirst <;> rfl
    obtain ⟨stop, hclose⟩ := nextMember_close isFirst rest offset
    refine ⟨[], stop, stop, ?_, rfl, trivial, rfl⟩
    rw [hnone, List.nil_append, readMembers, hclose]
  | cons member members ih =>
    obtain ⟨key, value⟩ := member
    obtain ⟨hvalueReads, hrest⟩ : ReadsBack value ∧ ∀ member ∈ members, ReadsBack member.2 :=
      List.forall_mem_cons.mp hmembers
    rw [membersDepth, Nat.max_le] at hdepth
    rw [compactMembers] at hfuel ⊢
    obtain ⟨xs, hquote⟩ := exists_toList_quote key
    have hlength := length_separated_cons isFirst (Text.quote key ++ ":" ++ value.compact)
      (compactMembers members)
    rw [toList_member, List.length_append, List.length_cons] at hlength
    obtain ⟨n, rfl⟩ : ∃ n, fuel = n + 1 := ⟨fuel - 1, by omega⟩
    obtain ⟨start, hentry⟩ := nextMember_entry isFirst (compactMembers members) ('\x7d' :: rest)
      offset ((toList_member key value).trans (by rw [hquote, List.cons_append]))
    rw [toList_member, List.append_assoc, List.cons_append] at hentry
    obtain ⟨label, colon, behind, hlabel, hcolon, rfl⟩ := readLabel_quote
      (value.compact.toList ++ (separated false (compactMembers members) ++ '\x7d' :: rest))
      start key
    obtain ⟨node, middle, hnode, hsound, hvalue⟩ := hvalueReads n depth behind
      (separated false (compactMembers members) ++ '\x7d' :: rest)
      (follows_separated (by decide) _ _) (by omega) hdepth.1
    obtain ⟨nodes, close, stop, hread, hfault, hdistinct, htail⟩ :=
      ih hrest hdepth.2 false n middle (by omega)
    refine ⟨(label, node) :: nodes, close, stop, ?_, ?_, ⟨hsound.distinct, hdistinct⟩, ?_⟩
    · rw [readMembers, hentry]
      simp only [hlabel, hcolon, hnode, hread]
    · rw [Node.membersFault?, hsound.faultless, hfault]
      rfl
    · rw [Node.membersToJson, hvalue, htail]

theorem toList_compact_object (members : List (String × Json)) :
    (compact (.object members)).toList =
      '\x7b' :: (separated true (compactMembers members) ++ ['\x7d']) := by
  rw [compact, String.toList_append, String.toList_append, toList_joinWith]
  rfl

theorem readsBack_object {members : List (String × Json)} (hkeys : (members.map Prod.fst).Nodup)
    (hmembers : ∀ member ∈ members, ReadsBack member.2) : ReadsBack (.object members) := by
  intro fuel depth offset rest _ hfuel hdepth
  rw [toList_compact_object] at hfuel ⊢
  simp only [List.length_cons, List.length_append] at hfuel
  rw [Json.depth] at hdepth
  obtain ⟨n, rfl⟩ : ∃ n, fuel = n + 1 := ⟨fuel - 1, by omega⟩
  obtain ⟨d, rfl⟩ : ∃ d, depth = d + 1 := ⟨depth - 1, by omega⟩
  obtain ⟨nodes, close, stop, hread, hfault, hdistinct, hvalue⟩ := readMembers_compact hmembers
    (Nat.le_of_succ_le_succ hdepth) true n (offset + 1) rest (by omega)
  have hnodeKeys : (nodes.map fun member => member.1.key).Nodup := by
    rw [← Node.keys_membersToJson, hvalue]
    exact hkeys
  refine ⟨.object offset nodes (.closed close), stop, ?_, ⟨?_, hnodeKeys, hdistinct⟩, ?_⟩
  · rw [List.cons_append, List.append_assoc, List.singleton_append, readValue_brace, hread]
  · rw [Node.fault?, hfault]
    rfl
  · rw [Node.toJson_object hnodeKeys, hvalue]

/-! ### All values -/

theorem opens_compact (value : Json) (hvalue : value.Integral) : Opens value.compact := by
  cases value with
  | null => exact ⟨'n', _, rfl, rfl, by decide⟩
  | bool b =>
    cases b with
    | false => exact ⟨'f', _, rfl, rfl, by decide⟩
    | true => exact ⟨'t', _, rfl, rfl, by decide⟩
  | number n =>
    have hn : n.IsInteger := hvalue n (List.mem_singleton_self n)
    cases n with
    | double x => exact absurd hn id
    | integer n =>
      obtain ⟨x, xs, htext, hx⟩ := exists_head_text n
      exact ⟨x, xs, htext, isBlank_of_number hx, ne_of_number hx (by decide)⟩
  | string s =>
    obtain ⟨xs, hquote⟩ := exists_toList_quote s
    exact ⟨'"', xs, hquote, rfl, by decide⟩
  | array items => exact ⟨'[', _, toList_compact_array items, rfl, by decide⟩
  | object members => exact ⟨'\x7b', _, toList_compact_object members, rfl, by decide⟩

theorem readsBack : ∀ value : Json, value.Distinct → value.Integral → ReadsBack value
  | .null, _, _ => readsBack_null
  | .bool b, _, _ => readsBack_bool b
  | .number (.integer n), _, h => readsBack_integer (h _ (List.mem_singleton_self _))
  | .number (.double x), _, h => absurd (h _ (List.mem_singleton_self _)) id
  | .string s, _, _ => readsBack_string s
  | .array items, hdistinct, h =>
    have hitems := hereditary_integral.item items h
    readsBack_array
      (fun item hitem =>
        have := List.sizeOf_lt_of_mem hitem
        readsBack item (distinctItems_iff.mp hdistinct item hitem) (hitems item hitem))
      fun item hitem => opens_compact item (hitems item hitem)
  | .object members, hdistinct, h =>
    readsBack_object hdistinct.1 fun (key, value) hmember =>
      have : sizeOf value < sizeOf members := by
        have hlt := List.sizeOf_lt_of_mem hmember
        simp only [Prod.mk.sizeOf_spec] at hlt
        omega
      readsBack value (distinctMembers_iff.mp hdistinct.2 _ hmember)
        (hereditary_integral.member members h _ hmember)
termination_by value => sizeOf value

theorem readNode_compact {value : Json} (hdistinct : value.Distinct) (hnumbers : value.Integral)
    (hdepth : value.depth ≤ nestingLimit) :
    ReadsTo (readNode nestingLimit (Cursor.ofString value.compact)) value [] := by
  have hread := readsBack value hdistinct hnumbers (2 * value.compact.toList.length + 1)
    nestingLimit 0 [] follows_nil (by omega) hdepth
  rwa [List.append_nil] at hread

/-- A value of integers is what its compact text is parsed to. -/
theorem parse_compact {value : Json} (hdistinct : value.Distinct) (hnumbers : value.Integral)
    (hdepth : value.depth ≤ nestingLimit) : parse value.compact = .ok value := by
  obtain ⟨node, stop, hread, hsound, hvalue⟩ := readNode_compact hdistinct hnumbers hdepth
  rw [parse, hread]
  simp only [hsound.faultless, hvalue]
  rfl

theorem repeatsNoKey_compact {value : Json} (hdistinct : value.Distinct)
    (hnumbers : value.Integral) (hdepth : value.depth ≤ nestingLimit) :
    RepeatsNoKey value.compact := by
  obtain ⟨node, stop, hread, hsound, -⟩ := readNode_compact hdistinct hnumbers hdepth
  refine ⟨?_⟩
  rw [hread]
  exact hsound.distinct

end ApiTypes.Json
