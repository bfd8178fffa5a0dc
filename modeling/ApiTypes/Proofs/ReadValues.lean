import ApiTypes.Proofs.ReadEntries

/-!
# Values that are read

What a reader takes for a value is the text of a value, and the value it gets depends on that
text alone: not on where it stands, nor on what follows it, nor on the blanks before it.
-/

namespace ApiTypes.Json
open Node (itemsFault? membersFault? itemsToJson membersToJson)

/-! ### What a reader gets -/

/-- Whether reading got a value without faults, up to `rest`. -/
def GetsValue (reading : Node × Option Cursor) (value : Json) (rest : List Char) : Prop :=
  ∃ node stop, reading = (node, some ⟨rest, stop⟩) ∧ node.fault? = none ∧ node.toJson = value

def GetsItems (reading : List Node × Finish × Option Cursor) (values : List Json)
    (rest : List Char) : Prop :=
  ∃ items finish stop, reading = (items, finish, some ⟨rest, stop⟩) ∧
    itemsFault? items = none ∧ finish.fault? = none ∧ itemsToJson items = values

def GetsMembers (reading : List (Label × Node) × Finish × Option Cursor)
    (pairs : List (String × Json)) (rest : List Char) : Prop :=
  ∃ members finish stop, reading = (members, finish, some ⟨rest, stop⟩) ∧
    membersFault? members = none ∧ finish.fault? = none ∧ membersToJson members = pairs

/-- Whether a text gives this value wherever it stands; as a number it has to end there. -/
def GivesValue (depth : Nat) (part : List Char) (value : Json) : Prop :=
  ∀ fuel, 2 * part.length ≤ fuel → ∀ gap, IsBlank gap → ∀ tail, (IsNumber part → Ends tail) →
    ∀ offset, GetsValue (readValue fuel depth ⟨gap ++ (part ++ tail), offset⟩) value tail

def GivesItems (depth : Nat) (isFirst : Bool) (part : List Char) (values : List Json) : Prop :=
  ∀ fuel, 2 * part.length ≤ fuel → ∀ tail offset,
    GetsItems (readItems fuel depth isFirst ⟨part ++ tail, offset⟩) values tail

def GivesMembers (depth : Nat) (isFirst : Bool) (part : List Char)
    (pairs : List (String × Json)) : Prop :=
  ∀ fuel, 2 * part.length ≤ fuel → ∀ tail offset,
    GetsMembers (readMembers fuel depth isFirst ⟨part ++ tail, offset⟩) pairs tail

/-! ### Blanks -/

theorem readValue_congr {c d : Cursor} (h : c.skipBlanks = d.skipBlanks) (fuel depth : Nat) :
    readValue (fuel + 1) depth c = readValue (fuel + 1) depth d := by
  rw [readValue.eq_def, readValue.eq_def (fuel + 1) depth d]
  dsimp only
  rw [h]

theorem readValue_blanks {gap cs : List Char} (hgap : IsBlank gap)
    (hcs : Name.Stops Cursor.isBlank cs) (fuel depth offset : Nat) : ∃ start,
    readValue (fuel + 1) depth ⟨gap ++ cs, offset⟩ = readValue (fuel + 1) depth ⟨cs, start⟩ := by
  obtain ⟨start, hskip⟩ := skipBlanks_append hgap hcs offset
  exact ⟨start, readValue_congr (hskip.trans (skipBlanks_of_stops hcs start).symm) fuel depth⟩

/-! ### Values without parts -/

section
variable {depth : Nat}

/-- A value is given where it is read from its first character on. -/
theorem givesValue_of_start {part : List Char} {value : Json} (hvalue : IsValue part)
    (h : ∀ fuel, 2 * part.length ≤ fuel + 1 → ∀ tail, (IsNumber part → Ends tail) → ∀ offset,
      GetsValue (readValue (fuel + 1) depth ⟨part ++ tail, offset⟩) value tail) :
    GivesValue depth part value := by
  intro fuel hfuel gap hgap tail htail offset
  have hpositive := hvalue.length_pos
  obtain ⟨fuel, rfl⟩ : ∃ n, fuel = n + 1 := ⟨fuel - 1, by omega⟩
  obtain ⟨start, hstart⟩ := readValue_blanks hgap (hvalue.opens tail).stops fuel depth offset
  rw [hstart]
  exact h fuel hfuel tail htail start

theorem givesValue_constant {word : String} {value : Scalar}
    (hword : word ∈ ["null", "true", "false"])
    (h : ∀ fuel cs offset, readValue (fuel + 1) depth ⟨word.toList ++ cs, offset⟩ =
      readConstant word value ⟨word.toList ++ cs, offset⟩) :
    GivesValue depth word.toList value.toJson := by
  refine givesValue_of_start (.word hword) fun fuel _ tail _ offset => ?_
  obtain ⟨stop, hread⟩ := passes_readWord word.toList tail offset
  rw [h, readConstant, hread]
  exact ⟨_, stop, rfl, rfl, rfl⟩

theorem givesValue_string {part : List Char} {s : String} (h : IsStringOf part s) :
    GivesValue depth ('"' :: part) (.string s) := by
  refine givesValue_of_start (.string h.isRest) fun fuel _ tail _ offset => ?_
  obtain ⟨stop, hread⟩ := h.gives tail trivial (offset + 1)
  rw [List.cons_append, readValue_quote, hread]
  exact ⟨_, stop, rfl, rfl, rfl⟩

theorem givesValue_number {part : List Char} {n : Number} (h : IsNumber part)
    (hgives : Gives Ends readNumber part n) : GivesValue depth part (.number n) := by
  refine givesValue_of_start (.number h) fun fuel _ tail htail offset => ?_
  obtain ⟨stop, hread⟩ := hgives tail (htail h) offset
  obtain ⟨x, cs, rfl, hx⟩ := h.head
  rw [List.cons_append, readValue_number fuel depth _ offset hx, ← List.cons_append, hread]
  exact ⟨_, stop, rfl, rfl, rfl⟩

/-! ### Lists and objects -/

theorem givesValue_list {part : List Char} {values : List Json} (h : Inside .list true part)
    (hitems : GivesItems depth true part values) :
    GivesValue (depth + 1) ('[' :: part) (.array values) := by
  refine givesValue_of_start (.enclosed h) fun fuel hfuel tail _ offset => ?_
  rw [List.length_cons] at hfuel
  obtain ⟨items, finish, stop, hread, hfault, hfinish, hvalues⟩ :=
    hitems fuel (by omega) tail (offset + 1)
  rw [List.cons_append, readValue_bracket, hread]
  exact ⟨_, stop, rfl, (Option.orElse_eq_none _ _).mpr ⟨hfault, hfinish⟩,
    congrArg Json.array hvalues⟩

theorem givesValue_object {part : List Char} {pairs : List (String × Json)}
    (h : Inside .object true part) (hmembers : GivesMembers depth true part pairs) :
    GivesValue (depth + 1) ('\x7b' :: part) (.object (Members.ofList pairs)) := by
  refine givesValue_of_start (.enclosed h) fun fuel hfuel tail _ offset => ?_
  rw [List.length_cons] at hfuel
  obtain ⟨members, finish, stop, hread, hfault, hfinish, hpairs⟩ :=
    hmembers fuel (by omega) tail (offset + 1)
  rw [List.cons_append, readValue_brace, hread]
  exact ⟨_, stop, rfl, (Option.orElse_eq_none _ _).mpr ⟨hfault, hfinish⟩,
    congrArg (fun pairs => Json.object (Members.ofList pairs)) hpairs⟩

theorem givesItems_close {isFirst : Bool} {blanks : List Char} (h : IsBlank blanks) :
    GivesItems depth isFirst (blanks ++ [']']) [] := by
  intro fuel hfuel tail offset
  rw [List.length_append, List.length_singleton] at hfuel
  obtain ⟨fuel, rfl⟩ : ∃ n, fuel = n + 1 := ⟨fuel - 1, by omega⟩
  obtain ⟨stop, hnext⟩ := nextItem_blanks h isFirst tail offset
  rw [List.append_assoc, List.singleton_append, readItems, hnext]
  exact ⟨[], _, stop, rfl, rfl, rfl, rfl⟩

theorem givesItems_entry {isFirst : Bool} {separator part rest : List Char} {value : Json}
    {values : List Json} (hseparator : IsSeparator isFirst separator) (hpart : IsValue part)
    (hrest : Inside .list false rest) (hvalue : GivesValue depth part value)
    (hvalues : GivesItems depth false rest values) :
    GivesItems depth isFirst (separator ++ (part ++ rest)) (value :: values) := by
  intro fuel hfuel tail offset
  have hpositive := hpart.length_pos
  simp only [List.length_append] at hfuel
  obtain ⟨fuel, rfl⟩ : ∃ n, fuel = n + 1 := ⟨fuel - 1, by omega⟩
  obtain ⟨start, hnext⟩ := nextItem_separator hseparator (hpart.opens (rest ++ tail)) offset
  obtain ⟨node, middle, hread, hfault, rfl⟩ := hvalue fuel (by have := hrest.length_pos; omega)
    [] .nil (rest ++ tail) (fun _ => hrest.ends tail) start
  obtain ⟨items, finish, stop, hreads, hfaults, hfinish, rfl⟩ :=
    hvalues fuel (by omega) tail middle
  rw [List.append_assoc, List.append_assoc, readItems, hnext]
  rw [List.nil_append] at hread
  simp only [hread, hreads]
  exact ⟨node :: items, finish, stop, rfl, (Option.orElse_eq_none _ _).mpr ⟨hfault, hfaults⟩,
    hfinish, rfl⟩

theorem givesMembers_close {isFirst : Bool} {blanks : List Char} (h : IsBlank blanks) :
    GivesMembers depth isFirst (blanks ++ ['\x7d']) [] := by
  intro fuel hfuel tail offset
  rw [List.length_append, List.length_singleton] at hfuel
  obtain ⟨fuel, rfl⟩ : ∃ n, fuel = n + 1 := ⟨fuel - 1, by omega⟩
  obtain ⟨stop, hnext⟩ := nextMember_blanks h isFirst tail offset
  rw [List.append_assoc, List.singleton_append, readMembers, hnext]
  exact ⟨[], _, stop, rfl, rfl, rfl, rfl⟩

theorem givesMembers_entry {isFirst : Bool} {separator label part rest : List Char}
    {key : String} {value : Json} {pairs : List (String × Json)}
    (hseparator : IsSeparator isFirst separator) (hlabel : IsLabelOf label key)
    (hrest : Inside .object false rest) (hvalue : GivesValue depth part value)
    (hpairs : GivesMembers depth false rest pairs) :
    GivesMembers depth isFirst (separator ++ (label ++ (part ++ rest)))
      ((key, value) :: pairs) := by
  obtain @⟨keyPart, before, after, _, hkey, hbefore, hafter⟩ := hlabel
  intro fuel hfuel tail offset
  simp only [List.length_append, List.length_cons] at hfuel
  obtain ⟨fuel, rfl⟩ : ∃ n, fuel = n + 1 := ⟨fuel - 1, by omega⟩
  obtain ⟨start, hnext⟩ := nextMember_separator hseparator
    (keyPart ++ (before ++ ':' :: (after ++ (part ++ (rest ++ tail))))) offset
  obtain ⟨label, colon, hlabel, rfl⟩ :=
    hkey.readLabel (before ++ ':' :: (after ++ (part ++ (rest ++ tail)))) start
  obtain ⟨behind, hcolon⟩ := passes_readColon hbefore (after ++ (part ++ (rest ++ tail))) colon
  obtain ⟨node, middle, hread, hfault, rfl⟩ := hvalue fuel (by omega)
    after hafter (rest ++ tail) (fun _ => hrest.ends tail) behind
  obtain ⟨members, finish, stop, hreads, hfaults, hfinish, rfl⟩ :=
    hpairs fuel (by omega) tail middle
  simp only [List.append_assoc, List.cons_append]
  rw [readMembers, hnext]
  simp only [hlabel, hcolon, hread, hreads]
  exact ⟨(label, node) :: members, finish, stop, rfl,
    (Option.orElse_eq_none _ _).mpr ⟨hfault, hfaults⟩, hfinish, rfl⟩

end

/-! ### What a reader takes -/

theorem part_of_readConstant {word : String} {value : Scalar} {c c' : Cursor} {node : Node}
    (h : readConstant word value c = (node, some c')) :
    c.rest = word.toList ++ c'.rest ∧ node.fault? = none ∧ node.toJson = value.toJson := by
  rw [readConstant] at h
  split at h
  · rename_i after hread
    obtain ⟨rfl, hafter⟩ := Prod.mk.inj h
    obtain rfl := Option.some.inj hafter
    exact ⟨rest_of_readWord hread, rfl, rfl⟩
  · cases h

/-- What is taken for a value is one, and gives this value wherever it stands. -/
def TakesValue (fuel : Nat) : Prop :=
  ∀ {depth : Nat} {c c' : Cursor} {node : Node}, readValue fuel depth c = (node, some c') →
    node.fault? = none ∧ ∃ blanks part, IsBlank blanks ∧ c.rest = blanks ++ (part ++ c'.rest) ∧
      IsValue part ∧ GivesValue depth part node.toJson

def TakesItems (fuel : Nat) : Prop :=
  ∀ {depth : Nat} {isFirst : Bool} {c c' : Cursor} {items : List Node} {finish : Finish},
    readItems fuel depth isFirst c = (items, finish, some c') →
    itemsFault? items = none ∧ finish.fault? = none ∧ ∃ part, c.rest = part ++ c'.rest ∧
      Inside .list isFirst part ∧ GivesItems depth isFirst part (itemsToJson items)

def TakesMembers (fuel : Nat) : Prop :=
  ∀ {depth : Nat} {isFirst : Bool} {c c' : Cursor} {members : List (Label × Node)}
    {finish : Finish}, readMembers fuel depth isFirst c = (members, finish, some c') →
    membersFault? members = none ∧ finish.fault? = none ∧ ∃ part, c.rest = part ++ c'.rest ∧
      Inside .object isFirst part ∧ GivesMembers depth isFirst part (membersToJson members)

section
variable {fuel : Nat}

theorem takesValue_succ (hitems : TakesItems fuel) (hmembers : TakesMembers fuel) :
    TakesValue (fuel + 1) := by
  intro depth c c' node h
  obtain ⟨blanks, rest, stop, hskip, hrest, hblanks, -⟩ := exists_skipBlanks c
  rw [hrest]
  have hword : ∀ (word : String) (value : Scalar), word ∈ ["null", "true", "false"] →
      (∀ fuel cs offset, readValue (fuel + 1) depth ⟨word.toList ++ cs, offset⟩ =
        readConstant word value ⟨word.toList ++ cs, offset⟩) →
      readConstant word value ⟨rest, stop⟩ = (node, some c') →
      node.fault? = none ∧ ∃ blanks' part, IsBlank blanks' ∧
        blanks ++ rest = blanks' ++ (part ++ c'.rest) ∧ IsValue part ∧
        GivesValue depth part node.toJson := by
    intro word value hword hconstant h
    obtain ⟨hpart, hfault, hvalue⟩ := part_of_readConstant h
    have hpart : rest = word.toList ++ c'.rest := hpart
    refine ⟨hfault, blanks, word.toList, hblanks, by rw [hpart], .word hword, ?_⟩
    rw [hvalue]
    exact givesValue_constant hword hconstant
  rw [readValue.eq_def] at h
  dsimp only at h
  rw [hskip] at h
  dsimp only at h
  split at h
  · cases h
  · exact hword "null" .null (by simp) (fun _ _ _ => rfl) h
  · exact hword "true" (.bool true) (by simp) (fun _ _ _ => rfl) h
  · exact hword "false" (.bool false) (by simp) (fun _ _ _ => rfl) h
  · rename_i cs
    split at h
    · rename_i s after hread
      obtain ⟨rfl, hafter⟩ := Prod.mk.inj h
      obtain rfl := Option.some.inj hafter
      obtain ⟨part, hpart, hstring⟩ := isStringOf_of_readString hread
      have hpart : cs = part ++ after.rest := hpart
      exact ⟨rfl, blanks, '"' :: part, hblanks, by rw [hpart]; rfl, .string hstring.isRest,
        givesValue_string hstring⟩
    · cases h
  · rename_i cs
    split at h
    · cases h
    · rename_i depth
      obtain ⟨rfl, hnext⟩ := Prod.mk.inj h
      obtain ⟨hfault, hfinish, part, hpart, hinside, hgives⟩ :=
        hitems (Prod.ext rfl (Prod.ext rfl hnext))
      have hpart : cs = part ++ c'.rest := hpart
      exact ⟨(Option.orElse_eq_none _ _).mpr ⟨hfault, hfinish⟩, blanks, '[' :: part, hblanks,
        by rw [hpart]; rfl, .enclosed hinside, givesValue_list hinside hgives⟩
  · rename_i cs
    split at h
    · cases h
    · rename_i depth
      obtain ⟨rfl, hnext⟩ := Prod.mk.inj h
      obtain ⟨hfault, hfinish, part, hpart, hinside, hgives⟩ :=
        hmembers (Prod.ext rfl (Prod.ext rfl hnext))
      have hpart : cs = part ++ c'.rest := hpart
      exact ⟨(Option.orElse_eq_none _ _).mpr ⟨hfault, hfinish⟩, blanks, '\x7b' :: part, hblanks,
        by rw [hpart]; rfl, .enclosed hinside, givesValue_object hinside hgives⟩
  · split at h
    · split at h
      · rename_i n after hread
        obtain ⟨rfl, hafter⟩ := Prod.mk.inj h
        obtain rfl := Option.some.inj hafter
        obtain ⟨part, hpart, hnumber, hgives⟩ := part_of_readNumber hread
        exact ⟨rfl, blanks, part, hblanks, congrArg (blanks ++ ·) hpart, .number hnumber,
          givesValue_number hnumber hgives⟩
      · cases h
    · cases h

theorem takesItems_succ (hvalue : TakesValue fuel) (hitems : TakesItems fuel) :
    TakesItems (fuel + 1) := by
  intro depth isFirst c c' items finish h
  rw [readItems.eq_def] at h
  dsimp only at h
  split at h
  · cases h
  · rename_i after hnext
    cases h
    obtain ⟨blanks, hblanks, hrest⟩ := close_of_nextItem hnext
    exact ⟨rfl, rfl, blanks ++ [']'], by rw [hrest]; simp, .close hblanks,
      givesItems_close hblanks⟩
  · rename_i start hnext
    split at h
    · cases h
    · rename_i node after hread
      obtain ⟨rfl, hpair⟩ := Prod.mk.inj h
      obtain ⟨rfl, hlater⟩ := Prod.mk.inj hpair
      obtain ⟨separator, hseparator, hrest⟩ := entry_of_nextItem hnext
      obtain ⟨hfault, blanks, part, hblanks, hstart, hpart, hgives⟩ := hvalue hread
      obtain ⟨hfaults, hfinish, rest, hafter, hinside, hgivesRest⟩ :=
        hitems (Prod.ext rfl (Prod.ext rfl hlater))
      have hentry := hseparator.append hblanks
      refine ⟨(Option.orElse_eq_none _ _).mpr ⟨hfault, hfaults⟩, hfinish,
        (separator ++ blanks) ++ (part ++ rest), ?_, .entry hentry .item hpart hinside,
        givesItems_entry hentry hpart hinside hgives hgivesRest⟩
      rw [hrest, hstart, hafter]
      simp

theorem takesMembers_succ (hvalue : TakesValue fuel) (hmembers : TakesMembers fuel) :
    TakesMembers (fuel + 1) := by
  intro depth isFirst c c' members finish h
  rw [readMembers.eq_def] at h
  dsimp only at h
  split at h
  · cases h
  · rename_i after hnext
    cases h
    obtain ⟨blanks, hblanks, hrest⟩ := close_of_nextMember hnext
    exact ⟨rfl, rfl, blanks ++ ['\x7d'], by rw [hrest]; simp, .close hblanks,
      givesMembers_close hblanks⟩
  · rename_i start hnext
    split at h
    · cases h
    rename_i label colon hlabel
    split at h
    · cases h
    rename_i behind hcolon
    split at h
    · cases h
    · rename_i node after hread
      obtain ⟨rfl, hpair⟩ := Prod.mk.inj h
      obtain ⟨rfl, hlater⟩ := Prod.mk.inj hpair
      obtain ⟨separator, cs, hseparator, hquote, hrest⟩ := entry_of_nextMember hnext
      obtain ⟨keyPart, hcs, hkey⟩ := isStringOf_of_readLabel hquote hlabel
      obtain ⟨before, hbefore, hcolonRest⟩ := rest_of_readColon hcolon
      obtain ⟨hfault, blanks, part, hblanks, hbehind, hpart, hgives⟩ := hvalue hread
      obtain ⟨hfaults, hfinish, rest, hafter, hinside, hgivesRest⟩ :=
        hmembers (Prod.ext rfl (Prod.ext rfl hlater))
      have hentry : IsLabelOf ('"' :: (keyPart ++ (before ++ ':' :: blanks))) label.key :=
        .intro hkey hbefore hblanks
      refine ⟨(Option.orElse_eq_none _ _).mpr ⟨hfault, hfaults⟩, hfinish, _, ?_,
        .entry hseparator hentry.isLabel hpart hinside,
        givesMembers_entry hseparator hentry hinside hgives hgivesRest⟩
      rw [hrest, hquote, hcs, hcolonRest, hbehind, hafter]
      simp

end

theorem takes (fuel : Nat) : TakesValue fuel ∧ TakesItems fuel ∧ TakesMembers fuel := by
  induction fuel with
  | zero =>
    refine ⟨?_, ?_, ?_⟩
    · intro depth c c' node h
      rw [readValue.eq_def] at h
      cases h
    · intro depth isFirst c c' items finish h
      rw [readItems.eq_def] at h
      cases h
    · intro depth isFirst c c' members finish h
      rw [readMembers.eq_def] at h
      cases h
  | succ fuel ih =>
    exact ⟨takesValue_succ ih.2.1 ih.2.2, takesItems_succ ih.1 ih.2.1,
      takesMembers_succ ih.1 ih.2.2⟩

/-! ### Texts of values -/

/-- Whether a text is that of a value, and of which, with `depth` brackets left to be opened. -/
structure IsTextOf (depth : Nat) (part : List Char) (value : Json) : Prop where
  isValue : IsValue part
  reads : ∃ node stop, readNode depth ⟨part, 0⟩ = (node, some ⟨[], stop⟩) ∧ node.toJson = value

theorem IsTextOf.gives {depth : Nat} {part : List Char} {value : Json}
    (h : IsTextOf depth part value) : GivesValue depth part value := by
  obtain ⟨node, stop, hread, rfl⟩ := h.reads
  obtain ⟨-, blanks, part', hblanks, hpart, -, hgives⟩ := (takes _).1 hread
  rw [List.append_nil] at hpart
  have hpart : part = blanks ++ part' := hpart
  have hstops := (h.isValue.opens []).stops
  rw [List.append_nil, hpart] at hstops
  obtain rfl := hblanks.eq_nil hstops
  rw [hpart]
  exact hgives

theorem isTextOf_of_gives {depth : Nat} {part : List Char} {value : Json} (hpart : IsValue part)
    (h : GivesValue depth part value) : IsTextOf depth part value := by
  obtain ⟨node, stop, hread, -, hvalue⟩ :=
    h (2 * part.length + 2) (by omega) [] .nil [] (fun _ => .nil) 0
  refine ⟨hpart, node, stop, ?_, hvalue⟩
  rw [List.nil_append, List.append_nil] at hread
  exact hread

theorem isTextOf_of_readNode {depth : Nat} {c c' : Cursor} {node : Node}
    (h : readNode depth c = (node, some c')) : node.fault? = none ∧ ∃ blanks part,
      IsBlank blanks ∧ c.rest = blanks ++ (part ++ c'.rest) ∧ IsTextOf depth part node.toJson := by
  obtain ⟨hfault, blanks, part, hblanks, hrest, hpart, hgives⟩ := (takes _).1 h
  exact ⟨hfault, blanks, part, hblanks, hrest, isTextOf_of_gives hpart hgives⟩

section
variable {depth : Nat} {part : List Char} {value value' : Json}

theorem IsTextOf.readNode (h : IsTextOf depth part value) {gap tail : List Char}
    (hgap : IsBlank gap) (htail : IsNumber part → Ends tail) (offset : Nat) :
    GetsValue (readNode depth ⟨gap ++ (part ++ tail), offset⟩) value tail := by
  refine h.gives _ ?_ gap hgap tail htail offset
  simp only [List.length_append]
  omega

theorem IsTextOf.unique (h : IsTextOf depth part value) (h' : IsTextOf depth part value') :
    value = value' := by
  obtain ⟨node, stop, hread, rfl⟩ := h.reads
  obtain ⟨node', stop', hread', rfl⟩ := h'.reads
  rw [hread] at hread'
  rw [(Prod.mk.inj hread').1]

theorem isTextOf_constant {word : String} {scalar : Scalar}
    (h : (word, scalar) ∈ [("null", .null), ("true", .bool true), ("false", .bool false)]) :
    IsTextOf depth word.toList scalar.toJson := by
  simp only [List.mem_cons, Prod.mk.injEq, List.not_mem_nil, or_false] at h
  obtain ⟨rfl, rfl⟩ | ⟨rfl, rfl⟩ | ⟨rfl, rfl⟩ := h
  · exact isTextOf_of_gives (.word (by simp)) (givesValue_constant (by simp) fun _ _ _ => rfl)
  · exact isTextOf_of_gives (.word (by simp)) (givesValue_constant (by simp) fun _ _ _ => rfl)
  · exact isTextOf_of_gives (.word (by simp)) (givesValue_constant (by simp) fun _ _ _ => rfl)

theorem IsStringOf.isTextOf {s : String} (h : IsStringOf part s) :
    IsTextOf depth ('"' :: part) (.string s) :=
  isTextOf_of_gives (.string h.isRest) (givesValue_string h)

/-- The first character of a text tells the kind of its value. -/
theorem IsTextOf.cases (h : IsTextOf depth part value) :
    (∃ word scalar, (word, scalar) ∈ [("null", Scalar.null), ("true", .bool true),
      ("false", .bool false)] ∧ part = word.toList ∧ value = scalar.toJson) ∨
    (∃ rest s, part = '"' :: rest ∧ IsStringOf rest s ∧ value = .string s) ∨
    (∃ n, value = .number n) ∨ (∃ items, value = .array items) ∨
    ∃ members, value = .object members := by
  obtain ⟨node, stop, hread, hvalue⟩ := h.reads
  have hread : readValue (2 * part.length + 1 + 1) depth ⟨part, 0⟩ = (node, some ⟨[], stop⟩) :=
    hread
  cases h.isValue with
  | @word w hword =>
    have hconstant : ∃ scalar, (w, scalar) ∈ [("null", Scalar.null), ("true", .bool true),
        ("false", .bool false)] := by
      simp only [List.mem_cons, List.not_mem_nil, or_false] at hword
      obtain rfl | rfl | rfl := hword
      · exact ⟨.null, by simp⟩
      · exact ⟨.bool true, by simp⟩
      · exact ⟨.bool false, by simp⟩
    obtain ⟨scalar, hscalar⟩ := hconstant
    exact .inl ⟨_, scalar, hscalar, rfl, h.unique (isTextOf_constant hscalar)⟩
  | number hnumber =>
    obtain ⟨x, cs, rfl, hx⟩ := hnumber.head
    rw [readValue_number _ _ _ _ hx] at hread
    split at hread
    · rename_i n after _
      obtain ⟨rfl, -⟩ := Prod.mk.inj hread
      exact .inr (.inr (.inl ⟨n, hvalue.symm⟩))
    · cases hread
  | @string cs _ =>
    rw [readValue_quote] at hread
    split at hread
    · rename_i s after hstring
      obtain ⟨rfl, hafter⟩ := Prod.mk.inj hread
      obtain rfl := Option.some.inj hafter
      obtain ⟨rest, hrest, hisString⟩ := isStringOf_of_readString hstring
      have hrest : cs = rest := by simpa using hrest
      exact .inr (.inl ⟨rest, s, by rw [hrest], hisString, hvalue.symm⟩)
    · cases hread
  | @enclosed b cs _ =>
    cases depth with
    | zero =>
      cases b with
      | list => cases hread
      | object => cases hread
    | succ depth =>
      cases b with
      | list =>
        rw [Bracket.opening, readValue_bracket] at hread
        obtain ⟨rfl, -⟩ := Prod.mk.inj hread
        exact .inr (.inr (.inr (.inl ⟨_, hvalue.symm⟩)))
      | object =>
        rw [Bracket.opening, readValue_brace] at hread
        obtain ⟨rfl, -⟩ := Prod.mk.inj hread
        exact .inr (.inr (.inr (.inr ⟨_, hvalue.symm⟩)))

theorem isTextOf_null_iff : IsTextOf depth part .null ↔ part = "null".toList := by
  constructor
  · intro h
    rcases h.cases with ⟨word, scalar, hmem, rfl, hvalue⟩ | ⟨_, _, _, _, hvalue⟩ | ⟨_, hvalue⟩ |
      ⟨_, hvalue⟩ | ⟨_, hvalue⟩
    · simp only [List.mem_cons, Prod.mk.injEq, List.not_mem_nil, or_false] at hmem
      obtain ⟨rfl, -⟩ | ⟨-, rfl⟩ | ⟨-, rfl⟩ := hmem
      · rfl
      · cases hvalue
      · cases hvalue
    · cases hvalue
    · cases hvalue
    · cases hvalue
    · cases hvalue
  · rintro rfl
    exact isTextOf_constant (.head _)

theorem isTextOf_string_iff {s : String} :
    IsTextOf depth part (.string s) ↔ ∃ rest, part = '"' :: rest ∧ IsStringOf rest s := by
  constructor
  · intro h
    rcases h.cases with ⟨word, scalar, hmem, rfl, hvalue⟩ | ⟨rest, s', hpart, hrest, hvalue⟩ |
      ⟨_, hvalue⟩ | ⟨_, hvalue⟩ | ⟨_, hvalue⟩
    · simp only [List.mem_cons, Prod.mk.injEq, List.not_mem_nil, or_false] at hmem
      obtain ⟨-, rfl⟩ | ⟨-, rfl⟩ | ⟨-, rfl⟩ := hmem
      · cases hvalue
      · cases hvalue
      · cases hvalue
    · obtain rfl := Json.string.inj hvalue
      exact ⟨rest, hpart, hrest⟩
    · cases hvalue
    · cases hvalue
    · cases hvalue
  · rintro ⟨rest, rfl, hrest⟩
    exact hrest.isTextOf

end

end ApiTypes.Json
