import ApiTypes.Proofs.CompactText
import ApiTypes.Proofs.ReadScalars
import ApiTypes.Proofs.SkippedValues

/-!
# What stands before entries

The separators of lists and objects, the keys of members and their colons: what the readers
take for one is one, and they take every one.
-/

namespace ApiTypes.Json
open Name (Stops)

/-! ### Separators -/

section
variable {isFirst : Bool} {c c' : Cursor}

/-- Blanks are skipped behind a comma as they are anywhere. -/
theorem exists_skipBlanks_next (x : Char) (cs : List Char) (offset : Nat) :
    ∃ blanks rest stop, Cursor.skipBlanks (Cursor.next ⟨x :: cs, offset⟩) = ⟨rest, stop⟩ ∧
      cs = blanks ++ rest ∧ IsBlank blanks := by
  obtain ⟨blanks, rest, stop, hskip, hcs, hblanks, -⟩ :=
    exists_skipBlanks ⟨cs, offset + x.utf8Size⟩
  exact ⟨blanks, rest, stop, hskip, hcs, hblanks⟩

theorem skipBlanks_next_append (x : Char) {blanks rest : List Char} (h : IsBlank blanks)
    (hrest : Stops Cursor.isBlank rest) (offset : Nat) :
    ∃ stop, Cursor.skipBlanks (Cursor.next ⟨x :: (blanks ++ rest), offset⟩) = ⟨rest, stop⟩ :=
  skipBlanks_append h hrest (offset + x.utf8Size)

theorem entry_of_nextItem (h : nextItem isFirst c = .ok (.entry c')) :
    ∃ separator, IsSeparator isFirst separator ∧ c.rest = separator ++ c'.rest := by
  obtain ⟨blanks, rest, stop, hskip, hrest, hblanks, -⟩ := exists_skipBlanks c
  rw [nextItem, hskip] at h
  dsimp only at h
  split at h
  · cases h
  · cases h
  · rename_i x cs _
    split at h
    · rename_i hfirst
      obtain rfl := Upcoming.entry.inj (Except.ok.inj h)
      exact ⟨blanks, hfirst ▸ .first hblanks, hrest⟩
    · rename_i hlater
      split at h
      · rename_i hcomma
        obtain ⟨after, tail, stop', hnext, hcs, hafter⟩ := exists_skipBlanks_next x cs stop
        rw [hnext] at h
        dsimp only at h
        split at h
        · cases h
        · cases h
        · obtain rfl := Upcoming.entry.inj (Except.ok.inj h)
          refine ⟨blanks ++ ',' :: after, ?_, by simp [hrest, hcomma, hcs]⟩
          rw [Bool.not_eq_true] at hlater
          exact hlater ▸ .comma hblanks hafter
      · cases h

theorem close_of_nextItem (h : nextItem isFirst c = .ok (.close c')) :
    ∃ blanks, IsBlank blanks ∧ c.rest = blanks ++ ']' :: c'.rest := by
  obtain ⟨blanks, rest, stop, hskip, hrest, hblanks, -⟩ := exists_skipBlanks c
  rw [nextItem, hskip] at h
  dsimp only at h
  split at h
  · cases h
  · obtain rfl := Upcoming.close.inj (Except.ok.inj h)
    exact ⟨blanks, hblanks, hrest⟩
  · split at h
    · cases h
    · split at h
      · split at h
        · cases h
        · cases h
        · cases h
      · cases h

theorem nextItem_separator {separator cs : List Char} (h : IsSeparator isFirst separator)
    (hopens : OpensValue cs) (offset : Nat) :
    ∃ stop, nextItem isFirst ⟨separator ++ cs, offset⟩ = .ok (.entry ⟨cs, stop⟩) := by
  have hstops := hopens.stops
  obtain ⟨x, tail, rfl, -, hclose⟩ := hopens
  cases h with
  | first hblanks =>
    obtain ⟨start, hskip⟩ := skipBlanks_append hblanks hstops offset
    refine ⟨start, ?_⟩
    rw [nextItem, hskip]
    dsimp only
    split
    · rename_i hnil
      cases hnil
    · rename_i hcons
      exact absurd (List.cons.inj hcons).1 hclose
    · rfl
  | @comma before after hbefore hafter =>
    obtain ⟨start, hskip⟩ :=
      skipBlanks_append hbefore (stops_cons (c := ',') rfl (after ++ x :: tail)) offset
    obtain ⟨stop, hnext⟩ := skipBlanks_next_append ',' hafter hstops start
    refine ⟨stop, ?_⟩
    rw [List.append_assoc, List.cons_append, nextItem, hskip]
    simp only [Char.reduceEq, imp_self, Bool.false_eq_true, if_false, if_true, hnext]
    split
    · rename_i hnil
      cases hnil
    · rename_i hcons
      exact absurd (List.cons.inj hcons).1 hclose
    · rfl

theorem nextItem_blanks {blanks : List Char} (h : IsBlank blanks) (isFirst : Bool)
    (rest : List Char) (offset : Nat) : ∃ stop, nextItem isFirst ⟨blanks ++ ']' :: rest, offset⟩ =
      .ok (.close ⟨rest, stop⟩) := by
  obtain ⟨start, hskip⟩ := skipBlanks_append h (stops_cons (c := ']') rfl rest) offset
  refine ⟨start + ']'.utf8Size, ?_⟩
  rw [nextItem, hskip]
  rfl

theorem entry_of_nextMember (h : nextMember isFirst c = .ok (.entry c')) :
    ∃ separator cs, IsSeparator isFirst separator ∧ c'.rest = '"' :: cs ∧
      c.rest = separator ++ c'.rest := by
  obtain ⟨blanks, rest, stop, hskip, hrest, hblanks, -⟩ := exists_skipBlanks c
  rw [nextMember, hskip] at h
  dsimp only at h
  split at h
  · cases h
  · cases h
  · rename_i x cs _
    split at h
    · rename_i hfirst
      split at h
      · rename_i hquote
        obtain rfl := Upcoming.entry.inj (Except.ok.inj h)
        exact ⟨blanks, cs, hfirst ▸ .first hblanks, congrArg (· :: cs) hquote, hrest⟩
      · cases h
    · rename_i hlater
      split at h
      · rename_i hcomma
        obtain ⟨after, tail, stop', hnext, hcs, hafter⟩ := exists_skipBlanks_next x cs stop
        rw [hnext] at h
        dsimp only at h
        split at h
        · cases h
        · rename_i tail
          obtain rfl := Upcoming.entry.inj (Except.ok.inj h)
          refine ⟨blanks ++ ',' :: after, tail, ?_, rfl, by simp [hrest, hcomma, hcs]⟩
          rw [Bool.not_eq_true] at hlater
          exact hlater ▸ .comma hblanks hafter
        · cases h
        · cases h
      · cases h

theorem close_of_nextMember (h : nextMember isFirst c = .ok (.close c')) :
    ∃ blanks, IsBlank blanks ∧ c.rest = blanks ++ '\x7d' :: c'.rest := by
  obtain ⟨blanks, rest, stop, hskip, hrest, hblanks, -⟩ := exists_skipBlanks c
  rw [nextMember, hskip] at h
  dsimp only at h
  split at h
  · cases h
  · obtain rfl := Upcoming.close.inj (Except.ok.inj h)
    exact ⟨blanks, hblanks, hrest⟩
  · split at h
    · split at h
      · cases h
      · cases h
    · split at h
      · split at h
        · cases h
        · cases h
        · cases h
        · cases h
      · cases h

theorem nextMember_separator {separator : List Char} (h : IsSeparator isFirst separator)
    (cs : List Char) (offset : Nat) :
    ∃ stop, nextMember isFirst ⟨separator ++ '"' :: cs, offset⟩ =
      .ok (.entry ⟨'"' :: cs, stop⟩) := by
  cases h with
  | first hblanks =>
    obtain ⟨start, hskip⟩ := skipBlanks_append hblanks (stops_cons (c := '"') rfl cs) offset
    refine ⟨start, ?_⟩
    rw [nextMember, hskip]
    rfl
  | @comma before after hbefore hafter =>
    obtain ⟨start, hskip⟩ :=
      skipBlanks_append hbefore (stops_cons (c := ',') rfl (after ++ '"' :: cs)) offset
    obtain ⟨stop, hnext⟩ :=
      skipBlanks_next_append ',' hafter (stops_cons (c := '"') rfl cs) start
    refine ⟨stop, ?_⟩
    rw [List.append_assoc, List.cons_append, nextMember, hskip]
    simp only [Char.reduceEq, imp_self, Bool.false_eq_true, if_false, if_true, hnext]

theorem nextMember_blanks {blanks : List Char} (h : IsBlank blanks) (isFirst : Bool)
    (rest : List Char) (offset : Nat) :
    ∃ stop, nextMember isFirst ⟨blanks ++ '\x7d' :: rest, offset⟩ = .ok (.close ⟨rest, stop⟩) := by
  obtain ⟨start, hskip⟩ := skipBlanks_append h (stops_cons (c := '\x7d') rfl rest) offset
  refine ⟨start + '\x7d'.utf8Size, ?_⟩
  rw [nextMember, hskip]
  rfl

end

/-! ### Keys -/

/-- Whether a text, from behind its opening quote, is that of this string. -/
structure IsStringOf (part : List Char) (s : String) : Prop where
  isRest : IsStringRest part
  reads : ∃ stop, readString ⟨part, 0⟩ = .ok (s, ⟨[], stop⟩)

theorem isStringOf_of_readString {c c' : Cursor} {s : String} (h : readString c = .ok (s, c')) :
    ∃ part, c.rest = part ++ c'.rest ∧ IsStringOf part s := by
  obtain ⟨part, hrest, hstring, hgives⟩ := part_of_readString h
  refine ⟨part, hrest, hstring, ?_⟩
  have hreads := hgives [] trivial 0
  rwa [List.append_nil] at hreads

theorem IsStringOf.gives {part : List Char} {s : String} (h : IsStringOf part s) :
    Gives (fun _ => True) readString part s := by
  obtain ⟨stop, hreads⟩ := h.reads
  obtain ⟨part', hpart, -, hgives⟩ := part_of_readString hreads
  rw [List.append_nil] at hpart
  obtain rfl : part = part' := hpart
  exact hgives

/-- Whether a text is that of this key, and of a colon, and blanks behind and between them. -/
inductive IsLabelOf : List Char → String → Prop
  | intro {part before after : List Char} {key : String} (hkey : IsStringOf part key)
      (hbefore : IsBlank before) (hafter : IsBlank after) :
      IsLabelOf ('"' :: (part ++ (before ++ ':' :: after))) key

theorem IsLabelOf.isLabel {label : List Char} {key : String} (h : IsLabelOf label key) :
    IsLabel .object label := by
  obtain ⟨hkey, hbefore, hafter⟩ := h
  exact .key hkey.isRest hbefore hafter

theorem isStringOf_of_readLabel {cs : List Char} {label : Label} {c c' : Cursor}
    (hcs : c.rest = '"' :: cs) (h : readLabel c = .ok (label, c')) :
    ∃ part, cs = part ++ c'.rest ∧ IsStringOf part label.key := by
  obtain ⟨_, offset⟩ := c
  obtain rfl : _ = '"' :: cs := hcs
  obtain ⟨⟨key, after⟩, hread, hpair⟩ := map_eq_ok_iff.mp h
  obtain ⟨rfl, rfl⟩ := Prod.mk.inj hpair
  exact isStringOf_of_readString hread

theorem IsStringOf.readLabel {part : List Char} {key : String} (h : IsStringOf part key)
    (tail : List Char) (offset : Nat) : ∃ label stop,
      readLabel ⟨'"' :: (part ++ tail), offset⟩ = .ok (label, ⟨tail, stop⟩) ∧ label.key = key := by
  obtain ⟨stop, hread⟩ := h.gives tail trivial (offset + '"'.utf8Size)
  exact ⟨_, stop, map_eq_ok_iff.mpr ⟨_, hread, rfl⟩, rfl⟩

/-! ### Entries -/

/-- Whether a text, from behind its opening brace or a member on, is that of an object with
these keys and these texts of values. -/
inductive IsMembers : Bool → List Char → List (String × List Char) → Prop
  | close {isFirst : Bool} {blanks : List Char} (h : IsBlank blanks) :
      IsMembers isFirst (blanks ++ ['\x7d']) []
  | member {isFirst : Bool} {separator label part rest : List Char} {key : String}
      {members : List (String × List Char)} (hseparator : IsSeparator isFirst separator)
      (hlabel : IsLabelOf label key) (hpart : IsValue part)
      (hrest : IsMembers false rest members) :
      IsMembers isFirst (separator ++ (label ++ (part ++ rest))) ((key, part) :: members)

/-- Whether a text, from behind its opening bracket or an item on, is that of a list with these
texts of items. -/
inductive IsItems : Bool → List Char → List (List Char) → Prop
  | close {isFirst : Bool} {blanks : List Char} (h : IsBlank blanks) :
      IsItems isFirst (blanks ++ [']']) []
  | item {isFirst : Bool} {separator part rest : List Char} {items : List (List Char)}
      (hseparator : IsSeparator isFirst separator) (hpart : IsValue part)
      (hrest : IsItems false rest items) :
      IsItems isFirst (separator ++ (part ++ rest)) (part :: items)

theorem IsMembers.inside {isFirst : Bool} {cs : List Char} {members : List (String × List Char)}
    (h : IsMembers isFirst cs members) : Inside .object isFirst cs := by
  induction h with
  | close h => exact .close h
  | member hseparator hlabel hpart _ ih => exact .entry hseparator hlabel.isLabel hpart ih

theorem IsItems.inside {isFirst : Bool} {cs : List Char} {items : List (List Char)}
    (h : IsItems isFirst cs items) : Inside .list isFirst cs := by
  induction h with
  | close h => exact .close h
  | item hseparator hpart _ ih => exact .entry hseparator .item hpart ih

end ApiTypes.Json
