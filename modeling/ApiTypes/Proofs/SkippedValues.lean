import ApiTypes.Proofs.SkippedScalars

/-!
# Values that are passed

A value that nobody wants is passed with a stack of the brackets that are open.  What is
passed is blanks and the text of one value.
-/

namespace ApiTypes.Json

/-! ### The parts of a value -/

theorem rest_of_readColon {c c' : Cursor} (h : readColon c = .ok c') :
    ∃ blanks, IsBlank blanks ∧ c.rest = blanks ++ ':' :: c'.rest := by
  obtain ⟨blanks, rest, stop, hskip, hrest, hblanks, -⟩ := exists_skipBlanks c
  rw [readColon, hskip] at h
  dsimp only at h
  split at h
  · obtain rfl := Except.ok.inj h
    exact ⟨blanks, hblanks, hrest⟩
  · cases h
  · cases h

theorem passes_readColon {blanks : List Char} (h : IsBlank blanks) (rest : List Char) :
    Passes readColon (blanks ++ ':' :: rest) rest := by
  intro offset
  obtain ⟨stop, hskip⟩ := skipBlanks_append h (stops_cons (c := ':') rfl rest) offset
  refine ⟨stop + ':'.utf8Size, ?_⟩
  rw [readColon, hskip]
  rfl

theorem rest_of_skipKey {c c' : Cursor} (h : skipKey c = .ok c') :
    ∃ blanks key before, IsBlank blanks ∧ IsStringRest key ∧ IsBlank before ∧
      c.rest = blanks ++ '"' :: (key ++ (before ++ ':' :: c'.rest)) := by
  obtain ⟨blanks, rest, stop, hskip, hrest, hblanks, -⟩ := exists_skipBlanks c
  rw [skipKey, hskip] at h
  dsimp only at h
  split at h
  · cases h
  · rename_i cs
    obtain ⟨after, hstring, hcolon⟩ := bind_eq_ok_iff.mp h
    obtain ⟨key, hkey, hisKey⟩ := isStringRest_of_skipString hstring
    obtain ⟨before, hbefore, hafter⟩ := rest_of_readColon hcolon
    have hkey : cs = key ++ after.rest := hkey
    exact ⟨blanks, key, before, hblanks, hisKey, hbefore, by rw [hrest, hkey, hafter]⟩
  · cases h

theorem passes_skipKey {blanks key before : List Char} (hblanks : IsBlank blanks)
    (hkey : IsStringRest key) (hbefore : IsBlank before) (rest : List Char) :
    Passes skipKey (blanks ++ '"' :: (key ++ (before ++ ':' :: rest))) rest := by
  intro offset
  obtain ⟨start, hskip⟩ := skipBlanks_append hblanks
    (stops_cons (c := '"') rfl (key ++ (before ++ ':' :: rest))) offset
  obtain ⟨middle, hstring⟩ := passes_skipString hkey (before ++ ':' :: rest)
    (('"' :: (key ++ (before ++ ':' :: rest))).length + 1)
    (by simp only [List.length_cons, List.length_append]; omega) (start + '"'.utf8Size)
  obtain ⟨stop, hcolon⟩ := passes_readColon hbefore rest middle
  refine ⟨stop, ?_⟩
  rw [skipKey, hskip]
  simp only [Cursor.next, hstring]
  exact hcolon

/-- What stands where a value begins: all of one without parts, or the bracket of another. -/
theorem cases_of_skipHead {c c' : Cursor} {bracket : Option Bracket}
    (h : skipHead c = .ok (bracket, c')) : ∃ blanks, IsBlank blanks ∧
      ((∃ value, bracket = none ∧ IsValue value ∧ c.rest = blanks ++ (value ++ c'.rest)) ∨
        ∃ b, bracket = some b ∧ c.rest = blanks ++ b.opening :: c'.rest) := by
  obtain ⟨blanks, rest, stop, hskip, hrest, hblanks, -⟩ := exists_skipBlanks c
  refine ⟨blanks, hblanks, ?_⟩
  rw [hrest]
  have hword : ∀ w ∈ ["null", "true", "false"],
      ((readWord w.toList ⟨rest, stop⟩).map fun c => ((none : Option Bracket), c)) =
        .ok (bracket, c') →
      ∃ value, bracket = none ∧ IsValue value ∧ rest = value ++ c'.rest := by
    intro w hw h
    obtain ⟨after, hread, hpair⟩ := map_eq_ok_iff.mp h
    obtain ⟨rfl, rfl⟩ := Prod.mk.inj hpair
    exact ⟨w.toList, rfl, .word hw, rest_of_readWord hread⟩
  rw [skipHead, hskip] at h
  dsimp only at h
  split at h
  · cases h
  · obtain ⟨value, hnone, hvalue, hcs⟩ := hword "null" (by simp) h
    exact .inl ⟨value, hnone, hvalue, by rw [hcs]⟩
  · obtain ⟨value, hnone, hvalue, hcs⟩ := hword "true" (by simp) h
    exact .inl ⟨value, hnone, hvalue, by rw [hcs]⟩
  · obtain ⟨value, hnone, hvalue, hcs⟩ := hword "false" (by simp) h
    exact .inl ⟨value, hnone, hvalue, by rw [hcs]⟩
  · obtain ⟨after, hstring, hpair⟩ := map_eq_ok_iff.mp h
    obtain ⟨rfl, rfl⟩ := Prod.mk.inj hpair
    obtain ⟨body, hbody, hisString⟩ := isStringRest_of_skipString hstring
    exact .inl ⟨'"' :: body, rfl, .string hisString, congrArg (blanks ++ '"' :: ·) hbody⟩
  · obtain ⟨rfl, rfl⟩ := Prod.mk.inj (Except.ok.inj h)
    exact .inr ⟨.list, rfl, rfl⟩
  · obtain ⟨rfl, rfl⟩ := Prod.mk.inj (Except.ok.inj h)
    exact .inr ⟨.object, rfl, rfl⟩
  · obtain ⟨after, hnumber, hpair⟩ := map_eq_ok_iff.mp h
    obtain ⟨rfl, rfl⟩ := Prod.mk.inj hpair
    obtain ⟨body, hbody, hmagnitude⟩ := isMagnitude_of_skipMagnitude hnumber
    exact .inl ⟨'-' :: body, rfl, .number (.negative hmagnitude),
      congrArg (blanks ++ '-' :: ·) hbody⟩
  · split at h
    · obtain ⟨after, hnumber, hpair⟩ := map_eq_ok_iff.mp h
      obtain ⟨rfl, rfl⟩ := Prod.mk.inj hpair
      obtain ⟨body, hbody, hmagnitude⟩ := isMagnitude_of_skipMagnitude hnumber
      exact .inl ⟨body, rfl, .number (.plain hmagnitude), congrArg (blanks ++ ·) hbody⟩
    · cases h

/-! ### Open brackets -/

/-- What follows an entry up to the end of the outermost of the brackets. -/
inductive Closes : List Bracket → List Char → Prop
  | done : Closes [] []
  | inner {b : Bracket} {outer : List Bracket} {cs rest : List Char} (h : Inside b false cs)
      (hrest : Closes outer rest) : Closes (b :: outer) (cs ++ rest)

section
variable {b : Bracket} {outer : List Bracket}

theorem Closes.close {blanks rest : List Char} (h : IsBlank blanks) (hrest : Closes outer rest) :
    Closes (b :: outer) (blanks ++ b.closing :: rest) := by
  have hclose : Inside b false (blanks ++ [b.closing]) := .close h
  have hinner := Closes.inner hclose hrest
  rwa [List.append_assoc] at hinner

theorem Closes.entry {separator label value rest : List Char}
    (hseparator : IsSeparator false separator) (hlabel : IsLabel b label)
    (hvalue : IsValue value) (hrest : Closes (b :: outer) rest) :
    Closes (b :: outer) (separator ++ (label ++ (value ++ rest))) := by
  cases hrest with
  | inner h hrest =>
    have hinner := Closes.inner (Inside.entry hseparator hlabel hvalue h) hrest
    rwa [List.append_assoc, List.append_assoc, List.append_assoc] at hinner

theorem closing_iff (x : Char) :
    (x = ']' ∧ b = .list) ∨ (x = '\x7d' ∧ b = .object) ↔ x = b.closing := by
  cases b <;> simp [Bracket.closing]

end

/-- Behind an entry: all brackets are closed, or a comma announces an entry of the innermost
that is left. -/
theorem cases_of_skipClosings {fuel : Nat} {pending left : List Bracket} {c c' : Cursor}
    (h : skipClosings fuel true pending c = .ok (left, c')) :
    (left = [] ∧ ∃ cs, Closes pending cs ∧ c.rest = cs ++ c'.rest) ∨
    ∃ b outer passed, left = b :: outer ∧ c.rest = passed ++ c'.rest ∧
      ∀ after label value cs, IsBlank after → IsLabel b label → IsValue value →
        Closes left cs → Closes pending (passed ++ (after ++ (label ++ (value ++ cs)))) := by
  induction fuel generalizing pending c with
  | zero => cases h
  | succ fuel ih =>
    cases pending with
    | nil =>
      obtain ⟨rfl, rfl⟩ := Prod.mk.inj (Except.ok.inj h)
      exact .inl ⟨rfl, [], .done, rfl⟩
    | cons b outer =>
      obtain ⟨blanks, rest, stop, hskip, hrest, hblanks, -⟩ := exists_skipBlanks c
      rw [skipClosings.eq_def] at h
      dsimp only at h
      rw [hskip] at h
      dsimp only at h
      cases rest with
      | nil => cases h
      | cons x rest =>
        dsimp only at h
        split at h
        · rename_i hcomma
          obtain ⟨rfl, rfl⟩ := Prod.mk.inj (Except.ok.inj h)
          refine .inr ⟨b, outer, blanks ++ [','], rfl, ?_, ?_⟩
          · rw [hrest, hcomma.1]
            simp [Cursor.next]
          · intro after label value cs hafter hlabel hvalue hcs
            have hentry := Closes.entry (.comma hblanks hafter) hlabel hvalue hcs
            simpa using hentry
        · split at h
          · rename_i hclosing
            rw [closing_iff] at hclosing
            have hpassed : c.rest = blanks ++ b.closing :: rest := by rw [hrest, hclosing]
            rcases ih h with ⟨hleft, cs, hcs, hcsRest⟩ | ⟨b', outer', passed, hleft, hnext, hlater⟩
            · have hcsRest : rest = cs ++ c'.rest := hcsRest
              refine .inl ⟨hleft, _, .close hblanks hcs, ?_⟩
              rw [hpassed, hcsRest]
              simp
            · have hnext : rest = passed ++ c'.rest := hnext
              refine .inr ⟨b', outer', blanks ++ b.closing :: passed, hleft, ?_, ?_⟩
              · rw [hpassed, hnext]
                simp
              · intro after label value cs hafter hlabel hvalue hcs
                have hclose := Closes.close (b := b) hblanks
                  (hlater after label value cs hafter hlabel hvalue hcs)
                simpa using hclose
          · cases h

/-- Passes the next entry, if a bracket is left open. -/
def skipOn (fuel : Nat) (left : List Bracket) (c : Cursor) : Except Fault Cursor :=
  match left with
  | [] => .ok c
  | .list :: _ => skipParts fuel left c
  | .object :: _ => (skipKey c).bind (skipParts fuel left)

/-- Passes what follows an entry or, where none has been passed, an opening bracket. -/
def skipOnward (fuel : Nat) (afterEntry : Bool) (pending : List Bracket) (c : Cursor) :
    Except Fault Cursor :=
  (skipClosings (c.rest.length + pending.length + 1) afterEntry pending c).bind fun closed =>
    skipOn fuel closed.1 closed.2

theorem skipParts_succ (fuel : Nat) (outer : List Bracket) (c : Cursor) :
    skipParts (fuel + 1) outer c = (skipHead c).bind fun head =>
      match head with
      | (none, c) => skipOnward fuel true outer c
      | (some b, c) => skipOnward fuel false (b :: outer) c := by
  rw [skipParts]
  show (skipHead c).bind _ = _
  congr 1
  funext head
  obtain ⟨_ | b, c⟩ := head
  · rfl
  · rfl

/-- Behind an opening bracket: it is closed at once, or nothing has been passed but blanks. -/
theorem cases_of_skipClosings_opened {fuel : Nat} {b : Bracket} {outer left : List Bracket}
    {c c' : Cursor} (h : skipClosings (fuel + 1) false (b :: outer) c = .ok (left, c')) :
    ∃ blanks, IsBlank blanks ∧
      ((left = b :: outer ∧ c.rest = blanks ++ c'.rest) ∨
        ∃ after : Cursor, c.rest = blanks ++ b.closing :: after.rest ∧
          skipClosings fuel true outer after = .ok (left, c')) := by
  obtain ⟨blanks, rest, stop, hskip, hrest, hblanks, -⟩ := exists_skipBlanks c
  refine ⟨blanks, hblanks, ?_⟩
  rw [skipClosings.eq_def] at h
  dsimp only at h
  rw [hskip] at h
  cases rest with
  | nil => cases h
  | cons x rest =>
    dsimp only at h
    split at h
    · rename_i hcomma
      cases hcomma.2
    · split at h
      · rename_i hclosing
        rw [closing_iff] at hclosing
        exact .inr ⟨⟨rest, stop + x.utf8Size⟩, by rw [hrest, hclosing], h⟩
      · split at h
        · rename_i hfalse
          cases hfalse
        · obtain ⟨rfl, rfl⟩ := Prod.mk.inj (Except.ok.inj h)
          exact .inl ⟨rfl, hrest⟩

section
variable {fuel : Nat}

/-- What `skipParts` passes with this fuel is a value and what closes the brackets. -/
def PassesValues (fuel : Nat) : Prop :=
  ∀ {outer : List Bracket} {c c' : Cursor}, skipParts fuel outer c = .ok c' →
    ∃ blanks value cs, IsBlank blanks ∧ IsValue value ∧ Closes outer cs ∧
      c.rest = blanks ++ (value ++ (cs ++ c'.rest))

theorem entry_of_skipOn (hvalues : PassesValues fuel) {b : Bracket} {outer : List Bracket}
    {c c' : Cursor} (h : skipOn fuel (b :: outer) c = .ok c') :
    ∃ blanks label value cs, IsBlank blanks ∧ IsLabel b label ∧ IsValue value ∧
      Closes (b :: outer) cs ∧
      c.rest = blanks ++ (label ++ (value ++ (cs ++ c'.rest))) := by
  cases b with
  | list =>
    obtain ⟨blanks, value, cs, hblanks, hvalue, hcs, hrest⟩ := hvalues h
    exact ⟨blanks, [], value, cs, hblanks, .item, hvalue, hcs, hrest⟩
  | object =>
    obtain ⟨after, hkey, hparts⟩ := bind_eq_ok_iff.mp h
    obtain ⟨blanks, key, before, hblanks, hisKey, hbefore, hrest⟩ := rest_of_skipKey hkey
    obtain ⟨gap, value, cs, hgap, hvalue, hcs, hafter⟩ := hvalues hparts
    refine ⟨blanks, _, value, cs, hblanks, .key hisKey hbefore hgap, hvalue, hcs, ?_⟩
    rw [hrest, hafter]
    simp

theorem closes_of_skipClosings (hvalues : PassesValues fuel) {n : Nat}
    {pending left : List Bracket} {c after c' : Cursor}
    (hclosings : skipClosings n true pending c = .ok (left, after))
    (hon : skipOn fuel left after = .ok c') :
    ∃ cs, Closes pending cs ∧ c.rest = cs ++ c'.rest := by
  rcases cases_of_skipClosings hclosings with
    ⟨rfl, cs, hcs, hrest⟩ | ⟨b, outer, passed, rfl, hrest, hlater⟩
  · obtain rfl := Except.ok.inj hon
    exact ⟨cs, hcs, hrest⟩
  · obtain ⟨blanks, label, value, cs, hblanks, hlabel, hvalue, hcs, hafter⟩ :=
      entry_of_skipOn hvalues hon
    refine ⟨_, hlater blanks label value cs hblanks hlabel hvalue hcs, ?_⟩
    rw [hrest, hafter]
    simp

theorem passesValues (fuel : Nat) : PassesValues fuel := by
  induction fuel with
  | zero => exact fun h => nomatch h
  | succ fuel ih =>
    intro outer c c' h
    rw [skipParts_succ] at h
    obtain ⟨⟨bracket, inner⟩, hhead, hrest⟩ := bind_eq_ok_iff.mp h
    obtain ⟨blanks, hblanks, ⟨value, rfl, hvalue, hc⟩ | ⟨b, rfl, hc⟩⟩ := cases_of_skipHead hhead
    · obtain ⟨⟨left, after⟩, hclosings, hon⟩ := bind_eq_ok_iff.mp hrest
      obtain ⟨cs, hcs, hinner⟩ := closes_of_skipClosings ih hclosings hon
      have hinner : inner.rest = cs ++ c'.rest := hinner
      exact ⟨blanks, value, cs, hblanks, hvalue, hcs, by rw [hc, hinner]⟩
    · obtain ⟨⟨left, after⟩, hclosings, hon⟩ := bind_eq_ok_iff.mp hrest
      have hc : c.rest = blanks ++ b.opening :: inner.rest := hc
      obtain ⟨gap, hgap, ⟨rfl, hinner⟩ | ⟨behind, hinner, hclosed⟩⟩ :=
        cases_of_skipClosings_opened hclosings
      · obtain ⟨start, label, value, cs, hstart, hlabel, hvalue, hcs, hafter⟩ :=
          entry_of_skipOn ih hon
        cases hcs with
        | @inner _ _ entries cs hentries hcs =>
          refine ⟨blanks, _, cs, hblanks,
            .enclosed (.entry (.first (hgap.append hstart)) hlabel hvalue hentries), hcs, ?_⟩
          have hinner : inner.rest = gap ++ after.rest := hinner
          have hafter : after.rest = start ++ (label ++ (value ++ (entries ++ cs ++ c'.rest))) :=
            hafter
          rw [hc, hinner, hafter]
          simp
      · obtain ⟨cs, hcs, hbehind⟩ := closes_of_skipClosings ih hclosed hon
        refine ⟨blanks, b.opening :: (gap ++ [b.closing]), cs, hblanks,
          .enclosed (.close hgap), hcs, ?_⟩
        have hinner : inner.rest = gap ++ b.closing :: behind.rest := hinner
        rw [hc, hinner, hbehind]
        simp

/-- What is passed is blanks and the text of one value. -/
theorem isValue_of_skipValue {c c' : Cursor} (h : skipValue c = .ok c') :
    ∃ blanks value, IsBlank blanks ∧ IsValue value ∧ c.rest = blanks ++ (value ++ c'.rest) := by
  obtain ⟨blanks, value, cs, hblanks, hvalue, hcs, hrest⟩ := passesValues _ h
  cases hcs
  exact ⟨blanks, value, hblanks, hvalue, hrest⟩

end

end ApiTypes.Json
