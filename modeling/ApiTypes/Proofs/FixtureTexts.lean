import ApiTypes.Proofs.FixtureParts
import Mathlib.Data.List.Nodup

/-!
# Texts of fixtures

Which text is that of a fixture: an object in which every part stands once at most, whatever
else it holds, or a list of the parts in their order.  The reader of fixtures takes such a text
and looks at nothing behind it.
-/

namespace ApiTypes.Fixture
open Json

/-! ### What a text says -/

/-- The texts of values that stand under a key. -/
def textsUnder (key : String) (members : List (String × List Char)) : List (List Char) :=
  (members.filter fun member => member.1 == key).map Prod.snd

/-- What members say of a part: nothing, or once a value. -/
inductive Says (members : List (String × List Char)) (p : Part) : Option p.Value → Prop
  | silent (h : textsUnder p.key members = []) : Says members p none
  | given {text : List Char} {v : p.Value} (h : textsUnder p.key members = [text])
      (htext : p.IsText text v) : Says members p (some v)

/-- Whether a fixture has what the members say of its parts, and the fallback of each part of
which they say nothing. -/
def Decodes (members : List (String × List Char)) (f : Fixture) : Prop :=
  ∀ p, ∃ said, Says members p said ∧ said.or p.fallback? = some (f.get p)

/-- Whether a text is that of a fixture; a list names its items by their places. -/
inductive IsText : List Char → Fixture → Prop
  | object {cs : List Char} {members : List (String × List Char)} {f : Fixture}
      (h : IsMembers true cs members) (hdecodes : Decodes members f) : IsText ('\x7b' :: cs) f
  | list {cs : List Char} {items : List (List Char)} {f : Fixture} (h : IsItems true cs items)
      (hlength : items.length ≤ Part.all.length)
      (hdecodes : Decodes ((Part.all.map Part.key).zip items) f) : IsText ('[' :: cs) f

theorem IsText.isValue {cs : List Char} {f : Fixture} (h : IsText cs f) : IsValue cs := by
  cases h with
  | object h _ =>
    have hinside : Inside .object true _ := h.inside
    exact .enclosed hinside
  | list h _ _ =>
    have hinside : Inside .list true _ := h.inside
    exact .enclosed hinside

theorem IsText.not_isNumber {cs : List Char} {f : Fixture} (h : IsText cs f) : ¬ IsNumber cs := by
  cases h with
  | object _ _ => exact not_isNumber_cons (by decide) rfl _
  | list _ _ _ => exact not_isNumber_cons (by decide) rfl _

/-! ### Keys -/

theorem Part.ofKey?_eq_some_iff {key : String} {p : Part} :
    Part.ofKey? key = some p ↔ key = p.key := by
  constructor
  · intro h
    have hkey := List.find?_some h
    exact (eq_of_beq hkey).symm
  · rintro rfl
    cases p <;> rfl

theorem Part.ne_key_of_ofKey? {key : String} (h : Part.ofKey? key = none) (p : Part) :
    key ≠ p.key := by
  intro heq
  rw [ofKey?_eq_some_iff.mpr heq] at h
  cases h

theorem Part.key_injective : Function.Injective Part.key := by
  intro p q h
  have hp : Part.ofKey? p.key = some p := ofKey?_eq_some_iff.mpr rfl
  rw [ofKey?_eq_some_iff.mpr h] at hp
  exact (Option.some.inj hp).symm

theorem textsUnder_cons (key : String) (member : String × List Char)
    (members : List (String × List Char)) : textsUnder key (member :: members) =
      if member.1 = key then member.2 :: textsUnder key members else textsUnder key members := by
  rw [textsUnder, List.filter_cons]
  split
  · rename_i h
    rw [if_pos (eq_of_beq h), List.map_cons]
    rfl
  · rename_i h
    rw [if_neg fun hkey => h (beq_iff_eq.mpr hkey)]
    rfl

theorem textsUnder_eq_nil_iff {key : String} {members : List (String × List Char)} :
    textsUnder key members = [] ↔ key ∉ members.map Prod.fst := by
  simp only [textsUnder, List.map_eq_nil_iff, List.filter_eq_nil_iff, beq_iff_eq, List.mem_map,
    not_exists, not_and]

/-! ### Drafts -/

/-- Whether a draft becomes another as members are read into it; a part that is there already
is not read again. -/
inductive Fills : Draft → List (String × List Char) → Draft → Prop
  | done (d : Draft) : Fills d [] d
  | other {d d' : Draft} {key : String} {text : List Char} {rest : List (String × List Char)}
      (hkey : Part.ofKey? key = none) (hrest : Fills d rest d') : Fills d ((key, text) :: rest) d'
  | part {d d' : Draft} {key : String} {text : List Char} {rest : List (String × List Char)}
      {p : Part} {v : p.Value} (hkey : Part.ofKey? key = some p) (hfresh : d.get p = none)
      (htext : p.IsText text v) (hrest : Fills (d.set p v) rest d') :
      Fills d ((key, text) :: rest) d'

theorem Fills.get {d d' : Draft} {members : List (String × List Char)} (h : Fills d members d')
    (p : Part) :
    (textsUnder p.key members = [] ∧ d'.get p = d.get p) ∨
    ∃ text v, textsUnder p.key members = [text] ∧ p.IsText text v ∧ d.get p = none ∧
      d'.get p = some v := by
  induction h with
  | done d => exact .inl ⟨rfl, rfl⟩
  | @other d d' key text rest hkey _ ih =>
    rwa [textsUnder_cons, if_neg (Part.ne_key_of_ofKey? hkey p)]
  | @part d d' key text rest q v hkey hfresh htext _ ih =>
    obtain rfl := Part.ofKey?_eq_some_iff.mp hkey
    rw [textsUnder_cons]
    by_cases hqp : q = p
    · subst hqp
      rw [if_pos rfl]
      rcases ih with ⟨hrest, hget⟩ | ⟨_, _, _, _, hnone, _⟩
      · rw [Draft.get_set_self] at hget
        exact .inr ⟨text, v, by rw [hrest], htext, hfresh, hget⟩
      · rw [Draft.get_set_self] at hnone
        cases hnone
    · rw [if_neg fun hkeys => hqp (Part.key_injective hkeys)]
      rwa [Draft.get_set_of_ne d (Ne.symm hqp)] at ih

theorem exists_fills {d : Draft} {members : List (String × List Char)}
    (h : ∀ p, textsUnder p.key members = [] ∨
      ∃ text v, textsUnder p.key members = [text] ∧ p.IsText text v ∧ d.get p = none) :
    ∃ d', Fills d members d' := by
  induction members generalizing d with
  | nil => exact ⟨d, .done d⟩
  | cons member rest ih =>
    obtain ⟨key, text⟩ := member
    cases hkey : Part.ofKey? key with
    | none =>
      have hrest : ∀ p, textsUnder p.key rest = [] ∨
          ∃ text v, textsUnder p.key rest = [text] ∧ p.IsText text v ∧ d.get p = none := by
        intro p
        have hp := h p
        rwa [textsUnder_cons, if_neg (Part.ne_key_of_ofKey? hkey p)] at hp
      obtain ⟨d', hfills⟩ := ih hrest
      exact ⟨d', .other hkey hfills⟩
    | some q =>
      obtain rfl := Part.ofKey?_eq_some_iff.mp hkey
      have hq := h q
      rw [textsUnder_cons, if_pos rfl] at hq
      rcases hq with hnil | ⟨text', w, hsingle, htext, hfresh⟩
      · cases hnil
      obtain ⟨rfl, hnone⟩ := List.cons.inj hsingle
      have hrest : ∀ p, textsUnder p.key rest = [] ∨
          ∃ text v, textsUnder p.key rest = [text] ∧ p.IsText text v ∧
            (d.set q w).get p = none := by
        intro p
        by_cases hqp : q = p
        · subst hqp
          exact .inl hnone
        · have hp := h p
          rw [textsUnder_cons, if_neg fun hkeys => hqp (Part.key_injective hkeys)] at hp
          rwa [Draft.get_set_of_ne d (Ne.symm hqp)]
      obtain ⟨d', hfills⟩ := ih hrest
      exact ⟨d', .part hkey hfresh htext hfills⟩

/-- What the members say is what they fill an empty draft with. -/
theorem decodes_iff {members : List (String × List Char)} {f : Fixture} (stop : Nat) :
    Decodes members f ↔ ∃ d, Fills {} members d ∧ ofDraft d stop = .ok f := by
  constructor
  · intro h
    have hsays : ∀ p, textsUnder p.key members = [] ∨ ∃ text v,
        textsUnder p.key members = [text] ∧ p.IsText text v ∧ ({} : Draft).get p = none := by
      intro p
      obtain ⟨said, hsaid, -⟩ := h p
      cases hsaid with
      | silent hnil => exact .inl hnil
      | given hsingle htext => exact .inr ⟨_, _, hsingle, htext, Draft.get_empty p⟩
    obtain ⟨d, hfills⟩ := exists_fills hsays
    refine ⟨d, hfills, ofDraft_eq_ok_iff.mpr fun p => ?_⟩
    obtain ⟨said, hsaid, hvalue⟩ := h p
    rw [← hvalue]
    cases hsaid with
    | silent hnil =>
      rcases hfills.get p with ⟨-, hget⟩ | ⟨text, v, hsingle, -⟩
      · rw [hget, Draft.get_empty]
      · rw [hnil] at hsingle
        cases hsingle
    | given hsingle htext =>
      rcases hfills.get p with ⟨hnil, -⟩ | ⟨text, v, hsingle', htext', -, hget⟩
      · rw [hsingle] at hnil
        cases hnil
      · rw [hsingle] at hsingle'
        obtain ⟨rfl, -⟩ := List.cons.inj hsingle'
        rw [hget, (Part.matches p).unique htext' htext]
  · rintro ⟨d, hfills, hdraft⟩ p
    refine ⟨d.get p, ?_, ofDraft_eq_ok_iff.mp hdraft p⟩
    rcases hfills.get p with ⟨hnil, hget⟩ | ⟨text, v, hsingle, htext, -, hget⟩
    · rw [hget, Draft.get_empty]
      exact .silent hnil
    · rw [hget]
      exact .given hsingle htext

/-! ### Objects -/

theorem fills_of_readMembers {fuel : Nat} {d d' : Draft} {isFirst : Bool} {c : Cursor} {stop : Nat}
    (h : readMembers fuel d isFirst c = .ok (d', stop)) : ∃ cs tail members,
      c.rest = cs ++ tail ∧ IsMembers isFirst cs members ∧ Fills d members d' := by
  induction fuel generalizing d isFirst c with
  | zero => cases h
  | succ fuel ih =>
    rw [readMembers] at h
    split at h
    · cases h
    · rename_i after hnext
      obtain ⟨rfl, -⟩ := Prod.mk.inj (Except.ok.inj h)
      obtain ⟨blanks, hblanks, hrest⟩ := close_of_nextMember hnext
      exact ⟨blanks ++ ['\x7d'], after.rest, [], by rw [hrest]; simp, .close hblanks, .done d⟩
    · rename_i start hnext
      obtain ⟨separator, cs, hseparator, hquote, hrest⟩ := entry_of_nextMember hnext
      split at h
      · cases h
      rename_i label colon hlabel
      obtain ⟨keyPart, hcs, hkeyPart⟩ := isStringOf_of_readLabel hquote hlabel
      split at h
      · rename_i hkey
        obtain ⟨value, hcolon, h⟩ := bind_eq_ok_iff.mp h
        obtain ⟨before, hbefore, hvalue⟩ := rest_of_readColon (orFail_eq_ok_iff.mp hcolon)
        obtain ⟨after, hskip, h⟩ := bind_eq_ok_iff.mp h
        obtain ⟨blanks, text, hblanks, htext, hafter⟩ :=
          isValue_of_skipValue (orFail_eq_ok_iff.mp (within_eq_ok_iff.mp hskip))
        obtain ⟨others, tail, members, hothers, hmembers, hfills⟩ := ih h
        refine ⟨_, tail, _, ?_, .member hseparator (.intro hkeyPart hbefore hblanks) htext hmembers,
          .other hkey hfills⟩
        rw [hrest, hquote, hcs, hvalue, hafter, hothers]
        simp
      · rename_i p hkey
        split at h
        · cases h
        rename_i hfresh
        obtain ⟨value, hcolon, h⟩ := bind_eq_ok_iff.mp h
        obtain ⟨before, hbefore, hvalue⟩ := rest_of_readColon (orFail_eq_ok_iff.mp hcolon)
        obtain ⟨⟨next, after⟩, hpart, h⟩ := bind_eq_ok_iff.mp h
        rw [within_eq_ok_iff, readPart_eq] at hpart
        obtain ⟨⟨v, c'⟩, hread, hpair⟩ := map_eq_ok_iff.mp hpart
        obtain ⟨rfl, rfl⟩ := Prod.mk.inj hpair
        obtain ⟨blanks, text, hblanks, hafter, htext⟩ := (Part.matches p).takes hread
        obtain ⟨others, tail, members, hothers, hmembers, hfills⟩ := ih h
        have hnone : d.get p = none := by
          rw [Draft.has_eq, Bool.not_eq_true, Option.isSome_eq_false_iff, Option.isNone_iff_eq_none]
            at hfresh
          exact hfresh
        refine ⟨_, tail, _, ?_, .member hseparator (.intro hkeyPart hbefore hblanks)
          ((Part.matches p).isValue htext) hmembers, .part hkey hnone htext hfills⟩
        rw [hrest, hquote, hcs, hvalue, hafter, hothers]
        simp

theorem readMembers_of_fills {isFirst : Bool} {cs : List Char}
    {members : List (String × List Char)} (h : IsMembers isFirst cs members) {d d' : Draft}
    (hfills : Fills d members d') (fuel : Nat) (hfuel : cs.length ≤ fuel) (tail : List Char)
    (offset : Nat) :
    ∃ stop, readMembers fuel d isFirst ⟨cs ++ tail, offset⟩ = .ok (d', stop) := by
  induction h generalizing d fuel offset with
  | @close isFirst blanks hblanks =>
    cases hfills
    rw [List.length_append, List.length_singleton] at hfuel
    obtain ⟨fuel, rfl⟩ : ∃ n, fuel = n + 1 := ⟨fuel - 1, by omega⟩
    obtain ⟨stop, hnext⟩ := nextMember_blanks hblanks isFirst tail offset
    refine ⟨stop, ?_⟩
    rw [List.append_assoc, List.singleton_append, readMembers, hnext]
  | @member isFirst separator label text rest key members hseparator hlabel htext hrest ih =>
    obtain @⟨keyPart, before, after, _, hkeyPart, hbefore, hafter⟩ := hlabel
    have hpositive := htext.length_pos
    simp only [List.length_append, List.length_cons] at hfuel
    obtain ⟨fuel, rfl⟩ : ∃ n, fuel = n + 1 := ⟨fuel - 1, by omega⟩
    obtain ⟨start, hnext⟩ := nextMember_separator hseparator
      (keyPart ++ (before ++ ':' :: (after ++ (text ++ (rest ++ tail))))) offset
    obtain ⟨label, colon, hread, rfl⟩ :=
      hkeyPart.readLabel (before ++ ':' :: (after ++ (text ++ (rest ++ tail)))) start
    obtain ⟨value, hcolon⟩ := passes_readColon hbefore (after ++ (text ++ (rest ++ tail))) colon
    have hcolon := orFail_eq_ok_iff.mpr hcolon
    simp only [List.append_assoc, List.cons_append]
    cases hfills with
    | other hkey hfills =>
      obtain ⟨next, hskip⟩ :=
        passes_skipValue hafter htext (fun _ => hrest.inside.ends tail) value
      obtain ⟨stop, hreads⟩ := ih hfills fuel (by omega) next
      refine ⟨stop, ?_⟩
      rw [readMembers, hnext]
      simp only [hread, hkey]
      refine bind_eq_ok_iff.mpr ⟨_, hcolon, ?_⟩
      refine bind_eq_ok_iff.mpr ⟨_, within_eq_ok_iff.mpr (orFail_eq_ok_iff.mpr hskip), ?_⟩
      exact hreads
    | @part _ _ _ _ _ p v hkey hfresh hpart hfills =>
      obtain ⟨next, hvalue⟩ :=
        (Part.matches p).gives hpart after _ hafter (fun _ => hrest.inside.ends tail) value
      obtain ⟨stop, hreads⟩ := ih hfills fuel (by omega) next
      refine ⟨stop, ?_⟩
      rw [readMembers, hnext]
      simp only [hread, hkey, Draft.has_eq, hfresh, Option.isSome_none, Bool.false_eq_true,
        if_false]
      refine bind_eq_ok_iff.mpr ⟨_, hcolon, ?_⟩
      refine bind_eq_ok_iff.mpr ⟨(d.set p v, ⟨rest ++ tail, next⟩), ?_, hreads⟩
      rw [within_eq_ok_iff, readPart_eq]
      exact map_eq_ok_iff.mpr ⟨_, hvalue, rfl⟩

/-! ### Lists -/

theorem rest_of_readListEnd {c : Cursor} {stop : Nat} (h : readListEnd c = .ok stop) :
    ∃ blanks tail, IsBlank blanks ∧ c.rest = blanks ++ ']' :: tail := by
  obtain ⟨blanks, rest, start, hskip, hrest, hblanks, -⟩ := exists_skipBlanks c
  rw [readListEnd, hskip] at h
  dsimp only at h
  split at h
  · cases h
  · exact ⟨blanks, _, hblanks, hrest⟩
  · split at h
    · cases h
    · cases h
  · cases h

theorem readListEnd_blanks {blanks : List Char} (h : IsBlank blanks) (tail : List Char)
    (offset : Nat) : ∃ stop, readListEnd ⟨blanks ++ ']' :: tail, offset⟩ = .ok stop := by
  obtain ⟨start, hskip⟩ := skipBlanks_append h (stops_cons (c := ']') rfl tail) offset
  refine ⟨start + ']'.utf8Size, ?_⟩
  rw [readListEnd, hskip]
  rfl

theorem fills_of_readItems {i : Nat} {d d' : Draft} {parts : List Part} {c : Cursor} {stop : Nat}
    (h : readItems i d parts c = .ok (d', stop)) (hparts : parts.Nodup)
    (hfresh : ∀ p ∈ parts, d.get p = none) : ∃ cs tail items, c.rest = cs ++ tail ∧
      IsItems (i = 0) cs items ∧ items.length ≤ parts.length ∧
      Fills d ((parts.map Part.key).zip items) d' := by
  induction parts generalizing i d c with
  | nil =>
    obtain ⟨stop', hend, hpair⟩ := map_eq_ok_iff.mp h
    obtain ⟨rfl, -⟩ := Prod.mk.inj hpair
    obtain ⟨blanks, tail, hblanks, hrest⟩ := rest_of_readListEnd hend
    exact ⟨blanks ++ [']'], tail, [], by rw [hrest]; simp, .close hblanks, Nat.le_refl _, .done d⟩
  | cons p parts ih =>
    rw [readItems] at h
    split at h
    · cases h
    · rename_i after hnext
      obtain ⟨blanks, hblanks, hrest⟩ := close_of_nextItem hnext
      split at h
      · cases h
      · obtain ⟨rfl, -⟩ := Prod.mk.inj (Except.ok.inj h)
        exact ⟨blanks ++ [']'], after.rest, [], by rw [hrest]; simp, .close hblanks,
          Nat.zero_le _, .done d⟩
    · rename_i start hnext
      obtain ⟨separator, hseparator, hrest⟩ := entry_of_nextItem hnext
      obtain ⟨⟨next, after⟩, hpart, h⟩ := bind_eq_ok_iff.mp h
      rw [within_eq_ok_iff, readPart_eq] at hpart
      obtain ⟨⟨v, c'⟩, hread, hpair⟩ := map_eq_ok_iff.mp hpart
      obtain ⟨rfl, rfl⟩ := Prod.mk.inj hpair
      obtain ⟨blanks, text, hblanks, hstart, htext⟩ := (Part.matches p).takes hread
      obtain ⟨hp, hnodup⟩ := List.nodup_cons.mp hparts
      have hlater : ∀ q ∈ parts, (d.set p v).get q = none := by
        intro q hq
        have hne : q ≠ p := fun heq => hp (heq ▸ hq)
        rw [Draft.get_set_of_ne d hne]
        exact hfresh q (List.mem_cons_of_mem _ hq)
      obtain ⟨others, tail, items, hothers, hitems, hlength, hfills⟩ := ih h hnodup hlater
      have hitems : IsItems false others items := by simpa using hitems
      refine ⟨(separator ++ blanks) ++ (text ++ others), tail, text :: items, ?_,
        .item (hseparator.append hblanks) ((Part.matches p).isValue htext) hitems,
        Nat.succ_le_succ hlength,
        .part (Part.ofKey?_eq_some_iff.mpr rfl) (hfresh p List.mem_cons_self) htext hfills⟩
      rw [hrest, hstart, hothers]
      simp

theorem readItems_of_fills {isFirst : Bool} {cs : List Char} {items : List (List Char)}
    (h : IsItems isFirst cs items) {i : Nat} {d d' : Draft} {parts : List Part}
    (hfirst : isFirst = decide (i = 0)) (hlength : items.length ≤ parts.length)
    (hoptional : ∀ p ∈ parts.drop items.length, p.isRequired = false)
    (hfills : Fills d ((parts.map Part.key).zip items) d') (tail : List Char) (offset : Nat) :
    ∃ stop, readItems i d parts ⟨cs ++ tail, offset⟩ = .ok (d', stop) := by
  induction h generalizing i d parts offset with
  | @close isFirst blanks hblanks =>
    rw [List.zip_nil_right] at hfills
    cases hfills
    rw [List.append_assoc, List.singleton_append]
    cases parts with
    | nil =>
      obtain ⟨stop, hend⟩ := readListEnd_blanks hblanks tail offset
      exact ⟨stop, map_eq_ok_iff.mpr ⟨stop, hend, rfl⟩⟩
    | cons p parts =>
      obtain ⟨stop, hnext⟩ := nextItem_blanks hblanks isFirst tail offset
      have hfind : (p :: parts).findIdx? Part.isRequired = none :=
        List.findIdx?_eq_none_iff.mpr hoptional
      refine ⟨stop, ?_⟩
      rw [readItems, ← hfirst, hnext]
      simp only [hfind]
  | @item isFirst separator text rest items hseparator htext hrest ih =>
    cases parts with
    | nil => cases hlength
    | cons p parts =>
      obtain ⟨start, hnext⟩ :=
        nextItem_separator hseparator (htext.opens (rest ++ tail)) offset
      rw [List.map_cons, List.zip_cons_cons] at hfills
      cases hfills with
      | other hkey _ => exact absurd rfl (Part.ne_key_of_ofKey? hkey p)
      | @part _ _ _ _ _ q v hkey hfresh hpart hfills =>
        obtain rfl : p = q := Part.key_injective (Part.ofKey?_eq_some_iff.mp hkey)
        obtain ⟨next, hvalue⟩ := (Part.matches p).gives hpart [] _ .nil
          (fun _ => hrest.inside.ends tail) start
        obtain ⟨stop, hreads⟩ :=
          ih (i := i + 1) (by simp) (Nat.le_of_succ_le_succ hlength) hoptional hfills next
        refine ⟨stop, ?_⟩
        rw [List.append_assoc, List.append_assoc, readItems, ← hfirst, hnext]
        refine bind_eq_ok_iff.mpr ⟨(d.set p v, ⟨rest ++ tail, next⟩), ?_, hreads⟩
        rw [within_eq_ok_iff, readPart_eq]
        exact map_eq_ok_iff.mpr ⟨_, hvalue, rfl⟩

/-! ### Whole texts -/

theorem keys_zip {keys : List String} {texts : List (List Char)} :
    (keys.zip texts).map Prod.fst = keys.take texts.length := by
  induction keys generalizing texts with
  | nil => simp
  | cons key keys ih =>
    cases texts with
    | nil => rfl
    | cons text texts => simp [ih]

/-- A list says nothing of the parts behind its end, so they have fallbacks. -/
theorem not_required_of_decodes {items : List (List Char)} {f : Fixture}
    (h : Decodes ((Part.all.map Part.key).zip items) f) :
    ∀ p ∈ Part.all.drop items.length, p.isRequired = false := by
  intro p hp
  have hkey : p.key ∉ ((Part.all.map Part.key).zip items).map Prod.fst := by
    rw [keys_zip, ← List.map_take]
    intro hmem
    obtain ⟨q, hq, hkeys⟩ := List.mem_map.mp hmem
    obtain rfl := Part.key_injective hkeys
    exact List.disjoint_take_drop (by decide) (Nat.le_refl _) hq hp
  obtain ⟨said, hsaid, hvalue⟩ := h p
  cases hsaid with
  | silent _ =>
    rw [Option.none_or] at hvalue
    rw [← Bool.not_eq_true, isRequired_iff, hvalue]
    exact Option.some_ne_none _
  | given hsingle _ =>
    rw [textsUnder_eq_nil_iff.mpr hkey] at hsingle
    cases hsingle

/-- A text is read where it begins with that of a fixture; what follows does not matter. -/
theorem ofText_eq_ok_iff {text : String} {f : Fixture} :
    ofText text = .ok f ↔ ∃ before body after, text.toList = before ++ (body ++ after) ∧
      IsBlank before ∧ IsText body f := by
  constructor
  · intro h
    obtain ⟨before, rest, start, hskip, hstart, hbefore, -⟩ :=
      exists_skipBlanks (Cursor.ofString text)
    rw [ofText, hskip] at h
    dsimp only at h
    split at h
    · rename_i cs
      obtain ⟨⟨d, stop⟩, hread, hdraft⟩ := bind_eq_ok_iff.mp h
      obtain ⟨others, tail, items, hcs, hitems, hlength, hfills⟩ :=
        fills_of_readItems hread (by decide) fun p _ => Draft.get_empty p
      have hcs : cs = others ++ tail := hcs
      exact ⟨before, '[' :: others, tail, hstart.trans (by rw [hcs]; rfl), hbefore,
        .list hitems hlength ((decodes_iff stop).mpr ⟨d, hfills, hdraft⟩)⟩
    · rename_i cs
      obtain ⟨⟨d, stop⟩, hread, hdraft⟩ := bind_eq_ok_iff.mp h
      obtain ⟨others, tail, members, hcs, hmembers, hfills⟩ := fills_of_readMembers hread
      have hcs : cs = others ++ tail := hcs
      exact ⟨before, '\x7b' :: others, tail, hstart.trans (by rw [hcs]; rfl), hbefore,
        .object hmembers ((decodes_iff stop).mpr ⟨d, hfills, hdraft⟩)⟩
    · cases h
  · rintro ⟨before, body, after, htext, hbefore, hbody⟩
    cases hbody with
    | @object cs members _ hmembers hdecodes =>
      obtain ⟨start, hskip⟩ :=
        skipBlanks_append hbefore (stops_cons (c := '\x7b') rfl (cs ++ after)) 0
      obtain ⟨d, hfills, hdraft⟩ := (decodes_iff 0).mp hdecodes
      obtain ⟨stop, hread⟩ := readMembers_of_fills hmembers hfills
        (('\x7b' :: (cs ++ after)).length + 1)
        (by simp only [List.length_cons, List.length_append]; omega) after
        (start + '\x7b'.utf8Size)
      rw [ofText, Cursor.ofString, htext, List.cons_append, hskip]
      refine bind_eq_ok_iff.mpr ⟨(d, stop), hread, ?_⟩
      rw [ofDraft_eq_ok_iff] at hdraft ⊢
      exact hdraft
    | @list cs items _ hitems hlength hdecodes =>
      obtain ⟨start, hskip⟩ :=
        skipBlanks_append hbefore (stops_cons (c := '[') rfl (cs ++ after)) 0
      obtain ⟨d, hfills, hdraft⟩ := (decodes_iff 0).mp hdecodes
      obtain ⟨stop, hread⟩ := readItems_of_fills hitems (i := 0) rfl hlength
        (not_required_of_decodes hdecodes) hfills after (start + '['.utf8Size)
      rw [ofText, Cursor.ofString, htext, List.cons_append, hskip]
      refine bind_eq_ok_iff.mpr ⟨(d, stop), hread, ?_⟩
      rw [ofDraft_eq_ok_iff] at hdraft ⊢
      exact hdraft

end ApiTypes.Fixture
