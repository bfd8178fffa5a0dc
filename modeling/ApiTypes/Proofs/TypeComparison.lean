import ApiTypes.Proofs.TypeTree

/-!
# Comparing type trees

A tree that is read is compared with the tree that is meant.  Both have as many
bars, and the reading never has more of them inside intersections; where it has
fewer, it means something else.  The comparison of compound trees follows from
that of their parts.
-/

namespace ApiTypes

namespace TypeTree

/-- A tree that is read beside the tree that is meant: they have as many bars,
no more of those that are read stand inside intersections, and the two mean the
same exactly under the condition `ok`. -/
structure Compared (r m : TypeTree) (ok : Prop) : Prop where
  bars_eq : r.bars = m.bars
  load_le : r.load ≤ m.load
  same : ok → r.Same m
  apart : ¬ ok → r.load < m.load

namespace Compared
variable {r m s t : TypeTree} {ok : Prop}

theorem same_iff (h : Compared r m ok) : r.Same m ↔ ok := by
  refine ⟨?_, h.same⟩
  intro hsame
  by_contra hok
  have hlt := h.apart hok
  have heq := hsame.load_eq
  omega

theorem of_same (h : r.Same m) (hok : ok) : Compared r m ok :=
  ⟨h.bars_eq, Nat.le_of_eq h.load_eq, fun _ => h, fun hn => absurd hok hn⟩

theorem of_same_left (h : s.Same r) (hc : Compared r m ok) : Compared s m ok where
  bars_eq := h.bars_eq.trans hc.bars_eq
  load_le := h.load_eq.trans_le hc.load_le
  same := fun hok => h.trans (hc.same hok)
  apart := fun hn => h.load_eq.trans_lt (hc.apart hn)

theorem of_same_right (hc : Compared r m ok) (h : m.Same t) : Compared r t ok where
  bars_eq := hc.bars_eq.trans h.bars_eq
  load_le := hc.load_le.trans_eq h.load_eq
  same := fun hok => (hc.same hok).trans h
  apart := fun hn => (hc.apart hn).trans_eq h.load_eq

theorem congr_ok {ok' : Prop} (hc : Compared r m ok) (h : ok ↔ ok') : Compared r m ok' := by
  rwa [← propext h]

theorem array (hc : Compared r m ok) : Compared (.array r) (.array m) ok where
  bars_eq := by simpa only [bars] using hc.bars_eq
  load_le := by simpa only [load] using hc.load_le
  same := fun hok => .array (hc.same hok)
  apart := fun hn => by simpa only [load] using hc.apart hn

theorem member (hc : Compared r m ok) (after : List TypeTree) :
    Compared (.union (r :: after)) (.union (m :: after)) ok where
  bars_eq := by simp [bars, hc.bars_eq]
  load_le := by simpa [load] using hc.load_le
  same := fun hok => .member [] after (hc.same hok)
  apart := fun hn => by simpa [load] using hc.apart hn

end Compared

structure ComparedList (rs ms : List TypeTree) (ok : Prop) : Prop where
  length_eq : rs.length = ms.length
  bars_eq : (rs.map bars).sum = (ms.map bars).sum
  load_le : (rs.map load).sum ≤ (ms.map load).sum
  same : ok → List.Forall₂ Same rs ms
  apart : ¬ ok → (rs.map load).sum < (ms.map load).sum

theorem ComparedList.congr_ok {rs ms : List TypeTree} {ok ok' : Prop} (hc : ComparedList rs ms ok)
    (h : ok ↔ ok') : ComparedList rs ms ok' := by
  rwa [← propext h]

theorem ComparedList.nil : ComparedList [] [] True :=
  ⟨rfl, rfl, Nat.le_refl _, fun _ => .nil, fun h => absurd trivial h⟩

theorem Compared.cons {r m : TypeTree} {rs ms : List TypeTree} {ok oks : Prop}
    (h : Compared r m ok) (hs : ComparedList rs ms oks) :
    ComparedList (r :: rs) (m :: ms) (ok ∧ oks) := by
  have hle := h.load_le
  have hles := hs.load_le
  refine ⟨by simp [hs.length_eq], by simp [h.bars_eq, hs.bars_eq], ?_, ?_, ?_⟩
  · simp only [List.map_cons, List.sum_cons]
    omega
  · exact fun hok => .cons (h.same hok.1) (hs.same hok.2)
  · intro hn
    simp only [List.map_cons, List.sum_cons]
    by_cases hok : ok
    · have hlt := hs.apart fun hoks => hn ⟨hok, hoks⟩
      omega
    · have hlt := h.apart hok
      omega

/-! ### Sameness of compound trees -/

theorem Same.union_of_forall₂ {rs ms : List TypeTree} (before : List TypeTree)
    (h : List.Forall₂ Same rs ms) : Same (.union (before ++ rs)) (.union (before ++ ms)) := by
  induction h generalizing before with
  | nil => exact .refl _
  | @cons r m rs ms hr _ ih =>
    have htail := ih (before ++ [r])
    rw [List.append_assoc, List.append_assoc] at htail
    exact htail.trans (.member before ms hr)

theorem Same.intersection_of_forall₂ {rs ms : List TypeTree} (before : List TypeTree)
    (h : List.Forall₂ Same rs ms) :
    Same (.intersection (before ++ rs)) (.intersection (before ++ ms)) := by
  induction h generalizing before with
  | nil => exact .refl _
  | @cons r m rs ms hr _ ih =>
    have htail := ih (before ++ [r])
    rw [List.append_assoc, List.append_assoc] at htail
    exact htail.trans (.part before ms hr)

theorem ComparedList.union {rs ms : List TypeTree} {ok : Prop} (h : ComparedList rs ms ok) :
    Compared (.union rs) (.union ms) ok where
  bars_eq := by simp [bars, h.bars_eq, h.length_eq]
  load_le := by simpa [load] using h.load_le
  same := fun hok => Same.union_of_forall₂ [] (h.same hok)
  apart := fun hn => by simpa [load] using h.apart hn

structure ComparedSlots (rs ms : List Slot) (ok : Prop) : Prop where
  bars_eq : slotBars rs = slotBars ms
  load_le : slotLoad rs ≤ slotLoad ms
  same : ok → ∀ before, Same (.record (before ++ rs)) (.record (before ++ ms))
  apart : ¬ ok → slotLoad rs < slotLoad ms

theorem ComparedSlots.congr_ok {rs ms : List Slot} {ok ok' : Prop} (hc : ComparedSlots rs ms ok)
    (h : ok ↔ ok') : ComparedSlots rs ms ok' := by
  rwa [← propext h]

theorem ComparedSlots.nil : ComparedSlots [] [] True :=
  ⟨rfl, Nat.le_refl _, fun _ _ => .refl _, fun h => absurd trivial h⟩

theorem ComparedSlots.cons {r m : TypeTree} {rs ms : List Slot} {ok oks : Prop} (name : String)
    (required : Bool) (h : Compared r m ok) (hs : ComparedSlots rs ms oks) :
    ComparedSlots (.mk name required r :: rs) (.mk name required m :: ms) (ok ∧ oks) := by
  have hle := h.load_le
  have hles := hs.load_le
  refine ⟨by simp [slotBars, h.bars_eq, hs.bars_eq], ?_, ?_, ?_⟩
  · simp only [slotLoad]
    omega
  · intro hok before
    have htail := hs.same hok.2 (before ++ [.mk name required r])
    rw [List.append_assoc, List.append_assoc] at htail
    exact htail.trans (.slot before ms name required (h.same hok.1))
  · intro hn
    simp only [slotLoad]
    by_cases hok : ok
    · have hlt := hs.apart fun hoks => hn ⟨hok, hoks⟩
      omega
    · have hlt := h.apart hok
      omega

theorem ComparedSlots.record {rs ms : List Slot} {ok : Prop} (h : ComparedSlots rs ms ok) :
    Compared (.record rs) (.record ms) ok where
  bars_eq := by simpa only [bars] using h.bars_eq
  load_le := by simpa only [load] using h.load_le
  same := fun hok => h.same hok []
  apart := fun hn => by simpa only [load] using h.apart hn

end TypeTree

end ApiTypes
