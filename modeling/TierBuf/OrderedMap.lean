import Mathlib

/-!
# Ordered Maps

Maps as lists that are sorted by their keys.

The order makes the list a function of the map: two maps that answer every
lookup alike are the same list. `adjust` is the one update there is. It changes
the value of a key, or inserts the key with a changed default.

## Main definitions

* `OrderedMap`: A list of entries sorted by their keys.
* `OrderedMap.get?`: The value of a key.
* `OrderedMap.adjust`: Change the value of a key.

## Theorems

* `OrderedMap.get?_adjust`: What a change does to every lookup.
* `OrderedMap.ext_get?`: A map is determined by its lookups.
* `OrderedMap.sum_adjust`: What a change does to a sum over the values.
-/

/-- A list of entries sorted by their keys. -/
@[ext] structure OrderedMap (κ β : Type*) [LinearOrder κ] where
  entries : List (κ × β)
  sorted : entries.Pairwise (fun x y => x.1 < y.1)

namespace OrderedMap

variable {κ β γ : Type*} [LinearOrder κ] {j k : κ} {d v : β} {f : β → β}

def empty : OrderedMap κ β := ⟨[], .nil⟩

/-- The value of a key. -/
def get? (m : OrderedMap κ β) (k : κ) : Option β :=
  m.entries.lookup k

/-- Change the value of a key in a list, or insert it. -/
def adjustEntries (k : κ) (d : β) (f : β → β) : List (κ × β) → List (κ × β)
  | [] => [(k, f d)]
  | x :: l =>
      if k < x.1 then (k, f d) :: x :: l
      else if x.1 = k then (k, f x.2) :: l
      else x :: adjustEntries k d f l

theorem key_mem_adjustEntries {l : List (κ × β)} {y : κ × β} (h : y ∈ adjustEntries k d f l) :
    y.1 = k ∨ ∃ x ∈ l, x.1 = y.1 := by
  induction l with
  | nil =>
      rw [adjustEntries, List.mem_singleton] at h
      exact .inl (by rw [h])
  | cons x l ih =>
      rw [adjustEntries] at h
      split_ifs at h with hlt heq
      · rcases List.mem_cons.mp h with rfl | h
        · exact .inl rfl
        · exact .inr ⟨y, h, rfl⟩
      · rcases List.mem_cons.mp h with rfl | h
        · exact .inl rfl
        · exact .inr ⟨y, List.mem_cons_of_mem x h, rfl⟩
      · rcases List.mem_cons.mp h with rfl | h
        · exact .inr ⟨y, List.mem_cons_self, rfl⟩
        · exact (ih h).imp_right (fun ⟨z, hz, hk⟩ => ⟨z, List.mem_cons_of_mem x hz, hk⟩)

theorem sorted_adjustEntries {l : List (κ × β)} (h : l.Pairwise (fun x y => x.1 < y.1)) :
    (adjustEntries k d f l).Pairwise (fun x y => x.1 < y.1) := by
  induction l with
  | nil => exact List.pairwise_singleton _ _
  | cons x l ih =>
      have hrest := List.pairwise_cons.mp h
      rw [adjustEntries]
      split_ifs with hlt heq
      · refine List.pairwise_cons.mpr ⟨fun y hy => ?_, h⟩
        rcases List.mem_cons.mp hy with rfl | hy
        · exact hlt
        · exact hlt.trans (hrest.1 y hy)
      · exact List.pairwise_cons.mpr ⟨fun y hy => heq ▸ hrest.1 y hy, hrest.2⟩
      · refine List.pairwise_cons.mpr ⟨fun y hy => ?_, ih hrest.2⟩
        rcases key_mem_adjustEntries hy with hk | ⟨z, hz, hk⟩
        · rw [hk]
          exact lt_of_le_of_ne (not_lt.mp hlt) heq
        · rw [← hk]
          exact hrest.1 z hz

/-- Change the value of a key. A key that is missing is inserted with the
    changed default. -/
def adjust (m : OrderedMap κ β) (k : κ) (d : β) (f : β → β) : OrderedMap κ β :=
  ⟨adjustEntries k d f m.entries, sorted_adjustEntries m.sorted⟩

theorem lookup_cons_self' {x : κ × β} {l : List (κ × β)} (h : j = x.1) :
    (x :: l).lookup j = some x.2 := by
  rw [h]
  exact List.lookup_cons_self

theorem lookup_cons_of_ne {x : κ × β} {l : List (κ × β)} (h : j ≠ x.1) :
    (x :: l).lookup j = l.lookup j := by
  rw [List.lookup_cons, beq_false_of_ne h]

theorem lookup_eq_none_of_lt {l : List (κ × β)} (h : ∀ x ∈ l, k < x.1) : l.lookup k = none :=
  List.lookup_eq_none_iff.mpr (fun x hx => bne_iff_ne.mpr (h x hx).ne)

theorem lookup_adjustEntries {l : List (κ × β)} (h : l.Pairwise (fun x y => x.1 < y.1)) :
    (adjustEntries k d f l).lookup j =
      if j = k then some (f ((l.lookup k).getD d)) else l.lookup j := by
  induction l with
  | nil =>
      rw [adjustEntries]
      by_cases hj : j = k
      · rw [lookup_cons_self' hj, if_pos hj]
        rfl
      · rw [lookup_cons_of_ne hj, if_neg hj]
  | cons x l ih =>
      have hrest := List.pairwise_cons.mp h
      rw [adjustEntries]
      by_cases hlt : k < x.1
      · have hnone : (x :: l).lookup k = none := by
          refine lookup_eq_none_of_lt (fun y hy => ?_)
          rcases List.mem_cons.mp hy with rfl | hy
          · exact hlt
          · exact hlt.trans (hrest.1 y hy)
        rw [if_pos hlt, hnone]
        by_cases hj : j = k
        · rw [lookup_cons_self' hj, if_pos hj]
          rfl
        · rw [lookup_cons_of_ne hj, if_neg hj]
      · rw [if_neg hlt]
        by_cases heq : x.1 = k
        · rw [if_pos heq, lookup_cons_self' heq.symm]
          by_cases hj : j = k
          · rw [lookup_cons_self' hj, if_pos hj]
            rfl
          · rw [lookup_cons_of_ne hj, if_neg hj, lookup_cons_of_ne (fun hc => hj (hc.trans heq))]
        · rw [if_neg heq, lookup_cons_of_ne (fun hc => heq hc.symm)]
          by_cases hx : j = x.1
          · rw [lookup_cons_self' hx, if_neg (fun hc => heq (hx.symm.trans hc)),
              lookup_cons_self' hx]
          · rw [lookup_cons_of_ne hx, ih hrest.2, lookup_cons_of_ne hx]

/-- What a change does to every lookup. -/
theorem get?_adjust (m : OrderedMap κ β) (j k : κ) (d : β) (f : β → β) :
    (m.adjust k d f).get? j = if j = k then some (f ((m.get? k).getD d)) else m.get? j :=
  lookup_adjustEntries m.sorted

@[simp] theorem get?_empty (k : κ) : (empty : OrderedMap κ β).get? k = none := rfl

theorem get?_eq_some {m : OrderedMap κ β} : m.get? k = some v ↔ (k, v) ∈ m.entries := by
  rcases m with ⟨l, hl⟩
  change l.lookup k = some v ↔ (k, v) ∈ l
  induction l with
  | nil => exact ⟨fun h => (by cases h), fun h => (by cases h)⟩
  | cons x l ih =>
      have hrest := List.pairwise_cons.mp hl
      by_cases hk : k = x.1
      · rw [lookup_cons_self' hk, Option.some.injEq, List.mem_cons]
        refine ⟨fun hv => .inl (Prod.ext hk hv.symm), fun h => ?_⟩
        rcases h with h | h
        · exact (congrArg Prod.snd h).symm
        · exact absurd hk (hrest.1 _ h).ne'
      · rw [lookup_cons_of_ne hk, ih hrest.2, List.mem_cons]
        exact ⟨.inr, fun h => h.resolve_left (fun hc => hk (congrArg Prod.fst hc))⟩

/-- A map is determined by its lookups. -/
theorem ext_get? {m m' : OrderedMap κ β} (h : ∀ k, m.get? k = m'.get? k) : m = m' := by
  have hirr : Std.Irrefl (fun x y : κ × β => x.1 < y.1) := ⟨fun x => lt_irrefl x.1⟩
  have hanti : Std.Antisymm (fun x y : κ × β => x.1 < y.1) :=
    ⟨fun x y hxy hyx => absurd hyx hxy.not_gt⟩
  refine OrderedMap.ext (m.sorted.eq_of_mem_iff m'.sorted (fun x => ?_))
  rw [← get?_eq_some (m := m), ← get?_eq_some (m := m'), h]

/-- What a change does to a sum over the values. -/
theorem sum_adjust [AddCommMonoid γ] (m : OrderedMap κ β) (k : κ) (d : β) (f : β → β) (g : β → γ)
    (c : γ) (hd : g d = 0) (hf : ∀ v, g (f v) = g v + c) :
    ((m.adjust k d f).entries.map (fun x => g x.2)).sum =
      (m.entries.map (fun x => g x.2)).sum + c := by
  change ((adjustEntries k d f m.entries).map (fun x => g x.2)).sum = _
  generalize m.entries = l
  induction l with
  | nil =>
      rw [adjustEntries, List.map_singleton, List.sum_singleton, hf, hd]
      rfl
  | cons x l ih =>
      rw [adjustEntries]
      split_ifs
      · rw [List.map_cons, List.sum_cons, hf, hd, zero_add, add_comm]
      · rw [List.map_cons, List.sum_cons, hf, List.map_cons, List.sum_cons, add_right_comm]
      · rw [List.map_cons, List.sum_cons, ih, List.map_cons, List.sum_cons, add_assoc]

end OrderedMap
