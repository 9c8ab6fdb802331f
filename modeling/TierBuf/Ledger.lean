import Mathlib

/-!
# Ownership Ledgers

Counting who holds what.

A concurrent program keeps words that summarise its threads: a pin count, a
latch word, the reader count of a lock. The word says how many parties hold a
thing and nothing about who they are, so it cannot be reasoned about on its
own. A ledger is the missing half. It maps every party to the thing it holds,
and `tally` counts the parties holding a given one; the invariant worth having
is that the word equals the tally.

A step of one party changes the ledger at one place. `tally_acquire` and
`tally_release` are what such a change does to the count, and `tally_other`
says that everything else keeps its count.

`Accounts` is the ledger of a reader-writer word. Either nobody holds the
thing exclusively and the word counts the shared holders, or one party holds
it exclusively and nobody shares it. Pins against an eviction claim, latches
and an operation gate are all this one shape.

## Main definitions

* `tally`: The number of parties holding a given thing.
* `RwState`: The value of a reader-writer word.
* `Accounts`: A reader-writer word agrees with its two ledgers.
* `Table`: The same for one word of every thing.
* `Sole`: Nothing has two holders.
* `Amounts`: What the parties hold adds up to a given sum.

## Theorems

* `tally_other`: A change about other things keeps the count.
* `tally_acquire`: Acquiring raises the count by one.
* `tally_release`: Releasing lowers the count by one.
* `Accounts.excludes`: Shared and exclusive holders do not coexist.
* `Accounts.unique`: There is at most one exclusive holder.
* `Accounts.exists_holder`: A word that is not free has a holder.
* `Accounts.acquireShared`, `Accounts.releaseShared`,
  `Accounts.acquireExclusive`, `Accounts.releaseExclusive`,
  `Accounts.downgrade`: The five moves of a reader-writer word.
* `Table.acquireShared` and its companions: The same moves in a table.
* `Sole.keep`, `Sole.release`, `Sole.acquire`: What a step does to sole
  holding.
* `Amounts.change`: A step of one party changes the sum by its own amount.
-/

namespace Ledger

open Function

variable {α κ : Type*} {h h' : α → Option κ} {a b : α} {k : κ}

/-- The number of parties the ledger `h` records as holding `k`. -/
noncomputable def tally (h : α → Option κ) (k : κ) : ℕ∞ :=
  {a | h a = some k}.encard

theorem tally_congr (hd : ∀ b, h' b = some k ↔ h b = some k) : tally h' k = tally h k := by
  unfold tally
  congr 1
  ext b
  exact hd b

/-- A change at one party that is not about `k` keeps the count of `k`. -/
theorem tally_other (hd : ∀ b, b ≠ a → h' b = h b)
    (h0 : h a ≠ some k) (h1 : h' a ≠ some k) : tally h' k = tally h k := by
  refine tally_congr (fun b => ?_)
  by_cases hb : b = a
  · rw [hb]
    exact ⟨fun hc => absurd hc h1, fun hc => absurd hc h0⟩
  · rw [hd b hb]

/-- A party that did not hold `k` and now does raises the count by one. -/
theorem tally_acquire (hd : ∀ b, b ≠ a → h' b = h b)
    (h0 : h a ≠ some k) (h1 : h' a = some k) : tally h' k = tally h k + 1 := by
  unfold tally
  have hset : {b | h' b = some k} = insert a {b | h b = some k} := by
    ext b
    by_cases hb : b = a
    · simp only [hb, Set.mem_ofPred_eq, h1, Set.mem_insert_iff, true_or]
    · simp only [Set.mem_ofPred_eq, hd b hb, Set.mem_insert_iff, hb, false_or]
  rw [hset, Set.encard_insert_of_notMem (by simpa only [Set.mem_ofPred_eq] using h0)]

/-- A party that held `k` and no longer does lowers the count by one. -/
theorem tally_release (hd : ∀ b, b ≠ a → h' b = h b)
    (h0 : h a = some k) (h1 : h' a ≠ some k) : tally h k = tally h' k + 1 :=
  tally_acquire (fun b hb => (hd b hb).symm) h1 h0

theorem tally_eq_zero : tally h k = 0 ↔ ∀ a, h a ≠ some k := by
  unfold tally
  rw [Set.encard_eq_zero, Set.eq_empty_iff_forall_notMem]
  exact Iff.rfl

theorem tally_ne_zero (ha : h a = some k) : tally h k ≠ 0 :=
  fun hz => tally_eq_zero.mp hz a ha

theorem eq_of_tally_one (h1 : tally h k = 1) (ha : h a = some k) (hb : h b = some k) :
    a = b := by
  unfold tally at h1
  rcases Set.encard_eq_one.mp h1 with ⟨c, hc⟩
  have hac : a ∈ ({c} : Set α) := hc ▸ ha
  have hbc : b ∈ ({c} : Set α) := hc ▸ hb
  rw [Set.mem_singleton_iff.mp hac, Set.mem_singleton_iff.mp hbc]

theorem exists_of_tally_ne_zero (h1 : tally h k ≠ 0) : ∃ a, h a = some k := by
  by_contra hc
  exact h1 (tally_eq_zero.mpr (fun a ha => hc ⟨a, ha⟩))

/-! ### Reader-writer words -/

/-- The value of a word that is either shared by some number of parties or
    held by one of them alone. -/
inductive RwState where
  | shared (holders : Nat)
  | exclusive
  deriving DecidableEq, Repr

/-- The word of `k` agrees with the ledgers of its shared and exclusive
    holders. -/
def Accounts (w : RwState) (shr exc : α → Option κ) (k : κ) : Prop :=
  match w with
  | .shared n => tally shr k = n ∧ tally exc k = 0
  | .exclusive => tally shr k = 0 ∧ tally exc k = 1

namespace Accounts

variable {w : RwState} {n : Nat} {shr exc shr' exc' : α → Option κ}

theorem exclusive_of_holds (hw : Accounts w shr exc k) (ha : exc a = some k) :
    w = .exclusive := by
  cases w with
  | shared n => exact absurd hw.2 (tally_ne_zero ha)
  | exclusive => rfl

theorem shared_of_holds (hw : Accounts w shr exc k) (ha : shr a = some k) :
    ∃ n, w = .shared (n + 1) := by
  cases w with
  | exclusive => exact absurd hw.1 (tally_ne_zero ha)
  | shared n =>
      cases n with
      | zero => exact absurd hw.1 (tally_ne_zero ha)
      | succ n => exact ⟨n, rfl⟩

/-- A word that is not free has a holder. -/
theorem exists_holder (hw : Accounts w shr exc k) (h : w ≠ .shared 0) :
    ∃ b, shr b = some k ∨ exc b = some k := by
  cases w with
  | shared n =>
      have hn : tally shr k ≠ 0 := by
        rw [hw.1]
        exact fun hc => h (by rw [Nat.cast_eq_zero.mp hc])
      rcases exists_of_tally_ne_zero hn with ⟨b, hb⟩
      exact ⟨b, .inl hb⟩
  | exclusive =>
      rcases exists_of_tally_ne_zero (by rw [hw.2]; exact one_ne_zero) with ⟨b, hb⟩
      exact ⟨b, .inr hb⟩

theorem excludes (hw : Accounts w shr exc k) (ha : shr a = some k) : exc b ≠ some k := by
  intro hb
  rcases hw.shared_of_holds ha with ⟨n, hn⟩
  rw [hw.exclusive_of_holds hb] at hn
  exact absurd hn (by simp only [reduceCtorEq, not_false_eq_true])

theorem unique (hw : Accounts w shr exc k) (ha : exc a = some k) (hb : exc b = some k) :
    a = b := by
  rw [hw.exclusive_of_holds ha] at hw
  exact eq_of_tally_one hw.2 ha hb

/-- A change of both ledgers at one party that is not about `k` keeps its
    word. -/
theorem other (hw : Accounts w shr exc k)
    (hs : ∀ b, b ≠ a → shr' b = shr b) (he : ∀ b, b ≠ a → exc' b = exc b)
    (hs0 : shr a ≠ some k) (hs1 : shr' a ≠ some k)
    (he0 : exc a ≠ some k) (he1 : exc' a ≠ some k) : Accounts w shr' exc' k := by
  unfold Accounts at hw ⊢
  rw [tally_other hs hs0 hs1, tally_other he he0 he1]
  exact hw

theorem congr (hw : Accounts w shr exc k) (hs : ∀ b, shr' b = shr b)
    (he : ∀ b, exc' b = exc b) : Accounts w shr' exc' k := by
  rw [funext hs, funext he]
  exact hw

theorem acquireShared (hw : Accounts (.shared n) shr exc k)
    (hs : ∀ b, b ≠ a → shr' b = shr b) (he : ∀ b, exc' b = exc b)
    (h0 : shr a ≠ some k) (h1 : shr' a = some k) : Accounts (.shared (n + 1)) shr' exc' k := by
  rw [funext he]
  refine ⟨?_, hw.2⟩
  rw [tally_acquire hs h0 h1, hw.1, Nat.cast_add, Nat.cast_one]

theorem releaseShared (hw : Accounts (.shared (n + 1)) shr exc k)
    (hs : ∀ b, b ≠ a → shr' b = shr b) (he : ∀ b, exc' b = exc b)
    (h0 : shr a = some k) (h1 : shr' a ≠ some k) : Accounts (.shared n) shr' exc' k := by
  rw [funext he]
  refine ⟨?_, hw.2⟩
  have hstep := tally_release hs h0 h1
  rw [hw.1, Nat.cast_add, Nat.cast_one] at hstep
  exact (ENat.add_left_injective_of_ne_top ENat.one_ne_top hstep).symm

theorem acquireExclusive (hw : Accounts (.shared 0) shr exc k)
    (hs : ∀ b, shr' b = shr b) (he : ∀ b, b ≠ a → exc' b = exc b)
    (h1 : exc' a = some k) : Accounts .exclusive shr' exc' k := by
  rw [funext hs]
  have h0 : exc a ≠ some k := tally_eq_zero.mp hw.2 a
  refine ⟨by rw [hw.1, Nat.cast_zero], ?_⟩
  rw [tally_acquire he h0 h1, hw.2, zero_add]

theorem releaseExclusive (hw : Accounts .exclusive shr exc k)
    (hs : ∀ b, shr' b = shr b) (he : ∀ b, b ≠ a → exc' b = exc b)
    (h0 : exc a = some k) (h1 : exc' a ≠ some k) : Accounts (.shared 0) shr' exc' k := by
  rw [funext hs]
  refine ⟨by rw [hw.1, Nat.cast_zero], tally_eq_zero.mpr (fun b => ?_)⟩
  by_cases hb : b = a
  · rw [hb]
    exact h1
  · rw [he b hb]
    exact fun hc => hb (hw.unique hc h0)

/-- The exclusive holder turns into the only shared one. -/
theorem downgrade (hw : Accounts .exclusive shr exc k)
    (hs : ∀ b, b ≠ a → shr' b = shr b) (he : ∀ b, b ≠ a → exc' b = exc b)
    (h0 : exc a = some k) (h1 : exc' a ≠ some k) (h2 : shr' a = some k) :
    Accounts (.shared 1) shr' exc' k := by
  have hfree : Accounts (.shared 0) shr exc' k :=
    hw.releaseExclusive (fun _ => rfl) he h0 h1
  exact hfree.acquireShared hs (fun _ => rfl) (tally_eq_zero.mp hw.1 a) h2

end Accounts

/-! ### Tables of words

One reader-writer word for every thing, against one pair of ledgers. A step of
one party changes one word. -/

/-- Every word agrees with the ledgers. -/
def Table (w : κ → RwState) (shr exc : α → Option κ) : Prop :=
  ∀ k, Accounts (w k) shr exc k

theorem some_iff_other {j : κ} (hd : ∀ b, b ≠ a → h' b = h b) (h0 : h a ≠ some j)
    (h1 : h' a ≠ some j) (b : α) : h' b = some j ↔ h b = some j := by
  by_cases hb : b = a
  · rw [hb]
    exact ⟨fun hc => absurd hc h1, fun hc => absurd hc h0⟩
  · rw [hd b hb]

theorem eq_of_others (hd : ∀ b, b ≠ a → h' b = h b) (ha : h' a = h a) (b : α) :
    h' b = h b := by
  by_cases hb : b = a
  · rw [hb, ha]
  · exact hd b hb

namespace Table

variable {w w' : κ → RwState} {n : Nat} {shr exc shr' exc' : α → Option κ}

theorem keep (hw : Table w shr exc) (hs : ∀ b, b ≠ a → shr' b = shr b)
    (he : ∀ b, b ≠ a → exc' b = exc b) (hsa : shr' a = shr a) (hea : exc' a = exc a) :
    Table w shr' exc' := by
  rw [funext (eq_of_others hs hsa), funext (eq_of_others he hea)]
  exact hw

/-- The words of the things a move is not about. -/
theorem elsewhere (hw : Table w shr exc) {j : κ} (hs : ∀ b, shr' b = some j ↔ shr b = some j)
    (he : ∀ b, exc' b = some j ↔ exc b = some j) (hj : w' j = w j) :
    Accounts (w' j) shr' exc' j := by
  have hold := hw j
  unfold Accounts at hold ⊢
  rw [hj, tally_congr hs, tally_congr he]
  exact hold

theorem acquireShared (hw : Table w shr exc) (hs : ∀ b, b ≠ a → shr' b = shr b)
    (he : ∀ b, b ≠ a → exc' b = exc b) (hea : exc' a = exc a) (h0 : shr a = none)
    (h1 : shr' a = some k) (hn : w k = .shared n) (hn' : w' k = .shared (n + 1))
    (hother : ∀ j, j ≠ k → w' j = w j) : Table w' shr' exc' := by
  have hexc := eq_of_others he hea
  intro j
  by_cases hj : j = k
  · rw [hj, hn']
    exact (hn ▸ hw k).acquireShared hs hexc (by rw [h0]; exact nofun) h1
  · refine hw.elsewhere (some_iff_other hs (by rw [h0]; exact nofun) ?_)
      (fun b => by rw [hexc b]) (hother j hj)
    rw [h1]
    exact fun hc => hj (Option.some.inj hc).symm

theorem releaseShared (hw : Table w shr exc) (hs : ∀ b, b ≠ a → shr' b = shr b)
    (he : ∀ b, b ≠ a → exc' b = exc b) (hea : exc' a = exc a) (h0 : shr a = some k)
    (h1 : shr' a = none) (hn : w k = .shared (n + 1)) (hn' : w' k = .shared n)
    (hother : ∀ j, j ≠ k → w' j = w j) : Table w' shr' exc' := by
  have hexc := eq_of_others he hea
  intro j
  by_cases hj : j = k
  · rw [hj, hn']
    exact (hn ▸ hw k).releaseShared hs hexc h0 (by rw [h1]; exact nofun)
  · refine hw.elsewhere (some_iff_other hs ?_ (by rw [h1]; exact nofun))
      (fun b => by rw [hexc b]) (hother j hj)
    rw [h0]
    exact fun hc => hj (Option.some.inj hc).symm

theorem acquireExclusive (hw : Table w shr exc) (hs : ∀ b, b ≠ a → shr' b = shr b)
    (he : ∀ b, b ≠ a → exc' b = exc b) (hsa : shr' a = shr a) (h0 : exc a = none)
    (h1 : exc' a = some k) (hn : w k = .shared 0) (hn' : w' k = .exclusive)
    (hother : ∀ j, j ≠ k → w' j = w j) : Table w' shr' exc' := by
  have hshr := eq_of_others hs hsa
  intro j
  by_cases hj : j = k
  · rw [hj, hn']
    exact (hn ▸ hw k).acquireExclusive hshr he h1
  · refine hw.elsewhere (fun b => by rw [hshr b])
      (some_iff_other he (by rw [h0]; exact nofun) ?_) (hother j hj)
    rw [h1]
    exact fun hc => hj (Option.some.inj hc).symm

theorem releaseExclusive (hw : Table w shr exc) (hs : ∀ b, b ≠ a → shr' b = shr b)
    (he : ∀ b, b ≠ a → exc' b = exc b) (hsa : shr' a = shr a) (h0 : exc a = some k)
    (h1 : exc' a = none) (hn' : w' k = .shared 0)
    (hother : ∀ j, j ≠ k → w' j = w j) : Table w' shr' exc' := by
  have hshr := eq_of_others hs hsa
  intro j
  by_cases hj : j = k
  · rw [hj, hn']
    have hold := hw k
    rw [hold.exclusive_of_holds h0] at hold
    exact hold.releaseExclusive hshr he h0 (by rw [h1]; exact nofun)
  · refine hw.elsewhere (fun b => by rw [hshr b])
      (some_iff_other he ?_ (by rw [h1]; exact nofun)) (hother j hj)
    rw [h0]
    exact fun hc => hj (Option.some.inj hc).symm

/-- The exclusive holder of `k` turns into its only shared one. -/
theorem downgrade (hw : Table w shr exc) (hs : ∀ b, b ≠ a → shr' b = shr b)
    (he : ∀ b, b ≠ a → exc' b = exc b) (hs0 : shr a = none) (h0 : exc a = some k)
    (hs1 : shr' a = some k) (h1 : exc' a = none) (hn' : w' k = .shared 1)
    (hother : ∀ j, j ≠ k → w' j = w j) : Table w' shr' exc' := by
  intro j
  by_cases hj : j = k
  · rw [hj, hn']
    have hold := hw k
    rw [hold.exclusive_of_holds h0] at hold
    exact hold.downgrade hs he h0 (by rw [h1]; exact nofun) hs1
  · have hne : ∀ o : Option κ, o = some k → o ≠ some j := by
      intro o ho hc
      rw [ho] at hc
      exact hj (Option.some.inj hc).symm
    exact hw.elsewhere (some_iff_other hs (by rw [hs0]; exact nofun) (hne _ hs1))
      (some_iff_other he (hne _ h0) (by rw [h1]; exact nofun)) (hother j hj)

end Table

/-! ### Sole holders -/

/-- Nothing has two holders. -/
def Sole (h : α → Option κ) : Prop :=
  ∀ a b k, h a = some k → h b = some k → a = b

namespace Sole

theorem keep (hs : Sole h) (hd : ∀ b, b ≠ a → h' b = h b) (ha : h' a = h a) : Sole h' := by
  rw [funext (eq_of_others hd ha)]
  exact hs

theorem release (hs : Sole h) (hd : ∀ b, b ≠ a → h' b = h b) (ha : h' a = none) : Sole h' := by
  intro b c j hb hc
  have hne : ∀ b, h' b = some j → b ≠ a := by
    intro b hb hba
    rw [hba, ha] at hb
    exact absurd hb nofun
  rw [hd b (hne b hb)] at hb
  rw [hd c (hne c hc)] at hc
  exact hs b c j hb hc

theorem acquire (hs : Sole h) (hd : ∀ b, b ≠ a → h' b = h b) (ha : h' a = some k)
    (hfree : ∀ b, h b ≠ some k) : Sole h' := by
  intro b c j hb hc
  by_cases hba : b = a
  · by_cases hca : c = a
    · rw [hba, hca]
    · rw [hba, ha, Option.some.injEq] at hb
      rw [hd c hca, ← hb] at hc
      exact absurd hc (hfree c)
  · by_cases hca : c = a
    · rw [hca, ha, Option.some.injEq] at hc
      rw [hd b hba, ← hc] at hb
      exact absurd hb (hfree b)
    · rw [hd b hba] at hb
      rw [hd c hca] at hc
      exact hs b c j hb hc

end Sole

/-! ### Amounts

Parties that hold quantities instead of things. All but finitely many of them
hold nothing. -/

/-- The amounts recorded in `f` add up to `n`. -/
def Amounts (f : α → Nat) (n : Nat) : Prop :=
  ∃ S : Finset α, (∀ a, a ∉ S → f a = 0) ∧ ∑ a ∈ S, f a = n

namespace Amounts

variable {f f' : α → Nat} {n : Nat}

theorem zero (hf : ∀ a, f a = 0) : Amounts f 0 :=
  ⟨∅, fun a _ => hf a, rfl⟩

/-- Where nobody holds anything, the sum is zero. -/
theorem eq_zero (hs : Amounts f n) (hf : ∀ a, f a = 0) : n = 0 := by
  rcases hs with ⟨S, -, rfl⟩
  exact Finset.sum_eq_zero (fun a _ => hf a)

theorem le (hs : Amounts f n) (a : α) : f a ≤ n := by
  rcases hs with ⟨S, hout, rfl⟩
  by_cases ha : a ∈ S
  · exact Finset.single_le_sum (fun b _ => Nat.zero_le (f b)) ha
  · rw [hout a ha]
    exact Nat.zero_le _

/-- Only the party that moves changes the sum. -/
theorem change (hs : Amounts f n) (hd : ∀ b, b ≠ a → f' b = f b) :
    Amounts f' (n - f a + f' a) := by
  classical
  rcases hs with ⟨S, hout, rfl⟩
  have ha : a ∈ insert a S := Finset.mem_insert_self a S
  have hsum : ∑ b ∈ insert a S, f b = ∑ b ∈ S, f b :=
    Finset.sum_insert_of_eq_zero_if_notMem (hout a)
  have hrest : ∑ b ∈ (insert a S).erase a, f' b = ∑ b ∈ (insert a S).erase a, f b :=
    Finset.sum_congr rfl (fun b hb => hd b (Finset.ne_of_mem_erase hb))
  refine ⟨insert a S, fun b hb => ?_, ?_⟩
  · rw [Finset.mem_insert, not_or] at hb
    rw [hd b hb.1, hout b hb.2]
  · have hold := Finset.add_sum_erase (insert a S) f ha
    have hnew := Finset.add_sum_erase (insert a S) f' ha
    omega

end Amounts

end Ledger
