import TierBuf.Transition

/-!
# Heat

The lazily decayed access heat of a frame.

A frame stores its heat and the epoch of its last access in one word. Nothing
touches the word while epochs pass; the next access shifts the heat right once
for every epoch that has passed since, and adds one.

Run alone this is the same as halving the heat at every epoch, because the
shift by a number of epochs is that many halvings, also past the width of the
word where both are zero.

With several threads it is not. An access reads the epoch once, and its
compare-and-swap may meet a word that another thread has stored at a later
epoch. The difference of the two epochs then wraps around, the shift takes out
all of the heat, and the stored epoch moves backwards. `cas_keeps_iff` says
that this is the only way to go wrong.

## Main definitions

* `packHeatEpoch`, `unpackHeatEpoch`, `decay`: The word and its arithmetic.
* `HeatTracker`: The epoch clock and one frame, run alone.
* `eager`: The model that halves at every epoch.
* `heatSystem`: Any number of threads, one atomic operation a step.

## Theorems

* `unpack_pack`: The word holds both halves.
* `decay_eq`: A shift is that many halvings.
* `lazy_eq_eager`: The tracker returns what the eager model does.
* `cas_keeps_iff`: An access keeps history unless its epoch is stale.
-/

namespace TierBuf

open Function Transition

/-! ### The heat word -/

/-- `HEAT_ONE`. -/
def HEAT_ONE : Nat := 2 ^ 24

/-- `u32::MAX`. -/
def U32_MAX : Nat := 2 ^ 32 - 1

/-- `pack_heat_epoch`. -/
def packHeatEpoch (heat epoch : Nat) : Nat :=
  (epoch <<< 32) ||| heat

/-- `unpack_heat_epoch`. -/
def unpackHeatEpoch (packed : Nat) : Nat × Nat :=
  (packed % 2 ^ 32, (packed >>> 32) % 2 ^ 32)

/-- `u32::wrapping_sub`. -/
def wrappingSub (a b : Nat) : Nat :=
  (a + (2 ^ 32 - b)) % 2 ^ 32

/-- `decay`. -/
def decay (heat elapsed : Nat) : Nat :=
  if 32 ≤ elapsed then 0 else heat >>> elapsed

/-- `decayed.saturating_add(HEAT_ONE)`. -/
def heated (decayed : Nat) : Nat :=
  min (decayed + HEAT_ONE) U32_MAX

/-- The replacement that `on_access` computes from its epoch and the pair it
    has observed. -/
def accessed (epoch : Nat) (observed : Nat × Nat) : Nat × Nat :=
  (heated (decay observed.1 (wrappingSub epoch observed.2)), epoch)

variable {h e : Nat}

theorem unpack_pack (hh : h < 2 ^ 32) (he : e < 2 ^ 32) :
    unpackHeatEpoch (packHeatEpoch h e) = (h, e) := by
  have hsum : packHeatEpoch h e = 2 ^ 32 * e + h := by
    unfold packHeatEpoch
    rw [Nat.shiftLeft_eq, Nat.mul_comm, Nat.two_pow_add_eq_or_of_lt hh]
  unfold unpackHeatEpoch
  rw [hsum, Nat.shiftRight_eq_div_pow, Nat.mul_add_mod, Nat.mod_eq_of_lt hh,
    Nat.mul_add_div (by decide), Nat.div_eq_of_lt hh, Nat.add_zero, Nat.mod_eq_of_lt he]

theorem heated_lt (n : Nat) : heated n < 2 ^ 32 :=
  Nat.lt_of_le_of_lt (Nat.min_le_right _ _) (by decide)

/-- Past the width of the word both sides are zero. -/
theorem decay_eq (hh : h < 2 ^ 32) (n : Nat) : decay h n = h / 2 ^ n := by
  unfold decay
  by_cases hn : 32 ≤ n
  · rw [if_pos hn, Nat.div_eq_of_lt (Nat.lt_of_lt_of_le hh (Nat.pow_le_pow_right (by decide) hn))]
  · rw [if_neg hn, Nat.shiftRight_eq_div_pow]

theorem wrappingSub_of_le {a b : Nat} (hab : b ≤ a) (ha : a < 2 ^ 32) :
    wrappingSub a b = a - b := by
  unfold wrappingSub
  omega

/-- Epochs that have passed are recovered from the wrapped clock. -/
theorem wrappingSub_epoch (he : e < 2 ^ 32) {n : Nat} (hn : n < 2 ^ 32) :
    wrappingSub ((e + n) % 2 ^ 32) e = n := by
  unfold wrappingSub
  omega

/-! ### The tracker, run alone -/

/-- `HeatTracker` and the heat word of one frame. -/
structure HeatTracker where
  epoch : Nat
  heatEpoch : Nat

namespace HeatTracker

variable (t : HeatTracker)

/-- `HeatTracker::on_epoch`. -/
def onEpoch : HeatTracker :=
  { t with epoch := (t.epoch + 1) % 2 ^ 32 }

/-- `HeatTracker::on_access`, whose compare-and-swap succeeds sooner or later
    with the pair it has observed. -/
def onAccess : HeatTracker × Nat :=
  let replacement := accessed t.epoch (unpackHeatEpoch t.heatEpoch)
  ({ t with heatEpoch := packHeatEpoch replacement.1 replacement.2 }, replacement.1)

/-- `HeatTracker::current_heat_raw`. -/
def currentHeatRaw : Nat :=
  let observed := unpackHeatEpoch t.heatEpoch
  decay observed.1 (wrappingSub t.epoch observed.2)

end HeatTracker

/-- A call on the tracker. -/
inductive HeatOp where
  | onEpoch
  | onAccess
  | currentHeatRaw
  deriving DecidableEq, Repr

/-- The heats that a run of calls returns. -/
def lazyHeats : HeatTracker → List HeatOp → List Nat
  | _, [] => []
  | t, .onEpoch :: ops => lazyHeats t.onEpoch ops
  | t, .onAccess :: ops => t.onAccess.2 :: lazyHeats t.onAccess.1 ops
  | t, .currentHeatRaw :: ops => t.currentHeatRaw :: lazyHeats t ops

/-- The same run where every epoch halves the heat. -/
def eager : Nat → List HeatOp → List Nat
  | _, [] => []
  | heat, .onEpoch :: ops => eager (heat / 2) ops
  | heat, .onAccess :: ops => heated heat :: eager (heated heat) ops
  | heat, .currentHeatRaw :: ops => heat :: eager heat ops

/-- Fewer than `2 ^ 32` epochs separate each access or observation from the
    access before it, of which `n` have already passed. -/
def Spaced : Nat → List HeatOp → Prop
  | _, [] => True
  | n, .onEpoch :: ops => Spaced (n + 1) ops
  | n, .onAccess :: ops => n < 2 ^ 32 ∧ Spaced 0 ops
  | n, .currentHeatRaw :: ops => n < 2 ^ 32 ∧ Spaced n ops

/-- `n` epochs after an access left the pair `(h, e)`. -/
structure HeatTracker.After (t : HeatTracker) (h e n : Nat) : Prop where
  heat_lt : h < 2 ^ 32
  epoch_lt : e < 2 ^ 32
  word : t.heatEpoch = packHeatEpoch h e
  epoch : t.epoch = (e + n) % 2 ^ 32

namespace HeatTracker.After

variable {t : HeatTracker} {n : Nat}

theorem onEpoch (ht : t.After h e n) : t.onEpoch.After h e (n + 1) where
  heat_lt := ht.heat_lt
  epoch_lt := ht.epoch_lt
  word := ht.word
  epoch := by
    change (t.epoch + 1) % 2 ^ 32 = (e + (n + 1)) % 2 ^ 32
    rw [ht.epoch, Nat.mod_add_mod, Nat.add_assoc]

theorem current (ht : t.After h e n) (hn : n < 2 ^ 32) : t.currentHeatRaw = h / 2 ^ n := by
  unfold HeatTracker.currentHeatRaw
  rw [ht.word, unpack_pack ht.heat_lt ht.epoch_lt, ht.epoch]
  dsimp only
  rw [wrappingSub_epoch ht.epoch_lt hn, decay_eq ht.heat_lt]

theorem onAccess (ht : t.After h e n) (hn : n < 2 ^ 32) :
    t.onAccess.2 = heated (h / 2 ^ n) ∧
      t.onAccess.1.After (heated (h / 2 ^ n)) ((e + n) % 2 ^ 32) 0 := by
  have hpair : accessed t.epoch (unpackHeatEpoch t.heatEpoch) =
      (heated (h / 2 ^ n), (e + n) % 2 ^ 32) := by
    unfold accessed
    rw [ht.word, unpack_pack ht.heat_lt ht.epoch_lt, ht.epoch,
      wrappingSub_epoch ht.epoch_lt hn, decay_eq ht.heat_lt]
  unfold HeatTracker.onAccess
  rw [hpair]
  refine ⟨rfl, heated_lt _, Nat.mod_lt _ (by decide), rfl, ?_⟩
  change t.epoch = ((e + n) % 2 ^ 32 + 0) % 2 ^ 32
  rw [ht.epoch, Nat.add_zero, Nat.mod_mod]

end HeatTracker.After

theorem eager_of_after (ops : List HeatOp) {t : HeatTracker} {n : Nat} (ht : t.After h e n)
    (hs : Spaced n ops) : lazyHeats t ops = eager (h / 2 ^ n) ops := by
  induction ops generalizing t h e n with
  | nil => rfl
  | cons op ops ih =>
      cases op with
      | onEpoch =>
          rw [lazyHeats, eager, ih ht.onEpoch hs, Nat.pow_succ, Nat.div_div_eq_div_mul]
      | onAccess =>
          have hnext := ht.onAccess hs.1
          rw [lazyHeats, eager, hnext.1, ih hnext.2 hs.2, Nat.pow_zero, Nat.div_one]
      | currentHeatRaw =>
          rw [lazyHeats, eager, ht.current hs.1, ih ht hs.2]

theorem lazy_eq_eager (heat epoch : Nat) (hh : heat < 2 ^ 32) (he : epoch < 2 ^ 32)
    (ops : List HeatOp) (hs : Spaced 0 ops) :
    lazyHeats ⟨epoch, packHeatEpoch heat epoch⟩ ops = eager heat ops := by
  have hstart : HeatTracker.After ⟨epoch, packHeatEpoch heat epoch⟩ heat epoch 0 :=
    ⟨hh, he, rfl, (Nat.mod_eq_of_lt he).symm⟩
  rw [eager_of_after ops hstart hs, Nat.pow_zero, Nat.div_one]

/-- The clock wraps between two accesses. -/
theorem lazy_eq_eager_wrapping :
    lazyHeats ⟨U32_MAX, packHeatEpoch HEAT_ONE U32_MAX⟩ [.onEpoch, .onAccess, .currentHeatRaw] =
      eager HEAT_ONE [.onEpoch, .onAccess, .currentHeatRaw] :=
  lazy_eq_eager HEAT_ONE U32_MAX (by decide) (by decide) _
    ⟨by decide, by decide, trivial⟩

/-! ### Threads -/

/-- A call that a thread makes. -/
inductive HeatCall where
  | onEpoch
  | onAccess

structure HeatChoice where
  call : HeatCall := .onAccess
  /-- Whether a weak compare-and-swap fails on the expected word. -/
  spurious : Bool := false

/-- A thread between two atomic operations of `on_access`. -/
inductive HeatPc where
  | idle
  | observe (epoch : Nat)
  | swap (epoch : Nat) (observed : Nat × Nat)
  | done (heat : Nat)
  deriving DecidableEq

structure HeatState where
  epoch : Nat
  heatEpoch : Nat
  pcs : Nat → HeatPc

namespace HeatState

/-- The pair stored in the frame. -/
def stored (s : HeatState) : Nat × Nat := unpackHeatEpoch s.heatEpoch

/-- `on_epoch`, or the start of `on_access`. -/
def begin (s : HeatState) (a : Nat) : HeatCall → HeatState
  | .onEpoch => { s with
      epoch := (s.epoch + 1) % 2 ^ 32
      pcs := update s.pcs a .idle }
  | .onAccess => { s with pcs := update s.pcs a (.observe s.epoch) }

/-- One atomic operation of thread `a`. -/
def step (s : HeatState) (a : Nat) (c : HeatChoice) : HeatPc → HeatState
  | .idle | .done _ => s.begin a c.call
  | .observe epoch => { s with pcs := update s.pcs a (.swap epoch s.stored) }
  | .swap epoch observed =>
    if s.heatEpoch = packHeatEpoch observed.1 observed.2 ∧ ¬ c.spurious then
      let replacement := accessed epoch observed
      { s with
        heatEpoch := packHeatEpoch replacement.1 replacement.2
        pcs := update s.pcs a (.done replacement.1) }
    else { s with pcs := update s.pcs a (.swap epoch s.stored) }

def next (s : HeatState) (l : Nat × HeatChoice) : Option HeatState :=
  some (s.step l.1 l.2 (s.pcs l.1))

/-- A new tracker and a frame of the given heat. -/
def initial (heat : Nat) : HeatState :=
  { epoch := 0, heatEpoch := packHeatEpoch heat 0, pcs := fun _ => .idle }

end HeatState

/-- One frame under every schedule of its accesses and of the clock. -/
def heatSystem (heat : Nat) : System HeatState (Nat × HeatChoice) :=
  { init := fun s => s = HeatState.initial heat, next := HeatState.next }

/-- The clock starts at zero, so this bounds the number of epochs. -/
def FewEpochs (s : HeatState) (l : Nat × HeatChoice) : Prop :=
  l.2.call = .onEpoch → s.epoch + 1 < 2 ^ 31

/-- What a step of thread `a` owes to the history of the frame: the stored
    epoch does not move backwards, and a successful access shifts the heat it
    replaces by the epochs that its own epoch is newer, and adds one. -/
structure KeepsHistory (s s' : HeatState) (a : Nat) : Prop where
  epoch_le : s.stored.2 ≤ s'.stored.2
  heat : ∀ heat, s'.pcs a = .done heat →
    s'.stored.1 = heated (s.stored.1 >>> (s'.stored.2 - s.stored.2))

/-- The step is a compare-and-swap of `on_access` that succeeds. -/
def AccessSwaps (s : HeatState) (l : Nat × HeatChoice) (epoch : Nat) (observed : Nat × Nat) : Prop :=
  s.pcs l.1 = .swap epoch observed ∧ s.heatEpoch = packHeatEpoch observed.1 observed.2 ∧
    ¬ l.2.spurious

/-- A compare-and-swap succeeds with an epoch older than the stored one. -/
def StaleSwap (s : HeatState) (l : Nat × HeatChoice) : Prop :=
  ∃ epoch observed, AccessSwaps s l epoch observed ∧ epoch < s.stored.2

/-- What the locals of a thread are bounded by. -/
def HeatPc.Bounded (clock : Nat) : HeatPc → Prop
  | .observe epoch => epoch ≤ clock
  | .swap epoch observed => epoch ≤ clock ∧ observed.1 < 2 ^ 32 ∧ observed.2 ≤ clock
  | _ => True

/-- No epoch is ahead of the clock, and the clock has not wrapped. -/
structure HeatInv (s : HeatState) : Prop where
  clock : s.epoch < 2 ^ 31
  word : ∃ h e, s.heatEpoch = packHeatEpoch h e ∧ h < 2 ^ 32 ∧ e ≤ s.epoch
  bounded : ∀ a, (s.pcs a).Bounded s.epoch

/-- What one step can do: advance the clock, start an access, observe the word
    or swap it. -/
inductive HeatStep (s : HeatState) (a : Nat) (c : HeatChoice) : HeatState → Prop where
  | epoch : (∀ x o, ¬ AccessSwaps s (a, c) x o) → c.call = .onEpoch →
      HeatStep s a c { s with
        epoch := (s.epoch + 1) % 2 ^ 32
        pcs := update s.pcs a .idle }
  | start : (∀ x o, ¬ AccessSwaps s (a, c) x o) →
      HeatStep s a c { s with pcs := update s.pcs a (.observe s.epoch) }
  | observe (epoch : Nat) : (∀ x o, ¬ AccessSwaps s (a, c) x o) →
      (s.pcs a = .observe epoch ∨ ∃ observed, s.pcs a = .swap epoch observed) →
      HeatStep s a c { s with pcs := update s.pcs a (.swap epoch s.stored) }
  | swap (epoch : Nat) (observed : Nat × Nat) : AccessSwaps s (a, c) epoch observed →
      HeatStep s a c { s with
        heatEpoch := packHeatEpoch (accessed epoch observed).1 (accessed epoch observed).2
        pcs := update s.pcs a (.done (accessed epoch observed).1) }

section Step

variable {s s' : HeatState} {a : Nat} {c : HeatChoice}

theorem HeatState.begin_step (hq : ∀ x o, ¬ AccessSwaps s (a, c) x o) :
    HeatStep s a c (s.begin a c.call) := by
  cases hc : c.call with
  | onEpoch => exact .epoch hq hc
  | onAccess => exact .start hq

theorem HeatState.next_step (hs : s.next (a, c) = some s') : HeatStep s a c s' := by
  have hquiet : ∀ pc, s.pcs a = pc → (∀ x o, pc ≠ .swap x o) → ∀ x o, ¬ AccessSwaps s (a, c) x o := by
    intro pc hpc hne x o hswap
    exact hne x o (hpc.symm.trans hswap.1)
  have hstep : s.step a c (s.pcs a) = s' := Option.some.inj hs
  rw [← hstep]
  cases hpc : s.pcs a with
  | idle => exact HeatState.begin_step (hquiet _ hpc (fun _ _ => nofun))
  | done heat => exact HeatState.begin_step (hquiet _ hpc (fun _ _ => nofun))
  | observe epoch => exact .observe epoch (hquiet _ hpc (fun _ _ => nofun)) (.inl hpc)
  | swap epoch observed =>
      rw [HeatState.step]
      split
      · rename_i hcas
        exact .swap epoch observed ⟨hpc, hcas⟩
      · rename_i hfail
        refine .observe epoch (fun x o hswap => hfail ?_) (.inr ⟨observed, hpc⟩)
        rcases HeatPc.swap.inj (hpc.symm.trans hswap.1) with ⟨rfl, rfl⟩
        exact hswap.2

theorem HeatInv.stored_eq (hi : HeatInv s) (hw : s.heatEpoch = packHeatEpoch h e)
    (hh : h < 2 ^ 32) (he : e ≤ s.epoch) : s.stored = (h, e) := by
  have hclock := hi.clock
  unfold HeatState.stored
  rw [hw, unpack_pack hh (by omega)]

/-- Only the thread that moves changes its bound, and the clock only grows. -/
theorem HeatInv.bounded_update (hi : HeatInv s) {pc : HeatPc} {clock : Nat}
    (hle : s.epoch ≤ clock) (hpc : pc.Bounded clock) (b : Nat) :
    (update s.pcs a pc b).Bounded clock := by
  by_cases hb : b = a
  · rw [hb, update_self]
    exact hpc
  · rw [update_of_ne hb]
    have hold := hi.bounded b
    cases hcase : s.pcs b with
    | idle => trivial
    | done heat => trivial
    | observe epoch =>
        rw [hcase] at hold
        exact Nat.le_trans hold hle
    | swap epoch observed =>
        rw [hcase] at hold
        exact ⟨Nat.le_trans hold.1 hle, hold.2.1, Nat.le_trans hold.2.2 hle⟩

theorem HeatInv.step (hi : HeatInv s) (hfew : FewEpochs s (a, c)) (hs : HeatStep s a c s') :
    HeatInv s' := by
  have hclock := hi.clock
  rcases hi.word with ⟨h, e, hw, hh, he⟩
  cases hs with
  | epoch _ hc =>
      have hlt := hfew hc
      have hmod : (s.epoch + 1) % 2 ^ 32 = s.epoch + 1 := Nat.mod_eq_of_lt (by omega)
      have hle : s.epoch ≤ (s.epoch + 1) % 2 ^ 32 := by omega
      refine ⟨?_, ⟨h, e, hw, hh, Nat.le_trans he hle⟩, hi.bounded_update hle trivial⟩
      rw [hmod]
      exact hlt
  | start _ => exact ⟨hclock, ⟨h, e, hw, hh, he⟩, hi.bounded_update (Nat.le_refl _) (Nat.le_refl _)⟩
  | observe epoch _ hpc =>
      have hle : epoch ≤ s.epoch := by
        have hb := hi.bounded a
        rcases hpc with hpc | ⟨observed, hpc⟩
        · rw [hpc] at hb
          exact hb
        · rw [hpc] at hb
          exact hb.1
      have hst := hi.stored_eq hw hh he
      refine ⟨hclock, ⟨h, e, hw, hh, he⟩, hi.bounded_update (Nat.le_refl _) ⟨hle, ?_, ?_⟩⟩
      · rw [hst]
        exact hh
      · rw [hst]
        exact he
  | swap epoch observed hswap =>
      have hb := hi.bounded a
      rw [hswap.1] at hb
      exact ⟨hclock, ⟨_, _, rfl, heated_lt _, hb.1⟩, hi.bounded_update (Nat.le_refl _) trivial⟩

/-- A successful access keeps history unless its epoch is stale. -/
theorem swap_keeps_iff (hi : HeatInv s) {epoch : Nat} {observed : Nat × Nat}
    (hswap : AccessSwaps s (a, c) epoch observed) :
    KeepsHistory s { s with
      heatEpoch := packHeatEpoch (accessed epoch observed).1 (accessed epoch observed).2
      pcs := update s.pcs a (.done (accessed epoch observed).1) } a ↔ s.stored.2 ≤ epoch := by
  have hclock := hi.clock
  have hb := hi.bounded a
  rw [hswap.1] at hb
  rcases hb with ⟨hle, hh, he⟩
  have hold : s.stored = observed := hi.stored_eq hswap.2.1 hh he
  have hnew : unpackHeatEpoch (packHeatEpoch (accessed epoch observed).1
      (accessed epoch observed).2) = accessed epoch observed :=
    unpack_pack (heated_lt _) (Nat.lt_of_le_of_lt hle (by omega))
  constructor
  · intro hk
    have hepoch := hk.epoch_le
    unfold HeatState.stored at hepoch ⊢
    rw [hnew] at hepoch
    exact hepoch
  · intro hfresh
    refine ⟨?_, fun heat _ => ?_⟩
    · unfold HeatState.stored at hfresh ⊢
      rw [hnew]
      exact hfresh
    · have hstored : HeatState.stored { s with
          heatEpoch := packHeatEpoch (accessed epoch observed).1 (accessed epoch observed).2
          pcs := update s.pcs a (.done (accessed epoch observed).1) } =
          accessed epoch observed := hnew
      rw [hold] at hfresh
      rw [hstored, hold]
      unfold accessed
      dsimp only
      rw [wrappingSub_of_le hfresh (by omega), decay_eq hh, Nat.shiftRight_eq_div_pow]

/-- A step that swaps nothing keeps history. -/
theorem keeps_of_quiet (hw : s'.heatEpoch = s.heatEpoch) (hpc : ∀ heat, s'.pcs a ≠ .done heat) :
    KeepsHistory s s' a := by
  refine ⟨?_, fun heat h => absurd h (hpc heat)⟩
  unfold HeatState.stored
  exact Nat.le_of_eq (by rw [hw])

theorem keeps_iff (hi : HeatInv s) (hs : HeatStep s a c s') :
    KeepsHistory s s' a ↔ ¬ StaleSwap s (a, c) := by
  have hquiet : (∀ x o, ¬ AccessSwaps s (a, c) x o) → ¬ StaleSwap s (a, c) := by
    rintro hq ⟨x, o, hswap, -⟩
    exact hq x o hswap
  have hidle : ∀ pc : HeatPc, (∀ heat, pc ≠ .done heat) →
      ∀ heat, update s.pcs a pc a ≠ .done heat := by
    intro pc hne heat
    rw [update_self]
    exact hne heat
  cases hs with
  | epoch hq _ => exact ⟨fun _ => hquiet hq, fun _ => keeps_of_quiet rfl (hidle _ (fun _ => nofun))⟩
  | start hq => exact ⟨fun _ => hquiet hq, fun _ => keeps_of_quiet rfl (hidle _ (fun _ => nofun))⟩
  | observe epoch hq _ =>
      exact ⟨fun _ => hquiet hq, fun _ => keeps_of_quiet rfl (hidle _ (fun _ => nofun))⟩
  | swap epoch observed hswap =>
      rw [swap_keeps_iff hi hswap]
      constructor
      · rintro hle ⟨x, o, hx, hlt⟩
        rcases HeatPc.swap.inj (hswap.1.symm.trans hx.1) with ⟨rfl, rfl⟩
        omega
      · intro hfresh
        by_contra hlt
        exact hfresh ⟨epoch, observed, hswap, Nat.lt_of_not_le hlt⟩

end Step

/-! ### Every schedule -/

theorem heatInv_reachable {heat : Nat} (hh : heat < 2 ^ 32) {s : HeatState}
    (hr : ReachableVia (heatSystem heat) FewEpochs s) : HeatInv s := by
  refine reachableVia_invariant ?_ (fun s l s' _ hi hfew hs => ?_) hr
  · rintro s rfl
    exact ⟨by change 0 < 2 ^ 31; decide, ⟨heat, 0, rfl, hh, Nat.le_refl 0⟩, fun _ => trivial⟩
  · exact hi.step hfew (HeatState.next_step hs)

/-- History is kept exactly by the steps that do not store a stale epoch, so
    by all of a run in which no step does. -/
theorem access_keeps_iff {heat : Nat} (hh : heat < 2 ^ 32) {s s' : HeatState}
    (hr : ReachableVia (heatSystem heat) FewEpochs s) {l : Nat × HeatChoice}
    (hs : s.next l = some s') : KeepsHistory s s' l.1 ↔ ¬ StaleSwap s l :=
  keeps_iff (heatInv_reachable hh hr) (HeatState.next_step hs)

/-- Thread `0` reads the epoch, the clock advances, thread `1` records two
    accesses, and thread `0` observes what they have left. -/
def staleAccess : List (Nat × HeatChoice) :=
  [(0, {}), (1, { call := .onEpoch }), (1, {}), (1, {}), (1, {}), (1, {}), (1, {}), (1, {}),
    (0, {})]

/-- The state after a run of a new tracker and a fresh frame. -/
def heatAfter (ls : List (Nat × HeatChoice)) : HeatState :=
  (exec (heatSystem 0) (HeatState.initial 0) ls).getD (HeatState.initial 0)

/-- The third access wipes the heat of the other two and puts the epoch back. -/
theorem stale_access_wipes :
    exec (heatSystem 0) (HeatState.initial 0) staleAccess = some (heatAfter staleAccess) ∧
      (heatAfter staleAccess).stored = (2 * HEAT_ONE, 1) ∧
      ∃ s', (heatAfter staleAccess).next (0, {}) = some s' ∧ s'.stored = (HEAT_ONE, 0) ∧
        ¬ KeepsHistory (heatAfter staleAccess) s' 0 := by
  have hstored : (heatAfter staleAccess).stored = (2 * HEAT_ONE, 1) := by decide +kernel
  have hnext : ((heatAfter staleAccess).step 0 {} ((heatAfter staleAccess).pcs 0)).stored =
      (HEAT_ONE, 0) := by decide +kernel
  refine ⟨rfl, hstored, _, rfl, hnext, fun hk => ?_⟩
  have hle := hk.epoch_le
  rw [hstored, hnext] at hle
  exact absurd hle (by decide)

/-- The first of the accesses that wait for the clock keeps history. -/
theorem access_keeps_first : ∃ s', (heatAfter (staleAccess.take 4)).next (1, {}) = some s' ∧
    KeepsHistory (heatAfter (staleAccess.take 4)) s' 1 := by
  have hpc : (heatAfter (staleAccess.take 4)).pcs 1 = .swap 1 (0, 0) := by decide +kernel
  have hr : ReachableVia (heatSystem 0) FewEpochs (heatAfter (staleAccess.take 4)) := by
    refine ReachableVia.step (l := (1, {})) (ReachableVia.step (l := (1, {}))
      (ReachableVia.step (l := (1, { call := .onEpoch })) (ReachableVia.step (l := (0, {}))
        (ReachableVia.init rfl) nofun rfl) (fun _ => ?_) rfl) nofun rfl) nofun rfl
    decide
  refine ⟨_, rfl, (access_keeps_iff (by decide) hr rfl).mpr ?_⟩
  rintro ⟨epoch, observed, hswap, hlt⟩
  rcases HeatPc.swap.inj (hpc.symm.trans hswap.1) with ⟨rfl, rfl⟩
  revert hlt
  decide +kernel

end TierBuf
