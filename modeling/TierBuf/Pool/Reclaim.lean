import TierBuf.Pool.Cooler
import TierBuf.Pool.Fallback

/-!
# One Eviction

`evict_ticket`, run alone.

When nobody else moves, a ticket that matches its frame still does under the
reservation and the latch, and the page that was seen in `Cooling` is there to
be unswizzled. So an eviction frees the frame, or finds nothing to do, or has
a page to write that no tier takes. In the last two cases it leaves everything
alone but the budgets, and makes the page hot again.

The functions return `none` where the program would not return: where it waits
for a latch that nobody is going to release, or where an assertion fails.

## Main definitions

* `Answers`: What the policy and the tiers answer during one eviction.
* `Shared.exactCoolingOwner`, `Shared.evictTicket`: The functions.
* `Spared`: What a call that frees no frame leaves alone.
* `Still`: A manager in which nobody else is in an operation.
* `Evicted`: The outcomes of an eviction.

## Theorems

* `writeBack_changes`: What the loop over the tiers changes.
* `evictTicket_spec`: An eviction has one of its outcomes.
-/

namespace TierBuf

open Function Ledger Transition

/-- What the policy and the tiers answer during one eviction: the tier that
    `demotion_target` names, and the outcome of the write of each tier. -/
structure Answers where
  demotionTarget : Option Nat
  write : Nat → Except TierBufError Nat

namespace Shared

variable (cfg : Config) (sh : Shared)

/-! ### One eviction -/

/-- `exact_cooling_owner`. -/
def exactCoolingOwner (t : CoolingTicket) : Option SwipId :=
  if cfg.frameCount ≤ t.frameIndex ∨ cfg.residentAddr t.frameIndex ≠ t.resident then none
  else if sh.pid t.frameIndex ≠ t.pid ∨ sh.generation t.frameIndex ≠ t.generation then none
  else match sh.ownerSwip t.frameIndex with
    | none => none
    | some s =>
      if (sh.swips s).pid ≠ t.pid ∨ (sh.swips s).state ≠ .cooling t.resident then none
      else if sh.pages t.pid = some s then some s else none

/-- `try_resurrect`, whatever comes of it. -/
def resurrect (s : SwipId) (resident : ResidentAddr) : Shared :=
  match (sh.swips s).tryResurrect resident with
  | some cell => sh.setSwip s cell
  | none => sh

/-- `lock_exclusive`. -/
def locked (i : Nat) : Option Shared := (sh.latch i).lockExclusive.map (sh.setLatch i)

/-- The drop of an exclusive latch guard. -/
def unlocked (i : Nat) : Option Shared := (sh.latch i).releaseExclusive.map (sh.setLatch i)

/-- The drop of an eviction reservation. -/
def released (i : Nat) : Option Shared := (releaseEviction (sh.pinControl i)).map (sh.setPin i)

/-- The drop of the latch guard and of the reservation. -/
def backOut (i : Nat) : Option Shared := (sh.unlocked i).bind (fun sh => sh.released i)

/-- `clear_after_eviction`. -/
def clearAfterEviction (i : Nat) : Option Shared :=
  if isEvicting (sh.pinControl i) then (sh.locked i).bind (fun sh => Shared.unlocked { sh with
    pid := update sh.pid i PageId.INVALID
    ownerSwip := update sh.ownerSwip i none
    dirty := update sh.dirty i false } i)
  else none

/-- `push_free`, which is expected to succeed. -/
def requeued (i : Nat) : Option Shared :=
  if cfg.frameCount ≤ i ∨ sh.freeMembership i ∨ cfg.frameCount ≤ sh.free.length then none
  else some { sh with
    freeMembership := update sh.freeMembership i true
    free := sh.free ++ [i] }

/-- `try_consume`, where the tier has a budget and there is enough of it. -/
def charge (index : Nat) : Shared :=
  { sh with budgets := update sh.budgets index ((sh.budgets index).map (fun b => b - PAGE_SIZE)) }

/-- The loop of `evict_ticket` over the tiers, from tier `index` on with
    `n` tiers left. -/
def writeBack (answers : Answers) (p : PageId) (page : Page) :
    Nat → Nat → Option TierBufError → Shared → Shared × Except TierBufError Location
  | 0, _, err, sh =>
    (sh, .error (err.getD (.tierExhausted (cfg.tiers.getLast?.getD "unknown"))))
  | n + 1, index, _, sh =>
    if (sh.budgets index).any (fun available => available < PAGE_SIZE) then
      writeBack answers p page n (index + 1)
        (some (.tierExhausted (cfg.tiers[index]?.getD "unknown"))) sh
    else match answers.write index with
      | .ok offset => ({ sh.charge index with
          slots := update sh.slots ⟨index, offset⟩ (some page)
          writtenBack := update sh.writtenBack p true }, .ok ⟨index, offset⟩)
      | .error e => writeBack answers p page n (index + 1) (some e) (sh.charge index)

/-- `self.directory.insert(..)`, if there is a new location. -/
def publishLocation (p : PageId) : Option Location → Shared
  | some loc => { sh with directory := update sh.directory p (some loc) }
  | none => sh

/-- The `free` of the slot that a page has left. -/
def freeReplaced (old new : Option Location) : Shared :=
  match old with
  | some loc => if some loc ≠ new.or old ∧ new.isSome ∧ loc.tierIndex < cfg.tiers.length then
      sh.freeSlot loc else sh
  | none => sh

/-- `evict_ticket` after the write, if one was needed. -/
def retire (t : CoolingTicket) (s : SwipId) (old new : Option Location) (wasDirty : Bool) :
    Option (Shared × Except TierBufError EvictionOutcome) :=
  let i := t.frameIndex
  let published := sh.publishLocation t.pid new
  let clean := { published with dirty := update published.dirty i false }
  match (clean.swips s).tryUnswizzle t.resident t.pid with
  | some cell =>
    ((Shared.unlocked { clean.setSwip s cell with
        prefetched := update sh.prefetched t.pid none } i).bind
      (fun sh => (sh.clearAfterEviction i).bind
        (fun sh => (sh.released i).bind (fun sh => sh.requeued cfg i)))).map
      (fun sh => (sh.freeReplaced cfg old new, .ok .freed))
  | none =>
    let restored := match new with
      | some loc =>
        let restored := { clean with directory := update clean.directory t.pid (sh.directory t.pid) }
        if sh.directory t.pid = some loc then restored else restored.freeSlot loc
      | none => clean
    ((Shared.resurrect { restored with dirty := update restored.dirty i wasDirty } s
      t.resident).backOut i).map (fun sh => (sh, .ok .stale))

/-- `evict_ticket` under the reservation and the latch. -/
def evictLatched (answers : Answers) (t : CoolingTicket) (s : SwipId) :
    Option (Shared × Except TierBufError EvictionOutcome) :=
  let i := t.frameIndex
  if sh.exactCoolingOwner cfg t = some s then
    let old := sh.directory t.pid
    let wasDirty := sh.dirty i
    if wasDirty ∨ old = none then
      let start := cfg.firstTier answers.demotionTarget
      match sh.writeBack cfg answers t.pid (sh.data i) (cfg.tiers.length - start) start none with
      | (sh, .ok loc) => sh.retire cfg t s old (some loc) wasDirty
      | (sh, .error e) =>
        ((sh.resurrect s t.resident).backOut i).map (fun sh => (sh, .error e))
    else sh.retire cfg t s old none wasDirty
  else
    let sameOccupant := sh.pid i = t.pid ∧ sh.generation i = t.generation ∧ sh.ownerSwip i = some s
    ((if sameOccupant then sh.resurrect s t.resident else sh).backOut i).map
      (fun sh => (sh, .ok .stale))

/-- `evict_ticket`. -/
def evictTicket (answers : Answers) (t : CoolingTicket) :
    Option (Shared × Except TierBufError EvictionOutcome) :=
  match sh.exactCoolingOwner cfg t with
  | none => some (sh, .ok .stale)
  | some s => match tryClaimEviction (sh.pinControl t.frameIndex) with
    | none => some (sh, .ok .busy)
    | some w => ((sh.setPin t.frameIndex w).locked t.frameIndex).bind
        (fun sh => sh.evictLatched cfg answers t s)

end Shared

variable {cfg : Config} {sh sh' sh1 : Shared} {heat : Nat → Nat} {i j : Nat} {t : CoolingTicket}

/-! ### What is left alone -/

/-- What a call that frees no frame leaves alone: everything but the cooling
    queue, the cursor, the budgets, and whether a resident page is hot. -/
structure Spared (sh sh' : Shared) : Prop where
  pid : sh'.pid = sh.pid
  owner : sh'.ownerSwip = sh.ownerSwip
  generation : sh'.generation = sh.generation
  pin : sh'.pinControl = sh.pinControl
  dirty : sh'.dirty = sh.dirty
  directory : sh'.directory = sh.directory
  pages : sh'.pages = sh.pages
  free : sh'.free = sh.free
  member : sh'.freeMembership = sh.freeMembership
  stopping : sh'.stopping = sh.stopping
  slots : sh'.slots = sh.slots
  latch : ∀ i, (sh'.latch i).state = (sh.latch i).state
  cell : ∀ s, (sh'.swips s).pid = (sh.swips s).pid ∧
    (sh'.swips s).state.resident = (sh.swips s).state.resident

namespace Spared

theorem refl : Spared sh sh :=
  ⟨rfl, rfl, rfl, rfl, rfl, rfl, rfl, rfl, rfl, rfl, rfl, fun _ => rfl, fun _ => ⟨rfl, rfl⟩⟩

theorem trans (h : Spared sh sh1) (h' : Spared sh1 sh') : Spared sh sh' where
  pid := h'.pid.trans h.pid
  owner := h'.owner.trans h.owner
  generation := h'.generation.trans h.generation
  pin := h'.pin.trans h.pin
  dirty := h'.dirty.trans h.dirty
  directory := h'.directory.trans h.directory
  pages := h'.pages.trans h.pages
  free := h'.free.trans h.free
  member := h'.member.trans h.member
  stopping := h'.stopping.trans h.stopping
  slots := h'.slots.trans h.slots
  latch := fun i => (h'.latch i).trans (h.latch i)
  cell := fun s => ⟨(h'.cell s).1.trans (h.cell s).1, (h'.cell s).2.trans (h.cell s).2⟩

theorem setSwip {s : SwipId} {cell : SwipInner} (hpid : cell.pid = (sh.swips s).pid)
    (hres : cell.state.resident = (sh.swips s).state.resident) : Spared sh (sh.setSwip s cell) := by
  refine ⟨rfl, rfl, rfl, rfl, rfl, rfl, rfl, rfl, rfl, rfl, rfl, fun _ => rfl, fun s' => ?_⟩
  by_cases hs : s' = s
  · subst hs
    rw [setSwip_self]
    exact ⟨hpid, hres⟩
  · rw [setSwip_of_ne _ hs]
    exact ⟨rfl, rfl⟩

/-- The fields that a call may change. -/
theorem others {q : List CoolingTicket} {n : Nat} {b : Nat → Option Nat} {e : Bool} :
    Spared sh { sh with
      cooling := q, sampleCursor := n, budgets := b, exhaustedFrameRequest := e } :=
  ⟨rfl, rfl, rfl, rfl, rfl, rfl, rfl, rfl, rfl, rfl, rfl, fun _ => rfl, fun _ => ⟨rfl, rfl⟩⟩

theorem pushUnique : Spared sh (sh.pushUnique t) := by
  unfold Shared.pushUnique
  split
  · exact refl
  · exact others

theorem enqueueTicket {p : PageId} : Spared sh (sh.enqueueTicket cfg i p) := by
  unfold Shared.enqueueTicket
  split
  · split
    · exact pushUnique
    · exact refl
  · exact refl

theorem coolCandidate : Spared sh (sh.coolCandidate cfg i) := by
  unfold Shared.coolCandidate
  split
  · exact refl
  · split
    · exact refl
    · rename_i s hs
      split
      · rename_i hhot
        split
        · rename_i cell hcell
          rcases SwipInner.compareExchange_eq_some.mp hcell with ⟨-, rfl⟩
          have hmark : Spared sh (sh.setSwip s
              { sh.swips s with state := .cooling (cfg.residentAddr i) }) :=
            setSwip rfl (by rw [hhot]; rfl)
          exact hmark.trans enqueueTicket
        · exact refl
      · split
        · exact enqueueTicket
        · exact refl

theorem coolCandidates {desired : Nat} {candidates : List Nat} :
    Spared sh (sh.coolCandidates cfg desired candidates) := by
  induction candidates generalizing sh with
  | nil => exact refl
  | cons i candidates ih =>
      unfold Shared.coolCandidates
      split
      · exact refl
      · exact coolCandidate.trans ih

theorem enqueue {forceOne : Bool} : Spared sh (sh.enqueueColdCandidates cfg heat forceOne) := by
  unfold Shared.enqueueColdCandidates
  dsimp only
  split
  · exact refl
  · have hcursor : Spared sh (sh.advanceCursor cfg) := others
    exact hcursor.trans coolCandidates

theorem unpinned (h : Spared sh sh') : sh'.unpinned i = sh.unpinned i := by
  unfold Shared.unpinned
  rw [h.pid, h.pin]

end Spared

/-- Frame `i` is the residence of the page of cell `s`, and the page is
    listed. -/
structure ResidesAt (cfg : Config) (sh : Shared) (i : Nat) (s : SwipId) : Prop where
  owner : sh.ownerSwip i = some s
  pid : (sh.swips s).pid = sh.pid i
  state : (sh.swips s).state.resident = some (cfg.residentAddr i)
  listed : sh.pages (sh.pid i) = some s

/-- A manager that runs, has no free frame, and has no agent in an
    operation. -/
structure Still (cfg : Config) (sh : Shared) : Prop where
  running : sh.stopping = false
  empty : sh.free = []
  member : ∀ i, i < cfg.frameCount → sh.freeMembership i = false
  latch : ∀ i, sh.pinControl i = 0 → (sh.latch i).state = .shared 0
  resident : ∀ i, i < cfg.frameCount → sh.unpinned i = true →
    sh.pinControl i = 0 ∧ ∃ s, ResidesAt cfg sh i s

theorem ResidesAt.kept {s : SwipId} (h : ResidesAt cfg sh i s) (hk : Spared sh sh') :
    ResidesAt cfg sh' i s where
  owner := (congrFun hk.owner i).trans h.owner
  pid := (hk.cell s).1.trans (h.pid.trans (congrFun hk.pid i).symm)
  state := (hk.cell s).2.trans h.state
  listed := by
    rw [hk.pages, hk.pid]
    exact h.listed

theorem Still.kept (h : Still cfg sh) (hk : Spared sh sh') : Still cfg sh' where
  running := hk.stopping.trans h.running
  empty := hk.free.trans h.empty
  member := fun i hi => (congrFun hk.member i).trans (h.member i hi)
  latch := fun i hi => by
    rw [hk.latch i]
    exact h.latch i ((congrFun hk.pin i).symm.trans hi)
  resident := fun i hi hu => by
    rw [hk.unpinned] at hu
    rcases h.resident i hi hu with ⟨hpin, s, hs⟩
    exact ⟨(congrFun hk.pin i).trans hpin, s, hs.kept hk⟩

/-! ### One eviction -/

/-- What `exact_cooling_owner` has compared. -/
structure ExactFor (cfg : Config) (sh : Shared) (t : CoolingTicket) (s : SwipId) : Prop where
  index : t.frameIndex < cfg.frameCount
  resident : cfg.residentAddr t.frameIndex = t.resident
  pid : sh.pid t.frameIndex = t.pid
  generation : sh.generation t.frameIndex = t.generation
  owner : sh.ownerSwip t.frameIndex = some s
  page : (sh.swips s).pid = t.pid
  state : (sh.swips s).state = .cooling t.resident
  listed : sh.pages t.pid = some s

theorem exactCoolingOwner_eq_some {s : SwipId} :
    sh.exactCoolingOwner cfg t = some s ↔ ExactFor cfg sh t s := by
  unfold Shared.exactCoolingOwner
  constructor
  · intro h
    split at h
    · cases h
    · rename_i hframe
      rw [not_or, Nat.not_le, not_not] at hframe
      split at h
      · cases h
      · rename_i hpage
        rw [not_or, not_not, not_not] at hpage
        split at h
        · cases h
        · rename_i s' howner
          split at h
          · cases h
          · rename_i hcell
            rw [not_or, not_not, not_not] at hcell
            split at h
            · rename_i hlisted
              cases h
              exact ⟨hframe.1, hframe.2, hpage.1, hpage.2, howner, hcell.1, hcell.2, hlisted⟩
            · cases h
  · intro h
    have hframe : ¬ (cfg.frameCount ≤ t.frameIndex ∨ cfg.residentAddr t.frameIndex ≠ t.resident) :=
      not_or.mpr ⟨Nat.not_le.mpr h.index, not_not.mpr h.resident⟩
    have hpage : ¬ (sh.pid t.frameIndex ≠ t.pid ∨ sh.generation t.frameIndex ≠ t.generation) :=
      not_or.mpr ⟨not_not.mpr h.pid, not_not.mpr h.generation⟩
    have hcell : ¬ ((sh.swips s).pid ≠ t.pid ∨ (sh.swips s).state ≠ .cooling t.resident) :=
      not_or.mpr ⟨not_not.mpr h.page, not_not.mpr h.state⟩
    rw [if_neg hframe, if_neg hpage, h.owner]
    dsimp only
    rw [if_neg hcell, if_pos h.listed]

/-- A write-back only changes the budgets if it fails, and no frame and no
    Swip if it does not. -/
theorem writeBack_changes (answers : Answers) (p : PageId) (page : Page) (n index : Nat)
    (err : Option TierBufError) (sh : Shared) :
    let r := sh.writeBack cfg answers p page n index err
    (∃ budgets e, r = ({ sh with budgets := budgets }, .error e)) ∨
      ∃ budgets slots written loc, r = ({ sh with
        budgets := budgets, slots := slots, writtenBack := written }, .ok loc) := by
  induction n generalizing index err sh with
  | zero => exact Or.inl ⟨sh.budgets, _, rfl⟩
  | succ n ih =>
      unfold Shared.writeBack
      dsimp only
      split
      · exact ih (index + 1) _ sh
      · split
        · exact Or.inr ⟨_, _, _, _, rfl⟩
        · rename_i e _
          -- the budget of this tier is spent whatever the others do
          rcases ih (index + 1) (some e) (sh.charge index) with
            ⟨budgets, e', hr⟩ | ⟨budgets, slots, written, loc, hr⟩
          · exact Or.inl ⟨budgets, e', hr⟩
          · exact Or.inr ⟨budgets, slots, written, loc, hr⟩

theorem unlocked_eq (h : (sh.latch i).state = .exclusive) : sh.unlocked i =
    some (sh.setLatch i { version := ((sh.latch i).version + 1) % 2 ^ 48, state := .shared 0 }) := by
  unfold Shared.unlocked
  rw [HybridLatch.releaseExclusive_of_exclusive h, Option.map_some]

theorem locked_eq (h : (sh.latch i).state = .shared 0) : sh.locked i =
    some (sh.setLatch i { sh.latch i with state := .exclusive }) := by
  unfold Shared.locked HybridLatch.lockExclusive
  rw [h]
  rfl

theorem released_eq (h : sh.pinControl i = EVICTING) : sh.released i = some (sh.setPin i 0) := by
  unfold Shared.released releaseEviction
  rw [if_pos h, Option.map_some]

@[simp] theorem setLatch_state {l : HybridLatch} : (sh.setLatch i l).latch i = l :=
  update_self _ _ _

@[simp] theorem setPin_self {w : Nat} : (sh.setPin i w).pinControl i = w :=
  update_self _ _ _

theorem clearAfterEviction_spec (hpin : sh.pinControl i = EVICTING)
    (hlatch : (sh.latch i).state = .shared 0) : ∃ sh', sh.clearAfterEviction i = some sh' ∧
    sh'.free = sh.free ∧ sh'.freeMembership = sh.freeMembership ∧
    sh'.pinControl = sh.pinControl := by
  have hevict : isEvicting (sh.pinControl i) = true := by
    rw [hpin]
    rfl
  unfold Shared.clearAfterEviction
  rw [if_pos hevict, locked_eq hlatch, Option.bind_some, unlocked_eq (by rw [setLatch_state])]
  exact ⟨_, rfl, rfl, rfl, rfl⟩

/-- The frame of a retired page is in the queue. -/
structure Requeued (sh : Shared) (i : Nat) : Prop where
  free : sh.free = [i]
  member : sh.freeMembership i = true
  pin : sh.pinControl i = 0

/-- The end of an eviction, from the drop of the latch on. -/
theorem freeing_spec (hi : i < cfg.frameCount) (hpin : sh.pinControl i = EVICTING)
    (hlatch : (sh.latch i).state = .exclusive) (hfree : sh.free = [])
    (hmember : sh.freeMembership i = false) :
    ∃ sh', ((sh.unlocked i).bind (fun sh => (sh.clearAfterEviction i).bind
      (fun sh => (sh.released i).bind (fun sh => sh.requeued cfg i)))) = some sh' ∧
      Requeued sh' i := by
  rw [unlocked_eq hlatch, Option.bind_some]
  generalize hsh1 : sh.setLatch i _ = sh1
  have hpin1 : sh1.pinControl i = EVICTING := by
    rw [← hsh1]
    exact hpin
  have hlatch1 : (sh1.latch i).state = .shared 0 := by
    rw [← hsh1, setLatch_state]
  rcases clearAfterEviction_spec hpin1 hlatch1 with ⟨sh2, hclear, hfree2, hmember2, hpin2⟩
  rw [hclear, Option.bind_some, released_eq (by rw [hpin2, hpin1]), Option.bind_some]
  have hroom : ¬ (cfg.frameCount ≤ i ∨ (sh2.setPin i 0).freeMembership i = true ∨
      cfg.frameCount ≤ (sh2.setPin i 0).free.length) := by
    have hm : (sh2.setPin i 0).freeMembership i = false := by
      change sh2.freeMembership i = false
      rw [hmember2, ← hsh1]
      exact hmember
    have hf : (sh2.setPin i 0).free = [] := by
      change sh2.free = []
      rw [hfree2, ← hsh1]
      exact hfree
    rw [hm, hf, List.length_nil]
    simp only [Bool.false_eq_true, false_or, not_or, Nat.not_le]
    exact ⟨hi, cfg.frames_pos⟩
  refine ⟨_, if_neg hroom, ?_, update_self _ _ _, setPin_self⟩
  change sh2.free ++ [i] = [i]
  rw [hfree2, ← hsh1]
  change sh.free ++ [i] = [i]
  rw [hfree, List.nil_append]

theorem freeReplaced_requeued {old new : Option Location} (h : Requeued sh i) :
    Requeued (sh.freeReplaced cfg old new) i := by
  unfold Shared.freeReplaced
  split
  · split
    · exact ⟨h.free, h.member, h.pin⟩
    · exact h
  · exact h

theorem publishLocation_eq (sh : Shared) (p : PageId) (new : Option Location) :
    ∃ directory, sh.publishLocation p new = { sh with directory := directory } := by
  cases new with
  | none => exact ⟨sh.directory, rfl⟩
  | some loc => exact ⟨_, rfl⟩

/-- An agent that has the reservation and the latch of a page in `Cooling`
    frees the frame. -/
theorem retire_requeues (sh : Shared) {s : SwipId} (old new : Option Location) (wasDirty : Bool)
    (hstate : (sh.swips s).state = .cooling t.resident) (hi : t.frameIndex < cfg.frameCount)
    (hpin : sh.pinControl t.frameIndex = EVICTING)
    (hlatch : (sh.latch t.frameIndex).state = .exclusive) (hfree : sh.free = [])
    (hmember : sh.freeMembership t.frameIndex = false) :
    ∃ sh', sh.retire cfg t s old new wasDirty = some (sh', .ok .freed) ∧
      Requeued sh' t.frameIndex := by
  rcases publishLocation_eq sh t.pid new with ⟨directory, hpublished⟩
  have hcell : (sh.swips s).tryUnswizzle t.resident t.pid =
      some { sh.swips s with state := .evicted t.pid } :=
    SwipInner.compareExchange_eq_some.mpr ⟨hstate, rfl⟩
  unfold Shared.retire
  dsimp only
  rw [hpublished]
  dsimp only
  rw [hcell]
  dsimp only
  generalize hsh1 : ({ Shared.setSwip _ s _ with
    prefetched := update sh.prefetched t.pid none } : Shared) = sh1
  have hpin1 : sh1.pinControl t.frameIndex = EVICTING := by
    rw [← hsh1]
    exact hpin
  have hlatch1 : (sh1.latch t.frameIndex).state = .exclusive := by
    rw [← hsh1]
    exact hlatch
  have hfree1 : sh1.free = [] := by
    rw [← hsh1]
    exact hfree
  have hmember1 : sh1.freeMembership t.frameIndex = false := by
    rw [← hsh1]
    exact hmember
  rcases freeing_spec hi hpin1 hlatch1 hfree1 hmember1 with ⟨sh2, hsh2, hrequeued⟩
  rw [hsh2, Option.map_some]
  exact ⟨_, rfl, freeReplaced_requeued hrequeued⟩

/-- The outcomes of an eviction in a manager where nobody else moves. -/
inductive Evicted (cfg : Config) (sh : Shared) (t : CoolingTicket) :
    Shared → Except TierBufError EvictionOutcome → Prop where
  | freed {sh' : Shared} (h : Requeued sh' t.frameIndex) : Evicted cfg sh t sh' (.ok .freed)
  | stale (h : sh.exactCoolingOwner cfg t = none) : Evicted cfg sh t sh (.ok .stale)
  | busy (h : sh.pinControl t.frameIndex ≠ 0) : Evicted cfg sh t sh (.ok .busy)
  | failed {sh' : Shared} {s : SwipId} {e : TierBufError} (h : ExactFor cfg sh t s)
      (hwrite : sh.dirty t.frameIndex = true ∨ sh.directory t.pid = none) (hkept : Spared sh sh')
      (hothers : ∀ w, w ≠ s → sh'.swips w = sh.swips w) (hqueue : sh'.cooling = sh.cooling)
      (hcursor : sh'.sampleCursor = sh.sampleCursor) : Evicted cfg sh t sh' (.error e)

/-- A page that no tier has taken is made hot again, and its frame is given
    back. -/
theorem backOut_spec {s : SwipId} (budgets : Nat → Option Nat)
    (hpin : sh.pinControl i = 0) (hlatch : (sh.latch i).state = .shared 0)
    (hstate : (sh.swips s).state = .cooling t.resident)
    (hsh1 : sh1 = (sh.setPin i EVICTING).setLatch i { sh.latch i with state := .exclusive }) :
    ∃ sh', (Shared.resurrect { sh1 with budgets := budgets } s t.resident).backOut i = some sh' ∧
      Spared sh sh' ∧ (∀ w, w ≠ s → sh'.swips w = sh.swips w) ∧ sh'.cooling = sh.cooling ∧
      sh'.sampleCursor = sh.sampleCursor := by
  subst hsh1
  have hcell : (sh.swips s).tryResurrect t.resident =
      some { sh.swips s with state := .hot t.resident } :=
    SwipInner.compareExchange_eq_some.mpr ⟨hstate, rfl⟩
  unfold Shared.resurrect
  dsimp only [Shared.setLatch, Shared.setPin]
  rw [hcell]
  dsimp only
  generalize hsh2 : Shared.setSwip _ s _ = sh2
  have hpin2 : sh2.pinControl = update sh.pinControl i EVICTING := by
    rw [← hsh2]
    rfl
  have hlatch2 : sh2.latch = update sh.latch i { sh.latch i with state := .exclusive } := by
    rw [← hsh2]
    rfl
  have hswips2 : sh2.swips = update sh.swips s { sh.swips s with state := .hot t.resident } := by
    rw [← hsh2]
    rfl
  have hunlock := unlocked_eq (i := i) (show (sh2.latch i).state = .exclusive by
    rw [hlatch2, update_self])
  unfold Shared.backOut
  rw [hunlock, Option.bind_some, released_eq (by
    change sh2.pinControl i = EVICTING
    rw [hpin2, update_self])]
  refine ⟨_, rfl, ?_, fun w hw => ?_, ?_, ?_⟩
  · refine ⟨?_, ?_, ?_, ?_, ?_, ?_, ?_, ?_, ?_, ?_, ?_, fun k => ?_, fun w => ?_⟩
    · subst hsh2; rfl
    · subst hsh2; rfl
    · subst hsh2; rfl
    · change update sh2.pinControl i 0 = sh.pinControl
      rw [hpin2, update_idem, ← hpin, update_eq_self]
    · subst hsh2; rfl
    · subst hsh2; rfl
    · subst hsh2; rfl
    · subst hsh2; rfl
    · subst hsh2; rfl
    · subst hsh2; rfl
    · subst hsh2; rfl
    · change (update sh2.latch i _ k).state = (sh.latch k).state
      by_cases hk : k = i
      · rw [hk, update_self, hlatch]
      · rw [update_of_ne hk, hlatch2, update_of_ne hk]
    · change (sh2.swips w).pid = _ ∧ (sh2.swips w).state.resident = _
      rw [hswips2]
      by_cases hw : w = s
      · rw [hw, update_self, hstate]
        exact ⟨rfl, rfl⟩
      · rw [update_of_ne hw]
        exact ⟨rfl, rfl⟩
  · change sh2.swips w = sh.swips w
    rw [hswips2, update_of_ne hw]
  · subst hsh2; rfl
  · subst hsh2; rfl

/-- The eviction under its reservation and its latch. -/
theorem evictLatched_spec {s : SwipId} (hs : Still cfg sh) (h : ExactFor cfg sh t s)
    (hpin : sh.pinControl t.frameIndex = 0) (answers : Answers)
    (hsh1 : sh1 = (sh.setPin t.frameIndex EVICTING).setLatch t.frameIndex
      { sh.latch t.frameIndex with state := .exclusive }) :
    ∃ sh' r, sh1.evictLatched cfg answers t s = some (sh', r) ∧ Evicted cfg sh t sh' r := by
  have hexact1 : sh1.exactCoolingOwner cfg t = some s := by
    rw [hsh1]
    exact exactCoolingOwner_eq_some.mpr ⟨h.index, h.resident, h.pid, h.generation, h.owner, h.page,
      h.state, h.listed⟩
  have hpin1 : sh1.pinControl t.frameIndex = EVICTING := by
    rw [hsh1]
    exact setPin_self
  have hlatch1 : sh1.latch t.frameIndex = { sh.latch t.frameIndex with state := .exclusive } := by
    rw [hsh1, setLatch_state]
  have hlatched : (sh1.latch t.frameIndex).state = .exclusive := by rw [hlatch1]
  have hstate1 : (sh1.swips s).state = .cooling t.resident := by
    rw [hsh1]
    exact h.state
  have hfree1 : sh1.free = [] := by
    rw [hsh1]
    exact hs.empty
  have hmember1 : sh1.freeMembership t.frameIndex = false := by
    rw [hsh1]
    exact hs.member _ h.index
  unfold Shared.evictLatched
  dsimp only
  rw [if_pos hexact1]
  split
  · rename_i hwrite
    rcases writeBack_changes answers t.pid (sh1.data t.frameIndex)
        (cfg.tiers.length - cfg.firstTier answers.demotionTarget)
        (cfg.firstTier answers.demotionTarget) none sh1 with
      ⟨budgets, e, hr⟩ | ⟨budgets, slots, written, loc, hr⟩
    · rw [hr]
      dsimp only
      rcases backOut_spec budgets hpin (hs.latch _ hpin) h.state hsh1 with
        ⟨sh', hsh', hkept, hothers, hqueue, hcursor⟩
      rw [hsh', Option.map_some]
      refine ⟨sh', _, rfl, Evicted.failed h ?_ hkept hothers hqueue hcursor⟩
      rw [hsh1] at hwrite
      exact hwrite
    · rw [hr]
      dsimp only
      rcases retire_requeues { sh1 with budgets := budgets, slots := slots, writtenBack := written }
        (sh1.directory t.pid) (some loc) (sh1.dirty t.frameIndex) hstate1 h.index hpin1 hlatched
        hfree1 hmember1 with ⟨sh', hsh', hrequeued⟩
      exact ⟨sh', _, hsh', Evicted.freed hrequeued⟩
  · rcases retire_requeues sh1 (sh1.directory t.pid) none (sh1.dirty t.frameIndex) hstate1 h.index
      hpin1 hlatched hfree1 hmember1 with ⟨sh', hsh', hrequeued⟩
    exact ⟨sh', _, hsh', Evicted.freed hrequeued⟩

theorem evictTicket_spec (hs : Still cfg sh) (answers : Answers) (t : CoolingTicket) :
    ∃ sh' r, sh.evictTicket cfg answers t = some (sh', r) ∧ Evicted cfg sh t sh' r := by
  unfold Shared.evictTicket
  cases hexact : sh.exactCoolingOwner cfg t with
  | none => exact ⟨sh, _, rfl, Evicted.stale hexact⟩
  | some s =>
      have h := exactCoolingOwner_eq_some.mp hexact
      dsimp only
      by_cases hpin : sh.pinControl t.frameIndex = 0
      · have hclaim : tryClaimEviction (sh.pinControl t.frameIndex) = some EVICTING := if_pos hpin
        have hlatch : ((sh.setPin t.frameIndex EVICTING).latch t.frameIndex).state = .shared 0 :=
          hs.latch _ hpin
        rw [hclaim]
        dsimp only
        rw [locked_eq hlatch, Option.bind_some]
        generalize hsh1 : (sh.setPin t.frameIndex EVICTING).setLatch t.frameIndex _ = sh1
        exact evictLatched_spec hs h hpin answers hsh1.symm
      · have hclaim : tryClaimEviction (sh.pinControl t.frameIndex) = none := if_neg hpin
        rw [hclaim]
        exact ⟨sh, _, rfl, Evicted.busy hpin⟩

end TierBuf
