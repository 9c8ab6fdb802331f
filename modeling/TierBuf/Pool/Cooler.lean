import TierBuf.Pool.Residency
import TierBuf.Policy.Heat

/-!
# The Cooler

`enqueue_cold_candidates`, run alone.

The cooler samples a window of frames, sorts the unpinned ones by their stored
heat, and marks them in this order until the cooling queue is long enough. The
stored heat is that of the last access. Nothing shifts it while epochs pass,
so a frame that has not been touched for a long time still sorts by how hot it
was then, while the placement policy looks at the decayed heat.

Heat is no part of `Shared`, where candidates are taken in any order. Here the
heat words of the frames are a parameter, and `cooler_alone` shows that the
function is what one agent of the pool does when no other moves and it takes
the candidates in this order.

## Main definitions

* `storedHeat`, `currentHeat`: The two heats of a frame.
* `Shared.sampled`, `Shared.coldest`: The candidates, as sampled and sorted.
* `Shared.enqueueColdCandidates`: The function.
* `Shared.Reached`: A candidate comes before the queue is long enough.
* `Shared.Misranked`: The queue gets long enough between two candidates that
  the stored heat has in the wrong order.
* `Alone`: What one agent does when no other moves.

## Theorems

* `marks_iff`: The call marks the hot candidates that are reached.
* `cools_by_heat_iff`: The coldest are marked if and only if no pair is
  misranked.
* `cooler_alone`: The function is a run of one agent.
-/

namespace TierBuf

open Function Ledger Transition

variable {cfg : Config} {sh : Shared} {heat : Nat → Nat} {i j : Nat}

/-! ### Heat -/

/-- The first half of `heat_and_epoch`: the heat after the last access. -/
def storedHeat (word : Nat) : Nat := (unpackHeatEpoch word).1

/-- `current_heat_raw` of a frame with this heat word. -/
def currentHeat (epoch word : Nat) : Nat := (HeatTracker.mk epoch word).currentHeatRaw

/-- The order of `sort_unstable_by_key(|&(heat, index)| (heat, index))`. -/
def sortsBefore (heat : Nat → Nat) (i j : Nat) : Prop :=
  storedHeat (heat i) < storedHeat (heat j) ∨ storedHeat (heat i) = storedHeat (heat j) ∧ i ≤ j

instance (heat : Nat → Nat) : DecidableRel (sortsBefore heat) :=
  fun _ _ => inferInstanceAs (Decidable (_ ∨ _))

instance (heat : Nat → Nat) : Std.Total (sortsBefore heat) :=
  ⟨fun i j => by unfold sortsBefore; omega⟩

instance (heat : Nat → Nat) : IsTrans Nat (sortsBefore heat) :=
  ⟨fun i j k => by unfold sortsBefore; omega⟩

theorem sortsBefore_antisymm (h : sortsBefore heat i j) (h' : sortsBefore heat j i) : i = j := by
  unfold sortsBefore at h h'
  omega

/-! ### The function -/

/-- The frames of the window at a position of the sample cursor. -/
def Config.window (cfg : Config) (cursor : Nat) : List Nat :=
  (List.range (min cfg.frameCount MAX_COOLING_SAMPLE)).map
    (fun offset => (cursor % cfg.frameCount + offset) % cfg.frameCount)

namespace Shared

variable (cfg sh) (heat : Nat → Nat) (i : Nat)

/-- The filter of the sample: the frame has a page, no pin and no
    reservation. -/
def unpinned : Bool :=
  PageId.isValid (sh.pid i) && pinCount (sh.pinControl i) = 0 && !isEvicting (sh.pinControl i)

/-- The sampled frames that pass the filter. -/
def sampled : List Nat := (cfg.window sh.sampleCursor).filter sh.unpinned

/-- `candidates`, sorted. -/
def coldest : List Nat := (sh.sampled cfg).insertionSort (sortsBefore heat)

/-- The ticket that `enqueue_ticket` makes for a frame. -/
def ticketOf : CoolingTicket := ⟨i, sh.pid i, sh.generation i, cfg.residentAddr i⟩

/-- `enqueue_ticket`. -/
def enqueueTicket (p : PageId) : Shared :=
  match sh.ownerSwip i with
  | some s => if sh.pid i = p ∧ (sh.swips s).state = .cooling (cfg.residentAddr i) then
      sh.pushUnique ⟨i, p, sh.generation i, cfg.residentAddr i⟩ else sh
  | none => sh

/-- The loop body of `enqueue_cold_candidates`. -/
def coolCandidate : Shared :=
  if pinCount (sh.pinControl i) ≠ 0 ∨ isEvicting (sh.pinControl i) then sh
  else match sh.ownerSwip i with
    | none => sh
    | some s =>
      if (sh.swips s).state = .hot (cfg.residentAddr i) then
        match (sh.swips s).tryMarkCooling (cfg.residentAddr i) with
        | some cell => (sh.setSwip s cell).enqueueTicket cfg i (sh.pid i)
        | none => sh
      else if (sh.swips s).state = .cooling (cfg.residentAddr i) then
        sh.enqueueTicket cfg i (sh.pid i)
      else sh

/-- The loop of `enqueue_cold_candidates`. -/
def coolCandidates (desired : Nat) : Shared → List Nat → Shared
  | sh, [] => sh
  | sh, i :: candidates =>
    if desired ≤ sh.cooling.length then sh
    else coolCandidates desired (sh.coolCandidate cfg i) candidates

/-- `desired`: how long the queue is to get. -/
def desired (forceOne : Bool) : Nat :=
  if forceOne then max (sh.cooling.length + 1) cfg.coolingTarget else cfg.coolingTarget

/-- The `fetch_add` on the sample cursor. -/
def advanceCursor : Shared :=
  { sh with sampleCursor :=
      (sh.sampleCursor + min cfg.frameCount MAX_COOLING_SAMPLE) % 2 ^ 64 }

/-- `enqueue_cold_candidates`. -/
def enqueueColdCandidates (forceOne : Bool) : Shared :=
  let desired := sh.desired cfg forceOne
  if desired = 0 ∨ desired ≤ sh.cooling.length then sh
  else coolCandidates cfg desired (sh.advanceCursor cfg) (sh.coldest cfg heat)

/-- The owner of frame `i` is hot there. -/
def HotAt : Prop :=
  ∃ s, sh.ownerSwip i = some s ∧ (sh.swips s).state = .hot (cfg.residentAddr i)

/-- The owner of frame `i` is cooling there. -/
def CoolingAt : Prop :=
  ∃ s, sh.ownerSwip i = some s ∧ (sh.swips s).state = .cooling (cfg.residentAddr i)

instance (o : Option SwipId) (P : SwipId → Prop) [DecidablePred P] :
    Decidable (∃ s, o = some s ∧ P s) :=
  match o with
  | none => isFalse (by rintro ⟨s, h, -⟩; cases h)
  | some s => decidable_of_iff (P s) (by simp only [Option.some.injEq, exists_eq_left'])

instance : Decidable (sh.HotAt cfg i) := inferInstanceAs (Decidable (∃ _, _ ∧ _))

instance : Decidable (sh.CoolingAt cfg i) := inferInstanceAs (Decidable (∃ _, _ ∧ _))

/-- The frame gets a ticket that the queue does not have yet. -/
def Adds : Prop :=
  (sh.HotAt cfg i ∨ sh.CoolingAt cfg i) ∧ sh.ticketOf cfg i ∉ sh.cooling

instance : Decidable (sh.Adds cfg i) := inferInstanceAs (Decidable (_ ∧ _))

/-- With the tickets of the candidates that sort before frame `i` the queue is
    still too short. -/
def Reached (forceOne : Bool) : Prop :=
  sh.cooling.length + (sh.sampled cfg).countP
    (fun j => j ≠ i ∧ sortsBefore heat j i ∧ sh.Adds cfg j) < sh.desired cfg forceOne

instance (forceOne : Bool) : Decidable (sh.Reached cfg heat i forceOne) :=
  inferInstanceAs (Decidable (_ < _))

/-- The queue gets long enough after frame `i` and before frame `j`, which by
    now is the colder of the two. -/
structure Misranked (forceOne : Bool) (epoch i j : Nat) : Prop where
  fst : i ∈ sh.sampled cfg ∧ sh.HotAt cfg i
  snd : j ∈ sh.sampled cfg ∧ sh.HotAt cfg j
  stored : sortsBefore heat i j
  quota : sh.Reached cfg heat i forceOne ∧ ¬ sh.Reached cfg heat j forceOne
  current : currentHeat epoch (heat j) < currentHeat epoch (heat i)

end Shared

/-! ### One candidate -/

/-- What one iteration does to the manager. -/
structure CooledAt (cfg : Config) (sh : Shared) (i : Nat) (sh' : Shared) : Prop where
  pid : sh'.pid = sh.pid
  owner : sh'.ownerSwip = sh.ownerSwip
  generation : sh'.generation = sh.generation
  pin : sh'.pinControl = sh.pinControl
  hot : ∀ j, sh'.HotAt cfg j ↔ sh.HotAt cfg j ∧ j ≠ i
  cooling : ∀ j, sh'.CoolingAt cfg j ↔ sh.CoolingAt cfg j ∨ j = i ∧ sh.HotAt cfg i
  queue : sh'.cooling =
    if sh.Adds cfg i then sh.cooling ++ [sh.ticketOf cfg i] else sh.cooling

theorem pushUnique_cooling (t : CoolingTicket) :
    (sh.pushUnique t).cooling = if t ∈ sh.cooling then sh.cooling else sh.cooling ++ [t] := by
  unfold Shared.pushUnique
  split <;> rfl

theorem pushUnique_fields (sh : Shared) (t : CoolingTicket) : (sh.pushUnique t).pid = sh.pid ∧
    (sh.pushUnique t).ownerSwip = sh.ownerSwip ∧ (sh.pushUnique t).generation = sh.generation ∧
    (sh.pushUnique t).pinControl = sh.pinControl ∧ (sh.pushUnique t).swips = sh.swips := by
  unfold Shared.pushUnique
  split <;> exact ⟨rfl, rfl, rfl, rfl, rfl⟩

@[simp] theorem setSwip_self (s : SwipId) (cell : SwipInner) :
    (sh.setSwip s cell).swips s = cell :=
  update_self _ _ _

theorem setSwip_of_ne {s s' : SwipId} (cell : SwipInner) (h : s' ≠ s) :
    (sh.setSwip s cell).swips s' = sh.swips s' :=
  update_of_ne h _ _

/-- A cell is resident in one frame only. -/
theorem resident_ne {cell : SwipInner} (hi : cell.state.resident = some (cfg.residentAddr i))
    (hij : j ≠ i) : cell.state.resident ≠ some (cfg.residentAddr j) := by
  intro hj
  rw [hi, Option.some.injEq] at hj
  exact hij (cfg.residentAddr_inj hj).symm

theorem not_hot_of_cooling (h : sh.CoolingAt cfg i) : ¬ sh.HotAt cfg i := by
  rintro ⟨s, hs, hhot⟩
  rcases h with ⟨s', hs', hcool⟩
  rw [hs, Option.some.injEq] at hs'
  rw [← hs', hhot] at hcool
  cases hcool

/-- The mark on the owner of frame `i` changes no other frame. -/
theorem mark_others {s : SwipId} {cell : SwipInner} (hs : sh.ownerSwip i = some s)
    (hhot : (sh.swips s).state = .hot (cfg.residentAddr i))
    (hcell : (sh.swips s).tryMarkCooling (cfg.residentAddr i) = some cell) :
    (∀ j, (sh.setSwip s cell).HotAt cfg j ↔ sh.HotAt cfg j ∧ j ≠ i) ∧
      ∀ j, (sh.setSwip s cell).CoolingAt cfg j ↔
        sh.CoolingAt cfg j ∨ j = i ∧ sh.HotAt cfg i := by
  rcases SwipInner.compareExchange_eq_some.mp hcell with ⟨-, rfl⟩
  have hresident : (sh.swips s).state.resident = some (cfg.residentAddr i) := by
    rw [hhot]
    rfl
  have hother : ∀ j s', j ≠ i → (sh.swips s').state.resident = some (cfg.residentAddr j) →
      s' ≠ s := by
    rintro j s' hij hs' rfl
    exact resident_ne hresident hij hs'
  have hown : sh.HotAt cfg i := ⟨s, hs, hhot⟩
  constructor
  · intro j
    constructor
    · rintro ⟨s', hs', hstate⟩
      by_cases heq : s' = s
      · subst heq
        rw [setSwip_self] at hstate
        cases hstate
      · rw [setSwip_of_ne _ heq] at hstate
        refine ⟨⟨s', hs', hstate⟩, ?_⟩
        rintro rfl
        exact heq (Option.some.inj (hs'.symm.trans hs))
    · rintro ⟨⟨s', hs', hstate⟩, hij⟩
      have hne : s' ≠ s := hother j s' hij (by rw [hstate]; rfl)
      exact ⟨s', hs', by rw [setSwip_of_ne _ hne]; exact hstate⟩
  · intro j
    constructor
    · rintro ⟨s', hs', hstate⟩
      by_cases heq : s' = s
      · subst heq
        rw [setSwip_self, SwipState.cooling.injEq] at hstate
        exact Or.inr ⟨(cfg.residentAddr_inj hstate).symm, hown⟩
      · rw [setSwip_of_ne _ heq] at hstate
        exact Or.inl ⟨s', hs', hstate⟩
    · rintro (hcool | ⟨rfl, -⟩)
      · have hij : j ≠ i := by
          rintro rfl
          exact not_hot_of_cooling hcool hown
        rcases hcool with ⟨s', hs', hstate⟩
        have hne : s' ≠ s := hother j s' hij (by rw [hstate]; rfl)
        exact ⟨s', hs', by rw [setSwip_of_ne _ hne]; exact hstate⟩
      · exact ⟨s, hs, by rw [setSwip_self]⟩

/-- The push of the ticket of a candidate. -/
theorem CooledAt.push {sh1 : Shared} (hpid : sh1.pid = sh.pid) (howner : sh1.ownerSwip = sh.ownerSwip)
    (hgen : sh1.generation = sh.generation) (hpin : sh1.pinControl = sh.pinControl)
    (hqueue : sh1.cooling = sh.cooling) (hres : sh.HotAt cfg i ∨ sh.CoolingAt cfg i)
    (hhot : ∀ j, sh1.HotAt cfg j ↔ sh.HotAt cfg j ∧ j ≠ i)
    (hcool : ∀ j, sh1.CoolingAt cfg j ↔ sh.CoolingAt cfg j ∨ j = i ∧ sh.HotAt cfg i) :
    CooledAt cfg sh i (sh1.pushUnique (sh.ticketOf cfg i)) := by
  rcases pushUnique_fields sh1 (sh.ticketOf cfg i) with ⟨h1, h2, h3, h4, h5⟩
  refine ⟨h1.trans hpid, h2.trans howner, h3.trans hgen, h4.trans hpin, ?_, ?_, ?_⟩
  · intro j
    rw [← hhot j, Shared.HotAt, Shared.HotAt, h2, h5]
  · intro j
    rw [← hcool j, Shared.CoolingAt, Shared.CoolingAt, h2, h5]
  · rw [pushUnique_cooling, hqueue]
    by_cases hin : sh.ticketOf cfg i ∈ sh.cooling
    · rw [if_pos hin, if_neg (fun h => h.2 hin)]
    · rw [if_neg hin, if_pos ⟨hres, hin⟩]

/-- A resident candidate is marked if it is hot, and gets its ticket. -/
theorem coolCandidate_cooled (hi : sh.unpinned i = true) :
    CooledAt cfg sh i (sh.coolCandidate cfg i) := by
  unfold Shared.unpinned at hi
  simp only [Bool.and_eq_true, decide_eq_true_eq, Bool.not_eq_true'] at hi
  have hfree : ¬ (pinCount (sh.pinControl i) ≠ 0 ∨ isEvicting (sh.pinControl i) = true) := by
    rw [hi.2, hi.1.2]
    simp only [ne_eq, not_true_eq_false, Bool.false_eq_true, or_self, not_false_eq_true]
  have hself : ¬ sh.HotAt cfg i → ¬ sh.CoolingAt cfg i → CooledAt cfg sh i sh := by
    intro hhot hcool
    refine ⟨rfl, rfl, rfl, rfl, fun j => ⟨fun h => ⟨h, ?_⟩, fun h => h.1⟩,
      fun j => ⟨Or.inl, fun h => h.resolve_right (fun h' => hhot h'.2)⟩, ?_⟩
    · rintro rfl
      exact hhot h
    · rw [if_neg (fun h => h.1.elim hhot hcool)]
  unfold Shared.coolCandidate
  rw [if_neg hfree]
  cases hs : sh.ownerSwip i with
  | none =>
      refine hself ?_ ?_
      · rintro ⟨s, hs', -⟩
        rw [hs] at hs'
        cases hs'
      · rintro ⟨s, hs', -⟩
        rw [hs] at hs'
        cases hs'
  | some s =>
      dsimp only
      by_cases hhot : (sh.swips s).state = .hot (cfg.residentAddr i)
      · rw [if_pos hhot]
        have hcell : (sh.swips s).tryMarkCooling (cfg.residentAddr i) =
            some { sh.swips s with state := .cooling (cfg.residentAddr i) } :=
          SwipInner.compareExchange_eq_some.mpr ⟨hhot, rfl⟩
        rcases mark_others hs hhot hcell with ⟨hhots, hcools⟩
        rw [hcell]
        dsimp only
        have hticket : (sh.setSwip s
            { sh.swips s with state := .cooling (cfg.residentAddr i) }).enqueueTicket cfg i
              (sh.pid i) = (sh.setSwip s { sh.swips s with
                state := .cooling (cfg.residentAddr i) }).pushUnique (sh.ticketOf cfg i) := by
          unfold Shared.enqueueTicket
          rw [show (sh.setSwip s _).ownerSwip i = some s from hs]
          dsimp only
          rw [if_pos ⟨rfl, by rw [setSwip_self]⟩]
          rfl
        rw [hticket]
        exact CooledAt.push rfl rfl rfl rfl rfl (Or.inl ⟨s, hs, hhot⟩) hhots hcools
      · rw [if_neg hhot]
        have hnot : ¬ sh.HotAt cfg i := by
          rintro ⟨s', hs', hstate⟩
          rw [hs, Option.some.injEq] at hs'
          exact hhot (hs' ▸ hstate)
        by_cases hcool : (sh.swips s).state = .cooling (cfg.residentAddr i)
        · rw [if_pos hcool]
          have hticket : sh.enqueueTicket cfg i (sh.pid i) =
              sh.pushUnique (sh.ticketOf cfg i) := by
            unfold Shared.enqueueTicket
            rw [hs]
            dsimp only
            rw [if_pos ⟨rfl, hcool⟩]
            rfl
          rw [hticket]
          refine CooledAt.push rfl rfl rfl rfl rfl (Or.inr ⟨s, hs, hcool⟩) ?_ ?_
          · refine fun j => ⟨fun h => ⟨h, ?_⟩, fun h => h.1⟩
            rintro rfl
            exact hnot h
          · exact fun j => ⟨Or.inl, fun h => h.resolve_right (fun h' => hnot h'.2)⟩
        · rw [if_neg hcool]
          refine hself hnot ?_
          rintro ⟨s', hs', hstate⟩
          rw [hs, Option.some.injEq] at hs'
          exact hcool (hs' ▸ hstate)

/-! ### All candidates -/

section Loop

variable {sh' : Shared} {desired : Nat} {candidates : List Nat}

theorem CooledAt.unpinned (h : CooledAt cfg sh i sh') : sh'.unpinned j = sh.unpinned j := by
  unfold Shared.unpinned
  rw [h.pid, h.pin]

theorem CooledAt.ticketOf (h : CooledAt cfg sh i sh') : sh'.ticketOf cfg j = sh.ticketOf cfg j := by
  unfold Shared.ticketOf
  rw [h.pid, h.generation]

/-- The ticket of another frame is neither pushed nor found. -/
theorem CooledAt.adds (h : CooledAt cfg sh i sh') (hij : j ≠ i) :
    sh'.Adds cfg j ↔ sh.Adds cfg j := by
  have hticket : sh'.ticketOf cfg j = sh.ticketOf cfg j := h.ticketOf
  have hqueue : sh.ticketOf cfg j ∈ sh'.cooling ↔ sh.ticketOf cfg j ∈ sh.cooling := by
    rw [h.queue]
    split
    · rw [List.mem_append, List.mem_singleton]
      refine ⟨fun hin => hin.resolve_right (fun heq => ?_), Or.inl⟩
      exact hij (congrArg CoolingTicket.frameIndex heq)
    · exact Iff.rfl
  unfold Shared.Adds
  rw [h.hot j, h.cooling j, hticket, hqueue]
  simp only [hij, ne_eq, not_false_eq_true, and_true, false_and, or_false]

theorem CooledAt.length (h : CooledAt cfg sh i sh') :
    sh'.cooling.length = sh.cooling.length + if sh.Adds cfg i then 1 else 0 := by
  rw [h.queue]
  split
  · rw [List.length_append, List.length_singleton]
  · rw [Nat.add_zero]

/-- Frames that are not candidates stay as they are. -/
theorem coolCandidates_others (hpin : ∀ i ∈ candidates, sh.unpinned i = true)
    (hj : j ∉ candidates) :
    ((sh.coolCandidates cfg desired candidates).HotAt cfg j ↔ sh.HotAt cfg j) ∧
      ((sh.coolCandidates cfg desired candidates).CoolingAt cfg j ↔ sh.CoolingAt cfg j) := by
  induction candidates generalizing sh with
  | nil => exact ⟨Iff.rfl, Iff.rfl⟩
  | cons i candidates ih =>
      rw [List.mem_cons, not_or] at hj
      unfold Shared.coolCandidates
      split
      · exact ⟨Iff.rfl, Iff.rfl⟩
      · have hcooled : CooledAt cfg sh i (sh.coolCandidate cfg i) :=
          coolCandidate_cooled (hpin i List.mem_cons_self)
        have hrest : ∀ k ∈ candidates, (sh.coolCandidate cfg i).unpinned k = true := by
          intro k hk
          rw [hcooled.unpinned]
          exact hpin k (List.mem_cons_of_mem i hk)
        rcases ih hrest hj.2 with ⟨hhot, hcool⟩
        rw [hhot, hcool, hcooled.hot j, hcooled.cooling j]
        simp only [hj.1, ne_eq, not_false_eq_true, and_true, false_and, or_false, and_self]

/-- A ticket stays in the queue. -/
theorem CooledAt.mem (h : CooledAt cfg sh i sh') {t : CoolingTicket} (ht : t ∈ sh.cooling) :
    t ∈ sh'.cooling := by
  rw [h.queue]
  split
  · exact List.mem_append_left _ ht
  · exact ht

theorem CooledAt.ticket (h : CooledAt cfg sh i sh') (hi : sh.HotAt cfg i ∨ sh.CoolingAt cfg i) :
    sh'.CoolingAt cfg i ∧ sh.ticketOf cfg i ∈ sh'.cooling := by
  constructor
  · rw [h.cooling i]
    rcases hi with hi | hi
    · exact Or.inr ⟨rfl, hi⟩
    · exact Or.inl hi
  · by_cases hadds : sh.Adds cfg i
    · rw [h.queue, if_pos hadds]
      exact List.mem_append_right _ (List.mem_singleton.mpr rfl)
    · refine h.mem ?_
      by_contra hnot
      exact hadds ⟨hi, hnot⟩

theorem coolCandidates_mem (hpin : ∀ i ∈ candidates, sh.unpinned i = true) {t : CoolingTicket}
    (ht : t ∈ sh.cooling) : t ∈ (sh.coolCandidates cfg desired candidates).cooling := by
  induction candidates generalizing sh with
  | nil => exact ht
  | cons i candidates ih =>
      unfold Shared.coolCandidates
      split
      · exact ht
      · have hcooled : CooledAt cfg sh i (sh.coolCandidate cfg i) :=
          coolCandidate_cooled (hpin i List.mem_cons_self)
        refine ih (fun k hk => ?_) (hcooled.mem ht)
        rw [hcooled.unpinned]
        exact hpin k (List.mem_cons_of_mem i hk)

/-- A resident candidate is marked and has its ticket if the tickets before it
    leave the queue too short, and stays as it is otherwise. The induction is
    on the candidates before it. -/
theorem coolCandidates_marks (before after : List Nat)
    (hnodup : (before ++ i :: after).Nodup)
    (hpin : ∀ k ∈ before ++ i :: after, sh.unpinned k = true)
    (hi : sh.HotAt cfg i ∨ sh.CoolingAt cfg i) :
    let sh' := sh.coolCandidates cfg desired (before ++ i :: after)
    let reached := sh.cooling.length + before.countP (fun k => sh.Adds cfg k) < desired
    (reached → sh'.CoolingAt cfg i ∧ sh.ticketOf cfg i ∈ sh'.cooling) ∧
      (¬ reached → sh.HotAt cfg i → sh'.HotAt cfg i) := by
  induction before generalizing sh with
  | nil =>
      rw [List.nil_append] at hnodup hpin
      rw [List.countP_nil, Nat.add_zero, List.nil_append]
      unfold Shared.coolCandidates
      split
      · exact ⟨fun h => absurd h (by omega), fun _ h => h⟩
      · have hcooled : CooledAt cfg sh i (sh.coolCandidate cfg i) :=
          coolCandidate_cooled (hpin i List.mem_cons_self)
        have hrest : ∀ k ∈ after, (sh.coolCandidate cfg i).unpinned k = true := by
          intro k hk
          rw [hcooled.unpinned]
          exact hpin k (List.mem_cons_of_mem i hk)
        rcases hcooled.ticket hi with ⟨hcool, hticket⟩
        refine ⟨fun _ => ⟨?_, coolCandidates_mem hrest hticket⟩, fun h => absurd h (by omega)⟩
        exact (coolCandidates_others hrest (List.nodup_cons.mp hnodup).1).2.mpr hcool
  | cons k before ih =>
      rw [List.cons_append] at hnodup hpin
      rcases List.nodup_cons.mp hnodup with ⟨hk, hnodup⟩
      rw [List.cons_append]
      unfold Shared.coolCandidates
      rw [List.countP_cons]
      split
      · exact ⟨fun h => absurd h (by omega), fun _ h => h⟩
      · have hcooled : CooledAt cfg sh k (sh.coolCandidate cfg k) :=
          coolCandidate_cooled (hpin k List.mem_cons_self)
        have hne : ∀ j ∈ before ++ i :: after, j ≠ k := by
          rintro j hj rfl
          exact hk hj
        have hik : i ≠ k := hne i (List.mem_append_right _ List.mem_cons_self)
        have hrest : ∀ j ∈ before ++ i :: after, (sh.coolCandidate cfg k).unpinned j = true := by
          intro j hj
          rw [hcooled.unpinned]
          exact hpin j (List.mem_cons_of_mem k hj)
        have hcount : before.countP (fun j => (sh.coolCandidate cfg k).Adds cfg j) =
            before.countP (fun j => sh.Adds cfg j) := by
          refine List.countP_congr (fun j hj => ?_)
          simp only [decide_eq_true_eq]
          exact hcooled.adds (hne j (List.mem_append_left _ hj))
        have hhot : (sh.coolCandidate cfg k).HotAt cfg i ↔ sh.HotAt cfg i := by
          rw [hcooled.hot i]
          exact and_iff_left hik
        have hi' : (sh.coolCandidate cfg k).HotAt cfg i ∨ (sh.coolCandidate cfg k).CoolingAt cfg i := by
          rw [hhot, hcooled.cooling i]
          exact hi.imp_right Or.inl
        have hnext := ih hnodup hrest hi'
        rw [hcount, hcooled.length, hhot, hcooled.ticketOf] at hnext
        simp only [decide_eq_true_eq]
        have hsum : sh.cooling.length + (if sh.Adds cfg k then 1 else 0) +
            before.countP (fun j => sh.Adds cfg j) = sh.cooling.length +
              (before.countP (fun j => sh.Adds cfg j) + if sh.Adds cfg k then 1 else 0) := by
          omega
        rw [hsum] at hnext
        exact hnext

end Loop

/-! ### The call -/

section Call

variable {forceOne : Bool} {epoch : Nat}

theorem window_nodup (cursor : Nat) : (cfg.window cursor).Nodup := by
  unfold Config.window
  refine List.Nodup.map_on ?_ List.nodup_range
  intro o ho o' ho' heq
  rw [List.mem_range] at ho ho'
  have hmod : o ≡ o' [MOD cfg.frameCount] := Nat.ModEq.add_left_cancel' _ heq
  exact Nat.ModEq.eq_of_lt_of_lt hmod (by omega) (by omega)

theorem sampled_nodup : (sh.sampled cfg).Nodup :=
  (window_nodup _).filter _

theorem coldest_perm (heat : Nat → Nat) : (sh.coldest cfg heat).Perm (sh.sampled cfg) :=
  List.perm_insertionSort _ _

/-- The candidates before frame `i` are those that sort before it. -/
theorem count_before {before after : List Nat}
    (hsplit : sh.coldest cfg heat = before ++ i :: after) (P : Nat → Bool) :
    before.countP P =
      (sh.sampled cfg).countP (fun j => j ≠ i ∧ sortsBefore heat j i ∧ P j = true) := by
  have hsorted : (before ++ i :: after).Pairwise (sortsBefore heat) := by
    rw [← hsplit]
    exact List.pairwise_insertionSort _ _
  have hnodup : (before ++ i :: after).Nodup := by
    rw [← hsplit]
    exact (coldest_perm heat).nodup_iff.mpr sampled_nodup
  rw [List.pairwise_append] at hsorted
  rcases hsorted with ⟨-, hafter, hbefore⟩
  have hnotin : i ∉ before ∧ i ∉ after := by
    rw [List.nodup_append, List.nodup_cons] at hnodup
    exact ⟨fun hin => hnodup.2.2 i hin i List.mem_cons_self rfl, hnodup.2.1.1⟩
  rw [← (coldest_perm heat).countP_eq, hsplit, List.countP_append, List.countP_cons]
  have hfst : before.countP (fun j => j ≠ i ∧ sortsBefore heat j i ∧ P j = true) =
      before.countP P := by
    refine List.countP_congr (fun j hj => ?_)
    have hne : j ≠ i := by
      rintro rfl
      exact hnotin.1 hj
    simp only [decide_eq_true_eq, hne, hbefore j hj i List.mem_cons_self, ne_eq,
      not_false_eq_true, true_and]
  have hsnd : after.countP (fun j => j ≠ i ∧ sortsBefore heat j i ∧ P j = true) = 0 := by
    refine List.countP_eq_zero.mpr (fun j hj => ?_)
    rw [decide_eq_true_eq]
    rintro ⟨hne, hji, -⟩
    exact hne (sortsBefore_antisymm hji ((List.pairwise_cons.mp hafter).1 j hj))
  rw [hfst, hsnd]
  simp only [ne_eq, not_true_eq_false, false_and, decide_false, Bool.false_eq_true, if_false,
    Nat.add_zero]

/-- The call marks a resident candidate that is reached and makes its ticket,
    and leaves the others as they are. -/
theorem call_marks (hi : i ∈ sh.sampled cfg) (hres : sh.HotAt cfg i ∨ sh.CoolingAt cfg i) :
    let sh' := sh.enqueueColdCandidates cfg heat forceOne
    (sh.Reached cfg heat i forceOne → sh'.CoolingAt cfg i ∧ sh.ticketOf cfg i ∈ sh'.cooling) ∧
      (¬ sh.Reached cfg heat i forceOne → sh.HotAt cfg i → sh'.HotAt cfg i) := by
  unfold Shared.enqueueColdCandidates Shared.Reached
  dsimp only
  split
  · exact ⟨fun h => absurd h (by omega), fun _ h => h⟩
  · have hmem : i ∈ sh.coldest cfg heat := (coldest_perm heat).mem_iff.mpr hi
    rcases List.append_of_mem hmem with ⟨before, after, hsplit⟩
    have hnodup : (before ++ i :: after).Nodup := by
      rw [← hsplit]
      exact (coldest_perm heat).nodup_iff.mpr sampled_nodup
    have hpin : ∀ k ∈ before ++ i :: after, (sh.advanceCursor cfg).unpinned k = true := by
      intro k hk
      rw [← hsplit] at hk
      exact (List.mem_filter.mp ((coldest_perm heat).mem_iff.mp hk)).2
    have hcount := count_before hsplit (fun k => decide (sh.Adds cfg k))
    simp only [decide_eq_true_eq] at hcount
    rw [← hcount, hsplit]
    exact coolCandidates_marks before after hnodup hpin hres

/-- The call marks a hot candidate if and only if it is reached. -/
theorem marks_iff (hi : i ∈ sh.sampled cfg) (hhot : sh.HotAt cfg i) :
    (sh.Reached cfg heat i forceOne →
      (sh.enqueueColdCandidates cfg heat forceOne).CoolingAt cfg i) ∧
    (¬ sh.Reached cfg heat i forceOne →
      (sh.enqueueColdCandidates cfg heat forceOne).HotAt cfg i) := by
  rcases call_marks hi (Or.inl hhot) with ⟨hcool, hstay⟩
  exact ⟨fun h => (hcool h).1, fun h => hstay h hhot⟩

/-- What sorts before a frame that is reached is reached. -/
theorem reached_of_sortsBefore (hij : sortsBefore heat i j)
    (hj : sh.Reached cfg heat j forceOne) : sh.Reached cfg heat i forceOne := by
  refine Nat.lt_of_le_of_lt (Nat.add_le_add_left ?_ _) hj
  refine List.countP_mono_left (fun k _ hk => ?_)
  rw [decide_eq_true_eq] at hk ⊢
  refine ⟨?_, IsTrans.trans _ _ _ hk.2.1 hij, hk.2.2⟩
  rintro rfl
  exact hk.1 (sortsBefore_antisymm hk.2.1 hij)

/-- If a frame is not reached then another one before it is, and gets a new
    ticket. -/
theorem reached_before (hshort : sh.cooling.length < sh.desired cfg forceOne)
    (hi : ¬ sh.Reached cfg heat i forceOne) : ∃ j ∈ sh.sampled cfg, j ≠ i ∧ sortsBefore heat j i ∧
      sh.Adds cfg j ∧ sh.Reached cfg heat j forceOne := by
  have hpos : 0 < (sh.sampled cfg).countP
      (fun j => j ≠ i ∧ sortsBefore heat j i ∧ sh.Adds cfg j) := by
    unfold Shared.Reached at hi
    omega
  rcases List.countP_pos_iff.mp hpos with ⟨k, hk, hbefore⟩
  rw [decide_eq_true_eq] at hbefore
  -- the first candidate in the order that gets a new ticket
  have hk' : k ∈ sh.coldest cfg heat := (coldest_perm heat).mem_iff.mpr hk
  have hsome : ((sh.coldest cfg heat).find? (fun j => sh.Adds cfg j)).isSome = true :=
    List.find?_isSome.mpr ⟨k, hk', decide_eq_true hbefore.2.2⟩
  rcases Option.isSome_iff_exists.mp hsome with ⟨j, hj⟩
  rcases List.find?_eq_some_iff_append.mp hj with ⟨hadds, before, after, hsplit, hnone⟩
  rw [decide_eq_true_eq] at hadds
  have hnone' : ∀ k ∈ before, ¬ sh.Adds cfg k := by
    intro k hk
    have hnot := hnone k hk
    rwa [Bool.not_eq_true', decide_eq_false_iff_not] at hnot
  have hmem : j ∈ sh.coldest cfg heat := by
    rw [hsplit]
    exact List.mem_append_right _ List.mem_cons_self
  have hjk : sortsBefore heat j k := by
    have hsorted : (before ++ j :: after).Pairwise (sortsBefore heat) := by
      rw [← hsplit]
      exact List.pairwise_insertionSort _ _
    rw [hsplit] at hk'
    rcases List.mem_append.mp hk' with hin | hin
    · exact absurd hbefore.2.2 (hnone' k hin)
    · rcases List.mem_cons.mp hin with rfl | hin
      · exact Or.inr ⟨rfl, Nat.le_refl _⟩
      · exact (List.pairwise_cons.mp (List.pairwise_append.mp hsorted).2.1).1 k hin
  refine ⟨j, (coldest_perm heat).mem_iff.mp hmem, ?_, IsTrans.trans _ _ _ hjk hbefore.2.1, hadds, ?_⟩
  · rintro rfl
    exact hbefore.1 (sortsBefore_antisymm hbefore.2.1 hjk)
  · have hcount := count_before hsplit (fun k => decide (sh.Adds cfg k))
    have hzero : before.countP (fun k => decide (sh.Adds cfg k)) = 0 := by
      refine List.countP_eq_zero.mpr (fun k hk => ?_)
      rw [decide_eq_true_eq]
      exact hnone' k hk
    simp only [decide_eq_true_eq] at hcount
    rw [hzero] at hcount
    unfold Shared.Reached
    rw [← hcount]
    exact hshort

/-- The call marks the candidates that are coldest now if and only if the
    queue does not get long enough inside a pair that is sorted the wrong
    way. -/
theorem cools_by_heat_iff (cfg : Config) (sh : Shared) (heat : Nat → Nat) (epoch : Nat)
    (forceOne : Bool) :
    (∀ i ∈ sh.sampled cfg, ∀ j ∈ sh.sampled cfg, sh.HotAt cfg i → sh.HotAt cfg j →
      (sh.enqueueColdCandidates cfg heat forceOne).CoolingAt cfg i →
      (sh.enqueueColdCandidates cfg heat forceOne).HotAt cfg j →
      currentHeat epoch (heat i) ≤ currentHeat epoch (heat j)) ↔
    ∀ i j, ¬ sh.Misranked cfg heat forceOne epoch i j := by
  constructor
  · intro hranked i j hmis
    have hcool := (marks_iff hmis.fst.1 hmis.fst.2).1 hmis.quota.1
    have hhot := (marks_iff hmis.snd.1 hmis.snd.2).2 hmis.quota.2
    have hle := hranked i hmis.fst.1 j hmis.snd.1 hmis.fst.2 hmis.snd.2 hcool hhot
    exact absurd hmis.current (Nat.not_lt.mpr hle)
  · intro hnone i hi j hj hhi hhj hcool hhot
    have hri : sh.Reached cfg heat i forceOne := by
      by_contra hnot
      exact not_hot_of_cooling hcool ((marks_iff hi hhi).2 hnot)
    have hrj : ¬ sh.Reached cfg heat j forceOne := by
      intro hr
      exact not_hot_of_cooling ((marks_iff hj hhj).1 hr) hhot
    have hij : sortsBefore heat i j := by
      refine (Std.Total.total i j).resolve_right (fun hji => ?_)
      exact hrj (reached_of_sortsBefore hji hri)
    by_contra hlt
    exact hnone i j ⟨⟨hi, hhi⟩, ⟨hj, hhj⟩, hij, ⟨hri, hrj⟩, Nat.lt_of_not_le hlt⟩

/-- Equal epochs decay alike, so they keep the order. -/
theorem currentHeat_mono {w w' : Nat} (hepoch : (unpackHeatEpoch w).2 = (unpackHeatEpoch w').2)
    (hle : storedHeat w ≤ storedHeat w') : currentHeat epoch w ≤ currentHeat epoch w' := by
  have hlt : ∀ w, storedHeat w < 2 ^ 32 := fun w => Nat.mod_lt _ (by decide)
  have hdecay : ∀ w, currentHeat epoch w =
      storedHeat w / 2 ^ wrappingSub epoch (unpackHeatEpoch w).2 := by
    intro w
    exact decay_eq (hlt w) _
  rw [hdecay, hdecay, hepoch]
  exact Nat.div_le_div_right hle

/-- Frames that have been touched in the same epoch are not misranked. -/
theorem not_misranked_of_epoch
    (hepoch : (unpackHeatEpoch (heat i)).2 = (unpackHeatEpoch (heat j)).2) :
    ¬ sh.Misranked cfg heat forceOne epoch i j := by
  intro hmis
  have hle : storedHeat (heat i) ≤ storedHeat (heat j) := by
    rcases hmis.stored with hlt | ⟨heq, -⟩
    · exact Nat.le_of_lt hlt
    · exact Nat.le_of_eq heq
  exact Nat.not_lt.mpr (currentHeat_mono hepoch hle) hmis.current

/-- The first two agents allocate a page each and drop their guards. -/
def twoPagesIn : List (Agent × Choice) :=
  allocation ++ [(0, { act := .drop }), (0, { act := .drop })] ++ runOf 1 .allocate 28 ++
    [(1, { act := .drop }), (1, { act := .drop })]

/-- The first frame has one access, in epoch ten, and the second frame has two,
    both in epoch zero. -/
def touched : Nat → Nat
  | 0 => packHeatEpoch HEAT_ONE 10
  | _ => packHeatEpoch (2 * HEAT_ONE) 0

/-- The page that has just been touched is marked, and the one that has not
    been touched for ten epochs is left hot. -/
theorem cools_by_heat_fails : ∃ s, Reachable (pool sampleConfig) s ∧
    ¬ ∀ i ∈ s.shared.sampled sampleConfig, ∀ j ∈ s.shared.sampled sampleConfig,
      s.shared.HotAt sampleConfig i → s.shared.HotAt sampleConfig j →
      (s.shared.enqueueColdCandidates sampleConfig touched true).CoolingAt sampleConfig i →
      (s.shared.enqueueColdCandidates sampleConfig touched true).HotAt sampleConfig j →
      currentHeat 10 (touched i) ≤ currentHeat 10 (touched j) := by
  have hrun : (exec (pool sampleConfig) (PoolState.initial sampleConfig (fun _ => none))
      twoPagesIn).map (fun s => decide ((s.shared.sampled sampleConfig = [0, 1] ∧
        s.shared.HotAt sampleConfig 0 ∧ s.shared.HotAt sampleConfig 1) ∧
        (s.shared.enqueueColdCandidates sampleConfig touched true).CoolingAt sampleConfig 0 ∧
        (s.shared.enqueueColdCandidates sampleConfig touched true).HotAt sampleConfig 1)) =
      some true := by decide +kernel
  rcases Option.map_eq_some_iff.mp hrun with ⟨s, hs, hsees⟩
  rw [decide_eq_true_eq] at hsees
  rcases hsees with ⟨⟨hsampled, h0, h1⟩, hcool, hhot⟩
  refine ⟨s, reachable_of_run hs, fun hranked => ?_⟩
  have hle := hranked 0 (by rw [hsampled]; decide) 1 (by rw [hsampled]; decide) h0 h1 hcool hhot
  exact absurd hle (by decide)

end Call

/-! ### One agent of the pool -/

section Alone

variable {c : Choice} {a : Agent} {x y z : Shared × Pc}

/-- What agent `a` does when no other agent moves. -/
def Alone (cfg : Config) (a : Agent) : Shared × Pc → Shared × Pc → Prop :=
  Relation.ReflTransGen (fun x y => ∃ c, x.1.step cfg c a x.2 = some y)

theorem Alone.head (c : Choice) (hxy : x.1.step cfg c a x.2 = some y) (hyz : Alone cfg a y z) :
    Alone cfg a x z :=
  Relation.ReflTransGen.head ⟨c, hxy⟩ hyz

theorem Alone.trans (hxy : Alone cfg a x y) (hyz : Alone cfg a y z) : Alone cfg a x z :=
  Relation.ReflTransGen.trans hxy hyz

theorem Alone.refl : Alone cfg a x x := Relation.ReflTransGen.refl

/-- It is a run of the pool. -/
theorem alone_exec {s : PoolState} (h : Alone cfg a (s.shared, s.pcs a) y) :
    ∃ ls : List (Agent × Choice), (∀ l ∈ ls, l.1 = a) ∧
      exec (pool cfg) s ls = some ⟨y.1, update s.pcs a y.2⟩ := by
  unfold Alone at h
  induction h with
  | refl => exact ⟨[], by rintro l ⟨⟩, by rw [exec, update_eq_self]⟩
  | @tail y z _ hlast ih =>
      rcases ih with ⟨ls, hls, hrun⟩
      rcases hlast with ⟨c, hstep⟩
      refine ⟨ls ++ [(a, c)], ?_, ?_⟩
      · intro l hl
        rcases List.mem_append.mp hl with hl | hl
        · exact hls l hl
        · rw [List.mem_singleton.mp hl]
      · have hnext : (pool cfg).next ⟨y.1, update s.pcs a y.2⟩ (a, c) =
            some ⟨z.1, update s.pcs a z.2⟩ := by
          simp only [pool, PoolState.next, update_self, hstep, Option.map_some, update_idem]
        rw [exec_append _ _ _ _ hrun]
        simp only [exec, hnext]

/-- Whether the call that an agent is in has `force_one` set. -/
def CoolCtx.forceOne : CoolCtx → Bool
  | .acquire _ _ _ => true
  | .background => false

theorem sample_alone (k : CoolCtx) (d : Nat) (indices candidates : List Nat) :
    Alone cfg a (sh, .cool k (.sample d indices candidates))
      (sh, .cool k (.take d (candidates ++ indices.filter sh.unpinned))) := by
  induction indices generalizing candidates with
  | nil =>
      rw [List.filter_nil, List.append_nil]
      exact Alone.head { act := .drop } rfl Alone.refl
  | cons i indices ih =>
      by_cases hvalid : PageId.isValid (sh.pid i) = true
      · refine Alone.head (y := (sh, .cool k (.samplePin d i indices candidates)))
          { act := .drop } (if_pos hvalid) ?_
        by_cases hpin : pinCount (sh.pinControl i) = 0
        · refine Alone.head (y := (sh, .cool k (.sampleEvicting d i indices candidates)))
            { act := .drop } (if_pos hpin) ?_
          by_cases hevict : isEvicting (sh.pinControl i) = true
          · refine Alone.head (y := (sh, .cool k (.sample d indices candidates)))
              { act := .drop } (if_pos hevict) ?_
            rw [List.filter_cons_of_neg (by simp [Shared.unpinned, hevict])]
            exact ih candidates
          · refine Alone.head (y := (sh, .cool k (.sample d indices (candidates ++ [i]))))
              { act := .drop } (if_neg hevict) ?_
            rw [List.filter_cons_of_pos (by simp [Shared.unpinned, hvalid, hpin, hevict])]
            have hrest := ih (candidates ++ [i])
            rwa [List.append_assoc] at hrest
        · refine Alone.head (y := (sh, .cool k (.sample d indices candidates)))
            { act := .drop } (if_neg hpin) ?_
          rw [List.filter_cons_of_neg (by simp [Shared.unpinned, hpin])]
          exact ih candidates
      · refine Alone.head (y := (sh, .cool k (.sample d indices candidates)))
          { act := .drop } (if_neg hvalid) ?_
        rw [List.filter_cons_of_neg (by simp [Shared.unpinned, hvalid])]
        exact ih candidates

/-- `enqueue_ticket` alone. -/
theorem enqueue_alone (k : EnqueueCtx) (i : Nat) (p : PageId) :
    Alone cfg a (sh, .enqueue k i p .pid) (sh.enqueueTicket cfg i p, k.return i) := by
  unfold Shared.enqueueTicket
  by_cases hp : sh.pid i = p
  · refine Alone.head (y := (sh, .enqueue k i p .owner)) { act := .drop } (if_pos hp) ?_
    cases hs : sh.ownerSwip i with
    | none =>
        refine Alone.head { act := .drop } ?_ Alone.refl
        simp only [Shared.step, Shared.stepEnqueue, hs]
    | some s =>
        refine Alone.head (y := (sh, .enqueue k i p (.state s))) { act := .drop }
          (by simp only [Shared.step, Shared.stepEnqueue, hs]) ?_
        dsimp only
        by_cases hcool : (sh.swips s).state = .cooling (cfg.residentAddr i)
        · rw [if_pos ⟨hp, hcool⟩]
          refine Alone.head (y := (sh, .enqueue k i p .generation)) { act := .drop }
            (if_pos hcool) ?_
          exact Alone.head { act := .drop } rfl (Alone.head { act := .drop } rfl Alone.refl)
        · rw [if_neg (fun h => hcool h.2)]
          exact Alone.head { act := .drop } (if_neg hcool) Alone.refl
  · have hself : (match sh.ownerSwip i with
        | some s => if sh.pid i = p ∧ (sh.swips s).state = .cooling (cfg.residentAddr i) then
            sh.pushUnique ⟨i, p, sh.generation i, cfg.residentAddr i⟩ else sh
        | none => sh) = sh := by
      split
      · exact if_neg (fun h => hp h.1)
      · rfl
    rw [hself]
    exact Alone.head { act := .drop } (if_neg hp) Alone.refl

/-- The loop body alone. -/
theorem candidate_alone (k : CoolCtx) (d i : Nat) (candidates : List Nat) :
    Alone cfg a (sh, .cool k (.pin d i candidates))
      (sh.coolCandidate cfg i, .cool k (.take d candidates)) := by
  unfold Shared.coolCandidate
  by_cases hpin : pinCount (sh.pinControl i) = 0
  · refine Alone.head (y := (sh, .cool k (.evicting d i candidates))) { act := .drop }
      (if_neg (not_not.mpr hpin)) ?_
    by_cases hevict : isEvicting (sh.pinControl i) = true
    · rw [if_pos (Or.inr hevict)]
      exact Alone.head { act := .drop } (if_pos hevict) Alone.refl
    · rw [if_neg (fun h => h.elim (fun hne => hne hpin) hevict)]
      refine Alone.head (y := (sh, .cool k (.pid d i candidates))) { act := .drop }
        (if_neg hevict) ?_
      refine Alone.head (y := (sh, .cool k (.owner d i (sh.pid i) candidates))) { act := .drop }
        rfl ?_
      cases hs : sh.ownerSwip i with
      | none =>
          refine Alone.head { act := .drop } ?_ Alone.refl
          simp only [Shared.step, Shared.stepCool, hs]
      | some s =>
          refine Alone.head (y := (sh, .cool k (.load d i (sh.pid i) s candidates)))
            { act := .drop } (by simp only [Shared.step, Shared.stepCool, hs]) ?_
          dsimp only
          by_cases hhot : (sh.swips s).state = .hot (cfg.residentAddr i)
          · rw [if_pos hhot]
            refine Alone.head (y := (sh, .cool k (.mark d i (sh.pid i) s candidates)))
              { act := .drop } (if_pos hhot) ?_
            cases hcell : (sh.swips s).tryMarkCooling (cfg.residentAddr i) with
            | none =>
                refine Alone.head { act := .drop } ?_ Alone.refl
                simp only [Shared.step, Shared.stepCool, hcell]
            | some cell =>
                refine Alone.head (y := (sh.setSwip s cell,
                  .enqueue (.cool k d candidates) i (sh.pid i) .pid)) { act := .drop }
                  (by simp only [Shared.step, Shared.stepCool, hcell]) ?_
                exact enqueue_alone (.cool k d candidates) i (sh.pid i)
          · rw [if_neg hhot]
            by_cases hcool : (sh.swips s).state = .cooling (cfg.residentAddr i)
            · rw [if_pos hcool]
              refine Alone.head (y := (sh, .enqueue (.cool k d candidates) i (sh.pid i) .pid))
                { act := .drop } ?_ (enqueue_alone (.cool k d candidates) i (sh.pid i))
              simp only [Shared.step, Shared.stepCool, if_neg hhot, if_pos hcool]
            · rw [if_neg hcool]
              refine Alone.head { act := .drop } ?_ Alone.refl
              simp only [Shared.step, Shared.stepCool, if_neg hhot, if_neg hcool]
  · rw [if_pos (Or.inl hpin)]
    exact Alone.head { act := .drop } (if_pos hpin) Alone.refl

/-- The loop alone takes its candidates in any order that it likes. -/
theorem candidates_alone (k : CoolCtx) (d : Nat) {candidates order : List Nat}
    (hperm : candidates.Perm order) :
    Alone cfg a (sh, .cool k (.take d candidates))
      (sh.coolCandidates cfg d order, k.return) := by
  induction order generalizing sh candidates with
  | nil =>
      rw [List.perm_nil.mp hperm]
      refine Alone.head { act := .drop } ?_ Alone.refl
      simp only [Shared.step, Shared.stepCool, true_or, if_true, Shared.coolCandidates]
  | cons i order ih =>
      have hmem : i ∈ candidates := hperm.mem_iff.mpr List.mem_cons_self
      have hne : candidates ≠ [] := List.ne_nil_of_mem hmem
      unfold Shared.coolCandidates
      by_cases hlong : d ≤ sh.cooling.length
      · rw [if_pos hlong]
        exact Alone.head { act := .drop } (if_pos (Or.inr hlong)) Alone.refl
      · rw [if_neg hlong]
        rcases List.getElem?_of_mem hmem with ⟨n, hn⟩
        refine Alone.head (y := (sh, .cool k (.pin d i (candidates.erase i))))
          { act := .drop, pick := some n } ?_ ?_
        · simp only [Shared.step, Shared.stepCool, hne, hlong, or_self, if_false,
            Option.bind_some, hn]
        · refine (candidate_alone k d i (candidates.erase i)).trans (ih ?_)
          have herase := hperm.erase i
          rwa [List.erase_cons_head] at herase

/-- `enqueue_cold_candidates` alone, which takes its candidates by their stored
    heat. -/
theorem cool_alone (heat : Nat → Nat) (k : CoolCtx) :
    Alone cfg a (sh, .cool k .desired)
      (sh.enqueueColdCandidates cfg heat k.forceOne, k.return) := by
  have hdesired : sh.step cfg { act := .drop } a (.cool k .desired) =
      some (sh, .cool k (.room (sh.desired cfg k.forceOne))) := by
    cases k <;> rfl
  refine Alone.head { act := .drop } hdesired ?_
  unfold Shared.enqueueColdCandidates
  dsimp only
  by_cases hroom : sh.desired cfg k.forceOne = 0 ∨ sh.desired cfg k.forceOne ≤ sh.cooling.length
  · rw [if_pos hroom]
    exact Alone.head { act := .drop } (if_pos hroom) Alone.refl
  · rw [if_neg hroom]
    refine Alone.head (y := (sh, .cool k (.cursor (sh.desired cfg k.forceOne))))
      { act := .drop } (if_neg hroom) ?_
    refine Alone.head (y := (sh.advanceCursor cfg, .cool k
      (.sample (sh.desired cfg k.forceOne) (cfg.window sh.sampleCursor) []))) { act := .drop } rfl ?_
    refine (sample_alone k _ _ []).trans (candidates_alone k _ ?_)
    have hperm : (sh.coldest cfg heat).Perm (sh.sampled cfg) := coldest_perm heat
    rw [List.nil_append]
    exact hperm.symm

/-- One agent that takes the candidates by their stored heat does what the
    function does. -/
theorem cooler_alone (cfg : Config) (a : Agent) (s : PoolState) (heat : Nat → Nat) (k : CoolCtx)
    (hpc : s.pcs a = .cool k .desired) :
    ∃ ls : List (Agent × Choice), (∀ l ∈ ls, l.1 = a) ∧ exec (pool cfg) s ls =
      some ⟨s.shared.enqueueColdCandidates cfg heat k.forceOne, update s.pcs a k.return⟩ := by
  refine alone_exec (y := (s.shared.enqueueColdCandidates cfg heat k.forceOne, k.return)) ?_
  rw [hpc]
  exact cool_alone heat k

end Alone

end TierBuf
