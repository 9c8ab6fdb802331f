import TierBuf.Pool.Invariant

/-!
# Moves of the Ledgers

How the counting parts of the invariant follow a change of one role.

A step changes the role of the agent that takes it and of no other. For every
part of the invariant there is one lemma that says which fields of the role it
depends on, and one for each way its word moves together with the role.

## Main definitions

* `Change`: The roles before and after a step.

## Theorems

* `Pins.keep`, `Latches.keep`, `Gate.keep`, `Leads.keep`, `Background.keep`,
  `Queue.keep`, `Places.keep`, `Storage.keep`: A part depends on few fields of a
  role.
* `Pins.pin`, `Pins.unpin`, `Pins.claim`, `Pins.release`, `Pins.publish`: The
  pin word.
* `Latches.lock`, `Latches.release`: The latch.
* `Pins.unreserved_of_pin`, `Pins.reserver`: Pins and reservations exclude each
  other.
-/

namespace TierBuf

open Function Ledger

/-- Agent `a` goes from role `r` to role `r'`, and nothing else changes. -/
structure Change (R R' : Agent → Role) (a : Agent) (r r' : Role) : Prop where
  before : R a = r
  after : R' a = r'
  others : ∀ b, b ≠ a → R' b = R b

variable {R R' : Agent → Role} {a : Agent} {r r' : Role}

theorem Change.to (hr : R a = r) (r' : Role) : Change R (update R a r') a r r' where
  before := hr
  after := update_self a r' R
  others := fun _ hb => update_of_ne hb r' R

/-- A field on which the two roles agree has not changed anywhere. -/
theorem Change.same {β : Type*} (m : Change R R' a r r') (f : Role → β) (hf : f r' = f r)
    (b : Agent) : f (R' b) = f (R b) := by
  by_cases hb : b = a
  · rw [hb, m.after, m.before, hf]
  · rw [m.others b hb]

theorem Change.exists_iff {κ : Type*} (m : Change R R' a r r') (f : Role → Option κ)
    (hf : f r' = f r) (k : κ) : (∃ b, f (R' b) = some k) ↔ ∃ b, f (R b) = some k := by
  simp only [m.same f hf]

/-! ### The pin word -/

section Pin

variable {w : Nat → Nat} {i v : Nat}

theorem Pins.keep (h : Pins w R) (m : Change R R' a r r')
    (hp : r'.tenure.pin = r.tenure.pin) (hr : r'.tenure.reservation = r.tenure.reservation) :
    Pins w R' where
  table := by
    rw [funext (m.same (fun r => r.tenure.pin) hp),
      funext (m.same (fun r => r.tenure.reservation) hr)]
    exact h.table
  bounded := h.bounded

theorem pinState_update_self : (fun j => pinState (update w i v j)) i = pinState v := by
  simp only [update_self]

theorem pinState_update_other (j : Nat) (hj : j ≠ i) :
    (fun j => pinState (update w i v j)) j = pinState (w j) := by
  simp only [update_of_ne hj]

theorem bounded_update (h : ∀ j, w j ≤ EVICTING) (hv : v ≤ EVICTING) (j : Nat) :
    update w i v j ≤ EVICTING := by
  by_cases hj : j = i
  · rw [hj, update_self]
    exact hv
  · rw [update_of_ne hj]
    exact h j

theorem Pins.pin (h : Pins w R) (m : Change R R' a r r') (hv : tryPin (w i) = some v)
    (hp : r.tenure.pin = none) (hp' : r'.tenure.pin = some i)
    (hr : r'.tenure.reservation = r.tenure.reservation) : Pins (update w i v) R' := by
  rcases tryPin_eq_some hv with ⟨n, hn, hn', hle⟩
  refine ⟨?_, bounded_update h.bounded hle⟩
  refine h.table.acquireShared (a := a) (fun b hb => by rw [m.others b hb])
          (fun b hb => by rw [m.others b hb]) ?_ ?_ ?_ hn
    (pinState_update_self.trans hn') pinState_update_other
  · rw [m.after, m.before, hr]
  · rw [m.before, hp]
  · rw [m.after, hp']

theorem Pins.unpin (h : Pins w R) (m : Change R R' a r r')
    (hp : r.tenure.pin = some i) (hp' : r'.tenure.pin = none)
    (hr : r'.tenure.reservation = r.tenure.reservation) :
    ∃ v, TierBuf.unpin (w i) = some v ∧ Pins (update w i v) R' := by
  rcases (h.table i).shared_of_holds (a := a) (by rw [m.before, hp]) with ⟨n, hn⟩
  rcases unpin_of_shared hn with ⟨hu, hn', hle⟩
  refine ⟨n, hu, ?_, bounded_update h.bounded hle⟩
  refine h.table.releaseShared (a := a) (fun b hb => by rw [m.others b hb])
          (fun b hb => by rw [m.others b hb]) ?_ ?_ ?_ hn
    (pinState_update_self.trans hn') pinState_update_other
  · rw [m.after, m.before, hr]
  · rw [m.before, hp]
  · rw [m.after, hp']

theorem Pins.claim (h : Pins w R) (m : Change R R' a r r') (hv : tryClaimEviction (w i) = some v)
    (hr : r.tenure.reservation = none) (hr' : r'.tenure.reservation = some i)
    (hp : r'.tenure.pin = r.tenure.pin) : Pins (update w i v) R' := by
  rcases tryClaimEviction_eq_some hv with ⟨hn, rfl⟩
  refine ⟨?_, bounded_update h.bounded le_rfl⟩
  refine h.table.acquireExclusive (a := a) (fun b hb => by rw [m.others b hb])
          (fun b hb => by rw [m.others b hb]) ?_ ?_ ?_ hn
    (pinState_update_self.trans pinState_evicting) pinState_update_other
  · rw [m.after, m.before, hp]
  · rw [m.before, hr]
  · rw [m.after, hr']

/-- The word of a reserved frame is exactly `EVICTING`. -/
theorem Pins.word_of_reserved (h : Pins w R) {b : Agent}
    (hr : (R b).tenure.reservation = some i) : w i = EVICTING :=
  pinState_eq_exclusive ((h.table i).exclusive_of_holds hr) (h.bounded i)

theorem Pins.release (h : Pins w R) (m : Change R R' a r r')
    (hr : r.tenure.reservation = some i) (hr' : r'.tenure.reservation = none)
    (hp : r'.tenure.pin = r.tenure.pin) :
    releaseEviction (w i) = some 0 ∧ Pins (update w i 0) R' := by
  have hw := (h.table i).exclusive_of_holds (a := a) (by rw [m.before, hr])
  refine ⟨releaseEviction_of_exclusive hw (h.bounded i), ?_,
    bounded_update h.bounded (Nat.zero_le _)⟩
  refine h.table.releaseExclusive (a := a) (fun b hb => by rw [m.others b hb])
          (fun b hb => by rw [m.others b hb]) ?_ ?_ ?_
    (pinState_update_self.trans (pinState_of_lt (by decide))) pinState_update_other
  · rw [m.after, m.before, hp]
  · rw [m.before, hr]
  · rw [m.after, hr']

theorem Pins.publish (h : Pins w R) (m : Change R R' a r r')
    (hr : r.tenure.reservation = some i) (hr' : r'.tenure.reservation = none)
    (hp : r.tenure.pin = none) (hp' : r'.tenure.pin = some i) :
    publishReservedPin (w i) = some 1 ∧ Pins (update w i 1) R' := by
  have hw := (h.table i).exclusive_of_holds (a := a) (by rw [m.before, hr])
  refine ⟨publishReservedPin_of_exclusive hw (h.bounded i), ?_,
    bounded_update h.bounded (by decide)⟩
  refine h.table.downgrade (a := a) (fun b hb => by rw [m.others b hb])
          (fun b hb => by rw [m.others b hb]) ?_ ?_ ?_ ?_
    (pinState_update_self.trans (pinState_of_lt (by decide))) pinState_update_other
  · rw [m.before, hp]
  · rw [m.before, hr]
  · rw [m.after, hp']
  · rw [m.after, hr']

theorem Pins.unreserved_of_pin (h : Pins w R) {b c : Agent} (hb : (R b).tenure.pin = some i) :
    (R c).tenure.reservation ≠ some i :=
  (h.table i).excludes hb

theorem Pins.reserver (h : Pins w R) {b c : Agent} (hb : (R b).tenure.reservation = some i)
    (hc : (R c).tenure.reservation = some i) : b = c :=
  (h.table i).unique hb hc

end Pin

/-! ### The latch -/

section Latch

variable {l : Nat → HybridLatch} {v : HybridLatch} {i : Nat} {exclusive : Bool}

theorem Latches.keep (h : Latches l R) (m : Change R R' a r r')
    (hs : r'.tenure.shared = r.tenure.shared) (he : r'.tenure.exclusive = r.tenure.exclusive) :
    Latches l R' := by
  unfold Latches
  rw [funext (m.same (fun r => r.tenure.shared) hs),
    funext (m.same (fun r => r.tenure.exclusive) he)]
  exact h

theorem state_update_self : (fun j => (update l i v j).state) i = v.state := by
  simp only [update_self]

theorem state_update_other (j : Nat) (hj : j ≠ i) :
    (fun j => (update l i v j).state) j = (l j).state := by
  simp only [update_of_ne hj]

/-- The latch a tenure holds in the given mode. -/
def Tenure.latched (exclusive : Bool) (t : Tenure) : Option Nat :=
  if exclusive then t.exclusive else t.shared

theorem Latches.lock (h : Latches l R) (m : Change R R' a r r')
    (hv : (l i).lock exclusive = some v) (h0 : r.tenure.latched exclusive = none)
    (h1 : r'.tenure.latched exclusive = some i)
    (hk : r'.tenure.latched (!exclusive) = r.tenure.latched (!exclusive)) :
    Latches (update l i v) R' := by
  cases exclusive with
  | true =>
      rcases HybridLatch.lockExclusive_eq_some hv with ⟨hn, hn'⟩
      refine h.acquireExclusive (a := a) (fun b hb => by rw [m.others b hb])
          (fun b hb => by rw [m.others b hb]) ?_ ?_ ?_ hn
        (state_update_self.trans hn') state_update_other
      · rw [m.after, m.before]
        exact hk
      · rw [m.before]
        exact h0
      · rw [m.after]
        exact h1
  | false =>
      rcases HybridLatch.lockShared_eq_some hv with ⟨n, hn, hn'⟩
      refine h.acquireShared (a := a) (fun b hb => by rw [m.others b hb])
          (fun b hb => by rw [m.others b hb]) ?_ ?_ ?_ hn
        (state_update_self.trans hn') state_update_other
      · rw [m.after, m.before]
        exact hk
      · rw [m.before]
        exact h0
      · rw [m.after]
        exact h1

theorem Latches.release (h : Latches l R) (m : Change R R' a r r')
    (h0 : r.tenure.latched exclusive = some i) (h1 : r'.tenure.latched exclusive = none)
    (hk : r'.tenure.latched (!exclusive) = r.tenure.latched (!exclusive)) :
    ∃ v, (l i).release exclusive = some v ∧ Latches (update l i v) R' := by
  cases exclusive with
  | true =>
      have hw := (h i).exclusive_of_holds (a := a) (by rw [m.before]; exact h0)
      refine ⟨_, HybridLatch.releaseExclusive_of_exclusive hw, ?_⟩
      refine h.releaseExclusive (a := a) (fun b hb => by rw [m.others b hb])
          (fun b hb => by rw [m.others b hb]) ?_ ?_ ?_
        state_update_self state_update_other
      · rw [m.after, m.before]
        exact hk
      · rw [m.before]
        exact h0
      · rw [m.after]
        exact h1
  | false =>
      rcases (h i).shared_of_holds (a := a) (by rw [m.before]; exact h0) with ⟨n, hw⟩
      refine ⟨_, HybridLatch.releaseShared_of_shared hw, ?_⟩
      refine h.releaseShared (a := a) (fun b hb => by rw [m.others b hb])
          (fun b hb => by rw [m.others b hb]) ?_ ?_ ?_ hw
        state_update_self state_update_other
      · rw [m.after, m.before]
        exact hk
      · rw [m.before]
        exact h0
      · rw [m.after]
        exact h1

end Latch

/-! ### The gate -/

section Gates

variable {g : RwState} {n : Nat}

theorem Gate.keep (h : Gate g R) (m : Change R R' a r r') (hs : r'.post.gate = r.post.gate)
    (he : r'.post.writeGate = r.post.writeGate) : Gate g R' := by
  unfold Gate
  rw [funext (m.same (fun r => r.post.gate) hs), funext (m.same (fun r => r.post.writeGate) he)]
  exact h

theorem Gate.enter (h : Gate (.shared n) R) (m : Change R R' a r r') (h0 : r.post.gate = none)
    (h1 : r'.post.gate = some ()) (he : r'.post.writeGate = r.post.writeGate) :
    Gate (.shared (n + 1)) R' := by
  refine h.acquireShared (a := a) (k := ()) (fun b hb => by rw [m.others b hb])
          (fun b hb => by rw [m.others b hb]) ?_ ?_ ?_ rfl rfl
    (fun _ hj => absurd rfl hj)
  · rw [m.after, m.before, he]
  · rw [m.before, h0]
  · rw [m.after, h1]

theorem Gate.leave (h : Gate g R) (m : Change R R' a r r') (h0 : r.post.gate = some ())
    (h1 : r'.post.gate = none) (he : r'.post.writeGate = r.post.writeGate) :
    ∃ n, g = .shared (n + 1) ∧ Gate (.shared n) R' := by
  rcases (h ()).shared_of_holds (a := a) (by rw [m.before, h0]) with ⟨n, hn⟩
  refine ⟨n, hn, ?_⟩
  refine h.releaseShared (a := a) (k := ()) (fun b hb => by rw [m.others b hb])
          (fun b hb => by rw [m.others b hb]) ?_ ?_ ?_ hn rfl
    (fun _ hj => absurd rfl hj)
  · rw [m.after, m.before, he]
  · rw [m.before, h0]
  · rw [m.after, h1]

theorem Gate.shut (h : Gate (.shared 0) R) (m : Change R R' a r r')
    (h0 : r.post.writeGate = none) (h1 : r'.post.writeGate = some ())
    (hs : r'.post.gate = r.post.gate) : Gate .exclusive R' := by
  refine h.acquireExclusive (a := a) (k := ()) (fun b hb => by rw [m.others b hb])
          (fun b hb => by rw [m.others b hb]) ?_ ?_ ?_ rfl rfl
    (fun _ hj => absurd rfl hj)
  · rw [m.after, m.before, hs]
  · rw [m.before, h0]
  · rw [m.after, h1]

theorem Gate.reopen (h : Gate g R) (m : Change R R' a r r') (h0 : r.post.writeGate = some ())
    (h1 : r'.post.writeGate = none) (hs : r'.post.gate = r.post.gate) : Gate (.shared 0) R' := by
  refine h.releaseExclusive (a := a) (k := ()) (fun b hb => by rw [m.others b hb])
          (fun b hb => by rw [m.others b hb]) ?_ ?_ ?_ rfl
    (fun _ hj => absurd rfl hj)
  · rw [m.after, m.before, hs]
  · rw [m.before, h0]
  · rw [m.after, h1]

end Gates

/-! ### Faults -/

section Fault

variable {faults : PageId → FaultState} {f : FaultState} {p : PageId}

theorem Leads.keep (h : Leads faults R) (m : Change R R' a r r')
    (hl : r'.warrant.lead = r.warrant.lead) : Leads faults R' where
  active := fun p => by
    rw [h.active p, m.exists_iff (fun r => r.warrant.lead) hl]
  leader := h.leader.keep (a := a) (fun b hb => by rw [m.others b hb]) (by rw [m.after, m.before, hl])

/-- A section of the coordinator that elects and retires no leader. -/
theorem Leads.record (h : Leads faults R) (m : Change R R' a r r')
    (hl : r'.warrant.lead = r.warrant.lead)
    (hf : f.active.isSome = (faults p).active.isSome) : Leads (update faults p f) R' where
  active := fun q => by
    rw [m.exists_iff (fun r => r.warrant.lead) hl, ← h.active q]
    by_cases hq : q = p
    · rw [hq, update_self, hf]
    · rw [update_of_ne hq]
  leader := (h.keep m hl).leader

theorem Leads.elect (h : Leads faults R) (m : Change R R' a r r')
    (h0 : r.warrant.lead = none) (h1 : r'.warrant.lead = some p)
    (hidle : (faults p).active = none) (hf : f.active.isSome = true) :
    Leads (update faults p f) R' := by
  have hfree : ∀ b, (R b).warrant.lead ≠ some p := by
    intro b hb
    have hact := (h.active p).mpr ⟨b, hb⟩
    rw [hidle] at hact
    exact absurd hact (by decide)
  refine ⟨fun q => ?_, h.leader.acquire (a := a) (fun b hb => by rw [m.others b hb]) (by rw [m.after, h1]) hfree⟩
  by_cases hq : q = p
  · rw [hq, update_self]
    exact ⟨fun _ => ⟨a, by rw [m.after, h1]⟩, fun _ => hf⟩
  · rw [update_of_ne hq, h.active q]
    constructor
    · rintro ⟨b, hb⟩
      have hba : b ≠ a := by
        intro hc
        rw [hc, m.before, h0] at hb
        exact absurd hb nofun
      exact ⟨b, by rw [m.others b hba, hb]⟩
    · rintro ⟨b, hb⟩
      have hba : b ≠ a := by
        intro hc
        rw [hc, m.after, h1, Option.some.injEq] at hb
        exact hq hb.symm
      exact ⟨b, by rw [← m.others b hba, hb]⟩

theorem Leads.retire (h : Leads faults R) (m : Change R R' a r r')
    (h0 : r.warrant.lead = some p) (h1 : r'.warrant.lead = none) (hf : f.active = none) :
    Leads (update faults p f) R' := by
  refine ⟨fun q => ?_, h.leader.release (a := a) (fun b hb => by rw [m.others b hb]) (by rw [m.after, h1])⟩
  have hother : ∀ b, (R' b).warrant.lead = some q ↔ b ≠ a ∧ (R b).warrant.lead = some q := by
    intro b
    by_cases hba : b = a
    · rw [hba, m.after, h1]
      exact ⟨fun hc => absurd hc nofun, fun hc => absurd rfl hc.1⟩
    · rw [m.others b hba]
      exact ⟨fun hb => ⟨hba, hb⟩, fun hb => hb.2⟩
  simp only [hother]
  by_cases hq : q = p
  · rw [hq, update_self, hf]
    constructor
    · exact fun hc => absurd hc (by decide)
    · rintro ⟨b, hba, hb⟩
      exact absurd (h.leader b a p hb (by simp only [m.before, h0])) hba
  · rw [update_of_ne hq, h.active q]
    constructor
    · rintro ⟨b, hb⟩
      refine ⟨b, fun hc => ?_, hb⟩
      rw [hc, m.before, h0, Option.some.injEq] at hb
      exact hq hb.symm
    · rintro ⟨b, -, hb⟩
      exact ⟨b, hb⟩

end Fault

/-! ### Workers and prefetch requests -/

section Counts

variable {n k : Nat} {joined stopping : Bool}

theorem Background.keep (h : Background n k joined stopping R) (m : Change R R' a r r')
    (hf : r'.inFlight = r.inFlight) (hb : r'.post.background = r.post.background)
    (hact : r'.post.active = true → r.post.active = true ∨ joined = false) :
    Background n k joined stopping R' where
  flights := by
    rw [funext (m.same Role.inFlight hf)]
    exact h.flights
  workers := by
    rw [funext (m.same (fun r => r.post.background) hb)]
    exact h.workers
  closed := fun hj => by
    refine ⟨(h.closed hj).1, fun b => ?_⟩
    by_cases hba : b = a
    · rw [hba, m.after]
      cases hr : r'.post.active with
      | false => rfl
      | true =>
          rcases hact hr with hold | hopen
          · rw [← m.before, (h.closed hj).2 a] at hold
            exact absurd hold nofun
          · rw [hj] at hopen
            exact absurd hopen nofun
    · rw [m.others b hba]
      exact (h.closed hj).2 b

theorem Background.depart (h : Background n k joined stopping R) (m : Change R R' a r r')
    (h0 : r.inFlight = none) (h1 : r'.inFlight = some ())
    (hb : r'.post.background = r.post.background) (hact : r'.post.active = r.post.active) :
    Background (n + 1) k joined stopping R' where
  flights := by
    rw [tally_acquire (fun b hb => by rw [m.others b hb]) (by rw [m.before, h0]; exact nofun) (by rw [m.after, h1]),
      h.flights, Nat.cast_add, Nat.cast_one]
  workers := by
    rw [funext (m.same (fun r => r.post.background) hb)]
    exact h.workers
  closed := fun hj =>
    ⟨(h.closed hj).1, fun b => (m.same (fun r => r.post.active) hact b).trans ((h.closed hj).2 b)⟩

theorem Background.arrive (h : Background n k joined stopping R) (m : Change R R' a r r')
    (h0 : r.inFlight = some ()) (h1 : r'.inFlight = none)
    (hb : r'.post.background = r.post.background) (hact : r'.post.active = r.post.active) :
    ∃ n', n = n' + 1 ∧ Background n' k joined stopping R' := by
  have hstep : tally (fun a => (R a).inFlight) () = tally (fun a => (R' a).inFlight) () + 1 :=
    tally_release (fun b hb => by rw [m.others b hb]) (by rw [m.before, h0]) (by rw [m.after, h1]; exact nofun)
  rw [h.flights] at hstep
  cases n with
  | zero =>
      rw [Nat.cast_zero] at hstep
      exact absurd hstep.symm (by simp)
  | succ n =>
      rw [Nat.cast_add, Nat.cast_one] at hstep
      refine ⟨n, rfl, (ENat.add_left_injective_of_ne_top ENat.one_ne_top hstep).symm, ?_, ?_⟩
      · rw [funext (m.same (fun r => r.post.background) hb)]
        exact h.workers
      · exact fun hj => ⟨(h.closed hj).1,
          fun b => (m.same (fun r => r.post.active) hact b).trans ((h.closed hj).2 b)⟩

theorem Background.hire (h : Background n k joined stopping R) (m : Change R R' a r r')
    (h0 : r.post.background = none) (h1 : r'.post.background = some ()) (hj : joined = false)
    (hf : r'.inFlight = r.inFlight) : Background n (k + 1) joined stopping R' where
  flights := by
    rw [funext (m.same Role.inFlight hf)]
    exact h.flights
  workers := by
    rw [tally_acquire (a := a) (fun b hb => by rw [m.others b hb])
      (by rw [m.before, h0]; exact nofun) (by rw [m.after, h1]), h.workers, Nat.cast_add,
      Nat.cast_one]
  closed := fun hc => by
    rw [hj] at hc
    exact absurd hc nofun

theorem Background.dismiss (h : Background n k joined stopping R) (m : Change R R' a r r')
    (h0 : r.post.background = some ()) (h1 : r'.post.background = none)
    (hact : r'.post.active = false) (hf : r'.inFlight = r.inFlight) :
    Background n (k - 1) joined stopping R' where
  flights := by
    rw [funext (m.same Role.inFlight hf)]
    exact h.flights
  workers := by
    have hstep : tally (fun a => (R a).post.background) () =
        tally (fun a => (R' a).post.background) () + 1 :=
      tally_release (a := a) (fun b hb => by rw [m.others b hb]) (by rw [m.before, h0])
        (by rw [m.after, h1]; exact nofun)
    rw [h.workers] at hstep
    cases k with
    | zero =>
        rw [Nat.cast_zero] at hstep
        exact absurd hstep.symm (by simp)
    | succ k =>
        rw [Nat.cast_add, Nat.cast_one] at hstep
        exact (ENat.add_left_injective_of_ne_top ENat.one_ne_top hstep).symm
  closed := fun hj => by
    refine ⟨(h.closed hj).1, fun b => ?_⟩
    by_cases hb : b = a
    · rw [hb, m.after, hact]
    · rw [m.others b hb]
      exact (h.closed hj).2 b

theorem Background.stop (h : Background n k joined stopping R) :
    Background n k joined true R :=
  ⟨h.flights, h.workers, fun hj => ⟨rfl, (h.closed hj).2⟩⟩

end Counts

/-! ### The free queue -/

section Queues

variable {cfg : Config} {free rest : List Nat} {flags : Nat → Bool} {i : Nat}

theorem Queue.keep (h : Queue cfg free flags R) (m : Change R R' a r r')
    (hf : r'.tenure.flag = r.tenure.flag) : Queue cfg free flags R' where
  nodup := h.nodup
  bounded := h.bounded
  member := fun i hi => by
    rw [h.member i hi, m.exists_iff (fun r => r.tenure.flag) hf]

/-- The owned frame of an agent is the only one its step can concern. -/
theorem Change.flag_other (m : Change R R' a r r') {j : Nat} (h0 : r.tenure.flag ≠ some j)
    (h1 : r'.tenure.flag ≠ some j) :
    (∃ b, (R' b).tenure.flag = some j) ↔ ∃ b, (R b).tenure.flag = some j := by
  have hb : ∀ b, (R' b).tenure.flag = some j ↔ (R b).tenure.flag = some j := by
    intro b
    by_cases hba : b = a
    · rw [hba, m.before, m.after]
      exact ⟨fun hc => absurd hc h1, fun hc => absurd hc h0⟩
    · rw [m.others b hba]
  simp only [hb]

theorem Queue.pop (h : Queue cfg (i :: rest) flags R) (m : Change R R' a r r')
    (h0 : r.tenure.flag = none) (h1 : r'.tenure.flag = some i) : Queue cfg rest flags R' where
  nodup := (List.nodup_cons.mp h.nodup).2
  bounded := fun j hj => h.bounded j (List.mem_cons_of_mem i hj)
  member := fun j hj => by
    by_cases hji : j = i
    · rw [hji] at hj ⊢
      rw [h.member i hj]
      exact ⟨fun _ => .inr ⟨a, by rw [m.after, h1]⟩, fun _ => .inl List.mem_cons_self⟩
    · rw [h.member j hj, m.flag_other (by rw [h0]; exact nofun)
        (by rw [h1]; exact fun hc => hji (Option.some.inj hc).symm), List.mem_cons,
        or_iff_right hji]

/-- A popped index is still a member: the compare-and-swap of `pop_free`
    succeeds. -/
theorem Queue.unflag (h : Queue cfg free flags R) (m : Change R R' a r r') (hi : i < cfg.frameCount)
    (h0 : r.tenure.flag = some i) (h1 : r'.tenure.flag = none) (hq : i ∉ free)
    (hsole : ∀ b, (R b).tenure.flag = some i → b = a) :
    flags i = true ∧ Queue cfg free (update flags i false) R' := by
  refine ⟨(h.member i hi).mpr (.inr ⟨a, by rw [m.before, h0]⟩), h.nodup, h.bounded, ?_⟩
  intro j hj
  by_cases hji : j = i
  · rw [hji, update_self]
    refine ⟨fun hc => absurd hc nofun, fun hc => ?_⟩
    rcases hc with hc | ⟨b, hb⟩
    · exact absurd hc hq
    · by_cases hba : b = a
      · rw [hba, m.after, h1] at hb
        exact absurd hb nofun
      · rw [m.others b hba] at hb
        exact absurd (hsole b hb) hba
  · rw [update_of_ne hji, h.member j hj, m.flag_other
      (by rw [h0]; exact fun hc => hji (Option.some.inj hc).symm) (by rw [h1]; exact nofun)]

/-- An owned index without its flag is no member: the compare-and-swap of
    `push_free` succeeds. -/
theorem Queue.flag (h : Queue cfg free flags R) (m : Change R R' a r r') (hi : i < cfg.frameCount)
    (h0 : r.tenure.flag = none) (h1 : r'.tenure.flag = some i) (hq : i ∉ free)
    (hsole : ∀ b, (R b).tenure.flag = some i → b = a) :
    flags i = false ∧ Queue cfg free (update flags i true) R' := by
  have hfree : flags i = false := by
    cases hf : flags i with
    | false => rfl
    | true =>
        rcases (h.member i hi).mp hf with hc | ⟨b, hb⟩
        · exact absurd hc hq
        · have hba := hsole b hb
          rw [hba, m.before, h0] at hb
          exact absurd hb nofun
  refine ⟨hfree, h.nodup, h.bounded, ?_⟩
  intro j hj
  by_cases hji : j = i
  · rw [hji, update_self]
    exact ⟨fun _ => .inr ⟨a, by rw [m.after, h1]⟩, fun _ => rfl⟩
  · rw [update_of_ne hji, h.member j hj, m.flag_other (by rw [h0]; exact nofun)
      (by rw [h1]; exact fun hc => hji (Option.some.inj hc).symm)]

/-- A queue of distinct frames that misses one has room for it. -/
theorem Queue.room (h : Queue cfg free flags R) (hi : i < cfg.frameCount) (hq : i ∉ free) :
    free.length < cfg.frameCount := by
  have hnodup : (i :: free).Nodup := List.nodup_cons.mpr ⟨hq, h.nodup⟩
  have hsub : (i :: free) ⊆ List.range cfg.frameCount := by
    intro j hj
    rw [List.mem_range]
    rcases List.mem_cons.mp hj with hj | hj
    · rw [hj]
      exact hi
    · exact h.bounded j hj
  have hlen := (List.subperm_of_subset hnodup hsub).length_le
  rw [List.length_cons, List.length_range] at hlen
  exact hlen

theorem Queue.push (h : Queue cfg free flags R) (m : Change R R' a r r') (hi : i < cfg.frameCount)
    (h0 : r.tenure.flag = some i) (h1 : r'.tenure.flag = none) (hq : i ∉ free) :
    Queue cfg (free ++ [i]) flags R' where
  nodup := by
    rw [List.nodup_append_comm]
    exact List.nodup_cons.mpr ⟨hq, h.nodup⟩
  bounded := fun j hj => by
    rcases List.mem_append.mp hj with hj | hj
    · exact h.bounded j hj
    · rw [List.mem_singleton.mp hj]
      exact hi
  member := fun j hj => by
    by_cases hji : j = i
    · rw [hji]
      exact ⟨fun _ => .inl (by simp), fun _ => (h.member i hi).mpr
        (.inr ⟨a, by rw [m.before, h0]⟩)⟩
    · rw [h.member j hj, m.flag_other
        (by rw [h0]; exact fun hc => hji (Option.some.inj hc).symm) (by rw [h1]; exact nofun),
        List.mem_append, List.mem_singleton, or_iff_left hji]

end Queues

/-! ### Places -/

section Place

variable {cfg : Config} {free rest : List Nat} {swips swips' : SwipId → SwipInner} {i : Nat}
  {s : SwipId}

theorem Places.keep (h : Places cfg free swips R) (m : Change R R' a r r')
    (ho : r'.tenure.own = r.tenure.own) : Places cfg free swips R' where
  owner := h.owner.keep (a := a) (fun b hb => by rw [m.others b hb])
    (by rw [m.after, m.before, ho])
  owned := fun b i hb => h.owned b i (by rw [← m.same (fun r => r.tenure.own) ho b, hb])
  queued := h.queued
  covered := fun i hi => by
    rw [m.exists_iff (fun r => r.tenure.own) ho]
    exact h.covered i hi

/-- Only where the words are resident matters. -/
theorem Places.congr (h : Places cfg free swips R)
    (hs : ∀ s, (swips' s).state.resident = (swips s).state.resident) :
    Places cfg free swips' R where
  owner := h.owner
  owned := fun a i ha => by
    simp only [hs]
    exact h.owned a i ha
  queued := fun i hi s => by
    rw [hs]
    exact h.queued i hi s
  covered := fun i hi => by
    simp only [hs]
    exact h.covered i hi

theorem Places.pop (h : Places cfg (i :: rest) swips R) (m : Change R R' a r r')
    (hi : i < cfg.frameCount) (hnodup : (i :: rest).Nodup)
    (h0 : r.tenure.own = none) (h1 : r'.tenure.own = some i) : Places cfg rest swips R' where
  owner := h.owner.acquire (a := a) (fun b hb => by rw [m.others b hb]) (by rw [m.after, h1])
    (fun b hb => (h.owned b i hb).2.1 List.mem_cons_self)
  owned := fun b j hb => by
    by_cases hba : b = a
    · rw [hba, m.after, h1, Option.some.injEq] at hb
      rw [← hb]
      exact ⟨hi, (List.nodup_cons.mp hnodup).1, h.queued i List.mem_cons_self⟩
    · rw [m.others b hba] at hb
      rcases h.owned b j hb with ⟨hj, hq, hr⟩
      exact ⟨hj, fun hc => hq (List.mem_cons_of_mem i hc), hr⟩
  queued := fun j hj => h.queued j (List.mem_cons_of_mem i hj)
  covered := fun j hj => by
    rcases h.covered j hj with hq | ⟨b, hb⟩ | hr
    · rcases List.mem_cons.mp hq with hq | hq
      · exact .inr (.inl ⟨a, by rw [m.after, h1, hq]⟩)
      · exact .inl hq
    · refine .inr (.inl ⟨b, ?_⟩)
      have hba : b ≠ a := by
        intro hc
        rw [hc, m.before, h0] at hb
        exact absurd hb nofun
      rw [m.others b hba, hb]
    · exact .inr (.inr hr)

theorem Places.push (h : Places cfg free swips R) (m : Change R R' a r r')
    (h0 : r.tenure.own = some i) (h1 : r'.tenure.own = none) :
    Places cfg (free ++ [i]) swips R' where
  owner := h.owner.release (a := a) (fun b hb => by rw [m.others b hb]) (by rw [m.after, h1])
  owned := fun b j hb => by
    have hba : b ≠ a := by
      intro hc
      rw [hc, m.after, h1] at hb
      exact absurd hb nofun
    rw [m.others b hba] at hb
    rcases h.owned b j hb with ⟨hj, hq, hr⟩
    refine ⟨hj, fun hc => ?_, hr⟩
    rcases List.mem_append.mp hc with hc | hc
    · exact hq hc
    · rw [List.mem_singleton.mp hc] at hb
      exact hba (h.owner b a i hb (by simp only [m.before, h0]))
  queued := fun j hj => by
    rcases List.mem_append.mp hj with hj | hj
    · exact h.queued j hj
    · rw [List.mem_singleton.mp hj]
      exact (h.owned a i (by rw [m.before, h0])).2.2
  covered := fun j hj => by
    rcases h.covered j hj with hq | ⟨b, hb⟩ | hr
    · exact .inl (List.mem_append_left _ hq)
    · by_cases hba : b = a
      · rw [hba, m.before, h0, Option.some.injEq] at hb
        exact .inl (by simp [hb])
      · exact .inr (.inl ⟨b, by rw [m.others b hba, hb]⟩)
    · exact .inr (.inr hr)

/-- The page of Swip `s` moves into the owned frame. -/
theorem Places.settle (h : Places cfg free swips R) (m : Change R R' a r r')
    (h0 : r.tenure.own = some i) (h1 : r'.tenure.own = none)
    (hs : (swips' s).state.resident = some (cfg.residentAddr i))
    (hold : (swips s).state.resident = none)
    (hother : ∀ s', s' ≠ s → (swips' s').state.resident = (swips s').state.resident) :
    Places cfg free swips' R' where
  owner := h.owner.release (a := a) (fun b hb => by rw [m.others b hb]) (by rw [m.after, h1])
  owned := fun b j hb => by
    have hba : b ≠ a := by
      intro hc
      rw [hc, m.after, h1] at hb
      exact absurd hb nofun
    rw [m.others b hba] at hb
    rcases h.owned b j hb with ⟨hj, hq, hr⟩
    refine ⟨hj, hq, fun s' hc => ?_⟩
    by_cases hss : s' = s
    · rw [hss, hs, Option.some.injEq] at hc
      rw [← cfg.residentAddr_inj hc] at hb
      exact hba (h.owner b a i hb (by simp only [m.before, h0]))
    · rw [hother s' hss] at hc
      exact hr s' hc
  queued := fun j hj s' hc => by
    by_cases hss : s' = s
    · rw [hss, hs, Option.some.injEq] at hc
      rw [← cfg.residentAddr_inj hc] at hj
      exact (h.owned a i (by rw [m.before, h0])).2.1 hj
    · rw [hother s' hss] at hc
      exact h.queued j hj s' hc
  covered := fun j hj => by
    rcases h.covered j hj with hq | ⟨b, hb⟩ | ⟨s', hr⟩
    · exact .inl hq
    · by_cases hba : b = a
      · rw [hba, m.before, h0, Option.some.injEq] at hb
        exact .inr (.inr ⟨s, by rw [hs, hb]⟩)
      · exact .inr (.inl ⟨b, by rw [m.others b hba, hb]⟩)
    · refine .inr (.inr ⟨s', ?_⟩)
      have hss : s' ≠ s := by
        intro hc
        rw [hc, hold] at hr
        exact absurd hr nofun
      rw [hother s' hss, hr]

/-- The page of Swip `s` moves out of its frame, which the agent takes. -/
theorem Places.vacate (h : Places cfg free swips R) (m : Change R R' a r r')
    (hi : i < cfg.frameCount) (h0 : r.tenure.own = none) (h1 : r'.tenure.own = some i)
    (hs : (swips s).state.resident = some (cfg.residentAddr i))
    (hnew : (swips' s).state.resident = none)
    (hsole : ∀ s', (swips s').state.resident = some (cfg.residentAddr i) → s' = s)
    (hother : ∀ s', s' ≠ s → (swips' s').state.resident = (swips s').state.resident) :
    Places cfg free swips' R' where
  owner := h.owner.acquire (a := a) (fun b hb => by rw [m.others b hb]) (by rw [m.after, h1])
    (fun b hb => (h.owned b i hb).2.2 s hs)
  owned := fun b j hb => by
    have hle : ∀ s', (swips' s').state.resident = some (cfg.residentAddr j) →
        s' ≠ s ∧ (swips s').state.resident = some (cfg.residentAddr j) := by
      intro s' hc
      have hss : s' ≠ s := by
        intro hcs
        rw [hcs, hnew] at hc
        exact absurd hc nofun
      exact ⟨hss, by rw [← hother s' hss, hc]⟩
    by_cases hba : b = a
    · rw [hba, m.after, h1, Option.some.injEq] at hb
      rw [← hb] at hle ⊢
      refine ⟨hi, fun hc => h.queued i hc s hs, fun s' hc => ?_⟩
      exact (hle s' hc).1 (hsole s' (hle s' hc).2)
    · rw [m.others b hba] at hb
      rcases h.owned b j hb with ⟨hj, hq, hr⟩
      exact ⟨hj, hq, fun s' hc => hr s' (hle s' hc).2⟩
  queued := fun j hj s' hc => by
    by_cases hss : s' = s
    · rw [hss, hnew] at hc
      exact absurd hc nofun
    · rw [hother s' hss] at hc
      exact h.queued j hj s' hc
  covered := fun j hj => by
    rcases h.covered j hj with hq | ⟨b, hb⟩ | ⟨s', hr⟩
    · exact .inl hq
    · refine .inr (.inl ⟨b, ?_⟩)
      have hba : b ≠ a := by
        intro hc
        rw [hc, m.before, h0] at hb
        exact absurd hb nofun
      rw [m.others b hba, hb]
    · by_cases hss : s' = s
      · rw [hss, hs, Option.some.injEq] at hr
        exact .inr (.inl ⟨a, by rw [m.after, h1, cfg.residentAddr_inj hr]⟩)
      · exact .inr (.inr ⟨s', by rw [hother s' hss, hr]⟩)

end Place

end TierBuf
