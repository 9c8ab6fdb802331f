import TierBuf.Pool.Interference

/-!
# Moves

What one step may do to a manager and to the role of the agent that takes it.

Each theorem here is one kind of step: a change of one word or one page, with
the change of role that goes with it. The hypotheses that fill the statements
say which fields of the role stay as they are. At a program point both roles
are known, so they are found by computation.

A step that ends in `panicked` keeps the invariant only if it cannot happen:
the role of that program point is unsound. The moves on words that a function
of the program asserts something about are stated about that function, and
that its assertion holds is part of their proof.

## Main definitions

* `SamePin`, `SameLatch`, `SamePlace`, `SameSlot`, `SameWarrant`, `SamePost`:
  The fields of a role that one part of the invariant counts.
* `SameHold`, `SameRest`: The fields about frames, and the other ones.
* `Quiet`: A change of the shared state that no part of the invariant sees.
* `Keeps`: Every outcome of a step satisfies the invariant.

## Theorems

* `Inv.reassign`: A step that changes at most the role.
* `Inv.pin`, `Inv.unpin`, `Inv.claim`, `Inv.release`, `Inv.publishPin`: Steps
  on a pin word.
* `Inv.lock`, `Inv.unlock`: Steps on a latch.
* `Inv.pop`, `Inv.unflag`, `Inv.flag`, `Inv.push`: Steps on the free queue.
* `Inv.record`, `Inv.elect`, `Inv.retire`: Sections of the fault coordinator.
* `Inv.enterGate`, `Inv.leaveGate`, `Inv.shut`, `Inv.reopen`: Steps on the gate.
* `Inv.operate`, `Inv.depart`, `Inv.arrive`, `Inv.hire`, `Inv.dismiss`: Steps
  on the running flag and the background counts.
-/

namespace TierBuf

open Function Ledger

variable {cfg : Config} {sh sh' : Shared} {R R' : Agent → Role} {a : Agent} {r r' : Role}
  {pc : Pc}

/-! ### What the invariant counts -/

namespace Role

/-- The frames that an agent has pinned and reserved. -/
def pins (r : Role) : Option Nat × Option Nat :=
  (r.tenure.pin, r.tenure.reservation)

/-- The frames that an agent has locked. -/
def latches (r : Role) : Option Nat × Option Nat :=
  (r.tenure.shared, r.tenure.exclusive)

/-- The frame that an agent owns, and the one whose flag it has taken. -/
def places (r : Role) : Option Nat × Option Nat :=
  (r.tenure.own, r.tenure.flag)

/-- The slot that an agent holds, and the page it has written and not
    published. -/
def storage (r : Role) : Option Location × Option PageId :=
  (r.slot, r.tenure.pending)

/-- The pages that an agent leads a fault for and mints. -/
def claims (r : Role) : Option PageId × Option PageId :=
  (r.warrant.lead, r.warrant.mint)

/-- The agent's holds of the gate, and its background work. -/
def station (r : Role) : Option Unit × Option Unit × Option Unit × Bool :=
  (r.post.gate, r.post.writeGate, r.post.background, r.flight)

def hold (r : Role) : (Option Nat × Option Nat) × (Option Nat × Option Nat) ×
    (Option Nat × Option Nat) :=
  (r.pins, r.latches, r.places)

def rest (r : Role) : (Option Location × Option PageId) × (Option PageId × Option PageId) ×
    (Option Unit × Option Unit × Option Unit × Bool) × Bool :=
  (r.storage, r.claims, r.station, r.post.active)

/-! All but one of them. -/

def butPins (r : Role) :=
  (r.latches, r.places, r.rest)

def butLatches (r : Role) :=
  (r.pins, r.places, r.rest)

def butPlaces (r : Role) :=
  (r.pins, r.latches, r.rest)

def butStorage (r : Role) :=
  (r.hold, r.claims, r.station, r.post.active)

def butClaims (r : Role) :=
  (r.hold, r.storage, r.station, r.post.active)

def butStation (r : Role) :=
  (r.hold, r.storage, r.claims)

/-- What an agent knows, next to what it holds. -/
def bond (r : Role) : Warrant × Post × Prop :=
  (r.warrant, r.post, r.checked)

end Role

/-! ### Fields that stay -/

def SamePin (r r' : Role) : Prop := r'.pins = r.pins

def SameLatch (r r' : Role) : Prop := r'.latches = r.latches

def SamePlace (r r' : Role) : Prop := r'.places = r.places

def SameSlot (r r' : Role) : Prop := r'.storage = r.storage

def SameWarrant (r r' : Role) : Prop := r'.claims = r.claims

def SameHold (r r' : Role) : Prop := r'.hold = r.hold

def SameRest (r r' : Role) : Prop := r'.rest = r.rest

/-- The same post, or one with less to do. -/
structure SamePost (r r' : Role) : Prop where
  station : r'.station = r.station
  active : r'.post.active = true → r.post.active = true

section Same

theorem SamePin.pin (h : SamePin r r') : r'.tenure.pin = r.tenure.pin :=
  congrArg Prod.fst h

theorem SamePin.reservation (h : SamePin r r') : r'.tenure.reservation = r.tenure.reservation :=
  congrArg Prod.snd h

theorem SameLatch.shared (h : SameLatch r r') : r'.tenure.shared = r.tenure.shared :=
  congrArg Prod.fst h

theorem SameLatch.exclusive (h : SameLatch r r') : r'.tenure.exclusive = r.tenure.exclusive :=
  congrArg Prod.snd h

theorem SamePlace.own (h : SamePlace r r') : r'.tenure.own = r.tenure.own :=
  congrArg Prod.fst h

theorem SamePlace.flag (h : SamePlace r r') : r'.tenure.flag = r.tenure.flag :=
  congrArg Prod.snd h

theorem SameSlot.slot (h : SameSlot r r') : r'.slot = r.slot :=
  congrArg Prod.fst h

theorem SameSlot.pending (h : SameSlot r r') : r'.tenure.pending = r.tenure.pending :=
  congrArg Prod.snd h

theorem SameWarrant.lead (h : SameWarrant r r') : r'.warrant.lead = r.warrant.lead :=
  congrArg Prod.fst h

theorem SameWarrant.mint (h : SameWarrant r r') : r'.warrant.mint = r.warrant.mint :=
  congrArg Prod.snd h

theorem SamePost.gate (h : SamePost r r') : r'.post.gate = r.post.gate :=
  congrArg Prod.fst h.station

theorem SamePost.writeGate (h : SamePost r r') : r'.post.writeGate = r.post.writeGate :=
  congrArg (fun x => x.2.1) h.station

theorem SamePost.background (h : SamePost r r') : r'.post.background = r.post.background :=
  congrArg (fun x => x.2.2.1) h.station

theorem SamePost.flight (h : SamePost r r') : r'.flight = r.flight :=
  congrArg (fun x => x.2.2.2) h.station

theorem SameHold.toSamePin (h : SameHold r r') : SamePin r r' :=
  congrArg Prod.fst h

theorem SameHold.toSameLatch (h : SameHold r r') : SameLatch r r' :=
  congrArg (Prod.fst ∘ Prod.snd) h

theorem SameHold.toSamePlace (h : SameHold r r') : SamePlace r r' :=
  congrArg (Prod.snd ∘ Prod.snd) h

theorem SameRest.toSameSlot (h : SameRest r r') : SameSlot r r' :=
  congrArg Prod.fst h

theorem SameRest.toSameWarrant (h : SameRest r r') : SameWarrant r r' :=
  congrArg (Prod.fst ∘ Prod.snd) h

theorem SameRest.toSamePost (h : SameRest r r') : SamePost r r' :=
  ⟨congrArg (fun x => x.2.2.1) h, fun hc => (congrArg (fun x => x.2.2.2) h).symm.trans hc⟩

end Same

theorem SamePost.inFlight (h : SamePost r r') : r'.inFlight = r.inFlight := by
  unfold Role.inFlight
  rw [h.flight]

/-- No part of the invariant reads what has changed. -/
structure Quiet (sh sh' : Shared) : Prop where
  words : sh'.words = sh.words
  store : sh'.store = sh.store

theorem Quiet.swips (h : Quiet sh sh') : sh'.swips = sh.swips :=
  congrArg Store.swips h.store

theorem Change.minter (m : Change R R' a r r') (h : Sole (fun a => (R a).warrant.mint))
    (hm : r'.warrant.mint = r.warrant.mint) : Sole (fun a => (R' a).warrant.mint) :=
  h.keep (a := a) (fun b hb => by rw [m.others b hb]) (by rw [m.after, m.before, hm])

theorem Storage.keep {st : Store} (h : Storage cfg st R) (m : Change R R' a r r')
    (hs : r'.slot = r.slot) (hp : r'.tenure.pending = r.tenure.pending) :
    Storage cfg st R' where
  named := h.named
  injective := h.injective
  unborn := h.unborn
  holder := h.holder.keep (a := a) (fun b hb => by rw [m.others b hb])
    (by rw [m.after, m.before, hs])
  held := fun b l hb => h.held b l (by rw [← m.same (fun r => r.slot) hs b, hb])
  covered := fun l hl => by
    rw [m.exists_iff (fun r => r.slot) hs]
    exact h.covered l hl
  written := fun p => by
    rw [h.written p, m.exists_iff (fun r => r.tenure.pending) hp]

/-- Soundness for everyone: for the agent that moved, and for the others. -/
theorem Change.sound {st : Store} (m : Change R R' a r r') (ha : Sound cfg st r')
    (ho : ∀ b, b ≠ a → Sound cfg st (R b)) (b : Agent) : Sound cfg st (R' b) := by
  by_cases hb : b = a
  · rw [hb, m.after]
    exact ha
  · rw [m.others b hb]
    exact ho b hb

/-! ### Soundness of a new role -/

section SoundRoles

variable {st : Store} {r r' : Role}

/-- A new hold without a draft or a slot, with everything else as it was. -/
theorem Sound.hold (h : Sound cfg st r) (hb : r'.bond = r.bond) (ht : r'.tenure.Sound cfg st)
    (hd : (r'.tenure.draft, r'.tenure.newSlot) = (none, none)) : Sound cfg st r' where
  tenure := ht
  warrant := by
    have hw : r'.warrant = r.warrant := congrArg Prod.fst hb
    rw [hw]
    exact h.warrant
  post := by
    have hp : r'.post = r.post := congrArg (fun x => x.2.1) hb
    rw [hp]
    exact h.post
  active := by
    have hw : r'.warrant = r.warrant := congrArg Prod.fst hb
    have hp : r'.post = r.post := congrArg (fun x => x.2.1) hb
    rw [hw, hp]
    exact h.active
  draft := fun d hc => by cases (congrArg Prod.fst hd).symm.trans hc
  slot := fun l hc => by cases (congrArg Prod.snd hd).symm.trans hc
  checked := by
    have hk : r'.checked = r.checked := congrArg (fun x => x.2.2) hb
    rw [hk]
    exact h.checked

/-- A role that leads no fault and makes no page. -/
theorem Sound.plain (ht : r.tenure.Sound cfg st) (hw : r.warrant.Sound cfg st)
    (hp : r.post.Sound cfg st)
    (hn : (r.claims, r.tenure.draft, r.tenure.newSlot) = ((none, none), none, none))
    (hk : r.checked) : Sound cfg st r where
  tenure := ht
  warrant := hw
  post := hp
  active := fun hc => by
    have hl : r.warrant.lead = none := congrArg (fun x => x.1.1) hn
    have hm : r.warrant.mint = none := congrArg (fun x => x.1.2) hn
    rcases hc with hc | hc
    · exact absurd hl hc
    · exact absurd hm hc
  draft := fun d hc => by cases (congrArg (fun x => x.2.1) hn).symm.trans hc
  slot := fun l hc => by cases (congrArg (fun x => x.2.2) hn).symm.trans hc
  checked := hk

/-- An agent with nothing in its hands. -/
theorem Sound.bystander {post : Post} {flight : Bool} (hp : post.Sound cfg st) :
    Sound cfg st { Role.bystander with post := post, flight := flight } :=
  .plain trivial trivial hp rfl trivial

/-- What an agent knows about its page does not depend on the frames. -/
theorem Sound.bare {data : Nat → Page} {pid : Nat → PageId} {owner : Nat → Option SwipId}
    {dirty : Nat → Bool} (h : Sound cfg st r) :
    Sound cfg { st with data := data, pid := pid, ownerSwip := owner, dirty := dirty }
      { r with tenure := .none } where
  tenure := trivial
  warrant := h.warrant.of_eq rfl rfl rfl rfl rfl
  post := h.post.of_eq rfl rfl rfl
  active := h.active
  draft := nofun
  slot := nofun
  checked := h.checked

end SoundRoles

/-! ### Outcomes -/

/-- Every outcome of a step of agent `a` satisfies the invariant. -/
def Keeps (cfg : Config) (R : Agent → Role) (a : Agent) (o : Stepped) : Prop :=
  ∀ sh' pc', o = some (sh', pc') → Inv cfg sh' (update R a (pc'.role cfg))

theorem Keeps.none : Keeps cfg R a none :=
  fun _ _ h => by cases h

theorem Keeps.some (h : Inv cfg sh (update R a (pc.role cfg))) : Keeps cfg R a (some (sh, pc)) := by
  intro sh' pc' ho
  cases ho
  exact h

/-! ### Role changes -/

/-- A step that leaves the words of the agents alone. -/
theorem Inv.withStore (h : Inv cfg sh R) (m : Change R R' a r r') (hw : sh'.words = sh.words)
    (hpin : SamePin r r') (hlatch : SameLatch r r') (hpost : SamePost r r')
    (hflag : r'.tenure.flag = r.tenure.flag) (hlead : r'.warrant.lead = r.warrant.lead)
    (hminter : Sole (fun a => (R' a).warrant.mint)) (hplaces : Places cfg sh.free sh'.swips R')
    (hcells : Cells cfg sh'.store) (hstorage : Storage cfg sh'.store R')
    (hsound : Sound cfg sh'.store r') (hothers : ∀ b, b ≠ a → Sound cfg sh'.store (R b)) :
    Inv cfg sh' R' := by
  have hpins : sh'.pinControl = sh.pinControl := congrArg Words.pinControl hw
  have hlatches : sh'.latch = sh.latch := congrArg Words.latch hw
  have hgate : sh'.operationGate = sh.operationGate := congrArg Words.gate hw
  have hfaults : sh'.faults = sh.faults := congrArg Words.faults hw
  have hflight : sh'.prefetchInFlight = sh.prefetchInFlight := congrArg Words.inFlight hw
  have hworkers : sh'.workers = sh.workers := congrArg Words.workers hw
  have hjoined : sh'.joined = sh.joined := congrArg Words.joined hw
  have hstopping : sh'.stopping = sh.stopping := congrArg Words.stopping hw
  have hfree : sh'.free = sh.free := congrArg Words.free hw
  have hmembership : sh'.freeMembership = sh.freeMembership := congrArg Words.membership hw
  refine ⟨?_, ?_, ?_, ?_, ?_, hminter, ?_, ?_, hcells, hstorage, m.sound hsound hothers⟩
  · rw [hpins]
    exact h.pins.keep m hpin.pin hpin.reservation
  · rw [hlatches]
    exact h.latches.keep m hlatch.shared hlatch.exclusive
  · rw [hgate]
    exact h.gate.keep m hpost.gate hpost.writeGate
  · rw [hfaults]
    exact h.leads.keep m hlead
  · rw [hflight, hworkers, hjoined, hstopping]
    exact h.background.keep m hpost.inFlight hpost.background (fun hc => .inl (hpost.active hc))
  · rw [hfree, hmembership]
    exact h.queue.keep m hflag
  · rw [hfree]
    exact hplaces

/-- The role of the moving agent changes, and what the invariant counts does
    not; the agent may have less to do. -/
theorem Inv.retreat (h : Inv cfg sh R) (hR : R a = r) (hsound : Sound cfg sh.store (pc.role cfg))
    (hq : Quiet sh sh') (hhold : SameHold r (pc.role cfg)) (hslot : SameSlot r (pc.role cfg))
    (hwarrant : SameWarrant r (pc.role cfg)) (hpost : SamePost r (pc.role cfg)) :
    Keeps cfg R a (some (sh', pc)) := by
  have m := Change.to hR (pc.role cfg)
  refine .some (h.withStore m hq.words hhold.toSamePin hhold.toSameLatch hpost
    hhold.toSamePlace.flag hwarrant.lead (m.minter h.minter hwarrant.mint) ?_ ?_ ?_ ?_ ?_)
  · rw [hq.swips]
    exact h.places.keep m hhold.toSamePlace.own
  · rw [hq.store]
    exact h.cells
  · rw [hq.store]
    exact h.storage.keep m hslot.slot hslot.pending
  · rw [hq.store]
    exact hsound
  · intro b _
    rw [hq.store]
    exact h.sound b

theorem Inv.reassign (h : Inv cfg sh R) (hR : R a = r) (hsound : Sound cfg sh.store (pc.role cfg))
    (hq : Quiet sh sh') (hhold : SameHold r (pc.role cfg)) (hrest : SameRest r (pc.role cfg)) :
    Keeps cfg R a (some (sh', pc)) :=
  h.retreat hR hsound hq hhold hrest.toSameSlot hrest.toSameWarrant hrest.toSamePost

/-- The agent moves on in the same role. -/
theorem Inv.quiet (h : Inv cfg sh R) (hR : R a = pc.role cfg) (hq : Quiet sh sh') :
    Keeps cfg R a (some (sh', pc)) :=
  h.reassign hR (hR ▸ h.sound a) hq rfl rfl

theorem Inv.stay (h : Inv cfg sh R) (hR : R a = pc.role cfg) : Keeps cfg R a (some (sh, pc)) :=
  h.quiet hR ⟨rfl, rfl⟩

/-! ### Steps on a pin word -/

section PinWord

variable {i w : Nat}

/-- A step on a pin word changes nothing else. -/
theorem Inv.withPins (h : Inv cfg sh R) (m : Change R R' a r r')
    (hsound : Sound cfg sh.store r') (hpins : Pins (update sh.pinControl i w) R')
    (hsame : r'.butPins = r.butPins) : Inv cfg (sh.setPin i w) R' := by
  have hlatch : SameLatch r r' := congrArg Prod.fst hsame
  have hplace : SamePlace r r' := congrArg (Prod.fst ∘ Prod.snd) hsame
  have hrest : SameRest r r' := congrArg (Prod.snd ∘ Prod.snd) hsame
  have hpost : SamePost r r' := hrest.toSamePost
  exact ⟨hpins, h.latches.keep m hlatch.shared hlatch.exclusive,
    h.gate.keep m hpost.gate hpost.writeGate, h.leads.keep m hrest.toSameWarrant.lead,
    h.background.keep m hpost.inFlight hpost.background (fun hc => .inl (hpost.active hc)),
    m.minter h.minter hrest.toSameWarrant.mint, h.queue.keep m hplace.flag,
    h.places.keep m hplace.own, h.cells,
    h.storage.keep m hrest.toSameSlot.slot hrest.toSameSlot.pending,
    m.sound hsound (fun b _ => h.sound b)⟩

theorem Inv.pin (h : Inv cfg sh R) (hR : R a = r) (hsound : Sound cfg sh.store (pc.role cfg))
    (hw : tryPin (sh.pinControl i) = some w)
    {v : Option Nat} (hp : r.pins = (none, v)) (hp' : (pc.role cfg).pins = (some i, v))
    (hsame : (pc.role cfg).butPins = r.butPins) :
    Keeps cfg R a (some (sh.setPin i w, pc)) := by
  have m := Change.to hR (pc.role cfg)
  exact .some (h.withPins m hsound (h.pins.pin m hw (congrArg Prod.fst hp) (congrArg Prod.fst hp')
    ((congrArg Prod.snd hp').trans (congrArg Prod.snd hp).symm)) hsame)

theorem Inv.claim (h : Inv cfg sh R) (hR : R a = r) (hsound : Sound cfg sh.store (pc.role cfg))
    (hw : tryClaimEviction (sh.pinControl i) = some w)
    {v : Option Nat} (hp : r.pins = (v, none)) (hp' : (pc.role cfg).pins = (v, some i))
    (hsame : (pc.role cfg).butPins = r.butPins) :
    Keeps cfg R a (some (sh.setPin i w, pc)) := by
  have m := Change.to hR (pc.role cfg)
  exact .some (h.withPins m hsound (h.pins.claim m hw (congrArg Prod.snd hp) (congrArg Prod.snd hp')
    ((congrArg Prod.fst hp').trans (congrArg Prod.fst hp).symm)) hsame)

theorem Inv.unpin (h : Inv cfg sh R) (hR : R a = r) (hsound : Sound cfg sh.store (pc.role cfg))
    {v : Option Nat} (hp : r.pins = (some i, v)) (hp' : (pc.role cfg).pins = (none, v))
    (hsame : (pc.role cfg).butPins = r.butPins) : Keeps cfg R a (sh.unpin i pc) := by
  have m := Change.to hR (pc.role cfg)
  rcases h.pins.unpin m (congrArg Prod.fst hp) (congrArg Prod.fst hp')
    ((congrArg Prod.snd hp').trans (congrArg Prod.snd hp).symm) with ⟨w, hw, hpins⟩
  unfold Shared.unpin
  rw [hw]
  exact .some (h.withPins m hsound hpins hsame)

theorem Inv.release (h : Inv cfg sh R) (hR : R a = r) (hsound : Sound cfg sh.store (pc.role cfg))
    {v : Option Nat} (hp : r.pins = (v, some i)) (hp' : (pc.role cfg).pins = (v, none))
    (hsame : (pc.role cfg).butPins = r.butPins) :
    Keeps cfg R a (sh.releaseReservation i pc) := by
  have m := Change.to hR (pc.role cfg)
  rcases h.pins.release m (congrArg Prod.snd hp) (congrArg Prod.snd hp')
    ((congrArg Prod.fst hp').trans (congrArg Prod.fst hp).symm) with ⟨hw, hpins⟩
  unfold Shared.releaseReservation
  rw [hw]
  exact .some (h.withPins m hsound hpins hsame)

/-- The outcome is left to the caller, which goes on from the word `1`. -/
theorem Inv.publishPin (h : Inv cfg sh R) (hR : R a = r)
    (hsound : Sound cfg sh.store (pc.role cfg))
    (hp : r.pins = (none, some i)) (hp' : (pc.role cfg).pins = (some i, none))
    (hsame : (pc.role cfg).butPins = r.butPins) :
    Keeps cfg R a (match publishReservedPin (sh.pinControl i) with
      | some w => some (sh.setPin i w, pc)
      | none => some (sh, .panicked .publishReservedPin)) := by
  have m := Change.to hR (pc.role cfg)
  rcases h.pins.publish m (congrArg Prod.snd hp) (congrArg Prod.snd hp') (congrArg Prod.fst hp)
    (congrArg Prod.fst hp') with ⟨hw, hpins⟩
  rw [hw]
  exact .some (h.withPins m hsound hpins hsame)

end PinWord

/-! ### Steps on a latch -/

section LatchWord

variable {i : Nat} {l : HybridLatch} {exclusive : Bool}

/-- A step on a latch changes nothing else. -/
theorem Inv.withLatch (h : Inv cfg sh R) (m : Change R R' a r r')
    (hsound : Sound cfg sh.store r') (hlatches : Latches (update sh.latch i l) R')
    (hsame : r'.butLatches = r.butLatches) : Inv cfg (sh.setLatch i l) R' := by
  have hpin : SamePin r r' := congrArg Prod.fst hsame
  have hplace : SamePlace r r' := congrArg (Prod.fst ∘ Prod.snd) hsame
  have hrest : SameRest r r' := congrArg (Prod.snd ∘ Prod.snd) hsame
  have hpost : SamePost r r' := hrest.toSamePost
  exact ⟨h.pins.keep m hpin.pin hpin.reservation, hlatches,
    h.gate.keep m hpost.gate hpost.writeGate, h.leads.keep m hrest.toSameWarrant.lead,
    h.background.keep m hpost.inFlight hpost.background (fun hc => .inl (hpost.active hc)),
    m.minter h.minter hrest.toSameWarrant.mint, h.queue.keep m hplace.flag,
    h.places.keep m hplace.own, h.cells,
    h.storage.keep m hrest.toSameSlot.slot hrest.toSameSlot.pending,
    m.sound hsound (fun b _ => h.sound b)⟩

theorem Inv.lock (h : Inv cfg sh R) (hR : R a = r) (hsound : Sound cfg sh.store (pc.role cfg))
    (h0 : r.tenure.latched exclusive = none)
    (h1 : (pc.role cfg).tenure.latched exclusive = some i)
    (hk : (pc.role cfg).tenure.latched (!exclusive) = r.tenure.latched (!exclusive))
    (hsame : (pc.role cfg).butLatches = r.butLatches) :
    Keeps cfg R a (sh.lockLatch i exclusive pc) := by
  have m := Change.to hR (pc.role cfg)
  unfold Shared.lockLatch
  cases hl : (sh.latch i).lock exclusive with
  | none => exact .none
  | some l =>
      exact .some (h.withLatch m hsound (h.latches.lock m hl h0 h1 hk) hsame)

theorem Inv.unlock (h : Inv cfg sh R) (hR : R a = r) (hsound : Sound cfg sh.store (pc.role cfg))
    (h0 : r.tenure.latched exclusive = some i)
    (h1 : (pc.role cfg).tenure.latched exclusive = none)
    (hk : (pc.role cfg).tenure.latched (!exclusive) = r.tenure.latched (!exclusive))
    (hsame : (pc.role cfg).butLatches = r.butLatches) :
    Keeps cfg R a (sh.unlatch i exclusive pc) := by
  have m := Change.to hR (pc.role cfg)
  rcases h.latches.release m h0 h1 hk with ⟨l, hl, hlatches⟩
  unfold Shared.unlatch
  rw [hl]
  exact .some (h.withLatch m hsound hlatches hsame)

end LatchWord

/-! ### Steps on the free queue -/

section FreeQueue

variable {i : Nat} {rest : List Nat}

theorem own_of_flag {t : Tenure} (h : t.flag = some i) : t.own = some i := by
  cases t with
  | owned j reserved latched flagged d =>
      cases flagged with
      | false => exact absurd h nofun
      | true => exact h
  | _ => exact absurd h nofun

theorem Inv.flag_sole (h : Inv cfg sh R) (ho : (R a).tenure.own = some i) (b : Agent)
    (hb : (R b).tenure.flag = some i) : b = a :=
  h.places.owner b a i (own_of_flag hb) ho

/-- A step on the queue or a flag changes nothing else. -/
theorem Inv.withQueue {free : List Nat} {flags : Nat → Bool} (h : Inv cfg sh R)
    (m : Change R R' a r r') (hsound : Sound cfg sh.store r') (hqueue : Queue cfg free flags R')
    (hplaces : Places cfg free sh.swips R') (hsame : r'.butPlaces = r.butPlaces) :
    Inv cfg { sh with free := free, freeMembership := flags } R' := by
  have hpin : SamePin r r' := congrArg Prod.fst hsame
  have hlatch : SameLatch r r' := congrArg (Prod.fst ∘ Prod.snd) hsame
  have hrest : SameRest r r' := congrArg (Prod.snd ∘ Prod.snd) hsame
  have hpost : SamePost r r' := hrest.toSamePost
  exact ⟨h.pins.keep m hpin.pin hpin.reservation, h.latches.keep m hlatch.shared hlatch.exclusive,
    h.gate.keep m hpost.gate hpost.writeGate, h.leads.keep m hrest.toSameWarrant.lead,
    h.background.keep m hpost.inFlight hpost.background (fun hc => .inl (hpost.active hc)),
    m.minter h.minter hrest.toSameWarrant.mint, hqueue, hplaces, h.cells,
    h.storage.keep m hrest.toSameSlot.slot hrest.toSameSlot.pending,
    m.sound hsound (fun b _ => h.sound b)⟩

theorem Inv.pop (h : Inv cfg sh R) (hR : R a = r) (hsound : Sound cfg sh.store (pc.role cfg))
    (hfree : sh.free = i :: rest)
    (hp : r.places = (none, none)) (hp' : (pc.role cfg).places = (some i, some i))
    (hsame : (pc.role cfg).butPlaces = r.butPlaces) :
    Keeps cfg R a (some ({ sh with free := rest }, pc)) := by
  have m := Change.to hR (pc.role cfg)
  have hqueue := h.queue
  have hplaces := h.places
  rw [hfree] at hqueue hplaces
  exact .some (h.withQueue m hsound (hqueue.pop m (congrArg Prod.snd hp) (congrArg Prod.snd hp'))
    (hplaces.pop m (hqueue.bounded i List.mem_cons_self) hqueue.nodup (congrArg Prod.fst hp)
      (congrArg Prod.fst hp')) hsame)

theorem Inv.unflag (h : Inv cfg sh R) (hR : R a = r) (hsound : Sound cfg sh.store (pc.role cfg))
    (hp : r.places = (some i, some i)) (hp' : (pc.role cfg).places = (some i, none))
    (hsame : (pc.role cfg).butPlaces = r.butPlaces) : Keeps cfg R a (sh.leaveQueue i pc) := by
  have m := Change.to hR (pc.role cfg)
  have hf : r.tenure.flag = some i := congrArg Prod.snd hp
  have hf' : (pc.role cfg).tenure.flag = none := congrArg Prod.snd hp'
  have ho : (pc.role cfg).tenure.own = r.tenure.own :=
    (congrArg Prod.fst hp').trans (congrArg Prod.fst hp).symm
  have hown : (R a).tenure.own = some i := by
    rw [hR]
    exact own_of_flag hf
  rcases h.places.owned a i hown with ⟨hi, hq, -⟩
  rcases h.queue.unflag m hi hf hf' hq (h.flag_sole hown) with ⟨htrue, hqueue⟩
  unfold Shared.leaveQueue
  rw [if_pos htrue]
  exact .some (h.withQueue m hsound hqueue (h.places.keep m ho) hsame)

theorem Inv.flag (h : Inv cfg sh R) (hR : R a = r) (hsound : Sound cfg sh.store (pc.role cfg))
    (hp : r.places = (some i, none)) (hp' : (pc.role cfg).places = (some i, some i))
    (hsame : (pc.role cfg).butPlaces = r.butPlaces) :
    Keeps cfg R a (sh.enterQueue cfg i pc) := by
  have m := Change.to hR (pc.role cfg)
  have ho : r.tenure.own = some i := congrArg Prod.fst hp
  have ho' : (pc.role cfg).tenure.own = some i := congrArg Prod.fst hp'
  have hf : r.tenure.flag = none := congrArg Prod.snd hp
  have hf' : (pc.role cfg).tenure.flag = some i := congrArg Prod.snd hp'
  have hown : (R a).tenure.own = some i := by rw [hR, ho]
  rcases h.places.owned a i hown with ⟨hi, hq, -⟩
  rcases h.queue.flag m hi hf hf' hq (h.flag_sole hown) with ⟨hfalse, hqueue⟩
  unfold Shared.enterQueue
  rw [if_neg]
  · exact .some (h.withQueue m hsound hqueue (h.places.keep m (ho'.trans ho.symm)) hsame)
  · rintro (hc | hc)
    · exact absurd hi (Nat.not_lt.mpr hc)
    · rw [hfalse] at hc
      exact absurd hc nofun

theorem Inv.push (h : Inv cfg sh R) (hR : R a = r) (hsound : Sound cfg sh.store (pc.role cfg))
    (hp : r.places = (some i, some i)) (hp' : (pc.role cfg).places = (none, none))
    (hsame : (pc.role cfg).butPlaces = r.butPlaces) :
    Keeps cfg R a (sh.pushFree cfg i pc) := by
  have m := Change.to hR (pc.role cfg)
  have ho : r.tenure.own = some i := congrArg Prod.fst hp
  have ho' : (pc.role cfg).tenure.own = none := congrArg Prod.fst hp'
  have hf : r.tenure.flag = some i := congrArg Prod.snd hp
  have hf' : (pc.role cfg).tenure.flag = none := congrArg Prod.snd hp'
  have hown : (R a).tenure.own = some i := by rw [hR, ho]
  rcases h.places.owned a i hown with ⟨hi, hq, -⟩
  unfold Shared.pushFree
  rw [if_pos (h.queue.room hi hq)]
  exact .some (h.withQueue m hsound (h.queue.push m hi hf hf' hq) (h.places.push m ho ho') hsame)

end FreeQueue

/-! ### Sections of the fault coordinator -/

section FaultSection

variable {p : PageId} {f : FaultState}

/-- A section of the coordinator changes nothing else. -/
theorem Inv.withFaults (h : Inv cfg sh R) (m : Change R R' a r r') (hsound : Sound cfg sh.store r')
    (hleads : Leads (update sh.faults p f) R') (hmint : r'.warrant.mint = r.warrant.mint)
    (hhold : SameHold r r') (hslot : SameSlot r r') (hpost : SamePost r r') :
    Inv cfg { sh with faults := update sh.faults p f } R' where
  pins := h.pins.keep m hhold.toSamePin.pin hhold.toSamePin.reservation
  latches := h.latches.keep m hhold.toSameLatch.shared hhold.toSameLatch.exclusive
  gate := h.gate.keep m hpost.gate hpost.writeGate
  leads := hleads
  background :=
    h.background.keep m hpost.inFlight hpost.background (fun hc => .inl (hpost.active hc))
  minter := m.minter h.minter hmint
  queue := h.queue.keep m hhold.toSamePlace.flag
  places := h.places.keep m hhold.toSamePlace.own
  cells := h.cells
  storage := h.storage.keep m hslot.slot hslot.pending
  sound := m.sound hsound (fun b _ => h.sound b)

/-- A section that elects and retires no leader. -/
theorem Inv.record (h : Inv cfg sh R) (hR : R a = r) (hsound : Sound cfg sh.store (pc.role cfg))
    (hf : f.active.isSome = (sh.faults p).active.isSome)
    (hhold : SameHold r (pc.role cfg)) (hslot : SameSlot r (pc.role cfg))
    (hwarrant : SameWarrant r (pc.role cfg)) (hpost : SamePost r (pc.role cfg)) :
    Keeps cfg R a (some ({ sh with faults := update sh.faults p f }, pc)) := by
  have m := Change.to hR (pc.role cfg)
  exact .some (h.withFaults m hsound (h.leads.record m hwarrant.lead hf) hwarrant.mint hhold hslot
    hpost)

theorem Inv.elect (h : Inv cfg sh R) (hR : R a = r) (hsound : Sound cfg sh.store (pc.role cfg))
    (hidle : (sh.faults p).active = none) (hf : f.active.isSome = true)
    {v : Option PageId} (h0 : r.claims = (none, v)) (h1 : (pc.role cfg).claims = (some p, v))
    (hhold : SameHold r (pc.role cfg)) (hslot : SameSlot r (pc.role cfg))
    (hpost : SamePost r (pc.role cfg)) :
    Keeps cfg R a (some ({ sh with faults := update sh.faults p f }, pc)) := by
  have m := Change.to hR (pc.role cfg)
  exact .some (h.withFaults m hsound
    (h.leads.elect m (congrArg Prod.fst h0) (congrArg Prod.fst h1) hidle hf)
    ((congrArg Prod.snd h1).trans (congrArg Prod.snd h0).symm) hhold hslot hpost)

theorem Inv.retire (h : Inv cfg sh R) (hR : R a = r) (hsound : Sound cfg sh.store (pc.role cfg))
    (hf : f.active = none) {v : Option PageId} (h0 : r.claims = (some p, v))
    (h1 : (pc.role cfg).claims = (none, v)) (hhold : SameHold r (pc.role cfg))
    (hslot : SameSlot r (pc.role cfg)) (hpost : SamePost r (pc.role cfg)) :
    Keeps cfg R a (some ({ sh with faults := update sh.faults p f }, pc)) := by
  have m := Change.to hR (pc.role cfg)
  exact .some (h.withFaults m hsound
    (h.leads.retire m (congrArg Prod.fst h0) (congrArg Prod.fst h1) hf)
    ((congrArg Prod.snd h1).trans (congrArg Prod.snd h0).symm) hhold hslot hpost)

end FaultSection

/-! ### Steps on the gate and the background counts -/

section Posts

variable {g : RwState} {n k : Nat}

/-- A step on the gate or a count changes nothing else. -/
theorem Inv.withPost (h : Inv cfg sh R) (m : Change R R' a r r') (hsound : Sound cfg sh.store r')
    (hgate : Gate g R') (hback : Background n k sh.joined sh.stopping R')
    (hsame : r'.butStation = r.butStation) :
    Inv cfg { sh with operationGate := g, prefetchInFlight := n, workers := k } R' := by
  have hhold : SameHold r r' := congrArg Prod.fst hsame
  have hslot : SameSlot r r' := congrArg (Prod.fst ∘ Prod.snd) hsame
  have hwarrant : SameWarrant r r' := congrArg (Prod.snd ∘ Prod.snd) hsame
  have hpin : SamePin r r' := hhold.toSamePin
  have hlatch : SameLatch r r' := hhold.toSameLatch
  have hplace : SamePlace r r' := hhold.toSamePlace
  exact ⟨h.pins.keep m hpin.pin hpin.reservation, h.latches.keep m hlatch.shared hlatch.exclusive,
    hgate, h.leads.keep m hwarrant.lead, hback, m.minter h.minter hwarrant.mint,
    h.queue.keep m hplace.flag, h.places.keep m hplace.own, h.cells,
    h.storage.keep m hslot.slot hslot.pending, m.sound hsound (fun b _ => h.sound b)⟩

/-- The background part is kept where the post gains no activity. -/
theorem Inv.keepBackground (h : Inv cfg sh R) (m : Change R R' a r r')
    (hf : r'.flight = r.flight) (hb : r'.post.background = r.post.background)
    (hact : r'.post.active = true → r.post.active = true) :
    Background sh.prefetchInFlight sh.workers sh.joined sh.stopping R' :=
  h.background.keep m (by unfold Role.inFlight; rw [hf]) hb (fun hc => .inl (hact hc))

theorem Inv.enterGate (h : Inv cfg sh R) (hR : R a = r) (hsound : Sound cfg sh.store (pc.role cfg))
    (hg : sh.operationGate = .shared n)
    {v : Option Unit × Option Unit × Bool} (h0 : r.station = (none, v))
    (h1 : (pc.role cfg).station = (some (), v))
    (hact : (pc.role cfg).post.active = true → r.post.active = true)
    (hsame : (pc.role cfg).butStation = r.butStation) :
    Keeps cfg R a (some ({ sh with operationGate := .shared (n + 1) }, pc)) := by
  have m := Change.to hR (pc.role cfg)
  have hgate := h.gate
  rw [hg] at hgate
  have hback := h.keepBackground m
    ((congrArg (fun x => x.2.2.2) h1).trans (congrArg (fun x => x.2.2.2) h0).symm)
    ((congrArg (fun x => x.2.2.1) h1).trans (congrArg (fun x => x.2.2.1) h0).symm) hact
  exact .some (h.withPost m hsound (hgate.enter m (congrArg Prod.fst h0) (congrArg Prod.fst h1)
      ((congrArg (fun x => x.2.1) h1).trans (congrArg (fun x => x.2.1) h0).symm)) hback hsame)

/-- The outcome is left to the caller, which goes on from a positive count. -/
theorem Inv.leaveGate (h : Inv cfg sh R) (hR : R a = r) (pc : Pc)
    (hsound : Sound cfg sh.store (pc.role cfg))
    {v : Option Unit × Option Unit × Bool} (h0 : r.station = (some (), v))
    (h1 : (pc.role cfg).station = (none, v))
    (hact : (pc.role cfg).post.active = true → r.post.active = true)
    (hsame : (pc.role cfg).butStation = r.butStation) :
    ∃ n, sh.operationGate = .shared (n + 1) ∧
      Keeps cfg R a (some ({ sh with operationGate := .shared n }, pc)) := by
  have m := Change.to hR (pc.role cfg)
  have hback := h.keepBackground m
    ((congrArg (fun x => x.2.2.2) h1).trans (congrArg (fun x => x.2.2.2) h0).symm)
    ((congrArg (fun x => x.2.2.1) h1).trans (congrArg (fun x => x.2.2.1) h0).symm) hact
  rcases h.gate.leave m (congrArg Prod.fst h0) (congrArg Prod.fst h1)
      ((congrArg (fun x => x.2.1) h1).trans (congrArg (fun x => x.2.1) h0).symm) with
    ⟨n, hn, hgate⟩
  exact ⟨n, hn, .some (h.withPost m hsound hgate hback hsame)⟩

theorem Inv.shut (h : Inv cfg sh R) (hR : R a = r) (hsound : Sound cfg sh.store (pc.role cfg))
    (hg : sh.operationGate = .shared 0)
    {u : Option Unit} {v : Option Unit × Bool} (h0 : r.station = (u, none, v))
    (h1 : (pc.role cfg).station = (u, some (), v))
    (hact : (pc.role cfg).post.active = true → r.post.active = true)
    (hsame : (pc.role cfg).butStation = r.butStation) :
    Keeps cfg R a (some ({ sh with operationGate := .exclusive }, pc)) := by
  have m := Change.to hR (pc.role cfg)
  have hgate := h.gate
  rw [hg] at hgate
  have hback := h.keepBackground m
    ((congrArg (fun x => x.2.2.2) h1).trans (congrArg (fun x => x.2.2.2) h0).symm)
    ((congrArg (fun x => x.2.2.1) h1).trans (congrArg (fun x => x.2.2.1) h0).symm) hact
  exact .some (h.withPost m hsound (hgate.shut m (congrArg (fun x => x.2.1) h0)
    (congrArg (fun x => x.2.1) h1) ((congrArg Prod.fst h1).trans (congrArg Prod.fst h0).symm))
    hback hsame)

theorem Inv.reopen (h : Inv cfg sh R) (hR : R a = r) (hsound : Sound cfg sh.store (pc.role cfg))
    {u : Option Unit} {v : Option Unit × Bool} (h0 : r.station = (u, some (), v))
    (h1 : (pc.role cfg).station = (u, none, v))
    (hact : (pc.role cfg).post.active = true → r.post.active = true)
    (hsame : (pc.role cfg).butStation = r.butStation) :
    Keeps cfg R a (some ({ sh with operationGate := .shared 0 }, pc)) := by
  have m := Change.to hR (pc.role cfg)
  have hback := h.keepBackground m
    ((congrArg (fun x => x.2.2.2) h1).trans (congrArg (fun x => x.2.2.2) h0).symm)
    ((congrArg (fun x => x.2.2.1) h1).trans (congrArg (fun x => x.2.2.1) h0).symm) hact
  exact .some (h.withPost m hsound (h.gate.reopen m (congrArg (fun x => x.2.1) h0)
    (congrArg (fun x => x.2.1) h1) ((congrArg Prod.fst h1).trans (congrArg Prod.fst h0).symm))
    hback hsame)

/-- A manager that is running has not joined its workers. -/
theorem Inv.open_of_running (h : Inv cfg sh R) (hs : sh.stopping = false) : sh.joined = false := by
  cases hj : sh.joined with
  | false => rfl
  | true =>
      have hstop := (h.background.closed hj).1
      rw [hs] at hstop
      exact absurd hstop nofun

/-- The manager was seen running under the gate. -/
theorem Inv.operate (h : Inv cfg sh R) (hR : R a = r) (hsound : Sound cfg sh.store (pc.role cfg))
    (hs : sh.stopping = false)
    (ht : (pc.role cfg).station = r.station)
    (hsame : (pc.role cfg).butStation = r.butStation) :
    Keeps cfg R a (some (sh, pc)) := by
  have m := Change.to hR (pc.role cfg)
  have hg : (pc.role cfg).post.gate = r.post.gate := congrArg Prod.fst ht
  have he : (pc.role cfg).post.writeGate = r.post.writeGate := congrArg (fun x => x.2.1) ht
  have hb : (pc.role cfg).post.background = r.post.background := congrArg (fun x => x.2.2.1) ht
  have hf : (pc.role cfg).flight = r.flight := congrArg (fun x => x.2.2.2) ht
  exact .some (h.withPost m hsound (h.gate.keep m hg he)
    (h.background.keep m (by unfold Role.inFlight; rw [hf]) hb
      (fun _ => .inr (h.open_of_running hs))) hsame)

theorem Inv.depart (h : Inv cfg sh R) (hR : R a = r) (hsound : Sound cfg sh.store (pc.role cfg))
    (h0 : r.flight = false) (h1 : (pc.role cfg).flight = true)
    (hpost : (pc.role cfg).post = r.post)
    (hsame : (pc.role cfg).butStation = r.butStation) :
    Keeps cfg R a (some ({ sh with prefetchInFlight := sh.prefetchInFlight + 1 }, pc)) := by
  have m := Change.to hR (pc.role cfg)
  have hback := h.background.depart m (by unfold Role.inFlight; rw [h0]; rfl)
    (by unfold Role.inFlight; rw [h1]; rfl) (by rw [hpost]) (by rw [hpost])
  exact .some (h.withPost m hsound (h.gate.keep m (by rw [hpost]) (by rw [hpost])) hback
    hsame)

/-- The outcome is left to the caller, which goes on from a positive count. -/
theorem Inv.arrive (h : Inv cfg sh R) (hR : R a = r) (pc : Pc)
    (hsound : Sound cfg sh.store (pc.role cfg))
    (h0 : r.flight = true) (h1 : (pc.role cfg).flight = false)
    (hpost : (pc.role cfg).post = r.post)
    (hsame : (pc.role cfg).butStation = r.butStation) :
    ∃ n, sh.prefetchInFlight = n + 1 ∧
      Keeps cfg R a (some ({ sh with prefetchInFlight := n }, pc)) := by
  have m := Change.to hR (pc.role cfg)
  rcases h.background.arrive m (by unfold Role.inFlight; rw [h0]; rfl)
    (by unfold Role.inFlight; rw [h1]; rfl) (by rw [hpost]) (by rw [hpost]) with ⟨n, hn, hback⟩
  exact ⟨n, hn, .some (h.withPost m hsound (h.gate.keep m (by rw [hpost]) (by rw [hpost])) hback
    hsame)⟩

/-- A background thread begins a task or a cooling step. -/
theorem Inv.hire (h : Inv cfg sh R) (hR : R a = r) (hsound : Sound cfg sh.store (pc.role cfg))
    (hj : sh.joined = false) {channel : List Agent}
    (h0 : r.post = .none) (h1 : (pc.role cfg).post = .worker)
    (hf : (pc.role cfg).flight = r.flight)
    (hsame : (pc.role cfg).butStation = r.butStation) :
    Keeps cfg R a (some ({ sh with channel := channel, workers := sh.workers + 1 }, pc)) := by
  have m := Change.to hR (pc.role cfg)
  have hback := h.background.hire m (by rw [h0]; rfl) (by rw [h1]; rfl) hj
    (by unfold Role.inFlight; rw [hf])
  have hinv := h.withPost m hsound
    (h.gate.keep m (by rw [h0, h1]; rfl) (by rw [h0, h1]; rfl)) hback hsame
  exact .some { hinv with }

/-- A background thread ends a task or a cooling step. -/
theorem Inv.dismiss (h : Inv cfg sh R) (hR : R a = r) (hsound : Sound cfg sh.store (pc.role cfg))
    (h0 : r.post = .worker) (h1 : (pc.role cfg).post = .none)
    (hf : (pc.role cfg).flight = r.flight)
    (hsame : (pc.role cfg).butStation = r.butStation) :
    Keeps cfg R a (some ({ sh with workers := sh.workers - 1 }, pc)) := by
  have m := Change.to hR (pc.role cfg)
  have hback := h.background.dismiss m (by rw [h0]; rfl) (by rw [h1]; rfl) (by rw [h1]; rfl)
    (by unfold Role.inFlight; rw [hf])
  exact .some (h.withPost m hsound
    (h.gate.keep m (by rw [h0, h1]; rfl) (by rw [h0, h1]; rfl)) hback hsame)

end Posts

end TierBuf
