import Mathlib.Algebra.Order.BigOperators.Group.Finset
import Mathlib.Algebra.Order.Group.Multiset
import MicroWorkflow.LaneShares
import MicroWorkflow.Lib.Machine

set_option autoImplicit false

namespace MicroWorkflow

open Lib (Run)

variable {ε : Type}

structure LaneSettings where
  lanes : Nat
  total : Nat
  startBurst : Nat
  maxAdmissionBurst : Nat

def minAdmissionBurst : Nat := 16

inductive LanePhase where
  | serving
  | pulling (requested : Nat) (refill : Bool)
  | starting (rest : List Nat) (refill : Bool)
  | settling
  | left
deriving DecidableEq, Repr

structure FiberLane (ε : Type) where
  phase : LanePhase
  active : List Nat
  firstError : Option ε
  admissionBurst : Nat
  limit : Nat
  added : Nat
  started : List Nat
  abandoned : List Nat

def FiberLane.fresh (burst : Nat) : FiberLane ε := ⟨.serving, [], none, burst, 0, 0, [], []⟩

inductive FiberOutcome (ε : Type) where
  | suspends
  | returns
  | raises (error : ε)
  | unsupported (error : ε)

structure LanesRun (ε : Type) where
  registered : Finset Nat
  stopped : Bool
  lanes : Nat → FiberLane ε
  taken : Nat

def LanesRun.start (settings : LaneSettings) : LanesRun ε :=
  ⟨Finset.range settings.lanes, false, fun _ => .fresh (min settings.startBurst settings.maxAdmissionBurst), 0⟩

def refillFloor (limit : Nat) : Nat := if 64 ≤ limit then min 32 (max 1 (limit / 8)) else 1

def requestedItems (limit active burst : Nat) : Nat :=
  let capacity := limit - active
  if 0 < active ∧ 0 < capacity ∧ capacity < refillFloor limit then 0 else min capacity burst

def nextBurst (settings : LaneSettings) (lane : FiberLane ε) (requested added : Nat) : Nat :=
  let floor := min minAdmissionBurst settings.maxAdmissionBurst
  if 0 < requested ∧ added = requested ∧ lane.active.length + added < lane.limit then
    min settings.maxAdmissionBurst (max floor (requested * 2))
  else if added < requested then floor
  else lane.admissionBurst

def FiberLane.fail (lane : FiberLane ε) (error : ε) : FiberLane ε := { lane with firstError := lane.firstError.or (some error) }

def FiberLane.startFiber (lane : FiberLane ε) (item : Nat) : FiberOutcome ε → FiberLane ε
  | .suspends => { lane with active := lane.active ++ [item], started := lane.started ++ [item] }
  | .returns => { lane with started := lane.started ++ [item] }
  | .raises error => { lane.fail error with started := lane.started ++ [item] }
  | .unsupported error => { lane.fail error with started := lane.started ++ [item] }

def FiberLane.resumeFiber (lane : FiberLane ε) (place : Nat) : FiberOutcome ε → FiberLane ε
  | .suspends => lane
  | .returns => { lane with active := lane.active.eraseIdx place }
  | .raises error => { lane.fail error with active := lane.active.eraseIdx place }
  | .unsupported error => { lane.fail error with active := lane.active.eraseIdx place }

def FiberOutcome.stops : FiberOutcome ε → Bool
  | .raises _ => true
  | _ => false

def LanesRun.put (run : LanesRun ε) (number : Nat) (lane : FiberLane ε) : LanesRun ε :=
  { run with lanes := Function.update run.lanes number lane }

def LanesRun.leave (run : LanesRun ε) (number : Nat) : LanesRun ε :=
  { run.put number { run.lanes number with phase := .left } with registered := run.registered.erase number }

def LanesRun.stop (run : LanesRun ε) (stops : Bool) : LanesRun ε := { run with stopped := run.stopped || stops }

inductive LaneStep (ε : Type) where
  | admits
  | pulls (count : Nat) (waits : Bool)
  | fails
  | starts (outcome : FiberOutcome ε)
  | endsSlice
  | resumes (place : Nat) (outcome : FiberOutcome ε)
  | settles

def admitsBurst (settings : LaneSettings) (run : LanesRun ε) (number : Nat) (lane : FiberLane ε) : Option (LanesRun ε) :=
  if lane.firstError.isSome then some (run.put number { lane with phase := .settling, added := 0 })
  else
    match limitFor settings.total run.registered number with
    | none => if lane.active = [] then some (run.leave number) else none
    | some limit =>
        some (run.put number
          { lane with phase := .pulling (requestedItems limit lane.active.length lane.admissionBurst) false, limit := limit })

def pullsShared (settings : LaneSettings) (run : LanesRun ε) (number : Nat) (lane : FiberLane ε) (requested : Nat) (refill : Bool)
    (count : Nat) (waits : Bool) : Option (LanesRun ε) :=
  let items := List.range' run.taken count
  let after := { run with taken := run.taken + count }
  if requested < count ∨ run.stopped = true ∧ count ≠ 0 then none
  else if refill = false then
    some (after.put number
      { lane with phase := .starting items false, added := count, admissionBurst := nextBurst settings lane requested count })
  else if count = 0 then
    if waits = true ∧ run.stopped = false then some (after.put number { lane with phase := .serving })
      else some (after.leave number)
  else
    some (after.put number
      { lane with phase := .starting items true, admissionBurst := min minAdmissionBurst settings.maxAdmissionBurst })

def endsSlice (run : LanesRun ε) (number : Nat) (lane : FiberLane ε) (rest : List Nat) (refill : Bool) : Option (LanesRun ε) :=
  if lane.firstError.isSome ∨ rest = [] then
    some (run.put number
      { lane with phase := if refill then .serving else .settling, abandoned := lane.abandoned ++ rest })
  else none

def settles (settings : LaneSettings) (run : LanesRun ε) (number : Nat) (lane : FiberLane ε) : LanesRun ε :=
  if lane.active ≠ [] then run.put number { lane with phase := .serving }
  else if lane.firstError.isSome then run.leave number
  else if lane.limit = 0 then run.leave number
  else if lane.added = 0 then
    run.put number { lane with phase := .pulling (min lane.limit (min minAdmissionBurst settings.maxAdmissionBurst)) true }
  else run.put number { lane with phase := .serving }

-- One step of one lane. Fibers are resumed at any point of the loop outside a pull, which is more than the
-- service points of the loop allow. A pull or a wait that raises ends the lane, here with no active fiber.
def laneStep (settings : LaneSettings) (run : LanesRun ε) (number : Nat) (step : LaneStep ε) : Option (LanesRun ε) :=
  let lane := run.lanes number
  match step, lane.phase with
  | .admits, .serving => admitsBurst settings run number lane
  | .pulls count waits, .pulling requested refill => pullsShared settings run number lane requested refill count waits
  | .fails, .pulling _ _ => if lane.active = [] then some (run.leave number) else none
  | .starts outcome, .starting (item :: rest) refill =>
      if lane.firstError.isSome then none
      else some ((run.put number { lane.startFiber item outcome with phase := .starting rest refill }).stop outcome.stops)
  | .endsSlice, .starting rest refill => endsSlice run number lane rest refill
  | .resumes _ _, .pulling _ _ => none
  | .resumes place outcome, _ =>
      if place < lane.active.length then some ((run.put number (lane.resumeFiber place outcome)).stop outcome.stops) else none
  | .settles, .settling => some (settles settings run number lane)
  | _, _ => none

inductive LaneLabel (ε : Type) where
  | lane (number : Nat) (step : LaneStep ε)
  | stop

def lanesStep (settings : LaneSettings) (run : LanesRun ε) : LaneLabel ε → Option (LanesRun ε)
  | .lane number step => if number ∈ run.registered then laneStep settings run number step else none
  | .stop => some (run.stop true)

def LanesStep (settings : LaneSettings) (run : LanesRun ε) (label : LaneLabel ε) (next : LanesRun ε) : Prop :=
  lanesStep settings run label = some next

def FiberLane.held (lane : FiberLane ε) : List Nat :=
  match lane.phase with
  | .starting rest _ => rest
  | _ => []

def FiberLane.handled (lane : FiberLane ε) : List Nat := lane.started ++ lane.abandoned ++ lane.held

structure LanesKeep (settings : LaneSettings) (run : LanesRun ε) : Prop where
  shares : run.registered.Nonempty → ∑ lane ∈ run.registered, laneShare settings.total run.registered lane = settings.total
  within : ∀ lane ∈ run.registered,
    (run.lanes lane).active.length + (run.lanes lane).held.length ≤ laneShare settings.total run.registered lane
  active : ∑ lane ∈ Finset.range settings.lanes, ((run.lanes lane).active.length + (run.lanes lane).held.length) ≤ settings.total
  one : ∀ item < run.taken, ∃! lane, lane < settings.lanes ∧ item ∈ (run.lanes lane).handled
  once : ∀ lane < settings.lanes, (run.lanes lane).handled.Nodup
  gone : ∀ lane < settings.lanes, lane ∉ run.registered → (run.lanes lane).held = [] ∧ (run.lanes lane).active = []

def FiberLane.demand (lane : FiberLane ε) : Nat :=
  lane.active.length +
    match lane.phase with
    | .pulling requested _ => requested
    | .starting rest _ => rest.length
    | _ => 0

structure LaneFits (share : Nat) (lane : FiberLane ε) : Prop where
  demand : lane.demand ≤ share
  limit : lane.limit ≤ share
  refill : ∀ requested, lane.phase = .pulling requested true → lane.active = []

structure LanesSound (settings : LaneSettings) (run : LanesRun ε) : Prop where
  known : run.registered ⊆ Finset.range settings.lanes
  fits : ∀ lane ∈ run.registered, LaneFits (laneShare settings.total run.registered lane) (run.lanes lane)
  gone : ∀ lane < settings.lanes, lane ∉ run.registered → (run.lanes lane).held = [] ∧ (run.lanes lane).active = []
  handled : ∑ lane ∈ Finset.range settings.lanes, ((run.lanes lane).handled : Multiset Nat) = Multiset.range run.taken

section Steps

variable {settings : LaneSettings} {run next : LanesRun ε} {number share : Nat} {lane changed : FiberLane ε}

theorem start_sound_lanes : LanesSound settings (.start settings : LanesRun ε) where
  known := Finset.Subset.refl _
  fits := fun _ _ => ⟨Nat.zero_le _, Nat.zero_le _, nofun⟩
  gone := fun lane less absent => absurd (Finset.mem_range.mpr less) absent
  handled := by
    show ∑ lane ∈ Finset.range settings.lanes, (([] : List Nat) : Multiset Nat) = Multiset.range 0
    simp

theorem taken_more (taken count : Nat) :
    Multiset.range taken + (List.range' taken count : Multiset Nat) = Multiset.range (taken + count) := by
  have appended : List.range taken ++ List.range' taken count = List.range (taken + count) := by
    rw [List.range_eq_range', List.range_eq_range']
    simpa using List.range'_append_1 (s := 0) (m := taken) (n := count)
  show ((List.range taken ++ List.range' taken count : List Nat) : Multiset Nat) = (List.range (taken + count) : Multiset Nat)
  rw [appended]

theorem put_sound (sound : LanesSound settings run) (member : number ∈ run.registered)
    (fits : LaneFits (laneShare settings.total run.registered number) changed) (count : Nat)
    (handled : (changed.handled : Multiset Nat) = (run.lanes number).handled + List.range' run.taken count) :
    LanesSound settings { run.put number changed with taken := run.taken + count } := by
  have inside := sound.known member
  refine ⟨sound.known, fun lane listed => ?_, fun lane less absent => ?_, ?_⟩
  · by_cases same : lane = number
    · subst same
      simpa [LanesRun.put] using fits
    · simpa [LanesRun.put, same] using sound.fits lane listed
  · have different : lane ≠ number := fun same => absent (same ▸ member)
    simpa [LanesRun.put, different] using sound.gone lane less absent
  · have others : ∑ lane ∈ Finset.range settings.lanes \ {number},
      ((Function.update run.lanes number changed lane).handled : Multiset Nat) =
        ∑ lane ∈ Finset.range settings.lanes \ {number}, ((run.lanes lane).handled : Multiset Nat) := by
      refine Finset.sum_congr rfl fun lane listed => ?_
      have different : lane ≠ number := by
        simp only [Finset.mem_sdiff, Finset.mem_singleton] at listed
        exact listed.2
      rw [Function.update_of_ne different]
    have before := sound.handled
    rw [← Finset.sum_sdiff (Finset.singleton_subset_iff.mpr inside), Finset.sum_singleton] at before
    show ∑ lane ∈ Finset.range settings.lanes, ((Function.update run.lanes number changed lane).handled : Multiset Nat) = _
    rw [← Finset.sum_sdiff (Finset.singleton_subset_iff.mpr inside), Finset.sum_singleton, others, Function.update_self, handled,
      ← add_assoc, before]
    exact taken_more run.taken count

theorem put_quiet (sound : LanesSound settings run) (member : number ∈ run.registered)
    (fits : LaneFits (laneShare settings.total run.registered number) changed)
    (handled : (changed.handled : Multiset Nat) = (run.lanes number).handled) : LanesSound settings (run.put number changed) :=
  put_sound sound member fits 0 (by rw [handled, List.range'_zero, Multiset.coe_nil, add_zero])

theorem stop_sound (sound : LanesSound settings run) (stops : Bool) : LanesSound settings (run.stop stops) :=
  ⟨sound.known, sound.fits, sound.gone, sound.handled⟩

theorem leave_sound (sound : LanesSound settings run) (member : number ∈ run.registered) (idle : (run.lanes number).active = [])
    (unheld : (run.lanes number).held = []) : LanesSound settings (run.leave number) := by
  have same : (({ run.lanes number with phase := .left } : FiberLane ε).handled : Multiset Nat) = (run.lanes number).handled := by
    rw [FiberLane.handled, FiberLane.handled, unheld]
    rfl
  have still : LaneFits (laneShare settings.total run.registered number) { run.lanes number with phase := .left } := by
    refine ⟨?_, (sound.fits number member).limit, nofun⟩
    show (run.lanes number).active.length + 0 ≤ _
    rw [idle]
    exact Nat.zero_le _
  have stays := put_quiet sound member still same
  refine ⟨(Finset.erase_subset _ _).trans stays.known, fun lane listed => ?_, fun lane less absent => ?_, stays.handled⟩
  · have before := stays.fits lane (Finset.mem_of_mem_erase listed)
    have grows : laneShare settings.total _ lane ≤ laneShare settings.total _ lane := lane_share_grows listed
    exact ⟨before.demand.trans grows, before.limit.trans grows, before.refill⟩
  · by_cases here : lane = number
    · subst here
      simpa [LanesRun.leave, LanesRun.put, FiberLane.held] using idle
    · exact stays.gone lane less fun registered => absent (Finset.mem_erase.mpr ⟨here, registered⟩)

theorem active_within (fits : LaneFits share lane) : lane.active.length ≤ share := (Nat.le_add_right _ _).trans fits.demand

theorem held_within (fits : LaneFits share lane) : lane.active.length + lane.held.length ≤ share := by
  refine (Nat.add_le_add_left ?_ _).trans fits.demand
  cases phase : lane.phase with
  | starting rest refill => simp [FiberLane.held, phase]
  | pulling requested refill => simp [FiberLane.held, phase]
  | serving => simp [FiberLane.held, phase]
  | settling => simp [FiberLane.held, phase]
  | left => simp [FiberLane.held, phase]

def LanePhase.quiet : LanePhase → Bool
  | .pulling _ _ => false
  | .starting _ _ => false
  | _ => true

theorem fits_quiet (fits : LaneFits share lane) (limit : changed.limit = lane.limit)
    (fewer : changed.active.length ≤ lane.active.length) (quiet : changed.phase.quiet = true) : LaneFits share changed := by
  have within := active_within fits
  refine ⟨?_, limit ▸ fits.limit, fun requested pulling => ?_⟩
  · rw [FiberLane.demand]
    cases phase : changed.phase with
    | pulling requested refill =>
        rw [phase] at quiet
        cases quiet
    | starting rest refill =>
        rw [phase] at quiet
        cases quiet
    | serving => exact fewer.trans within
    | settling => exact fewer.trans within
    | left => exact fewer.trans within
  · rw [pulling] at quiet
    cases quiet

theorem requested_fits (limit active burst : Nat) : requestedItems limit active burst ≤ limit - active := by
  rw [requestedItems]
  split
  · exact Nat.zero_le _
  · exact min_le_left _ _

theorem admits_sound (sound : LanesSound settings run) (member : number ∈ run.registered)
    (serving : (run.lanes number).phase = .serving) (stepped : admitsBurst settings run number (run.lanes number) = some next) :
    LanesSound settings next := by
  have fits := sound.fits number member
  have unheld : (run.lanes number).held = [] := by rw [FiberLane.held, serving]
  rw [admitsBurst] at stepped
  by_cases failed : (run.lanes number).firstError.isSome = true
  · rw [if_pos failed] at stepped
    cases stepped
    refine put_quiet sound member (fits_quiet fits rfl (Nat.le_refl _) rfl) ?_
    rw [FiberLane.handled, FiberLane.handled, unheld]
    rfl
  · rw [if_neg failed, limitFor] at stepped
    by_cases nothing : settings.total < 1
    · rw [if_pos nothing] at stepped
      dsimp only at stepped
      by_cases idle : (run.lanes number).active = []
      · rw [if_pos idle] at stepped
        cases stepped
        exact leave_sound sound member idle unheld
      · rw [if_neg idle] at stepped
        cases stepped
    · rw [if_neg nothing, if_neg (not_not_intro member)] at stepped
      cases stepped
      refine put_quiet sound member ⟨?_, Nat.le_refl _, nofun⟩ ?_
      · have within := active_within fits
        have asked := requested_fits (laneShare settings.total run.registered number) (run.lanes number).active.length
          (run.lanes number).admissionBurst
        show (run.lanes number).active.length + requestedItems _ _ _ ≤ _
        omega
      · rw [FiberLane.handled, FiberLane.handled, unheld]
        rfl

theorem pulls_sound (sound : LanesSound settings run) (member : number ∈ run.registered)
    {requested count : Nat} {refill waits : Bool}
    (pulling : (run.lanes number).phase = .pulling requested refill)
    (stepped : pullsShared settings run number (run.lanes number) requested refill count waits = some next) :
    LanesSound settings next := by
  have fits := sound.fits number member
  have unheld : (run.lanes number).held = [] := by rw [FiberLane.held, pulling]
  have demand : (run.lanes number).active.length + requested ≤ laneShare settings.total run.registered number := by
    have within := fits.demand
    rw [FiberLane.demand, pulling] at within
    exact within
  rw [pullsShared] at stepped
  by_cases refused : requested < count ∨ run.stopped = true ∧ count ≠ 0
  · rw [if_pos refused] at stepped
    cases stepped
  · rw [if_neg refused] at stepped
    have asked : count ≤ requested := by
      by_contra more
      exact refused (.inl (by omega))
    have takes : ∀ (again : Bool) (burst added : Nat), LanesSound settings { run.put number { run.lanes number with
        phase := .starting (List.range' run.taken count) again, admissionBurst := burst, added := added } with
        taken := run.taken + count } := by
      intro again burst added
      refine put_sound sound member ?_ count ?_
      · refine ⟨?_, fits.limit, nofun⟩
        show (run.lanes number).active.length + (List.range' run.taken count).length ≤ _
        rw [List.length_range']
        omega
      · rw [FiberLane.handled, FiberLane.handled, unheld, List.append_nil]
        rfl
    by_cases first : refill = false
    · rw [if_pos first] at stepped
      cases stepped
      exact takes false _ _
    · rw [if_neg first] at stepped
      by_cases none : count = 0
      · subst none
        rw [if_pos rfl] at stepped
        by_cases waiting : waits = true ∧ run.stopped = false
        · rw [if_pos waiting] at stepped
          cases stepped
          refine put_quiet sound member (fits_quiet fits rfl (Nat.le_refl _) rfl) ?_
          rw [FiberLane.handled, FiberLane.handled, unheld]
          rfl
        · rw [if_neg waiting] at stepped
          cases stepped
          have again : refill = true := by simpa using first
          exact leave_sound sound member (fits.refill requested (again ▸ pulling)) unheld
      · rw [if_neg none] at stepped
        cases stepped
        exact takes true _ _

theorem start_fiber_frame (lane : FiberLane ε) (item : Nat) (outcome : FiberOutcome ε) :
    (lane.startFiber item outcome).limit = lane.limit ∧ (lane.startFiber item outcome).abandoned = lane.abandoned ∧
      (lane.startFiber item outcome).started = lane.started ++ [item] ∧
      (lane.startFiber item outcome).active.length ≤ lane.active.length + 1 := by
  cases outcome with
  | suspends => exact ⟨rfl, rfl, rfl, by simp [FiberLane.startFiber]⟩
  | returns => exact ⟨rfl, rfl, rfl, Nat.le_succ _⟩
  | raises error => exact ⟨rfl, rfl, rfl, Nat.le_succ _⟩
  | unsupported error => exact ⟨rfl, rfl, rfl, Nat.le_succ _⟩

theorem resume_fiber_frame (lane : FiberLane ε) (place : Nat) (outcome : FiberOutcome ε) :
    (lane.resumeFiber place outcome).limit = lane.limit ∧ (lane.resumeFiber place outcome).phase = lane.phase ∧
      (lane.resumeFiber place outcome).handled = lane.handled ∧
      (lane.resumeFiber place outcome).active.length ≤ lane.active.length := by
  have fewer : (lane.active.eraseIdx place).length ≤ lane.active.length := List.length_eraseIdx_le _ _
  cases outcome with
  | suspends => exact ⟨rfl, rfl, rfl, Nat.le_refl _⟩
  | returns => exact ⟨rfl, rfl, rfl, fewer⟩
  | raises error => exact ⟨rfl, rfl, rfl, fewer⟩
  | unsupported error => exact ⟨rfl, rfl, rfl, fewer⟩

theorem starts_sound (sound : LanesSound settings run) (member : number ∈ run.registered) {item : Nat} {rest : List Nat}
    {refill : Bool} (starting : (run.lanes number).phase = .starting (item :: rest) refill) (outcome : FiberOutcome ε) :
    LanesSound settings
      ((run.put number
        { (run.lanes number).startFiber item outcome with phase := .starting rest refill }).stop outcome.stops) := by
  have fits := sound.fits number member
  obtain ⟨limit, abandoned, started, active⟩ := start_fiber_frame (run.lanes number) item outcome
  have demand : (run.lanes number).active.length + (rest.length + 1) ≤ laneShare settings.total run.registered number := by
    have within := fits.demand
    rw [FiberLane.demand, starting] at within
    exact within
  refine stop_sound (put_quiet sound member ?_ ?_) _
  · refine ⟨?_, limit ▸ fits.limit, nofun⟩
    show ((run.lanes number).startFiber item outcome).active.length + rest.length ≤ _
    omega
  · show (((((run.lanes number).startFiber item outcome).started ++
      ((run.lanes number).startFiber item outcome).abandoned ++ rest :
      List Nat)) : Multiset Nat) = _
    rw [started, abandoned, FiberLane.handled, FiberLane.held, starting, Multiset.coe_eq_coe]
    rw [List.append_assoc, List.append_assoc, List.append_assoc, List.singleton_append]
    exact .append_left _ List.perm_middle.symm

theorem ends_slice_sound (sound : LanesSound settings run) (member : number ∈ run.registered) {rest : List Nat} {refill : Bool}
    (starting : (run.lanes number).phase = .starting rest refill)
    (stepped : endsSlice run number (run.lanes number) rest refill = some next) : LanesSound settings next := by
  have fits := sound.fits number member
  rw [endsSlice] at stepped
  split at stepped
  · cases stepped
    refine put_quiet sound member (fits_quiet fits rfl (Nat.le_refl _) ?_) ?_
    · cases refill with
      | true => rfl
      | false => rfl
    · have unheld : ({ run.lanes number with
          phase := if refill = true then .serving else .settling, abandoned := (run.lanes number).abandoned ++ rest } :
            FiberLane ε).held = [] := by
        cases refill with
        | true => rfl
        | false => rfl
      rw [FiberLane.handled, unheld, FiberLane.handled, FiberLane.held, starting, List.append_nil, List.append_assoc]
  · cases stepped

theorem resumes_sound (sound : LanesSound settings run) (member : number ∈ run.registered) (place : Nat)
    (outcome : FiberOutcome ε) :
    LanesSound settings ((run.put number ((run.lanes number).resumeFiber place outcome)).stop outcome.stops) := by
  have fits := sound.fits number member
  obtain ⟨limit, phase, handled, active⟩ := resume_fiber_frame (run.lanes number) place outcome
  refine stop_sound (put_quiet sound member ⟨?_, limit ▸ fits.limit, fun requested pulling => ?_⟩ (by rw [handled])) _
  · have demand := fits.demand
    rw [FiberLane.demand] at demand ⊢
    rw [phase]
    omega
  · rw [phase] at pulling
    have idle := fits.refill requested pulling
    rw [idle] at active
    exact List.eq_nil_of_length_eq_zero (Nat.le_zero.mp active)

theorem settles_sound (sound : LanesSound settings run) (member : number ∈ run.registered)
    (settling : (run.lanes number).phase = .settling) : LanesSound settings (settles settings run number (run.lanes number)) := by
  have fits := sound.fits number member
  have unheld : (run.lanes number).held = [] := by rw [FiberLane.held, settling]
  have serves : LanesSound settings (run.put number { run.lanes number with phase := .serving }) := by
    refine put_quiet sound member (fits_quiet fits rfl (Nat.le_refl _) rfl) ?_
    rw [FiberLane.handled, FiberLane.handled, unheld]
    rfl
  rw [settles]
  by_cases busy : (run.lanes number).active ≠ []
  · rw [if_pos busy]
    exact serves
  · have idle : (run.lanes number).active = [] := by simpa using busy
    have leaves := leave_sound sound member idle unheld
    rw [if_neg busy]
    split
    · exact leaves
    · split
      · exact leaves
      · split
        · refine put_quiet sound member ⟨?_, fits.limit, fun _ _ => idle⟩ ?_
          · have asked : min (run.lanes number).limit (min minAdmissionBurst settings.maxAdmissionBurst) ≤
              (run.lanes number).limit :=
              min_le_left _ _
            have limit := fits.limit
            show (run.lanes number).active.length + min (run.lanes number).limit _ ≤ _
            rw [idle, List.length_nil, Nat.zero_add]
            exact asked.trans limit
          · rw [FiberLane.handled, FiberLane.handled, unheld]
            rfl
        · exact serves

theorem lane_step_sound (sound : LanesSound settings run) (member : number ∈ run.registered) {step : LaneStep ε}
    (stepped : laneStep settings run number step = some next) : LanesSound settings next := by
  unfold laneStep at stepped
  dsimp only at stepped
  split at stepped
  · rename_i serving
    exact admits_sound sound member serving stepped
  · rename_i pulling
    exact pulls_sound sound member pulling stepped
  · rename_i requested refill pulling
    by_cases idle : (run.lanes number).active = []
    · rw [if_pos idle] at stepped
      cases stepped
      exact leave_sound sound member idle (by rw [FiberLane.held, pulling])
    · rw [if_neg idle] at stepped
      cases stepped
  · rename_i starting
    split at stepped
    · cases stepped
    · cases stepped
      exact starts_sound sound member starting _
  · rename_i starting
    exact ends_slice_sound sound member starting stepped
  · cases stepped
  · split at stepped
    · cases stepped
      exact resumes_sound sound member _ _
    · cases stepped
  · rename_i settling
    cases stepped
    exact settles_sound sound member settling
  · cases stepped

theorem lanes_step_sound {label : LaneLabel ε} (sound : LanesSound settings run) (stepped : LanesStep settings run label next) :
    LanesSound settings next := by
  cases label with
  | stop =>
      cases stepped
      exact stop_sound sound true
  | lane number step =>
      rw [LanesStep, lanesStep] at stepped
      by_cases member : number ∈ run.registered
      · rw [if_pos member] at stepped
        exact lane_step_sound sound member stepped
      · rw [if_neg member] at stepped
        cases stepped

def Departs (run next : LanesRun ε) (number : Nat) : Prop :=
  next.registered = run.registered ∨ next.registered = run.registered.erase number

theorem admits_registered (stepped : admitsBurst settings run number lane = some next) : Departs run next number := by
  rw [admitsBurst] at stepped
  by_cases failed : lane.firstError.isSome = true
  · rw [if_pos failed] at stepped
    cases stepped
    exact .inl rfl
  rw [if_neg failed] at stepped
  cases bound : limitFor settings.total run.registered number with
  | some limit =>
      rw [bound] at stepped
      cases stepped
      exact .inl rfl
  | none =>
      rw [bound] at stepped
      obtain ⟨_, rfl⟩ : lane.active = [] ∧ run.leave number = next := by simpa using stepped
      exact .inr rfl

theorem pulls_registered {requested count : Nat} {refill waits : Bool}
    (stepped : pullsShared settings run number lane requested refill count waits = some next) : Departs run next number := by
  rw [pullsShared] at stepped
  obtain ⟨_, stepped⟩ := Option.ite_none_left_eq_some.mp stepped
  by_cases first : refill = false
  · rw [if_pos first] at stepped
    cases stepped
    exact .inl rfl
  rw [if_neg first] at stepped
  by_cases nothing : count = 0
  · rw [if_pos nothing] at stepped
    by_cases wait : waits = true ∧ run.stopped = false
    · rw [if_pos wait] at stepped
      cases stepped
      exact .inl rfl
    · rw [if_neg wait] at stepped
      cases stepped
      exact .inr rfl
  · rw [if_neg nothing] at stepped
    cases stepped
    exact .inl rfl

theorem settles_registered : Departs run (settles settings run number lane) number := by
  rw [settles]
  by_cases busy : lane.active ≠ []
  · rw [if_pos busy]
    exact .inl rfl
  rw [if_neg busy]
  by_cases failed : lane.firstError.isSome = true
  · rw [if_pos failed]
    exact .inr rfl
  rw [if_neg failed]
  by_cases shut : lane.limit = 0
  · rw [if_pos shut]
    exact .inr rfl
  rw [if_neg shut]
  by_cases drained : lane.added = 0
  · rw [if_pos drained]
    exact .inl rfl
  · rw [if_neg drained]
    exact .inl rfl

theorem lane_step_registered {step : LaneStep ε} (stepped : laneStep settings run number step = some next) :
    Departs run next number := by
  unfold laneStep at stepped
  dsimp only at stepped
  split at stepped
  · exact admits_registered stepped
  · exact pulls_registered stepped
  · obtain ⟨_, ⟨⟩⟩ := Option.ite_none_right_eq_some.mp stepped
    exact .inr rfl
  · obtain ⟨_, ⟨⟩⟩ := Option.ite_none_left_eq_some.mp stepped
    exact .inl rfl
  · rw [endsSlice] at stepped
    obtain ⟨_, ⟨⟩⟩ := Option.ite_none_right_eq_some.mp stepped
    exact .inl rfl
  · cases stepped
  · obtain ⟨_, ⟨⟩⟩ := Option.ite_none_right_eq_some.mp stepped
    exact .inl rfl
  · cases stepped
    exact settles_registered
  · cases stepped

theorem shares_grow {label : LaneLabel ε} (stepped : LanesStep settings run label next) (lane : Nat)
    (stays : lane ∈ next.registered) :
    lane ∈ run.registered ∧ laneShare settings.total run.registered lane ≤ laneShare settings.total next.registered lane := by
  cases label with
  | stop =>
      cases stepped
      exact ⟨stays, Nat.le_refl _⟩
  | lane number step =>
      rw [LanesStep, lanesStep] at stepped
      by_cases member : number ∈ run.registered
      · rw [if_pos member] at stepped
        rcases lane_step_registered stepped with same | fewer
        · rw [same] at stays ⊢
          exact ⟨stays, Nat.le_refl _⟩
        · rw [fewer] at stays ⊢
          exact ⟨Finset.mem_of_mem_erase stays, lane_share_grows stays⟩
      · rw [if_neg member] at stepped
        cases stepped

theorem active_total (sound : LanesSound settings run) :
    ∑ lane ∈ Finset.range settings.lanes, ((run.lanes lane).active.length + (run.lanes lane).held.length) ≤ settings.total := by
  have idle : ∀ lane ∈ Finset.range settings.lanes, lane ∉ run.registered →
      (run.lanes lane).active.length + (run.lanes lane).held.length = 0 := by
    intro lane inside absent
    have gone := sound.gone lane (Finset.mem_range.mp inside) absent
    rw [gone.1, gone.2]
    rfl
  rw [← Finset.sum_subset sound.known idle]
  have shares : ∑ lane ∈ run.registered, ((run.lanes lane).active.length + (run.lanes lane).held.length) ≤
      ∑ lane ∈ run.registered, laneShare settings.total run.registered lane :=
    Finset.sum_le_sum fun lane member => held_within (sound.fits lane member)
  rcases run.registered.eq_empty_or_nonempty with none | some_lane
  · rw [none, Finset.sum_empty]
    exact Nat.zero_le _
  · exact shares.trans_eq (lane_shares_sum some_lane)

theorem handled_nodup (sound : LanesSound settings run) {number : Nat} (less : number < settings.lanes) :
    (run.lanes number).handled.Nodup := by
  have part : ((run.lanes number).handled : Multiset Nat) ≤ Multiset.range run.taken := by
    rw [← sound.handled]
    exact Finset.single_le_sum (fun _ _ => Multiset.zero_le _) (Finset.mem_range.mpr less)
  exact Multiset.coe_nodup.mp (Multiset.nodup_of_le part (Multiset.nodup_range _))

theorem one_lane (sound : LanesSound settings run) {item : Nat} (taken : item < run.taken) :
    ∃! number, number < settings.lanes ∧ item ∈ (run.lanes number).handled := by
  have member := Multiset.mem_range.mpr taken
  rw [← sound.handled, Multiset.mem_sum] at member
  obtain ⟨number, inside, here⟩ := member
  refine ⟨number, ⟨Finset.mem_range.mp inside, here⟩, ?_⟩
  rintro other ⟨less, there⟩
  by_contra different
  have once : ∑ lane ∈ Finset.range settings.lanes, Multiset.count item ((run.lanes lane).handled : Multiset Nat) ≤ 1 := by
    rw [← Multiset.count_sum', sound.handled]
    exact Multiset.nodup_iff_count_le_one.mp (Multiset.nodup_range _) item
  have rest : Multiset.count item ((run.lanes other).handled : Multiset Nat) ≤
      ∑ lane ∈ (Finset.range settings.lanes).erase number, Multiset.count item ((run.lanes lane).handled : Multiset Nat) :=
    Finset.single_le_sum (f := fun lane => Multiset.count item ((run.lanes lane).handled : Multiset Nat))
      (fun _ _ => Nat.zero_le _) (Finset.mem_erase.mpr ⟨different, Finset.mem_range.mpr less⟩)
  rw [← Finset.add_sum_erase _ _ inside] at once
  have one : 0 < Multiset.count item ((run.lanes number).handled : Multiset Nat) := Multiset.count_pos.mpr here
  have two : 0 < Multiset.count item ((run.lanes other).handled : Multiset Nat) := Multiset.count_pos.mpr there
  omega

-- The lanes never have more jobs active than the limit, and each item taken from the source is with one
-- lane, which has started or abandoned it by the time it leaves.
theorem sharded_lanes_keep {labels : List (LaneLabel ε)} (reached : Run (LanesStep settings) (.start settings) labels run) :
    LanesKeep settings run ∧ ∀ (next : LanesRun ε) (label : LaneLabel ε), LanesStep settings run label next →
      ∀ lane ∈ next.registered, lane ∈ run.registered ∧
        laneShare settings.total run.registered lane ≤ laneShare settings.total next.registered lane := by
  have sound : LanesSound settings run := reached.invariant start_sound_lanes fun before stepped =>
    lanes_step_sound before stepped
  refine ⟨⟨lane_shares_sum, fun lane member => held_within (sound.fits lane member), active_total sound,
    fun item taken => one_lane sound taken, fun lane less => handled_nodup sound less, sound.gone⟩, ?_⟩
  exact fun next label stepped lane stays => shares_grow stepped lane stays

def twoLanes : LaneSettings := ⟨2, 3, 64, 64⟩

def failingLane : List (LaneLabel String) :=
  [.lane 0 .admits, .lane 0 (.pulls 2 false), .lane 1 .admits, .lane 1 (.pulls 1 false), .lane 1 (.starts .suspends),
    .lane 0 (.starts (.raises "job 0 failed")), .lane 0 .endsSlice, .lane 0 .settles, .stop]

theorem two_lane_shares : laneShare 3 (Finset.range 2) 0 = 2 ∧ laneShare 3 (Finset.range 2) 1 = 1 := by
  rw [laneShare, laneShare, lane_position (by decide), lane_position (by decide)]
  decide

theorem failing_lane_fills : ∃ run : LanesRun String,
    (failingLane.take 5).foldlM (lanesStep twoLanes) (.start twoLanes) = some run ∧
    run.registered = Finset.range 2 ∧ run.taken = 3 ∧
    run.lanes 0 = ⟨.starting [0, 1] false, [], none, 64, 2, 2, [], []⟩ ∧
    run.lanes 1 = ⟨.starting [] false, [2], none, 64, 1, 1, [2], []⟩ := by
  simp [failingLane, lanesStep, laneStep, LanesRun.start, twoLanes, FiberLane.fresh, LanesRun.put, LanesRun.stop,
    admitsBurst, limitFor, two_lane_shares, requestedItems, refillFloor, pullsShared, List.range', nextBurst,
    minAdmissionBurst, FiberLane.startFiber, FiberOutcome.stops]

theorem failing_lane_leaves {run : LanesRun String} (registered : run.registered = Finset.range 2)
    (first : run.lanes 0 = ⟨.starting [0, 1] false, [], none, 64, 2, 2, [], []⟩) :
    ∃ after : LanesRun String, (failingLane.drop 5).foldlM (lanesStep twoLanes) run = some after ∧
      after.taken = run.taken ∧ (after.lanes 0).started = [0] ∧ (after.lanes 0).abandoned = [1] ∧
      after.lanes 1 = run.lanes 1 := by
  simp [failingLane, lanesStep, laneStep, LanesRun.put, LanesRun.leave, LanesRun.stop, FiberLane.startFiber,
    FiberLane.fail, FiberOutcome.stops, endsSlice, settles, registered, first]

theorem failing_lane_ends : ∃ run : LanesRun String, failingLane.foldlM (lanesStep twoLanes) (.start twoLanes) = some run ∧
    run.taken = 3 ∧ (run.lanes 0).started = [0] ∧ (run.lanes 0).abandoned = [1] ∧ (run.lanes 1).active = [2] := by
  obtain ⟨run, filled, registered, taken, first, second⟩ := failing_lane_fills
  obtain ⟨after, left, kept, started, abandoned, other⟩ := failing_lane_leaves registered first
  refine ⟨after, ?_, kept.trans taken, started, abandoned, ?_⟩
  · rw [← List.take_append_drop 5 failingLane, List.foldlM_append, filled]
    exact left
  · rw [other, second]

theorem sharded_lanes_keep_failing : ∃ run : LanesRun String, run.taken = 3 ∧ (run.lanes 0).started = [0] ∧
    (run.lanes 0).abandoned = [1] ∧ (run.lanes 1).active = [2] ∧ LanesKeep twoLanes run := by
  obtain ⟨run, computed, taken, started, abandoned, active⟩ := failing_lane_ends
  exact ⟨run, taken, started, abandoned, active, (sharded_lanes_keep (Run.of_fold computed)).1⟩

end Steps

end MicroWorkflow
