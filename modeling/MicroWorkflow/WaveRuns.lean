import Mathlib.Algebra.BigOperators.Group.List.Basic
import Mathlib.Algebra.Order.BigOperators.Group.List
import MicroWorkflow.WaveAccounting

set_option autoImplicit false

namespace MicroWorkflow

open Lib (Run Dict.get)

section Launches

variable {scheduler : UnitScheduler} {start : DagExecution} {records : List FlightRecord} {plan : WavePlan}
variable {processed : List Component} {launching : Launching} {unit : Component} {reads : WaveReads}

structure SoundLaunch (scheduler : UnitScheduler) (start : DagExecution) (plan : WavePlan) (launch : Launch) : Prop where
  given : launch.given = scheduler.unitApiPumps plan launch.unit
  covers : scheduler.Covers launch.unit launch.held
  free : launch.unit ∉ start.inFlight
  within : start.KeepsWithin launch.unit launch.given → launch.held.total ≤ launch.given.total

structure Launched (scheduler : UnitScheduler) (start : DagExecution) (records : List FlightRecord) (plan : WavePlan)
    (processed : List Component) (launching : Launching) : Prop where
  tracked : ∃ added, Tracked scheduler launching.run (records ++ added) ∧
    (Within start records → (∀ launch ∈ launching.launched, start.KeepsWithin launch.unit launch.given) →
      Within launching.run (records ++ added))
  names : (launching.launched.map Launch.unit).Sublist processed
  sound : ∀ launch ∈ launching.launched, SoundLaunch scheduler start plan launch
  others : ∀ unit, unit ∉ processed → Dict.get launching.run.operations unit = Dict.get start.operations unit
  flight : ∀ unit ∈ launching.run.inFlight, unit ∈ start.inFlight ∨ unit ∈ processed
  phase : launching.run.phase = start.phase ∨ launching.run.phase = .raised

theorem keeps_within_of_get {run other : DagExecution} {apiPumps : ApiPumps}
    (same : Dict.get run.operations unit = Dict.get other.operations unit) (keeps : other.KeepsWithin unit apiPumps) :
    run.KeepsWithin unit apiPumps := fun operation found => keeps operation (same ▸ found)

theorem launched_skip (launched : Launched scheduler start records plan processed launching) (concluded : Bool) {phase : DagPhase}
    (still : phase = launching.run.phase ∨ phase = .raised) :
    Launched scheduler start records plan (processed ++ [unit])
      { launching with run := { launching.run with phase }, concluded } := by
  obtain ⟨added, tracked, within⟩ := launched.tracked
  refine ⟨⟨added, tracked.flags _ _ _, within⟩, ?_, launched.sound, fun other away => ?_, fun other flying => ?_, ?_⟩
  · exact launched.names.trans (List.sublist_append_left _ _)
  · exact launched.others other fun member => away (List.mem_append_left _ member)
  · exact (launched.flight other flying).imp_right (List.mem_append_left _)
  · rcases still with same | raised
    · exact launched.phase.imp same.trans same.trans
    · exact .inr raised

theorem within_other {run : DagExecution} {apiPumps : ApiPumps} (tracked : Tracked scheduler run records)
    (free : unit ∉ run.inFlight) (within : Within run records) : Within (run.componentOperation unit apiPumps) records := by
  intro record member
  have different : record.unit ≠ unit := by
    intro same
    exact free ((tracked.flight unit).mpr (same ▸ List.mem_map_of_mem member))
  have held := within record member
  rw [DagExecution.heldPumps] at held ⊢
  rw [operation_get_other different]
  exact held

theorem launch_ready_launched (launched : Launched scheduler start records plan processed launching)
    (new : unit ∉ processed) (inside : unit ∈ scheduler.units) (free : unit ∉ start.inFlight)
    (covers : scheduler.Covers unit (scheduler.unitApiPumps plan unit)) :
    Launched scheduler start records plan (processed ++ [unit])
      (scheduler.launchReady reads launching unit (scheduler.unitApiPumps plan unit)) := by
  obtain ⟨added, tracked, within⟩ := launched.tracked
  have here : unit ∉ launching.run.inFlight := fun flying => (launched.flight unit flying).elim free new
  have begun := operation_tracked tracked covers
  have untouched := launched.others unit new
  have sound : ∀ launch ∈ launching.launched ++ [⟨unit, scheduler.unitApiPumps plan unit,
      (launching.run.componentOperation unit (scheduler.unitApiPumps plan unit)).heldPumps unit⟩],
      SoundLaunch scheduler start plan launch := by
    intro launch member
    rcases List.mem_append.mp member with earlier | last
    · exact launched.sound launch earlier
    · rw [List.mem_singleton.mp last]
      exact ⟨rfl, operation_covers tracked covers, free, fun keeps =>
        operation_held_within (keeps_within_of_get untouched keeps)⟩
  have names : ((launching.launched ++ [(⟨unit, scheduler.unitApiPumps plan unit,
      (launching.run.componentOperation unit (scheduler.unitApiPumps plan unit)).heldPumps unit⟩ : Launch)]).map
        Launch.unit).Sublist (processed ++ [unit]) := by
    rw [List.map_append]
    exact launched.names.append (List.Sublist.refl [unit])
  have others : ∀ other, other ∉ processed ++ [unit] →
      other ≠ unit ∧ Dict.get (launching.run.componentOperation unit (scheduler.unitApiPumps plan unit)).operations other =
        Dict.get start.operations other := by
    intro other away
    have different : other ≠ unit := fun same => away (List.mem_append_right _ (List.mem_singleton.mpr same))
    exact ⟨different, (operation_get_other different).trans
      (launched.others other fun member => away (List.mem_append_left _ member))⟩
  have calm : Within start records → (∀ launch ∈ launching.launched, start.KeepsWithin launch.unit launch.given) →
      Within (launching.run.componentOperation unit (scheduler.unitApiPumps plan unit)) (records ++ added) :=
    fun before keeps => within_other tracked here (within before keeps)
  have phase : (launching.run.componentOperation unit (scheduler.unitApiPumps plan unit)).phase = start.phase ∨
      (launching.run.componentOperation unit (scheduler.unitApiPumps plan unit)).phase = .raised := by
    rw [operation_phase]
    exact launched.phase
  rw [UnitScheduler.launchReady]
  by_cases direct : scheduler.sequential
  · rw [if_pos direct]
    have nothing := tracked.direct direct
    have away : unit ∉ (records ++ added).map FlightRecord.unit := by
      rw [nothing]
      exact List.not_mem_nil
    obtain ⟨kept, also, same⟩ := settle_unit_sound begun away (reads.outcome unit)
    refine ⟨⟨added, kept, fun before keeps => ?_⟩, names, sound, fun other away => ?_, fun other flying => ?_, ?_⟩
    · exact also (calm before fun other member => keeps other (List.mem_append_left _ member))
    · exact (same other (others other away).1).trans (others other away).2
    · have listed := (kept.flight other).mp flying
      rw [nothing] at listed
      cases listed
    · rcases settle_unit_phase (reads.outcome unit) with same | raised
      · exact phase.imp same.trans same.trans
      · exact .inr raised
  · rw [if_neg direct]
    have submitted := submit_tracked begun (by simpa using direct) (fun flying => here ((tracked.flight unit).mpr
      ((begun.flight unit).mp flying))) inside covers operation_begun
    refine ⟨⟨added ++ [_], List.append_assoc records added _ ▸ submitted, fun before keeps => ?_⟩, names, sound,
      fun other away => (others other away).2, fun other flying => ?_, phase⟩
    · have earlier := calm before fun other member => keeps other (List.mem_append_left _ member)
      have own := operation_held_within (keeps_within_of_get untouched
        (keeps _ (List.mem_append_right _ (List.mem_singleton.mpr rfl))))
      intro record member
      rw [← List.append_assoc] at member
      rcases List.mem_append.mp member with listed | last
      · exact earlier record listed
      · rw [List.mem_singleton.mp last]
        exact own
    · have listed := (submitted.flight other).mp flying
      rw [List.map_append, List.mem_append] at listed
      rcases listed with before | last
      · exact (launched.flight other ((tracked.flight other).mpr before)).imp_right (List.mem_append_left _)
      · exact .inr (List.mem_append_right _ (by simpa using last))

theorem launch_unit_launched (launched : Launched scheduler start records plan processed launching)
    (new : unit ∉ processed) (inside : unit ∈ scheduler.units) (free : unit ∉ start.inFlight)
    (covers : scheduler.Covers unit (scheduler.unitApiPumps plan unit)) :
    Launched scheduler start records plan (processed ++ [unit]) (scheduler.launchUnit reads plan launching unit) := by
  rw [UnitScheduler.launchUnit]
  by_cases concluded : launching.concluded
  · rw [if_pos concluded]
    exact launched_skip launched launching.concluded (.inl rfl)
  · rw [if_neg concluded]
    cases answered : scheduler.unitReady launching.run (reads.recheck unit) unit with
    | error error => exact launched_skip launched true (.inr rfl)
    | ok kept =>
        cases kept with
        | false => exact launched_skip launched launching.concluded (.inl rfl)
        | true => exact launch_ready_launched launched new inside free covers

theorem launch_units_launched (tracked : Tracked scheduler start records) (distinct : plan.launch.Nodup)
    (inside : ∀ unit ∈ plan.launch, unit ∈ scheduler.units) (free : ∀ unit ∈ plan.launch, unit ∉ start.inFlight)
    (covers : ∀ unit ∈ plan.launch, scheduler.Covers unit (scheduler.unitApiPumps plan unit)) :
    Launched scheduler start records plan plan.launch (scheduler.launchUnits reads plan start) := by
  have initial : Launched scheduler start records plan [] ⟨start, [], false⟩ :=
    ⟨⟨[], by rw [List.append_nil]; exact tracked, fun before _ => by rw [List.append_nil]; exact before⟩,
      List.Sublist.refl [], nofun, fun _ _ => rfl, fun _ flying => .inl flying, .inl rfl⟩
  have folded : ∀ rest processed launching, processed ++ rest = plan.launch →
      Launched scheduler start records plan processed launching →
      Launched scheduler start records plan plan.launch (rest.foldl (scheduler.launchUnit reads plan) launching) := by
    intro rest
    induction rest with
    | nil =>
        intro processed launching whole launched
        rw [List.append_nil] at whole
        subst whole
        exact launched
    | cons unit rest ih =>
        intro processed launching whole launched
        have member : unit ∈ plan.launch := whole ▸ List.mem_append_right _ List.mem_cons_self
        have new : unit ∉ processed := by
          intro earlier
          rw [← whole, List.nodup_append] at distinct
          exact distinct.2.2 unit earlier unit List.mem_cons_self rfl
        refine ih (processed ++ [unit]) _ (by rw [List.append_assoc]; exact whole) ?_
        exact launch_unit_launched launched new (inside unit member) (free unit member) (covers unit member)
  exact folded plan.launch [] _ rfl initial

end Launches

section Waves

variable {scheduler : UnitScheduler} {run after : DagExecution} {records : List FlightRecord} {plan : WavePlan}
variable {reads : WaveReads} {wave : Wave} {ready : List Component}

theorem keep_units_ok {keep : Component → Except Error Bool} {units kept : List Component}
    (found : keepUnits keep units = .ok kept) : kept.Sublist units ∧ ∀ unit ∈ kept, keep unit = .ok true := by
  induction units generalizing kept with
  | nil =>
      cases found
      exact ⟨List.Sublist.refl [], nofun⟩
  | cons unit rest ih =>
      obtain ⟨answer, asked, found⟩ := Lib.bind_ok.mp found
      obtain ⟨later, following, found⟩ := Lib.bind_ok.mp found
      obtain ⟨sublist, each⟩ := ih following
      cases answer with
      | false =>
          cases found
          exact ⟨sublist.cons unit, each⟩
      | true =>
          cases found
          refine ⟨sublist.cons_cons unit, fun other member => ?_⟩
          rcases List.mem_cons.mp member with rfl | inside
          · exact asked
          · exact each other inside

theorem ready_units_free (found : scheduler.readyUnits reads run = .ok ready) :
    ready.Sublist scheduler.units ∧ ∀ unit ∈ ready, unit ∉ run.inFlight := by
  obtain ⟨sublist, each⟩ := keep_units_ok found
  refine ⟨sublist, fun unit member => ?_⟩
  have kept := each unit member
  rw [UnitScheduler.considered] at kept
  by_cases open_unit : (run.admissionStopped = false ∨ run.isResuming unit) ∧ unit ∉ run.inFlight ∧
      reads.deadlockBlocked unit = false
  · exact open_unit.2.1
  · rw [if_neg open_unit] at kept
    cases kept

structure WaveFrom (scheduler : UnitScheduler) (reads : WaveReads) (run : DagExecution) (wave : Wave)
    (stopped : Bool) : Prop where
  sublist : wave.ready.Sublist scheduler.units
  free : ∀ unit ∈ wave.ready, unit ∉ run.inFlight
  plan : scheduler.planWave reads.limits reads.cpuCount run.futureApiPumps wave.ready = .ok (some wave.plan)
  launched : wave.launched = (scheduler.launchUnits reads wave.plan { run with admissionStopped := stopped }).launched
  after : wave.after =
    scheduler.endWave reads wave.plan (scheduler.launchUnits reads wave.plan { run with admissionStopped := stopped }).run

theorem planned_from {stopped : Bool} (sublist : ready.Sublist scheduler.units) (free : ∀ unit ∈ ready, unit ∉ run.inFlight) :
    (∀ after, scheduler.planned reads { run with admissionStopped := stopped } ready = .error after →
      after = { run with admissionStopped := stopped, phase := .raised }) ∧
    (∀ wave, scheduler.planned reads { run with admissionStopped := stopped } ready = .ok (some wave) →
      WaveFrom scheduler reads run wave stopped) := by
  rw [UnitScheduler.planned]
  cases plan : scheduler.planWave reads.limits reads.cpuCount run.futureApiPumps ready with
  | error error =>
      refine ⟨fun after found => ?_, nofun⟩
      cases found
      rfl
  | ok planned =>
      cases planned with
      | none => exact ⟨nofun, nofun⟩
      | some planned =>
          refine ⟨nofun, fun wave found => ?_⟩
          cases found
          exact ⟨sublist, free, plan, rfl, rfl⟩

theorem wave_from (scheduler : UnitScheduler) (reads : WaveReads) (run : DagExecution) :
    (∀ after, scheduler.wave reads run = .error after →
      ∃ stopped, after = { run with admissionStopped := stopped, phase := .raised }) ∧
    (∀ wave, scheduler.wave reads run = .ok (some wave) → ∃ stopped, WaveFrom scheduler reads run wave stopped) := by
  rw [UnitScheduler.wave]
  cases found : scheduler.readyUnits reads (scheduler.stopAtBoundary reads run) with
  | error error =>
      refine ⟨fun after found => ?_, nofun⟩
      cases found
      exact ⟨_, rfl⟩
  | ok ready =>
      obtain ⟨sublist, free⟩ := ready_units_free found
      dsimp only
      by_cases refuses : scheduler.refusesNow ready
      · rw [if_pos refuses]
        have results := @planned_from scheduler run reads [] true (List.nil_sublist _) nofun
        exact ⟨fun after found => ⟨true, results.1 after found⟩, fun wave found => ⟨true, results.2 wave found⟩⟩
      · rw [if_neg refuses]
        have results := @planned_from scheduler run reads ready (scheduler.stopAtBoundary reads run).admissionStopped sublist free
        exact ⟨fun after found => ⟨_, results.1 after found⟩, fun wave found => ⟨_, results.2 wave found⟩⟩

theorem recorded_names (tracked : Tracked scheduler run records) :
    (run.futureApiPumps.flatMap Prod.snd).map Prod.fst = (records.map FlightRecord.unit).flatMap scheduler.unitApiNodes := by
  rw [tracked.pumps, List.flatMap_map, List.map_flatMap, List.flatMap_map]
  exact List.flatMap_congr fun record member => (tracked.covered record member).1

theorem recorded_total (tracked : Tracked scheduler run records) :
    ApiPumps.total (run.futureApiPumps.flatMap Prod.snd) = (records.map fun record => record.pumps.total).sum := by
  rw [tracked.pumps, ApiPumps.total, List.flatMap_map, List.map_flatMap, List.flatMap_def, List.sum_flatten, List.map_map]
  rfl

theorem running_total (tracked : Tracked scheduler run records) :
    run.runningPumps = (records.map fun record => (run.heldPumps record.unit).total).sum := by
  rw [DagExecution.runningPumps, tracked.futures, List.map_map]
  rfl

structure WaveSound (scheduler : UnitScheduler) (run : DagExecution) (records : List FlightRecord) (wave : Wave) : Prop where
  listed : wave.ready.Sublist scheduler.units
  planned : scheduler.Planned (run.futureApiPumps.flatMap Prod.snd) wave.ready wave.plan
  names : (wave.launched.map Launch.unit).Sublist wave.plan.launch
  sound : ∀ launch ∈ wave.launched, SoundLaunch scheduler run wave.plan launch
  tracked : ∃ left, Tracked scheduler wave.after left ∧
    (Within run records → (∀ launch ∈ wave.launched, run.KeepsWithin launch.unit launch.given) → Within wave.after left)
  phase : run.phase = .looping → wave.after.phase ≠ .idle ∧ (wave.after.phase = .returned → records = [])

theorem end_wave_phase (scheduler : UnitScheduler) (reads : WaveReads) (plan : WavePlan) (run : DagExecution) :
    ∃ phase, scheduler.endWave reads plan run = { run with phase } ∧
      (phase = run.phase ∨ phase = .joining ∨ phase = .returned ∧ (scheduler.sequential = true ∨ run.futures = [])) := by
  rw [UnitScheduler.endWave]
  by_cases concluded : run.phase = .raised
  · rw [if_pos concluded]
    exact ⟨run.phase, rfl, .inl rfl⟩
  · rw [if_neg concluded]
    have paused : scheduler.sequential = true ∨ run.futures = [] → ∃ phase,
        scheduler.pauseOrReturn reads run = { run with phase } ∧
          (phase = run.phase ∨ phase = .joining ∨ phase = .returned ∧ (scheduler.sequential = true ∨ run.futures = [])) := by
      intro nothing
      rw [UnitScheduler.pauseOrReturn]
      by_cases waits : scheduler.waitingOnInterrupt run reads
      · rw [if_pos waits]
        exact ⟨run.phase, rfl, .inl rfl⟩
      · rw [if_neg waits]
        exact ⟨_, rfl, .inr (.inr ⟨rfl, nothing⟩)⟩
    by_cases direct : scheduler.sequential
    · rw [if_pos direct]
      by_cases nothing : plan.launch = []
      · rw [if_pos nothing]
        exact paused (.inl direct)
      · rw [if_neg nothing]
        exact ⟨run.phase, rfl, .inl rfl⟩
    · rw [if_neg direct]
      by_cases idle : run.futures = []
      · rw [if_pos idle]
        exact paused (.inr idle)
      · rw [if_neg idle]
        exact ⟨_, rfl, .inr (.inl rfl)⟩

theorem plan_covers {active : ApiPumps} {unit : Component} (planned : scheduler.Planned active ready plan)
    (member : unit ∈ plan.launch) : scheduler.Covers unit (scheduler.unitApiPumps plan unit) := by
  constructor
  · rw [UnitScheduler.unitApiPumps, List.map_map]
    exact List.map_id _
  · intro entry inside
    obtain ⟨node, named, rfl⟩ := List.mem_map.mp inside
    exact planned.given unit member node named

theorem flying_ready (tracked : Tracked scheduler run records) (sublist : ready.Sublist scheduler.units)
    (free : ∀ unit ∈ ready, unit ∉ run.inFlight) : (records.map FlightRecord.unit ++ ready).Nodup ∧
      ∀ unit ∈ records.map FlightRecord.unit ++ ready, unit ∈ scheduler.units := by
  constructor
  · refine tracked.distinct.append (scheduler.distinct.sublist sublist) fun unit flying waiting => ?_
    exact free unit waiting ((tracked.flight unit).mpr flying)
  · intro unit member
    rcases List.mem_append.mp member with flying | waiting
    · obtain ⟨record, listed, rfl⟩ := List.mem_map.mp flying
      exact tracked.inside record listed
    · exact sublist.subset waiting

theorem wave_sound (tracked : Tracked scheduler run records) (found : scheduler.wave reads run = .ok (some wave)) :
    WaveSound scheduler run records wave := by
  obtain ⟨stopped, from_ready⟩ := (wave_from scheduler reads run).2 wave found
  obtain ⟨distinct, inside⟩ := flying_ready tracked from_ready.sublist from_ready.free
  have planned := UnitScheduler.plan_wave_planned distinct inside (recorded_names tracked) from_ready.plan
  have ready_of : ∀ unit ∈ wave.plan.launch, unit ∈ wave.ready := fun unit member => planned.sublist.subset member
  have launched := @launch_units_launched scheduler { run with admissionStopped := stopped } records wave.plan reads
    (tracked.flags _ _ _)
    ((scheduler.distinct.sublist from_ready.sublist).sublist planned.sublist)
    (fun unit member => from_ready.sublist.subset (ready_of unit member))
    (fun unit member => from_ready.free unit (ready_of unit member))
    (fun unit member => plan_covers planned member)
  obtain ⟨phase, flags, reached⟩ :=
    end_wave_phase scheduler reads wave.plan (scheduler.launchUnits reads wave.plan { run with admissionStopped := stopped }).run
  obtain ⟨added, kept, within⟩ := launched.tracked
  have ended : wave.after.phase = phase := by rw [from_ready.after, flags]
  refine ⟨from_ready.sublist, planned, ?_, ?_, ⟨records ++ added, ?_, ?_⟩, fun looping => ?_⟩
  · rw [from_ready.launched]
    exact launched.names
  · rw [from_ready.launched]
    intro launch member
    have sound := launched.sound launch member
    exact ⟨sound.given, sound.covers, sound.free, sound.within⟩
  · rw [from_ready.after, flags]
    exact kept.flags _ _ phase
  · rw [from_ready.after, from_ready.launched, flags]
    exact within
  · rw [ended]
    rcases reached with same | rfl | ⟨rfl, ending⟩
    · rcases launched.phase with going | raised
      · rw [same, going, show ({ run with admissionStopped := stopped } : DagExecution).phase = .looping from looping]
        exact ⟨nofun, nofun⟩
      · rw [same, raised]
        exact ⟨nofun, nofun⟩
    · exact ⟨nofun, nofun⟩
    · refine ⟨nofun, fun _ => ?_⟩
      rcases ending with direct | idle
      · exact tracked.direct direct
      · rw [kept.futures, List.map_eq_nil_iff, List.append_eq_nil_iff] at idle
        exact idle.1

theorem covers_positive {unit : Component} {pumps : ApiPumps} {node : String} (covers : scheduler.Covers unit pumps)
    (inside : unit ∈ scheduler.units) (member : node ∈ unit) (api : scheduler.apiNode node = true) : 1 ≤ pumps.of node := by
  have distinct : (pumps.map Prod.fst).Nodup := by
    rw [covers.1]
    exact (scheduler.members unit inside).filter _
  refine of_positive distinct covers.2 ?_
  rw [covers.1]
  exact List.mem_filter.mpr ⟨member, api⟩

theorem wave_ends (tracked : Tracked scheduler run records) : scheduler.wave reads run ≠ .ok none := by
  have planned_ends : ∀ stopped ready, ready.Sublist scheduler.units → (∀ unit ∈ ready, unit ∉ run.inFlight) →
      scheduler.planned reads { run with admissionStopped := stopped } ready ≠ .ok none := by
    intro stopped ready sublist free endless
    rw [UnitScheduler.planned] at endless
    cases plan : scheduler.planWave reads.limits reads.cpuCount run.futureApiPumps ready with
    | error error =>
        rw [plan] at endless
        cases endless
    | ok planned =>
        cases planned with
        | some planned =>
            rw [plan] at endless
            cases endless
        | none =>
            obtain ⟨distinct, inside⟩ := flying_ready tracked sublist free
            exact UnitScheduler.plan_wave_ends distinct inside (recorded_names tracked) plan
  rw [UnitScheduler.wave]
  cases found : scheduler.readyUnits reads (scheduler.stopAtBoundary reads run) with
  | error error => exact nofun
  | ok ready =>
      obtain ⟨sublist, free⟩ := ready_units_free found
      dsimp only
      by_cases refuses : scheduler.refusesNow ready
      · rw [if_pos refuses]
        exact planned_ends true [] (List.nil_sublist _) nofun
      · rw [if_neg refuses]
        exact planned_ends _ ready sublist free

theorem given_total (plan : WavePlan) (unit : Component) :
    (scheduler.unitApiPumps plan unit).total = ((scheduler.unitApiNodes unit).map plan.wavePumps.of).sum := by
  rw [ApiPumps.total, UnitScheduler.unitApiPumps, List.map_map]
  rfl

theorem launched_total (sound : WaveSound scheduler run records wave) :
    (wave.launched.map fun launch => launch.given.total).sum ≤ wave.plan.wavePumps.total := by
  have given : (wave.launched.map fun launch => launch.given.total) =
      (wave.launched.map Launch.unit).map fun unit => (scheduler.unitApiPumps wave.plan unit).total := by
    rw [List.map_map]
    refine List.map_congr_left fun launch member => ?_
    exact congrArg ApiPumps.total (sound.sound launch member).given
  have whole : ((wave.plan.launch.map fun unit => (scheduler.unitApiPumps wave.plan unit).total)).sum =
      wave.plan.wavePumps.total := by
    rw [sound.planned.total, List.map_flatMap, List.flatMap_def, List.sum_flatten, List.map_map]
    exact congrArg List.sum (List.map_congr_left fun unit _ => given_total wave.plan unit)
  rw [given, ← whole]
  exact (sound.names.map _).sum_le_sum fun _ _ => Nat.zero_le _

theorem wave_within (tracked : Tracked scheduler run records) (sound : WaveSound scheduler run records wave)
    (within : Within run records) (keeps : ∀ launch ∈ wave.launched, run.KeepsWithin launch.unit launch.given) :
    run.runningPumps + (wave.launched.map fun launch => launch.held.total).sum ≤ max run.runningPumps wave.plan.target := by
  have running : run.runningPumps ≤ ApiPumps.total (run.futureApiPumps.flatMap Prod.snd) := by
    rw [running_total tracked, recorded_total tracked]
    exact List.sum_le_sum within
  have held : (wave.launched.map fun launch => launch.held.total).sum ≤
      (wave.launched.map fun launch => launch.given.total).sum :=
    List.sum_le_sum fun launch member => (sound.sound launch member).within (keeps launch member)
  have given := launched_total sound
  have planned := sound.planned.within
  omega

-- What a label must meet for the accounting to hold: no operation that an earlier launch left has more
-- pumps than the launch that takes it up again.
def UnitScheduler.Meets (scheduler : UnitScheduler) (run : DagExecution) : DagLabel → Prop
  | .wave reads => ∀ wave, scheduler.wave reads run = .ok (some wave) →
      ∀ launch ∈ wave.launched, run.KeepsWithin launch.unit launch.given
  | _ => True

def UnitScheduler.KeptStep (scheduler : UnitScheduler) (run : DagExecution) (label : DagLabel) (after : DagExecution) : Prop :=
  scheduler.Step run label after ∧ scheduler.Meets run label

theorem resume_tracked (tracked : Tracked scheduler run records) (changes : List (Component × OperationChange)) :
    Tracked scheduler (changes.foldl (fun run entry => run.change entry.1 entry.2) run) records ∧
      (Within run records → Within (changes.foldl (fun run entry => run.change entry.1 entry.2) run) records) := by
  induction changes generalizing run with
  | nil => exact ⟨tracked, id⟩
  | cons first rest ih =>
      obtain ⟨kept, within⟩ := @ih (run.change first.1 first.2) (change_tracked tracked)
      exact ⟨kept, fun before => within (change_within before)⟩

theorem cleared_tracked (tracked : Tracked scheduler run records) (phase : DagPhase) :
    Tracked scheduler { run with futures := [], futureApiPumps := [], inFlight := ∅, phase } [] :=
  ⟨rfl, rfl, fun unit => by simp, List.nodup_nil, nofun, List.nodup_nil, nofun, nofun, nofun, tracked.kept, fun _ => rfl⟩

theorem settle_all_phase (done : List (Nat × UnitOutcome)) : (scheduler.settleAll run done).phase ≠ .idle := by
  rw [UnitScheduler.settleAll]
  by_cases concluded : (done.foldl scheduler.settle run).phase = .raised
  · rw [if_pos concluded, concluded]
    simp
  · rw [if_neg concluded]
    simp

theorem dag_step_sound {label : DagLabel} (tracked : Tracked scheduler run records) (idle : run.phase = .idle → records = [])
    (step : scheduler.Step run label after) :
    ∃ left, Tracked scheduler after left ∧ (after.phase = .idle → left = []) ∧
      (Within run records → scheduler.Meets run label → Within after left) := by
  cases label with
  | resume stopAdmission changes =>
      obtain ⟨_, result⟩ := Option.ite_none_right_eq_some.mp step
      cases result
      obtain ⟨kept, within⟩ := resume_tracked tracked changes
      exact ⟨records, kept.flags _ _ _, fun _ => idle ‹_›, fun before _ => within before⟩
  | call =>
      obtain ⟨resting, result⟩ := Option.ite_none_right_eq_some.mp step
      cases result
      have nothing := idle resting
      subst nothing
      have empty : run.futures = [] := tracked.futures
      refine ⟨[], ?_, fun _ => rfl, fun _ _ => nofun⟩
      have cleared := cleared_tracked tracked .looping
      rw [← empty] at cleared
      exact cleared
  | wave reads =>
      obtain ⟨looping, result⟩ := Option.ite_none_right_eq_some.mp step
      cases outcome : scheduler.wave reads run with
      | error raised =>
          obtain ⟨stopped, rfl⟩ := (wave_from scheduler reads run).1 raised outcome
          rw [outcome] at result
          cases result
          exact ⟨records, tracked.flags _ _ _, nofun, fun before _ => before⟩
      | ok found =>
          cases found with
          | none =>
              rw [outcome] at result
              cases result
          | some wave =>
              rw [outcome] at result
              cases result
              have sound := wave_sound tracked outcome
              obtain ⟨left, kept, within⟩ := sound.tracked
              exact ⟨left, kept, fun resting => absurd resting (sound.phase looping).1,
                fun before meets => within before (meets wave outcome)⟩
  | change unit written =>
      obtain ⟨_, result⟩ := Option.ite_none_right_eq_some.mp step
      cases result
      refine ⟨records, change_tracked tracked, fun resting => idle ?_, fun before _ => change_within before⟩
      exact change_tables.2.2.2.symm.trans resting
  | finish done =>
      obtain ⟨_, result⟩ := Option.ite_none_right_eq_some.mp step
      cases result
      obtain ⟨left, kept, within⟩ := settle_all_sound tracked done
      exact ⟨left, kept, fun resting => absurd resting (settle_all_phase done), fun before _ => within before⟩
  | raise =>
      obtain ⟨_, result⟩ := Option.ite_none_right_eq_some.mp step
      cases result
      exact ⟨records, tracked.flags _ _ _, nofun, fun before _ => before⟩
  | collect =>
      obtain ⟨_, result⟩ := Option.ite_none_right_eq_some.mp step
      cases result
      exact ⟨[], cleared_tracked tracked .idle, fun _ => rfl, fun _ _ => nofun⟩

theorem start_tracked (scheduler : UnitScheduler) : Tracked scheduler .start [] :=
  ⟨rfl, rfl, fun unit => by simp [DagExecution.start], List.nodup_nil, nofun, List.nodup_nil, nofun, nofun, nofun, nofun,
    fun _ => rfl⟩

def TablesAgree (scheduler : UnitScheduler) (run : DagExecution) : Prop :=
  ∃ records, Tracked scheduler run records ∧ (run.phase = .idle → records = [])

def TablesWithin (scheduler : UnitScheduler) (run : DagExecution) : Prop :=
  ∃ records, Tracked scheduler run records ∧ (run.phase = .idle → records = []) ∧ Within run records

theorem run_agrees {labels : List DagLabel} (reached : Run scheduler.Step .start labels run) : TablesAgree scheduler run := by
  have initial : TablesAgree scheduler .start := ⟨[], start_tracked scheduler, fun _ => rfl⟩
  refine reached.invariant initial fun {before after label} kept step => ?_
  obtain ⟨records, tracked, idle⟩ := kept
  obtain ⟨left, still, resting, _⟩ := dag_step_sound tracked idle step
  exact ⟨left, still, resting⟩

theorem run_within {labels : List DagLabel} (reached : Run scheduler.KeptStep .start labels run) :
    TablesWithin scheduler run := by
  have initial : TablesWithin scheduler .start := ⟨[], start_tracked scheduler, fun _ => rfl, nofun⟩
  refine reached.invariant initial fun {before after label} kept step => ?_
  obtain ⟨records, tracked, idle, within⟩ := kept
  obtain ⟨left, still, resting, also⟩ := dag_step_sound tracked idle step.1
  exact ⟨left, still, resting, also within step.2⟩

-- The waves of any run of calls: each unit starts with a pump for each of its API nodes and is in flight
-- once, and one is left out only while another is in flight, so never at the return. While no launch takes
-- up an operation with more pumps of its own, the pumps stay within the larger of those running and the
-- target of the wave.
theorem dag_wave_accounting (scheduler : UnitScheduler) (labels : List DagLabel) (run : DagExecution)
    (reached : Run scheduler.Step .start labels run) (looping : run.phase = .looping) (reads : WaveReads) (wave : Wave)
    (found : scheduler.wave reads run = .ok (some wave)) :
    (∀ launch ∈ wave.launched, ∀ node ∈ launch.unit, scheduler.apiNode node = true →
      1 ≤ launch.given.of node ∧ 1 ≤ launch.held.of node) ∧
    ((run.futures.map Prod.snd).Nodup ∧ (wave.launched.map Launch.unit).Nodup ∧
      ∀ launch ∈ wave.launched, launch.unit ∉ run.futures.map Prod.snd) ∧
    (∀ unit ∈ wave.ready, unit ∉ wave.plan.launch → run.futures ≠ [] ∧ wave.after.phase ≠ .returned) ∧
    (Run scheduler.KeptStep .start labels run → scheduler.Meets run (.wave reads) →
      run.runningPumps + (wave.launched.map fun launch => launch.held.total).sum ≤
        max run.runningPumps wave.plan.target) := by
  obtain ⟨records, tracked, _⟩ := run_agrees reached
  have sound := wave_sound tracked found
  have flying : run.futures.map Prod.snd = records.map FlightRecord.unit := by
    rw [tracked.futures, List.map_map]
    rfl
  refine ⟨fun launch member node inside api => ?_, ⟨?_, ?_, fun launch member => ?_⟩, fun unit ready left_out => ?_,
    fun kept meets => ?_⟩
  · have own := sound.sound launch member
    have chosen := sound.names.subset (List.mem_map_of_mem member)
    have listed := sound.listed.subset (sound.planned.sublist.subset chosen)
    refine ⟨?_, covers_positive own.covers listed inside api⟩
    rw [own.given]
    exact covers_positive (plan_covers sound.planned chosen) listed inside api
  · rw [flying]
    exact tracked.distinct
  · exact ((scheduler.distinct.sublist sound.listed).sublist sound.planned.sublist).sublist sound.names
  · rw [flying, ← tracked.flight]
    exact (sound.sound launch member).free
  · have some_record : records ≠ [] := by
      rintro rfl
      have nothing : run.futureApiPumps = [] := tracked.pumps
      refine left_out ?_
      rw [sound.planned.all (by rw [nothing]; rfl)]
      exact ready
    refine ⟨?_, fun returned => some_record ((sound.phase looping).2 returned)⟩
    rw [tracked.futures]
    simpa using some_record
  · obtain ⟨others, held, _, within⟩ := run_within kept
    exact wave_within held (wave_sound held found) within (meets wave found)

-- The calls and resumes of a scheduler keep its tables of futures, pumps and units in flight together, and
-- whatever the next wave reads, its divisions of the pumps end.
theorem dag_tables_agree {labels : List DagLabel} (reached : Run scheduler.Step .start labels run) :
    (∀ reads, scheduler.wave reads run ≠ .ok none) ∧
    (run.futureApiPumps.map Prod.fst = run.futures.map Prod.fst ∧ (run.futures.map Prod.fst).Nodup) ∧
    (∀ unit, unit ∈ run.inFlight ↔ unit ∈ run.futures.map Prod.snd) ∧
    (∀ future unit pumps, (future, unit) ∈ run.futures → (future, pumps) ∈ run.futureApiPumps →
      unit ∈ scheduler.units ∧ scheduler.Covers unit pumps) ∧
    (run.phase = .idle → run.futures = [] ∧ run.futureApiPumps = []) := by
  obtain ⟨records, tracked, idle⟩ := run_agrees reached
  have numbers : run.futures.map Prod.fst = records.map FlightRecord.future := by
    rw [tracked.futures, List.map_map]
    rfl
  have flying : run.futures.map Prod.snd = records.map FlightRecord.unit := by
    rw [tracked.futures, List.map_map]
    rfl
  refine ⟨fun _ => wave_ends tracked, ⟨?_, numbers ▸ tracked.numbered⟩, fun unit => flying ▸ tracked.flight unit, ?_, ?_⟩
  · rw [numbers, tracked.pumps, List.map_map]
    rfl
  · intro future unit pumps submitted given
    rw [tracked.futures] at submitted
    rw [tracked.pumps] at given
    obtain ⟨record, listed, same⟩ := List.mem_map.mp submitted
    obtain ⟨other, present, again⟩ := List.mem_map.mp given
    cases same
    cases List.inj_on_of_nodup_map tracked.numbered present listed (congrArg Prod.fst again)
    cases again
    exact ⟨tracked.inside record listed, tracked.covered record listed⟩
  · intro resting
    rw [tracked.futures, tracked.pumps, idle resting]
    exact ⟨rfl, rfl⟩

end Waves

section Examples

variable {scheduler : UnitScheduler} {run : DagExecution} {wave : Wave} {labels : List DagLabel} {reads : WaveReads}

def waveAfter (scheduler : UnitScheduler) (labels : List DagLabel) (reads : WaveReads) : Option (DagExecution × Wave) :=
  (labels.foldlM scheduler.step .start).bind fun run =>
    match scheduler.wave reads run with
    | .ok (some wave) => if run.phase = .looping then some (run, wave) else none
    | _ => none

theorem wave_after_reached (found : waveAfter scheduler labels reads = some (run, wave)) :
    Run scheduler.Step .start labels run ∧ run.phase = .looping ∧ scheduler.wave reads run = .ok (some wave) := by
  obtain ⟨before, computed, rest⟩ := Option.bind_eq_some_iff.mp found
  cases outcome : scheduler.wave reads before with
  | error raised =>
      rw [outcome] at rest
      cases rest
  | ok planned =>
      cases planned with
      | none =>
          rw [outcome] at rest
          cases rest
      | some planned =>
          rw [outcome] at rest
          obtain ⟨looping, same⟩ := Option.ite_none_right_eq_some.mp rest
          cases same
          exact ⟨Run.of_fold computed, looping, outcome⟩

def twoBranches : UnitScheduler where
  units := [["fetch"], ["script"], ["score"]]
  distinct := by decide
  members := by decide
  apart := by decide
  apiNode := fun node => node ≠ "script"
  sequential := false
  interruptBlocked := []
  refuseAfter := none
  refuseBefore := none
  parentComponent := none

def branchReads (ready : Component → Bool) : WaveReads :=
  let reads := fun unit => (⟨false, false, some .queued, true, ready unit, true⟩ : UnitReads)
  ⟨false, false, fun _ => false, reads, fun _ => 768, some 4, reads, fun _ => .finished ⟨[], [], true, true⟩, reads⟩

def firstWave : WaveReads := branchReads fun unit => unit ≠ ["score"]

def resumedLabels : List DagLabel :=
  [.call, .wave firstWave, .finish [(0, .failed ⟨[], [("fetch", 1)], true, false⟩)], .collect,
    .resume false [(["script"], ⟨[], [], true, true⟩), (["fetch"], ⟨[("fetch", 1)], [], true, false⟩)], .call]

-- A failed unit is resumed beside a unit that is now ready: it keeps the whole pool of its first launch,
-- and the other unit gets its share of the same pool.
theorem resumed_unit_exceeds_target : ∃ run wave, Run twoBranches.Step .start resumedLabels run ∧ run.phase = .looping ∧
    twoBranches.wave (branchReads fun unit => unit ≠ ["script"]) run = .ok (some wave) ∧
    max run.runningPumps wave.plan.target <
      run.runningPumps + (wave.launched.map fun launch => launch.held.total).sum := by
  have computed : (waveAfter twoBranches resumedLabels (branchReads fun unit => unit ≠ ["script"])).any fun found =>
      max found.1.runningPumps found.2.plan.target <
        found.1.runningPumps + (found.2.launched.map fun launch => launch.held.total).sum := by decide +kernel
  obtain ⟨⟨run, wave⟩, found, exceeds⟩ := (Option.any_eq_true _ _).mp computed
  obtain ⟨reached, looping, planned⟩ := wave_after_reached found
  exact ⟨run, wave, reached, looping, planned, of_decide_eq_true exceeds⟩

def laterLabels : List DagLabel := [.call, .wave firstWave, .finish [(1, .finished ⟨[], [], true, true⟩)]]

def laterRun (labels : List DagLabel) : DagExecution := (labels.foldlM twoBranches.step .start).getD .start

theorem first_called : Run twoBranches.KeptStep .start [.call] (laterRun [.call]) :=
  .snoc (.nil _) ⟨by rfl, trivial⟩

theorem first_meets : twoBranches.Meets (laterRun [.call]) (.wave firstWave) := fun _ _ _ _ _ here => nomatch here

theorem later_kept : Run twoBranches.KeptStep .start laterLabels (laterRun laterLabels) := by
  have second : twoBranches.Step (laterRun [.call]) (.wave firstWave) (laterRun [.call, .wave firstWave]) := by
    show twoBranches.step _ _ = _
    decide +kernel
  have third : twoBranches.Step (laterRun [.call, .wave firstWave]) (.finish [(1, .finished ⟨[], [], true, true⟩)])
      (laterRun laterLabels) := by
    show twoBranches.step _ _ = _
    decide +kernel
  exact .snoc (.snoc first_called ⟨second, first_meets⟩) ⟨third, trivial⟩

-- The first wave launches both branches within its target; while the one of them that is left runs with the
-- whole pool, the unit that is ready next waits.
theorem dag_wave_accounting_waits :
    (∃ wave : Wave, (wave.launched.map Launch.unit) = [["fetch"], ["script"]] ∧ (∀ launch ∈ wave.launched, ∀ node ∈ launch.unit,
        twoBranches.apiNode node = true → 1 ≤ launch.given.of node ∧ 1 ≤ launch.held.of node) ∧
      (wave.launched.map fun launch => launch.held.total).sum ≤ wave.plan.target) ∧
    ∃ wave : Wave, ["score"] ∈ wave.ready ∧ ["score"] ∉ wave.plan.launch ∧
      (laterRun laterLabels).futures ≠ [] ∧ wave.after.phase ≠ .returned ∧
      (laterRun laterLabels).runningPumps + (wave.launched.map fun launch => launch.held.total).sum ≤
        max (laterRun laterLabels).runningPumps wave.plan.target := by
  constructor
  · have computed : (waveAfter twoBranches [.call] firstWave).any fun found =>
        found.1 = laterRun [.call] ∧ found.2.launched.map Launch.unit = [["fetch"], ["script"]] := by decide +kernel
    obtain ⟨⟨run, wave⟩, found, facts⟩ := (Option.any_eq_true _ _).mp computed
    obtain ⟨rfl, both⟩ := of_decide_eq_true facts
    obtain ⟨reached, looping, planned⟩ := wave_after_reached found
    have result := dag_wave_accounting twoBranches [.call] _ reached looping _ wave planned
    have within := result.2.2.2 first_called first_meets
    have still : (laterRun [.call]).runningPumps = 0 := by rfl
    exact ⟨wave, both, result.1, by omega⟩
  · have computed : (waveAfter twoBranches laterLabels (branchReads fun unit => unit = ["score"])).any fun found =>
        found.1 = laterRun laterLabels ∧ ["score"] ∈ found.2.ready ∧ ["score"] ∉ found.2.plan.launch ∧
          found.2.launched = [] := by decide +kernel
    obtain ⟨⟨run, wave⟩, found, facts⟩ := (Option.any_eq_true _ _).mp computed
    obtain ⟨rfl, ready, waits, nothing⟩ := of_decide_eq_true facts
    obtain ⟨reached, looping, planned⟩ := wave_after_reached found
    have result := dag_wave_accounting twoBranches laterLabels _ reached looping _ wave planned
    have waiting := result.2.2.1 _ ready waits
    refine ⟨wave, ready, waits, waiting.1, waiting.2, result.2.2.2 later_kept fun other again launch member => ?_⟩
    rw [planned] at again
    cases again
    rw [nothing] at member
    cases member

theorem later_wave_ends : twoBranches.wave (branchReads fun unit => unit = ["score"]) (laterRun laterLabels) ≠ .ok none ∧
    (laterRun laterLabels).futures = [(0, ["fetch"])] :=
  ⟨(dag_tables_agree (later_kept.imp And.left)).1 _, by decide +kernel⟩

end Examples

end MicroWorkflow
