import ControlPlane.Proofs.Sync.LoopRun

/-!
# Shutting the background loop down

However the loop is told to stop, it completes the cycle that it is in, returns as soon as it finds out,
and begins no other (`Background.shutdown_cuts_no_cycle`). What other tasks ask for and read goes on
unharmed meanwhile.

A loop that is only woken, by a signal that does not say stop, does the same work as one that is told
nothing: the events that are about the channel can be left out of its run (`Background.Matches.run`).
-/

namespace ControlPlane

namespace Sync

open LocalConfig

namespace Background

variable {view : ClusterView} {loop loop' : Background} {event : Event} {events : List Event}

/-! ## A loop that has returned -/

theorem step_of_returned (h : loop.phase = .returned) (hstep : loop.step? event = some loop') :
    loop'.phase = .returned ∧ loop'.fired = loop.fired ∧ loop'.sightings = loop.sightings := by
  cases took_of_step? hstep with
  | around | sent | dropped | read => exact ⟨h, rfl, rfl⟩
  | ticked hphase | resumed hphase | noticed hphase | left hphase | looked hphase =>
    rw [h] at hphase
    cases hphase

/-- A loop that has returned fires no tick and looks at nothing any more. -/
theorem run_of_returned (h : loop.phase = .returned) (hrun : run? events loop = some loop') :
    loop'.phase = .returned ∧ loop'.fired = loop.fired ∧ loop'.sightings = loop.sightings := by
  let Same (between : Background) : Prop := between.phase = .returned ∧
    between.fired = loop.fired ∧ between.sightings = loop.sightings
  have hstart : Same loop := ⟨h, rfl, rfl⟩
  refine run?_keeps (fun {between event next} hsame hstep => ?_) hstart hrun
  obtain ⟨hphase, hfired, hsightings⟩ := step_of_returned hsame.1 hstep
  exact ⟨hphase, hfired.trans hsame.2.1, hsightings.trans hsame.2.2⟩

/-- Where no cycle of the loop is pending there is one that has ended for each tick. -/
theorem Orderly.count_past (h : loop.Orderly view) (hphase : loop.phase ≠ .cycling) :
    (loop.staged.past.map (·.trigger)).count loopTrigger = loop.fired.length := by
  have hticks := h.ticks
  rw [Staged.triggers, List.count_append, List.count_eq_zero.mpr (h.ended hphase)] at hticks
  exact hticks

/-! ## Signals that do not say stop -/

/-- Whether an event is about the channel. -/
def Event.isSignal : Event → Bool
  | .send _ | .drop | .notice | .look => true
  | _ => false

/-- Whether another loop that is told nothing does the same work as one that is not told to stop. -/
structure Matches (loop other : Background) : Prop where
  /-- The synchronizers are the same. -/
  staged : other.staged = loop.staged
  /-- The next tick is due at the same time. -/
  due : other.due = loop.due
  /-- The same ticks have fired. -/
  fired : other.fired = loop.fired
  /-- The same has been read. -/
  reads : other.reads = loop.reads
  /-- The loops stand at the same place, but only one may look at the channel. -/
  phase : other.phase = if loop.phase = .noticing then .selecting else loop.phase
  /-- Nothing but what does not say stop was sent. -/
  quiet : loop.channel.stop = false
  /-- The channel is open. -/
  unclosed : loop.channel.closed = false
  /-- The loop goes on. -/
  going : loop.phase ≠ .returned

namespace Matches

variable {other : Background}

theorem signal (h : loop.Matches other) (hstep : loop.step? event = some loop')
    (hsignal : event.isSignal = true) (hstop : event ≠ .send true) (hdrop : event ≠ .drop) :
    loop'.Matches other := by
  cases took_of_step? hstep with
  | around | ticked | resumed | read => cases hsignal
  | dropped => exact absurd rfl hdrop
  | sent stop =>
    cases stop with
    | true => exact absurd rfl hstop
    | false => exact ⟨h.staged, h.due, h.fired, h.reads, h.phase, rfl, rfl, h.going⟩
  | noticed hphase _ =>
    have hselecting : other.phase = .selecting := by
      rw [h.phase, hphase]
      rfl
    exact ⟨h.staged, h.due, h.fired, h.reads, hselecting, h.quiet, h.unclosed, nofun⟩
  | left _ _ hclosed =>
    rw [h.unclosed] at hclosed
    cases hclosed
  | looked hphase =>
    have hselecting : other.phase = .selecting := by
      rw [h.phase, hphase]
      rfl
    have hgoes : (loop.sees (.sent loop.channel.stop)).phase = .selecting := by
      rw [h.quiet]
      rfl
    refine ⟨h.staged, h.due, h.fired, h.reads, ?_, h.quiet, h.unclosed, ?_⟩
    · rw [hgoes, hselecting]
      rfl
    · rw [hgoes]
      nofun

theorem work (h : loop.Matches other) (hstep : loop.step? event = some loop')
    (hsignal : event.isSignal = false) :
    ∃ other', other.step? event = some other' ∧ loop'.Matches other' := by
  have hsame (hphase : loop.phase ≠ .noticing) : other.phase = loop.phase := by
    rw [h.phase, if_neg hphase]
  cases took_of_step? hstep with
  | sent | dropped | noticed | left | looked => cases hsignal
  | around event hasked staged hstaged =>
    refine ⟨{ other with staged := staged }, step?_around hasked (h.staged ▸ hstaged), ?_⟩
    exact ⟨rfl, h.due, h.fired, h.reads, h.phase, h.quiet, h.unclosed, h.going⟩
  | ticked hphase hdue =>
    have hother : other.phase = .selecting := (hsame (by rw [hphase]; decide)).trans hphase
    have hready : other.due ≤ other.staged.node.now := by
      rw [h.due, h.staged]
      exact hdue
    have hgoing : Phase.cycling ≠ .returned := by decide
    refine ⟨other.fire, if_pos ⟨hother, hready⟩, ?_, ?_, ?_, h.reads, rfl, h.quiet, h.unclosed, hgoing⟩
    · rw [fire, fire, h.staged]
    · rw [fire, fire, h.staged, h.due]
    · rw [fire, fire, h.staged, h.fired]
  | resumed hphase hended =>
    have hother : other.phase = .cycling := (hsame (by rw [hphase]; decide)).trans hphase
    have hgoing : Phase.selecting ≠ .returned := by decide
    refine ⟨{ other with phase := .selecting }, if_pos ⟨hother, h.staged ▸ hended⟩, ?_⟩
    exact ⟨h.staged, h.due, h.fired, h.reads, rfl, h.quiet, h.unclosed, hgoing⟩
  | read hfree =>
    have hother : other.staged.running.isNone = true := by
      rw [h.staged, hfree]
      rfl
    refine ⟨_, if_pos hother, h.staged, h.due, h.fired, ?_, h.phase, h.quiet, h.unclosed, h.going⟩
    rw [h.reads, h.staged]

/-- The two loops do the same work all along. -/
theorem run (h : loop.Matches other) (hrun : run? events loop = some loop')
    (hstop : .send true ∉ events) (hdrop : .drop ∉ events) :
    ∃ other', run? (events.filter fun event => !event.isSignal) other = some other' ∧
      loop'.Matches other' := by
  induction events generalizing loop other with
  | nil =>
    cases hrun
    exact ⟨other, rfl, h⟩
  | cons event events ih =>
    obtain ⟨between, hstep, hrest⟩ := Option.bind_eq_some_iff.mp hrun
    rw [List.mem_cons, not_or] at hstop hdrop
    cases hsignal : event.isSignal with
    | true =>
      rw [List.filter_cons_of_neg (by rw [hsignal]; decide)]
      exact ih (h.signal hstep hsignal (Ne.symm hstop.1) (Ne.symm hdrop.1)) hrest hstop.2 hdrop.2
    | false =>
      obtain ⟨next, hnext, hmatches⟩ := h.work hstep hsignal
      obtain ⟨other', hother, hmatches'⟩ := ih hmatches hrest hstop.2 hdrop.2
      rw [List.filter_cons_of_pos (by rw [hsignal]; rfl)]
      exact ⟨other', (run?_cons hnext).trans hother, hmatches'⟩

end Matches

/-- Sending what does not say stop makes an idle loop look, and go on waiting. -/
theorem run?_woken (hphase : loop.phase = .selecting) (hopen : loop.channel.closed = false) :
    run? [.send false, .notice, .look] loop = some { loop with
      channel := ⟨false, false, false⟩
      sightings := loop.sightings ++ [.sent false] } := by
  have hsend : loop.step? (.send false) = some { loop with channel := ⟨false, true, false⟩ } := by
    rw [step?, hopen]
    rfl
  rw [run?_cons hsend]
  obtain ⟨staged, phase, due, channel, fired, sightings, reads⟩ := loop
  cases hphase
  rfl

/-! ## What is in the channel -/

/-- What an event sends. -/
def Event.sent? : Event → Option Bool
  | .send stop => some stop
  | _ => none

theorem channel_step (hstep : loop.step? event = some loop') :
    loop'.channel.stop = event.sent?.getD loop.channel.stop ∧
      (loop'.channel.closed = true ↔ loop.channel.closed = true ∨ event = .drop) := by
  cases took_of_step? hstep with
  | sent stop hopen => simp [Event.sent?, hopen]
  | dropped => simp [Event.sent?]
  | around | ticked | resumed | noticed | left | looked | read =>
    simp [Event.sent?, fire, sees]

/-- What was sent last stands in the channel, and the channel is closed just if it has been. -/
theorem channel_run (hrun : run? events loop = some loop') :
    loop'.channel.stop = (events.filterMap Event.sent?).getLastD loop.channel.stop ∧
      (loop'.channel.closed = true ↔ loop.channel.closed = true ∨ .drop ∈ events) := by
  induction events generalizing loop with
  | nil =>
    cases hrun
    simp
  | cons event events ih =>
    obtain ⟨between, hstep, hrest⟩ := Option.bind_eq_some_iff.mp hrun
    obtain ⟨hstop, hclosed⟩ := channel_step hstep
    obtain ⟨hstop', hclosed'⟩ := ih hrest
    constructor
    · rw [hstop', hstop]
      cases hsent : event.sent? with
      | none => rw [List.filterMap_cons_none hsent, Option.getD_none]
      | some stop => rw [List.filterMap_cons_some hsent, List.getLastD_cons, Option.getD_some]
    · rw [hclosed', hclosed, List.mem_cons, or_assoc, @eq_comm _ Event.drop]

/-! ## Every run -/

theorem exists_step_either (hphase : loop.phase = .selecting) (hdue : loop.due ≤ loop.staged.node.now)
    (hchannel : loop.channel.changed = true ∨ loop.channel.closed = true) :
    (∃ loop', loop.step? .tick = some loop') ∧ ∃ loop', loop.step? .notice = some loop' := by
  refine ⟨⟨loop.fire, if_pos ⟨hphase, hdue⟩⟩, ?_⟩
  cases hchanged : loop.channel.changed with
  | true => simp [step?, hphase, hchanged]
  | false =>
    rw [hchanged] at hchannel
    simp [step?, hphase, hchanged, hchannel.resolve_left Bool.false_ne_true]

theorem fired_step (hstep : loop.step? event = some loop') (hevent : event ≠ .tick) :
    loop'.fired = loop.fired := by
  cases took_of_step? hstep with
  | ticked => exact absurd rfl hevent
  | around | resumed | sent | dropped | noticed | left | looked | read => rfl

theorem sighted_step (hstep : loop.step? event = some loop') :
    loop'.sightings = loop.sightings ∧ (loop'.phase = .returned ↔ loop.phase = .returned) ∨
    ∃ sighting, loop'.sightings = loop.sightings ++ [sighting] ∧
      (sighting = .sent loop.channel.stop ∨ sighting = .closed ∧ loop.channel.closed = true) ∧
      (loop'.phase = .returned ↔ sighting.stops = true) := by
  have hsees (sighting : Sighting) :
      (loop.sees sighting).phase = .returned ↔ sighting.stops = true := by
    unfold Background.sees
    cases sighting.stops <;> simp
  cases took_of_step? hstep with
  | around | sent | dropped | read => exact .inl ⟨rfl, Iff.rfl⟩
  | ticked hphase | resumed hphase | noticed hphase =>
    refine .inl ⟨rfl, ?_⟩
    rw [hphase]
    exact ⟨nofun, nofun⟩
  | left _ _ hclosed => exact .inr ⟨.closed, rfl, .inr ⟨rfl, hclosed⟩, hsees _⟩
  | looked => exact .inr ⟨.sent loop.channel.stop, rfl, .inl rfl, hsees _⟩

/-- What makes the shutdown of a loop a clean one. -/
structure Graceful (loop : Background) : Prop where
  /-- The loop has asked for a cycle at each tick. -/
  ticks : loop.staged.triggers.count loopTrigger = loop.fired.length
  /-- It asks for one at nothing else. -/
  only : ∀ {event loop'}, loop.step? event = some loop' → event ≠ .tick →
    loop'.staged.triggers.count loopTrigger = loop.staged.triggers.count loopTrigger
  /-- When it attends to the channel, all its cycles have ended. -/
  attends : ∀ {event loop'}, loop.step? event = some loop' → event = .notice ∨ event = .look →
    loopTrigger ∉ loop.staged.pending ∧
      (loop.staged.past.map (·.trigger)).count loopTrigger = loop.fired.length
  /-- A cycle that ends has made all its calls by then, and what it has found is remembered. -/
  ends : ∀ {event loop'}, loop.step? event = some loop' → loop'.staged.past = loop.staged.past ∨
    ∃ finished, loop'.staged.past = loop.staged.past ++ [finished] ∧
      finished.Completed loop'.staged.node.now ∧ loop'.staged.node.memory = finished.finish
  /-- So had all cycles that have ended. -/
  completed : ∀ finished ∈ loop.staged.past, ∃ ended, finished.Completed ended
  /-- If a tick is due and something has become of the channel, the loop can take either. -/
  either : loop.phase = .selecting → loop.due ≤ loop.staged.node.now →
    loop.channel.changed = true ∨ loop.channel.closed = true →
    (∃ loop', loop.step? .tick = some loop') ∧ ∃ loop', loop.step? .notice = some loop'
  /-- What the loop finds in the channel was sent last, or the channel is closed. If this says stop it
  returns at once, and it returns at nothing else. -/
  sights : ∀ {event loop'}, loop.step? event = some loop' →
    loop'.sightings = loop.sightings ∧ (loop'.phase = .returned ↔ loop.phase = .returned) ∨
    ∃ sighting, loop'.sightings = loop.sightings ++ [sighting] ∧
      (sighting = .sent loop.channel.stop ∨ sighting = .closed ∧ loop.channel.closed = true) ∧
      (loop'.phase = .returned ↔ sighting.stops = true)
  /-- It has returned just if it has found something that says stop. -/
  returned : loop.phase = .returned ↔ ∃ sighting ∈ loop.sightings, sighting.stops = true
  /-- This was what it found last. -/
  last : ∀ {earlier sighting}, loop.sightings = earlier ++ [sighting] →
    ∀ other ∈ earlier, other.stops = false
  /-- A loop that has returned asks for no cycle any more, and has none that has not ended. -/
  silent : loop.phase = .returned → ∀ {later loop'}, run? later loop = some loop' →
    loop'.phase = .returned ∧ loop'.sightings = loop.sightings ∧ loopTrigger ∉ loop'.staged.pending ∧
      loop'.staged.triggers.count loopTrigger = loop.staged.triggers.count loopTrigger
  /-- An idle loop that is only woken goes on waiting for the tick that is due. -/
  woken : loop.phase = .selecting → loop.channel.closed = false →
    run? [.send false, .notice, .look] loop = some { loop with
      channel := ⟨false, false, false⟩
      sightings := loop.sightings ++ [.sent false] }
  /-- The calls are those of the cycles that have ended, one cycle after another, and those that the cycle
  that has its turn has made so far. -/
  calls : ∃ current, loop.staged.node.calls.map TimedCall.call =
      loop.staged.past.flatMap (·.calls) ++ current ∧
    (current ≠ [] → ∃ running gates, loop.staged.running = some running ∧ running.Lists gates ∧
      running.calls = current ∧ current <+: running.wants gates)
  /-- Whatever another task has read was left by the cycles that had ended. -/
  reads : ∀ snapshot ∈ loop.reads, ∃ before, before <+: loop.staged.past ∧
    snapshot = Staged.knownBy before
  /-- A loop that waits for its cycle can go on when this has ended, and it can end. -/
  resumes : loop.phase = .cycling →
    ∃ staged, loop.Proceeds { loop with staged := staged, phase := .selecting }
  /-- A loop that is told to stop can return without another tick. -/
  leaves : loop.channel.closed = true ∨ loop.channel.changed = true ∧ loop.channel.stop = true →
    ∃ loop', loop.Reaches loop' ∧ loop'.phase = .returned ∧ loop'.fired = loop.fired

namespace Orderly

theorem returned_iff (h : loop.Orderly view) :
    loop.phase = .returned ↔ ∃ sighting ∈ loop.sightings, sighting.stops = true := by
  constructor
  · intro hphase
    obtain ⟨earlier, last, hsightings, hstops, -⟩ := h.gone hphase
    exact ⟨last, hsightings ▸ List.mem_append_right _ (List.mem_singleton_self last), hstops⟩
  · rintro ⟨sighting, hmem, hstops⟩
    by_contra hphase
    rw [h.going hphase sighting hmem] at hstops
    cases hstops

theorem going_before (h : loop.Orderly view) {earlier : List Sighting} {sighting : Sighting}
    (hsightings : loop.sightings = earlier ++ [sighting]) : ∀ other ∈ earlier, other.stops = false := by
  by_cases hphase : loop.phase = .returned
  · obtain ⟨earlier', last, hsightings', -, hgoing⟩ := h.gone hphase
    obtain ⟨rfl, -⟩ := List.append_inj' (hsightings.symm.trans hsightings') rfl
    exact hgoing
  · intro other hother
    exact h.going hphase other (hsightings ▸ List.mem_append_left _ hother)

/-- The calls are those of the cycles, and the last ones those of the cycle that has its turn. -/
theorem exists_current (h : loop.Orderly view) :
    ∃ current, loop.staged.node.calls.map TimedCall.call =
        loop.staged.past.flatMap (·.calls) ++ current ∧
      (current ≠ [] → ∃ running gates, loop.staged.running = some running ∧ running.Lists gates ∧
        running.calls = current ∧ current <+: running.wants gates) := by
  have hcalls := h.thorough.calls
  rw [Staged.cycles, List.flatMap_append, List.flatMap_map] at hcalls
  cases hrunning : loop.staged.running with
  | none =>
    rw [hrunning] at hcalls
    exact ⟨[], hcalls, fun hcurrent => absurd rfl hcurrent⟩
  | some running =>
    rw [hrunning, Option.toList_some, List.map_singleton, List.flatMap_singleton] at hcalls
    refine ⟨running.calls, hcalls, fun hcurrent => ?_⟩
    have htraced := h.thorough.traced running.toCycle (Staged.mem_cycles hrunning)
    obtain ⟨-, look, gates, -, hgates, hfound, -, hprefix⟩ := htraced.drawn_of_calls hcurrent
    exact ⟨running, gates, rfl, ⟨look, hgates, hfound⟩, rfl, hprefix⟩

theorem graceful (h : loop.Orderly view) : loop.Graceful where
  ticks := h.ticks
  only := fun hstep hevent => by
    rw [(h.step hstep).ticks, h.ticks, fired_step hstep hevent]
  attends := by
    intro event loop' hstep hevent
    have hphase : loop.phase ≠ .cycling := by
      rcases hevent with rfl | rfl
      · cases took_of_step? hstep with
        | noticed hphase | left hphase => rw [hphase]; decide
      · cases took_of_step? hstep with
        | looked hphase => rw [hphase]; decide
    exact ⟨h.ended hphase, h.count_past hphase⟩
  ends := by
    intro event loop' hstep
    cases took_of_step? hstep with
    | around event _ staged hstaged =>
      cases h.thorough.toSound.went h.thorough.recorded hstaged with
      | on _ hpast _ => exact .inl hpast
      | ended finished hpast _ hcompleted hmemory => exact .inr ⟨finished, hpast, hcompleted, hmemory⟩
    | ticked | resumed | sent | dropped | noticed | left | looked | read => exact .inl rfl
  completed := h.thorough.completed
  either := exists_step_either
  sights := sighted_step
  returned := h.returned_iff
  last := h.going_before
  silent := by
    intro hphase later loop' hrun
    obtain ⟨hphase', hfired, hsightings⟩ := run_of_returned hphase hrun
    have h' := h.run hrun
    refine ⟨hphase', hsightings, h'.ended (by rw [hphase']; decide), ?_⟩
    rw [h'.ticks, h.ticks, hfired]
  woken := run?_woken
  calls := h.exists_current
  reads := h.reads
  resumes := h.exists_proceeds_selecting
  leaves := h.exists_return

end Orderly

/--
Whatever happens around the loop, and in whichever order it takes what is ready:

- the loop asks for a cycle at each tick and at nothing else, and each of its cycles has come to its end
  before it looks at the channel, it returns when it finds for the first time that it should stop, and it
  asks for no cycle after that (`Graceful`);
- what it finds was sent last, and the channel is closed just if it has been;
- if it is not told to stop it does the same work as if it were told nothing, and does not return;
- the loop in virtual time is one that can go so.
-/
theorem shutdown_cuts_no_cycle {timing : Timing} {db : Database} {earlier : List Staged.Event}
    {staged : Staged} (hearlier : Staged.run? earlier (.initial timing view db) = some staged)
    (hothers : loopTrigger ∉ staged.triggers) :
    (∀ {events loop}, run? events (start staged) = some loop →
      loop.Graceful ∧
      (loop.channel.stop = (events.filterMap Event.sent?).getLastD false ∧
        (loop.channel.closed = true ↔ .drop ∈ events)) ∧
      (.send true ∉ events → .drop ∉ events → loop.phase ≠ .returned ∧
        ∃ other, run? (events.filter fun event => !event.isSignal) (start staged) = some other ∧
          other.staged = loop.staged ∧ other.due = loop.due ∧ other.fired = loop.fired ∧
          other.reads = loop.reads)) ∧
    ∀ {α : Type} (duration : Nat) {played : List (Sync.Event α)}, staged.running = none →
      staged.waiting = [] → (∀ event ∈ played, Ordinary event.deed) →
      ∃ loop, (start staged).Reaches loop ∧ loop.phase = .returned ∧
        loop.staged.node = (staged.node.runLoop duration played).2 := by
  have hstart : (start staged).Orderly view :=
    .start ((Staged.Thorough.start timing view db).run hearlier) hothers
  refine ⟨?_, fun duration played hfree hnobody => exists_reaches_runLoop hfree hnobody duration⟩
  intro events loop hrun
  refine ⟨(hstart.run hrun).graceful, ?_, ?_⟩
  · obtain ⟨hstop, hclosed⟩ := channel_run hrun
    refine ⟨hstop, hclosed.trans ?_⟩
    exact or_iff_right Bool.false_ne_true
  · intro hstop hdrop
    have hmatches : (start staged).Matches (start staged) :=
      ⟨rfl, rfl, rfl, rfl, rfl, rfl, rfl, nofun⟩
    obtain ⟨other, hother, h⟩ := hmatches.run hrun hstop hdrop
    exact ⟨h.going, other, hother, h.staged, h.due, h.fired, h.reads⟩

/-- A loop is woken, and is told to stop while a call of its first cycle is about to be made. Another task
forces a cycle meanwhile. -/
def stopped : List Event :=
  [.send false, .tick, .around (.begin loopTrigger), .around (.readMode none),
    .around (.ask forcedTrigger), .around (.listGates none), .send true, .around .launch,
    .around .close, .resume, .around (.begin forcedTrigger), .notice, .around (.readMode none), .look,
    .around (.listGates none), .read]

/-- A loop is woken during its first cycle and before the second one. -/
def woken : List Event :=
  [.tick, .around (.begin loopTrigger), .around (.readMode none), .send false,
    .around (.listGates none), .around .launch, .around .close, .resume, .notice, .look,
    .around (.wait 5000), .send false, .tick, .around (.begin loopTrigger)]

/-- The loop that is told to stop has no cycle after its first one, the one that is woken has its second one
as if it had not been, and the loop in virtual time returns after a forced cycle and its own. -/
theorem shutdown_cuts_no_cycle_told :
    ∃ staged, Staged.run? [Staged.committed (.createGate "a" true)]
        (.initial .standard .standard Schema.fresh) = some staged ∧
      (∃ loop, run? stopped (start staged) = some loop ∧ loop.phase = .returned ∧
        loop.channel.stop = true ∧ ∀ later loop', run? later loop = some loop' →
          loop'.staged.triggers.count loopTrigger = 1) ∧
      (∃ loop other, run? woken (start staged) = some loop ∧ loop.fired = [0, 5000] ∧
        run? (woken.filter fun event => !event.isSignal) (start staged) = some other ∧
        other.staged = loop.staged ∧ other.fired = loop.fired) ∧
      ∃ loop, (start staged).Reaches loop ∧ loop.phase = .returned ∧
        loop.staged.node =
          (staged.node.runLoop 8000 ([⟨3000, .force⟩, ⟨4000, .signal false⟩] : List (Sync.Event Unit))).2 := by
  have hruns : ((Staged.run? [Staged.committed (.createGate "a" true)]
      (.initial .standard .standard Schema.fresh)).bind fun staged =>
        (run? stopped (start staged)).bind fun first => (run? woken (start staged)).map fun second =>
          (staged.triggers, first.phase, first.fired, second.fired)) =
      some ([], .returned, [0], [0, 5000]) := by
    decide +kernel
  obtain ⟨staged, hearlier, hruns⟩ := Option.bind_eq_some_iff.mp hruns
  obtain ⟨first, hfirst, hruns⟩ := Option.bind_eq_some_iff.mp hruns
  obtain ⟨second, hsecond, hruns⟩ := Option.map_eq_some_iff.mp hruns
  simp only [Prod.mk.injEq] at hruns
  obtain ⟨htriggers, hphase, hfired, hfired'⟩ := hruns
  have hothers : loopTrigger ∉ staged.triggers := htriggers ▸ List.not_mem_nil
  obtain ⟨hall, hvirtual⟩ := shutdown_cuts_no_cycle hearlier hothers
  obtain ⟨hgraceful, ⟨hstop, -⟩, -⟩ := hall hfirst
  obtain ⟨-, -, hwoken⟩ := hall hsecond
  refine ⟨staged, hearlier, ⟨first, hfirst, hphase, hstop, ?_⟩, ?_, ?_⟩
  · intro later loop' hlater
    obtain ⟨-, -, -, hcount⟩ := hgraceful.silent hphase hlater
    rw [hcount, hgraceful.ticks, hfired]
    rfl
  · obtain ⟨-, other, hother, hstaged, -, hsame, -⟩ := hwoken (by simp [woken]) (by simp [woken])
    exact ⟨second, other, hsecond, hfired', hother, hstaged, hsame⟩
  · cases hearlier
    refine hvirtual 8000 rfl rfl ?_
    rintro event (_ | ⟨_, _ | ⟨_, hnone⟩⟩)
    · exact .force
    · exact .wake
    · cases hnone

end Background

end Sync

end ControlPlane
