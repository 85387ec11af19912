import ControlPlane.Proofs.Sync.CycleEnds
import ControlPlane.Proofs.Sync.StageRuns
import ControlPlane.Sync.Loop

/-!
# The background loop among other tasks

The background loop shares its synchronizer with other tasks. It waits until a tick is due or something
has become of the channel that tells it to stop; if both is the case it may take either. At a tick it asks
for a cycle and waits until this has ended. When something was sent it looks at what was sent last, and
returns if that says stop. It also returns if the channel is closed and all that was sent has been noticed.

A `Background` notes when ticks fired, what the loop found in the channel, and what other tasks have read.
What always holds of it is `Background.Orderly`: there is a cycle of the loop for each tick, it has ended
before the loop attends to anything else, and the loop has returned just if it has found that it should.
-/

namespace ControlPlane

namespace Sync

open LocalConfig

/-! ## The loop -/

/-- By whom and how the background loop asks for its cycles. -/
def loopTrigger : Trigger := ⟨0, false⟩

/-- Where the background loop stands. -/
inductive Phase where
  /-- It waits for a tick or the channel. -/
  | selecting
  /-- It has noticed that something was sent. -/
  | noticing
  /-- A tick has fired, and it waits for its cycle to end. -/
  | cycling
  /-- It has returned. -/
  | returned
deriving DecidableEq

/-- The channel that tells the loop to stop. -/
structure Channel where
  /-- What was sent last. -/
  stop : Bool
  /-- Whether something was sent since the loop noticed it last. -/
  changed : Bool
  /-- Whether nothing can be sent any more. -/
  closed : Bool

/-- What the loop finds in the channel. -/
inductive Sighting where
  /-- What was sent last. -/
  | sent (stop : Bool)
  /-- That it is closed. -/
  | closed

/-- Whether the loop has to return. -/
def Sighting.stops : Sighting → Bool
  | .sent stop => stop
  | .closed => true

/-- The background loop and the synchronizer that it shares with other tasks. -/
structure Background where
  /-- The synchronizer. -/
  staged : Staged
  /-- Where the loop stands. -/
  phase : Phase
  /-- When the next tick is due. -/
  due : Nat
  /-- The channel. -/
  channel : Channel
  /-- When ticks have fired. -/
  fired : List Nat
  /-- What the loop has found in the channel. -/
  sightings : List Sighting
  /-- What other tasks have read of what is known. -/
  reads : List Snapshot

namespace Background

/-- What can happen to the loop and around it. -/
inductive Event where
  /-- Something happens to the synchronizer, but the loop does not ask for a cycle. -/
  | around (event : Staged.Event)
  /-- A tick fires, and the loop asks for a cycle. -/
  | tick
  /-- The loop goes on after its cycle. -/
  | resume
  /-- Something is sent. -/
  | send (stop : Bool)
  /-- The channel is closed. -/
  | drop
  /-- The loop notices that something has become of the channel. -/
  | notice
  /-- The loop looks at what was sent last. -/
  | look
  /-- Another task takes the lock and reads what is known. -/
  | read

/-- The loop when it starts. -/
def start (staged : Staged) : Background :=
  ⟨staged, .selecting, staged.node.now, ⟨false, false, false⟩, [], [], []⟩

/-- Fires a tick. -/
def fire (loop : Background) : Background :=
  { loop with
    staged := { loop.staged with waiting := loop.staged.waiting ++ [loopTrigger] }
    phase := .cycling
    due := nextDue loop.staged.node.timing.interval loop.due loop.staged.node.now
    fired := loop.fired ++ [loop.staged.node.now] }

/-- Goes on from what was found in the channel. -/
def sees (loop : Background) (sighting : Sighting) : Background :=
  { loop with
    phase := if sighting.stops then .returned else .selecting
    sightings := loop.sightings ++ [sighting] }

/-- Lets an event happen, if it can. -/
def step? (loop : Background) : Event → Option Background
  | .around event =>
    if loopTrigger ∈ event.asked then none
    else (loop.staged.step? event).map fun staged => { loop with staged := staged }
  | .tick =>
    if loop.phase = .selecting ∧ loop.due ≤ loop.staged.node.now then some loop.fire else none
  | .resume =>
    if loop.phase = .cycling ∧ loopTrigger ∉ loop.staged.pending then
      some { loop with phase := .selecting }
    else none
  | .send stop => if loop.channel.closed then none else some { loop with channel := ⟨stop, true, false⟩ }
  | .drop => some { loop with channel := { loop.channel with closed := true } }
  | .notice =>
    if loop.phase = .selecting then
      if loop.channel.changed then
        some { loop with phase := .noticing, channel := { loop.channel with changed := false } }
      else if loop.channel.closed then some (loop.sees .closed)
      else none
    else none
  | .look => if loop.phase = .noticing then some (loop.sees (.sent loop.channel.stop)) else none
  | .read =>
    if loop.staged.running.isNone then
      some { loop with reads := loop.reads ++ [loop.staged.node.memory.known] }
    else none

/-- Lets events happen one after another, if they can. -/
def run? : List Event → Background → Option Background
  | [], loop => some loop
  | event :: events, loop => (loop.step? event).bind (run? events)

variable {view : ClusterView} {loop loop' : Background} {event : Event}

/-- What an event can make of the loop. -/
inductive Took (loop : Background) : Event → Background → Prop
  /-- Something has happened to the synchronizer. -/
  | around (event : Staged.Event) (hasked : loopTrigger ∉ event.asked) (staged : Staged)
    (hstep : loop.staged.step? event = some staged) :
    Took loop (.around event) { loop with staged := staged }
  /-- A tick has fired. -/
  | ticked (hphase : loop.phase = .selecting) (hdue : loop.due ≤ loop.staged.node.now) :
    Took loop .tick loop.fire
  /-- The loop's cycle has ended, and the loop goes on. -/
  | resumed (hphase : loop.phase = .cycling) (hended : loopTrigger ∉ loop.staged.pending) :
    Took loop .resume { loop with phase := .selecting }
  /-- Something was sent. -/
  | sent (stop : Bool) (hopen : loop.channel.closed = false) :
    Took loop (.send stop) { loop with channel := ⟨stop, true, false⟩ }
  /-- The channel is closed. -/
  | dropped : Took loop .drop { loop with channel := { loop.channel with closed := true } }
  /-- The loop has noticed that something was sent. -/
  | noticed (hphase : loop.phase = .selecting) (hchanged : loop.channel.changed = true) :
    Took loop .notice
      { loop with phase := .noticing, channel := { loop.channel with changed := false } }
  /-- The loop has noticed that the channel is closed. -/
  | left (hphase : loop.phase = .selecting) (hchanged : loop.channel.changed = false)
    (hclosed : loop.channel.closed = true) : Took loop .notice (loop.sees .closed)
  /-- The loop has looked at what was sent last. -/
  | looked (hphase : loop.phase = .noticing) : Took loop .look (loop.sees (.sent loop.channel.stop))
  /-- Another task has read what is known. -/
  | read (hfree : loop.staged.running = none) :
    Took loop .read { loop with reads := loop.reads ++ [loop.staged.node.memory.known] }

theorem took_of_step? (h : loop.step? event = some loop') : loop.Took event loop' := by
  unfold step? at h
  cases event with
  | around event =>
    dsimp only at h
    split at h
    · cases h
    · next hasked =>
      obtain ⟨staged, hstep, rfl⟩ := Option.map_eq_some_iff.mp h
      exact .around event hasked staged hstep
  | tick =>
    dsimp only at h
    split at h
    · next hready =>
      cases h
      exact .ticked hready.1 hready.2
    · cases h
  | resume =>
    dsimp only at h
    split at h
    · next hready =>
      cases h
      exact .resumed hready.1 hready.2
    · cases h
  | send stop =>
    dsimp only at h
    split at h
    · cases h
    · next hopen =>
      cases h
      exact .sent stop (Bool.eq_false_iff.mpr hopen)
  | drop =>
    cases h
    exact .dropped
  | notice =>
    dsimp only at h
    split at h
    · next hphase =>
      split at h
      · next hchanged =>
        cases h
        exact .noticed hphase hchanged
      · next hchanged =>
        split at h
        · next hclosed =>
          cases h
          exact .left hphase (Bool.eq_false_iff.mpr hchanged) hclosed
        · cases h
    · cases h
  | look =>
    dsimp only at h
    split at h
    · next hphase =>
      cases h
      exact .looked hphase
    · cases h
  | read =>
    dsimp only at h
    split at h
    · next hfree =>
      cases h
      exact .read (Option.isNone_iff_eq_none.mp hfree)
    · cases h

theorem run?_cons {events : List Event} (h : loop.step? event = some loop') :
    run? (event :: events) loop = run? events loop' := by
  rw [run?, h]
  rfl

/-- What every event keeps, every run keeps. -/
theorem run?_keeps {Kept : Background → Prop}
    (hkeeps : ∀ {loop event loop'}, Kept loop → step? loop event = some loop' → Kept loop')
    {events : List Event} (h : Kept loop) (hrun : run? events loop = some loop') : Kept loop' := by
  induction events generalizing loop with
  | nil =>
    cases hrun
    exact h
  | cons event events ih =>
    obtain ⟨between, hstep, hrest⟩ := Option.bind_eq_some_iff.mp hrun
    exact ih (hkeeps h hstep) hrest

/-! ## What holds at all times -/

/-- What holds of the loop and the synchronizer. -/
structure Orderly (view : ClusterView) (loop : Background) : Prop where
  /-- The cycles of the synchronizer keep account. -/
  thorough : loop.staged.Thorough view
  /-- There is a cycle of the loop for each tick. -/
  ticks : loop.staged.triggers.count loopTrigger = loop.fired.length
  /-- At most one of them has not ended. -/
  single : loop.staged.pending.count loopTrigger ≤ 1
  /-- All of them have ended unless the loop waits for one. -/
  ended : loop.phase ≠ .cycling → loopTrigger ∉ loop.staged.pending
  /-- A loop that has not returned has found no reason to. -/
  going : loop.phase ≠ .returned → ∀ sighting ∈ loop.sightings, sighting.stops = false
  /-- A loop that has returned has found a reason to, at last. -/
  gone : loop.phase = .returned → ∃ earlier last, loop.sightings = earlier ++ [last] ∧
    last.stops = true ∧ ∀ sighting ∈ earlier, sighting.stops = false
  /-- What other tasks have read was left by the cycles that had ended. -/
  reads : ∀ snapshot ∈ loop.reads, ∃ before, before <+: loop.staged.past ∧
    snapshot = Staged.knownBy before

namespace Orderly

theorem start {staged : Staged} (h : staged.Thorough view) (hasked : loopTrigger ∉ staged.triggers) :
    (start staged).Orderly view where
  thorough := h
  ticks := List.count_eq_zero.mpr hasked
  single := by
    have hpending : loopTrigger ∉ staged.pending := fun hmem => hasked (List.mem_append_right _ hmem)
    exact (List.count_eq_zero.mpr hpending).le.trans (Nat.zero_le 1)
  ended := fun _ hmem => hasked (List.mem_append_right _ hmem)
  going := fun _ _ hsighting => nomatch hsighting
  gone := nofun
  reads := fun _ hsnapshot => nomatch hsnapshot

theorem around (h : loop.Orderly view) {event : Staged.Event} {staged : Staged}
    (hasked : loopTrigger ∉ event.asked) (hstep : loop.staged.step? event = some staged) :
    ({ loop with staged := staged } : Background).Orderly view where
  thorough := h.thorough.step hstep
  ticks := by
    rw [(Staged.took_of_step? hstep).triggers.count_eq, List.count_append,
      List.count_eq_zero.mpr hasked, h.ticks]
    rfl
  single := (h.thorough.count_pending_le hstep hasked).trans h.single
  ended := by
    intro hphase
    have hle := h.thorough.count_pending_le hstep hasked
    rw [List.count_eq_zero.mpr (h.ended hphase)] at hle
    exact List.count_eq_zero.mp (Nat.le_zero.mp hle)
  going := h.going
  gone := h.gone
  reads := by
    intro snapshot hsnapshot
    obtain ⟨before, hbefore, hread⟩ := h.reads snapshot hsnapshot
    have hwent := h.thorough.toSound.went h.thorough.recorded hstep
    exact ⟨before, hbefore.trans hwent.prefix_past, hread⟩

theorem fire (h : loop.Orderly view) (hphase : loop.phase = .selecting) : loop.fire.Orderly view where
  thorough := by
    have hstep : loop.staged.step? (.ask loopTrigger) = some loop.fire.staged := rfl
    exact h.thorough.step hstep
  ticks := by
    have htriggers : loop.fire.staged.triggers = loop.staged.triggers ++ [loopTrigger] := by
      simp [Background.fire, Staged.triggers, Staged.pending]
    rw [htriggers, List.count_append, h.ticks, Background.fire, List.length_append]
    rfl
  single := by
    have hpending : loop.fire.staged.pending = loop.staged.pending ++ [loopTrigger] := by
      simp [Background.fire, Staged.pending]
    have hnone : loopTrigger ∉ loop.staged.pending := h.ended (by rw [hphase]; decide)
    rw [hpending, List.count_append, List.count_eq_zero.mpr hnone]
    rfl
  ended := fun hne => absurd rfl hne
  going := fun _ => h.going (by rw [hphase]; decide)
  gone := nofun
  reads := h.reads

theorem sees (h : loop.Orderly view) (hgoing : loop.phase ≠ .returned) (hended : loop.phase ≠ .cycling)
    (sighting : Sighting) : (loop.sees sighting).Orderly view where
  thorough := h.thorough
  ticks := h.ticks
  single := h.single
  ended := fun _ => h.ended hended
  going := by
    intro hphase other hother
    have hgo : sighting.stops = false := by
      by_contra hstops
      exact hphase (if_pos (Bool.of_not_eq_false hstops))
    rcases List.mem_append.mp hother with hearlier | hlast
    · exact h.going hgoing other hearlier
    · rw [List.mem_singleton] at hlast
      rw [hlast, hgo]
  gone := by
    intro hphase
    refine ⟨loop.sightings, sighting, rfl, ?_, h.going hgoing⟩
    by_contra hstops
    have hselecting : (loop.sees sighting).phase = .selecting := if_neg hstops
    rw [hselecting] at hphase
    cases hphase
  reads := h.reads

/-- An event keeps all this. -/
theorem step (h : loop.Orderly view) (hstep : loop.step? event = some loop') : loop'.Orderly view := by
  cases took_of_step? hstep with
  | around event hasked staged hstaged => exact h.around hasked hstaged
  | ticked hphase _ => exact h.fire hphase
  | resumed hphase hended =>
    have hgoing := h.going (by rw [hphase]; decide)
    exact ⟨h.thorough, h.ticks, h.single, fun _ => hended, fun _ => hgoing, nofun, h.reads⟩
  | sent | dropped => exact ⟨h.thorough, h.ticks, h.single, h.ended, h.going, h.gone, h.reads⟩
  | noticed hphase _ =>
    have hgoing := h.going (by rw [hphase]; decide)
    have hended := h.ended (by rw [hphase]; decide)
    exact ⟨h.thorough, h.ticks, h.single, fun _ => hended, fun _ => hgoing, nofun, h.reads⟩
  | left hphase _ _ => exact h.sees (by rw [hphase]; decide) (by rw [hphase]; decide) .closed
  | looked hphase => exact h.sees (by rw [hphase]; decide) (by rw [hphase]; decide) _
  | read hfree =>
    refine ⟨h.thorough, h.ticks, h.single, h.ended, h.going, h.gone, ?_⟩
    intro snapshot hsnapshot
    rcases List.mem_append.mp hsnapshot with hearlier | hlast
    · exact h.reads snapshot hearlier
    · rw [List.mem_singleton] at hlast
      exact ⟨loop.staged.past, List.prefix_rfl, hlast.trans h.thorough.known⟩

theorem run {events : List Event} (h : loop.Orderly view) (hrun : run? events loop = some loop') :
    loop'.Orderly view :=
  run?_keeps (fun h hstep => step h hstep) h hrun

end Orderly

/-! ## What runs can reach -/

variable {between : Background} {events : List Event}

theorem run?_append {later : List Event} (h : run? events loop = some between) :
    run? (events ++ later) loop = run? later between := by
  induction events generalizing loop with
  | nil =>
    cases h
    rfl
  | cons event events ih =>
    obtain ⟨next, hstep, hrest⟩ := Option.bind_eq_some_iff.mp h
    rw [List.cons_append, run?_cons hstep, ih hrest]

theorem step?_around {event : Staged.Event} {staged : Staged} (hasked : loopTrigger ∉ event.asked)
    (hstep : loop.staged.step? event = some staged) :
    loop.step? (.around event) = some { loop with staged := staged } := by
  rw [step?, if_neg hasked, hstep]
  rfl

/-- Whether events can lead from one state to another. -/
def Reaches (loop loop' : Background) : Prop := ∃ events, run? events loop = some loop'

namespace Reaches

theorem refl (loop : Background) : loop.Reaches loop := ⟨[], rfl⟩

theorem trans (h : loop.Reaches between) (h' : between.Reaches loop') : loop.Reaches loop' := by
  obtain ⟨events, hrun⟩ := h
  obtain ⟨later, hrun'⟩ := h'
  exact ⟨events ++ later, (run?_append hrun).trans hrun'⟩

theorem step (hstep : loop.step? event = some between) (h : between.Reaches loop') :
    loop.Reaches loop' := by
  obtain ⟨events, hrun⟩ := h
  exact ⟨event :: events, (run?_cons hstep).trans hrun⟩

end Reaches

end Background

end Sync

end ControlPlane
