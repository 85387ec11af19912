import ControlPlane.Proofs.Sync.Background

/-!
# What the background loop can come to

Nothing keeps the loop from going on. The cycle that has its turn can always come to its end, then the
loop's own can, if it waits, and the loop goes on (`Background.Orderly.exists_proceeds_selecting`). A loop
that is told to stop can return once its cycle has ended (`Background.Orderly.exists_return`).
-/

namespace ControlPlane

namespace Sync

open LocalConfig

namespace Background

variable {view : ClusterView} {loop loop' : Background} {event : Event} {events : List Event}

/-! ## Cycles that go on to their end -/

/-- Whether an event is a step of a cycle, or the loop going on after its own. -/
def Event.isCycle : Event → Bool
  | .around (.begin _) | .resume => true
  | .around event => event.isStage
  | _ => false

/-- Whether the loop can come from one state to another while nothing happens but steps of cycles. -/
def Proceeds (loop loop' : Background) : Prop :=
  ∃ events, (∀ event ∈ events, event.isCycle = true) ∧ run? events loop = some loop'

namespace Proceeds

variable {between : Background}

theorem refl (loop : Background) : loop.Proceeds loop := ⟨[], nofun, rfl⟩

theorem single (hcycle : event.isCycle = true) (hstep : loop.step? event = some loop') :
    loop.Proceeds loop' :=
  ⟨[event], fun _ hmem => List.mem_singleton.mp hmem ▸ hcycle, by rw [run?_cons hstep, run?]⟩

theorem reaches (h : loop.Proceeds loop') : loop.Reaches loop' :=
  let ⟨events, _, hrun⟩ := h
  ⟨events, hrun⟩

theorem trans (h : loop.Proceeds between) (h' : between.Proceeds loop') : loop.Proceeds loop' := by
  obtain ⟨events, hcycles, hrun⟩ := h
  obtain ⟨later, hlater, hrun'⟩ := h'
  refine ⟨events ++ later, ?_, (run?_append hrun).trans hrun'⟩
  intro event hevent
  exact (List.mem_append.mp hevent).elim (hcycles event) (hlater event)

theorem staged {staged : Staged} (h : loop.staged.Proceeds staged) :
    loop.Proceeds { loop with staged := staged } := by
  obtain ⟨events, hstages, hrun⟩ := h
  induction events generalizing loop with
  | nil =>
    cases hrun
    exact .refl loop
  | cons event events ih =>
    obtain ⟨between, hstep, hrest⟩ := Option.bind_eq_some_iff.mp hrun
    have hstage := hstages event List.mem_cons_self
    have hasked : loopTrigger ∉ event.asked := by
      cases event <;> simp_all [Staged.Event.asked, Staged.Event.isStage]
    have hcycle : (Event.around event).isCycle = true := by
      cases event <;> simp_all [Event.isCycle, Staged.Event.isStage]
    refine (single hcycle (step?_around hasked hstep)).trans (ih ?_ hrest)
    exact fun other hother => hstages other (List.mem_cons_of_mem event hother)

/-- A cycle that waits for its turn can get it as soon as no other has it. -/
theorem takeTurn {trigger : Trigger} (hfree : loop.staged.running = none)
    (hwaiting : trigger ∈ loop.staged.waiting) :
    loop.Proceeds { loop with staged := loop.staged.takeTurn trigger } := by
  have hcycle : (Event.around (.begin trigger)).isCycle = true := rfl
  exact single hcycle (step?_around List.not_mem_nil (Staged.step?_begin hfree hwaiting))

end Proceeds

theorem Staged.pending_of_free {staged : Staged} (hfree : staged.running = none) :
    staged.pending = staged.waiting := by
  simp [Staged.pending, hfree]

/-- A loop that waits for its cycle can go on when this has ended, and it can end. -/
theorem Orderly.exists_proceeds_selecting (h : loop.Orderly view) (hphase : loop.phase = .cycling) :
    ∃ staged, loop.Proceeds { loop with staged := staged, phase := .selecting } := by
  have hresume {staged : Staged} (hfree : staged.running = none) (hended : loopTrigger ∉ staged.waiting) :
      ({ loop with staged := staged } : Background).Proceeds
        { loop with staged := staged, phase := .selecting } := by
    have hcycle : Event.resume.isCycle = true := rfl
    refine .single hcycle (if_pos ⟨hphase, ?_⟩)
    rw [Staged.pending_of_free hfree]
    exact hended
  obtain ⟨free, hproceeds, hfree, hwaiting⟩ := loop.staged.exists_proceeds_free
  by_cases hmem : loopTrigger ∈ free.waiting
  · -- its own cycle gets its turn after the one that had it
    obtain ⟨staged, hproceeds', hfree', hwaiting'⟩ := (free.takeTurn loopTrigger).exists_proceeds_free
    refine ⟨staged, (Proceeds.staged hproceeds).trans ((Proceeds.takeTurn hfree hmem).trans
      ((Proceeds.staged hproceeds').trans (hresume hfree' ?_)))⟩
    have hcount : loop.staged.waiting.count loopTrigger ≤ 1 :=
      ((List.sublist_append_right _ _).count_le loopTrigger).trans h.single
    rw [hwaiting', Staged.waiting_takeTurn, hwaiting, ← List.count_eq_zero, List.count_erase_self]
    omega
  · exact ⟨free, (Proceeds.staged hproceeds).trans (hresume hfree hmem)⟩

/-! ## Returning -/

/-- Whether the loop can return while nothing else happens. -/
def Leaves (loop : Background) : Prop :=
  ∃ loop', loop.Reaches loop' ∧ loop'.phase = .returned ∧ loop'.staged = loop.staged ∧
    loop'.fired = loop.fired

theorem Leaves.of_step {between : Background} (hstep : loop.step? event = some between)
    (hstaged : between.staged = loop.staged) (hfired : between.fired = loop.fired) (h : between.Leaves) :
    loop.Leaves := by
  obtain ⟨loop', hreaches, hphase, hstaged', hfired'⟩ := h
  exact ⟨loop', .step hstep hreaches, hphase, hstaged'.trans hstaged, hfired'.trans hfired⟩

theorem leaves_of_returned (h : loop.phase = .returned) : loop.Leaves := ⟨loop, .refl loop, h, rfl, rfl⟩

theorem step?_look (hphase : loop.phase = .noticing) :
    loop.step? .look = some (loop.sees (.sent loop.channel.stop)) := if_pos hphase

theorem leaves_of_stop (hphase : loop.phase = .noticing) (hstop : loop.channel.stop = true) :
    loop.Leaves := by
  refine .of_step (step?_look hphase) rfl rfl (leaves_of_returned ?_)
  rw [hstop]
  rfl

theorem leaves_of_closed (hphase : loop.phase = .selecting) (hchanged : loop.channel.changed = false)
    (hclosed : loop.channel.closed = true) : loop.Leaves := by
  have hnotice : loop.step? .notice = some (loop.sees .closed) := by
    simp [step?, hphase, hchanged, hclosed]
  exact .of_step hnotice rfl rfl (leaves_of_returned rfl)

theorem leaves_of_selecting (hphase : loop.phase = .selecting)
    (hstop : loop.channel.closed = true ∨ loop.channel.changed = true ∧ loop.channel.stop = true) :
    loop.Leaves := by
  cases hchanged : loop.channel.changed with
  | false =>
    rw [hchanged] at hstop
    exact leaves_of_closed hphase hchanged (hstop.resolve_right fun h => Bool.false_ne_true h.1)
  | true =>
    let noticing : Background :=
      { loop with phase := .noticing, channel := { loop.channel with changed := false } }
    have hnotice : loop.step? .notice = some noticing := by
      simp [step?, hphase, hchanged, noticing]
    refine .of_step hnotice rfl rfl ?_
    cases hlast : loop.channel.stop with
    | true => exact leaves_of_stop rfl hlast
    | false =>
      rw [hlast] at hstop
      have hclosed := hstop.resolve_right fun h => Bool.false_ne_true h.2
      -- nothing has been sent since, so the closed channel is noticed next
      refine .of_step (step?_look rfl) rfl rfl (leaves_of_closed ?_ rfl hclosed)
      rw [hlast]
      rfl

/-- A loop that is told to stop can return when its cycle has ended, without another tick. -/
theorem Orderly.exists_return (h : loop.Orderly view)
    (hstop : loop.channel.closed = true ∨ loop.channel.changed = true ∧ loop.channel.stop = true) :
    ∃ loop', loop.Reaches loop' ∧ loop'.phase = .returned ∧ loop'.fired = loop.fired := by
  have hleave (h : loop.Leaves) :
      ∃ loop', loop.Reaches loop' ∧ loop'.phase = .returned ∧ loop'.fired = loop.fired := by
    obtain ⟨loop', hreaches, hphase, -, hfired⟩ := h
    exact ⟨loop', hreaches, hphase, hfired⟩
  cases hphase : loop.phase with
  | selecting => exact hleave (leaves_of_selecting hphase hstop)
  | returned => exact hleave (leaves_of_returned hphase)
  | noticing =>
    refine hleave ?_
    cases hlast : loop.channel.stop with
    | true => exact leaves_of_stop hphase hlast
    | false =>
      refine .of_step (step?_look hphase) rfl rfl (leaves_of_selecting ?_ hstop)
      rw [hlast]
      rfl
  | cycling =>
    obtain ⟨staged, hproceeds⟩ := h.exists_proceeds_selecting hphase
    have hleaves : ({ loop with staged := staged, phase := .selecting } : Background).Leaves :=
      leaves_of_selecting rfl hstop
    obtain ⟨loop', hreaches, hreturned, -, hfired⟩ := hleaves
    exact ⟨loop', hproceeds.reaches.trans hreaches, hreturned, hfired⟩

end Background

end Sync

end ControlPlane
