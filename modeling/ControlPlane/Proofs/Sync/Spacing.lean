import ControlPlane.Proofs.Sync.Turns
import Mathlib.Data.List.Basic

/-!
# How far cycles that write are apart

A cycle that is not forced keeps away from the last one that wrote, as long as the synchronizer
remembers when that one ended. What it remembers is decided by the cycles that have ended
(`respected`), and it forgets in one way: a forced cycle that makes no call lifts the respect that the
next cycles would have to pay (`Lifted`).
-/

namespace ControlPlane

namespace Sync

/-! ## What is remembered of the last cycle that wrote -/

/-- When the last cycle that wrote ended, as the next one has to respect it, given what was respected
before the cycle. -/
def Ended.respectedAfter (last : Option Nat) (ended : Ended) : Option Nat :=
  match ended.result with
  | .ok (.applied _) => some ended.ended
  | _ => if ended.trigger.forced then none else last

/-- When the last cycle that wrote ended, as the next one has to respect it. -/
def respected (past : List Ended) : Option Nat := past.foldl Ended.respectedAfter none

/-- Whether a forced cycle made no call after the last one that wrote. -/
def Lifted (past : List Ended) : Prop :=
  ∃ before quiet after, past = before ++ quiet :: after ∧ quiet.trigger.forced = true ∧
    ¬ quiet.Applied ∧ ∀ later ∈ after, ¬ later.Applied

theorem respected_append (past : List Ended) (last : Ended) :
    respected (past ++ [last]) = last.respectedAfter (respected past) := by
  rw [respected, List.foldl_append]
  rfl

theorem respectedAfter_of_applied {last : Ended} (h : last.Applied) (before : Option Nat) :
    last.respectedAfter before = some last.ended := by
  obtain ⟨report, hreport⟩ := h
  simp [Ended.respectedAfter, hreport]

theorem respectedAfter_of_not_applied {last : Ended} (h : ¬ last.Applied) (before : Option Nat) :
    last.respectedAfter before = if last.trigger.forced then none else before := by
  unfold Ended.respectedAfter
  split
  · next report hreport => exact absurd ⟨report, hreport⟩ h
  · rfl

/-- What is respected is the end of a cycle. -/
theorem exists_of_respected {past : List Ended} {moment : Nat} (h : respected past = some moment) :
    ∃ cycle ∈ past, cycle.ended = moment := by
  induction past using List.reverseRecOn with
  | nil => cases h
  | append_singleton past last ih =>
    rw [respected_append] at h
    by_cases happlied : last.Applied
    · rw [respectedAfter_of_applied happlied] at h
      exact ⟨last, by simp, Option.some.inj h⟩
    · rw [respectedAfter_of_not_applied happlied] at h
      split at h
      · cases h
      · obtain ⟨cycle, hmem, hended⟩ := ih h
        exact ⟨cycle, by simp [hmem], hended⟩

theorem lifted_append {past : List Ended} {last : Ended} :
    Lifted (past ++ [last]) ↔ ¬ last.Applied ∧ (last.trigger.forced = true ∨ Lifted past) := by
  constructor
  · rintro ⟨before, quiet, after, hpast, hforced, hquiet, hafter⟩
    rcases Ended.last_or_before hpast with ⟨-, rfl, -⟩ | ⟨after', rfl, hpast'⟩
    · exact ⟨hquiet, Or.inl hforced⟩
    · refine ⟨hafter last (by simp), Or.inr ⟨before, quiet, after', hpast', hforced, hquiet, ?_⟩⟩
      intro later hmem
      exact hafter later (by simp [hmem])
  · rintro ⟨hlast, hforced | ⟨before, quiet, after, rfl, hforced, hquiet, hafter⟩⟩
    · exact ⟨past, last, [], rfl, hforced, hlast, by simp⟩
    · refine ⟨before, quiet, after ++ [last], by simp, hforced, hquiet, ?_⟩
      intro later hmem
      rcases List.mem_append.mp hmem with hmem | hmem
      · exact hafter later hmem
      · rw [List.mem_singleton] at hmem
        rwa [hmem]

/-! ## Cycles in their order -/

/-- What holds of a cycle, given those that ended before it. -/
structure Spaced (debounce : Nat) (before : List Ended) (cycle : Ended) : Prop where
  /-- No other cycle is under way when it begins. -/
  apart : ∀ earlier ∈ before, earlier.ended ≤ cycle.began
  /-- It takes its time. -/
  lasts : cycle.began ≤ cycle.ended
  /-- It is held back if it is not forced and what it has to respect is too recent. -/
  held : cycle.result = .ok .debounced ↔ cycle.trigger.forced = false ∧
    ∃ last, respected before = some last ∧ cycle.began < last + debounce

/-- Nothing recent is respected exactly if every cycle that wrote has ended long enough ago, or a
forced cycle has lifted the respect. The induction takes the cycles from the last one. -/
theorem respected_iff {debounce : Nat} {past : List Ended} (h : InTurn (Spaced debounce) past)
    (moment : Nat) :
    (∀ last, respected past = some last → last + debounce ≤ moment) ↔
      Lifted past ∨ ∀ earlier ∈ past, earlier.Applied → earlier.ended + debounce ≤ moment := by
  induction past using List.reverseRecOn with
  | nil => exact iff_of_true (fun last hlast => nomatch hlast) (Or.inr fun _ hmem => nomatch hmem)
  | append_singleton past last ih =>
    have hlast := h.final
    have hrest := ih h.left
    rw [respected_append, lifted_append]
    by_cases happlied : last.Applied
    · rw [respectedAfter_of_applied happlied]
      constructor
      · intro hrecent
        right
        intro earlier hmem _
        have hend := hrecent last.ended rfl
        rcases List.mem_append.mp hmem with hmem | hmem
        · have happart := hlast.apart earlier hmem
          have hlasts := hlast.lasts
          omega
        · rw [List.mem_singleton] at hmem
          rwa [hmem]
      · rintro (⟨hquiet, -⟩ | hall) moment' hmoment
        · exact absurd happlied hquiet
        · cases hmoment
          exact hall last (by simp) happlied
    · rw [respectedAfter_of_not_applied happlied]
      by_cases hforced : last.trigger.forced = true
      · rw [if_pos hforced]
        exact iff_of_true (fun _ hnone => nomatch hnone) (Or.inl ⟨happlied, Or.inl hforced⟩)
      · rw [if_neg hforced, hrest]
        have hsame : (∀ earlier ∈ past ++ [last], earlier.Applied →
            earlier.ended + debounce ≤ moment) ↔
            ∀ earlier ∈ past, earlier.Applied → earlier.ended + debounce ≤ moment := by
          simp [or_imp, forall_and, happlied]
        rw [hsame]
        simp [happlied, hforced]

/-! ## Every run -/

namespace Shared

/-- What holds of a shared synchronizer at all times. -/
structure Timely (timing : Timing) (shared : Shared) : Prop where
  /-- Its timing does not change. -/
  same : shared.node.timing = timing
  /-- The cycles that have ended are spaced. -/
  orderly : InTurn (Spaced timing.debounce) shared.past
  /-- They have ended by now. -/
  ended : ∀ cycle ∈ shared.past, cycle.ended ≤ shared.node.now
  /-- Between two cycles it remembers what the next one has to respect. -/
  free : shared.turn = none → shared.node.memory.lastApplied = respected shared.past
  /-- A cycle that has its turn began after the others had ended, and it is not held back. -/
  busy : ∀ turn, shared.turn = some turn → turn.began ≤ shared.node.now ∧
    (∀ cycle ∈ shared.past, cycle.ended ≤ turn.began) ∧
    ¬ (turn.trigger.forced = false ∧
      ∃ last, respected shared.past = some last ∧ turn.began < last + timing.debounce)

namespace Timely

variable {timing : Timing} {shared shared' : Shared} {event : Event}

theorem start (timing : Timing) (view : ClusterView) (db : Database) :
    (initial timing view db).Timely timing where
  same := rfl
  orderly := .nil
  ended := fun _ hmem => nomatch hmem
  free := fun _ => rfl
  busy := fun _ hturn => nomatch hturn

/-- A cycle that gets its turn is held back if it is not forced and what it respects is recent. -/
theorem isRecent_iff (h : shared.Timely timing) (hfree : shared.turn = none) (forced : Bool) :
    (shared.node.opening forced).isRecent shared.node.timing shared.node.now = true ↔
      forced = false ∧
        ∃ last, respected shared.past = some last ∧ shared.node.now < last + timing.debounce := by
  cases forced with
  | true => simp [Node.opening, Memory.forced, Memory.isRecent]
  | false =>
    have hmemory : (shared.node.opening false).lastApplied = respected shared.past := h.free hfree
    rw [Memory.isRecent, hmemory, h.same]
    cases hlast : respected shared.past with
    | none => simp
    | some last =>
      obtain ⟨cycle, hmem, rfl⟩ := exists_of_respected hlast
      have hended := h.ended cycle hmem
      simp only [Option.any_some, decide_eq_true_eq, Option.some.injEq, exists_eq_left', true_and]
      omega

theorem took (h : shared.Timely timing) (htook : shared.Took event shared') :
    shared'.Timely timing := by
  cases htook with
  | asked trigger => exact ⟨h.same, h.orderly, h.ended, h.free, h.busy⟩
  | changed surroundings =>
    have hnow : shared.node.now ≤ (shared.node.amid surroundings).now := Nat.le_max_left _ _
    refine ⟨h.same, h.orderly, ?_, h.free, ?_⟩
    · intro cycle hmem
      exact Nat.le_trans (h.ended cycle hmem) hnow
    · intro turn hturn
      obtain ⟨hbegan, hrest⟩ := h.busy turn hturn
      exact ⟨Nat.le_trans hbegan hnow, hrest⟩
  | passed trigger hfree result hidle hdebounced hunchanged =>
    have hcycle : Spaced timing.debounce shared.past
        ⟨trigger, shared.node.now, shared.node.now, result, []⟩ :=
      ⟨h.ended, Nat.le_refl _, hdebounced.trans (h.isRecent_iff hfree trigger.forced)⟩
    have hquiet : ¬ Ended.Applied ⟨trigger, shared.node.now, shared.node.now, result, []⟩ := by
      rintro ⟨report, hreport⟩
      exact hidle report hreport
    refine ⟨h.same, h.orderly.append hcycle, ?_, ?_, fun turn hturn => nomatch hturn⟩
    · intro cycle hmem
      rcases List.mem_append.mp hmem with hmem | hmem
      · exact h.ended cycle hmem
      · rw [List.mem_singleton] at hmem
        subst hmem
        exact Nat.le_refl _
    · intro _
      rw [respected_append, respectedAfter_of_not_applied hquiet, ← h.free hfree]
      cases hforced : trigger.forced <;> rfl
  | called trigger hfree hrecent gates hlisted call waiting hcalls succeeds ending =>
    refine ⟨h.same, h.orderly, h.ended, (fun hnone => nomatch hnone), ?_⟩
    rintro turn ⟨⟩
    exact ⟨Nat.le_refl _, h.ended, fun hheld => hrecent ((h.isRecent_iff hfree trigger.forced).mpr hheld)⟩
  | proceeded turn hturn next waiting hwaiting succeeds ending =>
    obtain ⟨hbegan, hrest⟩ := h.busy turn hturn
    refine ⟨h.same, h.orderly, ?_, (fun hnone => nomatch hnone), ?_⟩
    · intro cycle hmem
      exact Nat.le_trans (h.ended cycle hmem) (Nat.le_max_left _ _)
    · rintro turn' ⟨⟩
      exact ⟨Nat.le_trans hbegan (Nat.le_max_left _ _), hrest⟩
  | finished turn hturn hwaiting =>
    obtain ⟨hbegan, hended, hrecent⟩ := h.busy turn hturn
    have hlasts : turn.began ≤ max shared.node.now turn.cycle.ending :=
      Nat.le_trans hbegan (Nat.le_max_left _ _)
    have hcycle : Spaced timing.debounce shared.past
        ⟨turn.trigger, turn.began, max shared.node.now turn.cycle.ending,
          .ok (.applied (.ofResults turn.issued)), turn.issued⟩ :=
      ⟨hended, hlasts, iff_of_false (by simp) hrecent⟩
    refine ⟨h.same, h.orderly.append hcycle, ?_, ?_, fun turn hturn => nomatch hturn⟩
    · intro cycle hmem
      rcases List.mem_append.mp hmem with hmem | hmem
      · exact Nat.le_trans (h.ended cycle hmem) (Nat.le_max_left _ _)
      · rw [List.mem_singleton] at hmem
        subst hmem
        exact Nat.le_refl _
    · intro _
      rw [respected_append]
      rfl

theorem run {events : List Event} :
    ∀ {shared : Shared}, shared.Timely timing → run? events shared = some shared' →
      shared'.Timely timing := by
  induction events with
  | nil =>
    intro shared h hrun
    cases hrun
    exact h
  | cons event events ih =>
    intro shared h hrun
    obtain ⟨between, hstep, hrest⟩ := Option.bind_eq_some_iff.mp hrun
    exact ih (h.took (took_of_step? hstep)) hrest

end Timely

/--
In every run a cycle that is not forced and that writes begins no earlier than the debounce time
after the end of every cycle that wrote before it, unless a forced cycle that made no call has lifted
this since the last one that wrote. It is held back exactly if nothing has lifted it and a cycle that
wrote ended less than the debounce time ago.
-/
theorem debounce_spacing (timing : Timing) (view : ClusterView) (db : Database)
    (events : List Event) (shared : Shared) (hrun : run? events (initial timing view db) = some shared)
    (before after : List Ended) (cycle : Ended) (hpast : shared.past = before ++ cycle :: after)
    (hforced : cycle.trigger.forced = false) :
    (cycle.Applied → ¬ Lifted before → ∀ earlier ∈ before, earlier.Applied →
      earlier.ended + timing.debounce ≤ cycle.began) ∧
    (cycle.result = .ok .debounced ↔ ¬ Lifted before ∧ ∃ earlier ∈ before, earlier.Applied ∧
      cycle.began < earlier.ended + timing.debounce) := by
  have htimely : shared.Timely timing := (Timely.start timing view db).run hrun
  have hspaced := htimely.orderly before cycle after hpast
  have hbefore : InTurn (Spaced timing.debounce) before := by
    have horderly := htimely.orderly
    rw [hpast] at horderly
    exact horderly.left
  have hheld : cycle.result = .ok .debounced ↔ ¬ Lifted before ∧ ∃ earlier ∈ before,
      earlier.Applied ∧ cycle.began < earlier.ended + timing.debounce := by
    have hlong := not_congr (respected_iff hbefore cycle.began)
    simp only [not_or, not_forall, Nat.not_le] at hlong
    rw [hspaced.held, and_iff_right hforced]
    simpa only [exists_prop, and_assoc] using hlong
  refine ⟨?_, hheld⟩
  rintro ⟨report, hreport⟩ hlifted earlier hmem happlied
  by_contra hearly
  have hdebounced := hheld.mpr ⟨hlifted, earlier, hmem, happlied, Nat.lt_of_not_le hearly⟩
  rw [hreport] at hdebounced
  cases hdebounced

/-- A task asks for a cycle at a moment and gets its turn at once. -/
def turnAt (moment : Nat) (gates : List Gate) (forced : Bool) : List Event :=
  [.change (showing moment gates []), .ask ⟨0, forced⟩, .begin ⟨0, forced⟩]

/-- When the cycles of a run began and ended, and what they came to. -/
def timeline (shared : Shared) : List (Nat × Nat × Result) :=
  shared.past.map fun cycle => (cycle.began, cycle.ended, cycle.result)

/-- A gate is switched right after a cycle that wrote it: the next cycle is held back, and the one that
writes it again comes two seconds later. -/
theorem debounce_spacing_held :
    ∃ shared first second third,
      run? (turnAt 0 [⟨"a", true⟩] false ++ [.close] ++ turnAt 1999 [⟨"a", false⟩] false ++
        turnAt 2000 [⟨"a", false⟩] false ++ [.close]) (initial .standard .standard .empty) =
          some shared ∧
      shared.past = [first, second, third] ∧ second.result = .ok .debounced ∧ third.Applied ∧
      first.ended + 2000 ≤ third.began := by
  let events := turnAt 0 [⟨"a", true⟩] false ++ [.close] ++ turnAt 1999 [⟨"a", false⟩] false ++
    turnAt 2000 [⟨"a", false⟩] false ++ [.close]
  have htimes : ((run? events (initial .standard .standard .empty)).map fun shared =>
      (shared.timeline, shared.past.map (·.trigger.forced))) =
      some ([(0, 0, .ok (.applied ⟨["feature.a"], [], []⟩)), (1999, 1999, .ok .debounced),
        (2000, 2000, .ok (.applied ⟨["feature.a"], [], []⟩))], [false, false, false]) := by
    decide +kernel
  obtain ⟨shared, hrun, htimes⟩ := Option.map_eq_some_iff.mp htimes
  obtain ⟨first, second, third, hpast⟩ := List.length_eq_three.mp
    ((List.length_map _).symm.trans (congrArg (List.length ∘ Prod.snd) htimes))
  simp only [timeline, hpast, List.map_cons, List.map_nil, Prod.mk.injEq, List.cons.injEq] at htimes
  obtain ⟨⟨hfirst, hsecond, hthird, -⟩, -, hunforced, hunforced', -⟩ := htimes
  have happlied : first.Applied := ⟨_, hfirst.2.2⟩
  have hquiet : ¬ Lifted [first] := by
    rw [← List.nil_append [first], lifted_append]
    exact fun h => h.1 happlied
  have hquiet' : ¬ Lifted [first, second] := by
    rw [← List.singleton_append, lifted_append]
    rintro ⟨-, hforced | h⟩
    · simp [hunforced] at hforced
    · exact hquiet h
  refine ⟨shared, first, second, third, hrun, hpast, ?_, ⟨_, hthird.2.2⟩, ?_⟩
  · refine (debounce_spacing .standard .standard .empty events shared hrun [first] [third] second
      hpast hunforced).2.mpr ⟨hquiet, first, by simp, happlied, ?_⟩
    rw [hsecond.1, hfirst.2.1]
    decide
  · exact (debounce_spacing .standard .standard .empty events shared hrun [first, second] [] third
      hpast hunforced').1 ⟨_, hthird.2.2⟩ hquiet' first (by simp) happlied

/-- A forced cycle that finds nothing to do lifts the respect for the cycle before it, and the next
cycle writes at once. -/
theorem quiet_forced_cycle_lifts_debounce :
    ¬ ∀ (events : List Event) (shared : Shared),
      run? events (initial .standard .standard .empty) = some shared →
      ∀ (before after : List Ended) (cycle : Ended), shared.past = before ++ cycle :: after →
        cycle.trigger.forced = false → cycle.Applied →
        ∀ earlier ∈ before, earlier.Applied →
          earlier.ended + Timing.standard.debounce ≤ cycle.began := by
  intro hspacing
  let events := turnAt 0 [⟨"a", true⟩] false ++ [.close] ++ turnAt 0 [⟨"a", true⟩] true ++
    turnAt 0 [⟨"a", true⟩, ⟨"b", true⟩] false ++ [.close]
  have htimes : ((run? events (initial .standard .standard .empty)).map fun shared =>
      (shared.timeline, shared.past.map (·.trigger.forced))) =
      some ([(0, 0, .ok (.applied ⟨["feature.a"], [], []⟩)), (0, 0, .ok .unchanged),
        (0, 0, .ok (.applied ⟨["feature.b"], [], []⟩))], [false, true, false]) := by
    decide +kernel
  obtain ⟨shared, hrun, htimes⟩ := Option.map_eq_some_iff.mp htimes
  obtain ⟨first, second, third, hpast⟩ := List.length_eq_three.mp
    ((List.length_map _).symm.trans (congrArg (List.length ∘ Prod.snd) htimes))
  simp only [timeline, hpast, List.map_cons, List.map_nil, Prod.mk.injEq, List.cons.injEq] at htimes
  obtain ⟨⟨hfirst, -, hthird, -⟩, -, -, hunforced, -⟩ := htimes
  have hearly := hspacing events shared hrun [first, second] [] third hpast hunforced
    ⟨_, hthird.2.2⟩ first (by simp) ⟨_, hfirst.2.2⟩
  rw [hfirst.2.1, hthird.1] at hearly
  exact absurd hearly (by decide)

end Shared

end Sync

end ControlPlane
