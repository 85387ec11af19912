import ControlPlane.Proofs.Sync.CycleRun
import Mathlib.Data.List.Induction

/-!
# Taking turns

Any number of tasks may ask one synchronizer for a cycle, at any time. A lock gives one of those that
wait its turn, in no certain order, and keeps the others waiting until the cycle has ended. Meanwhile
time passes, the store changes, calls come to behave otherwise, and more tasks ask.

A `Shared` synchronizer shows who waits, which cycle has its turn and which cycles have ended, and
`Shared.run?` lets events happen to it. `Shared.Took` says what one event can come to.
-/

namespace ControlPlane

namespace Sync

open LocalConfig

/-! ## The shared synchronizer -/

/-- A cycle that a task asks for. -/
structure Trigger where
  /-- The task. -/
  task : Nat
  /-- Whether the cycle is forced. -/
  forced : Bool
deriving DecidableEq

/-- A cycle that has its turn. -/
structure Turn where
  /-- Who asked for it. -/
  trigger : Trigger
  /-- When it began. -/
  began : Nat
  /-- The cycle with its call under way. -/
  cycle : Node.UnderWay

/-- The calls that a cycle has made so far, the one under way with what will have become of it. -/
def Turn.issued (turn : Turn) : List CallResult :=
  turn.cycle.applying.made ++ [⟨turn.cycle.applying.call, turn.cycle.succeeds⟩]

/-- A cycle that has ended. -/
structure Ended where
  /-- Who asked for it. -/
  trigger : Trigger
  /-- When it began. -/
  began : Nat
  /-- When it ended. -/
  ended : Nat
  /-- What it came to. -/
  result : Result
  /-- The calls that it made. -/
  made : List CallResult

/-- Whether a cycle has made calls. -/
def Ended.Applied (ended : Ended) : Prop := ∃ report, ended.result = .ok (.applied report)

/-- A cycle among those that have ended is the last one, or it is among those before the last. -/
theorem Ended.last_or_before {past before after : List Ended} {last cycle : Ended}
    (h : past ++ [last] = before ++ cycle :: after) :
    (before = past ∧ cycle = last ∧ after = []) ∨
      ∃ after', after = after' ++ [last] ∧ past = before ++ cycle :: after' := by
  rcases List.eq_nil_or_concat after with rfl | ⟨after', final, rfl⟩
  · obtain ⟨hfront, hlast⟩ := List.append_inj' h rfl
    exact Or.inl ⟨hfront.symm, (List.cons.inj hlast).1.symm, rfl⟩
  · rw [List.concat_eq_append, ← List.cons_append, ← List.append_assoc] at h
    obtain ⟨hfront, hlast⟩ := List.append_inj' h rfl
    rw [List.concat_eq_append, (List.cons.inj hlast).1]
    exact Or.inr ⟨after', rfl, hfront⟩

/-- Whether each cycle is as it should be, given those that ended before it. -/
def InTurn (P : List Ended → Ended → Prop) (past : List Ended) : Prop :=
  ∀ before cycle after, past = before ++ cycle :: after → P before cycle

namespace InTurn

variable {P : List Ended → Ended → Prop} {past : List Ended} {last : Ended}

theorem nil : InTurn P [] := by
  intro before cycle after hpast
  cases before <;> cases hpast

theorem append (h : InTurn P past) (hlast : P past last) : InTurn P (past ++ [last]) := by
  intro before cycle after hpast
  rcases Ended.last_or_before hpast with ⟨rfl, rfl, -⟩ | ⟨after', -, hpast'⟩
  · exact hlast
  · exact h before cycle after' hpast'

theorem left {more : List Ended} (h : InTurn P (past ++ more)) : InTurn P past := by
  intro before cycle after hpast
  exact h before cycle (after ++ more) (by simp [hpast])

theorem final (h : InTurn P (past ++ [last])) : P past last := h past last [] rfl

end InTurn

/-- What lies around a synchronizer. -/
structure Surroundings where
  /-- The moment that has come. -/
  moment : Nat
  /-- The store. -/
  db : Database
  /-- What the synchronizer sees of the cluster. -/
  view : ClusterView
  /-- How calls behave for the keys that are given a manner. -/
  manners : List (String × Manner)

/-- Surroundings in which gates are found, while calls behave in manners. -/
def showing (moment : Nat) (gates : List Gate) (manners : List (String × Manner)) : Surroundings :=
  ⟨moment, .empty, ⟨true, .fixed gates, .unreachable⟩, manners⟩

/-- The node in other surroundings. Time does not go back. -/
def Node.amid (node : Node) (surroundings : Surroundings) : Node :=
  { node.wait surroundings.moment with
    db := surroundings.db
    view := surroundings.view
    manners := surroundings.manners }

/-- A synchronizer that tasks share. -/
structure Shared where
  /-- The node. -/
  node : Node
  /-- The cycles that wait for their turn. -/
  waiting : List Trigger
  /-- The cycle that has its turn. -/
  turn : Option Turn
  /-- The cycles that have ended, in their order. -/
  past : List Ended

namespace Shared

/-- What can happen to a shared synchronizer. -/
inductive Event where
  /-- A task asks for a cycle. -/
  | ask (trigger : Trigger)
  /-- The surroundings change. -/
  | change (surroundings : Surroundings)
  /-- A cycle that waits gets its turn and goes on to its first call, or ends. -/
  | begin (trigger : Trigger)
  /-- The call under way ends, and its cycle goes on to the next one, or ends. -/
  | close

/-- A shared synchronizer whose daemon has just started. -/
def initial (timing : Timing) (view : ClusterView) (db : Database) : Shared :=
  ⟨.initial timing view db, [], none, []⟩

/-- What the synchronizer knows of the local configuration. -/
def known (shared : Shared) : Snapshot := shared.node.memory.known

/-- Goes on from what has become of a cycle. -/
def follow (shared : Shared) (trigger : Trigger) (began : Nat) (made : List CallResult) :
    Node.Pace × Node → Shared
  | (.ended result, node) =>
    { shared with
      node := node
      turn := none
      past := shared.past ++ [⟨trigger, began, node.now, result, made⟩] }
  | (.underWay cycle, node) => { shared with node := node, turn := some ⟨trigger, began, cycle⟩ }

/-- Lets an event happen, if it can. -/
def step? (shared : Shared) : Event → Option Shared
  | .ask trigger => some { shared with waiting := shared.waiting ++ [trigger] }
  | .change surroundings => some { shared with node := shared.node.amid surroundings }
  | .begin trigger =>
    match shared.turn with
    | some _ => none
    | none =>
      if trigger ∈ shared.waiting then
        let waiting := shared.waiting.erase trigger
        some (({ shared with waiting := waiting } : Shared).follow trigger shared.node.now []
          (shared.node.openCycle trigger.forced))
      else none
  | .close =>
    match shared.turn with
    | none => none
    | some turn =>
      some (shared.follow turn.trigger turn.began turn.issued (shared.node.closeCall turn.cycle))

/-- Lets events happen one after another, if they can. -/
def run? : List Event → Shared → Option Shared
  | [], shared => some shared
  | event :: events, shared => (shared.step? event).bind (run? events)

/-! ## What an event comes to -/

/-- What an event can make of a shared synchronizer. -/
inductive Took (shared : Shared) : Event → Shared → Prop
  /-- One more cycle waits. -/
  | asked (trigger : Trigger) :
    Took shared (.ask trigger) { shared with waiting := shared.waiting ++ [trigger] }
  /-- The node is in other surroundings. -/
  | changed (surroundings : Surroundings) :
    Took shared (.change surroundings) { shared with node := shared.node.amid surroundings }
  /-- A cycle ends without a call. -/
  | passed (trigger : Trigger) (hfree : shared.turn = none) (result : Result)
    (hidle : ∀ report, result ≠ .ok (.applied report))
    (hdebounced : result = .ok .debounced ↔
      (shared.node.opening trigger.forced).isRecent shared.node.timing shared.node.now)
    (hunchanged : result = .ok .unchanged → ∃ gates,
      shared.node.view.listGates shared.node.db = .ok gates ∧ shared.known = .ofGates gates) :
    Took shared (.begin trigger)
      { node := { shared.node with memory := shared.node.opening trigger.forced }
        waiting := shared.waiting.erase trigger
        turn := none
        past := shared.past ++ [⟨trigger, shared.node.now, shared.node.now, result, []⟩] }
  /-- A cycle makes its first call. -/
  | called (trigger : Trigger) (hfree : shared.turn = none)
    (hrecent : ¬ (shared.node.opening trigger.forced).isRecent shared.node.timing shared.node.now)
    (gates : List Gate) (hlisted : shared.node.view.listGates shared.node.db = .ok gates)
    (call : Call) (waiting : List Call)
    (hcalls : (Patch.between shared.known (.ofGates gates)).calls = call :: waiting)
    (succeeds : Bool) (ending : Nat) :
    Took shared (.begin trigger)
      { node := { shared.node with
          memory := shared.node.opening trigger.forced
          calls := shared.node.calls ++ [⟨shared.node.now, call⟩] }
        waiting := shared.waiting.erase trigger
        turn := some ⟨trigger, shared.node.now, ⟨⟨.ofGates gates, [], call, waiting⟩, succeeds, ending⟩⟩
        past := shared.past }
  /-- A cycle makes its next call. -/
  | proceeded (turn : Turn) (hturn : shared.turn = some turn) (next : Call) (waiting : List Call)
    (hwaiting : turn.cycle.applying.waiting = next :: waiting) (succeeds : Bool) (ending : Nat) :
    Took shared .close
      { shared with
        node := { shared.node with
          now := max shared.node.now turn.cycle.ending
          calls := shared.node.calls ++ [⟨max shared.node.now turn.cycle.ending, next⟩] }
        turn := some { turn with
          cycle := ⟨⟨turn.cycle.applying.wanted, turn.issued, next, waiting⟩, succeeds, ending⟩ } }
  /-- A cycle has made all its calls. -/
  | finished (turn : Turn) (hturn : shared.turn = some turn)
    (hwaiting : turn.cycle.applying.waiting = []) :
    Took shared .close
      { shared with
        node := { shared.node with
          now := max shared.node.now turn.cycle.ending
          memory := ⟨knownAfter shared.known turn.cycle.applying.wanted turn.issued,
            some (max shared.node.now turn.cycle.ending)⟩ }
        turn := none
        past := shared.past ++ [⟨turn.trigger, turn.began, max shared.node.now turn.cycle.ending,
          .ok (.applied (.ofResults turn.issued)), turn.issued⟩] }

variable {shared shared' : Shared} {event : Event}

theorem took_of_step? (h : shared.step? event = some shared') : shared.Took event shared' := by
  cases event with
  | ask trigger =>
    cases h
    exact .asked trigger
  | change surroundings =>
    cases h
    exact .changed surroundings
  | begin trigger =>
    unfold step? at h
    dsimp only at h
    cases hfree : shared.turn with
    | some turn => simp [hfree] at h
    | none =>
      rw [hfree] at h
      dsimp only at h
      split at h
      · have hopened := shared.node.openCycle_opened trigger.forced
        generalize shared.node.openCycle trigger.forced = opened at hopened h
        cases hopened with
        | debounced hrecent =>
          cases h
          exact .passed trigger hfree _ (by simp) (by simp [hrecent]) (by simp)
        | unmanaged hrecent _ =>
          cases h
          exact .passed trigger hfree _ (by simp) (by simp [hrecent]) (by simp)
        | unlisted hrecent e _ =>
          cases h
          exact .passed trigger hfree _ (by simp) (by simp [hrecent]) (by simp)
        | unchanged hrecent gates hlisted hcalls =>
          cases h
          refine .passed trigger hfree _ (by simp) (by simp [hrecent]) fun _ => ⟨gates, hlisted, ?_⟩
          exact Patch.eq_of_calls_between_eq_nil hcalls
        | calling hrecent gates hlisted call waiting hcalls =>
          cases h
          exact .called trigger hfree hrecent gates hlisted call waiting hcalls _ _
      · cases h
  | close =>
    unfold step? at h
    dsimp only at h
    cases hturn : shared.turn with
    | none => simp [hturn] at h
    | some turn =>
      obtain ⟨trigger, began, ⟨⟨wanted, made, call, waiting⟩, succeeds, ending⟩⟩ := turn
      rw [hturn] at h
      cases waiting with
      | nil =>
        cases h
        exact .finished _ hturn rfl
      | cons next waiting =>
        cases h
        exact .proceeded _ hturn next waiting rfl _ _

end Shared

end Sync

end ControlPlane
