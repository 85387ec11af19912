import ControlPlane.Sync.Node

/-!
# The background loop

The loop runs a cycle at every tick. The first tick is at once, the others follow at the interval of the
settings. A tick that comes while the loop is busy fires when the cycle ends; if it is late then, the
next tick follows a whole interval behind it.

Only one cycle runs at a time. A forced cycle that comes while the loop is busy waits for the loop, and a
tick that comes during a forced cycle waits for that cycle.

The loop looks at its stop signal between cycles only, so a cycle under way always completes; after the
signal no further cycle begins. A signal that does not say stop changes nothing.

`Node.runLoop` runs the loop beside a list of events, each of which happens at its time.
-/

namespace ControlPlane

namespace Sync

/-- What the loop is doing. -/
inductive Activity where
  /-- It waits for a tick. -/
  | idle
  /-- A tick has fired, and it waits for its turn. -/
  | queued
  /-- It is in a cycle. -/
  | busy (cycle : Node.UnderWay)

/-- How far an activity is from idling. -/
def Activity.rank : Activity → Nat
  | .idle => 0
  | .busy _ => 1
  | .queued => 2

/-- The loop. -/
structure Loop where
  /-- When the next tick is due. -/
  due : Nat
  /-- What the loop is doing. -/
  activity : Activity
  /-- Whether it has been told to stop. -/
  stopping : Bool

/-- A tick that fires no more than this many milliseconds after it was due is not late. -/
def tolerance : Nat := 5

/-- When the tick is due that follows one. -/
def nextDue (interval due fired : Nat) : Nat :=
  (if due + tolerance < fired then fired else due) + max 1 interval

/-- Ticks advance. -/
theorem lt_nextDue (interval due fired : Nat) : due < nextDue interval due fired := by
  unfold nextDue tolerance
  split <;> omega

namespace Loop

/-- The loop at its start. -/
def initial (now : Nat) : Loop := ⟨now, .idle, false⟩

/-- Does something else. -/
def turnTo (loop : Loop) (activity : Activity) : Loop := { loop with activity := activity }

/-- Goes on from what has become of a cycle. -/
def follow (loop : Loop) : Node.Pace → Loop
  | .ended _ => loop.turnTo .idle
  | .underWay cycle => loop.turnTo (.busy cycle)

/-- Fires the tick. -/
def fire (loop : Loop) (interval fired : Nat) : Loop :=
  { loop with due := nextDue interval loop.due fired, activity := .queued }

/-- Tells the loop to stop, or only wakes it. -/
def signal (loop : Loop) (stop : Bool) : Loop := { loop with stopping := loop.stopping || stop }

/-- Lets the loop run until a moment. What is due at the very moment does not happen yet. -/
def settle (loop : Loop) (moment : Nat) (node : Node) : Loop × Node :=
  match _ : loop.activity with
  | .idle =>
    let fired := max loop.due node.now
    if loop.stopping || moment ≤ fired then (loop, node)
    else (loop.fire node.timing.interval fired).settle moment (node.wait fired)
  | .queued =>
    if moment ≤ node.now then (loop, node)
    else
      match node.openCycle false with
      | (.ended _, node) => (loop.turnTo .idle).settle moment node
      | (.underWay cycle, node) => (loop.turnTo (.busy cycle)).settle moment node
  | .busy cycle =>
    match node.pursue moment cycle with
    | (.ended _, node) => (loop.turnTo .idle).settle moment node
    | (.underWay cycle, node) => (loop.turnTo (.busy cycle), node)
termination_by (moment - loop.due, loop.activity.rank)
decreasing_by
  · have := lt_nextDue node.timing.interval loop.due (max loop.due node.now)
    refine Prod.Lex.left _ _ ?_
    simp only [fire]
    simp_all only [Bool.or_eq_true, decide_eq_true_eq, not_or]
    omega
  all_goals
    refine Prod.Lex.right _ ?_
    simp_all [turnTo, Activity.rank]

/-- Lets the loop complete the cycle that it is in, or for which it waits. -/
def complete (loop : Loop) (node : Node) : Loop × Node :=
  match loop.activity with
  | .idle => (loop, node)
  | .queued => (loop.turnTo .idle, (node.runCycle false).2)
  | .busy cycle => (loop.turnTo .idle, (node.finish cycle).2)

/-- Fires the tick that came during a forced cycle, if one did. -/
def catchUp (loop : Loop) (interval start ending : Nat) : Loop :=
  let fired := max loop.due start
  if loop.stopping || ending ≤ fired then loop else loop.fire interval fired

/-- Runs a forced cycle, behind the cycle that the loop is in. -/
def force (loop : Loop) (node : Node) : Result × Loop × Node :=
  let (loop, node) := loop.complete node
  let start := node.now
  let (result, node) := node.runCycle true
  (result, loop.catchUp node.timing.interval start node.now, node)

end Loop

/-! ## Events -/

/-- Something that happens while the loop runs. -/
inductive Deed (α : Type) where
  /-- The node changes, with an answer. -/
  | change (effect : Node → α × Node)
  /-- A cycle is forced. -/
  | force
  /-- The loop is told to stop, or only woken. -/
  | signal (stop : Bool)

/-- Something that happens at a time after the start of the loop. -/
structure Event (α : Type) where
  /-- The time. -/
  time : Nat
  /-- What happens. -/
  deed : Deed α

/-- What came of an event. -/
inductive Happened (α : Type) where
  /-- The node changed. -/
  | changed (answer : α)
  /-- A forced cycle ended. -/
  | forced (result : Result)
  /-- The loop was told. -/
  | signalled

/-- Does what an event says. -/
def Deed.happen {α : Type} (deed : Deed α) (loop : Loop) (node : Node) : Happened α × Loop × Node :=
  match deed with
  | .change effect =>
    let (answer, node) := effect node
    (.changed answer, loop, node)
  | .force =>
    let (result, loop, node) := loop.force node
    (.forced result, loop, node)
  | .signal stop => (.signalled, loop.signal stop, node)

/-- Lets events happen in order, each at its time or as soon as the one before it has happened. -/
def playEvents {α : Type} (start : Nat) : List (Event α) → Loop → Node →
    List (Happened α) × Loop × Node
  | [], loop, node => ([], loop, node)
  | event :: events, loop, node =>
    let moment := start + event.time
    let (loop, node) := loop.settle moment node
    let (happened, loop, node) := event.deed.happen loop (node.wait moment)
    let (rest, loop, node) := playEvents start events loop node
    (happened :: rest, loop, node)

/-- Runs the loop for a time beside events and then stops it. -/
def Node.runLoop {α : Type} (node : Node) (duration : Nat) (events : List (Event α)) :
    List (Happened α) × Node :=
  let start := node.now
  let (happened, loop, node) := playEvents start events (.initial start) node
  let (loop, node) := loop.settle (start + duration) node
  let (_, node) := (loop.signal true).complete (node.wait (start + duration))
  (happened, node)

end Sync

end ControlPlane
