import ControlPlane.Proofs.LocalConfig.PatchCalls
import ControlPlane.Sync.Node

/-!
# What a cycle comes to

`CycleCourse` says in which ways a cycle can go, and `Node.runCycle_course` that there is no other.
A cycle that writes makes all calls of the patch between what is known and what is wanted, whatever
becomes of each of them; every other cycle makes no call and learns nothing.
-/

namespace ControlPlane

namespace Sync

open LocalConfig

/-- The keys of the failed calls. -/
theorem mem_failedKeys {results : List CallResult} {key : String} :
    key ∈ results.filterMap (·.failedKey?) ↔
      ∃ result ∈ results, result.call.key = key ∧ result.succeeded = false := by
  rw [List.mem_filterMap]
  refine exists_congr fun result => and_congr_right fun _ => ?_
  unfold CallResult.failedKey?
  cases result.succeeded <;> simp

/-- What is known of a key after calls: what was known if its call failed, else what is wanted. -/
theorem getElem?_knownAfter (known wanted : Snapshot) (results : List CallResult) (key : String) :
    (knownAfter known wanted results)[key]? =
      if key ∈ results.filterMap (·.failedKey?) then known[key]? else wanted[key]? :=
  Snapshot.getElem?_foldl_restore known _ key wanted

namespace Node

/-- Whether a call that begins now will succeed. -/
def succeeds (node : Node) (call : Call) : Bool :=
  ((node.manner call.key).course node.timing.callTimeout).1

/-- What will have become of a call that begins now. -/
def resultOf (node : Node) (call : Call) : CallResult := ⟨call, node.succeeds call⟩

/-- What a node remembers when a cycle begins. -/
def opening (node : Node) (forced : Bool) : Memory :=
  if forced then node.memory.forced else node.memory

@[simp]
theorem known_opening (node : Node) (forced : Bool) :
    (node.opening forced).known = node.memory.known := by
  cases forced <;> rfl

/-- What the beginning of a cycle comes to. -/
inductive Opened (node : Node) (forced : Bool) : Pace × Node → Prop
  /-- The last cycle that wrote is too recent. -/
  | debounced (h : (node.opening forced).isRecent node.timing node.now) :
    Opened node forced (.ended (.ok .debounced), { node with memory := node.opening forced })
  /-- The node manages its configuration itself. -/
  | unmanaged (hrecent : ¬ (node.opening forced).isRecent node.timing node.now)
    (h : isSelfManaged (node.view.mode node.db)) :
    Opened node forced (.ended (.ok .unmanaged), { node with memory := node.opening forced })
  /-- The gates cannot be listed. -/
  | unlisted (hrecent : ¬ (node.opening forced).isRecent node.timing node.now) (e : ClusterError)
    (h : node.view.listGates node.db = .error e) :
    Opened node forced (.ended (.error e), { node with memory := node.opening forced })
  /-- Nothing differs. -/
  | unchanged (hrecent : ¬ (node.opening forced).isRecent node.timing node.now) (gates : List Gate)
    (h : node.view.listGates node.db = .ok gates)
    (hcalls : (Patch.between node.memory.known (.ofGates gates)).calls = []) :
    Opened node forced (.ended (.ok .unchanged), { node with memory := node.opening forced })
  /-- The first call of the patch is under way. -/
  | calling (hrecent : ¬ (node.opening forced).isRecent node.timing node.now) (gates : List Gate)
    (h : node.view.listGates node.db = .ok gates) (call : Call) (waiting : List Call)
    (hcalls : (Patch.between node.memory.known (.ofGates gates)).calls = call :: waiting) :
    Opened node forced
      (.underWay ⟨⟨.ofGates gates, [], call, waiting⟩, node.succeeds call,
          node.now + ((node.manner call.key).course node.timing.callTimeout).2⟩,
        { node with
          memory := node.opening forced
          calls := node.calls ++ [⟨node.now, call⟩] })

/-- A cycle begins in one of the ways of `Opened`. -/
theorem openCycle_opened (node : Node) (forced : Bool) :
    Opened node forced (node.openCycle forced) := by
  have hnode : (if forced then { node with memory := node.memory.forced } else node) =
      { node with memory := node.opening forced } := by
    cases forced <;> rfl
  unfold openCycle
  rw [hnode]
  dsimp only
  unfold Memory.openCycle
  by_cases hrecent : (node.opening forced).isRecent node.timing node.now
  · rw [if_pos hrecent]
    exact .debounced hrecent
  · rw [if_neg hrecent]
    by_cases hmode : isSelfManaged (node.view.mode node.db)
    · rw [if_pos hmode]
      exact .unmanaged hrecent hmode
    · rw [if_neg hmode]
      unfold Memory.gatesListed
      cases hlist : node.view.listGates node.db with
      | error e => exact .unlisted hrecent e hlist
      | ok gates =>
        dsimp only
        rw [known_opening]
        cases hcalls : (Patch.between node.memory.known (.ofGates gates)).calls with
        | nil => exact .unchanged hrecent gates hlist hcalls
        | cons call waiting => exact .calling hrecent gates hlist call waiting hcalls

/-- The ways in which a cycle can go. -/
inductive CycleCourse (node : Node) (forced : Bool) : Result × Node → Prop
  /-- The last cycle that wrote is too recent. -/
  | debounced (h : (node.opening forced).isRecent node.timing node.now) :
    CycleCourse node forced (.ok .debounced, { node with memory := node.opening forced })
  /-- The node manages its configuration itself. -/
  | unmanaged (h : isSelfManaged (node.view.mode node.db)) :
    CycleCourse node forced (.ok .unmanaged, { node with memory := node.opening forced })
  /-- The gates cannot be listed. -/
  | unlisted (e : ClusterError) (h : node.view.listGates node.db = .error e) :
    CycleCourse node forced (.error e, { node with memory := node.opening forced })
  /-- Nothing differs. -/
  | unchanged (gates : List Gate) (h : node.view.listGates node.db = .ok gates)
    (hcalls : (Patch.between node.memory.known (.ofGates gates)).calls = []) :
    CycleCourse node forced (.ok .unchanged, { node with memory := node.opening forced })
  /-- Every call of the patch is made. -/
  | applied (gates : List Gate) (h : node.view.listGates node.db = .ok gates)
    (made : List TimedCall)
    (hcalls : made.map TimedCall.call = (Patch.between node.memory.known (.ofGates gates)).calls)
    (hmade : made ≠ []) (ending : Nat) :
    CycleCourse node forced
      (.ok (.applied (.ofResults ((made.map TimedCall.call).map node.resultOf))),
        { node with
          now := ending
          memory := ⟨knownAfter node.memory.known (.ofGates gates)
            ((made.map TimedCall.call).map node.resultOf), some ending⟩
          calls := node.calls ++ made })

/-- A cycle with a call under way makes this call and all that follow. -/
theorem finish_eq (wanted : Snapshot) (waiting : List Call) :
    ∀ (node : Node) (done : List CallResult) (call : Call) (ending : Nat),
      ∃ made ending', made.map TimedCall.call = waiting ∧
        node.finish ⟨⟨wanted, done, call, waiting⟩, node.succeeds call, ending⟩ =
          (.ok (.applied (.ofResults (done ++ (call :: waiting).map node.resultOf))),
            { node with
              now := ending'
              memory := ⟨knownAfter node.memory.known wanted
                (done ++ (call :: waiting).map node.resultOf), some ending'⟩
              calls := node.calls ++ made }) := by
  induction waiting with
  | nil =>
    intro node done call ending
    refine ⟨[], max node.now ending, rfl, ?_⟩
    rw [finish]
    simp [closeCall, Memory.callEnded, take, wait, resultOf]
  | cons next waiting ih =>
    intro node done call ending
    let start := max node.now ending
    let ending' := start + ((node.manner next.key).course node.timing.callTimeout).2
    let node' : Node := { node with now := start, calls := node.calls ++ [⟨start, next⟩] }
    have hclose : node.closeCall ⟨⟨wanted, done, call, next :: waiting⟩, node.succeeds call, ending⟩ =
        (.underWay ⟨⟨wanted, done ++ [node.resultOf call], next, waiting⟩, node'.succeeds next,
          ending'⟩, node') := rfl
    obtain ⟨made, last, hmade, hfinish⟩ :=
      ih node' (done ++ [node.resultOf call]) next ending'
    refine ⟨⟨start, next⟩ :: made, last, by rw [List.map_cons, hmade], ?_⟩
    rw [finish, hclose]
    refine hfinish.trans ?_
    -- The manners of the calls and what is known are those of the node before the call.
    have hresult : node'.resultOf = node.resultOf := rfl
    simp [hresult, node']

/-- A cycle goes in one of the ways of `CycleCourse`. -/
theorem runCycle_course (node : Node) (forced : Bool) :
    CycleCourse node forced (node.runCycle forced) := by
  have hopened := node.openCycle_opened forced
  unfold runCycle
  generalize node.openCycle forced = opened at hopened
  cases hopened with
  | debounced hrecent => exact .debounced hrecent
  | unmanaged _ hmode => exact .unmanaged hmode
  | unlisted _ e hlist => exact .unlisted e hlist
  | unchanged _ gates hlist hcalls => exact .unchanged gates hlist hcalls
  | calling _ gates hlist call waiting hcalls =>
    let node' : Node := { node with
      memory := node.opening forced
      calls := node.calls ++ [⟨node.now, call⟩] }
    obtain ⟨made, ending, hmade, hfinish⟩ := finish_eq (.ofGates gates) waiting node' [] call
      (node.now + ((node.manner call.key).course node.timing.callTimeout).2)
    have hall : (TimedCall.mk node.now call :: made).map TimedCall.call =
        (Patch.between node.memory.known (.ofGates gates)).calls := by
      rw [hcalls, List.map_cons, hmade]
    have happlied : CycleCourse node forced _ :=
      .applied gates hlist _ hall (List.cons_ne_nil _ _) ending
    rw [hall, hcalls] at happlied
    have hresult : node'.resultOf = node.resultOf := rfl
    simp only [hresult, node', List.nil_append, List.append_assoc, known_opening] at hfinish
    exact (congrArg (CycleCourse node forced) hfinish).mpr happlied

end Node

end Sync

end ControlPlane
