import ControlPlane.Proofs.Sync.CycleRun
import Mathlib.Data.List.Nodup
import Mathlib.Tactic.Tauto

/-!
# A node and its local configuration

A synchronizer sees of a call only whether it succeeded. A call that fails may have taken effect all
the same: a call that is given up may just have done its work. A `Site` therefore keeps beside a
node what its local configuration really holds, and every attempt that was made on it. An `Occasion`
says when a cycle runs, what it finds, how its calls behave, and which of the failed ones take
effect (`Occasion.lands`).

What a cycle does to a key is told by `KeyCourse`: the key is left alone, or one call is attempted
that would show what is known of it.
-/

namespace ControlPlane

namespace Sync

open LocalConfig

/-! ## Attempts -/

/-- An attempt to change the local configuration. -/
structure Attempt where
  /-- The call. -/
  call : Call
  /-- Whether it was seen to succeed. -/
  succeeded : Bool
  /-- Whether it takes effect even if it fails. -/
  landed : Bool

namespace Attempt

/-- Whether an attempt took effect. -/
def tookEffect (attempt : Attempt) : Bool := attempt.succeeded || attempt.landed

/-- The local configuration after an attempt. -/
def apply (config : Snapshot) (attempt : Attempt) : Snapshot :=
  if attempt.tookEffect then attempt.call.apply config else config

/-- What the synchronizer sees of an attempt. -/
def result (attempt : Attempt) : CallResult := ⟨attempt.call, attempt.succeeded⟩

/--
Whether it is in doubt what the local configuration holds of a key: a call for the key failed and
took effect, and no later call for the key was seen to succeed.
-/
def InDoubt (key : String) : List Attempt → Prop
  | [] => False
  | attempt :: later => InDoubt key later ∨
    attempt.call.key = key ∧ attempt.succeeded = false ∧ attempt.landed = true ∧
      ∀ a ∈ later, a.call.key = key → a.succeeded = false

theorem inDoubt_append (key : String) (history attempts : List Attempt) :
    InDoubt key (history ++ attempts) ↔ InDoubt key attempts ∨
      InDoubt key history ∧ ∀ a ∈ attempts, a.call.key = key → a.succeeded = false := by
  induction history with
  | nil => simp [InDoubt]
  | cons attempt history ih =>
    rw [List.cons_append, InDoubt, InDoubt, ih]
    simp only [List.mem_append, or_imp, forall_and]
    tauto

theorem not_inDoubt_of_forall_ne {key : String} {attempts : List Attempt}
    (h : ∀ a ∈ attempts, a.call.key ≠ key) : ¬ InDoubt key attempts := by
  induction attempts with
  | nil => exact not_false
  | cons attempt attempts ih =>
    rintro (hd | ⟨hk, -⟩)
    · exact ih (fun a ha => h a (List.mem_cons_of_mem _ ha)) hd
    · exact h attempt List.mem_cons_self hk

/-- Attempts on other keys leave a key as it is. -/
theorem getElem?_foldl_apply_of_forall_ne {key : String} {attempts : List Attempt}
    (h : ∀ a ∈ attempts, a.call.key ≠ key) (config : Snapshot) :
    (attempts.foldl apply config)[key]? = config[key]? := by
  induction attempts generalizing config with
  | nil => rfl
  | cons attempt attempts ih =>
    rw [List.foldl_cons, ih fun a ha => h a (List.mem_cons_of_mem _ ha)]
    unfold apply
    split
    · rw [Call.getElem?_apply, if_neg (h attempt List.mem_cons_self)]
    · rfl

/-- The one attempt on a key decides what becomes of the key. -/
theorem getElem?_foldl_apply {attempts : List Attempt}
    (h : (attempts.map fun a => a.call.key).Nodup) {attempt : Attempt} (hmem : attempt ∈ attempts)
    (config : Snapshot) :
    (attempts.foldl apply config)[attempt.call.key]? =
      if attempt.tookEffect then attempt.call.value? else config[attempt.call.key]? := by
  obtain ⟨before, after, rfl⟩ := List.append_of_mem hmem
  simp only [List.map_append, List.map_cons, List.nodup_append, List.nodup_cons, List.mem_map,
    List.mem_cons] at h
  obtain ⟨-, ⟨hafter, -⟩, hbefore⟩ := h
  have hb : ∀ a ∈ before, a.call.key ≠ attempt.call.key :=
    fun a ha => hbefore _ ⟨a, ha, rfl⟩ _ (Or.inl rfl)
  have ha : ∀ a ∈ after, a.call.key ≠ attempt.call.key :=
    fun a hmem hk => hafter ⟨a, hmem, hk⟩
  rw [List.foldl_append, List.foldl_cons, getElem?_foldl_apply_of_forall_ne ha, apply]
  split
  · rw [Call.getElem?_apply, if_pos rfl]
  · exact getElem?_foldl_apply_of_forall_ne hb config

/-- The one attempt on a key decides whether the key is in doubt. -/
theorem inDoubt_iff_of_mem {attempts : List Attempt}
    (h : (attempts.map fun a => a.call.key).Nodup) {attempt : Attempt} (hmem : attempt ∈ attempts) :
    InDoubt attempt.call.key attempts ↔ attempt.succeeded = false ∧ attempt.landed = true := by
  induction attempts with
  | nil => cases hmem
  | cons first attempts ih =>
    rw [List.map_cons, List.nodup_cons, List.mem_map] at h
    obtain ⟨hfirst, hrest⟩ := h
    rcases List.mem_cons.1 hmem with rfl | hmem
    · have hother : ∀ a ∈ attempts, a.call.key ≠ attempt.call.key :=
        fun a ha hk => hfirst ⟨a, ha, hk⟩
      rw [InDoubt, or_iff_right (not_inDoubt_of_forall_ne hother)]
      exact ⟨fun hd => ⟨hd.2.1, hd.2.2.1⟩,
        fun hd => ⟨rfl, hd.1, hd.2, fun a ha hk => absurd hk (hother a ha)⟩⟩
    · have hne : first.call.key ≠ attempt.call.key := fun hk => hfirst ⟨attempt, hmem, hk.symm⟩
      rw [InDoubt, ih hrest hmem]
      exact or_iff_left fun hd => hne hd.1

/-- The keys of the failed calls among attempts. -/
theorem mem_failedKeys {attempts : List Attempt} {key : String} :
    key ∈ (attempts.map result).filterMap (·.failedKey?) ↔
      ∃ a ∈ attempts, a.call.key = key ∧ a.succeeded = false := by
  rw [Sync.mem_failedKeys]
  simp [result]

end Attempt

/-! ## Occasions and sites -/

/-- An occasion on which a cycle runs. -/
structure Occasion where
  /-- Whether the cycle is forced. -/
  forced : Bool
  /-- The moment before which it does not begin. -/
  moment : Nat
  /-- The store. -/
  db : Database
  /-- What the synchronizer sees of the cluster. -/
  view : ClusterView
  /-- How calls behave for the keys that are given a manner. -/
  manners : List (String × Manner)
  /-- Which calls take effect even if they fail. -/
  lands : Call → Bool

/-- A node and its local configuration. -/
structure Site where
  /-- The node. -/
  node : Node
  /-- What the local configuration holds. -/
  config : Snapshot
  /-- The attempts on the local configuration, in order. -/
  history : List Attempt

namespace Site

/-- A site whose daemon has just started and whose local configuration is empty. -/
def initial (timing : Timing) (view : ClusterView) (db : Database) : Site :=
  ⟨.initial timing view db, ∅, []⟩

/-- What the synchronizer knows of the local configuration. -/
def known (site : Site) : Snapshot := site.node.memory.known

/-- The node when a cycle begins. -/
def start (site : Site) (occasion : Occasion) : Node :=
  { site.node.wait occasion.moment with
    db := occasion.db
    view := occasion.view
    manners := occasion.manners }

/-- The calls that a cycle makes: those written down in its course. -/
def callsMade (site : Site) (occasion : Occasion) : List Call :=
  (((site.start occasion).runCycle occasion.forced).2.calls.drop site.node.calls.length).map
    TimedCall.call

/-- The attempts of a cycle. -/
def attempts (site : Site) (occasion : Occasion) : List Attempt :=
  (site.callsMade occasion).map fun call =>
    ⟨call, (site.start occasion).succeeds call, occasion.lands call⟩

/-- Runs a cycle. -/
def cycle (site : Site) (occasion : Occasion) : Result × Site :=
  let (result, node) := (site.start occasion).runCycle occasion.forced
  (result, ⟨node, (site.attempts occasion).foldl Attempt.apply site.config,
    site.history ++ site.attempts occasion⟩)

/-- The site after cycles on occasions, one after another. -/
def after : List Occasion → Site → Site
  | [], site => site
  | occasion :: occasions, site => after occasions (site.cycle occasion).2

/-! ## What a cycle does -/

variable {site : Site} {occasion : Occasion}

/-- The result and the knowledge that a cycle comes to. -/
inductive Course (site : Site) (occasion : Occasion) : Prop
  /-- It makes no call and learns nothing. -/
  | idle (hresult : ∀ report, (site.cycle occasion).1 ≠ .ok (.applied report))
    (hlisted : (site.cycle occasion).1 = .ok .unchanged →
      ∃ gates, occasion.view.listGates occasion.db = .ok gates ∧ site.known = .ofGates gates)
    (hattempts : site.attempts occasion = [])
    (hknown : (site.cycle occasion).2.known = site.known)
  /-- It attempts every call of the patch from what is known to what is wanted. -/
  | writing (gates : List Gate) (hlisted : occasion.view.listGates occasion.db = .ok gates)
    (hresult : (site.cycle occasion).1 =
      .ok (.applied (.ofResults ((site.attempts occasion).map Attempt.result))))
    (hattempts : (site.attempts occasion).map Attempt.call =
      (Patch.between site.known (.ofGates gates)).calls)
    (hknown : (site.cycle occasion).2.known =
      knownAfter site.known (.ofGates gates) ((site.attempts occasion).map Attempt.result))

theorem course (site : Site) (occasion : Occasion) : site.Course occasion := by
  have hrun := (site.start occasion).runCycle_course occasion.forced
  have hresult : (site.cycle occasion).1 =
      ((site.start occasion).runCycle occasion.forced).1 := rfl
  have hknown : (site.cycle occasion).2.known =
      ((site.start occasion).runCycle occasion.forced).2.memory.known := rfl
  have hattempts : site.attempts occasion = (site.callsMade occasion).map fun call =>
      ⟨call, (site.start occasion).succeeds call, occasion.lands call⟩ := rfl
  have hmade : site.callsMade occasion =
      (((site.start occasion).runCycle occasion.forced).2.calls.drop
        (site.start occasion).calls.length).map TimedCall.call := rfl
  generalize (site.start occasion).runCycle occasion.forced = ending at hrun hresult hknown hmade
  cases hrun with
  | applied gates hlisted made hcalls _ _ =>
    rw [List.drop_left] at hmade
    have hresults : (site.attempts occasion).map Attempt.result =
        (made.map TimedCall.call).map (site.start occasion).resultOf := by
      rw [hattempts, hmade, List.map_map]
      rfl
    refine .writing gates hlisted ?_ ?_ ?_
    · rw [hresult, hresults]
    · rw [hattempts, hmade, hcalls, List.map_map]
      exact List.map_id _
    · rw [hknown, hresults]
      rfl
  | unchanged gates hlisted hcalls =>
    rw [Node.known_opening] at hknown
    rw [List.drop_length] at hmade
    refine .idle (by simp [hresult]) (fun _ => ⟨gates, hlisted, ?_⟩) (by rw [hattempts, hmade]; rfl) hknown
    exact Patch.eq_of_calls_between_eq_nil hcalls
  | debounced | unmanaged | unlisted =>
    rw [Node.known_opening] at hknown
    rw [List.drop_length] at hmade
    exact .idle (by simp [hresult]) (by simp [hresult]) (by rw [hattempts, hmade]; rfl) hknown

theorem nodup_attempts (site : Site) (occasion : Occasion) :
    ((site.attempts occasion).map fun a => a.call.key).Nodup := by
  cases site.course occasion with
  | idle _ _ hattempts => rw [hattempts]; exact List.nodup_nil
  | writing gates _ _ hattempts _ =>
    have hnodup := Patch.nodup_calls_between site.known (.ofGates gates)
    rw [← hattempts, List.map_map] at hnodup
    exact hnodup

/-- A key that no call is attempted for is known as before. -/
theorem known_of_forall_ne {key : String} (hkey : ∀ a ∈ site.attempts occasion, a.call.key ≠ key) :
    (site.cycle occasion).2.known[key]? = site.known[key]? := by
  cases site.course occasion with
  | idle _ _ _ hknown => rw [hknown]
  | writing gates _ _ hattempts hknown =>
    have hfailed : key ∉ ((site.attempts occasion).map Attempt.result).filterMap (·.failedKey?) := by
      rw [Attempt.mem_failedKeys]
      rintro ⟨a, ha, hk, -⟩
      exact hkey a ha hk
    rw [hknown, getElem?_knownAfter, if_neg hfailed]
    by_cases heq : site.known[key]? = (Snapshot.ofGates gates)[key]?
    · exact heq.symm
    · have hcall : Call.toward (.ofGates gates) key ∈
          (Patch.between site.known (.ofGates gates)).calls := by
        rw [Patch.mem_calls_between, Call.key_toward]
        exact ⟨heq, rfl⟩
      rw [← hattempts, List.mem_map] at hcall
      obtain ⟨a, ha, hcall⟩ := hcall
      exact absurd (by rw [hcall, Call.key_toward]) (hkey a ha)

/-- An attempt would change what is known of its key, and does so if it succeeds. -/
theorem known_of_mem {attempt : Attempt} (hmem : attempt ∈ site.attempts occasion) :
    attempt.call.value? ≠ site.known[attempt.call.key]? ∧
      (site.cycle occasion).2.known[attempt.call.key]? =
        if attempt.succeeded then attempt.call.value? else site.known[attempt.call.key]? := by
  cases site.course occasion with
  | idle _ _ hattempts _ =>
    rw [hattempts] at hmem
    cases hmem
  | writing gates _ _ hattempts hknown =>
    have hcall : attempt.call ∈ (Patch.between site.known (.ofGates gates)).calls := by
      rw [← hattempts]
      exact List.mem_map_of_mem hmem
    obtain ⟨hne, htoward⟩ := Patch.mem_calls_between.1 hcall
    have hvalue : attempt.call.value? = (Snapshot.ofGates gates)[attempt.call.key]? := by
      rw [htoward, Call.value?_toward, Call.key_toward]
    refine ⟨hvalue ▸ hne.symm, ?_⟩
    have hone : ∀ a ∈ site.attempts occasion, a.call.key = attempt.call.key → a = attempt :=
      fun a ha hk => List.inj_on_of_nodup_map (site.nodup_attempts occasion) ha hmem hk
    rw [hknown, getElem?_knownAfter, hvalue]
    cases hs : attempt.succeeded with
    | true =>
      refine if_neg fun hfailed => ?_
      obtain ⟨a, ha, hk, hfail⟩ := Attempt.mem_failedKeys.1 hfailed
      rw [hone a ha hk, hs] at hfail
      cases hfail
    | false => exact if_pos (Attempt.mem_failedKeys.2 ⟨attempt, hmem, rfl, hs⟩)

/-- What a cycle does to a key. -/
inductive KeyCourse (site : Site) (occasion : Occasion) (key : String) : Prop
  /-- The key is left alone. -/
  | untouched (hattempts : ∀ a ∈ site.attempts occasion, a.call.key ≠ key)
    (hknown : (site.cycle occasion).2.known[key]? = site.known[key]?)
    (hconfig : (site.cycle occasion).2.config[key]? = site.config[key]?)
    (hdoubt : Attempt.InDoubt key (site.cycle occasion).2.history ↔
      Attempt.InDoubt key site.history)
  /-- One call is attempted, and it would change what is known of the key. -/
  | attempted (attempt : Attempt) (hmem : attempt ∈ site.attempts occasion)
    (hkey : attempt.call.key = key) (hdiffers : attempt.call.value? ≠ site.known[key]?)
    (hknown : (site.cycle occasion).2.known[key]? =
      if attempt.succeeded then attempt.call.value? else site.known[key]?)
    (hconfig : (site.cycle occasion).2.config[key]? =
      if attempt.tookEffect then attempt.call.value? else site.config[key]?)
    (hdoubt : Attempt.InDoubt key (site.cycle occasion).2.history ↔ attempt.succeeded = false ∧
      (attempt.landed = true ∨ Attempt.InDoubt key site.history))

theorem keyCourse (site : Site) (occasion : Occasion) (key : String) :
    site.KeyCourse occasion key := by
  have hnodup := site.nodup_attempts occasion
  have hhistory : (site.cycle occasion).2.history = site.history ++ site.attempts occasion := rfl
  have hconfig : (site.cycle occasion).2.config =
      (site.attempts occasion).foldl Attempt.apply site.config := rfl
  by_cases hkey : ∀ a ∈ site.attempts occasion, a.call.key ≠ key
  · refine .untouched hkey (known_of_forall_ne hkey) ?_ ?_
    · rw [hconfig, Attempt.getElem?_foldl_apply_of_forall_ne hkey]
    · rw [hhistory, Attempt.inDoubt_append, or_iff_right (Attempt.not_inDoubt_of_forall_ne hkey)]
      exact and_iff_left fun a ha hk => absurd hk (hkey a ha)
  · simp only [not_forall, Decidable.not_not] at hkey
    obtain ⟨attempt, hmem, rfl⟩ := hkey
    obtain ⟨hdiffers, hknown⟩ := known_of_mem hmem
    refine .attempted attempt hmem rfl hdiffers hknown ?_ ?_
    · rw [hconfig, Attempt.getElem?_foldl_apply hnodup hmem]
    · have hall : (∀ a ∈ site.attempts occasion, a.call.key = attempt.call.key →
          a.succeeded = false) ↔ attempt.succeeded = false :=
        ⟨fun h => h attempt hmem rfl,
          fun h a ha hk => List.inj_on_of_nodup_map hnodup ha hmem hk ▸ h⟩
      rw [hhistory, Attempt.inDoubt_append, Attempt.inDoubt_iff_of_mem hnodup hmem, hall]
      tauto

/-! ## The invariant -/

/--
The synchronizer is wrong about exactly those keys that are in doubt: a key whose failed call took
effect really holds what the call gave it, and is known as before.
-/
def Sound (site : Site) : Prop :=
  ∀ key, site.config[key]? ≠ site.known[key]? ↔ Attempt.InDoubt key site.history

theorem sound_initial (timing : Timing) (view : ClusterView) (db : Database) :
    (initial timing view db).Sound := by
  intro key
  exact iff_of_false (fun h => h rfl) not_false

/-- A cycle keeps a site sound, whatever becomes of its calls. -/
theorem Sound.cycle (h : site.Sound) (occasion : Occasion) : (site.cycle occasion).2.Sound := by
  intro key
  have hkey := h key
  cases site.keyCourse occasion key with
  | untouched _ hknown hconfig hdoubt => rw [hknown, hconfig, hdoubt, hkey]
  | attempted attempt _ _ hdiffers hknown hconfig hdoubt =>
    rw [hknown, hconfig, hdoubt, Attempt.tookEffect]
    by_cases hs : attempt.succeeded = true
    · simp [hs]
    · by_cases hl : attempt.landed = true
      · simpa [hs, hl] using hdiffers
      · simpa [hs, hl] using hkey

theorem Sound.after (h : site.Sound) (occasions : List Occasion) :
    (site.after occasions).Sound := by
  induction occasions generalizing site with
  | nil => exact h
  | cons occasion occasions ih => exact ih (h.cycle occasion)

/-- Where failed calls take no effect, nothing is in doubt. -/
theorem not_inDoubt_after {occasions : List Occasion}
    (ho : ∀ o ∈ occasions, ∀ call, o.lands call = false) {key : String}
    (h : ¬ Attempt.InDoubt key site.history) :
    ¬ Attempt.InDoubt key (site.after occasions).history := by
  induction occasions generalizing site with
  | nil => exact h
  | cons occasion occasions ih =>
    refine ih (fun o hmem => ho o (List.mem_cons_of_mem _ hmem)) ?_
    cases site.keyCourse occasion key with
    | untouched _ _ _ hdoubt => rwa [hdoubt]
    | attempted attempt hmem _ _ _ _ hdoubt =>
      have hlanded : attempt.landed = false := by
        obtain ⟨call, -, rfl⟩ := List.mem_map.1 hmem
        exact ho occasion List.mem_cons_self call
      rw [hdoubt, hlanded]
      tauto

end Site

end Sync

end ControlPlane
