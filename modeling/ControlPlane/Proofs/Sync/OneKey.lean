import ControlPlane.Proofs.Sync.CyclePlan

/-!
# Differences in one key

Where one call at most is lacking for what is known to be as the gates want it (`Site.LacksAtMost`), a
cycle makes this call or none. So as long as the same gates are listed, cycles make the call until it has
succeeded, and no call after that (`Site.LacksAtMost.tries`).
-/

namespace ControlPlane

namespace Sync

open LocalConfig

/-- Whether the gates, where they can be listed on an occasion, are the given ones. -/
def Occasion.Lists (occasion : Occasion) (gates : List Gate) : Prop :=
  ∀ listed, occasion.view.listGates occasion.db = .ok listed → listed = gates

/-- Whether the cycle on an occasion is forced and finds gates, on a node that does not manage its
configuration itself. -/
structure Occasion.Forces (occasion : Occasion) (gates : List Gate) : Prop where
  forced : occasion.forced = true
  managed : ¬ isSelfManaged (occasion.view.mode occasion.db)
  listed : occasion.view.listGates occasion.db = .ok gates

theorem Occasion.Forces.compares {next : Occasion} {gates : List Gate} (h : next.Forces gates)
    (site : Site) : site.Compares next gates where
  due := by
    rw [h.forced]
    simp [Node.opening, Memory.forced, Memory.isRecent]
  managed := h.managed
  listed := h.listed

namespace Site

/-- The attempts of cycles on occasions, one after another. -/
def attemptsOn : List Occasion → Site → List Attempt
  | [], _ => []
  | occasion :: occasions, site =>
    site.attempts occasion ++ attemptsOn occasions (site.cycle occasion).2

/-- Whether what is known is as gates want it, or would be after a call. -/
structure LacksAtMost (site : Site) (call : Call) (gates : List Gate) : Prop where
  /-- Every other key is known as it should be. -/
  others : ∀ key, key ≠ call.key → site.known[key]? = (Snapshot.ofGates gates)[key]?
  /-- The call gives its key what the gates want. -/
  wanted : (Snapshot.ofGates gates)[call.key]? = call.value?

variable {site : Site} {occasion : Occasion} {occasions : List Occasion} {gates : List Gate}
  {call : Call}

/-! ## One cycle -/

namespace LacksAtMost

theorem toward_eq (h : site.LacksAtMost call gates) : Call.toward (.ofGates gates) call.key = call := by
  rw [Call.toward, h.wanted]
  cases call <;> rfl

theorem calls_between (h : site.LacksAtMost call gates) :
    (Patch.between site.known (.ofGates gates)).calls =
      if site.known[call.key]? = call.value? then [] else [call] := by
  rw [Patch.calls_between_of_agree h.others, h.wanted, h.toward_eq]

/-- What a cycle does. -/
inductive Course (site : Site) (occasion : Occasion) (call : Call) : Prop
  /-- It makes no call, and learns nothing. -/
  | quiet (hattempts : site.attempts occasion = [])
    (hknown : (site.cycle occasion).2.known = site.known)
  /-- It makes the call, which was needed. -/
  | calling (attempt : Attempt) (hattempts : site.attempts occasion = [attempt])
    (hcall : attempt.call = call) (hneeded : site.known[call.key]? ≠ call.value?)
    (hknown : (site.cycle occasion).2.known[call.key]? =
      if attempt.succeeded then call.value? else site.known[call.key]?)

theorem course (h : site.LacksAtMost call gates) (hlists : occasion.Lists gates) :
    Course site occasion call := by
  cases site.course occasion with
  | idle _ _ hattempts hknown => exact .quiet hattempts hknown
  | writing listed hlisted _ hcalls hknown =>
    obtain rfl := hlists listed hlisted
    have hpatch := h.calls_between
    by_cases hneeded : site.known[call.key]? = call.value?
    · rw [if_pos hneeded] at hpatch
      rw [hpatch, List.map_eq_nil_iff] at hcalls
      refine .quiet hcalls ?_
      rw [hknown, hcalls, Patch.eq_of_calls_between_eq_nil hpatch]
      rfl
    · rw [hpatch, if_neg hneeded] at hcalls
      obtain ⟨attempt, hattempts, hcall⟩ := List.map_eq_singleton_iff.mp hcalls
      have hmem : attempt ∈ site.attempts occasion := by
        rw [hattempts]
        exact List.mem_singleton_self attempt
      have hafter := (known_of_mem hmem).2
      rw [hcall] at hafter
      exact .calling attempt hattempts hcall hneeded hafter

theorem cycle (h : site.LacksAtMost call gates) (hlists : occasion.Lists gates) :
    (site.cycle occasion).2.LacksAtMost call gates := by
  refine ⟨fun key hne => ?_, h.wanted⟩
  have hother : ∀ attempt ∈ site.attempts occasion, attempt.call.key ≠ key := by
    cases h.course hlists with
    | quiet hattempts _ =>
      rw [hattempts]
      exact List.forall_mem_nil _
    | calling attempt hattempts hcall _ _ =>
      rw [hattempts, List.forall_mem_singleton, hcall]
      exact hne.symm
  rw [known_of_forall_ne hother, h.others key hne]

theorem after (h : site.LacksAtMost call gates)
    (hlists : ∀ occasion ∈ occasions, occasion.Lists gates) :
    (site.after occasions).LacksAtMost call gates := by
  induction occasions generalizing site with
  | nil => exact h
  | cons occasion occasions ih =>
    rw [List.forall_mem_cons] at hlists
    exact ih (h.cycle hlists.1) hlists.2

end LacksAtMost

/-! ## Cycles one after another -/

/-- Whether cycles on occasions come to one call, which is made until it has succeeded. -/
structure Tries (site : Site) (call : Call) (occasions : List Occasion) : Prop where
  /-- No other call is attempted. -/
  only : ∀ attempt ∈ site.attemptsOn occasions, attempt.call = call
  /-- There is no attempt after one that succeeded. -/
  last : (site.attemptsOn occasions).Pairwise fun earlier _ => earlier.succeeded = false
  /-- There is no attempt if the key is known as the call would have it. -/
  needed : site.known[call.key]? = call.value? → site.attemptsOn occasions = []
  /-- Once an attempt has succeeded the key is known as the call has it, and until then as before. -/
  known : (site.after occasions).known[call.key]? =
    if ∃ attempt ∈ site.attemptsOn occasions, attempt.succeeded = true then call.value?
    else site.known[call.key]?

/-- Calls that set a key leave it known, if it was known before. -/
theorem Tries.known_ne_none (h : site.Tries call occasions) (hset : call.value? ≠ none)
    (hsite : site.known[call.key]? ≠ none) : (site.after occasions).known[call.key]? ≠ none := by
  rw [h.known]
  split
  · exact hset
  · exact hsite

namespace LacksAtMost

/-- The induction is on the cycles. Where the first of them succeeds with the call, the others find the
key as wanted. -/
theorem tries (h : site.LacksAtMost call gates)
    (hlists : ∀ occasion ∈ occasions, occasion.Lists gates) : site.Tries call occasions := by
  induction occasions generalizing site with
  | nil =>
    refine ⟨List.forall_mem_nil _, List.Pairwise.nil, fun _ => rfl, ?_⟩
    rw [if_neg]
    · rfl
    · rintro ⟨attempt, hmem, -⟩
      cases hmem
  | cons occasion occasions ih =>
    rw [List.forall_mem_cons] at hlists
    obtain ⟨honly, hlast, hneeded, hend⟩ := ih (h.cycle hlists.1) hlists.2
    have hafter : site.after (occasion :: occasions) = (site.cycle occasion).2.after occasions := rfl
    cases h.course hlists.1 with
    | quiet hattempts hknown =>
      have hall : site.attemptsOn (occasion :: occasions) =
          (site.cycle occasion).2.attemptsOn occasions := by
        rw [attemptsOn, hattempts, List.nil_append]
      rw [hknown] at hneeded hend
      constructor
      case only => rwa [hall]
      case last => rwa [hall]
      case needed => rwa [hall]
      case known => rwa [hall]
    | calling attempt hattempts hcall hdiffers hknown =>
      have hall : site.attemptsOn (occasion :: occasions) =
          attempt :: (site.cycle occasion).2.attemptsOn occasions := by
        rw [attemptsOn, hattempts]
        rfl
      constructor
      case only =>
        rw [hall, List.forall_mem_cons]
        exact ⟨hcall, honly⟩
      case last =>
        rw [hall, List.pairwise_cons]
        refine ⟨?_, hlast⟩
        intro later hmem
        by_contra hsucceeded
        rw [Bool.not_eq_false] at hsucceeded
        rw [if_pos hsucceeded] at hknown
        rw [hneeded hknown] at hmem
        cases hmem
      case needed => exact fun hsame => absurd hsame hdiffers
      case known =>
        rw [hall, hafter, hend, hknown]
        simp only [List.exists_mem_cons_iff]
        by_cases hsucceeded : attempt.succeeded = true
        · simp [hsucceeded]
        · simp [hsucceeded]

/-- A forced cycle that follows makes the call too, unless it was not needed or has succeeded. -/
theorem callsMade {next : Occasion} (h : site.LacksAtMost call gates)
    (hlists : ∀ occasion ∈ occasions, occasion.Lists gates) (hnext : next.Forces gates) :
    (site.after occasions).callsMade next =
      if site.known[call.key]? = call.value? ∨
        ∃ attempt ∈ site.attemptsOn occasions, attempt.succeeded = true then [] else [call] := by
  rw [(cycle_of_compares (hnext.compares (site.after occasions))).1, (h.after hlists).calls_between,
    (h.tries hlists).known]
  by_cases hsome : ∃ attempt ∈ site.attemptsOn occasions, attempt.succeeded = true
  · rw [if_pos hsome, if_pos rfl, if_pos (Or.inr hsome)]
  · simp only [hsome, if_false, or_false]

end LacksAtMost

end Site

end Sync

end ControlPlane
