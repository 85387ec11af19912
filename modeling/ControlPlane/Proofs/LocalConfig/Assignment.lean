import ControlPlane.LocalConfig.Command
import ControlPlane.Proofs.LocalConfig.GateKeys
import Mathlib.Data.List.TakeWhile

/-!
# How the configuration program reads its arguments

The program takes an assignment apart at its first equals sign (`readAssignment`). A key and a value that
were joined to an assignment are read back just if the key has no equals sign (`readAssignment_eq_some`).
Otherwise the key ends too early: the assignment for a gate whose name goes on after an equals sign sets
the local key of the gate that is named by what stands before it. The key to remove is an argument of its
own and is always read as it is.

The program reads its arguments when it is run. For a key with a NUL it is not run
(`Call.carryOut_eq_ok_iff`), and such a call fails whatever the program would do.
-/

namespace ControlPlane

namespace LocalConfig

/-- Takes an assignment apart at its first equals sign. -/
def readAssignment (assignment : String) : Option (String × String) :=
  match assignment.toList.dropWhile (· ≠ '=') with
  | [] => none
  | _ :: value => some (String.ofList (assignment.toList.takeWhile (· ≠ '=')), String.ofList value)

/-- The order that the program reads from its arguments. -/
def Order.ofArguments? : List String → Option Order
  | ["set", assignment] => (readAssignment assignment).map fun (key, value) => .set key value
  | ["unset", key] => some (.unset key)
  | _ => none

/-- What the program keeps: texts by key. -/
abbrev Texts := Std.ExtTreeMap String String

/-- What an order makes of what the program keeps. -/
def Order.apply (texts : Texts) : Order → Texts
  | .set key value => texts.insert key value
  | .unset key => texts.erase key

/-- The order that the program reads when it is run for a call. -/
def Call.readOrder? (call : Call) : Option Order := Order.ofArguments? call.order.arguments

/-- What the program keeps when it has been run for a call and has done what it read. -/
def Call.obeyed (texts : Texts) (call : Call) : Texts :=
  match call.readOrder? with
  | some order => order.apply texts
  | none => texts

variable {key value name before after : String} {enabled : Bool}

/-! ## Assignments -/

/-- What is read from an assignment is the key before its first equals sign and the value after it. -/
theorem readAssignment_eq_some {assignment : String} : readAssignment assignment = some (key, value) ↔
    '=' ∉ key.toList ∧ assignment = key ++ "=" ++ value := by
  have hjoin : assignment = key ++ "=" ++ value ↔
      assignment.toList = key.toList ++ '=' :: value.toList := by
    rw [← String.toList_inj, String.toList_append, String.toList_append, List.append_assoc]
    rfl
  rw [hjoin]
  unfold readAssignment
  constructor
  · intro h
    split at h
    · cases h
    · next sign rest hrest =>
      rw [Option.some.injEq, Prod.mk.injEq] at h
      obtain ⟨rfl, rfl⟩ := h
      have hsign : sign = '=' := by
        have hhead := List.head?_dropWhile_not (· ≠ '=') assignment.toList
        rw [hrest] at hhead
        simpa using hhead
      rw [String.toList_ofList, String.toList_ofList]
      constructor
      · intro hmem
        simpa using List.mem_takeWhile_imp hmem
      · rw [← hsign, ← hrest, hsign, List.takeWhile_append_dropWhile]
  · rintro ⟨hkey, hall⟩
    have hkeep : ∀ c ∈ key.toList, decide (c ≠ '=') = true := fun c hc =>
      decide_eq_true fun heq => hkey (heq ▸ hc)
    rw [hall, List.dropWhile_append_of_pos hkeep, List.takeWhile_append_of_pos hkeep]
    simp

/-! ## Commands for a gate -/

theorem mem_localKey_iff : '=' ∈ (localKey name).toList ↔ '=' ∈ name.toList := by
  unfold localKey
  split
  · rfl
  · rw [String.toList_append, List.mem_append]
    exact or_iff_right (by decide)

/-- The command that sets a key is read as such just if the key has no equals sign. -/
theorem readOrder?_set_eq_some : (Call.set key enabled).readOrder? = some (.set key (localValue enabled)) ↔
    '=' ∉ key.toList := by
  have hread : (Call.set key enabled).readOrder? = some (.set key (localValue enabled)) ↔
      readAssignment (key ++ "=" ++ localValue enabled) = some (key, localValue enabled) := by
    simp [Call.readOrder?, Call.order, Order.arguments, Order.ofArguments?]
  rw [hread, readAssignment_eq_some]
  exact and_iff_left rfl

theorem readOrder?_unset (key : String) : (Call.unset key).readOrder? = some (.unset key) := rfl

/-- A call for a key without an equals sign is read as it was meant. -/
theorem Call.readOrder?_of_plain {call : Call} (h : '=' ∉ call.key.toList) :
    call.readOrder? = some call.order := by
  cases call with
  | set key enabled => exact readOrder?_set_eq_some.mpr h
  | unset key => rfl

/-- Such a call changes its key alone, to the text of what it gives the key. -/
theorem Call.getElem?_obeyed {call : Call} (h : '=' ∉ call.key.toList) (texts : Texts) (key : String) :
    (call.obeyed texts)[key]? =
      if call.key = key then call.value?.map localValue else texts[key]? := by
  unfold obeyed
  rw [readOrder?_of_plain h]
  cases call with
  | set key' enabled =>
    refine (Std.ExtTreeMap.getElem?_insert (k := key') (v := localValue enabled)).trans ?_
    simp only [Std.LawfulEqCmp.compare_eq_iff_eq]
    rfl
  | unset key' =>
    refine (Std.ExtTreeMap.getElem?_erase (k := key')).trans ?_
    simp only [Std.LawfulEqCmp.compare_eq_iff_eq]
    rfl

/-- Whether a name is a local key is decided before its first equals sign. -/
theorem isLocalKey_append_equals (before after : String) :
    isLocalKey (before ++ "=" ++ after) = isLocalKey before := by
  refine Bool.eq_iff_iff.mpr ?_
  unfold isLocalKey
  rw [List.isPrefixOf_iff_prefix, List.isPrefixOf_iff_prefix, String.toList_append,
    String.toList_append]
  constructor
  · intro hhead
    rcases List.prefix_or_prefix_of_prefix hhead (List.prefix_append _ _) with hin | hover
    · rcases List.prefix_concat_iff.mp hin with hall | hbefore
      · -- the head would end in an equals sign
        have hmem : '=' ∈ featureHead.toList := by
          rw [hall]
          exact List.mem_append_right _ List.mem_cons_self
        exact absurd hmem (by decide)
      · exact hbefore
    · have hmem : '=' ∈ featureHead.toList :=
        hover.subset (List.mem_append_right _ List.mem_cons_self)
      exact absurd hmem (by decide)
  · intro hhead
    exact (hhead.trans (List.prefix_append _ _)).trans (List.prefix_append _ _)

/-- The command for a gate whose name goes on after an equals sign sets the local key of the gate that is
named by what stands before it. -/
theorem readOrder?_set_of_equals (h : '=' ∉ before.toList) :
    (Call.set (localKey (before ++ "=" ++ after)) enabled).readOrder? =
      some (.set (localKey before) (after ++ "=" ++ localValue enabled)) := by
  have hkey : localKey (before ++ "=" ++ after) = localKey before ++ "=" ++ after := by
    unfold localKey
    rw [isLocalKey_append_equals]
    split
    · rfl
    · rw [String.append_assoc, String.append_assoc, String.append_assoc]
  have hread : readAssignment (localKey (before ++ "=" ++ after) ++ "=" ++ localValue enabled) =
      some (localKey before, after ++ "=" ++ localValue enabled) := by
    rw [readAssignment_eq_some, mem_localKey_iff, hkey]
    refine ⟨h, ?_⟩
    simp only [String.append_assoc]
  simp [Call.readOrder?, Call.order, Order.arguments, Order.ofArguments?, hread]

/-! ## Running the program -/

section

variable {program : String} {order : Order} {call : Call} {run : String → List String → RunResult}

/-- An order is carried out just if it can be handed to the program and the program succeeds. -/
theorem Order.carryOut_eq_ok_iff : order.carryOut program run = .ok () ↔
    (∀ text ∈ program :: order.arguments, '\x00' ∉ text.toList) ∧
      ∃ complaint, run program order.arguments = .exited 0 complaint := by
  have hnul : (program :: order.arguments).any (·.toList.contains '\x00') = false ↔
      ∀ text ∈ program :: order.arguments, '\x00' ∉ text.toList := by
    simp only [List.any_eq_false, List.contains_iff_mem]
  rw [← hnul]
  unfold Order.carryOut
  cases (program :: order.arguments).any (·.toList.contains '\x00') with
  | true => simp
  | false =>
    dsimp only
    rw [if_neg Bool.false_ne_true]
    cases run program order.arguments with
    | notStarted reason => simp
    | exited status complaint => cases status <;> simp

/-- The arguments of a call have a NUL just where its key has one. -/
theorem Call.nul_mem_arguments : (∃ text ∈ call.order.arguments, '\x00' ∈ text.toList) ↔
    '\x00' ∈ call.key.toList := by
  cases call with
  | set key enabled =>
    have hvalue : '\x00' ∉ (localValue enabled).toList := by cases enabled <;> decide
    simp [Call.order, Order.arguments, Call.key, hvalue]
  | unset key => simp [Call.order, Order.arguments, Call.key]

/-- A call succeeds just if its key has no NUL and the program that is run for it succeeds. -/
theorem Call.carryOut_eq_ok_iff (hprogram : '\x00' ∉ program.toList) :
    call.order.carryOut program run = .ok () ↔ '\x00' ∉ call.key.toList ∧
      ∃ complaint, run program call.order.arguments = .exited 0 complaint := by
  rw [Order.carryOut_eq_ok_iff, ← nul_mem_arguments]
  simp [hprogram]

/-- For a key with a NUL no program is run: the call fails in the same way whatever the program does. -/
theorem Call.carryOut_of_nul (h : '\x00' ∈ call.key.toList) : call.order.carryOut program run =
    .error (.notStarted (call.order.commandLine program) "nul byte found in provided data") := by
  obtain ⟨text, hmem, hnul⟩ := nul_mem_arguments.mpr h
  have hany : (program :: call.order.arguments).any (·.toList.contains '\x00') = true := by
    rw [List.any_eq_true]
    exact ⟨text, List.mem_cons_of_mem program hmem, by rwa [List.contains_iff_mem]⟩
  exact if_pos hany

end

end LocalConfig

end ControlPlane
