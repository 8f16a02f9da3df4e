import Prompt.Proofs.Order.Between
import Prompt.Run.Compose

/-!
# What the checks find

Each mistake is reported as often as the list makes it (`expected`): the rules of the checks add up
(`count_check_append`), and each kind of issue comes from one of them. Hence which lists are refused before
a run (`check_exact`).
-/

open Prompt.Cycle

namespace Prompt.Section

/-- The condition needs the parameter, and it is empty. -/
inductive Lacks : Condition → String → Prop
  | spec : Lacks (.specResolved "") "spec"
  | relation : Lacks (.hasRelation "") "relation"
  | scope : Lacks (.firstInScope "") "scope"
  | sources : Lacks (.dataExists (some [])) "sources"

theorem missingParameter?_eq_some_iff {c : Condition} {parameter : String} :
    c.missingParameter? = some parameter ↔ Lacks c parameter := by
  constructor
  · intro missing
    unfold Condition.missingParameter? at missing
    split at missing
    · obtain ⟨rfl, named⟩ := Option.ite_none_right_eq_some.1 missing
      cases named
      exact .spec
    · obtain ⟨rfl, named⟩ := Option.ite_none_right_eq_some.1 missing
      cases named
      exact .relation
    · obtain ⟨rfl, named⟩ := Option.ite_none_right_eq_some.1 missing
      cases named
      exact .scope
    · cases missing
      exact .sources
    · cases missing
  · rintro ⟨⟩ <;> rfl

instance (c : Condition) (parameter : String) : Decidable (Lacks c parameter) :=
  decidable_of_iff _ missingParameter?_eq_some_iff

def Issue.isCycle : Issue → Bool
  | .cycle _ => true
  | _ => false

open Classical in
/-- How often an issue is to be found in a list. -/
noncomputable def expected (sections : List Section) (registry : Registry) : Issue → Nat
  | .duplicateId id => (sections.map Section.id).count id - 1
  | .duplicateOutputKey key ids =>
    if 1 < ids.length ∧ ids = (sections.filter fun s => s.outputKey = key).map Section.id then 1 else 0
  | .danglingDependency id name =>
    if name ∈ sections.map Section.id then 0
    else ((sections.filter fun s => s.id = id).flatMap Section.dependsOn).count name
  | .unknownTransform id name =>
    if registry.contains name then 0
    else ((sections.filter fun s => s.id = id).flatMap transformNames).count name
  | .unrecognizedCondition id tag => sections.countP fun s => s.id = id ∧ s.condition = .custom tag
  | .missingParameter id tag parameter =>
    sections.countP fun s => s.id = id ∧ s.condition.tag = tag ∧ Lacks s.condition parameter
  | .reservedOutputKey id key =>
    sections.countP fun s => s.id = id ∧ s.outputKey = key ∧ (key = versionKey ∨ key = summaryKey)
  | .cycle ids =>
    if ids ≠ [] ∧ ids.Sublist (nodes sections) ∧ ∀ id, id ∈ ids ↔ Between sections id then 1 else 0

/-! ### Rule by rule -/

theorem count_repeatedIds (seen : List String) (sections : List Section) (id : String) :
    (repeatedIds seen sections).count (.duplicateId id) =
      (sections.map Section.id).count id - if id ∈ seen then 0 else 1 := by
  induction sections generalizing seen with
  | nil => simp [repeatedIds]
  | cons s rest ih =>
      rw [repeatedIds, List.count_append, ih, List.map_cons, List.count_cons]
      by_cases same : s.id = id
      · subst same
        by_cases member : s.id ∈ seen
        · simp [member]
          omega
        · simp [member]
      · have apart : Issue.duplicateId id ∉ if seen.contains s.id then [Issue.duplicateId s.id] else [] := by
          split <;> simp [Ne.symm same]
        rw [List.count_eq_zero.2 apart]
        simp [same, Ne.symm same]

theorem eq_duplicateId_of_mem {seen : List String} {sections : List Section} {i : Issue}
    (found : i ∈ repeatedIds seen sections) : ∃ id, i = .duplicateId id := by
  induction sections generalizing seen with
  | nil => cases found
  | cons s rest ih =>
      rw [repeatedIds, List.mem_append] at found
      rcases found with here | later
      · split at here
        · exact ⟨s.id, List.mem_singleton.1 here⟩
        · cases here
      · exact ih later

theorem mem_sharedKeys {sections : List Section} {i : Issue} :
    i ∈ sharedKeys sections ↔ ∃ key, 1 < (writers sections key).length ∧
      i = .duplicateOutputKey key (writers sections key) := by
  simp only [sharedKeys, List.mem_map, List.mem_filter, decide_eq_true_eq]
  constructor
  · rintro ⟨key, ⟨-, several⟩, rfl⟩
    exact ⟨key, several, rfl⟩
  · rintro ⟨key, several, rfl⟩
    refine ⟨key, ⟨List.mem_eraseDups.2 ?_, several⟩, rfl⟩
    obtain ⟨writer, listed⟩ := List.exists_mem_of_length_pos (Nat.zero_lt_of_lt several)
    obtain ⟨s, writes, -⟩ := List.mem_map.1 listed
    obtain ⟨listed, same⟩ := List.mem_filter.1 writes
    exact List.mem_map.2 ⟨s, listed, eq_of_beq same⟩

theorem nodup_sharedKeys (sections : List Section) : (sharedKeys sections).Nodup :=
  ((nodup_eraseDups _).filter _).map fun _ _ same => (Issue.duplicateOutputKey.inj same).1

theorem mem_reservedKey {s : Section} {i : Issue} : i ∈ reservedKey s ↔
    (s.outputKey = versionKey ∨ s.outputKey = summaryKey) ∧ i = .reservedOutputKey s.id s.outputKey := by
  unfold reservedKey
  split <;> simp [*]

theorem mem_danglingNames {sections : List Section} {s : Section} {i : Issue} :
    i ∈ danglingNames sections s ↔ ∃ name ∈ s.dependsOn, name ∉ sections.map Section.id ∧
      i = .danglingDependency s.id name := by
  simp [danglingNames, and_assoc, @eq_comm _ i]

theorem mem_unknownTransforms {registry : Registry} {s : Section} {i : Issue} :
    i ∈ unknownTransforms registry s ↔ ∃ name ∈ s.transformNames, registry.contains name = false ∧
      i = .unknownTransform s.id name := by
  simp [unknownTransforms, and_assoc, @eq_comm _ i]

theorem mem_unrecognized {s : Section} {i : Issue} : i ∈ unrecognized s ↔
    ∃ tag, s.condition = .custom tag ∧ i = .unrecognizedCondition s.id tag := by
  unfold unrecognized
  cases s.condition <;> simp

theorem mem_emptyParameter {s : Section} {i : Issue} : i ∈ emptyParameter s ↔
    ∃ parameter, Lacks s.condition parameter ∧ i = .missingParameter s.id s.condition.tag parameter := by
  simp only [emptyParameter, Option.mem_toList, Option.map_eq_some_iff,
    missingParameter?_eq_some_iff, @eq_comm _ i]

theorem mem_cycles {sections : List Section} {i : Issue} : i ∈ cycles sections ↔
    members sections ≠ [] ∧ i = .cycle (members sections) := by
  unfold cycles
  cases members sections <;> simp

/-! ### How often

Of each rule, how often it reports which issue. -/

theorem count_flatMap_eq_countP {f : Section → List Issue} {i : Issue} {p : Section → Prop}
    [DecidablePred p] (nodup : ∀ s, (f s).Nodup) (reports : ∀ s, i ∈ f s ↔ p s)
    (sections : List Section) : (sections.flatMap f).count i = sections.countP p := by
  induction sections with
  | nil => rfl
  | cons s rest ih =>
      rw [List.flatMap_cons, List.count_append, (nodup s).count, ih, List.countP_cons, Nat.add_comm]
      exact congrArg _ (if_congr ((reports s).trans decide_eq_true_iff.symm) rfl rfl)

theorem count_flatMap_eq_count {f : Section → List Issue} {names : Section → List String} {i : Issue}
    {id name : String} (own : ∀ s, s.id = id → (f s).count i = (names s).count name)
    (other : ∀ s, s.id ≠ id → i ∉ f s) (sections : List Section) :
    (sections.flatMap f).count i =
      ((sections.filter fun s => s.id = id).flatMap names).count name := by
  induction sections with
  | nil => rfl
  | cons s rest ih =>
      rw [List.flatMap_cons, List.count_append, ih, List.filter_cons]
      by_cases same : s.id = id
      · rw [if_pos (decide_eq_true same), List.flatMap_cons, List.count_append, own s same]
      · rw [if_neg (by simpa using same), List.count_eq_zero.2 (other s same), Nat.zero_add]

theorem count_map_filter {f : String → Issue} (injective : Function.Injective f) (p : String → Bool)
    (names : List String) (name : String) :
    ((names.filter p).map f).count (f name) = if p name then names.count name else 0 := by
  rw [List.count_map_of_injective _ f injective]
  split
  · next wanted => exact List.count_filter wanted
  · next other => exact List.count_eq_zero.2 fun listed => other (List.mem_filter.1 listed).2

variable (sections : List Section) (registry : Registry) (i : Issue)

theorem count_repeatedIds_nil : (repeatedIds [] sections).count i = match i with
    | .duplicateId id => (sections.map Section.id).count id - 1
    | _ => 0 := by
  cases i
  case duplicateId id => simpa using count_repeatedIds [] sections id
  all_goals
    refine List.count_eq_zero.2 fun found => ?_
    obtain ⟨id, ⟨⟩⟩ := eq_duplicateId_of_mem found

theorem count_sharedKeys : (sharedKeys sections).count i = match i with
    | .duplicateOutputKey key ids =>
      if 1 < ids.length ∧ ids = (sections.filter fun s => s.outputKey = key).map Section.id then 1 else 0
    | _ => 0 := by
  cases i
  case duplicateOutputKey key ids =>
    rw [(nodup_sharedKeys sections).count]
    refine if_congr ?_ rfl rfl
    rw [mem_sharedKeys]
    constructor
    · rintro ⟨own, several, ⟨⟩⟩
      exact ⟨several, rfl⟩
    · rintro ⟨several, rfl⟩
      exact ⟨key, several, rfl⟩
  all_goals exact List.count_eq_zero.2 (by simp [mem_sharedKeys])

theorem count_reservedKeys : (sections.flatMap reservedKey).count i = match i with
    | .reservedOutputKey id key =>
      sections.countP fun s => s.id = id ∧ s.outputKey = key ∧ (key = versionKey ∨ key = summaryKey)
    | _ => 0 := by
  cases i
  case reservedOutputKey id key =>
    refine count_flatMap_eq_countP (fun s => ?_) (fun s => ?_) sections
    · unfold reservedKey
      split <;> simp
    · rw [mem_reservedKey]
      constructor
      · rintro ⟨taken, ⟨⟩⟩
        exact ⟨rfl, rfl, taken⟩
      · rintro ⟨rfl, rfl, taken⟩
        exact ⟨taken, rfl⟩
  all_goals exact List.count_eq_zero.2 (by simp [mem_reservedKey])

theorem count_danglingNames (rest : List Section) :
    (rest.flatMap (danglingNames sections)).count i = match i with
      | .danglingDependency id name =>
        if name ∈ sections.map Section.id then 0
        else ((rest.filter fun s => s.id = id).flatMap Section.dependsOn).count name
      | _ => 0 := by
  cases i
  case danglingDependency id name =>
    dsimp only
    split
    · next defined =>
        refine List.count_eq_zero.2 fun found => ?_
        obtain ⟨s, -, reported⟩ := List.mem_flatMap.1 found
        obtain ⟨name', -, undefined, ⟨⟩⟩ := mem_danglingNames.1 reported
        exact undefined defined
    · next undefined =>
        refine count_flatMap_eq_count (fun s own => ?_) (fun s apart => ?_) rest
        · subst own
          rw [danglingNames, count_map_filter fun _ _ same => (Issue.danglingDependency.inj same).2]
          exact if_pos (by simpa using undefined)
        · simp [mem_danglingNames, Ne.symm apart]
  all_goals exact List.count_eq_zero.2 (by simp [mem_danglingNames])

theorem count_unknownTransforms : (sections.flatMap (unknownTransforms registry)).count i = match i with
    | .unknownTransform id name =>
      if registry.contains name then 0
      else ((sections.filter fun s => s.id = id).flatMap transformNames).count name
    | _ => 0 := by
  cases i
  case unknownTransform id name =>
    dsimp only
    split
    · next registered =>
        refine List.count_eq_zero.2 fun found => ?_
        obtain ⟨s, -, reported⟩ := List.mem_flatMap.1 found
        obtain ⟨name', -, missing, ⟨⟩⟩ := mem_unknownTransforms.1 reported
        exact absurd registered (missing ▸ nofun)
    · next missing =>
        refine count_flatMap_eq_count (fun s own => ?_) (fun s apart => ?_) sections
        · subst own
          rw [unknownTransforms, count_map_filter fun _ _ same => (Issue.unknownTransform.inj same).2]
          exact if_pos (by simpa using missing)
        · simp [mem_unknownTransforms, Ne.symm apart]
  all_goals exact List.count_eq_zero.2 (by simp [mem_unknownTransforms])

theorem count_unrecognized : (sections.flatMap unrecognized).count i = match i with
    | .unrecognizedCondition id tag => sections.countP fun s => s.id = id ∧ s.condition = .custom tag
    | _ => 0 := by
  cases i
  case unrecognizedCondition id tag =>
    refine count_flatMap_eq_countP (fun s => ?_) (fun s => ?_) sections
    · unfold unrecognized
      split <;> simp
    · rw [mem_unrecognized]
      constructor
      · rintro ⟨own, custom, ⟨⟩⟩
        exact ⟨rfl, custom⟩
      · rintro ⟨rfl, custom⟩
        exact ⟨tag, custom, rfl⟩
  all_goals exact List.count_eq_zero.2 (by simp [mem_unrecognized])

theorem count_emptyParameters : (sections.flatMap emptyParameter).count i = match i with
    | .missingParameter id tag parameter =>
      sections.countP fun s => s.id = id ∧ s.condition.tag = tag ∧ Lacks s.condition parameter
    | _ => 0 := by
  cases i
  case missingParameter id tag parameter =>
    refine count_flatMap_eq_countP (fun s => ?_) (fun s => ?_) sections
    · unfold emptyParameter
      cases s.condition.missingParameter? <;> simp
    · rw [mem_emptyParameter]
      constructor
      · rintro ⟨own, lacks, ⟨⟩⟩
        exact ⟨rfl, rfl, lacks⟩
      · rintro ⟨rfl, rfl, lacks⟩
        exact ⟨parameter, lacks, rfl⟩
  all_goals exact List.count_eq_zero.2 (by simp [mem_emptyParameter])

theorem count_cycles : (cycles sections).count i = match i with
    | .cycle ids => if ids ≠ [] ∧ members sections = ids then 1 else 0
    | _ => 0 := by
  cases i
  case cycle ids =>
    have nodup : (cycles sections).Nodup := by
      unfold cycles
      split <;> simp
    rw [nodup.count]
    refine if_congr ?_ rfl rfl
    rw [mem_cycles]
    constructor
    · rintro ⟨filled, ⟨⟩⟩
      exact ⟨filled, rfl⟩
    · rintro ⟨filled, rfl⟩
      exact ⟨filled, rfl⟩
  all_goals exact List.count_eq_zero.2 (by simp [mem_cycles])

theorem count_check_append : (check sections registry).issues.count i =
    (repeatedIds [] sections).count i + (sharedKeys sections).count i +
      (sections.flatMap reservedKey).count i + (sections.flatMap (danglingNames sections)).count i +
      (sections.flatMap (unknownTransforms registry)).count i + (sections.flatMap unrecognized).count i +
      (sections.flatMap emptyParameter).count i + (cycles sections).count i := by
  have each : ∀ rest : List Section, (rest.flatMap (issues sections registry)).count i =
      (rest.flatMap reservedKey).count i + (rest.flatMap (danglingNames sections)).count i +
        (rest.flatMap (unknownTransforms registry)).count i + (rest.flatMap unrecognized).count i +
        (rest.flatMap emptyParameter).count i := by
    intro rest
    induction rest with
    | nil => rfl
    | cons s rest ih =>
        simp only [List.flatMap_cons, List.count_append, issues] at ih ⊢
        omega
  rw [check, List.count_append, List.count_append, List.count_append, each]
  omega

open Classical in
theorem count_check : (check sections registry).issues.count i = expected sections registry i := by
  rw [count_check_append, count_repeatedIds_nil, count_sharedKeys, count_reservedKeys, count_danglingNames,
    count_unknownTransforms, count_unrecognized, count_emptyParameters, count_cycles]
  cases i
  case cycle ids =>
    simp only [expected, Nat.zero_add]
    exact if_congr (and_congr_right fun _ => members_eq_iff) rfl rfl
  all_goals simp only [expected, Nat.add_zero, Nat.zero_add]

theorem countP_isCycle_check : (check sections registry).issues.countP Issue.isCycle ≤ 1 := by
  have only : (check sections registry).issues.countP Issue.isCycle =
      (check sections registry).issues.count (.cycle (members sections)) := by
    refine List.countP_congr fun i found => ?_
    rw [beq_iff_eq]
    cases i
    case cycle ids =>
      obtain ⟨-, rfl⟩ := cycle_mem_check_iff.1 found
      exact iff_of_true rfl rfl
    all_goals exact iff_of_false nofun nofun
  rw [only, count_check, expected]
  split <;> decide

/-! ### Before a run -/

/-- What a list must have to be run when it is checked first. Warnings do not count, and so the registry
does not either. -/
structure Runnable (sections : List Section) : Prop where
  ids_nodup : (sections.map Section.id).Nodup
  named : ∀ s ∈ sections, ∀ name ∈ s.dependsOn, name ∈ sections.map Section.id
  acyclic : ¬ ∃ id, OnCycle sections id
  parameters : ∀ s ∈ sections, ∀ parameter, ¬ Lacks s.condition parameter
  unreserved : ∀ s ∈ sections, s.outputKey ≠ versionKey ∧ s.outputKey ≠ summaryKey

variable {sections} in
theorem valid_iff_runnable : Valid sections ↔ Runnable sections := by
  have acyclic : members sections = [] ↔ ¬ ∃ id, OnCycle sections id := by
    rw [← members_ne_nil_iff, not_not]
  have parameters (s : Section) : s.condition.missingParameter? = none ↔
      ∀ parameter, ¬ Lacks s.condition parameter := by
    simp only [Option.eq_none_iff_forall_ne_some, ne_eq, missingParameter?_eq_some_iff]
  constructor
  · rintro ⟨nodup, unreserved, named, filled, empty⟩
    exact ⟨nodup, named, acyclic.1 empty, fun s listed => (parameters s).1 (filled s listed), unreserved⟩
  · rintro ⟨nodup, named, free, filled, unreserved⟩
    exact ⟨nodup, unreserved, named, fun s listed => (parameters s).2 (filled s listed), acyclic.2 free⟩

theorem isOk_build_iff (config : Config) (registry : Registry) :
    (∃ composer, Composer.build config registry = .ok composer) ↔
      (config.validateOnLoad = true → Runnable config.resolvedSections) := by
  unfold Composer.build
  rw [← valid_iff_runnable, ← isValid_check _ registry]
  cases config.validateOnLoad <;>
    cases valid : (check config.resolvedSections registry).isValid <;> simp [valid]

/-- The checks find each mistake as often as it is made, and a list is refused for errors only. -/
theorem check_exact (registry : Registry) :
    (∀ sections i, (check sections registry).issues.count i = expected sections registry i) ∧
      (∀ sections, (check sections registry).issues.countP Issue.isCycle ≤ 1) ∧
      ∀ config, (∃ composer, Composer.build config registry = .ok composer) ↔
        (config.validateOnLoad = true → Runnable config.resolvedSections) :=
  ⟨fun sections i => count_check sections registry i,
    fun sections => countP_isCycle_check sections registry,
    fun config => isOk_build_iff config registry⟩

end Prompt.Section
