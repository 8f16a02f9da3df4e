import Prompt.Proofs.Transform.Target

/-!
# What merging the targets puts out

One target for each id that is read, the last one of it. Those of a caller are read last, so they go before
those of the system (`exists_of_mem_callerTargets`).
-/

namespace Prompt.Transform

def callerTargets (j : Json) : List Target := (listField j "callerTargets").filterMap (Target.ofJson? "caller")

theorem ofId_targetLayers (id : String) (j : Json) : ofId id (targetLayers j) =
    ofId id ((listField j "behaviorTargets").filterMap (Target.ofJson? "system")) ++ ofId id (callerTargets j) :=
  List.filter_append ..

theorem layer_of_mem_callerTargets {j : Json} {t : Target} (member : t ∈ callerTargets j) :
    t.layer = "caller" := by
  obtain ⟨item, -, read⟩ := List.mem_filterMap.mp member
  obtain ⟨id, -, rest⟩ := Option.bind_eq_some_iff.mp read
  obtain ⟨value, -, same⟩ := Option.bind_eq_some_iff.mp rest
  cases same
  rfl

theorem mem_callerTargets_of_mem_merged {j : Json} {t u : Target} (member : t ∈ merged j)
    (own : u ∈ callerTargets j) (same : u.id = t.id) : t ∈ callerTargets j := by
  have among : u ∈ ofId t.id (callerTargets j) := List.mem_filter.mpr ⟨own, beq_iff_eq.mpr same⟩
  have last := getLast?_of_mem_merged member
  rw [ofId_targetLayers, List.getLast?_append_of_ne_nil _ (List.ne_nil_of_mem among)] at last
  exact (List.mem_filter.mp (List.mem_of_getLast? last)).1

theorem exists_of_mem_callerTargets {j : Json} {u : Target} (own : u ∈ callerTargets j) :
    ∃ t ∈ merged j, t.id = u.id ∧ t.layer = "caller" := by
  have known : u.id ∈ (merged j).map Target.id := by
    rw [ids_merged, List.mem_eraseDups]
    exact List.mem_map_of_mem (List.mem_append_right _ own)
  obtain ⟨t, member, same⟩ := List.mem_map.mp known
  exact ⟨t, member, same, layer_of_mem_callerTargets (mem_callerTargets_of_mem_merged member own same.symm)⟩

theorem merged_eq_nil {j : Json} : merged j = [] ↔ targetLayers j = [] := by
  rw [← List.map_eq_nil_iff, ids_merged, eraseDups_eq_nil_iff, List.map_eq_nil_iff]

theorem mergeTargets_of_filled {j : Json} (filled : targetLayers j ≠ []) :
    mergeTargets j = .obj [("targets", .arr ((merged j).map Target.toJson)),
      ("count", .ofNat (merged j).length),
      ("_byParameter", .obj ((merged j).map fun t => (t.id, .ofFloat t.value)))] := by
  obtain ⟨t, rest, latest⟩ := List.exists_cons_of_ne_nil (mt merged_eq_nil.1 filled)
  rw [merged] at latest
  rw [mergeTargets, merged, latest]

theorem mergeTargets_eq_null {j : Json} : mergeTargets j = .null ↔ targetLayers j = [] := by
  constructor
  · intro null
    by_contra filled
    rw [mergeTargets_of_filled filled] at null
    cases null
  · intro empty
    rw [mergeTargets, empty]
    rfl

theorem ofFloat_value {j : Json} (sound : j.Sound) :
    ∀ t ∈ merged j, Json.ofFloat t.value = .num (.double t.value) := by
  intro t member
  have finite := isFinite_merged (fun name _ => sound_listField sound name) t member
  rw [Json.ofFloat, if_pos finite]

/-- What is put out is null exactly if no target is read; otherwise it holds the last target of each id, in the
order in which the ids come up, and with each id its value. -/
theorem mergeTargets_latest (j : Json) :
    (mergeTargets j = .null ↔ targetLayers j = []) ∧
    ∃ latest : List Target,
      latest.map Target.id = ((targetLayers j).map Target.id).eraseDups ∧
      (∀ t ∈ latest, (ofId t.id (targetLayers j)).getLast? = some t) ∧
      (∀ u ∈ callerTargets j, ∃ t ∈ latest, t.id = u.id ∧ t.layer = "caller") ∧
      (j.Sound → ∀ t ∈ latest, Json.ofFloat t.value = .num (.double t.value)) ∧
      (targetLayers j ≠ [] → mergeTargets j = .obj [("targets", .arr (latest.map Target.toJson)),
        ("count", .ofNat latest.length),
        ("_byParameter", .obj (latest.map fun t => (t.id, .ofFloat t.value)))]) :=
  ⟨mergeTargets_eq_null, merged j, ids_merged j, fun _ => getLast?_of_mem_merged,
    fun _ => exists_of_mem_callerTargets, ofFloat_value, mergeTargets_of_filled⟩

end Prompt.Transform
