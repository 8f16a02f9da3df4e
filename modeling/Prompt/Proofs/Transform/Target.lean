import Mathlib.Data.List.Nodup
import Prompt.Proofs.Decimal.Finite
import Prompt.Proofs.Json.RoundTrip
import Prompt.Proofs.Table
import Prompt.Transform.Caller
import Prompt.Transform.Target

/-!
# Targets and traits as attributes

What is said to the voice comes from targets and from traits. Of the targets of one id the last is there, at
the place of the first (`ids_merged`, `getLast?_of_mem_merged`). Targets and traits are shown as records of
an id, a name and a number (`scored?`); of those of one id the first one counts (`voiceAttributes_eq`).
-/

namespace Prompt.Transform
open Template

/-- A record of an id, a name and a number as an attribute. -/
def scored? (idField valueField : String) (j : Json) : Option Attribute := do
  let id ← (j.field? idField).bind Json.asString?
  let name ← (j.field? "name").bind Json.asString?
  let value ← (j.field? valueField).bind Json.asFloat?
  return ⟨id, Text.lowercased name, value⟩

/-- A number that is not finite has no text and is not read back. -/
theorem filterMap_of_isFinite {α : Type} {read : α → Option Attribute} (value : α → Float)
    (meant : α → Attribute)
    (back : ∀ a, read a = if (value a).isFinite then some (meant a) else none) (xs : List α) :
    xs.filterMap read = (xs.filter fun a => (value a).isFinite).map meant := by
  induction xs with
  | nil => rfl
  | cons a rest ih =>
      rw [List.filterMap_cons, back, List.filter_cons, ih]
      cases (value a).isFinite <;> rfl

/-! ### Targets -/

/-- An id, and a name of its own or the words of the id. -/
structure Target.Named (t : Target) : Prop where
  id : t.id ≠ ""
  name : t.name ≠ "" ∨ t.name = humanize t.id

theorem named_of_ofJson? {layer : String} {j : Json} {t : Target} (read : Target.ofJson? layer j = some t) :
    t.Named := by
  have filled {names : List String} {s : String} (text : textField? j names = some s) : s ≠ "" := by
    simpa using (Option.mem_filter_iff.mp (Option.mem_def.mpr text)).2
  obtain ⟨id, identified, rest⟩ := Option.bind_eq_some_iff.mp read
  obtain ⟨value, -, same⟩ := Option.bind_eq_some_iff.mp rest
  cases same
  refine ⟨filled identified, ?_⟩
  cases text : textField? j ["name"] with
  | none => exact .inr rfl
  | some name => exact .inl (filled text)

def merged (j : Json) : List Target := (targetLayers j).foldl Target.merge []

def Target.entry (t : Target) : String × Target := (t.id, t)

theorem keys_entries (targets : List Target) :
    Entries.keys (targets.map Target.entry) = targets.map Target.id := List.map_map

theorem entries_merge (targets : List Target) (new : Target) :
    (Target.merge targets new).map Target.entry =
      Entries.insert (targets.map Target.entry) new.id new := by
  induction targets with
  | nil => rfl
  | cons old rest ih =>
      unfold Target.merge
      by_cases same : old.id = new.id
      · simp [Entries.insert, Target.entry, same]
      · simpa [Entries.insert, Target.entry, same] using ih

/-- Merging is writing into a table of targets under their ids. -/
theorem merged_eq_collect (j : Json) : (merged j).map Target.entry =
    Entries.collect Target.id (fun _ t => t) (targetLayers j) := by
  rw [merged]
  induction targetLayers j using List.reverseRecOn with
  | nil => rfl
  | append_singleton layers new ih =>
      rw [List.foldl_append, Entries.collect_append_singleton, ← ih]
      exact entries_merge _ new

theorem ids_merged (j : Json) : (merged j).map Target.id = ((targetLayers j).map Target.id).eraseDups := by
  rw [← keys_entries, merged_eq_collect, Entries.keys_collect]

theorem nodup_ids_merged (j : Json) : ((merged j).map Target.id).Nodup := by
  rw [ids_merged]
  exact nodup_eraseDups _

def ofId (id : String) (targets : List Target) : List Target := targets.filter fun t => t.id == id

theorem getLast?_of_mem_merged {j : Json} {t : Target} (member : t ∈ merged j) :
    (ofId t.id (targetLayers j)).getLast? = some t := by
  have once : (Entries.keys ((merged j).map Target.entry)).Nodup := keys_entries _ ▸ nodup_ids_merged j
  have stored : Entries.get? ((merged j).map Target.entry) t.id = some t :=
    (Entries.get?_eq_some_iff once).mpr (List.mem_map_of_mem member)
  rwa [merged_eq_collect, Entries.get?_collect Target.id _ rfl (fun _ _ => List.getLast?_concat)] at stored

theorem exists_of_mem_merged {j : Json} {t : Target} (member : t ∈ merged j) :
    ∃ name ∈ ["behaviorTargets", "callerTargets"], ∃ item ∈ listField j name, ∃ layer,
      Target.ofJson? layer item = some t := by
  have last := getLast?_of_mem_merged member
  have listed : t ∈ targetLayers j := (List.mem_filter.mp (List.mem_of_getLast? last)).1
  rcases List.mem_append.mp listed with listed | listed
  · obtain ⟨item, inside, read⟩ := List.mem_filterMap.mp listed
    exact ⟨_, .head _, item, inside, _, read⟩
  · obtain ⟨item, inside, read⟩ := List.mem_filterMap.mp listed
    exact ⟨_, .tail _ (.head _), item, inside, _, read⟩

/-- Targets with an id and a name each, and no id twice. -/
structure Settled (targets : List Target) : Prop where
  nodup : (targets.map Target.id).Nodup
  named : ∀ t ∈ targets, t.Named

theorem settled_merged (j : Json) : Settled (merged j) where
  nodup := nodup_ids_merged j
  named := by
    intro t member
    obtain ⟨-, -, item, -, layer, read⟩ := exists_of_mem_merged member
    exact named_of_ofJson? read

theorem listField_mergeTargets (j : Json) :
    listField (mergeTargets j) "targets" = (merged j).map Target.toJson := by
  unfold mergeTargets merged
  cases (targetLayers j).foldl Target.merge [] <;> rfl

theorem targetAttribute?_toJson {t : Target} (named : t.Named) :
    targetAttribute? t.toJson = scored? "parameterId" "value" t.toJson := by
  have id : textField? t.toJson ["parameterId"] = some t.id := by
    change (some t.id).filter _ = _
    simp [named.id]
  have name : (textField? t.toJson ["name"]).getD (humanize t.id) = t.name := by
    change ((some t.name).filter fun s => s != "").getD (humanize t.id) = t.name
    rcases named.name with filled | same
    · simp [Option.filter, filled]
    · by_cases filled : t.name = "" <;> simp [Option.filter, filled, ← same]
  have value : numberField? t.toJson ["value"] = (Json.ofFloat t.value).asFloat? := by
    change List.findSome? _ ["value"] = _
    simp
    rfl
  rw [targetAttribute?, id]
  simp only [Option.bind_eq_bind, Option.bind_some, name, value]
  rfl

def Target.toAttribute (t : Target) : Attribute := ⟨t.id, Text.lowercased t.name, t.value⟩

theorem scored?_toJson (t : Target) : scored? "parameterId" "value" t.toJson =
    if t.value.isFinite then some t.toAttribute else none := by
  change (Json.ofFloat t.value).asFloat?.bind _ = _
  unfold Json.ofFloat
  cases t.value.isFinite <;> rfl

theorem filterMap_toJson (targets : List Target) :
    (targets.map Target.toJson).filterMap (scored? "parameterId" "value") =
      (targets.filter fun t => t.value.isFinite).map Target.toAttribute := by
  rw [List.filterMap_map]
  exact filterMap_of_isFinite Target.value Target.toAttribute scored?_toJson targets

section Sound
variable {j : Json} (sound : j.Sound)
include sound

theorem sound_field? {name : String} {value : Json} (field : j.field? name = some value) :
    value.Sound := by
  cases sound with
  | obj once values => exact values _ ((Entries.get?_eq_some_iff once).mp field)
  | _ => cases field

theorem isFinite_asFloat? {x : Float} (number : j.asFloat? = some x) : x.isFinite = true := by
  cases sound with
  | double finite =>
      cases number
      exact finite
  | @int n least less =>
      cases number
      rw [Number.toFloat]
      split
      · exact Decimal.isFinite_neg (Decimal.isFinite_toFloat _)
      · exact Decimal.isFinite_toFloat _
  | _ => cases number

theorem isFinite_numberField? {names : List String} {x : Float} (number : numberField? j names = some x) :
    x.isFinite = true := by
  obtain ⟨name, -, found⟩ := List.exists_of_findSome?_eq_some number
  obtain ⟨value, field, shown⟩ := Option.bind_eq_some_iff.mp found
  exact isFinite_asFloat? (sound_field? sound field) shown

theorem isFinite_value {layer : String} {t : Target} (read : Target.ofJson? layer j = some t) :
    t.value.isFinite = true := by
  obtain ⟨id, -, rest⟩ := Option.bind_eq_some_iff.mp read
  obtain ⟨value, number, same⟩ := Option.bind_eq_some_iff.mp rest
  cases same
  exact isFinite_numberField? sound number

theorem sound_items : ∀ item ∈ j.items, item.Sound := by
  cases sound with
  | arr items => exact items
  | _ => nofun

theorem sound_listField (name : String) : ∀ item ∈ listField j name, item.Sound := by
  unfold listField
  cases field : j.field? name with
  | none => exact List.forall_mem_nil _
  | some list => exact sound_items (sound_field? sound field)

theorem sound_entries : ∀ e ∈ j.entries, e.2.Sound := by
  cases sound with
  | obj once values => exact values
  | _ => nofun

end Sound

theorem isFinite_merged {j : Json} (sound : ∀ name ∈ ["behaviorTargets", "callerTargets"],
    ∀ item ∈ listField j name, item.Sound) : ∀ t ∈ merged j, t.value.isFinite = true := by
  intro t member
  obtain ⟨name, layered, item, inside, layer, read⟩ := exists_of_mem_merged member
  exact isFinite_value (sound name layered item inside) read

/-! ### Traits -/

def traitScores (j : Json) : List (String × Float) := scores ((j.field? "traits").getD j).entries

def traitRecord (e : String × Float) : Json :=
  .obj [("id", .str e.1), ("name", .str (humanize e.1)), ("score", .ofFloat e.2),
    ("level", .str (({} : Thresholds).level e.2).name)]

def scoreEntries (j : Json) : Entries Json := ((j.field? "_scores").map Json.entries).getD []

theorem personality_eq (j : Json) :
    listField (personality j) "traits" = (traitScores j).map traitRecord ∧
      scoreEntries (personality j) = (traitScores j).map fun e => (e.1, .ofFloat e.2) := by
  unfold personality traitScores Json.entries
  cases ((j.field? "traits").getD j).asEntries? with
  | none => exact ⟨rfl, rfl⟩
  | some es =>
      refine ⟨?_, ?_⟩
      · change List.map _ (List.map _ (scores es)) = _
        rw [List.map_map]
        rfl
      · change List.map _ (List.map _ (scores es)) = _
        rw [List.map_map]
        rfl

def traitAttribute (e : String × Float) : Attribute := ⟨e.1, Text.lowercased (humanize e.1), e.2⟩

def traitAttribute? (e : String × Json) : Option Attribute :=
  e.2.asFloat?.map fun value => traitAttribute (e.1, value)

theorem scored?_traitRecord (e : String × Float) : scored? "id" "score" (traitRecord e) =
    if e.2.isFinite then some (traitAttribute e) else none := by
  change (Json.ofFloat e.2).asFloat?.bind _ = _
  unfold Json.ofFloat
  cases e.2.isFinite <;> rfl

theorem filterMap_traitRecord (scores : List (String × Float)) :
    (scores.map traitRecord).filterMap (scored? "id" "score") =
      (scores.filter fun e => e.2.isFinite).map traitAttribute := by
  rw [List.filterMap_map]
  exact filterMap_of_isFinite Prod.snd traitAttribute scored?_traitRecord scores

/-- The numbers that are kept for later sections are those that are shown. -/
theorem filterMap_traitAttribute? (scores : List (String × Float)) :
    (scores.map fun e => (e.1, Json.ofFloat e.2)).filterMap traitAttribute? =
      (scores.map traitRecord).filterMap (scored? "id" "score") := by
  rw [List.filterMap_map, List.filterMap_map]
  refine List.filterMap_congr fun e _ => ?_
  rw [Function.comp_apply, Function.comp_apply, scored?_traitRecord, traitAttribute?, Json.ofFloat]
  cases e.2.isFinite <;> rfl

theorem isFinite_traitScores {j : Json} (sound : j.Sound) :
    ∀ e ∈ traitScores j, e.2.isFinite = true := by
  intro e member
  have inner : ((j.field? "traits").getD j).Sound := by
    cases field : j.field? "traits" with
    | none => exact sound
    | some traits => exact sound_field? sound field
  obtain ⟨entry, listed, number⟩ := List.mem_filterMap.mp member
  obtain ⟨value, shown, rfl⟩ := Option.map_eq_some_iff.mp number
  exact isFinite_asFloat? (sound_entries inner entry listed) shown

/-! ### Both -/

def sameId (a b : Attribute) : Bool := a.id == b.id

def keepNew (kept : List Attribute) (a : Attribute) : List Attribute :=
  if kept.any (sameId · a) then kept else kept ++ [a]

theorem addTraits_eq (kept : List Attribute) (scores : Entries Json) :
    addTraits kept scores = (scores.filterMap traitAttribute?).foldl keepNew kept := by
  induction scores generalizing kept with
  | nil => rfl
  | cons e rest ih =>
      rw [addTraits, List.foldl_cons]
      change addTraits _ rest = _
      rw [ih, List.filterMap_cons, traitAttribute?]
      cases e.2.asFloat? with
      | none => simp
      | some value => rfl

/-- Attributes, and behind them those of others whose ids are new, the first one of each id. -/
def withNew (kept others : List Attribute) : List Attribute :=
  kept ++ (others.filter fun a => !kept.any (sameId · a)).eraseDupsBy sameId

theorem foldl_keepNew (kept others : List Attribute) :
    others.foldl keepNew kept = withNew kept others := by
  induction others generalizing kept with
  | nil => simp [withNew]
  | cons a rest ih =>
      rw [List.foldl_cons, ih, keepNew]
      cases known : kept.any (sameId · a) with
      | true => simp [withNew, known]
      | false =>
          have later (b : Attribute) : (!(kept ++ [a]).any (sameId · b)) =
              (!sameId b a && !kept.any (sameId · b)) := by
            rw [List.any_append, Bool.not_or, Bool.and_comm, List.any_cons, List.any_nil, Bool.or_false,
              sameId, sameId, Bool.beq_comm]
          rw [withNew, withNew, List.filter_cons_of_pos (by simp [known]), List.eraseDupsBy_cons,
            List.filter_filter]
          simp only [later, Bool.false_eq_true, if_false, List.append_assoc, List.singleton_append,
            Bool.decide_eq_false]

theorem nodup_withNew {kept : List Attribute} (nodup : (kept.map Attribute.id).Nodup)
    (others : List Attribute) : ((withNew kept others).map Attribute.id).Nodup := by
  rw [← foldl_keepNew]
  induction others generalizing kept with
  | nil => exact nodup
  | cons a rest ih =>
      refine ih ?_
      rw [keepNew]
      split
      · exact nodup
      · next fresh =>
          rw [List.map_append, List.map_singleton, ← List.concat_eq_append]
          exact nodup.concat (by simpa [sameId] using fresh)

theorem voiceAttributes_eq {c : Context} {t s : Json} {targets : List Target}
    {scores : List (String × Float)} (output : c.output? "behaviorTargets" = some t)
    (output' : c.output? "personality" = some s)
    (listed : listField t "targets" = targets.map Target.toJson) (settled : Settled targets)
    (scored : scoreEntries s = scores.map fun e => (e.1, .ofFloat e.2)) :
    voiceAttributes c = withNew ((targets.map Target.toJson).filterMap (scored? "parameterId" "value"))
      ((scores.map traitRecord).filterMap (scored? "id" "score")) := by
  have same : (targets.map Target.toJson).filterMap targetAttribute? =
      (targets.map Target.toJson).filterMap (scored? "parameterId" "value") := by
    rw [List.filterMap_map, List.filterMap_map]
    exact List.filterMap_congr fun t member => targetAttribute?_toJson (settled.named t member)
  rw [voiceAttributes, output, output', ← same, ← filterMap_traitAttribute?, ← foldl_keepNew,
    ← addTraits_eq, ← listed, ← scored]
  rfl

theorem nodup_attributes {targets : List Target} (settled : Settled targets) :
    (((targets.map Target.toJson).filterMap (scored? "parameterId" "value")).map
      Attribute.id).Nodup := by
  rw [filterMap_toJson, List.map_map]
  exact settled.nodup.sublist (List.filter_sublist.map _)

end Prompt.Transform
