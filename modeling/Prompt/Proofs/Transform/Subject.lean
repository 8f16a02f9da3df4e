import Mathlib.Data.Set.Function
import Prompt.Proofs.Template.Scan
import Prompt.Proofs.Transform.Memory

/-!
# What memories are about

An identity is written as one text, of a category and a key with two colons between them. Two different
subjects may be written alike, but only if the category of one goes on into the key of the other
(`joined_eq_iff`), and not if the category of the other holds no two colons in a row and does not end in one
(`not_runsInto_of_ends`). Where this does not happen, memories are taken for one another exactly when they
agree in category and key, and of every subject one memory is kept.
-/

namespace Prompt.Transform

/-- A category and a key, both in lower case and the key without blanks around it. -/
structure Subject where
  category : String
  key : String
  deriving DecidableEq

namespace Subject

def ofJson? (m : Json) : Option Subject :=
  (textField? m ["key"]).map fun key =>
    ⟨Text.lowercased (Transform.category m), Text.lowercased (Text.trimmed key)⟩

def joined (s : Subject) : String := s.category ++ "::" ++ s.key

/-- What follows the category of one, up to the key of the other, belongs to its key there and to the
category here. -/
def RunsInto (s t : Subject) : Prop :=
  ∃ between, between ≠ "" ∧ t.category ++ "::" = s.category ++ "::" ++ between ∧ s.key = between ++ t.key

theorem RunsInto.joined_eq {s t : Subject} (runs : s.RunsInto t) : s.joined = t.joined := by
  obtain ⟨between, -, categories, keys⟩ := runs
  rw [joined, joined, categories, keys]
  simp only [String.append_assoc]

theorem eq_or_runsInto {s t : Subject} {between : List Char}
    (categories : t.category.toList ++ [':', ':'] = s.category.toList ++ [':', ':'] ++ between)
    (keys : s.key.toList = between ++ t.key.toList) : s = t ∨ s.RunsInto t := by
  cases between with
  | nil =>
      rw [List.append_nil, List.append_cancel_right_eq] at categories
      cases s
      cases t
      exact .inl (mk.injEq .. ▸ ⟨(String.toList_inj.1 categories).symm, String.toList_inj.1 keys⟩)
  | cons c rest =>
      refine .inr ⟨String.ofList (c :: rest), by simp, String.toList_inj.1 ?_, String.toList_inj.1 ?_⟩
      · simpa using categories
      · simpa using keys

theorem joined_eq_iff {s t : Subject} : s.joined = t.joined ↔ s = t ∨ s.RunsInto t ∨ t.RunsInto s := by
  constructor
  · intro same
    have split : (s.category.toList ++ [':', ':']) ++ s.key.toList =
        (t.category.toList ++ [':', ':']) ++ t.key.toList := by
      simpa [joined] using congrArg String.toList same
    rcases List.append_eq_append_iff.1 split with ⟨between, categories, keys⟩ | ⟨between, categories, keys⟩
    · exact (eq_or_runsInto categories keys).imp_right .inl
    · exact (eq_or_runsInto categories keys).imp Eq.symm .inr
  · rintro (rfl | runs | runs)
    · rfl
    · exact runs.joined_eq
    · exact runs.joined_eq.symm

/-- Behind the category no two colons stand earlier than those that end it. -/
def Ends (s : Subject) : Prop := ¬ Template.Doubled ':' (s.category.toList ++ [':'])

instance (s : Subject) : Decidable s.Ends := inferInstanceAs (Decidable (¬ _))

theorem not_runsInto_of_ends {s t : Subject} (ends : t.Ends) : ¬ s.RunsInto t := by
  rintro ⟨between, filled, categories, -⟩
  have categories : t.category.toList ++ [':', ':'] =
      s.category.toList ++ ':' :: ':' :: between.toList := by
    simpa using congrArg String.toList categories
  have filled : between.toList ≠ [] := by simpa using filled
  refine ends (Template.doubled_iff.2 ⟨s.category.toList, between.toList.dropLast, ?_⟩)
  have shorter := congrArg List.dropLast categories
  simpa [List.dropLast_append_of_ne_nil, List.dropLast_cons_of_ne_nil, filled] using shorter

end Subject

theorem memoryIdentity?_eq (m : Json) : memoryIdentity? m = (Subject.ofJson? m).map Subject.joined := by
  rw [memoryIdentity?, Subject.ofJson?, Option.map_map]
  rfl

def subjects (memories : List Json) : List Subject := memories.filterMap Subject.ofJson?

theorem filterMap_memoryIdentity? (memories : List Json) :
    memories.filterMap memoryIdentity? = (subjects memories).map Subject.joined := by
  rw [subjects, List.map_filterMap]
  exact List.filterMap_congr fun m _ => memoryIdentity?_eq m

theorem length_keepMemories_pair {a b : Json} {s t : Subject} (own : Subject.ofJson? a = some s)
    (other : Subject.ofJson? b = some t) : (keepMemories [a, b]).length = 1 ↔ s.joined = t.joined := by
  by_cases same : s.joined = t.joined <;>
    simp [keepMemories, keepMemory, replaceOrAppend, Recollection.ofJson, memoryIdentity?_eq, own, other,
      same]

/-- Two memories are taken for one exactly when they are about the same subject or one subject runs into the
other. Where no subject runs into another, one memory of every subject that is brought up is kept, in the order
of the subjects. -/
theorem subjects_dedupeMemories (memories : List Json) :
    (∀ a b s t, Subject.ofJson? a = some s → Subject.ofJson? b = some t →
      ((dedupeMemories (.arr [a, b])).items.length = 1 ↔ s = t ∨ s.RunsInto t ∨ t.RunsInto s)) ∧
    ((∀ s ∈ subjects memories, ∀ t ∈ subjects memories, ¬ s.RunsInto t) →
      subjects (dedupeMemories (.arr memories)).items = (subjects memories).eraseDups) := by
  constructor
  · intro a b s t own other
    exact (length_keepMemories_pair own other).trans Subject.joined_eq_iff
  · intro apart
    have joins : Set.InjOn Subject.joined {s | s ∈ subjects memories} := fun s listed t listed' same =>
      (Subject.joined_eq_iff.1 same).resolve_right
        (not_or.2 ⟨apart s listed t listed', apart t listed' s listed⟩)
    change subjects (keepMemories memories) = _
    have kept := filterMap_keepMemories memories
    rw [filterMap_memoryIdentity?, filterMap_memoryIdentity?, eraseDups_map joins] at kept
    refine eq_of_map_eq joins (fun s listed => ?_) (fun s listed => List.mem_eraseDups.1 listed) kept
    obtain ⟨m, member, own⟩ := List.mem_filterMap.1 listed
    exact List.mem_filterMap.2 ⟨m, mem_of_mem_keepMemories member, own⟩

def roles : List Json := [
  .obj [("category", .str "family"), ("key", .str "Pet: name"), ("value", .str "cat")],
  .obj [("key", .str "role"), ("value", .str "nurse")],
  .obj [("category", .str "Family"), ("key", .str "pet: name "), ("value", .str "dog")]]

theorem subjects_dedupeMemories_roles :
    (∀ s ∈ subjects roles, ∀ t ∈ subjects roles, ¬ s.RunsInto t) ∧
      subjects (dedupeMemories (.arr roles)).items = [⟨"family", "pet: name"⟩, ⟨"general", "role"⟩] := by
  have ends : ∀ t ∈ subjects roles, t.Ends := by decide +kernel
  have apart : ∀ s ∈ subjects roles, ∀ t ∈ subjects roles, ¬ s.RunsInto t := fun s _ t listed =>
    Subject.not_runsInto_of_ends (ends t listed)
  have distinct : (subjects roles).eraseDups = [⟨"family", "pet: name"⟩, ⟨"general", "role"⟩] := by
    decide +kernel
  exact ⟨apart, ((subjects_dedupeMemories roles).2 apart).trans distinct⟩

def catOfFamily : Json :=
  .obj [("category", .str "family"), ("key", .str "pets::cat"), ("value", .str "Tom")]

def catOfPets : Json :=
  .obj [("category", .str "family::pets"), ("key", .str "cat"), ("value", .str "Kit")]

/-- Two cats that agree neither in category nor in key, and one of them is lost. -/
theorem dedupeMemories_cats :
    subjects [catOfFamily, catOfPets] = [⟨"family", "pets::cat"⟩, ⟨"family::pets", "cat"⟩] ∧
      subjects (dedupeMemories (.arr [catOfFamily, catOfPets])).items = [⟨"family", "pets::cat"⟩] := by
  decide +kernel

end Prompt.Transform
